import ChatRing.Lib.CyclicList
import ChatRing.Server.Leader

/-!
# The ring that the leader announces

The leader tells every peer which peer comes next, and corrects one peer when a peer
joins or is removed.  `Announced` reads off the last frame sent to a peer; the ring
invariant says that it names the next peer of the sorted list, around its end.

`membersAfter` is the purpose of the list, without order or sockets: the peers that were
admitted and not removed since.

## Main results

* `admitPeer_of_new` — what an admission of a new ID sends, and to whom.
* `ring_invariant` — list, members and announced successors after any run.
-/

namespace ChatRing
open CText CyclicList

/-- The frame names `q` as successor: the join reply, `KNOW_NEW_LEADER` or
`UPDATE_FROM_LEADER` with the address, port and ID of `q`. -/
def Names (leader q : ServerInfo) (frame : Text) : Prop :=
  frame = padX (joinReply leader.id q.addr q.port q.id) ∨
    frame = padX (knowNewLeader leader.id leader.addr leader.port q.id q.addr q.port) ∨
    frame = padX (updateFromLeader q.addr q.id q.port)

/-- The last frame the leader sent to `p` names `q` as its successor. -/
def Announced (s : Server) (p q : ServerInfo) : Prop :=
  ∃ frame, (sentOn s.out p.tcpSocket).getLast? = some frame ∧ Names s.self q frame

/-! ## What an admission sends -/

/-- The first record with a larger ID stands after the gap. -/
theorem getSuccessor_insert {a b : List ServerInfo} {x : ServerInfo} (hne : a ++ b ≠ [])
    (ha : ∀ s ∈ a, s.id < x.id) (hb : ∀ s ∈ b.head?, x.id < s.id) :
    getSuccessor x.id (a ++ x :: b) = gapSucc a b := by
  have hfind : (a ++ x :: b).find? (fun s => s.id > x.id) = b.head? := by
    have hnone : a.find? (fun s => s.id > x.id) = none := by
      rw [List.find?_eq_none]
      intro s hs
      have := ha s hs
      simp only [decide_eq_true_eq]
      omega
    rw [List.find?_append, hnone, Option.none_or, List.find?_cons_of_neg (by simp)]
    cases b with
    | nil => rfl
    | cons y b =>
        rw [List.find?_cons_of_pos (by simpa using hb y rfl)]
        rfl
  rw [getSuccessor, hfind, gapSucc]
  cases b with
  | cons y b => rfl
  | nil =>
      cases a with
      | nil => exact absurd rfl hne
      | cons y a => rfl

/-- The record that is told about the new one. -/
theorem predecessor_insert {a b : List ServerInfo} {x : ServerInfo} (self : ServerInfo)
    (hne : a ++ b ≠ []) :
    gapPred a b = some (if a.length = 0 then getLastServer self (a ++ x :: b)
      else (self :: (a ++ x :: b)).getD a.length self) := by
  by_cases ha : a = []
  · subst ha
    obtain ⟨l, y, rfl⟩ := (List.eq_nil_or_concat b).resolve_left (by simpa using hne)
    simp [gapPred, getLastServer, List.getLast?_cons]
  · have hlen : a.length ≠ 0 := fun h => ha (List.length_eq_zero_iff.mp h)
    obtain ⟨l, y, rfl⟩ := (List.eq_nil_or_concat a).resolve_left ha
    rw [if_neg hlen, getD_cons_append ha]
    simp [gapPred]

/-- The state once the connection stands and the list is `next`. -/
def Server.connected (env : Env) (s : Server) (port : ℤ) (addr : Text) (next : List ServerInfo) :
    Server := { s with
  next := next
  opened := insert env.connect s.opened
  out := s.out ++ [.connect addr (intText port) env.connect] }

/-- The same with the new record in the list. -/
def Server.inserted (env : Env) (s : Server) (id port : ℤ) (addr : Text) : Server :=
  s.connected env port addr
    (smaller id s.next ++ createServer env.now id addr port 0 env.connect :: larger id s.next)

/-- The reply over the new connection, and then the message to the peer before the gap. -/
def tellNeighbours (env : Env) (s : Server) (reply toPredecessor : Text)
    (predecessor : Option ServerInfo) : Socket × Server :=
  match s.send env env.connect (padX reply) with
  | none => (errorReturn, s)
  | some s =>
      match predecessor with
      | none => (env.connect, s)
      | some p =>
          match s.send env p.tcpSocket (padX toPredecessor) with
          | none => (errorReturn, s)
          | some s => (env.connect, s)

/-- What an admission sends when the list is split at the record with the ID. -/
theorem admitPeer_of_split {env : Env} {s : Server} {id port : ℤ} {addr : Text}
    (toPredecessor : Text) (reply : Option ServerInfo → Text) (hport : PortFits port)
    (hconnect : IsValidSocket env.connect) {a b : List ServerInfo} {x : ServerInfo}
    (happend : appendServerSorted env.now s.self s.next id addr port 0 env.connect = a ++ x :: b)
    (ha : ∀ p ∈ a, p.id ≠ id) (hx : x.id = id) :
    admitPeer env s id port addr reply toPredecessor =
      .ok (tellNeighbours env (s.connected env port addr (a ++ x :: b))
        (reply (if s.next = [] then none else getSuccessor id (a ++ x :: b))) toPredecessor
        (gapPred a b)) := by
  simp only [admitPeer, portText_of_fits hport, Except.ok_bind, Server.setupTcpClient, hconnect,
    if_true, happend, tellNeighbours, Server.connected]
  cases hsent : Server.send env _ env.connect (padX (reply _)) with
  | none => rfl
  | some t =>
      have hself : t.self = s.self := by rw [Server.send_eq_some hsent]
      by_cases hnil : a ++ b = []
      · obtain ⟨rfl, rfl⟩ := List.append_eq_nil_iff.mp hnil
        rfl
      · have hpos : getPredecessor id (a ++ x :: b) = some a.length :=
          findIdx?_append_cons (fun p hp => decide_eq_false (ha p hp)) (decide_eq_true hx)
        simp only [predecessor_insert (x := x) s.self hnil, hself]
        split
        · rename_i hl
          simp at hl
        · rename_i y hl
          have hlen := congrArg List.length hl
          simp only [List.length_append, List.length_cons, List.length_nil] at hlen
          exact absurd (List.length_eq_zero_iff.mp (by rw [List.length_append]; omega)) hnil
        · simp only [hpos]
          generalize (if a.length = 0 then getLastServer s.self (a ++ x :: b)
            else (s.self :: (a ++ x :: b)).getD a.length s.self) = p
          cases Server.send env t p.tcpSocket (padX toPredecessor) with
          | none => rfl
          | some u => rfl

/-- **An admission inserts the record into the gap of its ID**, and sends a reply over
the new connection and, unless the list was empty, a message to the peer before the gap. -/
theorem admitPeer_of_new {env : Env} {s : Server} {id port : ℤ} (addr toPredecessor : Text)
    (reply : Option ServerInfo → Text) (hport : PortFits port)
    (hconnect : IsValidSocket env.connect) (hnew : ¬ serverInfoExist id s.self s.next) :
    admitPeer env s id port addr reply toPredecessor =
      .ok (tellNeighbours env (s.inserted env id port addr)
        (reply (gapSucc (smaller id s.next) (larger id s.next))) toPredecessor
        (gapPred (smaller id s.next) (larger id s.next))) := by
  have hne : ∀ p ∈ s.next, p.id ≠ (createServer env.now id addr port 0 env.connect).id :=
    fun p hp heq => hnew ⟨p, List.mem_cons_of_mem _ hp, heq⟩
  have happend : appendServerSorted env.now s.self s.next id addr port 0 env.connect =
      smaller id s.next ++ createServer env.now id addr port 0 env.connect :: larger id s.next := by
    rw [appendServerSorted, if_neg hnew, insertSorted_of_new hne]
    rfl
  have ha : ∀ p ∈ smaller id s.next, p.id < id := lt_of_mem_smaller
  have hb : ∀ p ∈ (larger id s.next).head?, id < p.id := by
    intro p hp
    have hmem : p ∈ s.next := (List.dropWhile_sublist _).subset (List.mem_of_head? hp)
    exact lt_of_le_of_ne (le_head_larger p hp) (Ne.symm (hne p hmem))
  have hreply : (if s.next = [] then none else getSuccessor id (smaller id s.next ++
      createServer env.now id addr port 0 env.connect :: larger id s.next)) =
        gapSucc (smaller id s.next) (larger id s.next) := by
    by_cases hnil : s.next = []
    · rw [if_pos hnil, hnil]
      rfl
    · rw [if_neg hnil]
      exact getSuccessor_insert (x := createServer env.now id addr port 0 env.connect)
        (by rwa [smaller_append_larger]) ha hb
  rw [admitPeer_of_split toPredecessor reply hport hconnect happend (fun p hp => (ha p hp).ne) rfl,
    hreply]
  rfl

/-- The same when every send succeeds. -/
theorem admitPeer_eq {env : Env} {s : Server} {id port : ℤ} (addr toPredecessor : Text)
    (reply : Option ServerInfo → Text) (hsend : ∀ out k bytes, env.sends out k bytes = true)
    (hport₁ : 1 ≤ port) (hport₂ : port ≤ 65535) (hconnect : IsValidSocket env.connect)
    (hnew : ¬ serverInfoExist id s.self s.next) (hasc : Ascending s.next) :
    ∃ a b t, s.next = a ++ b ∧
      admitPeer env s id port addr reply toPredecessor = .ok (env.connect, t) ∧
      t.self = s.self ∧
      t.next = a ++ createServer env.now id addr port 0 env.connect :: b ∧
      Ascending t.next ∧
      t.out = s.out ++ (.connect addr (intText port) env.connect ::
        .send env.connect (padX (reply (gapSucc a b))) ::
          (gapPred a b).toList.map fun p => .send p.tcpSocket (padX toPredecessor)) := by
  have hne : ∀ p ∈ s.next, p.id ≠ id :=
    fun p hp heq => hnew ⟨p, List.mem_cons_of_mem _ hp, heq⟩
  have hab := smaller_append_larger id s.next
  have hasc' : Ascending (s.inserted env id port addr).next :=
    ascending_split (by rw [hab]; exact hasc) lt_of_mem_smaller (hasc.lt_of_mem_larger hne)
  rw [admitPeer_of_new addr toPredecessor reply (portFits_of_port hport₁ hport₂) hconnect hnew]
  simp only [tellNeighbours, Server.send, hsend, if_true]
  cases hpred : gapPred (smaller id s.next) (larger id s.next) with
  | none =>
      refine ⟨_, _, _, hab.symm, rfl, rfl, rfl, hasc', ?_⟩
      rw [hpred]
      simp [Server.inserted, Server.connected]
  | some p =>
      refine ⟨_, _, _, hab.symm, rfl, rfl, rfl, hasc', ?_⟩
      rw [hpred]
      simp [Server.inserted, Server.connected]

/-! ## The announced ring -/

/-- The invariant of a leader whose peers have distinct sockets. -/
structure RingInv (s : Server) : Prop where
  leading : Leading s
  head_ne : ∀ p ∈ s.next, p.id ≠ s.self.id
  sockets : (s.next.map ServerInfo.tcpSocket).Nodup
  linked : Linked (Announced s) s.next

/-- A peer that nothing was sent to keeps the successor it was told. -/
theorem Announced.of_sentOn {s t : Server} {p q : ServerInfo} (h : Announced s p q)
    (hself : t.self.id = s.self.id ∧ t.self.addr = s.self.addr ∧ t.self.port = s.self.port)
    (hsent : sentOn t.out p.tcpSocket = sentOn s.out p.tcpSocket) : Announced t p q := by
  obtain ⟨frame, hlast, hnames⟩ := h
  refine ⟨frame, by rw [hsent, hlast], ?_⟩
  simp only [Names, hself.1, hself.2.1, hself.2.2]
  exact hnames

theorem socket_ne_of_ne {l : List ServerInfo} (h : (l.map ServerInfo.tcpSocket).Nodup)
    {p q : ServerInfo} (hp : p ∈ l) (hq : q ∈ l) (hne : p ≠ q) : p.tcpSocket ≠ q.tcpSocket :=
  fun heq => hne (List.inj_on_of_nodup_map h hp hq heq)

/-- **An admission closes the ring around the new peer.** -/
theorem RingInv.admitPeer {env : Env} {s : Server} (h : RingInv s) {id port : ℤ}
    {addr toPredecessor : Text} {reply : Option ServerInfo → Text}
    (hsend : ∀ out k bytes, env.sends out k bytes = true)
    (hport₁ : 1 ≤ port) (hport₂ : port ≤ 65535) (hconnect : IsValidSocket env.connect)
    (hnew : ¬ serverInfoExist id s.self s.next)
    (hsocket : ∀ p ∈ s.next, p.tcpSocket ≠ env.connect)
    (hreply : ∀ q, Names s.self q (padX (reply (some q))))
    (htell : Names s.self (createServer env.now id addr port 0 env.connect) (padX toPredecessor)) :
    ∃ t, register (ChatRing.admitPeer env s id port addr reply toPredecessor) = .ok t ∧ RingInv t ∧
      ∀ p, p ∈ t.next ↔ p = createServer env.now id addr port 0 env.connect ∨ p ∈ s.next := by
  obtain ⟨a, b, t, hab, ht, hself, hnext, hasc, hout⟩ :=
    admitPeer_eq addr toPredecessor reply hsend hport₁ hport₂ hconnect
      hnew h.leading.ascending
  generalize hx : createServer env.now id addr port 0 env.connect = x at *
  have hxsocket : x.tcpSocket = env.connect := by rw [← hx]; rfl
  refine ⟨registerPeer t env.connect, by rw [register, ht]; rfl, ⟨?_, ?_, ?_, ?_⟩, ?_⟩
  · exact ⟨by simpa [hself] using h.leading.leader, by simpa using hasc⟩
  · intro p hp
    rw [registerPeer_self, hself]
    rw [registerPeer_next, hnext] at hp
    rcases List.mem_append.mp hp with hp | hp
    · exact h.head_ne p (by rw [hab]; exact List.mem_append_left b hp)
    · rcases List.mem_cons.mp hp with rfl | hp
      · rw [← hx]
        exact fun heq => hnew ⟨s.self, by simp, heq.symm⟩
      · exact h.head_ne p (by rw [hab]; exact List.mem_append_right a hp)
  · rw [registerPeer_next, hnext, List.map_append, List.map_cons, List.nodup_middle,
      ← List.map_append, ← hab, List.nodup_cons]
    refine ⟨?_, h.sockets⟩
    rw [List.mem_map]
    rintro ⟨p, hp, heq⟩
    exact hsocket p hp (heq.trans hxsocket)
  · rw [registerPeer_next, hnext]
    have hmem : ∀ p, p ∈ a ++ b → p ∈ s.next := by
      intro p hp
      rwa [hab]
    have hnodup : (a ++ b).Nodup := by
      rw [← hab]
      exact h.sockets.of_map
    refine Linked.insert hnodup (hab ▸ h.linked) ?_ ?_ ?_
    · intro p hp hne q hq
      refine hq.of_sentOn (by simp [hself]) ?_
      have hc : env.connect ≠ p.tcpSocket := (hsocket p (hmem p hp)).symm
      rw [registerPeer_out, hout, sentOn_append, sentOn_connect, sentOn_send_ne hc]
      cases hgap : gapPred a b with
      | none => simp
      | some r =>
          have hr : r ≠ p := by
            rintro rfl
            exact hne hgap
          have hsock := socket_ne_of_ne h.sockets (hmem r (gapPred_mem hgap)) (hmem p hp) hr
          simp [sentOn_send_ne hsock]
    · intro p hgap
      have hc : env.connect ≠ p.tcpSocket := (hsocket p (hmem p (gapPred_mem hgap))).symm
      refine ⟨padX toPredecessor, ?_, by simpa [hself] using htell⟩
      rw [registerPeer_out, hout, hgap, sentOn_append, sentOn_connect, sentOn_send_ne hc]
      simp [sentOn_send_self]
    · intro q hgap
      refine ⟨padX (reply (some q)), ?_, by simpa [hself] using hreply q⟩
      rw [registerPeer_out, hout, hgap, hxsocket, sentOn_append, sentOn_connect,
        sentOn_send_self]
      cases hpred : gapPred a b with
      | none => simp
      | some r =>
          have hr : r.tcpSocket ≠ env.connect := hsocket r (hmem r (gapPred_mem hpred))
          simp [sentOn_send_ne hr]
  · intro p
    rw [registerPeer_next, hnext, hab]
    simp only [List.mem_append, List.mem_cons]
    exact or_left_comm

/-- Two peers or more are left around the gap, and the repair links them. -/
theorem repair_eq {a b : List ServerInfo} :
    (repair a b = none ∧ (a ++ b).length < 2) ∨
      ∃ p q, repair a b = some (p, q) ∧ 2 ≤ (a ++ b).length ∧ gapPred a b = some p ∧
        gapSucc a b = some q := by
  rw [repair]
  split
  · rename_i hnil
    exact Or.inl ⟨rfl, by simp [hnil]⟩
  · rename_i y hone
    exact Or.inl ⟨rfl, by simp [hone]⟩
  · rename_i first rest hne hlist
    have hlen : 2 ≤ (a ++ b).length := by
      rw [hlist]
      cases rest with
      | nil => exact absurd rfl hne
      | cons second rest => simp
    refine Or.inr ⟨_, _, rfl, hlen, ?_, ?_⟩
    · by_cases ha : a = []
      · subst ha
        have hb : b = first :: rest := hlist
        simp [gapPred, hb, List.getLast?_cons]
      · obtain ⟨l, y, rfl⟩ := (List.eq_nil_or_concat a).resolve_left ha
        simp [gapPred]
    · cases b with
      | cons y b => rfl
      | nil =>
          have ha : a = first :: rest := by simpa using hlist
          simp [gapSucc, ha]

/-- **Removing one peer closes the ring over the gap.** -/
theorem RingInv.remove {env : Env} {s : Server} (h : RingInv s) {a b : List ServerInfo}
    {x : ServerInfo} (hnext : s.next = a ++ x :: b)
    (hsend : ∀ out k bytes, env.sends out k bytes = true) :
    ∃ t, ringStatus env s x.tcpSocket = .ok t ∧ t.next = a ++ b ∧ RingInv t := by
  have hasc := h.leading.ascending
  have hnodup := h.sockets
  rw [hnext] at hasc
  rw [hnext, List.map_append, List.map_cons, List.nodup_middle, ← List.map_append,
    List.nodup_cons] at hnodup
  obtain ⟨hx, hnodup⟩ := hnodup
  have hfirst : ∀ y ∈ a, y.tcpSocket ≠ x.tcpSocket := by
    intro y hy heq
    exact hx (List.mem_map.mpr ⟨y, List.mem_append_left b hy, heq⟩)
  have hid : ∀ y ∈ a, y.id ≠ x.id :=
    fun y hy => hasc.id_ne_of_append y (List.mem_append_left b hy)
  have hasc' : Ascending (a ++ b) :=
    hasc.sublist (List.Sublist.append_left (List.sublist_cons_self x b) a)
  have hhead : ∀ p ∈ a ++ b, p.id ≠ s.self.id := by
    intro p hp
    refine h.head_ne p ?_
    rw [hnext]
    exact (List.Sublist.append_left (List.sublist_cons_self x b) a).subset hp
  rw [ringStatus_eq h.leading.leader hnext hfirst hid]
  rcases repair_eq (a := a) (b := b) with ⟨hrepair, hlen⟩ | ⟨p, q, hrepair, -, hp, hq⟩
  · refine ⟨{ s with next := a ++ b }, by rw [hrepair]; rfl, rfl, ⟨h.leading.leader, hasc'⟩,
      hhead, hnodup, ?_⟩
    refine Linked.remove hnodup.of_map (hnext ▸ h.linked) ?_ ?_
    · intro p _ _ q hpq
      exact hpq
    · intro p q hle
      omega
  · refine ⟨{ s with
        next := a ++ b
        out := s.out ++ [.send p.tcpSocket (repairFrame q)] }, ?_, rfl,
      ⟨h.leading.leader, hasc'⟩, hhead, hnodup, ?_⟩
    · rw [hrepair, sendRepair, updateRing, Server.send, if_pos (hsend _ _ _)]
    · refine Linked.remove hnodup.of_map (hnext ▸ h.linked) ?_ ?_
      · intro r hr hne q' hrq
        refine hrq.of_sentOn ⟨rfl, rfl, rfl⟩ ?_
        have hpr : p ≠ r := by
          rintro rfl
          exact hne hp
        have hsock := socket_ne_of_ne hnodup (gapPred_mem hp) hr hpr
        simp [sentOn_send_ne hsock]
      · intro r q' _ hr hq'
        rw [hp] at hr
        rw [hq] at hq'
        cases hr
        cases hq'
        refine ⟨repairFrame q, ?_, Or.inr (Or.inr rfl)⟩
        simp [sentOn_send_self]

/-- The whole sweep: exactly the timed-out peers go, and the ring stays closed. -/
theorem RingInv.sweep {env : Env} (timeout : ℤ) {s : Server} (h : RingInv s)
    {kept rest : List ServerInfo} (hnext : s.next = kept ++ rest)
    (hsend : ∀ out k bytes, env.sends out k bytes = true) :
    ∃ t, ChatRing.sweep env timeout rest s = .ok t ∧ RingInv t ∧
      t.next = kept ++ rest.filter fun p => ¬ TimedOut env timeout p := by
  induction rest generalizing s kept with
  | nil => exact ⟨s, rfl, h, hnext⟩
  | cons x rest ih =>
      rw [ChatRing.sweep]
      by_cases hx : TimedOut env timeout x
      · obtain ⟨u, hu, hunext, hinv⟩ := h.remove hnext hsend
        obtain ⟨t, ht, htinv, htnext⟩ := ih hinv hunext
        refine ⟨t, ?_, htinv, ?_⟩
        · rw [if_pos hx, hu]
          exact ht
        · simpa [hx] using htnext
      · obtain ⟨t, ht, htinv, htnext⟩ := ih h (show s.next = kept ++ [x] ++ rest by simp [hnext])
        refine ⟨t, by rw [if_neg hx]; exact ht, htinv, ?_⟩
        simpa [hx] using htnext

theorem RingInv.updateHeartbeat {s : Server} (h : RingInv s) (env : Env) (id : ℤ) :
    RingInv (s.updateHeartbeat env id) ∧
      (s.updateHeartbeat env id).next = s.next.map (ServerInfo.beat env.now id) := by
  by_cases hid : s.self.id = id
  · have hupdate : s.updateHeartbeat env id =
        { s with self := { s.self with lastHeartbeat := env.now } } := by
      rw [Server.updateHeartbeat, if_pos hid]
    have hmap : s.next.map (ServerInfo.beat env.now id) = s.next := by
      refine (List.map_congr_left ?_).trans (List.map_id s.next)
      intro p hp
      rw [ServerInfo.beat, if_neg (by rw [← hid]; exact h.head_ne p hp)]
      rfl
    rw [hupdate, hmap]
    refine ⟨⟨⟨h.leading.leader, h.leading.ascending⟩, h.head_ne, h.sockets, ?_⟩, rfl⟩
    have hkeep : ∀ p q, Announced s p q →
        Announced { s with self := { s.self with lastHeartbeat := env.now } } p q :=
      fun p q hpq => hpq.of_sentOn ⟨rfl, rfl, rfl⟩ rfl
    simpa using h.linked.map (fun p : ServerInfo => p) hkeep
  · have hupdate : s.updateHeartbeat env id =
        { s with next := s.next.map (ServerInfo.beat env.now id) } := by
      rw [Server.updateHeartbeat, if_neg hid, updateHeartbeatTimeout_eq_map h.leading.ascending]
    rw [hupdate]
    refine ⟨⟨⟨h.leading.leader, h.leading.ascending.map_beat⟩, ?_, ?_, ?_⟩, rfl⟩
    · intro p hp
      obtain ⟨q, hq, rfl⟩ := List.mem_map.mp hp
      rw [ServerInfo.beat_id]
      exact h.head_ne q hq
    · have hsockets : (s.next.map (ServerInfo.beat env.now id)).map ServerInfo.tcpSocket =
          s.next.map ServerInfo.tcpSocket := by
        rw [List.map_map]
        exact List.map_congr_left fun p _ => ServerInfo.beat_tcpSocket env.now id p
      show ((s.next.map (ServerInfo.beat env.now id)).map ServerInfo.tcpSocket).Nodup
      rw [hsockets]
      exact h.sockets
    · refine h.linked.map (ServerInfo.beat env.now id) ?_
      rintro p q ⟨frame, hlast, hnames⟩
      refine ⟨frame, by simpa using hlast, ?_⟩
      simpa [Names] using hnames

/-! ## Runs -/

/-- Every send of the event succeeds. -/
def SendsSucceed : LeaderAction → Prop
  | .discovery env _ _ _ => ∀ out k bytes, env.sends out k bytes = true
  | .whoIsLeader env _ _ _ => ∀ out k bytes, env.sends out k bytes = true
  | .sweep env _ => ∀ out k bytes, env.sends out k bytes = true
  | _ => True

/-- The connection of an admission succeeds on a socket no other peer has, the ID is
new, and the port is a port number. -/
structure AdmissionFits (s : Server) (env : Env) (id port : ℤ) : Prop where
  connect : IsValidSocket env.connect
  socket : ∀ p ∈ s.next, p.tcpSocket ≠ env.connect
  new : ¬ serverInfoExist id s.self s.next
  port_ge : 1 ≤ port
  port_le : port ≤ 65535

instance (s : Server) (env : Env) (id port : ℤ) : Decidable (AdmissionFits s env id port) :=
  decidable_of_iff
    (IsValidSocket env.connect ∧ (∀ p ∈ s.next, p.tcpSocket ≠ env.connect) ∧
      ¬ serverInfoExist id s.self s.next ∧ 1 ≤ port ∧ port ≤ 65535)
    ⟨fun ⟨h₁, h₂, h₃, h₄, h₅⟩ => ⟨h₁, h₂, h₃, h₄, h₅⟩,
      fun ⟨h₁, h₂, h₃, h₄, h₅⟩ => ⟨h₁, h₂, h₃, h₄, h₅⟩⟩

/-- What is assumed of the other answers of the operating system, and of announcements. -/
def EventFits (s : Server) : LeaderAction → Prop
  | .discovery env id port _ => AdmissionFits s env id port
  | .whoIsLeader env id port _ => AdmissionFits s env id port
  | .disconnect i => IsValidSocket i
  | _ => True

instance (s : Server) : (a : LeaderAction) → Decidable (EventFits s a)
  | .discovery env id port _ => inferInstanceAs (Decidable (AdmissionFits s env id port))
  | .whoIsLeader env id port _ => inferInstanceAs (Decidable (AdmissionFits s env id port))
  | .disconnect i => inferInstanceAs (Decidable (IsValidSocket i))
  | .heartbeat _ _ => isTrue trivial
  | .sweep _ _ => isTrue trivial

/-- The assumptions on one event. -/
structure Orderly (s : Server) (a : LeaderAction) : Prop where
  sends : SendsSucceed a
  fits : EventFits s a

/-- The peers that were admitted and not removed since, one event later. -/
def membersAfter (m : Set ServerInfo) : LeaderAction → Set ServerInfo
  | .discovery env id port addr => insert (createServer env.now id addr port 0 env.connect) m
  | .whoIsLeader env id port addr => insert (createServer env.now id addr port 0 env.connect) m
  | .heartbeat env id => ServerInfo.beat env.now id '' m
  | .disconnect _ => m
  | .sweep env timeout => {p ∈ m | ¬ TimedOut env timeout p}

/-- The peers that were admitted and not removed in a history. -/
def members (h : List (Server × LeaderAction)) : Set ServerInfo :=
  h.foldl (fun m x => membersAfter m x.2) ∅

theorem members_concat (h : List (Server × LeaderAction)) (s : Server) (a : LeaderAction) :
    members (h ++ [(s, a)]) = membersAfter (members h) a := by
  simp [members]

/-- **Every orderly event returns, keeps the ring, and changes the list as it should.** -/
theorem RingInv.step {s : Server} (h : RingInv s) {a : LeaderAction} (ha : Orderly s a) :
    ∃ t, s.leaderHandle a = .ok t ∧ RingInv t ∧
      {p | p ∈ t.next} = membersAfter {p | p ∈ s.next} a := by
  cases a with
  | discovery env id port addr =>
      obtain ⟨t, ht, hinv, hmem⟩ : ∃ t, register (newServer env s id port addr) = .ok t ∧
          RingInv t ∧ ∀ p, p ∈ t.next ↔
            p = createServer env.now id addr port 0 env.connect ∨ p ∈ s.next :=
        h.admitPeer ha.sends ha.fits.port_ge ha.fits.port_le ha.fits.connect ha.fits.new
          ha.fits.socket (fun q => Or.inl rfl) (Or.inr (Or.inr rfl))
      exact ⟨t, ht, hinv, Set.ext hmem⟩
  | whoIsLeader env id port addr =>
      obtain ⟨t, ht, hinv, hmem⟩ : ∃ t, register (ringReconstruction env s id port addr) = .ok t ∧
          RingInv t ∧ ∀ p, p ∈ t.next ↔
            p = createServer env.now id addr port 0 env.connect ∨ p ∈ s.next :=
        h.admitPeer ha.sends ha.fits.port_ge ha.fits.port_le ha.fits.connect ha.fits.new
          ha.fits.socket (fun q => Or.inr (Or.inl rfl)) (Or.inr (Or.inl rfl))
      exact ⟨t, ht, hinv, Set.ext hmem⟩
  | heartbeat env id =>
      obtain ⟨hinv, hnext⟩ := h.updateHeartbeat env id
      refine ⟨s.updateHeartbeat env id, rfl, hinv, ?_⟩
      rw [hnext]
      ext p
      simp [membersAfter]
  | disconnect i =>
      obtain ⟨t, ht⟩ := disconnect_isOk h.leading.leader ha.fits
      obtain ⟨hself, hnext, hout⟩ := disconnect_next h.leading.leader ht
      refine ⟨t, ht, ⟨⟨?_, ?_⟩, ?_, ?_, ?_⟩, ?_⟩
      · rw [hself]
        exact h.leading.leader
      · rw [hnext]
        exact h.leading.ascending
      · rw [hself, hnext]
        exact h.head_ne
      · rw [hnext]
        exact h.sockets
      · have hkeep : ∀ p q, Announced s p q → Announced t p q :=
          fun p q hpq => hpq.of_sentOn (by simp [hself]) (by rw [hout])
        rw [hnext]
        simpa using h.linked.map (fun p : ServerInfo => p) hkeep
      · rw [hnext]
        rfl
  | sweep env timeout =>
      obtain ⟨t, ht, hinv, hnext⟩ := h.sweep timeout (List.nil_append s.next).symm ha.sends
      refine ⟨t, ht, hinv, ?_⟩
      rw [hnext]
      ext p
      simp [membersAfter]

theorem ringInv_of_start {s : Server} (hleader : s.self.leader = 1) (hnext : s.next = []) :
    RingInv s where
  leading := leading_of_start hleader hnext
  head_ne := by simp [hnext]
  sockets := by simp [hnext]
  linked := by
    rw [hnext]
    exact linked_nil

/-- **The ring invariant of the leader.**  After any run of orderly events that starts
with the list `[leader]`, the peers are those admitted and not removed, in strictly
ascending order of their IDs; the last frame sent to every peer names the cyclically
next peer; so the announced successors form one cycle.  Every further orderly event
returns. -/
theorem ring_invariant {s₀ s : Server} (hleader : s₀.self.leader = 1) (hstart : s₀.next = [])
    {h : List (Server × LeaderAction)} (run : Run Server.leaderStep s₀ h s)
    (horderly : ∀ x a, (x, a) ∈ h → Orderly x a) :
    Ascending s.next ∧ {p | p ∈ s.next} = members h ∧ Linked (Announced s) s.next ∧
      (∀ p ∈ s.next, ∀ q ∈ s.next, Relation.ReflTransGen
        (fun y z => y ∈ s.next ∧ z ∈ s.next ∧ Announced s y z) p q) ∧
      ∀ a, s.LeaderPossible a → Orderly s a → (s.leaderStep a).isSome := by
  have hinv : RingInv s ∧ {p | p ∈ s.next} = members h := by
    induction run with
    | nil =>
        refine ⟨ringInv_of_start hleader hstart, ?_⟩
        ext p
        simp [hstart, members]
    | @snoc h x u a run hstep ih =>
        obtain ⟨hx, hmem⟩ := ih fun y b hy => horderly y b (List.mem_append_left _ hy)
        obtain ⟨t, ht, hinv, hnext⟩ := hx.step (horderly x a (by simp))
        have hu := (Server.leaderStep_eq_some hstep).2
        rw [ht] at hu
        cases hu
        refine ⟨hinv, ?_⟩
        rw [members_concat, hnext, hmem]
  obtain ⟨hring, hmem⟩ := hinv
  refine ⟨hring.leading.ascending, hmem, hring.linked, ?_, ?_⟩
  · intro p hp q hq
    exact hring.linked.reaches hp hq
  · intro a hpossible ha
    obtain ⟨t, ht, -⟩ := hring.step ha
    simp [Server.leaderStep, hpossible, ht, Except.toOption]

/-! ## A ring that grows and shrinks -/

private def firstLeader : Server := startLeader 0 7 (text "127.0.0.1") 4041 20000 3 4

private def calmAt (now : ℤ) (fd : Socket) : Env := ⟨now, fd, fun _ _ _ => true, true, 0⟩

/-- Three peers join, the middle one stays silent and is removed. -/
private def growAndShrink : List LeaderAction :=
  [.discovery (calmAt 0 5) 20 5000 (text "10.0.0.1"),
    .whoIsLeader (calmAt 6 6) 30 5000 (text "10.0.0.2"),
    .discovery (calmAt 6 7) 10 5000 (text "10.0.0.3"), .sweep (calmAt 9 0) 8]

private def shrunk : Server :=
  (exec Server.leaderStep firstLeader growAndShrink).get (by decide +kernel)

private theorem run_growAndShrink :
    Run Server.leaderStep firstLeader (trace Server.leaderStep firstLeader growAndShrink) shrunk :=
  Run.of_exec (Option.some_get _).symm

theorem ring_invariant_grow_and_shrink :
    (shrunk.next.map ServerInfo.id) = [10, 30] ∧
      {p | p ∈ shrunk.next} = members (trace Server.leaderStep firstLeader growAndShrink) ∧
      Linked (Announced shrunk) shrunk.next := by
  have hsends : ∀ a ∈ growAndShrink, SendsSucceed a := by
    simp [growAndShrink, SendsSucceed, calmAt]
  have hfits : ∀ p ∈ trace Server.leaderStep firstLeader growAndShrink, EventFits p.1 p.2 := by
    decide +kernel
  have h := ring_invariant rfl rfl run_growAndShrink
    fun x a hmem => ⟨hsends a (mem_of_mem_trace hmem), hfits (x, a) hmem⟩
  exact ⟨by decide +kernel, h.2.1, h.2.2.1⟩

end ChatRing
