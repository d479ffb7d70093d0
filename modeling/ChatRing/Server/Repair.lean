import ChatRing.Server.Successor
import ChatRing.Server.Sweep

/-!
# Repairs between survivors

A sweep removes the timed-out peers one at a time and repairs the ring after each of them,
so that the peers around a gap may be peers that the sweep has not come to yet.

## Main results

* `survivorsOnly_iff` — when no repair of a sweep involves a timed-out peer.
* `gaps_clear_iff` — with the sockets in order: when no two timed-out peers are neighbours.
-/

namespace ChatRing
open CText CyclicList

/-- The calls of `update_ring` in the rest of a sweep, up to the one that fails. -/
def sweepCalls (env : Env) (timeout : ℤ) :
    List ServerInfo → Server → List (ServerInfo × ServerInfo)
  | [], _ => []
  | current :: rest, s =>
      if TimedOut env timeout current then
        (ringCall s current.tcpSocket).toList ++
          match ringStatus env s current.tcpSocket with
          | .ok u => sweepCalls env timeout rest u
          | .error _ => []
      else sweepCalls env timeout rest s

/-- Every `UPDATE_FROM_LEADER` of a sweep goes to a survivor and names one, so that the
leader does not exit, nor a follower that can connect to survivors. -/
structure SurvivorsOnly (env : Env) (timeout : ℤ) (s : Server) : Prop where
  calls : ∀ c ∈ sweepCalls env timeout s.next s,
    ¬ TimedOut env timeout c.1 ∧ ¬ TimedOut env timeout c.2
  leader : checkHeartbeatTimeout env s timeout ≠ .error .exit
  followers : ∀ c ∈ sweepCalls env timeout s.next s, ∀ (follower : Server) (env' : Env)
    (i : Socket), (¬ TimedOut env timeout c.2 → IsValidSocket env'.connect) →
      handleSocketChange env' follower i (repairFrame c.2) ≠ .error .exit

/-- What stands before and after the first record with the socket. -/
def around (i : Socket) (next : List ServerInfo) : List ServerInfo × List ServerInfo :=
  (next.takeWhile fun p => p.tcpSocket ≠ i, (next.dropWhile fun p => p.tcpSocket ≠ i).tail)

/-- The gaps that the rest of a sweep makes in the list, one after the other, as long as
it finds the sockets. -/
def gaps (env : Env) (timeout : ℤ) :
    List ServerInfo → List ServerInfo → List (List ServerInfo × List ServerInfo)
  | [], _ => []
  | x :: rest, next =>
      if TimedOut env timeout x then
        if ∃ p ∈ next, p.tcpSocket = x.tcpSocket then
          around x.tcpSocket next ::
            gaps env timeout rest ((around x.tcpSocket next).1 ++ (around x.tcpSocket next).2)
        else []
      else gaps env timeout rest next

/-- Both peers next to the gap are alive, unless fewer than two peers are left. -/
def Clear (env : Env) (timeout : ℤ) (gap : List ServerInfo × List ServerInfo) : Prop :=
  2 ≤ (gap.1 ++ gap.2).length →
    (∀ p ∈ gapPred gap.1 gap.2, ¬ TimedOut env timeout p) ∧
      ∀ q ∈ gapSucc gap.1 gap.2, ¬ TimedOut env timeout q

/-- Every gap of the sweep is clear. -/
def GapsClear (env : Env) (timeout : ℤ) (next : List ServerInfo) : Prop :=
  ∀ gap ∈ gaps env timeout next next, Clear env timeout gap

section Sweep
variable {env : Env} {timeout : ℤ} {s : Server} {a b l : List ServerInfo} {x : ServerInfo}

theorem around_append (hfirst : ∀ y ∈ a, y.tcpSocket ≠ x.tcpSocket) :
    around x.tcpSocket (a ++ x :: b) = (a, b) := by
  have ha : ∀ y ∈ a, decide (y.tcpSocket ≠ x.tcpSocket) = true :=
    fun y hy => decide_eq_true (hfirst y hy)
  rw [around, List.takeWhile_append_of_pos ha, List.dropWhile_append_of_pos ha]
  simp

/-- Either no record has the socket, or the list is split at the first one that has. -/
theorem around_cases (i : Socket) (next : List ServerInfo) :
    (∀ p ∈ next, p.tcpSocket ≠ i) ∨ ∃ a x b, next = a ++ x :: b ∧ x.tcpSocket = i ∧
      ∀ y ∈ a, y.tcpSocket ≠ i := by
  by_cases h : ∃ p ∈ next, p.tcpSocket = i
  · refine Or.inr ?_
    have hsome : (next.findIdx? fun p => p.tcpSocket = i).isSome := by simpa using h
    obtain ⟨k, hk⟩ := Option.isSome_iff_exists.mp hsome
    obtain ⟨a, x, b, hnext, -, hx, ha⟩ := findIdx?_eq_some hk
    exact ⟨a, x, b, hnext, by simpa using hx, fun y hy => by simpa using ha y hy⟩
  · exact Or.inl fun p hp heq => h ⟨p, hp, heq⟩

/-- A repair is made exactly when two peers are left, between the peers next to the gap. -/
theorem clear_iff : Clear env timeout (a, b) ↔ ∀ c ∈ repair a b,
    ¬ TimedOut env timeout c.1 ∧ ¬ TimedOut env timeout c.2 := by
  rcases repair_eq (a := a) (b := b) with ⟨hnone, hlen⟩ | ⟨p, q, hsome, hlen, hp, hq⟩
  · rw [hnone]
    refine iff_of_true (fun h => ?_) (by simp)
    exact absurd hlen (not_lt_of_ge h)
  · rw [hsome, Clear, hp, hq]
    simp only [Option.mem_some_iff, forall_eq']
    exact ⟨fun h => h hlen, fun h _ => h⟩

/-- One removal: no record has the socket, or the first one goes and the ring is repaired
around it. -/
theorem ringStatus_cases (env : Env) (hs : Leading s) (i : Socket) :
    ((¬ ∃ p ∈ s.next, p.tcpSocket = i) ∧ ringCall s i = none ∧
      ringStatus env s i = .error .nullDeref) ∨
    ((∃ p ∈ s.next, p.tcpSocket = i) ∧ ∃ a b, around i s.next = (a, b) ∧
      (a ++ b).Sublist s.next ∧ ringCall s i = repair a b ∧
      ringStatus env s i = sendRepair env { s with next := a ++ b } (repair a b)) := by
  rcases around_cases i s.next with hnone | ⟨a, x, b, hnext, rfl, hfirst⟩
  · have hfind : istPeerServer i s.self s.next = none := by
      rw [istPeerServer]
      split
      · rfl
      · rw [List.findIdx?_eq_none_iff]
        exact fun p hp => decide_eq_false (hnone p hp)
    refine Or.inl ⟨?_, ?_, ?_⟩
    · rintro ⟨p, hp, heq⟩
      exact hnone p hp heq
    · simp [ringCall, hfind]
    · simp [ringStatus, hfind]
  · have hid : ∀ y ∈ a, y.id ≠ x.id := by
      have hasc := hs.ascending
      rw [hnext] at hasc
      exact fun y hy => hasc.id_ne_of_append y (List.mem_append_left b hy)
    refine Or.inr ⟨⟨x, by simp [hnext], rfl⟩, a, b, ?_, ?_,
      ringCall_eq hs.leader hnext hfirst hid, ringStatus_eq hs.leader hnext hfirst hid⟩
    · rw [hnext, around_append hfirst]
    · rw [hnext]
      exact List.Sublist.append_left (List.sublist_cons_self x b) a

/-- Sends to survivors succeed. -/
def SendsToLiving (env : Env) (timeout : ℤ) (next : List ServerInfo) : Prop :=
  ∀ p ∈ next, ¬ TimedOut env timeout p →
    ∀ out bytes, env.sends out p.tcpSocket bytes = true

/-- A repair that is told to a survivor is sent. -/
theorem sendRepair_of_living (hsends : SendsToLiving env timeout s.next) {a b : List ServerInfo}
    (hsub : (a ++ b).Sublist s.next) (hliving : ∀ c ∈ repair a b, ¬ TimedOut env timeout c.1) :
    ∃ u, sendRepair env { s with next := a ++ b } (repair a b) = .ok u ∧ u.self = s.self ∧
      u.next = a ++ b := by
  rcases repair_eq (a := a) (b := b) with ⟨hrepair, -⟩ | ⟨p, q, hrepair, -, hp, -⟩
  · exact ⟨{ s with next := a ++ b }, by rw [hrepair]; rfl, rfl, rfl⟩
  · have hsent := hsends p (hsub.subset (gapPred_mem hp)) (hliving (p, q) hrepair) s.out
      (repairFrame q)
    refine ⟨{ s with next := a ++ b, out := s.out ++ [.send p.tcpSocket (repairFrame q)] },
      ?_, rfl, rfl⟩
    rw [hrepair, sendRepair, updateRing, Server.send, if_pos hsent]

/-- **The calls of a sweep are between survivors exactly when its gaps are clear.** -/
theorem calls_iff (hs : Leading s) (hsends : SendsToLiving env timeout s.next) :
    (∀ c ∈ sweepCalls env timeout l s, ¬ TimedOut env timeout c.1 ∧ ¬ TimedOut env timeout c.2) ↔
      ∀ gap ∈ gaps env timeout l s.next, Clear env timeout gap := by
  induction l generalizing s with
  | nil => simp [sweepCalls, gaps]
  | cons x l ih =>
      rw [sweepCalls, gaps]
      by_cases hx : TimedOut env timeout x
      · rw [if_pos hx, if_pos hx]
        rcases ringStatus_cases env hs x.tcpSocket with
          ⟨hnone, hcall, hstatus⟩ | ⟨hsome, a, b, haround, hsub, hcall, hstatus⟩
        · rw [hcall, hstatus, if_neg hnone]
          simp
        · rw [hcall, hstatus, if_pos hsome, haround, List.forall_mem_cons, clear_iff]
          simp only [List.forall_mem_append, Option.mem_toList]
          refine and_congr_right fun hliving => ?_
          obtain ⟨u, hu, hself, hnext⟩ :=
            sendRepair_of_living hsends hsub fun c hc => (hliving c hc).1
          rw [hu]
          have hleading : Leading u := hs.of_sublist hself (by rw [hnext]; exact hsub)
          have hsends' : SendsToLiving env timeout u.next := by
            rw [hnext]
            exact fun p hp => hsends p (hsub.subset hp)
          rw [← hnext]
          exact ih hleading hsends'
      · rw [if_neg hx, if_neg hx]
        exact ih hs hsends

theorem sweep_ne_exit (hs : Leading s) (hsends : SendsToLiving env timeout s.next)
    (hcalls : ∀ c ∈ sweepCalls env timeout l s,
      ¬ TimedOut env timeout c.1 ∧ ¬ TimedOut env timeout c.2) :
    sweep env timeout l s ≠ .error .exit := by
  induction l generalizing s with
  | nil => exact fun h => by cases h
  | cons x l ih =>
      rw [sweepCalls] at hcalls
      rw [sweep]
      by_cases hx : TimedOut env timeout x
      · rw [if_pos hx] at hcalls ⊢
        rcases ringStatus_cases env hs x.tcpSocket with
          ⟨-, -, hstatus⟩ | ⟨-, a, b, -, hsub, hcall, hstatus⟩
        · rw [hstatus]
          exact fun h => by cases h
        · rw [hcall, hstatus, List.forall_mem_append] at hcalls
          obtain ⟨hliving, hrest⟩ := hcalls
          obtain ⟨u, hu, hself, hnext⟩ := sendRepair_of_living hsends hsub
            fun c hc => (hliving c (Option.mem_toList.mpr hc)).1
          rw [hu] at hrest
          rw [hstatus, hu]
          refine ih (hs.of_sublist hself (by rw [hnext]; exact hsub)) ?_ hrest
          rw [hnext]
          exact fun p hp => hsends p (hsub.subset hp)
      · rw [if_neg hx] at hcalls ⊢
        exact ih hs hsends hcalls

/-! ## Neighbours that have timed out -/

/-- There are at most two peers, or no two that are next to each other around the ring
have both timed out. -/
def Sparse (env : Env) (timeout : ℤ) (next : List ServerInfo) : Prop :=
  next.length ≤ 2 ∨ Linked (fun p q => ¬ (TimedOut env timeout p ∧ TimedOut env timeout q)) next

/-- Taking out a timed-out peer loses only the condition on its own gap. -/
theorem sparse_remove (hx : TimedOut env timeout x) (hnodup : (a ++ b).Nodup) :
    Sparse env timeout (a ++ x :: b) ↔
      Clear env timeout (a, b) ∧ Sparse env timeout (a ++ b) := by
  constructor
  · rintro (hlen | hlinked)
    · simp only [List.length_append, List.length_cons] at hlen
      have hlt : (a ++ b).length < 2 := by
        rw [List.length_append]
        omega
      exact ⟨fun h => absurd hlt (not_lt_of_ge h), Or.inl hlt.le⟩
    · have hpred : ∀ p ∈ gapPred a b, ¬ TimedOut env timeout p :=
        fun p hp htimed => hlinked.of_gapPred hp ⟨htimed, hx⟩
      have hsucc : ∀ q ∈ gapSucc a b, ¬ TimedOut env timeout q :=
        fun q hq htimed => hlinked.of_gapSucc hq ⟨hx, htimed⟩
      refine ⟨fun _ => ⟨hpred, hsucc⟩, Or.inr ?_⟩
      exact hlinked.remove hnodup (fun _ _ _ _ h => h) fun p q _ hp _ h => hpred p hp h.1
  · rintro ⟨hclear, hsparse⟩
    by_cases hlen : 2 ≤ (a ++ b).length
    · obtain ⟨hpred, hsucc⟩ := hclear hlen
      have hlinked : Linked (fun p q => ¬ (TimedOut env timeout p ∧ TimedOut env timeout q))
          (a ++ b) := by
        rcases hsparse with htwo | hlinked
        · have hne : a ++ b ≠ [] := by
            rintro h
            rw [h] at hlen
            exact absurd hlen (by decide)
          obtain ⟨p, hp⟩ := Option.ne_none_iff_exists'.mp (mt gapPred_eq_none.mp hne)
          exact linked_of_length_le_two htwo (gapPred_mem hp) (fun _ h => hpred p hp h.1)
            fun _ h => hpred p hp h.2
        · exact hlinked
      exact Or.inr (hlinked.insert hnodup (fun _ _ _ _ h => h) (fun p hp h => hpred p hp h.1)
        fun q hq h => hsucc q hq h.2)
    · refine Or.inl ?_
      simp only [List.length_append, List.length_cons] at hlen ⊢
      omega

/-- **With the sockets in order a sweep makes clear gaps exactly when the timed-out peers
are sparse.**  The peers looked at so far are `a`, and `l` are those still to come. -/
theorem gaps_clear_iff (ha : ∀ y ∈ a, ¬ TimedOut env timeout y)
    (horder : SocketsInOrder env timeout (a ++ l)) (hnodup : (a ++ l).Nodup) :
    (∀ gap ∈ gaps env timeout l (a ++ l), Clear env timeout gap) ↔
      Sparse env timeout (a ++ l) := by
  induction l generalizing a with
  | nil =>
      refine iff_of_true (by simp [gaps]) (Or.inr ?_)
      rintro u p v q c hsplit - ⟨hp, -⟩
      rw [List.append_nil] at hsplit
      exact ha p (by simp [hsplit]) hp
  | cons x l ih =>
      rw [gaps]
      by_cases hx : TimedOut env timeout x
      · obtain ⟨hfirst, horder'⟩ := (socketsInOrder_remove hx ha).mp horder
        have hnodup' : (a ++ l).Nodup :=
          hnodup.sublist (List.Sublist.append_left (List.sublist_cons_self x l) a)
        rw [if_pos hx, if_pos ⟨x, by simp, rfl⟩, around_append hfirst, List.forall_mem_cons,
          ih ha horder' hnodup', ← sparse_remove hx hnodup']
      · have hsplit : a ++ x :: l = (a ++ [x]) ++ l := by simp
        have ha' : ∀ y ∈ a ++ [x], ¬ TimedOut env timeout y := by
          intro y hy
          rcases List.mem_append.mp hy with hy | hy
          · exact ha y hy
          · rw [List.mem_singleton.mp hy]
            exact hx
        rw [if_neg hx]
        rw [hsplit] at horder hnodup ⊢
        exact ih ha' horder hnodup

/-! ## The exits -/

/-- The calls of a sweep are between peers of the list. -/
theorem mem_of_mem_sweepCalls (hs : Leading s) {c : ServerInfo × ServerInfo}
    (hc : c ∈ sweepCalls env timeout l s) : c.1 ∈ s.next ∧ c.2 ∈ s.next := by
  induction l generalizing s with
  | nil => cases hc
  | cons x l ih =>
      rw [sweepCalls] at hc
      by_cases hx : TimedOut env timeout x
      · rw [if_pos hx] at hc
        rcases ringStatus_cases env hs x.tcpSocket with
          ⟨-, hcall, hstatus⟩ | ⟨-, a, b, -, hsub, hcall, hstatus⟩
        · rw [hcall, hstatus] at hc
          cases hc
        · rw [hcall, hstatus, List.mem_append, Option.mem_toList] at hc
          rcases hc with hc | hc
          · rcases repair_eq (a := a) (b := b) with ⟨hrepair, -⟩ | ⟨p, q, hrepair, -, hp, hq⟩
            · rw [hrepair] at hc
              cases hc
            · rw [hrepair] at hc
              cases hc
              exact ⟨hsub.subset (gapPred_mem hp), hsub.subset (gapSucc_mem hq)⟩
          · cases hu : sendRepair env { s with next := a ++ b } (repair a b) with
            | error e =>
                rw [hu] at hc
                cases hc
            | ok u =>
                rw [hu] at hc
                obtain ⟨hself, hnext⟩ := sendRepair_eq_ok hu
                have hmem := ih (hs.of_sublist hself (by rw [hnext]; exact hsub)) hc
                rw [hnext] at hmem
                exact ⟨hsub.subset hmem.1, hsub.subset hmem.2⟩
      · rw [if_neg hx] at hc
        exact ih hs hc

theorem dropSocket_ne_exit {fd : Socket} : s.dropSocket fd ≠ .error .exit := by
  intro h
  rw [Server.dropSocket, Server.fdClr] at h
  split at h
  · cases h
  · cases h

theorem replaceSuccessor_ne_exit {addr : Text} {id port : ℤ} {fd : Socket} :
    replaceSuccessor env s addr id port fd ≠ .error .exit := by
  intro h
  rw [replaceSuccessor] at h
  split at h
  · cases h
  · cases h
  · rename_i first second rest hnext
    rcases Except.bind_eq_error.mp h with h | ⟨u, -, h⟩
    · have hmem : second ∈ s.next := by simp [hnext]
      obtain ⟨next, hdelete⟩ := deleteServer_of_mem hmem
      rw [Server.deleteServer, hdelete] at h
      cases h
    · exact dropSocket_ne_exit h

theorem newSuccessor_ne_exit {addr : Text} {id port : ℤ} (hport : PortFits port)
    (hconnect : IsValidSocket env.connect) :
    newSuccessor env s addr id port ≠ .error .exit := by
  intro h
  simp only [newSuccessor, portText_of_fits hport, Except.ok_bind, Server.setupTcpClient,
    hconnect, if_true] at h
  rcases Except.bind_eq_error.mp h with h | ⟨u, -, h⟩
  · exact replaceSuccessor_ne_exit h
  · cases h

/-- A follower that can connect to the successor it is told does not exit.  On another
connection than the leader's it does not know the frame. -/
theorem repairFrame_ne_exit {p : ServerInfo} (hp : IsMember p)
    (hconnect : IsValidSocket env.connect) (i : Socket) :
    handleSocketChange env s i (repairFrame p) ≠ .error .exit := by
  by_cases hi : i = s.ltcpSocket
  · have hread : (Receiver.connection (i = s.ltcpSocket)).read (repairFrame p) =
        some (.updateFromLeader p.addr p.id p.port) := by
      rw [decide_eq_true hi]
      exact read_updateFromLeader hp.addr hp.id hp.isInt_port
    rw [handleSocketChange_of_read hread]
    exact newSuccessor_ne_exit (portFits_of_port hp.port_pos hp.port_le) hconnect
  · have hcarried : Carried updateFromLeaderLine.template [.str p.addr, .int p.id, .int p.port] :=
      updateFromLeaderLine.carried
        (.cons ⟨rfl, rfl, hp.addr⟩ (.cons hp.id (.cons hp.isInt_port .nil)))
    have hbody := hcarried.padX (f := "UPDATE_FROM_LEADER:%s:%d:%d\n\n") rfl
    have hne : repairFrame p ≠ [] := by
      intro hnil
      rw [repairFrame, updateFromLeader] at hnil
      rw [hnil] at hbody
      cases hbody
    rw [handleSocketChange, if_neg hne, repairFrame, updateFromLeader, hbody]
    show dispatch env s i _ ≠ _
    rw [dispatch, decide_eq_false hi]
    exact fun h => by cases h

/-- **The repairs of a sweep involve survivors only exactly when its gaps are clear**,
which, while no living peer stands before a timed-out one with the same socket, is when
the timed-out peers are sparse. -/
theorem survivorsOnly_iff (hs : LeaderList s) (hsends : SendsToLiving env timeout s.next) :
    (SurvivorsOnly env timeout s ↔ GapsClear env timeout s.next) ∧
      (SocketsInOrder env timeout s.next →
        (SurvivorsOnly env timeout s ↔ Sparse env timeout s.next)) := by
  have hiff : SurvivorsOnly env timeout s ↔ GapsClear env timeout s.next := by
    rw [GapsClear, ← calls_iff hs.toLeading hsends]
    refine ⟨fun h => h.calls, fun h => ⟨h, sweep_ne_exit hs.toLeading hsends h, ?_⟩⟩
    intro c hc follower env' i hconnect
    exact repairFrame_ne_exit (hs.peers c.2 (mem_of_mem_sweepCalls hs.toLeading hc).2)
      (hconnect (h c hc).2) i
  refine ⟨hiff, fun horder => hiff.trans ?_⟩
  have hnodup : s.next.Nodup := hs.ascending.imp fun h heq => by
    rw [heq] at h
    exact lt_irrefl _ h
  exact gaps_clear_iff (a := []) (by simp) horder hnodup

end Sweep

/-! ### The last peer and the first -/

/-- A peer on descriptor `fd`, heard of at time `now`. -/
private def peerAt (now id : ℤ) (fd : Socket) : ServerInfo :=
  createServer now id (text "10.0.0.1") 5000 0 fd

/-- Leader 7, with the peers 10, 20 and 30 on the descriptors 5, 6 and 7; peer 30 was heard
of at time `now`. -/
private def leaderOfThree (now : ℤ) : Server :=
  { startLeader 0 7 (text "127.0.0.1") 4041 20000 3 4 with
    next := [peerAt 0 10 5, peerAt 6 20 6, peerAt now 30 7] }

private theorem isMember_peerAt (now : ℤ) (fd : Socket) {id : ℤ} (hid : IsInt id) :
    IsMember (peerAt now id fd) where
  id := hid
  addr := show IsAddress (text "10.0.0.1") from
    ⟨⟨by decide, by decide, by decide, by decide⟩, by decide⟩
  addr_ne := show text "10.0.0.1" ≠ text "0.0.0.0" by decide
  port_pos := show (1 : ℤ) ≤ 5000 by decide
  port_le := show (5000 : ℤ) ≤ 65535 by decide

private theorem leaderList_leaderOfThree (now : ℤ) : LeaderList (leaderOfThree now) where
  leader := rfl
  ascending := by simp [Ascending, leaderOfThree, peerAt, createServer]
  head_ne := by simp [leaderOfThree, peerAt, createServer, startLeader]
  id := show IsInt 7 by decide
  addr := show IsAddress (text "127.0.0.1") from
    ⟨⟨by decide, by decide, by decide, by decide⟩, by decide⟩
  port := show IsInt 4041 by decide
  peers := by
    simp only [leaderOfThree, List.forall_mem_cons]
    exact ⟨isMember_peerAt 0 5 (by decide), isMember_peerAt 6 6 (by decide),
      isMember_peerAt now 7 (by decide), by simp⟩

/-- At time 9 the connections 5 and 7 are closed. -/
private def closedEnd (i : Socket) : Env := ⟨9, 8, fun _ k _ => k ≠ 5 ∧ k ≠ i, true, 0⟩

/-- Peers 10 and 30 have timed out.  The repair after the removal of peer 10 goes to peer
30, which cannot be reached, and the leader exits. -/
theorem repair_told_to_timed_out : LeaderList (leaderOfThree 0) ∧
    SendsToLiving (closedEnd 7) 8 (leaderOfThree 0).next ∧
    SocketsInOrder (closedEnd 7) 8 (leaderOfThree 0).next ∧
    (sweepCalls (closedEnd 7) 8 (leaderOfThree 0).next (leaderOfThree 0)).map
      (fun c => (c.1.id, c.2.id)) = [(30, 20)] ∧
    checkHeartbeatTimeout (closedEnd 7) (leaderOfThree 0) 8 = .error .exit ∧
    ¬ SurvivorsOnly (closedEnd 7) 8 (leaderOfThree 0) := by
  refine ⟨leaderList_leaderOfThree 0, ?_, by decide, rfl, rfl, fun h => h.leader rfl⟩
  simp only [SendsToLiving, leaderOfThree, List.forall_mem_cons]
  refine ⟨fun h => absurd (by decide) h, fun _ _ _ => rfl, fun h => absurd (by decide) h, by simp⟩

theorem survivorsOnly_iff_one : (SurvivorsOnly (closedEnd 5) 8 (leaderOfThree 6) ↔
      GapsClear (closedEnd 5) 8 (leaderOfThree 6).next) ∧
    (SocketsInOrder (closedEnd 5) 8 (leaderOfThree 6).next →
      (SurvivorsOnly (closedEnd 5) 8 (leaderOfThree 6) ↔
        Sparse (closedEnd 5) 8 (leaderOfThree 6).next)) := by
  refine survivorsOnly_iff (leaderList_leaderOfThree 6) ?_
  simp only [SendsToLiving, leaderOfThree, List.forall_mem_cons]
  exact ⟨fun h => absurd (by decide) h, fun _ _ _ => rfl, fun _ _ _ => rfl, by simp⟩

end ChatRing
