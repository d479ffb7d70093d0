import ChatRing.Server.Announcement

/-!
# What an announcement tells the peers

A peer learns who its successor is from the reply to its own announcement, and later
from `UPDATE_FROM_LEADER` and `KNOW_NEW_LEADER`.  The leader answers every announcement,
also that of a server it knows already.

## Main results

* `LeaderList.step` — what every list of a leader satisfies.
* `Announcement.safe_iff` — for which announcements an admission is safe.
-/

namespace ChatRing
open CText CyclicList

/-- The successor that a message names.  The reply to a first peer names none, nor does
`KNOW_NEW_LEADER` with port 0. -/
def Message.successor : Message → Option ℤ
  | .joinReply _ addr _ successorId => if addr = text "0.0.0.0" then none else some successorId
  | .updateFromLeader _ id _ => some id
  | .knowNewLeader _ _ _ successorId _ successorPort =>
      if successorPort = 0 then none else some successorId
  | _ => none

/-- Who reads the frame may learn from it that its successor is `id`. -/
def Tells (frame : Text) (id : ℤ) : Prop :=
  ∃ (r : Receiver) (m : Message), r.read frame = some m ∧ m.successor = some id

/-! ## Frames that tell a successor -/

section Frames
variable {frame addr successorAddr : Text} {leaderId id port successorId successorPort q : ℤ}
  {fromLeader : Bool} {m : Message}

theorem successor_of_multicast {leads : Bool} (h : (Receiver.multicast leads).read frame = some m) :
    m.successor = none := by
  obtain ⟨buf, -, h⟩ := Option.bind_eq_some_iff.mp h
  rcases readMulticast_eq_some h with ⟨id, port, rfl⟩ | ⟨id, port, rfl⟩ | ⟨port, rfl⟩ | ⟨id, rfl⟩
  · rfl
  · rfl
  · rfl
  · rfl

/-- Only a server that looks for its leader and the connections of a server matter. -/
theorem tells_iff : Tells frame q ↔
    (∃ m, Receiver.discovery.read frame = some m ∧ m.successor = some q) ∨
      ∃ fromLeader m, (Receiver.connection fromLeader).read frame = some m ∧
        m.successor = some q := by
  constructor
  · rintro ⟨r, m, hread, hm⟩
    cases r with
    | discovery => exact Or.inl ⟨m, hread, hm⟩
    | connection fromLeader => exact Or.inr ⟨fromLeader, m, hread, hm⟩
    | multicast leads =>
        rw [successor_of_multicast hread] at hm
        cases hm
    | serviceInfo =>
        obtain ⟨info, -, rfl⟩ := Option.map_eq_some_iff.mp hread
        cases hm
    | index =>
        obtain ⟨joined, -, rfl⟩ := Option.map_eq_some_iff.mp hread
        cases hm
  · rintro (⟨m, hread, hm⟩ | ⟨fromLeader, m, hread, hm⟩)
    · exact ⟨_, m, hread, hm⟩
    · exact ⟨_, m, hread, hm⟩

/-- A line that begins with a number is none of the frames of a connection. -/
theorem readConnection_of_number (n : ℤ) (s : Text) :
    readConnection fromLeader (intText n ++ s) = none := by
  obtain ⟨x, w, hw⟩ := List.exists_cons_of_ne_nil (intText_ne_nil n)
  have hx : ∀ c, c.isDigit = false → c ≠ '-' → x ≠ c := by
    rintro c hd hc rfl
    exact not_mem_intText n hd hc (by simp [hw])
  have hparse : parseFrame fromLeader (x :: (w ++ s)) = .unknown := by
    unfold parseFrame
    rw [sscanf_of_head_ne (f := "UPDATE_FROM_LEADER:%15[^:]:%d:%d") rfl rfl (hx _ rfl (by decide)),
      sscanf_of_head_ne (f := "CLIENT:%d:%d:%[^\n]") rfl rfl (hx _ rfl (by decide)),
      sscanf_of_head_ne (f := "ELECTION:%7[^:]:%d") rfl rfl (hx _ rfl (by decide)),
      sscanf_of_head_ne (f := "KNOW_NEW_LEADER:%d:%15[^:]:%d:%d:%15[^:]:%d") rfl rfl
        (hx _ rfl (by decide)),
      sscanf_of_head_ne (f := "HEARTBEAT:%d") rfl rfl (hx _ rfl (by decide))]
    cases fromLeader <;> rfl
  rw [hw, List.cons_append, readConnection, hparse]

theorem tells_joinReply (hid : IsInt leaderId) (haddr : IsAddress addr) (hport : IsInt port)
    (hsuccessor : IsInt successorId) :
    Tells (padX (joinReply leaderId addr port successorId)) q ↔
      addr ≠ text "0.0.0.0" ∧ q = successorId := by
  have hcarried : Carried joinReplyLine.template
      [.int leaderId, .str addr, .int port, .int successorId] :=
    joinReplyLine.carried
      (.cons hid (.cons ⟨rfl, rfl, haddr⟩ (.cons hport (.cons hsuccessor .nil))))
  have hconnection : ∀ fromLeader, (Receiver.connection fromLeader).read
      (padX (joinReply leaderId addr port successorId)) = none := by
    intro fromLeader
    rw [Receiver.read, joinReply, hcarried.padX rfl, Option.bind_some]
    exact readConnection_of_number leaderId _
  rw [tells_iff]
  simp only [read_joinReply hid haddr hport hsuccessor, hconnection]
  simp [Message.successor, eq_comm]

theorem tells_updateFromLeader (haddr : IsAddress addr) (hid : IsInt id) (hport : IsInt port) :
    Tells (padX (updateFromLeader addr id port)) q ↔ q = id := by
  have hcarried : Carried updateFromLeaderLine.template [.str addr, .int id, .int port] :=
    updateFromLeaderLine.carried (.cons ⟨rfl, rfl, haddr⟩ (.cons hid (.cons hport .nil)))
  have hdiscovery : Receiver.discovery.read (padX (updateFromLeader addr id port)) = none := by
    rw [Receiver.read, updateFromLeader, hcarried.padX rfl, Option.bind_some]
    rfl
  have hother : (Receiver.connection false).read (padX (updateFromLeader addr id port)) =
      none := by
    rw [Receiver.read, updateFromLeader, hcarried.padX rfl, Option.bind_some]
    rfl
  rw [tells_iff]
  simp only [hdiscovery, Bool.exists_bool, hother, read_updateFromLeader haddr hid hport]
  simp [Message.successor, eq_comm]

theorem tells_knowNewLeader (hid : IsInt leaderId) (haddr : IsAddress addr) (hport : IsInt port)
    (hsuccessor : IsInt successorId) (hsuccessorAddr : IsAddress successorAddr)
    (hsuccessorPort : IsInt successorPort) :
    Tells (padX (knowNewLeader leaderId addr port successorId successorAddr successorPort)) q ↔
      successorPort ≠ 0 ∧ q = successorId := by
  have hcarried : Carried knowNewLeaderLine.template
      [.int leaderId, .str addr, .int port, .int successorId, .str successorAddr,
        .int successorPort] :=
    knowNewLeaderLine.carried
      (.cons hid (.cons ⟨rfl, rfl, haddr⟩ (.cons hport (.cons hsuccessor
        (.cons ⟨rfl, rfl, hsuccessorAddr⟩ (.cons hsuccessorPort .nil))))))
  have hdiscovery : Receiver.discovery.read
      (padX (knowNewLeader leaderId addr port successorId successorAddr successorPort)) =
        none := by
    rw [Receiver.read, knowNewLeader, hcarried.padX rfl, Option.bind_some]
    rfl
  rw [tells_iff]
  simp only [hdiscovery,
    read_knowNewLeader hid haddr hport hsuccessor hsuccessorAddr hsuccessorPort]
  simp [Message.successor, eq_comm]

end Frames

/-! ## The list of a leader -/

/-- A server that can be connected to, with an address that fits the messages. -/
structure IsMember (p : ServerInfo) : Prop where
  id : IsInt p.id
  addr : IsAddress p.addr
  addr_ne : p.addr ≠ text "0.0.0.0"
  port_pos : 1 ≤ p.port
  port_le : p.port ≤ 65535

/-- The list of a leader, in which nobody has the leader's ID. -/
structure LeaderList (s : Server) : Prop extends Leading s where
  head_ne : ∀ p ∈ s.next, p.id ≠ s.self.id
  id : IsInt s.self.id
  addr : IsAddress s.self.addr
  port : IsInt s.self.port
  peers : ∀ p ∈ s.next, IsMember p

/-- The fields of a record that a frame carries. -/
theorem IsMember.congr {p q : ServerInfo} (h : IsMember p) (hid : q.id = p.id)
    (haddr : q.addr = p.addr) (hport : q.port = p.port) : IsMember q where
  id := by rw [hid]; exact h.id
  addr := by rw [haddr]; exact h.addr
  addr_ne := by rw [haddr]; exact h.addr_ne
  port_pos := by rw [hport]; exact h.port_pos
  port_le := by rw [hport]; exact h.port_le

/-- The announced server can be connected to. -/
def Typed : LeaderAction → Prop
  | .discovery env id port addr => IsMember (createServer env.now id addr port 0 env.connect)
  | .whoIsLeader env id port addr => IsMember (createServer env.now id addr port 0 env.connect)
  | _ => True

namespace LeaderList
variable {s t : Server}

theorem of_next (h : LeaderList s) (ht : Leading t) (hself : t.self.id = s.self.id)
    (haddr : t.self.addr = s.self.addr) (hport : t.self.port = s.self.port)
    (hnext : ∀ p ∈ t.next, p.id ≠ s.self.id ∧ IsMember p) : LeaderList t where
  toLeading := ht
  head_ne := by
    rw [hself]
    exact fun p hp => (hnext p hp).1
  id := by rw [hself]; exact h.id
  addr := by rw [haddr]; exact h.addr
  port := by rw [hport]; exact h.port
  peers := fun p hp => (hnext p hp).2

theorem of_sublist (h : LeaderList s) (ht : Leading t) (hself : t.self = s.self)
    (hsub : t.next.Sublist s.next) : LeaderList t :=
  h.of_next ht (by rw [hself]) (by rw [hself]) (by rw [hself])
    fun p hp => ⟨h.head_ne p (hsub.subset hp), h.peers p (hsub.subset hp)⟩

theorem of_register (h : LeaderList s) (ht : Leading t) {env : Env} {id port : ℤ}
    {addr toPredecessor : Text} {reply : Option ServerInfo → Text}
    (hnew : IsMember (createServer env.now id addr port 0 env.connect))
    (hregister : register (admitPeer env s id port addr reply toPredecessor) = .ok t) :
    LeaderList t := by
  obtain ⟨⟨fd, u⟩, hu, hregister⟩ := Except.bind_eq_ok.mp hregister
  cases hregister
  obtain ⟨hself, hnext⟩ := admitPeer_next hu
  refine h.of_next ht (by simp [hself]) (by simp [hself]) (by simp [hself]) ?_
  rw [registerPeer_next]
  rw [appendServerSorted] at hnext
  intro p hp
  by_cases hmem : p ∈ s.next
  · exact ⟨h.head_ne p hmem, h.peers p hmem⟩
  · rcases hnext with hnext | hnext
    · exact absurd (hnext ▸ hp) hmem
    · split at hnext
      · exact absurd (hnext ▸ hp) hmem
      · rename_i hfresh
        rw [hnext, mem_insertSorted, or_iff_left hmem] at hp
        rw [hp]
        exact ⟨fun heq => hfresh ⟨s.self, List.mem_cons_self, heq.symm⟩, hnew⟩

/-- **Every event keeps the list of a leader one.** -/
theorem step (h : LeaderList s) {a : LeaderAction} (ha : Typed a)
    (hstep : s.leaderStep a = some t) : LeaderList t := by
  have hleading := h.toLeading.step hstep
  obtain ⟨-, ht⟩ := Server.leaderStep_eq_some hstep
  cases a with
  | discovery env id port addr => exact h.of_register hleading ha ht
  | whoIsLeader env id port addr => exact h.of_register hleading ha ht
  | heartbeat env id =>
      cases ht
      rw [Server.updateHeartbeat] at hleading ⊢
      split at hleading
      · rename_i hid
        rw [if_pos hid]
        exact h.of_next hleading rfl rfl rfl fun p hp => ⟨h.head_ne p hp, h.peers p hp⟩
      · rename_i hid
        rw [if_neg hid]
        refine h.of_next hleading rfl rfl rfl ?_
        intro p hp
        rw [updateHeartbeatTimeout_eq_map h.ascending] at hp
        obtain ⟨r, hr, rfl⟩ := List.mem_map.mp hp
        rw [ServerInfo.beat_id]
        exact ⟨h.head_ne r hr, (h.peers r hr).congr (by simp) (by simp) (by simp)⟩
  | disconnect i =>
      obtain ⟨hself, hnext, -⟩ := disconnect_next h.leader ht
      exact h.of_sublist hleading hself (by rw [hnext])
  | sweep env timeout =>
      obtain ⟨hself, hsub⟩ := sweep_sublist h.ascending ht
      exact h.of_sublist hleading hself hsub

theorem run {s₀ : Server} (h₀ : LeaderList s₀) {h : List (Server × LeaderAction)}
    (run : Run Server.leaderStep s₀ h s) (htyped : ∀ x a, (x, a) ∈ h → Typed a) :
    LeaderList s :=
  run.guarded h₀ (fun _ _ _ hx ha hstep => hx.step ha hstep) htyped

end LeaderList

theorem IsMember.isInt_port {p : ServerInfo} (h : IsMember p) : IsInt p.port := by
  have := h.port_pos
  have := h.port_le
  constructor <;> omega

namespace Announcement
variable {env : Env} {s t : Server} {kind : Announcement} {id port q : ℤ} {addr : Text}
  {fd : Socket}

theorem not_tells_reply_none (hs : LeaderList s) : ¬ Tells (padX (kind.reply s none)) q := by
  have hzeros : IsAddress (text "0.0.0.0") :=
    ⟨⟨by decide, by decide, by decide, by decide⟩, by decide⟩
  cases kind with
  | discovery =>
      rw [reply, hs.leader, tells_joinReply hs.id hzeros (by decide) (by decide)]
      exact fun h => h.1 rfl
  | whoIsLeader =>
      rw [reply, tells_knowNewLeader hs.id hs.addr hs.port (by decide)
        hzeros (by decide)]
      exact fun h => h.1 rfl

theorem tells_reply_some (hs : LeaderList s) {p : ServerInfo} (hp : IsMember p) :
    Tells (padX (kind.reply s (some p))) q ↔ q = p.id := by
  cases kind with
  | discovery =>
      rw [reply, tells_joinReply hs.id hp.addr hp.isInt_port hp.id]
      exact and_iff_right hp.addr_ne
  | whoIsLeader =>
      rw [reply, tells_knowNewLeader hs.id hs.addr hs.port hp.id hp.addr
        hp.isInt_port]
      exact and_iff_right (by have := hp.port_pos; omega)

theorem tells_toPredecessor (hs : LeaderList s)
    (hnew : IsMember (createServer env.now id addr port 0 fd)) :
    Tells (padX (kind.toPredecessor s id port addr)) q ↔ q = id := by
  cases kind with
  | discovery => exact tells_updateFromLeader hnew.addr hnew.id hnew.isInt_port
  | whoIsLeader =>
      have hport : (createServer env.now id addr port 0 fd).port ≠ 0 := by
        have := hnew.port_pos
        omega
      exact (tells_knowNewLeader hs.id hs.addr hs.port hnew.id hnew.addr hnew.isInt_port).trans
        (and_iff_right hport)

/-! ## When an admission is safe -/

/-- The record of the announced server, as far as the announcement decides it. -/
def IsRecord (env : Env) (id port : ℤ) (addr : Text) (p : ServerInfo) : Prop :=
  p.id = id ∧ p.addr = addr ∧ p.port = port ∧ p.tcpSocket = env.connect

/-- The admission returns; the list has the record, or it is what it was and nobody else
is told of the announced server; and neither the announced server nor any other peer is
told that its successor is itself. -/
def Safe (env : Env) (s : Server) (id port : ℤ) (addr : Text) (kind : Announcement) : Prop :=
  ∃ t sent, kind.admission env s id port addr = .ok (env.connect, t) ∧ t.out = s.out ++ sent ∧
    ((∃ p ∈ t.next, IsRecord env id port addr p) ∨ t.next = s.next ∧
      ∀ k frame, .send k frame ∈ sent → k ≠ env.connect → ¬ Tells frame id) ∧
    (∀ frame, .send env.connect frame ∈ sent → ¬ Tells frame id) ∧
    ∀ p ∈ s.next, p.tcpSocket ≠ env.connect →
      ∀ frame, .send p.tcpSocket frame ∈ sent → ¬ Tells frame p.id

/-- The peer before the place of the ID, around the ring. -/
def peerBefore (id : ℤ) (next : List ServerInfo) : Option ServerInfo :=
  gapPred (smaller id next) ((larger id next).filter fun p => p.id ≠ id)

theorem peerBefore_of_known {a b : List ServerInfo} {r : ServerInfo}
    (h : Ascending (a ++ r :: b)) : peerBefore r.id (a ++ r :: b) = gapPred a b := by
  obtain ⟨-, hrb, har⟩ := List.pairwise_append.mp h
  have ha : ∀ p ∈ a, p.id < r.id := fun p hp => har p hp r List.mem_cons_self
  have hb : ∀ p ∈ b, p.id ≠ r.id := fun p hp => ((List.pairwise_cons.mp hrb).1 p hp).ne'
  have hsmaller : smaller r.id (a ++ r :: b) = a := by
    rw [smaller, List.takeWhile_append_of_pos fun p hp => decide_eq_true (ha p hp)]
    simp
  have hlarger : larger r.id (a ++ r :: b) = r :: b := by
    rw [larger, List.dropWhile_append_of_pos fun p hp => decide_eq_true (ha p hp)]
    simp
  rw [peerBefore, hsmaller, hlarger, List.filter_cons_of_neg (by simp),
    List.filter_eq_self.mpr fun p hp => decide_eq_true (hb p hp)]

/-- The ID is that of a leader with one peer; or the ID is new, or there is another peer
and the record of the ID is that of the announced server, and the peer before it is not
reached over the new connection. -/
def Admissible (env : Env) (s : Server) (id port : ℤ) (addr : Text) : Prop :=
  (id = s.self.id ∧ s.next.length = 1) ∨
    (id ≠ s.self.id ∧
      ((∀ p ∈ s.next, p.id ≠ id) ∨
        2 ≤ s.next.length ∧ ∃ p ∈ s.next, IsRecord env id port addr p) ∧
      ∀ p ∈ peerBefore id s.next, p.tcpSocket ≠ env.connect)

/-- What an admission adds to the output when both neighbours are told. -/
def tellings (env : Env) (s : Server) (id port : ℤ) (addr : Text) (kind : Announcement)
    (successor predecessor : Option ServerInfo) : List Output :=
  .connect addr (intText port) env.connect ::
    .send env.connect (padX (kind.reply s successor)) ::
      predecessor.toList.map fun p => .send p.tcpSocket (padX (kind.toPredecessor s id port addr))

section Tellings
variable {successor predecessor : Option ServerInfo} {k : Socket} {frame : Text}

theorem mem_tellings : .send k frame ∈ tellings env s id port addr kind successor predecessor ↔
    k = env.connect ∧ frame = padX (kind.reply s successor) ∨
      ∃ p ∈ predecessor, k = p.tcpSocket ∧ frame = padX (kind.toPredecessor s id port addr) := by
  simp [tellings, eq_comm]

theorem reply_mem_tellings : .send env.connect (padX (kind.reply s successor)) ∈
    tellings env s id port addr kind successor predecessor :=
  mem_tellings.mpr (Or.inl ⟨rfl, rfl⟩)

theorem toPredecessor_mem_tellings {p : ServerInfo} (hp : p ∈ predecessor) :
    .send p.tcpSocket (padX (kind.toPredecessor s id port addr)) ∈
      tellings env s id port addr kind successor predecessor :=
  mem_tellings.mpr (Or.inr ⟨p, hp, rfl, rfl⟩)

variable (hs : LeaderList s) (hnew : IsMember (createServer env.now id addr port 0 env.connect))
include hs hnew

/-- Only the predecessor can be told of the announced server by mistake. -/
theorem others_not_told_iff :
    (∀ k frame, .send k frame ∈ tellings env s id port addr kind successor predecessor →
      k ≠ env.connect → ¬ Tells frame id) ↔ ∀ p ∈ predecessor, p.tcpSocket = env.connect := by
  constructor
  · intro h p hp
    by_contra hne
    exact h _ _ (toPredecessor_mem_tellings hp) hne ((tells_toPredecessor hs hnew).mpr rfl)
  · intro h k frame hframe hk
    rcases mem_tellings.mp hframe with ⟨rfl, -⟩ | ⟨p, hp, rfl, -⟩
    · exact absurd rfl hk
    · exact absurd (h p hp) hk

/-- The announced server learns its own ID from a successor with that ID, or from the message to a
predecessor behind its own connection. -/
theorem announced_not_told_iff (hsuccessor : ∀ p ∈ successor, IsMember p) :
    (∀ frame, .send env.connect frame ∈
        tellings env s id port addr kind successor predecessor → ¬ Tells frame id) ↔
      (∀ p ∈ successor, p.id ≠ id) ∧ ∀ p ∈ predecessor, p.tcpSocket ≠ env.connect := by
  have hreply : Tells (padX (kind.reply s successor)) id ↔ ∃ p ∈ successor, p.id = id := by
    cases successor with
    | none => simp [not_tells_reply_none hs]
    | some p => simp [tells_reply_some hs (hsuccessor p rfl), eq_comm]
  constructor
  · intro h
    refine ⟨fun p hp heq => ?_, fun p hp heq => ?_⟩
    · exact h _ reply_mem_tellings (hreply.mpr ⟨p, hp, heq⟩)
    · exact h _ (heq ▸ toPredecessor_mem_tellings hp) ((tells_toPredecessor hs hnew).mpr rfl)
  · rintro ⟨hsucc, hpred⟩ frame hframe htells
    rcases mem_tellings.mp hframe with ⟨-, rfl⟩ | ⟨p, hp, heq, -⟩
    · obtain ⟨p, hp, heq⟩ := hreply.mp htells
      exact hsucc p hp heq
    · exact hpred p hp heq.symm

/-- Any other peer learns its own ID over a socket that is also the predecessor's. -/
theorem peers_not_told_iff :
    (∀ p ∈ s.next, p.tcpSocket ≠ env.connect → ∀ frame, .send p.tcpSocket frame ∈
        tellings env s id port addr kind successor predecessor → ¬ Tells frame p.id) ↔
      ∀ p ∈ predecessor, ∀ r ∈ s.next, r.tcpSocket = p.tcpSocket →
        r.tcpSocket ≠ env.connect → r.id ≠ id := by
  constructor
  · intro h p hp r hr hsocket hne heq
    exact h r hr hne _ (hsocket ▸ toPredecessor_mem_tellings hp)
      ((tells_toPredecessor hs hnew).mpr heq)
  · intro h r hr hne frame hframe htells
    rcases mem_tellings.mp hframe with ⟨heq, -⟩ | ⟨p, hp, heq, rfl⟩
    · exact hne heq
    · exact h p hp r hr heq hne ((tells_toPredecessor hs hnew).mp htells)

end Tellings

/-- An admission that sends a reply and a message to `predecessor`. -/
theorem safe_iff_of_told (hs : LeaderList s)
    (hnew : IsMember (createServer env.now id addr port 0 env.connect))
    (hsend : ∀ out k bytes, env.sends out k bytes = true) {next : List ServerInfo}
    {successor predecessor : Option ServerInfo} (hsuccessor : ∀ p ∈ successor, IsMember p)
    (h : kind.admission env s id port addr = .ok (tellNeighbours env
      (s.connected env port addr next) (kind.reply s successor)
      (kind.toPredecessor s id port addr) predecessor)) :
    Safe env s id port addr kind ↔
      ((∃ p ∈ next, IsRecord env id port addr p) ∨
        next = s.next ∧ ∀ p ∈ predecessor, p.tcpSocket = env.connect) ∧
      (∀ p ∈ successor, p.id ≠ id) ∧
      (∀ p ∈ predecessor, p.tcpSocket ≠ env.connect) ∧
      ∀ p ∈ predecessor, ∀ r ∈ s.next, r.tcpSocket = p.tcpSocket →
        r.tcpSocket ≠ env.connect → r.id ≠ id := by
  have hsent : BothSent env (s.connected env port addr next) (kind.reply s successor)
      (kind.toPredecessor s id port addr) predecessor := ⟨hsend _ _ _, fun p _ => hsend _ _ _⟩
  rw [tellNeighbours_of_sent hsent] at h
  have hout : ∀ sent, (s.connected env port addr next).out ++
      .send env.connect (padX (kind.reply s successor)) :: (predecessor.toList.map
        fun p => .send p.tcpSocket (padX (kind.toPredecessor s id port addr))) =
      s.out ++ sent ↔ tellings env s id port addr kind successor predecessor = sent := by
    intro sent
    simp [Server.connected, tellings]
  have hothers : (∀ k frame,
      .send k frame ∈ tellings env s id port addr kind successor predecessor →
        k ≠ env.connect → ¬ Tells frame id) ↔ ∀ p ∈ predecessor, p.tcpSocket = env.connect :=
    others_not_told_iff hs hnew
  rw [← hothers, ← and_assoc (b := ∀ p ∈ predecessor, p.tcpSocket ≠ env.connect),
    ← announced_not_told_iff hs hnew hsuccessor, ← peers_not_told_iff hs hnew]
  constructor
  · rintro ⟨t, sent, ht, hsent, hsafe⟩
    rw [h] at ht
    cases ht
    cases (hout sent).mp hsent
    exact hsafe
  · intro hsafe
    exact ⟨_, _, h, (hout _).mpr rfl, hsafe⟩

/-- A known ID and one record: nobody is told but the announced server. -/
theorem admission_of_one (hport : PortFits port) (hconnect : IsValidSocket env.connect)
    (hknown : serverInfoExist id s.self s.next) {p : ServerInfo} (hnext : s.next = [p]) :
    kind.admission env s id port addr = .ok (tellNeighbours env (s.connected env port addr [p])
      (kind.reply s (some p)) (kind.toPredecessor s id port addr) none) := by
  have hsuccessor : getSuccessor id [p] = some p := by
    by_cases h : p.id > id <;> simp [getSuccessor, h]
  rw [hnext] at hknown
  rw [admission_eq]
  simp only [admitPeer, portText_of_fits hport, Except.ok_bind, Server.setupTcpClient, hconnect,
    if_true, appendServerSorted, hnext, if_pos hknown, List.cons_ne_nil, if_false, hsuccessor,
    tellNeighbours, Server.connected]
  cases Server.send env _ env.connect (padX (kind.reply s (some p))) with
  | none => rfl
  | some t => rfl

/-- The ID of the leader has no predecessor to be found. -/
theorem admission_self (hport : PortFits port) (hconnect : IsValidSocket env.connect)
    (hsend : ∀ out k bytes, env.sends out k bytes = true) (hself : id = s.self.id)
    (habsent : ∀ p ∈ s.next, p.id ≠ id) (hlen : s.next.length ≠ 1) :
    kind.admission env s id port addr = .error .nullDeref := by
  have hknown : serverInfoExist id s.self s.next := ⟨s.self, List.mem_cons_self, hself.symm⟩
  have hnone : getPredecessor id s.next = none := by
    rw [getPredecessor, List.findIdx?_eq_none_iff]
    intro p hp
    exact decide_eq_false (habsent p hp)
  rw [admission_eq]
  simp only [admitPeer, portText_of_fits hport, Except.ok_bind, Server.setupTcpClient, hconnect,
    if_true, appendServerSorted, if_pos hknown, Server.send, hsend, hnone]
  split
  · rfl
  · rename_i p hnext
    exact absurd (by rw [hnext]; rfl) hlen
  · rfl

section Cases
variable (hs : LeaderList s) (hnew : IsMember (createServer env.now id addr port 0 env.connect))
  (hconnect : IsValidSocket env.connect) (hsend : ∀ out k bytes, env.sends out k bytes = true)
include hs hnew hconnect hsend

theorem safe_of_one (hknown : serverInfoExist id s.self s.next) {p : ServerInfo}
    (hnext : s.next = [p]) : Safe env s id port addr kind ↔ p.id ≠ id := by
  have hadmit : kind.admission env s id port addr = _ :=
    admission_of_one (portFits_of_port hnew.port_pos hnew.port_le) hconnect hknown hnext
  rw [safe_iff_of_told hs hnew hsend (by simpa using hs.peers p (by simp [hnext])) hadmit]
  simp [hnext]

/-- A known ID whose record is not alone. -/
theorem safe_of_known {a b : List ServerInfo} {r : ServerInfo} (hnext : s.next = a ++ r :: b)
    (hr : r.id = id) (hab : a ++ b ≠ []) : Safe env s id port addr kind ↔
      (∃ p ∈ s.next, IsRecord env id port addr p) ∧
        ∀ p ∈ gapPred a b, p.tcpSocket ≠ env.connect := by
  have hasc : Ascending (a ++ r :: b) := hnext ▸ hs.ascending
  obtain ⟨-, hrb, har⟩ := List.pairwise_append.mp hasc
  have hother : ∀ p ∈ a ++ b, p.id ≠ id := by
    rw [← hr]
    exact hasc.id_ne_of_append
  have hmem : ∀ p ∈ a ++ b, p ∈ s.next := by
    rw [hnext]
    exact (List.Sublist.append_left (List.sublist_cons_self r b) a).subset
  have hunique : ∀ p ∈ s.next, p.id = id → p = r := by
    intro p hp hid
    rw [hnext, List.mem_append, List.mem_cons, or_left_comm, ← List.mem_append] at hp
    exact hp.resolve_right fun hp => hother p hp hid
  have hknown : serverInfoExist id s.self s.next := ⟨r, by simp [hnext], hr⟩
  have hsuccessor : getSuccessor id (a ++ r :: b) = gapSucc a b := by
    rw [← hr]
    exact getSuccessor_insert hab (fun p hp => har p hp r List.mem_cons_self)
      fun p hp => (List.pairwise_cons.mp hrb).1 p (List.mem_of_head? hp)
  have hadmit : kind.admission env s id port addr = .ok (tellNeighbours env
      (s.connected env port addr s.next) (kind.reply s (gapSucc a b))
      (kind.toPredecessor s id port addr) (gapPred a b)) := by
    have hport : PortFits port := portFits_of_port hnew.port_pos hnew.port_le
    have happend : appendServerSorted env.now s.self s.next id addr port 0 env.connect =
        a ++ r :: b := (if_pos hknown).trans hnext
    rw [admission_eq, admitPeer_of_split _ _ hport hconnect happend
      (fun p hp => hother p (List.mem_append_left b hp)) hr, if_neg (by simp [hnext]),
      hsuccessor, ← hnext]
  obtain ⟨pred, hpred⟩ := Option.ne_none_iff_exists'.mp (mt gapPred_eq_none.mp hab)
  rw [safe_iff_of_told hs hnew hsend (fun p hp => hs.peers p (hmem p (gapSucc_mem hp))) hadmit,
    hpred]
  simp only [Option.mem_some_iff, forall_eq']
  constructor
  · rintro ⟨hrecord | ⟨-, heq⟩, -, hne, -⟩
    · exact ⟨hrecord, hne⟩
    · exact absurd heq hne
  · rintro ⟨hrecord, hne⟩
    refine ⟨Or.inl hrecord, fun p hp => hother p (gapSucc_mem hp), hne, ?_⟩
    intro q hq _ hsocket heq
    obtain ⟨p, hp, hpid, -, -, hpsocket⟩ := hrecord
    rw [hunique q hq heq, ← hunique p hp hpid] at hsocket
    exact hsocket hpsocket

theorem safe_of_new (hnew' : ¬ serverInfoExist id s.self s.next) :
    Safe env s id port addr kind ↔
      ∀ p ∈ gapPred (smaller id s.next) (larger id s.next), p.tcpSocket ≠ env.connect := by
  have hother : ∀ p ∈ s.next, p.id ≠ id :=
    fun p hp heq => hnew' ⟨p, List.mem_cons_of_mem _ hp, heq⟩
  have hmem := smaller_append_larger id s.next
  have hadmit : kind.admission env s id port addr = _ := (admission_eq _ _ _ _ _ _).trans
    (admitPeer_of_new addr _ _ (portFits_of_port hnew.port_pos hnew.port_le) hconnect hnew')
  have hsuccessor : ∀ p ∈ gapSucc (smaller id s.next) (larger id s.next), p ∈ s.next := by
    intro p hp
    rw [← smaller_append_larger id s.next]
    exact gapSucc_mem hp
  rw [safe_iff_of_told hs hnew hsend (fun p hp => hs.peers p (hsuccessor p hp)) hadmit]
  constructor
  · rintro ⟨-, -, hne, -⟩
    exact hne
  · intro hne
    refine ⟨Or.inl ⟨createServer env.now id addr port 0 env.connect, by simp, rfl, rfl, rfl, rfl⟩,
      fun p hp => hother p (hsuccessor p hp), hne, ?_⟩
    intro p _ r hr _ _
    exact hother r hr

end Cases

/-- **An announcement is handled safely exactly when it is admissible.** -/
theorem safe_iff (hs : LeaderList s)
    (hnew : IsMember (createServer env.now id addr port 0 env.connect))
    (hconnect : IsValidSocket env.connect)
    (hsend : ∀ out k bytes, env.sends out k bytes = true) (kind : Announcement) :
    Safe env s id port addr kind ↔ Admissible env s id port addr := by
  have hport : PortFits port := portFits_of_port hnew.port_pos hnew.port_le
  by_cases hself : id = s.self.id
  · have habsent : ∀ p ∈ s.next, p.id ≠ id := by
      rw [hself]
      exact hs.head_ne
    by_cases hlen : s.next.length = 1
    · obtain ⟨p, hnext⟩ := List.length_eq_one_iff.mp hlen
      rw [safe_of_one hs hnew hconnect hsend ⟨s.self, List.mem_cons_self, hself.symm⟩ hnext]
      exact iff_of_true (habsent p (by simp [hnext])) (Or.inl ⟨hself, hlen⟩)
    · refine iff_of_false ?_ ?_
      · rintro ⟨t, sent, ht, -⟩
        rw [admission_self hport hconnect hsend hself habsent hlen] at ht
        cases ht
      · rintro (⟨-, hone⟩ | ⟨hne, -⟩)
        · exact hlen hone
        · exact hne hself
  · have hself' : ¬ (id = s.self.id ∧ s.next.length = 1) := fun h => hself h.1
    rw [Admissible, or_iff_right hself', and_iff_right (show id ≠ s.self.id from hself)]
    by_cases hknown : ∃ r ∈ s.next, r.id = id
    · obtain ⟨r, hmem, hr⟩ := hknown
      obtain ⟨a, b, hnext⟩ := List.append_of_mem hmem
      rw [or_iff_right fun h => h r hmem hr]
      by_cases hab : a ++ b = []
      · obtain ⟨rfl, rfl⟩ := List.append_eq_nil_iff.mp hab
        rw [safe_of_one hs hnew hconnect hsend ⟨r, List.mem_cons_of_mem _ hmem, hr⟩ hnext]
        refine iff_of_false (not_not_intro hr) ?_
        rintro ⟨⟨hlen, -⟩, -⟩
        rw [hnext] at hlen
        exact absurd hlen (by simp)
      · have hlen : 2 ≤ s.next.length := by
          have := List.length_pos_iff.mpr hab
          simp only [hnext, List.length_append, List.length_cons] at this ⊢
          omega
        have hpred : peerBefore id s.next = gapPred a b := by
          rw [hnext, ← hr]
          exact peerBefore_of_known (hnext ▸ hs.ascending)
        rw [safe_of_known hs hnew hconnect hsend hnext hr hab, hpred, and_iff_right hlen]
    · have hother : ∀ p ∈ s.next, p.id ≠ id := fun p hp heq => hknown ⟨p, hp, heq⟩
      have hnew' : ¬ serverInfoExist id s.self s.next := by
        rintro ⟨p, hp, heq⟩
        rcases List.mem_cons.mp hp with rfl | hp
        · exact hself heq.symm
        · exact hother p hp heq
      have hpred : peerBefore id s.next = gapPred (smaller id s.next) (larger id s.next) := by
        rw [peerBefore, List.filter_eq_self.mpr]
        intro p hp
        exact decide_eq_true (hother p ((List.dropWhile_sublist _).subset hp))
      rw [safe_of_new hs hnew hconnect hsend hnew', hpred, and_iff_right (Or.inl hother)]

/-! ### An announcement that arrives twice -/

private theorem isAddress_example : IsAddress (text "10.0.0.1") :=
  ⟨⟨by decide, by decide, by decide, by decide⟩, by decide⟩

private theorem isMember_example (now : ℤ) (fd : Socket) {id : ℤ} (hid : IsInt id) :
    IsMember (createServer now id (text "10.0.0.1") 5000 0 fd) where
  id := hid
  addr := isAddress_example
  addr_ne := show text "10.0.0.1" ≠ text "0.0.0.0" by decide
  port_pos := show (1 : ℤ) ≤ 5000 by decide
  port_le := show (5000 : ℤ) ≤ 65535 by decide

/-- Server 7 leads, and has admitted peer 20 on descriptor 5. -/
private def leaderOfTwenty : Server := { startLeader 0 7 (text "127.0.0.1") 4041 20000 3 4 with
  next := [createServer 0 20 (text "10.0.0.1") 5000 0 5] }

private theorem leaderList_leaderOfTwenty : LeaderList leaderOfTwenty where
  leader := rfl
  ascending := by decide
  head_ne := by decide
  id := by decide
  addr := ⟨⟨by decide, by decide, by decide, by decide⟩, by decide⟩
  port := by decide
  peers := by
    intro p hp
    obtain rfl := List.mem_singleton.mp hp
    exact isMember_example 0 5 (by decide)

/-- The next descriptor is 6, and every send succeeds. -/
private def sendingEnv : Env := ⟨1, 6, fun _ _ _ => true, true, 0⟩

/-- The request of server 20 arrives a second time: it is told that its successor is
server 20.  A request with the leader's ID makes a leader without peers follow NULL. -/
theorem repeated_announcement_unsafe : LeaderList leaderOfTwenty ∧
    ¬ Safe sendingEnv leaderOfTwenty 20 5000 (text "10.0.0.1") .discovery ∧
    (∃ t, discovery.admission sendingEnv leaderOfTwenty 20 5000 (text "10.0.0.1") = .ok (6, t) ∧
      t.out = [.connect (text "10.0.0.1") (intText 5000) 6,
        .send 6 (padX (joinReply 7 (text "10.0.0.1") 5000 20))]) ∧
    discovery.admission sendingEnv { leaderOfTwenty with next := [] } 7 5000 (text "10.0.0.1") =
      .error .nullDeref := by
  refine ⟨leaderList_leaderOfTwenty, ?_, ⟨_, rfl, rfl⟩, rfl⟩
  rw [safe_of_one leaderList_leaderOfTwenty (isMember_example 1 6 (by decide)) (by decide)
    (fun _ _ _ => rfl) (by decide) rfl]
  exact not_not_intro rfl

theorem safe_iff_thirty : Safe sendingEnv leaderOfTwenty 30 5000 (text "10.0.0.1") .whoIsLeader ↔
    Admissible sendingEnv leaderOfTwenty 30 5000 (text "10.0.0.1") :=
  safe_iff leaderList_leaderOfTwenty (isMember_example 1 6 (by decide)) (by decide)
    (fun _ _ _ => rfl) .whoIsLeader

end Announcement
end ChatRing
