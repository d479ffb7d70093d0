import ChatRing.Server.Decoding
import ChatRing.Server.Ring

/-!
# A server announces itself to the leader

`new_server` and `ring_reconstruction` put the record of the announced server into the
list and then send twice: a reply over the new connection, and a message to the peer
before the new one.

## Main results

* `Announcement.admission_atomic_iff` — when an admission that fails leaves the list as it
  was.
-/

namespace ChatRing
open CText CyclicList

/-- What a server multicasts to find its leader. -/
inductive Announcement
  /-- `LEADER_DISCOVERY` -/
  | discovery
  /-- `WHO_IS_LEADER` -/
  | whoIsLeader
  deriving DecidableEq

namespace Announcement
variable {env : Env} {s t : Server} {kind : Announcement} {id port : ℤ} {addr : Text}
  {fd : Socket}

/-- What the leader does with the announcement. -/
def admission : Announcement → Env → Server → ℤ → ℤ → Text → Except Fault (Socket × Server)
  | .discovery => newServer
  | .whoIsLeader => ringReconstruction

/-- The text for the new server. -/
def reply (s : Server) : Announcement → Option ServerInfo → Text
  | .discovery, some successor => joinReply s.self.id successor.addr successor.port successor.id
  | .discovery, none => joinReply s.self.id (text "0.0.0.0") 48 s.self.leader
  | .whoIsLeader, some successor =>
      knowNewLeader s.self.id s.self.addr s.self.port successor.id successor.addr successor.port
  | .whoIsLeader, none => knowNewLeader s.self.id s.self.addr s.self.port 0 (text "0.0.0.0") 0

/-- The text for the peer before it. -/
def toPredecessor (s : Server) (id port : ℤ) (addr : Text) : Announcement → Text
  | .discovery => updateFromLeader addr id port
  | .whoIsLeader => knowNewLeader s.self.id s.self.addr s.self.port id addr port

theorem admission_eq (kind : Announcement) (env : Env) (s : Server) (id port : ℤ) (addr : Text) :
    kind.admission env s id port addr =
      admitPeer env s id port addr (kind.reply s) (kind.toPredecessor s id port addr) := by
  cases kind with
  | discovery =>
      simp only [admission, newServer, toPredecessor]
      congr 1
      funext successor
      cases successor <;> rfl
  | whoIsLeader =>
      simp only [admission, ringReconstruction, toPredecessor]
      congr 1
      funext successor
      cases successor <;> rfl

/-! ## A failed admission -/

/-- An admission that returns `error_return` leaves the list as it was; so the socket of
every peer in the list is in the set that `main` selects on, if that was so before. -/
structure Atomic (s : Server) (fd : Socket) (t : Server) : Prop where
  unchanged : fd = errorReturn → t.next = s.next
  registered : (∀ p ∈ s.next, p.tcpSocket ∈ s.master) →
    ∀ p ∈ t.next, p.tcpSocket ∈ (registerPeer t fd).master

/-- Both sends succeed. -/
def BothSent (env : Env) (s : Server) (reply toPredecessor : Text)
    (predecessor : Option ServerInfo) : Prop :=
  env.sends s.out env.connect (padX reply) = true ∧
    ∀ p ∈ predecessor, env.sends (s.out ++ [.send env.connect (padX reply)]) p.tcpSocket
      (padX toPredecessor) = true

/-- The sends of this admission succeed, once the connection stands. -/
def Told (env : Env) (s : Server) (id port : ℤ) (addr : Text) (kind : Announcement) : Prop :=
  BothSent env (s.inserted env id port addr)
    (kind.reply s (gapSucc (smaller id s.next) (larger id s.next)))
    (kind.toPredecessor s id port addr) (gapPred (smaller id s.next) (larger id s.next))

theorem mem_inserted {p : ServerInfo} : p ∈ (s.inserted env id port addr).next ↔
    p = createServer env.now id addr port 0 env.connect ∨ p ∈ s.next := by
  have hmem : p ∈ s.next ↔ p ∈ smaller id s.next ∨ p ∈ larger id s.next := by
    rw [← List.mem_append, smaller_append_larger]
  rw [hmem]
  simp only [Server.inserted, Server.connected, List.mem_append, List.mem_cons]
  exact or_left_comm

theorem length_inserted : (s.inserted env id port addr).next.length = s.next.length + 1 := by
  have hlen := congrArg List.length (smaller_append_larger id s.next)
  simp only [Server.inserted, Server.connected, List.length_append, List.length_cons] at hlen ⊢
  omega

theorem tellNeighbours_of_sent {reply toPredecessor : Text} {predecessor : Option ServerInfo}
    (h : BothSent env s reply toPredecessor predecessor) :
    tellNeighbours env s reply toPredecessor predecessor = (env.connect, { s with
      out := s.out ++ .send env.connect (padX reply) ::
        predecessor.toList.map fun p => .send p.tcpSocket (padX toPredecessor) }) := by
  obtain ⟨hreply, hpredecessor⟩ := h
  rw [tellNeighbours, Server.send, if_pos hreply]
  cases predecessor with
  | none => rfl
  | some p => simp [Server.send, hpredecessor p rfl]

theorem tellNeighbours_of_not_sent {reply toPredecessor : Text}
    {predecessor : Option ServerInfo} (h : ¬ BothSent env s reply toPredecessor predecessor) :
    ∃ out, tellNeighbours env s reply toPredecessor predecessor =
      (errorReturn, { s with out := out }) := by
  by_cases hreply : env.sends s.out env.connect (padX reply) = true
  · cases predecessor with
    | none => exact absurd ⟨hreply, by simp⟩ h
    | some p =>
        have hpredecessor : ¬ env.sends (s.out ++ [.send env.connect (padX reply)]) p.tcpSocket
            (padX toPredecessor) = true := by
          intro hsent
          refine h ⟨hreply, ?_⟩
          rintro q hq
          cases hq
          exact hsent
        exact ⟨s.out ++ [.send env.connect (padX reply)],
          by simp [tellNeighbours, Server.send, hreply, hpredecessor]⟩
  · exact ⟨s.out, by simp [tellNeighbours, Server.send, hreply]⟩

theorem mem_master_registerPeer {k : Socket} (fd : Socket) (h : k ∈ t.master) :
    k ∈ (registerPeer t fd).master := by
  rw [registerPeer]
  split
  · exact Finset.mem_insert_of_mem h
  · exact h

/-- An admission that does not change the list. -/
theorem atomic_of_next_eq {fd : Socket} (hmaster : t.master = s.master) (hnext : t.next = s.next) :
    Atomic s fd t := by
  refine ⟨fun _ => hnext, ?_⟩
  intro h p hp
  rw [hnext] at hp
  exact mem_master_registerPeer fd (by rw [hmaster]; exact h p hp)

/-- Without a connection, or for a known ID, the list stays what it was. -/
theorem admission_next (h : kind.admission env s id port addr = .ok (fd, t))
    (hsame : ¬ IsValidSocket env.connect ∨ ¬ PortFits port ∨ serverInfoExist id s.self s.next) :
    t.next = s.next := by
  rw [admission_eq] at h
  rcases hsame with hconnect | hport | hknown
  · obtain ⟨portStr, -, h⟩ := Except.bind_eq_ok.mp h
    simp only [Server.setupTcpClient, hconnect, if_false] at h
    cases h
    rfl
  · obtain ⟨portStr, hportStr, -⟩ := Except.bind_eq_ok.mp h
    have hfault : portText port = .error .outOfBounds := portText_of_not_fits hport
    rw [hfault] at hportStr
    cases hportStr
  · obtain ⟨-, hnext⟩ := admitPeer_next h
    rwa [appendServerSorted, if_pos hknown, or_self] at hnext

/-- **An admission that fails leaves the list unchanged exactly when** it cannot connect,
the ID is known, or both sends succeed, so that it does not fail.  (With a port that does
not fit its buffer it does not return.) -/
theorem admission_atomic_iff (kind : Announcement) (env : Env) (s : Server) (id port : ℤ)
    (addr : Text) :
    (∀ fd t, kind.admission env s id port addr = .ok (fd, t) → Atomic s fd t) ↔
      ¬ IsValidSocket env.connect ∨ ¬ PortFits port ∨ serverInfoExist id s.self s.next ∨
        kind.Told env s id port addr := by
  by_cases hsame : ¬ IsValidSocket env.connect ∨ ¬ PortFits port ∨
      serverInfoExist id s.self s.next
  · refine iff_of_true ?_ ?_
    · intro fd t h
      rw [admission_eq] at h
      exact atomic_of_next_eq (Server.opens_admitPeer h).master
        (admission_next (by rw [admission_eq]; exact h) hsame)
    · rcases hsame with h | h | h
      · exact Or.inl h
      · exact Or.inr (Or.inl h)
      · exact Or.inr (Or.inr (Or.inl h))
  · push Not at hsame
    obtain ⟨hconnect, hport, hnew⟩ := hsame
    rw [admission_eq, admitPeer_of_new addr _ _ hport hconnect hnew,
      or_iff_right (not_not_intro hconnect), or_iff_right (not_not_intro hport),
      or_iff_right hnew]
    by_cases htold : kind.Told env s id port addr
    · refine iff_of_true ?_ htold
      rw [tellNeighbours_of_sent htold]
      rintro fd t h
      cases h
      refine ⟨fun hfd => absurd hconnect (by rw [hfd]; decide), ?_⟩
      intro h p hp
      rcases mem_inserted.mp hp with rfl | hp
      · rw [registerPeer, if_pos hconnect]
        exact Finset.mem_insert_self _ _
      · exact mem_master_registerPeer env.connect (h p hp)
    · refine iff_of_false ?_ htold
      obtain ⟨out, hout⟩ := tellNeighbours_of_not_sent htold
      intro h
      have hnext := (h _ _ (congrArg Except.ok hout)).unchanged rfl
      have hlen := congrArg List.length hnext
      rw [length_inserted] at hlen
      omega

/-! ### A record without a connection -/

/-- Server 7 leads, and has admitted peer 20 on descriptor 5. -/
private def leaderOfOne : Server := { startLeader 0 7 (text "127.0.0.1") 4041 20000 3 4 with
  next := [⟨20, text "10.0.0.1", 5000, 0, 5, 0⟩]
  master := {0, 3, 4, 5}
  opened := {0, 1, 2, 3, 4, 5} }

/-- The next descriptor is 6, and sends succeed on the given descriptors only. -/
private def sendingOn (sockets : List Socket) : Env := ⟨1, 6, fun _ k _ => k ∈ sockets, true, 0⟩

/-- The reply to server 10 cannot be sent.  Its record stays in the list, and its
descriptor 6 is not selected on. -/
theorem failed_admission_stays :
    ∃ t, discovery.admission (sendingOn [5]) leaderOfOne 10 5000 (text "10.0.0.2") =
        .ok (errorReturn, t) ∧
      t.next.map (fun p => (p.id, p.tcpSocket)) = [(10, 6), (20, 5)] ∧
      6 ∉ (registerPeer t errorReturn).master ∧ ¬ Atomic leaderOfOne errorReturn t := by
  refine ⟨_, rfl, rfl, by decide, ?_⟩
  intro h
  exact absurd (congrArg List.length (h.unchanged rfl)) (by decide)

end Announcement
end ChatRing
