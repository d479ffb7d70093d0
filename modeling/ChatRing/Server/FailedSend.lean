import ChatRing.Server.Follower

/-!
# An election step whose send fails

`lcr_election` changes the state before it sends in three of its four sending branches, and
takes nothing back when the send fails.

## Main results

* `handleSocketChange_of_sendFails` — the state that a failed send leaves.
* `atomic_on_failure_iff` — when it is the state from before the frame.
-/

namespace ChatRing
open CText RingElection

/-- The ID in an election frame. -/
def carriedId : Token ℤ → ℤ
  | .vote q => q
  | .leader q => q

namespace Server

/-- What `lcr_election` sends for an election frame, when it sends anything. -/
def answer (s : Server) : Token ℤ → Option Text
  | .vote q =>
      if s.self.id < q then some (electionVote q)
      else if q < s.self.id then
        if s.participant = 1 then none else some (electionVote s.self.id)
      else if s.self.leader = 1 then none else some (electionLeader s.self.id)
  | .leader q => if q = s.self.id then none else some (electionLeader q)

/-- The frame is answered, and the answer cannot be sent. -/
def SendFails (env : Env) (s : Server) (token : Token ℤ) : Prop :=
  ∃ message ∈ s.answer token, ∃ successor ∈ s.next[1]?,
    env.sends s.out successor.tcpSocket (padZero message) = false

/-- What is left of the state when the answer to the frame could not be sent. -/
def afterFailedSend (s : Server) : Token ℤ → Server
  | .vote q =>
      if s.self.id < q then s
      else if q < s.self.id then { s with participant := 1 }
      else { s with participant := 1, self := { s.self with leader := 1 } }
  | .leader q => { s with
      participant := 0
      next := s.next.modifyHead fun leader => { leader with id := q, leader := 1 } }

/-- The role and the whole list, with the leader flag in its head, are what they were. -/
structure Unchanged (s t : Server) : Prop where
  self : t.self = s.self
  next : t.next = s.next
  participant : t.participant = s.participant

/-- The list names `q` as the leader already, and no election is on. -/
def Agrees (s : Server) (q : ℤ) : Prop :=
  s.participant = 0 ∧ ∀ leader ∈ s.next.head?, leader.id = q ∧ leader.leader = 1

/-- Nothing is changed before the send: a larger vote is passed on, or the announcement of
the known leader. -/
def KeptOnFailure (s : Server) : Token ℤ → Prop
  | .vote q => s.self.id < q
  | .leader q => s.Agrees q

end Server

section Failure
variable {env : Env} {s : Server} {i : Socket} {q : ℤ} {token : Token ℤ} {message : Text}

/-- Nothing is sent when the operating system refuses. -/
theorem sendToSuccessor_of_fails {successor : ServerInfo} (hsuccessor : successor ∈ s.next[1]?)
    (hfails : env.sends s.out successor.tcpSocket (padZero message) = false) :
    sendToSuccessor env s message = .ok none := by
  obtain ⟨first, rest, hnext⟩ := getElem?_one_eq_some hsuccessor
  have hsend : s.send env successor.tcpSocket (padZero message) = none :=
    if_neg (by rw [hfails]; decide)
  simp only [sendToSuccessor, Server.successor, hnext, Except.ok_bind, hsend]
  rfl

theorem lcrElection_vote_fails (h : s.SendFails env (.vote q)) :
    lcrElection env s (text "VOTE") q = .ok (-1, s.afterFailedSend (.vote q)) := by
  obtain ⟨message, hmessage, successor, hsuccessor, hfails⟩ := h
  obtain ⟨first, rest, hnext⟩ := getElem?_one_eq_some hsuccessor
  have hne : s.next ≠ [] := by simp [hnext]
  rw [lcrElection, if_pos rfl]
  simp only [Server.answer] at hmessage
  simp only [Server.afterFailedSend]
  by_cases hlarger : s.self.id < q
  · rw [if_pos hlarger] at hmessage
    cases hmessage
    rw [if_pos hlarger, if_neg hne, if_pos hlarger, sendToSuccessor_of_fails hsuccessor hfails]
    rfl
  · rw [if_neg hlarger] at hmessage
    rw [if_neg (show ¬ q > s.self.id from hlarger), if_neg hlarger]
    by_cases hsmaller : q < s.self.id
    · rw [if_pos hsmaller] at hmessage
      rw [if_pos hsmaller, if_neg hne, if_pos hsmaller]
      by_cases hparticipant : s.participant = 1
      · rw [if_pos hparticipant] at hmessage
        cases hmessage
      · rw [if_neg hparticipant] at hmessage
        cases hmessage
        rw [if_neg hparticipant]
        simp only [sendToSuccessor_of_fails (s := { s with participant := 1 }) hsuccessor hfails]
        rfl
    · rw [if_neg hsmaller] at hmessage
      rw [if_neg hsmaller, if_neg hsmaller]
      by_cases hleader : s.self.leader = 1
      · rw [if_pos hleader] at hmessage
        cases hmessage
      · rw [if_neg hleader] at hmessage
        cases hmessage
        rw [if_neg hleader]
        simp only [sendToSuccessor_of_fails
          (s := { s with participant := 1, self := { s.self with leader := 1 } })
          hsuccessor hfails]
        rfl

theorem lcrElection_leader_fails (h : s.SendFails env (.leader q)) :
    lcrElection env s (text "LEADER") q = .ok (0, s.afterFailedSend (.leader q)) := by
  obtain ⟨message, hmessage, successor, hsuccessor, hfails⟩ := h
  obtain ⟨first, rest, hnext⟩ := getElem?_one_eq_some hsuccessor
  have hkey : text "LEADER" ≠ text "VOTE" := by decide
  simp only [Server.answer] at hmessage
  by_cases hq : q = s.self.id
  · rw [if_pos hq] at hmessage
    cases hmessage
  · rw [if_neg hq] at hmessage
    cases hmessage
    rw [lcrElection, if_neg hkey, if_pos rfl, if_neg hq]
    simp only [hnext, sendToSuccessor_of_fails (s := { s with
      participant := 0, next := { first with id := q, leader := 1 } :: successor :: rest })
      rfl hfails, Server.afterFailedSend, List.modifyHead_cons]
    rfl

/-- **What a failed send leaves behind.**  IDs are positive, so that neither value returned
for a failure is taken for an elected server. -/
theorem handleSocketChange_of_sendFails (hid : 1 ≤ s.self.id) (htoken : IsInt (carriedId token))
    (h : s.SendFails env token) (i : Socket) :
    handleSocketChange env s i (frame token) = .ok (s.afterFailedSend token) := by
  have hself : (s.afterFailedSend token).self.id = s.self.id := by
    cases token with
    | vote q =>
        simp only [Server.afterFailedSend]
        split_ifs <;> rfl
    | leader q => rfl
  cases token with
  | vote q =>
      rw [handleSocketChange_vote (q := q) htoken, lcrElection_vote_fails h,
        Except.ok_bind]
      exact actOnElection_passes (by rw [hself]; exact hid) (Or.inr rfl)
  | leader q =>
      rw [handleSocketChange_leader (q := q) htoken, lcrElection_leader_fails h,
        Except.ok_bind]
      exact actOnElection_passes (by rw [hself]; exact hid) (Or.inl rfl)

/-- The change before a failed send is no change in two cases. -/
theorem unchanged_afterFailedSend_iff (h : s.SendFails env token) :
    s.Unchanged (s.afterFailedSend token) ↔ s.KeptOnFailure token := by
  obtain ⟨message, hmessage, successor, hsuccessor, -⟩ := h
  obtain ⟨first, rest, hnext⟩ := getElem?_one_eq_some hsuccessor
  cases token with
  | vote q =>
      simp only [Server.answer] at hmessage
      simp only [Server.afterFailedSend, Server.KeptOnFailure]
      by_cases hlarger : s.self.id < q
      · rw [if_pos hlarger]
        exact iff_of_true ⟨rfl, rfl, rfl⟩ hlarger
      · rw [if_neg hlarger] at hmessage ⊢
        refine iff_of_false ?_ hlarger
        by_cases hsmaller : q < s.self.id
        · rw [if_pos hsmaller] at hmessage ⊢
          intro hsame
          rw [if_pos hsame.participant.symm] at hmessage
          cases hmessage
        · rw [if_neg hsmaller] at hmessage ⊢
          intro hsame
          rw [if_pos (congrArg ServerInfo.leader hsame.self).symm] at hmessage
          cases hmessage
  | leader q =>
      simp only [Server.afterFailedSend, Server.KeptOnFailure, Server.Agrees, hnext,
        List.modifyHead_cons, List.head?_cons, Option.mem_some_iff, forall_eq']
      constructor
      · intro hsame
        have hfirst := (List.cons.inj (hsame.next.trans hnext)).1
        rw [← hfirst]
        exact ⟨hsame.participant.symm, rfl, rfl⟩
      · rintro ⟨hparticipant, hfirst, hleader⟩
        refine ⟨rfl, ?_, hparticipant.symm⟩
        rw [hnext, ← hfirst, ← hleader]

/-- **A frame whose answer cannot be sent leaves no trace exactly when the answer passes on
a larger vote, or the announcement of the leader already known.** -/
theorem atomic_on_failure_iff (hid : 1 ≤ s.self.id) (htoken : IsInt (carriedId token))
    (hfails : s.SendFails env token) (i : Socket) :
    (∃ t, handleSocketChange env s i (frame token) = .ok t ∧ s.Unchanged t) ↔
      s.KeptOnFailure token := by
  rw [handleSocketChange_of_sendFails hid htoken hfails, ← unchanged_afterFailedSend_iff hfails]
  constructor
  · rintro ⟨t, ht, hsame⟩
    cases ht
    exact hsame
  · intro hsame
    exact ⟨_, rfl, hsame⟩

end Failure

/-! ## A vote that marks the server and is lost -/

/-- Server 5 follows leader 9, and its successor is server 7. -/
private def member : Server := { startLeader 0 5 (text "10.0.0.5") 5000 20000 3 4 with
  self := ⟨5, text "10.0.0.5", 5000, 0, 3, 0⟩
  next := [⟨9, text "10.0.0.9", 5000, 1, 5, 0⟩, ⟨7, text "10.0.0.7", 5000, 0, 6, 0⟩]
  ltcpSocket := 5
  successorSocket := 6 }

/-- Every send fails. -/
private def refusing : Env := ⟨8, -1, fun _ _ _ => false, true, 0⟩

/-- Server 5 answers the vote of server 3 with its own, which cannot be sent, and takes part
in the election from then on. -/
theorem lost_vote_marks_participant : member.SendFails refusing (.vote 3) ∧
    ∃ t, handleSocketChange refusing member 5 (frame (.vote 3)) = .ok t ∧
      member.participant = 0 ∧ t.participant = 1 ∧ ¬ member.Unchanged t := by
  have hfails : member.SendFails refusing (.vote 3) :=
    ⟨electionVote 5, rfl, ⟨7, text "10.0.0.7", 5000, 0, 6, 0⟩, rfl, rfl⟩
  exact ⟨hfails, _, handleSocketChange_of_sendFails (by decide) (by decide) hfails 5, rfl, rfl,
    fun hsame => absurd hsame.participant (by decide)⟩

theorem atomic_on_failure_iff_larger :
    (∃ t, handleSocketChange refusing member 5 (frame (.vote 6)) = .ok t ∧ member.Unchanged t) ↔
      member.KeptOnFailure (.vote 6) :=
  atomic_on_failure_iff (by decide) (by decide)
    ⟨electionVote 6, rfl, ⟨7, text "10.0.0.7", 5000, 0, 6, 0⟩, rfl, rfl⟩ 5

end ChatRing
