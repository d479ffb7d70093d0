import ChatRing.Lib.RingElection
import ChatRing.Server.Socket

/-!
# Election frames

What a server on a ring does with an `ELECTION` frame.  The list of such a server is
`[self, leader, successor]` while it takes part in an election and `[self]` after it;
`Represents` says which of the five states of the abstract protocol it is in.

## Main results

* `handleSocketChange_vote`, `handleSocketChange_leader` — the text of a frame is
  recognised.
* `handleSocketChange_vote_refines`, `handleSocketChange_leader_refines`,
  `checkLeaderTimeout_refines` — a server does what the abstract node does.
-/

namespace ChatRing
open CText RingElection

/-- Every send and every multicast succeeds. -/
def Env.AllSucceed (env : Env) : Prop :=
  (∀ out k bytes, env.sends out k bytes = true) ∧ env.multicasts = true

/-- What is sent on this socket arrives, and so does what is multicast. -/
def Env.Reaches (env : Env) (socket : Socket) : Prop :=
  (∀ out bytes, env.sends out socket bytes = true) ∧ env.multicasts = true

theorem Env.AllSucceed.reaches {env : Env} (h : env.AllSucceed) (socket : Socket) :
    env.Reaches socket := ⟨fun out bytes => h.1 out socket bytes, h.2⟩

/-- The frame of a token. -/
def frame : Token ℤ → Text
  | .vote q => padZero (electionVote q)
  | .leader q => padZero (electionLeader q)

/-- The IDs that `getRadomId(1, 10000)` returns. -/
def IsId (n : ℤ) : Prop := 1 ≤ n ∧ n ≤ 10000

instance (n : ℤ) : Decidable (IsId n) := inferInstanceAs (Decidable (_ ∧ _))

theorem IsId.isInt {n : ℤ} (h : IsId n) : IsInt n := by
  obtain ⟨h₁, h₂⟩ := h
  constructor <;> omega

/-! ## Recognising a frame -/

theorem parseFrame_election {keyword : Text} (hne : keyword ≠ []) (hcolon : ':' ∉ keyword)
    (hlen : keyword.length ≤ 7) {q : ℤ} (hq : IsInt q) (fromLeader : Bool) :
    parseFrame fromLeader (text "ELECTION:" ++ (keyword ++ (':' :: intText q))) =
      .election keyword q := by
  have hformat : format "ELECTION:%7[^:]:%d" =
      lits (text "ELECTION:") ++ [.set (some 7) ':', .lit ':', .int] := rfl
  have helection : sscanf (text "ELECTION:" ++ (keyword ++ (':' :: intText q)))
      "ELECTION:%7[^:]:%d" = [.str keyword, .int q] := by
    rw [sscanf, hformat, scan_lits rfl, scan_set hne hcolon (by simpa using hlen)
      (by simp), scan_lit (by decide), ← List.append_nil (intText q),
      scan_int hq noDigitHead_nil, scan_nil]
  have hhead : text "ELECTION:" ++ (keyword ++ (':' :: intText q)) =
      'E' :: (text "LECTION:" ++ (keyword ++ (':' :: intText q))) := rfl
  have hupdate : sscanf (text "ELECTION:" ++ (keyword ++ (':' :: intText q)))
      "UPDATE_FROM_LEADER:%15[^:]:%d:%d" = [] := by
    rw [hhead]
    exact sscanf_of_head_ne (c := 'U') rfl (by decide) (by decide) _
  have hclient : sscanf (text "ELECTION:" ++ (keyword ++ (':' :: intText q)))
      "CLIENT:%d:%d:%[^\n]" = [] := by
    rw [hhead]
    exact sscanf_of_head_ne (c := 'C') rfl (by decide) (by decide) _
  unfold parseFrame
  rw [hupdate, hclient, helection]
  cases fromLeader <;> rfl

theorem frameBody_padZero {body : Text} (hnul : '\x00' ∉ body) (hline : '\n' ∉ body)
    (hlen : body.length + 2 ≤ bufferSize) :
    frameBody ((padZero (body ++ emptyLine)).take bufferSize) = some body := by
  have hlength : (padZero (body ++ emptyLine)).length = bufferSize := by
    apply length_padZero
    simpa [emptyLine] using hlen
  rw [List.take_of_length_le hlength.le, padZero]
  exact frameBody_append hnul (settled_of_not_mem hline) _

/-- The text of an election frame is cut out whole. -/
theorem frameBody_election {keyword : Text} (hnul : '\x00' ∉ keyword) (hline : '\n' ∉ keyword)
    (hlen : keyword.length ≤ 7) {q : ℤ} (hq : IsInt q) :
    frameBody ((padZero (text "ELECTION:" ++ (keyword ++ (':' :: intText q)) ++
      emptyLine)).take bufferSize) =
        some (text "ELECTION:" ++ (keyword ++ (':' :: intText q))) := by
  have hkey : '\x00' ∉ text "ELECTION:" ∧ '\n' ∉ text "ELECTION:" := by decide
  have hlength : (text "ELECTION:").length = 9 := rfl
  apply frameBody_padZero
  · simp [hkey.1, hnul, not_nul_of_mem_intText]
  · simp [hkey.2, hline, not_mem_intText]
  · have hq' := hq.length_le
    simp only [List.length_append, List.length_cons, hlength, bufferSize]
    omega

/-- The text of an election frame reaches the chain of formats whole. -/
theorem handleSocketChange_election {keyword : Text} (hne : keyword ≠ [])
    (hcolon : ':' ∉ keyword) (hnul : '\x00' ∉ keyword) (hline : '\n' ∉ keyword)
    (hlen : keyword.length ≤ 7) {q : ℤ} (hq : IsInt q) (env : Env) (s : Server) (i : Socket) :
    handleSocketChange env s i
        (padZero (text "ELECTION:" ++ (keyword ++ (':' :: intText q)) ++ emptyLine)) =
      handleElection env s (text "ELECTION:" ++ (keyword ++ (':' :: intText q))) keyword q := by
  rw [handleSocketChange, if_neg (by simp [padZero, emptyLine]),
    frameBody_election hnul hline hlen hq]
  simp only [dispatch]
  rw [parseFrame_election hne hcolon hlen hq]

theorem leaderFound_vote (q : ℤ) :
    leaderFound (text "ELECTION:" ++ (text "VOTE" ++ (':' :: intText q))) = 0 := by
  have hnone : strstr (text "LEADER:") (text "ELECTION:" ++ (text "VOTE" ++ (':' :: intText q))) =
      none := by
    rw [strstr_eq_none_iff]
    intro h
    -- no `A` is in the text
    have hmem := h.subset (show 'A' ∈ text "LEADER:" by decide)
    have hkey : 'A' ∉ text "ELECTION:" ∧ 'A' ∉ text "VOTE" := by decide
    simp [hkey.1, hkey.2, not_mem_intText] at hmem
  rw [leaderFound, hnone]

theorem leaderFound_leader {q : ℤ} (hq : IsInt q) :
    leaderFound (text "ELECTION:" ++ (text "LEADER" ++ (':' :: intText q))) = q := by
  have hfind : strstr (text "LEADER:") (text "ELECTION:LEADER:") =
      some (text "ELECTION:", text "LEADER:") := rfl
  have hsplit : text "ELECTION:" ++ (text "LEADER" ++ (':' :: intText q)) =
      text "ELECTION:LEADER:" ++ intText q := rfl
  rw [leaderFound, hsplit, strstr_append_right hfind]
  exact atoi_intText hq

theorem frame_vote (q : ℤ) : frame (.vote q) =
    padZero (text "ELECTION:" ++ (text "VOTE" ++ (':' :: intText q)) ++ emptyLine) := by
  rw [frame, electionVote_eq]
  rfl

theorem frame_leader (q : ℤ) : frame (.leader q) =
    padZero (text "ELECTION:" ++ (text "LEADER" ++ (':' :: intText q)) ++ emptyLine) := by
  rw [frame, electionLeader_eq]
  rfl

/-- What a server does with a vote. -/
theorem handleSocketChange_vote {q : ℤ} (hq : IsInt q) (env : Env) (s : Server) (i : Socket) :
    handleSocketChange env s i (frame (.vote q)) =
      (lcrElection env s (text "VOTE") q >>= fun r => actOnElection env r.1 r.2) := by
  rw [frame_vote, handleSocketChange_election (by decide) (by decide) (by decide)
    (by decide) (by decide) hq, handleElection, leaderFound_vote]
  rfl

/-- What a server does with an announcement. -/
theorem handleSocketChange_leader {q : ℤ} (hq : IsInt q) (env : Env) (s : Server) (i : Socket) :
    handleSocketChange env s i (frame (.leader q)) =
      (lcrElection env s (text "LEADER") q >>= fun r => actOnElection env r.1 r.2) := by
  rw [frame_leader, handleSocketChange_election (by decide) (by decide) (by decide)
    (by decide) (by decide) hq, handleElection, leaderFound_leader hq]
  by_cases hne : q = 0
  · simp [hne]
  · simp [hne]

/-! ## A server as a node of the protocol -/

/-- `participant` in each state. -/
def participantOf : Node → ℤ
  | .idle => 0
  | .candidate => 1
  | .leading => 1
  | .crowned => 0
  | .follower => 0

/-- `connected_peers->leader` in each state. -/
def leaderOf : Node → ℤ
  | .idle => 0
  | .candidate => 0
  | .leading => 1
  | .crowned => 1
  | .follower => 0

/-- The datagrams sent to the group of servers. -/
def multicasts (out : List Output) : List Text :=
  out.filterMap fun
    | .multicast bytes => some bytes
    | _ => none

/-- What a follower has sent to the group of servers. -/
def announced (s₀ : Server) (n : Node) : List Text :=
  if n = .follower then [padX (whoIsLeader s₀.self.id s₀.self.port)] else []

/-- The list `[self, leader, successor]`; the successor is reached on `socket`. -/
def Paired (socket : Socket) (next : List ServerInfo) : Prop :=
  ∃ leader successor, next = [leader, successor] ∧ successor.tcpSocket = socket

/-- The server that started as `s₀` is in the state `n` of the protocol. -/
structure Represents (s₀ : Server) (socket : Socket) (n : Node) (s : Server) : Prop where
  self : s.self = { s₀.self with leader := leaderOf n }
  participant : s.participant = participantOf n
  active : n.Active → Paired socket s.next
  passive : ¬ n.Active → s.next = []
  multicasts : multicasts s.out = multicasts s₀.out ++ announced s₀ n

/-- The server moved to the state `r.1` of the protocol and sent the token of `r`. -/
def Moves (s₀ : Server) (socket : Socket) (s : Server) (r : Node × Option (Token ℤ))
    (t : Server) : Prop :=
  Represents s₀ socket r.1 t ∧ ∃ sent, t.out = s.out ++ sent ∧
    sentOn sent socket = r.2.toList.map frame

theorem Moves.refl {s₀ s : Server} {socket : Socket} {n : Node}
    (h : Represents s₀ socket n s) : Moves s₀ socket s (n, none) s :=
  ⟨h, [], (List.append_nil _).symm, rfl⟩

theorem send_of_allSucceed {env : Env} (henv : env.AllSucceed) (s : Server) (socket : Socket)
    (bytes : Text) :
    s.send env socket bytes = some { s with out := s.out ++ [.send socket bytes] } := by
  rw [Server.send, if_pos (henv.1 _ _ _)]

theorem send_of_reaches {env : Env} {socket : Socket} (henv : env.Reaches socket) (s : Server)
    (bytes : Text) :
    s.send env socket bytes = some { s with out := s.out ++ [.send socket bytes] } := by
  rw [Server.send, if_pos (henv.1 _ _)]

theorem sendToSuccessor_of_reaches {env : Env} {s : Server} {leader successor : ServerInfo}
    (henv : env.Reaches successor.tcpSocket) (hnext : s.next = [leader, successor])
    (message : Text) :
    sendToSuccessor env s message =
      .ok (some { s with out := s.out ++ [.send successor.tcpSocket (padZero message)] }) := by
  have hsuccessor : s.successor = .ok successor := by rw [Server.successor, hnext]
  rw [sendToSuccessor, hsuccessor, Except.ok_bind, send_of_reaches henv]
  rfl

theorem actOnElection_zero {s : Server} (h : s.self.id ≠ 0) (env : Env) :
    actOnElection env 0 s = .ok s := by
  rw [actOnElection, if_neg (by decide), if_neg h]

/-! ### What `lcr_election` does with a list of two records -/

section TwoRecords
variable {env : Env} {s : Server} {leader successor : ServerInfo} {q : ℤ}
  (henv : env.Reaches successor.tcpSocket) (hnext : s.next = [leader, successor])

include henv hnext

theorem lcrElection_larger (hq : s.self.id < q) :
    lcrElection env s (text "VOTE") q = .ok (0, { s with
      out := s.out ++ [.send successor.tcpSocket (padZero (electionVote q))] }) := by
  rw [lcrElection, if_pos rfl, if_pos hq, if_neg (by simp [hnext]),
    sendToSuccessor_of_reaches henv hnext]
  rfl

theorem lcrElection_smaller (hq : q < s.self.id) (hs : s.participant ≠ 1) :
    lcrElection env s (text "VOTE") q = .ok (0, { s with
      participant := 1
      out := s.out ++ [.send successor.tcpSocket (padZero (electionVote s.self.id))] }) := by
  rw [lcrElection, if_pos rfl, if_neg hq.not_gt, if_pos hq, if_neg (by simp [hnext]), if_neg hs]
  simp only [sendToSuccessor_of_reaches (s := { s with participant := 1 }) henv hnext]
  rfl

theorem lcrElection_own (hs : s.self.leader ≠ 1) :
    lcrElection env s (text "VOTE") s.self.id = .ok (s.self.id, { s with
      participant := 1
      self := { s.self with leader := 1 }
      next := [successor]
      out := s.out ++ [.send successor.tcpSocket (padZero (electionLeader s.self.id))] }) := by
  rw [lcrElection, if_pos rfl, if_neg (lt_irrefl _), if_neg (lt_irrefl _), if_neg hs]
  simp only [sendToSuccessor_of_reaches
    (s := { s with participant := 1, self := { s.self with leader := 1 } }) henv hnext]
  simp only [Except.ok_bind, hnext, Server.deleteServer, deleteServer, if_true]
  rfl

theorem lcrElection_leader (hq : q ≠ s.self.id) :
    lcrElection env s (text "LEADER") q = .ok (1, { s with
      participant := 0
      next := [{ leader with id := q, leader := 1 }, successor]
      out := s.out ++ [.send successor.tcpSocket (padZero (electionLeader q))] }) := by
  have hkey : text "LEADER" ≠ text "VOTE" := by decide
  rw [lcrElection, if_neg hkey, if_pos rfl, if_neg hq]
  simp only [hnext]
  simp only [sendToSuccessor_of_reaches (s := { s with
    participant := 0, next := [{ leader with id := q, leader := 1 }, successor] }) henv rfl]
  rfl

end TwoRecords

/-! ### Outside an election -/

theorem lcrElection_alone {env : Env} {s : Server} {q : ℤ} (hnext : s.next = [])
    (hq : q ≠ s.self.id ∨ s.self.leader = 1) : lcrElection env s (text "VOTE") q = .ok (0, s) := by
  rw [lcrElection, if_pos rfl]
  split_ifs with hlarger hsmaller hleader
  · rfl
  · rfl
  · rfl
  · have heq : q = s.self.id := by omega
    exact absurd (hq.resolve_left (not_not.mpr heq)) hleader

theorem lcrElection_alone_leader {env : Env} {s : Server} {q : ℤ} (hnext : s.next = [])
    (hq : q ≠ s.self.id) : lcrElection env s (text "LEADER") q = .ok (0, s) := by
  have hkey : text "LEADER" ≠ text "VOTE" := by decide
  rw [lcrElection, if_neg hkey, if_pos rfl, if_neg hq]
  simp only [hnext]
  rfl

theorem lcrElection_own_leader (env : Env) (s : Server) :
    lcrElection env s (text "LEADER") s.self.id = .ok (0, { s with participant := 0 }) := by
  have hkey : text "LEADER" ≠ text "VOTE" := by decide
  rw [lcrElection, if_neg hkey, if_pos rfl, if_pos rfl]
  rfl

/-! ### What follows the election -/

section Teardown
variable {s : Server} {leader successor : ServerInfo}

theorem dropSuccessor_fields (s : Server) :
    (dropSuccessor s).self = s.self ∧ (dropSuccessor s).participant = s.participant ∧
      (dropSuccessor s).next = s.next ∧ (dropSuccessor s).out = s.out := by
  rw [dropSuccessor]
  split
  · exact ⟨rfl, rfl, rfl, rfl⟩
  · exact ⟨rfl, rfl, rfl, rfl⟩

theorem dropNext_fields (hnext : s.next = [successor])
    (hsocket : IsValidSocket successor.tcpSocket) :
    ∃ t, dropNext s = .ok t ∧ t.self = s.self ∧ t.participant = s.participant ∧ t.next = [] ∧
      t.out = s.out := by
  refine ⟨{ s with
    next := []
    master := s.master.erase successor.tcpSocket
    opened := s.opened.erase successor.tcpSocket }, ?_, rfl, rfl, rfl, rfl⟩
  rw [dropNext]
  simp only [hnext, Server.dropSocket_of_valid hsocket, Except.ok_bind, Server.deleteServer,
    deleteServer, if_true]
  rfl

/-- The follower forgets its list and asks who the leader is. -/
theorem actOnElection_one {env : Env} (hmulticast : env.multicasts = true)
    (hnext : s.next = [leader, successor])
    (hsocket : IsValidSocket successor.tcpSocket) :
    ∃ t, actOnElection env 1 s = .ok t ∧ t.self = s.self ∧ t.participant = s.participant ∧
      t.next = [] ∧
      t.out = s.out ++ [.multicast (padX (whoIsLeader s.self.id s.self.port))] := by
  have hdelete : s.deleteServer leader.id = .ok { s with next := [successor] } := by
    simp only [Server.deleteServer, hnext, deleteServer, if_true]
    rfl
  obtain ⟨t, ht, hself, hparticipant, htnext, hout⟩ :=
    dropNext_fields (s := { s with next := [successor] }) rfl hsocket
  obtain ⟨hself', hparticipant', hnext', hout'⟩ := dropSuccessor_fields t
  refine ⟨(dropSuccessor t).doMulticast env (padX (whoIsLeader s.self.id s.self.port)), ?_, ?_⟩
  · rw [actOnElection, if_pos rfl]
    simp only [hnext, hdelete, Except.ok_bind, ht, hself]
    rfl
  · rw [Server.doMulticast, if_pos hmulticast]
    exact ⟨hself'.trans hself, hparticipant'.trans hparticipant, hnext'.trans htnext,
      congrArg (· ++ _) (hout'.trans hout)⟩

/-- The new leader forgets its list. -/
theorem actOnElection_own (env : Env) (hid : s.self.id ≠ 1) (hnext : s.next = [successor])
    (hsocket : IsValidSocket successor.tcpSocket) :
    ∃ t, actOnElection env s.self.id s = .ok t ∧ t.self = s.self ∧
      t.participant = s.participant ∧ t.next = [] ∧ t.out = s.out := by
  obtain ⟨hself, hparticipant, hnext', hout⟩ := dropSuccessor_fields s
  obtain ⟨t, ht, htself, htparticipant, htnext, htout⟩ :=
    dropNext_fields (hnext'.trans hnext) hsocket
  refine ⟨t, ?_, htself.trans hself, htparticipant.trans hparticipant, htnext, htout.trans hout⟩
  rw [actOnElection, if_neg hid, if_pos rfl]
  simp only [hnext, ht]

end Teardown

/-! ## Refinement -/

section Refines
variable {env : Env} {s₀ s : Server} {socket : Socket} {n : Node} {q : ℤ}

theorem Represents.id (h : Represents s₀ socket n s) : s.self.id = s₀.self.id := by
  rw [h.self]

theorem Represents.id_ne_zero (h : Represents s₀ socket n s) (hid : IsId s₀.self.id) :
    s.self.id ≠ 0 := by
  have h₁ := hid.1
  rw [h.id]
  omega

/-- The outputs of a step that sent one frame over the link. -/
theorem Moves.of_send {t : Server} {n' : Node} {u : Token ℤ} (h : Represents s₀ socket n' t)
    (hout : t.out = s.out ++ [.send socket (frame u)]) : Moves s₀ socket s (n', some u) t :=
  ⟨h, _, hout, sentOn_send_self _ _ _⟩

theorem multicasts_append (l₁ l₂ : List Output) :
    multicasts (l₁ ++ l₂) = multicasts l₁ ++ multicasts l₂ := List.filterMap_append

theorem multicasts_send (out : List Output) (k : Socket) (bytes : Text) :
    multicasts (out ++ [.send k bytes]) = multicasts out := by
  simp [multicasts]

/-- A node that takes part, and a vote. -/
theorem Represents.receive_vote (h : Represents s₀ socket n s) (henv : env.Reaches socket)
    (hsocket : IsValidSocket socket) (hid : IsId s₀.self.id) (hn : n.Active)
    (hown : q = s₀.self.id → s₀.self.id ≠ 1) :
    ∃ t, (lcrElection env s (text "VOTE") q >>= fun r => actOnElection env r.1 r.2) = .ok t ∧
      Moves s₀ socket s (receive s₀.self.id n (.vote q)) t := by
  obtain ⟨leader, successor, hnext, rfl⟩ := h.active hn
  by_cases heq : q = s₀.self.id
  · have hne : s.self.id ≠ 1 := by
      rw [h.id]
      exact hown heq
    have hleader : s.self.leader ≠ 1 := by
      rw [h.self]
      show leaderOf n ≠ 1
      rcases hn with rfl | rfl <;> decide
    rw [heq, receive_own hn, ← h.id, lcrElection_own henv hnext hleader, Except.ok_bind]
    obtain ⟨t, ht, hself, hparticipant, htnext, hout⟩ := actOnElection_own env (s := { s with
      participant := 1
      self := { s.self with leader := 1 }
      next := [successor]
      out := s.out ++ [.send successor.tcpSocket (padZero (electionLeader s.self.id))] })
      hne rfl hsocket
    refine ⟨t, ht, Moves.of_send ⟨?_, hparticipant, ?_, fun _ => htnext, ?_⟩ hout⟩
    · rw [hself, h.self]
      rfl
    · intro hactive
      simp [Node.Active] at hactive
    · rw [hout, multicasts_send, h.multicasts]
      rcases hn with rfl | rfl <;> rfl
  · rcases RingElection.receive_vote hn heq with ⟨hlt, hr⟩ | ⟨hlt, rfl, hr⟩ | ⟨hlt, rfl, hr⟩
    · rw [hr, lcrElection_larger henv hnext (by rwa [h.id]), Except.ok_bind]
      refine ⟨_, actOnElection_zero ?_ env, Moves.of_send ⟨h.self, h.participant, h.active,
        h.passive, ?_⟩ rfl⟩
      · exact h.id_ne_zero hid
      · rw [multicasts_send]
        exact h.multicasts
    · have hfresh : s.participant ≠ 1 := by
        rw [h.participant]
        decide
      rw [hr, lcrElection_smaller henv hnext (by rwa [h.id]) hfresh, Except.ok_bind, h.id]
      refine ⟨_, actOnElection_zero ?_ env, Moves.of_send ⟨h.self, rfl, fun _ => h.active hn,
        fun hn => absurd (Or.inr rfl) hn, ?_⟩ rfl⟩
      · exact h.id_ne_zero hid
      · rw [multicasts_send]
        exact h.multicasts
    · have hswallow : lcrElection env s (text "VOTE") q = .ok (0, s) := by
        rw [lcrElection, if_pos rfl, if_neg (by rw [h.id]; exact hlt.not_gt),
          if_pos (by rwa [h.id]), if_neg (by simp [hnext]), if_pos (by exact h.participant)]
        rfl
      rw [hr, hswallow, Except.ok_bind]
      exact ⟨s, actOnElection_zero (h.id_ne_zero hid) env, Moves.refl h⟩

/-- A node that takes part, and an announcement. -/
theorem Represents.receive_leader (h : Represents s₀ socket n s) (henv : env.Reaches socket)
    (hsocket : IsValidSocket socket) (hid : IsId s₀.self.id) (hn : n.Active) :
    ∃ t, (lcrElection env s (text "LEADER") q >>= fun r => actOnElection env r.1 r.2) = .ok t ∧
      Moves s₀ socket s (receive s₀.self.id n (.leader q)) t := by
  obtain ⟨leader, successor, hnext, rfl⟩ := h.active hn
  by_cases heq : q = s₀.self.id
  · have hr : receive s₀.self.id n (.leader q) = (.idle, none) := by
      rw [heq]
      rcases hn with rfl | rfl <;> simp [receive]
    rw [hr, heq, ← h.id, lcrElection_own_leader, Except.ok_bind]
    refine ⟨_, actOnElection_zero ?_ env, ⟨?_, rfl, fun _ => h.active hn,
      fun hn => absurd (Or.inl rfl) hn, ?_⟩, [], (List.append_nil _).symm, rfl⟩
    · exact h.id_ne_zero hid
    · rw [h.self]
      rcases hn with rfl | rfl <;> rfl
    · rw [h.multicasts]
      rcases hn with rfl | rfl <;> rfl
  · rw [RingElection.receive_leader hn heq, lcrElection_leader henv hnext (by rwa [h.id]),
      Except.ok_bind]
    obtain ⟨t, ht, hself, hparticipant, htnext, hout⟩ := actOnElection_one (s := { s with
      participant := 0
      next := [{ leader with id := q, leader := 1 }, successor]
      out := s.out ++ [.send successor.tcpSocket (padZero (electionLeader q))] }) henv.2 rfl hsocket
    have hasks : s.self.id = s₀.self.id ∧ s.self.port = s₀.self.port := by
      rw [h.self]
      exact ⟨rfl, rfl⟩
    have hout' : t.out = s.out ++ [.send successor.tcpSocket (frame (.leader q)),
        .multicast (padX (whoIsLeader s₀.self.id s₀.self.port))] := by
      simp only [hout, hasks, List.append_assoc]
      rfl
    refine ⟨t, ht, ⟨?_, hparticipant, ?_, fun _ => htnext, ?_⟩, _, hout', ?_⟩
    · rw [hself, h.self]
      rcases hn with rfl | rfl <;> rfl
    · intro hactive
      simp [Node.Active] at hactive
    · have hquiet : announced s₀ n = [] := by
        rcases hn with rfl | rfl <;> rfl
      have hold := h.multicasts
      rw [hquiet, List.append_nil] at hold
      rw [hout', multicasts_append, hold]
      rfl
    · simp [sentOn]

/-- A node outside the election drops a vote. -/
theorem Represents.drop_vote (h : Represents s₀ socket n s) (hid : IsId s₀.self.id)
    (hn : ¬ n.Active) (hown : n = .follower → q ≠ s₀.self.id) :
    ∃ t, (lcrElection env s (text "VOTE") q >>= fun r => actOnElection env r.1 r.2) = .ok t ∧
      Moves s₀ socket s (receive s₀.self.id n (.vote q)) t := by
  have hq : q ≠ s.self.id ∨ s.self.leader = 1 := by
    rw [h.self]
    cases n with
    | idle => exact absurd (Or.inl rfl) hn
    | candidate => exact absurd (Or.inr rfl) hn
    | leading => exact Or.inr rfl
    | crowned => exact Or.inr rfl
    | follower => exact Or.inl (hown rfl)
  have hr : receive s₀.self.id n (.vote q) = (n, none) := by
    cases n with
    | idle => exact absurd (Or.inl rfl) hn
    | candidate => exact absurd (Or.inr rfl) hn
    | leading => rfl
    | crowned => rfl
    | follower => rfl
  rw [lcrElection_alone (h.passive hn) hq, Except.ok_bind, hr]
  exact ⟨s, actOnElection_zero (h.id_ne_zero hid) env, Moves.refl h⟩

/-- A node outside the election, and an announcement: its own ends the election. -/
theorem Represents.drop_leader (h : Represents s₀ socket n s) (hid : IsId s₀.self.id)
    (hn : ¬ n.Active) :
    ∃ t, (lcrElection env s (text "LEADER") q >>= fun r => actOnElection env r.1 r.2) = .ok t ∧
      Moves s₀ socket s (receive s₀.self.id n (.leader q)) t := by
  have hnext := h.passive hn
  by_cases heq : q = s₀.self.id
  · rw [heq, ← h.id, lcrElection_own_leader, Except.ok_bind, h.id]
    refine ⟨_, actOnElection_zero ?_ env, ⟨?_, ?_, ?_, fun _ => hnext, ?_⟩, [],
      (List.append_nil _).symm, ?_⟩
    · exact h.id_ne_zero hid
    all_goals
      cases n with
      | idle => exact absurd (Or.inl rfl) hn
      | candidate => exact absurd (Or.inr rfl) hn
      | leading | crowned | follower =>
          simp [receive, participantOf, leaderOf, Node.Active, announced, h.self, h.multicasts]
  · have hr : receive s₀.self.id n (.leader q) = (n, none) := by
      cases n with
      | idle => exact absurd (Or.inl rfl) hn
      | candidate => exact absurd (Or.inr rfl) hn
      | leading => exact if_neg heq
      | crowned => rfl
      | follower => rfl
    rw [lcrElection_alone_leader hnext (by rwa [h.id]), Except.ok_bind, hr]
    exact ⟨s, actOnElection_zero (h.id_ne_zero hid) env, Moves.refl h⟩

/-- **A server does with a vote what the node does.**  Outside the election it sends
nothing. -/
theorem handleSocketChange_vote_refines (h : Represents s₀ socket n s)
    (henv : n.Active → env.Reaches socket)
    (hsocket : IsValidSocket socket) (hid : IsId s₀.self.id) (hq : IsId q)
    (hown : q = s₀.self.id → n ≠ .follower ∧ s₀.self.id ≠ 1) (i : Socket) :
    ∃ t, handleSocketChange env s i (frame (.vote q)) = .ok t ∧
      Moves s₀ socket s (receive s₀.self.id n (.vote q)) t := by
  rw [handleSocketChange_vote hq.isInt]
  by_cases hn : n.Active
  · exact h.receive_vote (henv hn) hsocket hid hn fun heq => (hown heq).2
  · exact h.drop_vote hid hn fun hfollower heq => (hown heq).1 hfollower

/-- **A server does with an announcement what the node does.** -/
theorem handleSocketChange_leader_refines (h : Represents s₀ socket n s)
    (henv : n.Active → env.Reaches socket)
    (hsocket : IsValidSocket socket) (hid : IsId s₀.self.id) (hq : IsId q) (i : Socket) :
    ∃ t, handleSocketChange env s i (frame (.leader q)) = .ok t ∧
      Moves s₀ socket s (receive s₀.self.id n (.leader q)) t := by
  rw [handleSocketChange_leader hq.isInt]
  by_cases hn : n.Active
  · exact h.receive_leader (henv hn) hsocket hid hn
  · exact h.drop_leader hid hn

/-- **A leader timeout starts the node.** -/
theorem checkLeaderTimeout_refines (h : Represents s₀ socket n s) (henv : env.Reaches socket)
    (hn : n.Active) (timeout : ℤ)
    (hdue : ∀ leader ∈ s.next.head?, TimedOut env timeout leader) :
    ∃ t, checkLeaderTimeout env s timeout = .ok t ∧
      Moves s₀ socket s (if n = .idle then (.candidate, some (.vote s₀.self.id)) else (n, none))
        t := by
  obtain ⟨leader, successor, hnext, rfl⟩ := h.active hn
  have hsend : checkLeaderTimeout env s timeout = sendEleMsg env s := by
    have hleader := hdue leader (by simp [hnext])
    simp only [checkLeaderTimeout, hnext]
    exact if_pos hleader
  rw [hsend]
  rcases hn with rfl | rfl
  · have hfresh : s.participant ≠ 1 := by
      rw [h.participant]
      decide
    refine ⟨{ s with
      participant := 1
      out := s.out ++ [.send successor.tcpSocket (frame (.vote s₀.self.id))] }, ?_, ?_⟩
    · simp only [sendEleMsg, hnext, if_neg hfresh, send_of_reaches henv, h.id]
      rfl
    · rw [if_pos rfl]
      refine Moves.of_send ⟨h.self, rfl, fun _ => h.active (Or.inl rfl),
        fun hn => absurd (Or.inr rfl) hn, ?_⟩ rfl
      rw [multicasts_send]
      exact h.multicasts
  · refine ⟨s, ?_, Moves.refl h⟩
    have hp : s.participant = 1 := h.participant
    simp only [sendEleMsg, hnext, if_pos hp]

end Refines

end ChatRing
