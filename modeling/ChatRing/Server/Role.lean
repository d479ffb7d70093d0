import ChatRing.Server.ElectionFrame
import ChatRing.Server.StartUp

/-!
# Who becomes a leader

What each event of a server does to its role: its ID, its flag in `connected_peers` and
`participant`, and which frames of the election it sends.  A server becomes a leader in
three places.  Its discovery may find none, a leader timeout may find it without a
successor, and its own vote may come back; no other event changes the flag, whatever
bytes arrive.

## Main definitions

* `IsElection` — a block that the chain of formats takes for a frame of the election.
* `Sends s t frames` — the frames of the election sent on the way from `s` to `t`.
* `SameRole s t` — the role is unchanged, and no such frame was sent.
* `Server.LeaderOverdue`, `Server.LeftAlone` — a follower acts at its timer, or takes the lead.
* `Event.TakesLead` — the two events that make a leader.

## Main results

* `SameRole.of_handleSocketChange`, `SameRole.of_handleMcastReceive` — no block but a frame of
  the election changes the role, and no datagram does.
* `handleSocketChange_vote_role`, `handleSocketChange_leader_role`, `onTimer_role` — what
  the others do.
* `Server.handle_role`, `startUp_discovers` — what any event does, and what starting does.
-/

namespace ChatRing
open CText RingElection

/-- The block is taken for a frame of the election. -/
def IsElection (bytes : Text) : Prop := text "ELECTION:" <+: bytes

instance (bytes : Text) : Decidable (IsElection bytes) :=
  inferInstanceAs (Decidable (_ <+: _))

/-- The blocks sent on connections. -/
def blocks (out : List Output) : List Text :=
  out.filterMap fun
    | .send _ bytes => some bytes
    | _ => none

/-- The frames of the election among some blocks. -/
def elections (l : List Text) : List Text := l.filter fun b => IsElection b

/-- `t` comes after `s`, and these frames of the election were sent in between. -/
def Sends (s t : Server) (frames : List Text) : Prop :=
  ∃ sent, t.out = s.out ++ sent ∧ elections (blocks sent) = frames

/-- The role is that of `s`, and no frame of the election was sent. -/
structure SameRole (s t : Server) : Prop where
  id : t.self.id = s.self.id
  leader : t.self.leader = s.self.leader
  participant : t.participant = s.participant
  sends : Sends s t []

@[simp] theorem blocks_append (l₁ l₂ : List Output) :
    blocks (l₁ ++ l₂) = blocks l₁ ++ blocks l₂ := List.filterMap_append

@[simp] theorem elections_append (l₁ l₂ : List Text) :
    elections (l₁ ++ l₂) = elections l₁ ++ elections l₂ := List.filter_append ..

/-! ## Frames of the election -/

theorem not_isElection_cons {c : Char} (hc : c ≠ 'E') (s : Text) : ¬ IsElection (c :: s) := by
  intro h
  have hhead : text "ELECTION:" = 'E' :: text "LECTION:" := rfl
  rw [IsElection, hhead] at h
  exact hc (List.cons_prefix_cons.mp h).1.symm

/-- A message that begins with another character. -/
def Other (message : Text) : Prop := ∃ c s, message = c :: s ∧ c ≠ 'E'

theorem Other.not_isElection {message : Text} (h : Other message) : ¬ IsElection message := by
  obtain ⟨c, s, rfl, hc⟩ := h
  exact not_isElection_cons hc s

theorem Other.padX {message : Text} (h : Other message) : ¬ IsElection (padX message) := by
  obtain ⟨c, s, rfl, hc⟩ := h
  exact not_isElection_cons hc _

theorem Other.padZero {message : Text} (h : Other message) : ¬ IsElection (padZero message) := by
  obtain ⟨c, s, rfl, hc⟩ := h
  exact not_isElection_cons hc _

theorem other_sprintf (c : Char) {f : String} (hf : (format f).head? = some (.lit c))
    (hc : c ≠ 'E') (as : List Arg) : Other (sprintf f as) := by
  obtain ⟨s, hs⟩ := sprintf_of_head hf as
  exact ⟨c, s, hs, hc⟩

theorem other_joinReply (id : ℤ) (addr : Text) (port successorId : ℤ) :
    Other (joinReply id addr port successorId) := by
  obtain ⟨c, w, hw⟩ := List.exists_cons_of_ne_nil (intText_ne_nil id)
  have hc : c ≠ 'E' := by
    rintro rfl
    exact not_mem_intText id (by decide) (by decide) (hw ▸ List.mem_cons_self)
  have hformat : format "%d:%s:%d:%d\n\n" = .int :: format ":%s:%d:%d\n\n" := rfl
  rw [joinReply, sprintf, hformat, print_int, hw]
  exact ⟨c, _, rfl, hc⟩

theorem other_updateFromLeader (addr : Text) (id port : ℤ) :
    Other (updateFromLeader addr id port) :=
  other_sprintf 'U' rfl (by decide) _

theorem other_knowNewLeader (id : ℤ) (addr : Text) (port successorId : ℤ) (successorAddr : Text)
    (successorPort : ℤ) :
    Other (knowNewLeader id addr port successorId successorAddr successorPort) :=
  other_sprintf 'K' rfl (by decide) _

theorem other_heartbeat (id : ℤ) : Other (heartbeat id) :=
  other_sprintf 'H' rfl (by decide) _

theorem other_clientReply (clientId : ℤ) (addr : Text) (port : ℤ) :
    Other (clientReply clientId addr port) :=
  other_sprintf 'L' rfl (by decide) _

theorem other_indexReply (ip : Text) (port index : ℤ) : Other (indexReply ip port index) :=
  other_sprintf 'G' rfl (by decide) _

theorem other_forwarded (senderId : ℤ) (message : Text) : Other (forwarded senderId message) :=
  other_sprintf '[' rfl (by decide) _

theorem other_forwardedToGroup (senderId groupId : ℤ) (message : Text) :
    Other (forwardedToGroup senderId groupId message) :=
  other_sprintf '[' rfl (by decide) _

theorem isElection_frame (u : Token ℤ) : IsElection (frame u) := by
  cases u with
  | vote q =>
      rw [frame, electionVote_eq]
      exact ⟨_, rfl⟩
  | leader q =>
      rw [frame, electionLeader_eq]
      exact ⟨_, rfl⟩

@[simp] theorem elections_frame (u : Token ℤ) : elections [frame u] = [frame u] := by
  simp [elections, isElection_frame]

/-- Any other block goes past the `ELECTION` branch. -/
theorem parseFrame_ne_election {received read keyword : Text} {predId : ℤ} {fromLeader : Bool}
    (hread : frameBody (received.take bufferSize) = some read) (h : ¬ IsElection received) :
    parseFrame fromLeader read ≠ .election keyword predId := by
  have hprefix : read <+: received := by
    obtain ⟨⟨a, b⟩, hab, rfl⟩ := Option.map_eq_some_iff.mp hread
    obtain ⟨hsplit, -⟩ := strstr_eq_some hab
    have hcstr : a <+: cstr (received.take bufferSize) := ⟨b, hsplit.symm⟩
    exact (hcstr.trans (List.takeWhile_prefix _)).trans (List.take_prefix _ _)
  have hscan : sscanf read "ELECTION:%7[^:]:%d" = [] := by
    by_contra hne
    have hformat : format "ELECTION:%7[^:]:%d" =
        lits (text "ELECTION:") ++ [.set (some 7) ':', .lit ':', .int] := rfl
    rw [sscanf, hformat] at hne
    exact h ((prefix_of_scan_lits rfl hne).trans hprefix)
  intro heq
  simp only [parseFrame, hscan] at heq
  split at heq
  · cases heq
  · split at heq
    · cases heq
    · split at heq
      · cases heq
      · split at heq
        · cases heq
        · cases heq

/-! ## What is sent -/

namespace Sends
variable {s t u : Server} {f g : List Text}

theorem of_out (h : t.out = s.out) : Sends s t [] := ⟨[], by simpa using h, rfl⟩

theorem of_frame {socket : Socket} {token : Token ℤ}
    (h : t.out = s.out ++ [.send socket (frame token)]) : Sends s t [frame token] :=
  ⟨[.send socket (frame token)], h, elections_frame token⟩

/-- None of the blocks is a frame of the election. -/
theorem of_sent {sent : List Output} (hout : t.out = s.out ++ sent)
    (h : ∀ k bytes, Output.send k bytes ∈ sent → ¬ IsElection bytes) : Sends s t [] := by
  refine ⟨sent, hout, List.filter_eq_nil_iff.mpr fun bytes hbytes => ?_⟩
  obtain ⟨o, ho, hsome⟩ := List.mem_filterMap.mp hbytes
  cases o with
  | send k b =>
      cases hsome
      simpa using h k bytes ho
  | multicast b => cases hsome
  | connect address port socket => cases hsome

theorem trans (h₁ : Sends s t f) (h₂ : Sends t u g) : Sends s u (f ++ g) := by
  obtain ⟨sent₁, hout₁, rfl⟩ := h₁
  obtain ⟨sent₂, hout₂, rfl⟩ := h₂
  exact ⟨sent₁ ++ sent₂, by rw [hout₂, hout₁, List.append_assoc], by simp⟩

/-- What left the process since `s`. -/
theorem drop (h : Sends s t f) : elections (blocks (t.out.drop s.out.length)) = f := by
  obtain ⟨sent, hout, rfl⟩ := h
  rw [hout, List.drop_left]

end Sends

namespace SameRole
variable {env : Env} {s t u : Server}

theorem of_fields (hself : t.self = s.self) (hparticipant : t.participant = s.participant)
    (hout : t.out = s.out) : SameRole s t :=
  ⟨by rw [hself], by rw [hself], hparticipant, .of_out hout⟩

theorem refl (s : Server) : SameRole s s := of_fields rfl rfl rfl

theorem trans (h₁ : SameRole s t) (h₂ : SameRole t u) : SameRole s u :=
  ⟨h₂.id.trans h₁.id, h₂.leader.trans h₁.leader, h₂.participant.trans h₁.participant,
    h₁.sends.trans h₂.sends⟩

/-! ### System calls -/

theorem of_doMulticast (env : Env) (s : Server) (bytes : Text) :
    SameRole s (s.doMulticast env bytes) := by
  rw [Server.doMulticast]
  split
  · exact ⟨rfl, rfl, rfl, [.multicast bytes], rfl, rfl⟩
  · exact refl s

theorem of_setupTcpClient {address port : Text} {fd : Socket}
    (h : s.setupTcpClient env address port = (fd, t)) : SameRole s t := by
  rw [Server.setupTcpClient] at h
  split at h
  · cases h
    exact ⟨rfl, rfl, rfl, [.connect address port env.connect], rfl, rfl⟩
  · cases h
    exact refl s

theorem of_deleteServer {id : ℤ} (h : s.deleteServer id = .ok t) : SameRole s t := by
  obtain ⟨next, -, rfl⟩ := Server.deleteServer_eq_ok h
  exact of_fields rfl rfl rfl

/-! ### The multicast socket -/

/-- Admitting a server, when its messages are not frames of the election. -/
theorem of_admitPeer {id port : ℤ} {fd : Socket} {addr toPredecessor : Text}
    {reply : Option ServerInfo → Text} (hreply : ∀ o, ¬ IsElection (padX (reply o)))
    (hpredecessor : ¬ IsElection (padX toPredecessor))
    (h : admitPeer env s id port addr reply toPredecessor = .ok (fd, t)) : SameRole s t := by
  rcases admitPeer_eq_ok h with ⟨-, -, rfl⟩ | ⟨-, -, sent, hsent, rfl⟩
  · exact refl t
  · refine ⟨rfl, rfl, rfl, .of_sent rfl fun k bytes hmem => ?_⟩
    rcases hsent k bytes hmem with ⟨o, rfl⟩ | rfl
    · exact hreply o
    · exact hpredecessor

theorem of_newClient {port : ℤ} {fd : Socket} {addr : Text}
    (h : newClient env s port addr = .ok (fd, t)) : SameRole s t := by
  rcases newClient_eq_ok h with ⟨-, rfl | ⟨-, opened, sent, -, hsent, rfl⟩⟩
  · exact refl t
  · refine ⟨rfl, rfl, rfl, .of_sent rfl fun k bytes hmem => ?_⟩
    obtain ⟨clientId, rfl⟩ := hsent k bytes hmem
    exact (other_clientReply _ _ _).padX

theorem of_handleMcastReceive {received : Option Text} {fd : Socket} {addr : Text}
    (h : handleMcastReceive env s received addr = .ok (fd, t)) : SameRole s t := by
  rcases handleMcastReceive_eq_ok h with ⟨-, rfl⟩ | ⟨-, hadmits⟩ | ⟨-, -, leader, rest, -, rfl⟩
  · exact refl t
  · rcases hadmits with ⟨id, port, h⟩ | ⟨id, port, h⟩ | ⟨port, h⟩
    · refine of_admitPeer ?_ (other_updateFromLeader _ _ _).padX h
      intro o
      cases o with
      | none => exact (other_joinReply _ _ _ _).padX
      | some successor => exact (other_joinReply _ _ _ _).padX
    · refine of_admitPeer ?_ (other_knowNewLeader _ _ _ _ _ _).padX h
      intro o
      cases o with
      | none => exact (other_knowNewLeader _ _ _ _ _ _).padX
      | some successor => exact (other_knowNewLeader _ _ _ _ _ _).padX
    · exact of_newClient h
  · exact of_fields rfl rfl rfl

/-! ### Connections -/

theorem of_disconnect {i : Socket} (h : disconnect s i = .ok t) : SameRole s t := by
  obtain ⟨u, ltcpSocket, hu, rfl⟩ := disconnect_eq_ok h
  refine SameRole.trans ?_ (of_fields (s := u) rfl rfl rfl)
  rcases handleDisconnection_eq_ok hu with ⟨-, rfl⟩ | ⟨-, -, successor, next, -, -, rfl⟩ |
    ⟨-, -, -, -, rfl⟩
  · exact refl u
  · exact of_fields rfl rfl rfl
  · exact of_fields rfl rfl rfl

theorem of_newSuccessor {ip : Text} {id port : ℤ} (h : newSuccessor env s ip id port = .ok t) :
    SameRole s t := by
  obtain ⟨-, portStr, next, master, opened, -, rfl⟩ := newSuccessor_eq_ok h
  refine ⟨rfl, rfl, rfl, .of_sent rfl ?_⟩
  simp

theorem of_handleKnowNewLeader {i : Socket} {nlID nlPORT sID sPORT : ℤ} {nlIP sIP : Text}
    (h : handleKnowNewLeader env s i nlID nlIP nlPORT sID sIP sPORT = .ok t) : SameRole s t := by
  obtain ⟨next, -, ⟨-, rfl⟩ | ⟨-, u, hu, rfl⟩⟩ := handleKnowNewLeader_eq_ok h
  · exact of_fields rfl rfl rfl
  · have hlist : SameRole s { s with next := next } := of_fields rfl rfl rfl
    exact hlist.trans ((of_newSuccessor hu).trans (of_fields rfl rfl rfl))

theorem of_handleClientMessage {senderId destId r : ℤ} {message : Text} {i : Socket}
    (h : handleClientMessage env s senderId destId message i = .ok (r, t)) : SameRole s t := by
  by_cases hmessage : message = text "GET_INDEX"
  · rw [hmessage, handleClientMessage_getIndex] at h
    split at h
    · cases h
      have hindexed : SameRole s (s.indexed senderId i) := of_fields rfl rfl rfl
      refine hindexed.trans ⟨rfl, rfl, rfl, .of_sent rfl fun k bytes hmem => ?_⟩
      cases List.mem_singleton.mp hmem
      exact (other_indexReply _ _ _).padX
    · cases h
      exact of_fields rfl rfl rfl
  · obtain ⟨sent, hsent, rfl⟩ := handleClientMessage_forward hmessage h
    refine ⟨rfl, rfl, rfl, .of_sent rfl fun k bytes hmem => ?_⟩
    rcases hsent k bytes hmem with rfl | rfl
    · exact (other_forwarded _ _).not_isElection
    · exact (other_forwardedToGroup _ _ _).not_isElection

theorem of_assignClientInfo (s : Server) (socket : Socket) (clientIp : Option Text) :
    SameRole s (assignClientInfo s socket clientIp) := by
  obtain ⟨opened, clientArray, hset⟩ := assignClientInfo_eq s socket clientIp
  rw [hset]
  exact of_fields rfl rfl rfl

theorem of_acceptNewClient (s : Server) (socket : Socket) (clientIp : Option Text) :
    SameRole s (acceptNewClient s socket clientIp) := by
  obtain ⟨master, opened, clientArray, hset⟩ := acceptNewClient_eq s socket clientIp
  rw [hset]
  exact of_fields rfl rfl rfl

/-- A block that is not a frame of the election. -/
theorem of_handleSocketChange {i : Socket} {received : Text} (hr : ¬ IsElection received)
    (h : handleSocketChange env s i received = .ok t) : SameRole s t := by
  cases Server.handled (e := .readable env i received) h with
  | disconnect ht => exact of_disconnect ht
  | unfinished => exact refl s
  | updateFromLeader _ _ _ ht => exact of_newSuccessor ht
  | client _ _ _ ht => exact of_handleClientMessage ht
  | election _ hread hframe _ => exact absurd hframe (parseFrame_ne_election hread hr)
  | knowNewLeader _ _ _ ht => exact of_handleKnowNewLeader ht
  | @heartbeat _ _ _ _ id =>
      obtain ⟨lastHeartbeat, next, hset⟩ := updateHeartbeat_eq env s id
      rw [hset]
      exact ⟨rfl, rfl, rfl, .of_out rfl⟩
  | unknown => exact refl s

/-! ### The leader's heartbeat -/

theorem of_sweep {timeout : ℤ} {l : List ServerInfo} (h : sweep env timeout l s = .ok t) :
    SameRole s t := by
  obtain ⟨next, sent, hsent, rfl⟩ := sweep_changes h
  refine ⟨rfl, rfl, rfl, .of_sent rfl fun k bytes hmem => ?_⟩
  obtain ⟨successor, rfl⟩ := hsent k bytes hmem
  exact (other_updateFromLeader _ _ _).padX

/-! ### After an election -/

theorem of_dropNext (h : dropNext s = .ok t) : SameRole s t := by
  obtain ⟨first, rest, -, -, rfl⟩ := dropNext_eq_ok h
  exact of_fields rfl rfl rfl

theorem of_dropSuccessor (s : Server) : SameRole s (dropSuccessor s) := by
  obtain ⟨hself, hparticipant, -, hout⟩ := dropSuccessor_fields s
  exact of_fields hself hparticipant hout

theorem of_actOnElection {retValue : ℤ} (h : actOnElection env retValue s = .ok t) :
    SameRole s t := by
  rcases actOnElection_eq_ok h with rfl | ⟨-, first, second, rest, -, rfl⟩ | ⟨-, h⟩
  · exact refl t
  · refine SameRole.trans ?_ ((of_dropSuccessor _).trans (of_doMulticast env _ _))
    exact of_fields rfl rfl rfl
  · exact (of_dropSuccessor s).trans (of_dropNext h)

end SameRole

/-! ## The timer -/

/-- The record after the head is overdue; at a follower it is that of the leader. -/
def Server.LeaderOverdue (env : Env) (s : Server) : Prop :=
  ∃ leader ∈ s.next.head?, TimedOut env (2 * heartbeatTimeout) leader

/-- The leader timeout finds the server without a successor. -/
def Server.LeftAlone (env : Env) (s : Server) : Prop := s.LeaderOverdue env ∧ s.next.tail = []

/-- The leader timeout finds a successor, and a send to it may succeed. -/
def Server.MayVote (env : Env) (s : Server) : Prop :=
  s.LeaderOverdue env ∧
    ∃ successor ∈ s.next[1]?, ∃ out bytes, env.sends out successor.tcpSocket bytes = true

instance (env : Env) (s : Server) : Decidable (s.LeaderOverdue env) :=
  inferInstanceAs (Decidable (∃ _ ∈ s.next.head?, _))

instance (env : Env) (s : Server) : Decidable (s.LeftAlone env) :=
  inferInstanceAs (Decidable (_ ∧ _))

section Timer
variable {env : Env} {s t : Server} {leader : ServerInfo} {rest l : List ServerInfo}
  {sendBuf : Text}

theorem leaderOverdue_cons (hnext : s.next = leader :: rest) :
    s.LeaderOverdue env ↔ TimedOut env (2 * heartbeatTimeout) leader := by
  simp [Server.LeaderOverdue, hnext]

theorem sendIgnored_cases (env : Env) (s : Server) (socket : Socket) (bytes : Text) :
    ∃ sent, (sent = [] ∨ sent = [.send socket bytes]) ∧
      sendIgnored env s socket bytes = { s with out := s.out ++ sent } := by
  rw [sendIgnored]
  cases h : s.send env socket bytes with
  | none => exact ⟨[], Or.inl rfl, by simp⟩
  | some t => exact ⟨[.send socket bytes], Or.inr rfl, Server.send_eq_some h⟩

theorem checkLeaderTimeout_due (hnext : s.next = leader :: rest)
    (hdue : TimedOut env (2 * heartbeatTimeout) leader) :
    checkLeaderTimeout env s (2 * heartbeatTimeout) = sendEleMsg env s := by
  simp only [checkLeaderTimeout, hnext]
  exact if_pos hdue

theorem checkLeaderTimeout_not_due (hnext : s.next = leader :: rest)
    (hdue : ¬ TimedOut env (2 * heartbeatTimeout) leader) :
    checkLeaderTimeout env s (2 * heartbeatTimeout) = .ok s := by
  simp only [checkLeaderTimeout, hnext]
  exact if_neg hdue

theorem sendEleMsg_eq {successor : ServerInfo} (hnext : s.next = leader :: successor :: rest) :
    sendEleMsg env s =
      if s.participant = 1 then .ok s
      else
        match s.send env successor.tcpSocket (padZero (electionVote s.self.id)) with
        | none => .ok s
        | some s => .ok { s with participant := 1 } := by
  cases hsend : s.send env successor.tcpSocket (padZero (electionVote s.self.id)) with
  | none => simp [sendEleMsg, hnext, hsend]
  | some t => simp [sendEleMsg, hnext, hsend]

/-- `check_leader_timeout` sends at most one vote. -/
theorem checkLeaderTimeout_eq (hnext : s.next ≠ []) (halone : ¬ s.LeftAlone env) :
    ∃ participant sent, checkLeaderTimeout env s (2 * heartbeatTimeout) =
        .ok { s with participant := participant, out := s.out ++ sent } ∧
      (∀ o ∈ sent, s.LeaderOverdue env ∧ ∃ k, o = .send k (frame (.vote s.self.id))) ∧
      (participant = s.participant ∨ participant = 1 ∧ s.MayVote env) := by
  obtain ⟨leader, rest, hlist⟩ := List.exists_cons_of_ne_nil hnext
  by_cases hdue : TimedOut env (2 * heartbeatTimeout) leader
  · have hoverdue : s.LeaderOverdue env := (leaderOverdue_cons hlist).mpr hdue
    rw [checkLeaderTimeout_due hlist hdue]
    cases rest with
    | nil => exact absurd ⟨hoverdue, by simp [hlist]⟩ halone
    | cons successor rest =>
        rw [sendEleMsg_eq hlist]
        by_cases hparticipant : s.participant = 1
        · rw [if_pos hparticipant]
          exact ⟨s.participant, [], by simp, by simp, Or.inl rfl⟩
        · rw [if_neg hparticipant]
          cases hsend : s.send env successor.tcpSocket (padZero (electionVote s.self.id)) with
          | none => exact ⟨s.participant, [], by simp, by simp, Or.inl rfl⟩
          | some u =>
              have hsends : env.sends s.out successor.tcpSocket
                  (padZero (electionVote s.self.id)) = true := by
                by_contra hfails
                simp [Server.send, hfails] at hsend
              refine ⟨1, [.send successor.tcpSocket (frame (.vote s.self.id))], ?_, ?_,
                Or.inr ⟨rfl, hoverdue, successor, by simp [hlist], _, _, hsends⟩⟩
              · rw [Server.send_eq_some hsend]
                rfl
              · intro o ho
                exact ⟨hoverdue, _, List.mem_singleton.mp ho⟩
  · rw [checkLeaderTimeout_not_due hlist hdue]
    exact ⟨s.participant, [], by simp, by simp, Or.inl rfl⟩

/-- After an overdue leader the buffer holds the vote. -/
theorem leaderTimeoutBuf_eq (env : Env) (s : Server) (sendBuf : Text) :
    leaderTimeoutBuf env s (2 * heartbeatTimeout) sendBuf = sendBuf ∨
      s.LeaderOverdue env ∧
        leaderTimeoutBuf env s (2 * heartbeatTimeout) sendBuf = frame (.vote s.self.id) := by
  rcases hlist : s.next with _ | ⟨leader, rest⟩
  · simp [leaderTimeoutBuf, hlist]
  · by_cases hdue : TimedOut env (2 * heartbeatTimeout) leader
    · have hbuf : leaderTimeoutBuf env s (2 * heartbeatTimeout) sendBuf =
          sendEleMsgBuf s sendBuf := by
        simp only [leaderTimeoutBuf, hlist]
        exact if_pos hdue
      rw [hbuf, sendEleMsgBuf, hlist]
      cases rest with
      | nil => exact Or.inl rfl
      | cons successor rest => exact Or.inr ⟨(leaderOverdue_cons hlist).mpr hdue, rfl⟩
    · left
      simp only [leaderTimeoutBuf, hlist]
      exact if_neg hdue

/-- What a follower sends to its leader and its successor: what is in the buffer, and votes when
the leader is overdue. -/
theorem sendHeartbeats_eq (hnext : l ≠ [] → s.next ≠ []) (halone : ¬ s.LeftAlone env) :
    ∃ participant sent, sendHeartbeats env sendBuf l s =
        .ok { s with participant := participant, out := s.out ++ sent } ∧
      (∀ o ∈ sent, ∃ k, o = .send k sendBuf ∨
        s.LeaderOverdue env ∧ o = .send k (frame (.vote s.self.id))) ∧
      (participant = s.participant ∨ participant = 1 ∧ s.MayVote env) := by
  induction l generalizing s sendBuf with
  | nil => exact ⟨s.participant, [], by simp [sendHeartbeats], by simp, Or.inl rfl⟩
  | cons current l ih =>
      obtain ⟨first, hfirst, hbeat⟩ := sendIgnored_cases env s current.tcpSocket sendBuf
      obtain ⟨participant, votes, hcheck, hvotes, hpart⟩ := checkLeaderTimeout_eq
        (s := { s with out := s.out ++ first }) (hnext (by simp)) halone
      obtain ⟨participant', sent, hrest, hsent, hpart'⟩ := @ih
        { s with participant := participant, out := s.out ++ first ++ votes }
        (leaderTimeoutBuf env { s with out := s.out ++ first } (2 * heartbeatTimeout) sendBuf)
        (fun _ => hnext (by simp)) halone
      refine ⟨participant', first ++ votes ++ sent, ?_, ?_, ?_⟩
      · rw [sendHeartbeats, hbeat]
        simp only [hcheck, Except.ok_bind]
        rw [hrest]
        simp only [List.append_assoc]
      · intro o ho
        rw [List.mem_append, List.mem_append] at ho
        rcases ho with (ho | ho) | ho
        · rcases hfirst with rfl | rfl
          · cases ho
          · exact ⟨_, Or.inl (List.mem_singleton.mp ho)⟩
        · obtain ⟨hoverdue, k, hk⟩ := hvotes o ho
          exact ⟨k, Or.inr ⟨hoverdue, hk⟩⟩
        · obtain ⟨k, hk | hk⟩ := hsent o ho
          · rcases leaderTimeoutBuf_eq env { s with out := s.out ++ first } sendBuf with
              hbuf | ⟨hoverdue, hbuf⟩
            · exact ⟨k, Or.inl (hbuf ▸ hk)⟩
            · exact ⟨k, Or.inr ⟨hoverdue, hbuf ▸ hk⟩⟩
          · exact ⟨k, Or.inr hk⟩
      · rcases hpart' with hpart' | hvotes
        · rw [hpart']
          exact hpart
        · exact Or.inr hvotes

/-- **The timer of a follower** that is not left alone: heartbeats, and votes when its leader is
overdue. -/
theorem onTimer_eq (hleader : s.self.leader ≠ 1) (halone : ¬ s.LeftAlone env) :
    ∃ participant sent, onTimer env s =
        .ok { s with participant := participant, out := s.out ++ sent } ∧
      (∀ o ∈ sent, ∃ k, o = .send k (padZero (heartbeat s.self.id)) ∨
        s.LeaderOverdue env ∧ o = .send k (frame (.vote s.self.id))) ∧
      (participant = s.participant ∨ participant = 1 ∧ s.MayVote env) := by
  rw [onTimer, if_neg hleader]
  exact sendHeartbeats_eq id halone

/-- A follower that knows nobody but its leader takes its place. -/
theorem onTimer_alone (hleader : s.self.leader ≠ 1) (halone : s.LeftAlone env) :
    ∃ sent, onTimer env s = .ok { s with
        self := { s.self with leader := 1 }, next := [], out := s.out ++ sent } ∧
      ∀ o ∈ sent, ∃ k, o = .send k (padZero (heartbeat s.self.id)) := by
  obtain ⟨⟨leader, hhead, hdue⟩, htail⟩ := halone
  have hnext : s.next = [leader] := by
    obtain ⟨rest, hrest⟩ := List.head?_eq_some_iff.mp hhead
    rw [hrest, List.tail_cons] at htail
    rw [hrest, htail]
  obtain ⟨sent, hsent, hbeat⟩ := sendIgnored_cases env s leader.tcpSocket
    (padZero (heartbeat s.self.id))
  have helect : checkLeaderTimeout env { s with out := s.out ++ sent } (2 * heartbeatTimeout) =
      .ok { s with
        self := { s.self with leader := 1 }, next := [], out := s.out ++ sent } := by
    rw [checkLeaderTimeout_due (s := { s with out := s.out ++ sent }) hnext hdue]
    simp only [sendEleMsg, hnext, Server.deleteServer, deleteServer, if_true]
    rfl
  refine ⟨sent, ?_, ?_⟩
  · rw [onTimer, if_neg hleader]
    simp only [hnext, sendHeartbeats, hbeat]
    rw [← hnext, helect]
    rfl
  · intro o ho
    rcases hsent with rfl | rfl
    · cases ho
    · exact ⟨_, List.mem_singleton.mp ho⟩

/-- **What the timer does to the role.**  A follower that is left alone becomes a leader, one that
is not may send votes. -/
theorem onTimer_role (h : onTimer env s = .ok t) :
    t.self.id = s.self.id ∧
      (t.self.leader = 1 ↔ s.self.leader = 1 ∨ s.self.leader ≠ 1 ∧ s.LeftAlone env) ∧
        ∃ votes, Sends s t votes ∧ (∀ b ∈ votes, b = frame (.vote s.self.id)) ∧
          (votes ≠ [] → s.self.leader ≠ 1 ∧ s.LeaderOverdue env ∧ ¬ s.LeftAlone env) := by
  by_cases hleader : s.self.leader = 1
  · have hrole : SameRole s t := by
      rw [onTimer, if_pos hleader] at h
      split at h
      · cases h
        exact SameRole.refl s
      · exact (SameRole.of_doMulticast env s _).trans (SameRole.of_sweep h)
    exact ⟨hrole.id, by simp [hrole.leader, hleader], [], hrole.sends, by simp, by simp⟩
  · by_cases halone : s.LeftAlone env
    · obtain ⟨sent, ht, hsent⟩ := onTimer_alone hleader halone
      obtain rfl := Except.ok.inj (ht.symm.trans h)
      refine ⟨rfl, by simp [hleader, halone], [], .of_sent rfl ?_, by simp, by simp⟩
      intro k bytes hmem
      obtain ⟨k', hk⟩ := hsent _ hmem
      cases hk
      exact (other_heartbeat _).padZero
    · obtain ⟨participant, sent, ht, hsent, -⟩ := onTimer_eq hleader halone
      obtain rfl := Except.ok.inj (ht.symm.trans h)
      have hvotes : ∀ b ∈ elections (blocks sent), b = frame (.vote s.self.id) ∧
          s.LeaderOverdue env := by
        intro b hb
        obtain ⟨hmem, helection⟩ := List.mem_filter.mp hb
        obtain ⟨o, ho, hblock⟩ := List.mem_filterMap.mp hmem
        obtain ⟨k, rfl | ⟨hdue, rfl⟩⟩ := hsent o ho
        · cases hblock
          exact absurd (by simpa using helection) (other_heartbeat s.self.id).padZero
        · cases hblock
          exact ⟨rfl, hdue⟩
      refine ⟨rfl, by simp [hleader, halone], _, ⟨sent, rfl, rfl⟩, fun b hb => (hvotes b hb).1, ?_⟩
      intro hne
      obtain ⟨b, hb⟩ := List.exists_mem_of_ne_nil _ hne
      exact ⟨hleader, (hvotes b hb).2, halone⟩

end Timer

/-! ## Frames of the election -/

section Receipt
variable {env : Env} {s t : Server} {i : Socket} {q : ℤ}

/-- A token sent to the successor, if the send succeeds. -/
theorem sendToSuccessor_role (token : Token ℤ) {message : Text} {o : Option Server}
    (hframe : padZero message = frame token) (h : sendToSuccessor env s message = .ok o) :
    ∀ t ∈ o, t.self = s.self ∧ t.next = s.next ∧ Sends s t [frame token] := by
  obtain ⟨successor, -, rfl⟩ := sendToSuccessor_eq_ok h
  intro t ht
  rw [Server.send_eq_some ht, hframe]
  exact ⟨rfl, rfl, .of_frame rfl⟩

theorem return_sendToSuccessor_role (token : Token ℤ) {message : Text} {r fail sent : ℤ}
    (hframe : padZero message = frame token)
    (h : (do
      match ← sendToSuccessor env s message with
      | none => return (fail, s)
      | some u => return (sent, u)) = (.ok (r, t) : Except Fault (ℤ × Server))) :
    t.self = s.self ∧ (Sends s t [] ∨ Sends s t [frame token]) := by
  obtain ⟨o, ho, h⟩ := Except.bind_eq_ok.mp h
  cases o with
  | none =>
      cases h
      exact ⟨rfl, Or.inl (.of_out rfl)⟩
  | some u =>
      cases h
      obtain ⟨hself, -, hsends⟩ := sendToSuccessor_role token hframe ho t rfl
      exact ⟨hself, Or.inr hsends⟩

/-- What the role of a server is after a vote: unchanged, with at most one vote sent, that for a
larger ID or its own; or that of a new leader, which has announced itself at most once. -/
theorem lcrElection_vote_role {r : ℤ} (h : lcrElection env s (text "VOTE") q = .ok (r, t)) :
    t.self.id = s.self.id ∧
      (((q = s.self.id → s.self.leader = 1) ∧ t.self.leader = s.self.leader ∧ (Sends s t [] ∨
          ∃ o, (o = q ∧ s.self.id < q ∨ o = s.self.id) ∧ Sends s t [frame (.vote o)])) ∨
        (q = s.self.id ∧ t.self.leader = 1 ∧
          (Sends s t [] ∨ Sends s t [frame (.leader s.self.id)]))) := by
  rw [lcrElection, if_pos rfl] at h
  split at h
  · rename_i hgt
    have hne : q = s.self.id → s.self.leader = 1 := fun heq => absurd heq hgt.ne'
    split at h
    · cases h
      exact ⟨rfl, Or.inl ⟨hne, rfl, Or.inl (.of_out rfl)⟩⟩
    · obtain ⟨hself, hsends⟩ := return_sendToSuccessor_role (.vote q) rfl h
      rw [hself]
      exact ⟨rfl, Or.inl ⟨hne, rfl, hsends.imp_right fun h => ⟨q, Or.inl ⟨rfl, hgt⟩, h⟩⟩⟩
  · rename_i hgt
    split at h
    · rename_i hlt
      have hne : q = s.self.id → s.self.leader = 1 := fun heq => absurd heq hlt.ne
      split at h
      · cases h
        exact ⟨rfl, Or.inl ⟨hne, rfl, Or.inl (.of_out rfl)⟩⟩
      · split at h
        · cases h
          exact ⟨rfl, Or.inl ⟨hne, rfl, Or.inl (.of_out rfl)⟩⟩
        · obtain ⟨hself, hsends⟩ := return_sendToSuccessor_role (.vote s.self.id) rfl h
          rw [hself]
          exact ⟨rfl, Or.inl ⟨hne, rfl, hsends.imp_right fun h => ⟨s.self.id, Or.inr rfl, h⟩⟩⟩
    · rename_i hlt
      have hown : q = s.self.id := by omega
      split at h
      · rename_i hleader
        cases h
        exact ⟨rfl, Or.inl ⟨fun _ => hleader, rfl, Or.inl (.of_out rfl)⟩⟩
      · obtain ⟨o, ho, h⟩ := Except.bind_eq_ok.mp h
        cases o with
        | none =>
            cases h
            exact ⟨rfl, Or.inr ⟨hown, rfl, Or.inl (.of_out rfl)⟩⟩
        | some u =>
            obtain ⟨hself, -, hsends⟩ := sendToSuccessor_role (.leader s.self.id) rfl ho u rfl
            simp only at h
            split at h
            · cases h
            · obtain ⟨v, hv, h⟩ := Except.bind_eq_ok.mp h
              cases h
              have hrole := SameRole.of_deleteServer hv
              rw [hrole.id, hrole.leader, hself]
              exact ⟨rfl, Or.inr ⟨hown, rfl, Or.inr (hsends.trans hrole.sends)⟩⟩

theorem lcrElection_leader_role {r : ℤ} (h : lcrElection env s (text "LEADER") q = .ok (r, t)) :
    t.self = s.self ∧ (Sends s t [] ∨ Sends s t [frame (.leader q)]) := by
  have hkey : text "LEADER" ≠ text "VOTE" := by decide
  rw [lcrElection, if_neg hkey, if_pos rfl] at h
  simp only at h
  split at h
  · cases h
    exact ⟨rfl, Or.inl (.of_out rfl)⟩
  · split at h
    · cases h
      exact ⟨rfl, Or.inl (.of_out rfl)⟩
    · obtain ⟨hself, hsends⟩ := return_sendToSuccessor_role (.leader q) rfl h
      exact ⟨hself, hsends⟩

/-- **What a vote does to the role.** -/
theorem handleSocketChange_vote_role (hq : IsId q)
    (h : handleSocketChange env s i (frame (.vote q)) = .ok t) :
    t.self.id = s.self.id ∧
      (((q = s.self.id → s.self.leader = 1) ∧ t.self.leader = s.self.leader ∧ (Sends s t [] ∨
          ∃ o, (o = q ∧ s.self.id < q ∨ o = s.self.id) ∧ Sends s t [frame (.vote o)])) ∨
        (q = s.self.id ∧ t.self.leader = 1 ∧
          (Sends s t [] ∨ Sends s t [frame (.leader s.self.id)]))) := by
  rw [handleSocketChange_vote hq.isInt] at h
  obtain ⟨⟨r, u⟩, hu, h⟩ := Except.bind_eq_ok.mp h
  have hrole := SameRole.of_actOnElection h
  have hafter : ∀ {f : List Text}, Sends s u f → Sends s t f := by
    intro f hf
    simpa using hf.trans hrole.sends
  obtain ⟨hid, hcases⟩ := lcrElection_vote_role hu
  rw [hrole.id, hrole.leader]
  refine ⟨hid, hcases.imp ?_ ?_⟩
  · rintro ⟨hown, hlead, hsends⟩
    exact ⟨hown, hlead, hsends.imp hafter fun ⟨o, ho, h⟩ => ⟨o, ho, hafter h⟩⟩
  · rintro ⟨hown, hlead, hsends⟩
    exact ⟨hown, hlead, hsends.imp hafter hafter⟩

/-- **What an announcement does to the role.** -/
theorem handleSocketChange_leader_role (hq : IsId q)
    (h : handleSocketChange env s i (frame (.leader q)) = .ok t) :
    t.self.id = s.self.id ∧ t.self.leader = s.self.leader ∧
      (Sends s t [] ∨ Sends s t [frame (.leader q)]) := by
  rw [handleSocketChange_leader hq.isInt] at h
  obtain ⟨⟨r, u⟩, hu, h⟩ := Except.bind_eq_ok.mp h
  have hrole := SameRole.of_actOnElection h
  obtain ⟨hself, hsends⟩ := lcrElection_leader_role hu
  rw [hrole.id, hrole.leader, hself]
  refine ⟨rfl, rfl, hsends.imp ?_ ?_⟩
  · exact fun h => h.trans hrole.sends
  · exact fun h => h.trans hrole.sends

end Receipt

/-! ## Every event -/

/-- The keyword and the ID that reach `lcr_election`. -/
def electionOf (read keyword : Text) (predId : ℤ) : Text × ℤ :=
  if leaderFound read ≠ 0 then (text "LEADER", leaderFound read) else (keyword, predId)

theorem handleElection_eq (env : Env) (s : Server) (read keyword : Text) (predId : ℤ) :
    handleElection env s read keyword predId =
      (lcrElection env s (electionOf read keyword predId).1 (electionOf read keyword predId).2 >>=
        fun result => actOnElection env result.1 result.2) := rfl

/-- What `recv` returned is the server's own vote. -/
def Server.ReadsOwnVote (s : Server) (i : Socket) (received : Text) : Prop :=
  received ≠ [] ∧ ∃ read ∈ frameBody (received.take bufferSize),
    match parseFrame (i = s.ltcpSocket) read with
    | .election keyword predId => electionOf read keyword predId = (text "VOTE", s.self.id)
    | _ => False

/-- A server that is not the leader of its list becomes one: the leader timeout leaves it alone,
or its own vote has come back. -/
def Event.TakesLead (s : Server) : Event → Prop
  | .timer env => s.self.leader ≠ 1 ∧ s.LeftAlone env
  | .readable _ i received => s.self.leader ≠ 1 ∧ s.ReadsOwnVote i received
  | _ => False

instance (s : Server) (i : Socket) (received : Text) : Decidable (s.ReadsOwnVote i received) := by
  unfold Server.ReadsOwnVote
  have hparse : ∀ read, Decidable (match parseFrame (i = s.ltcpSocket) read with
      | .election keyword predId => electionOf read keyword predId = (text "VOTE", s.self.id)
      | _ => False) := by
    intro read
    split <;> infer_instance
  infer_instance

instance (s : Server) : (e : Event) → Decidable (e.TakesLead s)
  | .timer env => inferInstanceAs (Decidable (_ ∧ s.LeftAlone env))
  | .readable _ i received => inferInstanceAs (Decidable (_ ∧ s.ReadsOwnVote i received))
  | .accept .. | .datagram .. => isFalse id

section Events
variable {env : Env} {s t : Server} {e : Event}

theorem lcrElection_role {keyword : Text} {q r : ℤ} (h : lcrElection env s keyword q = .ok (r, t)) :
    t.self.id = s.self.id ∧
      (t.self.leader = 1 ↔ s.self.leader = 1 ∨ (keyword, q) = (text "VOTE", s.self.id)) ∧
        ∃ frames, Sends s t frames := by
  by_cases hvote : keyword = text "VOTE"
  · subst hvote
    obtain ⟨hid, ⟨hown, hlead, hsends⟩ | ⟨hown, hlead, hsends⟩⟩ := lcrElection_vote_role h
    · refine ⟨hid, ?_, ?_⟩
      · rw [hlead]
        simpa using hown
      · rcases hsends with hsends | ⟨o, -, hsends⟩
        · exact ⟨_, hsends⟩
        · exact ⟨_, hsends⟩
    · refine ⟨hid, by simp [hlead, hown], ?_⟩
      rcases hsends with hsends | hsends
      · exact ⟨_, hsends⟩
      · exact ⟨_, hsends⟩
  · have hne : (keyword, q) ≠ (text "VOTE", s.self.id) := fun heq => hvote (Prod.mk.inj heq).1
    by_cases hleader : keyword = text "LEADER"
    · subst hleader
      obtain ⟨hself, hsends⟩ := lcrElection_leader_role h
      refine ⟨by rw [hself], by simp [hself, hne], ?_⟩
      rcases hsends with hsends | hsends
      · exact ⟨_, hsends⟩
      · exact ⟨_, hsends⟩
    · rw [lcrElection, if_neg hvote, if_neg hleader] at h
      cases h
      exact ⟨rfl, by simp [hne], _, .of_out rfl⟩

/-- **Who becomes a leader.**  A server keeps its ID, and a leader stays one. -/
theorem Server.handle_role (h : s.handle e = .ok t) :
    t.self.id = s.self.id ∧ (t.self.leader = 1 ↔ s.self.leader = 1 ∨ e.TakesLead s) ∧
      ∃ frames, Sends s t frames := by
  have of_role {t : Server} (hrole : SameRole s t) (hnone : ¬ e.TakesLead s) :
      t.self.id = s.self.id ∧ (t.self.leader = 1 ↔ s.self.leader = 1 ∨ e.TakesLead s) ∧
        ∃ frames, Sends s t frames :=
    ⟨hrole.id, by simp [hrole.leader, hnone], _, hrole.sends⟩
  -- a block that is cut out and parsed is the own vote when its parse says so
  have of_frame {env : Env} {i : Socket} {received read : Text}
      (hread : frameBody (received.take bufferSize) = some read)
      (hframe : ∀ keyword predId, parseFrame (i = s.ltcpSocket) read ≠ .election keyword predId) :
      ¬ Event.TakesLead s (.readable env i received) := by
    rintro ⟨-, -, read', hread', hparse⟩
    obtain rfl : read = read' := by simpa [hread] using hread'
    split at hparse
    · rename_i heq
      exact hframe _ _ heq
    · exact hparse
  cases handled h with
  | timer ht =>
      obtain ⟨hid, hlead, votes, hsends, -⟩ := onTimer_role ht
      exact ⟨hid, hlead, votes, hsends⟩
  | accept => exact of_role (.of_acceptNewClient s _ _) id
  | datagram ht =>
      refine of_role ((SameRole.of_handleMcastReceive ht).trans ?_) id
      rw [registerPeer]
      split
      · exact .of_fields rfl rfl rfl
      · exact .refl _
  | disconnect ht => exact of_role (.of_disconnect ht) fun htakes => htakes.2.1 rfl
  | unfinished _ hread =>
      refine of_role (.refl s) ?_
      rintro ⟨-, -, read, hread', -⟩
      simp [hread] at hread'
  | updateFromLeader _ hread hframe ht =>
      exact of_role (.of_newSuccessor ht) (of_frame hread (by simp [hframe]))
  | client _ hread hframe ht =>
      exact of_role (.of_handleClientMessage ht) (of_frame hread (by simp [hframe]))
  | @election env i received read keyword predId _ hne hread hframe ht =>
      rw [handleElection_eq] at ht
      obtain ⟨⟨r, u⟩, hu, ht⟩ := Except.bind_eq_ok.mp ht
      have hrole := SameRole.of_actOnElection ht
      obtain ⟨hid, hlead, frames, hsends⟩ := lcrElection_role hu
      refine ⟨hrole.id.trans hid, ?_, _, hsends.trans hrole.sends⟩
      have htakes : Event.TakesLead s (.readable env i received) ↔ s.self.leader ≠ 1 ∧
          electionOf read keyword predId = (text "VOTE", s.self.id) := by
        simp [Event.TakesLead, Server.ReadsOwnVote, hne, hread, hframe]
      rw [hrole.leader, hlead, htakes]
      by_cases hleader : s.self.leader = 1
      · simp [hleader]
      · simp [hleader]
  | knowNewLeader _ hread hframe ht =>
      exact of_role (.of_handleKnowNewLeader ht) (of_frame hread (by simp [hframe]))
  | @heartbeat env _ _ _ alive _ hread hframe =>
      obtain ⟨lastHeartbeat, next, hset⟩ := updateHeartbeat_eq env s alive
      have hrole : SameRole s (s.updateHeartbeat env alive) := by
        rw [hset]
        exact ⟨rfl, rfl, rfl, .of_out rfl⟩
      exact of_role hrole (of_frame hread (by simp [hframe]))
  | unknown _ hread hframe => exact of_role (.refl s) (of_frame hread (by simp [hframe]))

end Events

/-! ## Starting up -/

section StartUp
variable {env : Env} {s t : Server} {d : Discovery} {i fd : Socket}

/-- `t` has the ID of `s`, is a leader only if `s` is, and no frame of the election was
sent. -/
structure Discovers (s t : Server) : Prop where
  id : t.self.id = s.self.id
  leader : t.self.leader = 0 ∨ t.self.leader = s.self.leader
  sends : Sends s t []

theorem Discovers.trans {u : Server} (h₁ : Discovers s t) (h₂ : Discovers t u) :
    Discovers s u where
  id := h₂.id.trans h₁.id
  leader := by
    rcases h₂.leader with h | h
    · exact Or.inl h
    · rw [h]
      exact h₁.leader
  sends := h₁.sends.trans h₂.sends

theorem SameRole.discovers (h : SameRole s t) : Discovers s t := ⟨h.id, Or.inr h.leader, h.sends⟩

/-- What the process has become, however far the discovery has come. -/
def Progress.server : Progress → Server
  | .returned _ s => s
  | .waiting d => d.server

theorem SameRole.of_joinSuccessor {successorIP : Text} {mPORT ids : ℤ}
    (h : joinSuccessor env s i successorIP mPORT ids = .ok (fd, t)) : SameRole s t := by
  rw [joinSuccessor] at h
  split at h
  · obtain ⟨port, -, h⟩ := Except.bind_eq_ok.mp h
    generalize hsetup : s.setupTcpClient env successorIP port = r at h
    obtain ⟨fd', u⟩ := r
    refine (of_setupTcpClient hsetup).trans ?_
    simp only at h
    split at h
    · cases h
      exact of_fields rfl rfl rfl
    · cases h
      exact of_fields rfl rfl rfl
  · cases h
    exact refl s

theorem readReply_discovers {received : Text} {p : Progress}
    (h : readReply env d i received = .ok p) : Discovers d.server p.server := by
  rw [readReply] at h
  split at h
  · cases h
    exact (SameRole.refl _).discovers
  · split at h
    · cases h
      exact (SameRole.refl _).discovers
    · split at h
      · obtain ⟨⟨socket, u⟩, hu, h⟩ := Except.bind_eq_ok.mp h
        cases h
        refine Discovers.trans ?_ (SameRole.of_joinSuccessor hu).discovers
        exact ⟨rfl, Or.inl rfl, .of_out rfl⟩
      · cases h
        exact SameRole.discovers (.of_fields rfl rfl rfl)

theorem onReady_discovers {arrival : Arrival} {p : Progress}
    (h : onReady env d i arrival = .ok p) : Discovers d.server p.server := by
  have hsame : Discovers d.server d.server := (SameRole.refl _).discovers
  unfold onReady at h
  split at h
  · split at h
    · split at h
      · cases h
        refine SameRole.discovers (SameRole.trans ?_ (.of_assignClientInfo _ _ _))
        exact .of_fields rfl rfl rfl
      · cases h
        exact hsame
    · cases h
      exact hsame
  · split at h
    · split at h
      · exact readReply_discovers h
      · cases h
        exact hsame
    · cases h
      exact hsame

theorem onReads_discovers {reads : List (Socket × Arrival)} {p : Progress}
    (h : onReads env reads d = .ok p) : Discovers d.server p.server := by
  induction reads generalizing d with
  | nil =>
      cases h
      exact (SameRole.refl _).discovers
  | cons r reads ih =>
      obtain ⟨p', hp', h⟩ := Except.bind_eq_ok.mp h
      refine (onReady_discovers hp').trans ?_
      cases p' with
      | returned socket u =>
          cases h
          exact (SameRole.refl _).discovers
      | waiting d' => exact ih h

theorem onRounds_discovers {rounds : List Round} (h : onRounds rounds d = .ok (fd, t)) :
    Discovers d.server t := by
  induction rounds generalizing d with
  | nil =>
      cases h
      exact (SameRole.refl _).discovers
  | cons round rounds ih =>
      cases round with
      | failed =>
          cases h
          exact (SameRole.refl _).discovers
      | quiet env =>
          cases h
          exact (SameRole.of_doMulticast env _ _).discovers
      | ready env reads =>
          obtain ⟨p, hp, h⟩ := Except.bind_eq_ok.mp h
          refine (onReads_discovers hp).trans ?_
          cases p with
          | returned socket u =>
              cases h
              exact (SameRole.refl _).discovers
          | waiting d' => exact ih h

/-- **A server that starts keeps its ID, and is a leader only if it found none.** -/
theorem startUp_discovers {rounds : List Round} (h : startUp env rounds s = .ok t) :
    Discovers s t := by
  obtain ⟨⟨ltcpSocket, u⟩, hu, h⟩ := Except.bind_eq_ok.mp h
  have hsu : Discovers s u := by
    rw [serviceDiscovery] at hu
    split at hu
    · exact (SameRole.of_doMulticast env s _).discovers.trans (onRounds_discovers hu)
    · cases hu
      exact (SameRole.refl s).discovers
  refine hsu.trans ?_
  simp only at h
  split at h
  · cases h
    exact ⟨rfl, Or.inl rfl, .of_out rfl⟩
  · cases h
    exact SameRole.discovers (.of_fields rfl rfl rfl)

end StartUp
end ChatRing
