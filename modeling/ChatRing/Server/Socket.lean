import ChatRing.Server.Heartbeat

/-!
# Reading from a connection

`handle_socket_change`: a connection of the server is readable.  The text before the
first empty line of the block goes through an ordered chain of formats.

The source ends the text of a block of 256 bytes at `read[256]`, one past the array, and
searches such a block past its end when it holds neither an empty line nor a NUL.  The
model takes that store to be harmless and that search to fail; the bounds of the buffers
are not its subject.
-/

namespace ChatRing
open CText

/-- Append the new successor; a third record, and the socket of the old successor, go
first. -/
def replaceSuccessor (env : Env) (s : Server) (s1IP : Text) (s1ID s1PORT : ℤ)
    (newSuccessorSocket : Socket) : Except Fault Server :=
  let append (s : Server) : Server := { s with
    next := appendServer env.now s.self s.next s1ID s1IP s1PORT 0 newSuccessorSocket }
  match s.next with
  | [] => .error .nullDeref
  | [_] => .ok (append s)
  | _ :: second :: _ => do
      let s ← s.deleteServer second.id
      (append s).dropSocket s.successorSocket

/-- Connect to a new successor and put it in the place of the old one: the part that
the `UPDATE_FROM_LEADER` and `KNOW_NEW_LEADER` branches share. -/
def newSuccessor (env : Env) (s : Server) (s1IP : Text) (s1ID s1PORT : ℤ) :
    Except Fault Server := do
  let csPORT ← portText s1PORT
  let (newSuccessorSocket, s) := s.setupTcpClient env s1IP csPORT
  if IsValidSocket newSuccessorSocket then
    let s ← replaceSuccessor env s s1IP s1ID s1PORT newSuccessorSocket
    return { s with successorSocket := newSuccessorSocket }.fdSet newSuccessorSocket
  else .error .exit

/-- `if (ISVALIDSOCKET(*successor_socket)) { FD_CLR; CLOSESOCKET; = error_return }` -/
def dropSuccessor (s : Server) : Server :=
  if IsValidSocket s.successorSocket then
    { s with
      master := s.master.erase s.successorSocket
      opened := s.opened.erase s.successorSocket
      successorSocket := errorReturn }
  else s

/-- `FD_CLR` and `CLOSESOCKET` of `connected_peers->next`, and `delete_server`. -/
def dropNext (s : Server) : Except Fault Server :=
  match s.next with
  | [] => .error .nullDeref
  | first :: _ => do
      let s ← s.dropSocket first.tcpSocket
      s.deleteServer first.id

/-- What follows the call of `lcr_election`: a follower that learned the leader drops
its list and asks who the leader is, and the new leader drops its list. -/
def actOnElection (env : Env) (retValue : ℤ) (s : Server) : Except Fault Server :=
  if retValue = 1 then
    match s.next with
    | [] => .ok s
    | first :: _ => do
        let s ← s.deleteServer first.id
        let s ← dropNext s
        return (dropSuccessor s).doMulticast env (padX (whoIsLeader s.self.id s.self.port))
  else if s.self.id = retValue then
    match s.next with
    | [] => .ok s
    | _ :: _ => dropNext (dropSuccessor s)
  else .ok s

/-- The `ELECTION` branch. -/
def handleElection (env : Env) (s : Server) (read keyword : Text) (predId : ℤ) :
    Except Fault Server := do
  let value := leaderFound read
  let election := if value ≠ 0 then (text "LEADER", value) else (keyword, predId)
  let (retValue, s) ← lcrElection env s election.1 election.2
  actOnElection env retValue s

/-- The `KNOW_NEW_LEADER` branch. -/
def handleKnowNewLeader (env : Env) (s : Server) (i : Socket) (nlID : ℤ) (nlIP : Text)
    (nlPORT sID : ℤ) (sIP : Text) (sPORT : ℤ) : Except Fault Server :=
  let s :=
    if s.next = [] then
      { s with next := appendServer env.now s.self s.next nlID nlIP nlPORT 1 i }
    else s
  if sPORT ≠ 0 then do
    let s ← newSuccessor env s sIP sID sPORT
    return { s with ltcpSocket := i }
  else .ok { s with ltcpSocket := i }

/-- `update_heartbeat_timeout(connected_peers, id)`; the loop starts at the head. -/
def Server.updateHeartbeat (env : Env) (s : Server) (id : ℤ) : Server :=
  if s.self.id = id then { s with self := { s.self with lastHeartbeat := env.now } }
  else { s with next := updateHeartbeatTimeout env.now s.next id }

/-- What the chain of formats finds in the text of a block. -/
inductive Frame
  | updateFromLeader (s1IP : Text) (s1ID s1PORT : ℤ)
  | client (senderId destId : ℤ) (message : Text)
  | election (keyword : Text) (predId : ℤ)
  | knowNewLeader (nlID : ℤ) (nlIP : Text) (nlPORT sID : ℤ) (sIP : Text) (sPORT : ℤ)
  | heartbeat (senderId : ℤ)
  | unknown
  deriving DecidableEq

/-- The `sscanf` calls in their order; the first is made for the leader's socket only. -/
def parseFrame (fromLeader : Bool) (read : Text) : Frame :=
  match fromLeader, sscanf read "UPDATE_FROM_LEADER:%15[^:]:%d:%d" with
  | true, [.str s1IP, .int s1ID, .int s1PORT] => .updateFromLeader s1IP s1ID s1PORT
  | _, _ =>
    match sscanf read "CLIENT:%d:%d:%[^\n]" with
    | [.int senderId, .int destId, .str message] => .client senderId destId message
    | _ =>
      match sscanf read "ELECTION:%7[^:]:%d" with
      | [.str keyword, .int predId] => .election keyword predId
      | _ =>
        match sscanf read "KNOW_NEW_LEADER:%d:%15[^:]:%d:%d:%15[^:]:%d" with
        | [.int nlID, .str nlIP, .int nlPORT, .int sID, .str sIP, .int sPORT] =>
            .knowNewLeader nlID nlIP nlPORT sID sIP sPORT
        | _ =>
          match sscanf read "HEARTBEAT:%d" with
          | [.int senderId] => .heartbeat senderId
          | _ => .unknown

/-- What is done with the text of a block that came on socket `i`. -/
def dispatch (env : Env) (s : Server) (i : Socket) (read : Text) : Except Fault Server :=
  match parseFrame (i = s.ltcpSocket) read with
  | .updateFromLeader s1IP s1ID s1PORT => newSuccessor env s s1IP s1ID s1PORT
  | .client senderId destId message =>
      (handleClientMessage env s senderId destId message i).map Prod.snd
  | .election keyword predId => handleElection env s read keyword predId
  | .knowNewLeader nlID nlIP nlPORT sID sIP sPORT =>
      handleKnowNewLeader env s i nlID nlIP nlPORT sID sIP sPORT
  | .heartbeat senderId => .ok (s.updateHeartbeat env senderId)
  | .unknown => .ok s

/-- The exit of `handle_socket_change` for a `recv` that returned less than 1. -/
def disconnect (s : Server) (i : Socket) : Except Fault Server := do
  let s ← handleDisconnection s i
  let s := if i = s.ltcpSocket then { s with ltcpSocket := errorReturn } else s
  s.dropSocket i

/-- `handle_socket_change`, for the bytes that `recv` returned. -/
def handleSocketChange (env : Env) (s : Server) (i : Socket) (received : Text) :
    Except Fault Server :=
  if received = [] then disconnect s i
  else
    match frameBody (received.take bufferSize) with
    | none => .ok s
    | some read => dispatch env s i read

/-! ## What a block changes -/

section Changes
variable {env : Env} {s t : Server} {i : Socket}

/-- The new successor is appended, and its connection selected on.  A third record, and the
connection that `successor_socket` names, go first. -/
theorem newSuccessor_eq_ok {ip : Text} {id port : ℤ} (h : newSuccessor env s ip id port = .ok t) :
    IsValidSocket env.connect ∧ ∃ portStr next master opened,
      ((∃ first, s.next = [first] ∧ next = s.next ∧ master = s.master ∧
          opened = insert env.connect s.opened) ∨
        ∃ first second rest, s.next = first :: second :: rest ∧
          deleteServer s.next second.id = .ok next ∧
            master = s.master.erase s.successorSocket ∧
              opened = (insert env.connect s.opened).erase s.successorSocket) ∧
      t = { s with
        next := appendServer env.now s.self next id ip port 0 env.connect
        successorSocket := env.connect
        master := insert env.connect master
        opened := opened
        out := s.out ++ [.connect ip portStr env.connect] } := by
  obtain ⟨portStr, -, h⟩ := Except.bind_eq_ok.mp h
  simp only [Server.setupTcpClient] at h
  by_cases hc : IsValidSocket env.connect
  · simp only [hc, if_true] at h
    obtain ⟨u, hu, h⟩ := Except.bind_eq_ok.mp h
    cases h
    refine ⟨hc, portStr, ?_⟩
    simp only [replaceSuccessor] at hu
    split at hu
    · cases hu
    · rename_i first hnext
      cases hu
      exact ⟨s.next, s.master, insert env.connect s.opened,
        Or.inl ⟨first, hnext, rfl, rfl, rfl⟩, rfl⟩
    · rename_i first second rest hnext
      obtain ⟨v, hv, hu⟩ := Except.bind_eq_ok.mp hu
      obtain ⟨next, hdelete, rfl⟩ := Server.deleteServer_eq_ok hv
      obtain ⟨-, rfl⟩ := Server.dropSocket_eq_ok hu
      exact ⟨next, _, _, Or.inr ⟨first, second, rest, hnext, hdelete, rfl, rfl⟩, rfl⟩
  · simp only [hc, if_false] at h
    cases h

/-- An empty list gets the leader's record.  The leader's connection is the one read from. -/
theorem handleKnowNewLeader_eq_ok {nlID nlPORT sID sPORT : ℤ} {nlIP sIP : Text}
    (h : handleKnowNewLeader env s i nlID nlIP nlPORT sID sIP sPORT = .ok t) :
    ∃ next, (s.next ≠ [] ∧ next = s.next ∨
        s.next = [] ∧ next = appendServer env.now s.self [] nlID nlIP nlPORT 1 i) ∧
      ((sPORT = 0 ∧ t = { s with next := next, ltcpSocket := i }) ∨
        (sPORT ≠ 0 ∧ ∃ u, newSuccessor env { s with next := next } sIP sID sPORT = .ok u ∧
          t = { u with ltcpSocket := i })) := by
  simp only [handleKnowNewLeader] at h
  generalize hu : (if s.next = [] then
    { s with next := appendServer env.now s.self s.next nlID nlIP nlPORT 1 i } else s) = u at h
  obtain ⟨next, hnext, rfl⟩ : ∃ next, (s.next ≠ [] ∧ next = s.next ∨
      s.next = [] ∧ next = appendServer env.now s.self [] nlID nlIP nlPORT 1 i) ∧
      u = { s with next := next } := by
    split at hu
    · rename_i hnil
      exact ⟨_, Or.inr ⟨hnil, rfl⟩, by rw [← hu, hnil]⟩
    · rename_i hne
      exact ⟨s.next, Or.inl ⟨hne, rfl⟩, hu.symm⟩
  refine ⟨next, hnext, ?_⟩
  split at h
  · rename_i hport
    obtain ⟨v, hv, h⟩ := Except.bind_eq_ok.mp h
    exact Or.inr ⟨hport, v, hv, (Except.pure_eq_ok.mp h).symm⟩
  · rename_i hport
    exact Or.inl ⟨not_not.mp hport, (Except.ok.inj h).symm⟩

/-- The leader's record alone does not make two. -/
theorem two_le_length_appendLeader {nlID nlPORT : ℤ} {nlIP : Text} {next : List ServerInfo}
    (h : s.next ≠ [] ∧ next = s.next ∨
      s.next = [] ∧ next = appendServer env.now s.self [] nlID nlIP nlPORT 1 i) :
    2 ≤ next.length ↔ 2 ≤ s.next.length := by
  rcases h with ⟨-, rfl⟩ | ⟨hnil, rfl⟩
  · exact Iff.rfl
  · rw [appendServer]
    split
    · simp [hnil]
    · simp [hnil]

theorem dropNext_eq_ok (h : dropNext s = .ok t) : ∃ first rest, s.next = first :: rest ∧
    0 ≤ first.tcpSocket ∧ t = { s with
      next := rest
      master := s.master.erase first.tcpSocket
      opened := s.opened.erase first.tcpSocket } := by
  rw [dropNext] at h
  split at h
  · cases h
  · rename_i first rest hnext
    obtain ⟨u, hu, h⟩ := Except.bind_eq_ok.mp h
    obtain ⟨hvalid, rfl⟩ := Server.dropSocket_eq_ok hu
    simp only [Server.deleteServer, hnext, deleteServer_head] at h
    cases h
    exact ⟨first, rest, hnext, hvalid, rfl⟩

/-- A follower that learned of its leader drops the first two records, and asks. -/
theorem actOnElection_learned {first : ServerInfo} {tail : List ServerInfo}
    (hnext : s.next = first :: tail) (h : actOnElection env 1 s = .ok t) :
    ∃ second rest, tail = second :: rest ∧ t = (dropSuccessor { s with
      next := rest
      master := s.master.erase second.tcpSocket
      opened := s.opened.erase second.tcpSocket }).doMulticast env
        (padX (whoIsLeader s.self.id s.self.port)) := by
  simp only [actOnElection, if_true, hnext] at h
  obtain ⟨u, hu, h⟩ := Except.bind_eq_ok.mp h
  simp only [Server.deleteServer, hnext, deleteServer_head] at hu
  cases hu
  obtain ⟨v, hv, h⟩ := Except.bind_eq_ok.mp h
  obtain ⟨second, rest, htail, -, rfl⟩ := dropNext_eq_ok hv
  cases h
  exact ⟨second, rest, htail, rfl⟩

/-- Otherwise nothing happens, unless the server has won. -/
theorem actOnElection_eq_ok {retValue : ℤ} (h : actOnElection env retValue s = .ok t) :
    t = s ∨
      (retValue = 1 ∧ ∃ first second rest, s.next = first :: second :: rest ∧
        t = (dropSuccessor { s with
          next := rest
          master := s.master.erase second.tcpSocket
          opened := s.opened.erase second.tcpSocket }).doMulticast env
            (padX (whoIsLeader s.self.id s.self.port))) ∨
      (s.self.id = retValue ∧ dropNext (dropSuccessor s) = .ok t) := by
  by_cases hlearned : retValue = 1
  · subst hlearned
    cases hnext : s.next with
    | nil =>
        simp only [actOnElection, if_true, hnext] at h
        exact Or.inl (Except.ok.inj h).symm
    | cons first tail =>
        obtain ⟨second, rest, rfl, ht⟩ := actOnElection_learned hnext h
        exact Or.inr (Or.inl ⟨rfl, first, second, rest, rfl, ht⟩)
  · rw [actOnElection, if_neg hlearned] at h
    split at h
    · rename_i hown
      split at h
      · cases h
        exact Or.inl rfl
      · exact Or.inr (Or.inr ⟨hown, h⟩)
    · cases h
      exact Or.inl rfl

/-- A heartbeat sets times. -/
theorem updateHeartbeat_eq (env : Env) (s : Server) (id : ℤ) : ∃ lastHeartbeat next,
    s.updateHeartbeat env id =
      { s with self := { s.self with lastHeartbeat := lastHeartbeat }, next := next } := by
  rw [Server.updateHeartbeat]
  split
  · exact ⟨env.now, s.next, rfl⟩
  · exact ⟨s.self.lastHeartbeat, _, rfl⟩

/-- The connection is closed, whatever the disconnection did to the lists. -/
theorem disconnect_eq_ok (h : disconnect s i = .ok t) :
    ∃ u ltcpSocket, handleDisconnection s i = .ok u ∧ t = { u with
      ltcpSocket := ltcpSocket
      master := u.master.erase i
      opened := u.opened.erase i } := by
  obtain ⟨u, hu, h⟩ := Except.bind_eq_ok.mp h
  split at h
  · obtain ⟨-, rfl⟩ := Server.dropSocket_eq_ok h
    exact ⟨u, errorReturn, hu, rfl⟩
  · obtain ⟨-, rfl⟩ := Server.dropSocket_eq_ok h
    exact ⟨u, u.ltcpSocket, hu, rfl⟩

theorem disconnect_isOk_of_handled (h : handleDisconnection s i = .ok t) (hi : IsValidSocket i) :
    ∃ u, disconnect s i = .ok u := by
  simp only [disconnect, h, Except.ok_bind]
  exact ⟨_, Server.dropSocket_of_valid hi⟩

end Changes

end ChatRing
