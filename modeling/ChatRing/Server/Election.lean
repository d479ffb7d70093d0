import ChatRing.Server.Messages
import ChatRing.Server.State

/-!
# The election

`election_lcr.c`.  A vote travels to the successor, `connected_peers->next->next`.
A server forwards a larger ID, replaces a smaller one by its own unless it takes part
already, and has won when its own ID comes back.
-/

namespace ChatRing
open CText

/-- `connected_peers->next->next` -/
def Server.successor (s : Server) : Except Fault ServerInfo :=
  match s.next with
  | _ :: successor :: _ => .ok successor
  | _ => .error .nullDeref

/-- `send(connected_peers->next->next->tcp_socket, sendBuf, BUFFER_SIZE, 0)` for a text
printed into the zeroed `sendBuf`; nothing when it returned -1. -/
def sendToSuccessor (env : Env) (s : Server) (message : Text) : Except Fault (Option Server) := do
  let successor ← s.successor
  return s.send env successor.tcpSocket (padZero message)

/-- `lcr_election`: the value returned, and the state.  `-1` and `0` are returned for
a failed send. -/
def lcrElection (env : Env) (s : Server) (keyword : Text) (predId : ℤ) :
    Except Fault (ℤ × Server) :=
  if keyword = text "VOTE" then
    if predId > s.self.id then
      if s.next = [] then return (0, s)
      else do
        match ← sendToSuccessor env s (electionVote predId) with
        | none => return (-1, s)
        | some s => return (0, s)
    else if predId < s.self.id then
      if s.next = [] then return (0, s)
      else if s.participant = 1 then return (0, s)
      else do
        let s := { s with participant := 1 }
        match ← sendToSuccessor env s (electionVote s.self.id) with
        | none => return (-1, s)
        | some s => return (0, s)
    else if s.self.leader = 1 then return (0, s)
    else do
      let s := { s with participant := 1, self := { s.self with leader := 1 } }
      match ← sendToSuccessor env s (electionLeader s.self.id) with
      | none => return (-1, s)
      | some s =>
          match s.next with
          | [] => .error .nullDeref
          | first :: _ => return (predId, ← s.deleteServer first.id)
  else if keyword = text "LEADER" then
    if predId = s.self.id then return (0, { s with participant := 0 })
    else
      match s.next with
      | [] => return (0, s)
      | first :: rest => do
          let s := { s with
            participant := 0
            next := { first with id := predId, leader := 1 } :: rest }
          match ← sendToSuccessor env s (electionLeader predId) with
          | none => return (0, s)
          | some s => return (1, s)
  else return (0, s)

theorem sendToSuccessor_eq_ok {env : Env} {s : Server} {message : Text} {o : Option Server}
    (h : sendToSuccessor env s message = .ok o) :
    ∃ successor, s.successor = .ok successor ∧
      o = s.send env successor.tcpSocket (padZero message) := by
  obtain ⟨successor, hs, ho⟩ := Except.bind_eq_ok.mp h
  exact ⟨successor, hs, (Except.pure_eq_ok.mp ho).symm⟩

/-- `send_ele_msg` -/
def sendEleMsg (env : Env) (s : Server) : Except Fault Server :=
  match s.next with
  | [] => .error .nullDeref
  | [leader] => { s with self := { s.self with leader := 1 } }.deleteServer leader.id
  | _ :: successor :: _ =>
      if s.participant = 1 then .ok s
      else
        match s.send env successor.tcpSocket (padZero (electionVote s.self.id)) with
        | none => .ok s
        | some s => .ok { s with participant := 1 }

/-- `leader_found`: the number after the first `LEADER:`, or zero. -/
def leaderFound (message : Text) : ℤ :=
  match strstr (text "LEADER:") message with
  | none => 0
  | some (_, found) => atoi (found.drop 7)

/-- `check_leader_timeout` -/
def checkLeaderTimeout (env : Env) (s : Server) (timeout : ℤ) : Except Fault Server :=
  match s.next with
  | [] => .error .nullDeref
  | leader :: _ => if env.now - leader.lastHeartbeat ≥ timeout then sendEleMsg env s else .ok s

/-- What `send_ele_msg` leaves in `sendBuf`: a server with a successor prints its vote there
before it looks at `participant`. -/
def sendEleMsgBuf (s : Server) (sendBuf : Text) : Text :=
  match s.next with
  | _ :: _ :: _ => padZero (electionVote s.self.id)
  | _ => sendBuf

/-- What `check_leader_timeout` leaves in `sendBuf`. -/
def leaderTimeoutBuf (env : Env) (s : Server) (timeout : ℤ) (sendBuf : Text) : Text :=
  match s.next with
  | [] => sendBuf
  | leader :: _ =>
      if env.now - leader.lastHeartbeat ≥ timeout then sendEleMsgBuf s sendBuf else sendBuf

end ChatRing
