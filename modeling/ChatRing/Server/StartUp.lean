import ChatRing.Server.Loop
import Mathlib.Data.Finset.Lattice.Basic

/-!
# Starting up

`service_discovery.c`, and `main` of `server_s.c` up to its loop.  A server enters
itself as the leader, asks the others for theirs, and looks at its listening socket in
at most three rounds of `select`.  The leader connects and names itself, the IDs of the
ring and the successor of the new server; without such a reply the server stays the
leader it entered itself as.
-/

namespace ChatRing
open CText

/-- What a descriptor that `select` reports has to offer. -/
inductive Arrival
  /-- `accept` returns `socket`; no address is given when `getnameinfo` failed. -/
  | connection (socket : Socket) (clientIp : Option Text)
  /-- `recv` returns these bytes, or none of them. -/
  | data (received : Text)

/-- What one call of `select` returns. -/
inductive Round
  | failed
  /-- The second elapses. -/
  | quiet (env : Env)
  /-- These descriptors are ready, in their order. -/
  | ready (env : Env) (reads : List (Socket × Arrival))

/-- The locals of `service_discovery`, and the state of the process. -/
structure Discovery where
  server : Server
  /-- The descriptors that the function selects on. -/
  master : Finset Socket
  /-- The last connection accepted; the source leaves the variable uninitialised. -/
  socketClient : Option Socket
  addressBuffer : Text

/-- How far the discovery has come. -/
inductive Progress
  | returned (socket : Socket) (s : Server)
  | waiting (d : Discovery)

/-- The follower of the leader on socket `i` connects to the successor that the reply
names.  An address shorter than eight characters is the placeholder of a leader that has
no other server. -/
def joinSuccessor (env : Env) (s : Server) (i : Socket) (successorIP : Text) (mPORT ids : ℤ) :
    Except Fault (Socket × Server) :=
  if successorIP.length ≥ 8 then do
    let port ← portText mPORT
    let (socketSuccessor, s) := s.setupTcpClient env successorIP port
    if IsValidSocket socketSuccessor then
      return (i, { s with
        successorSocket := socketSuccessor
        next := appendServer env.now s.self s.next ids successorIP mPORT 0 socketSuccessor })
    else return (errorReturn, s.closeSocket i)
  else return (i, s)

/-- Data on the last connection: the reply of a leader ends the discovery, any other
message the connection. -/
def readReply (env : Env) (d : Discovery) (i : Socket) (received : Text) :
    Except Fault Progress :=
  if received = [] then return .returned errorReturn d.server
  else
    match frameBody (received.take bufferSize) with
    | none => return .returned errorReturn d.server
    | some buf =>
        match sscanf buf "%d:%15[^:]:%d:%d\n\n" with
        | [.int id, .str successorIP, .int mPORT, .int ids] => do
            let s := d.server
            let s := { s with
              self := { s.self with leader := 0 }
              next := appendServer env.now s.self s.next id d.addressBuffer s.self.port 1 i }
            let (socket, s) ← joinSuccessor env s i successorIP mPORT ids
            return .returned socket s
        | _ => return .waiting { d with
            server := d.server.closeSocket i
            master := d.master.erase i }

/-- One descriptor that is ready.  Data on an earlier connection is not looked at. -/
def onReady (env : Env) (d : Discovery) (i : Socket) (arrival : Arrival) :
    Except Fault Progress :=
  if i = d.server.self.tcpSocket then
    match arrival with
    | .connection socketClient clientIp =>
        if IsValidSocket socketClient then
          let s := { d.server with opened := insert socketClient d.server.opened }
          return .waiting {
            server := assignClientInfo s socketClient clientIp
            master := insert socketClient d.master
            socketClient := some socketClient
            addressBuffer := clientIp.getD d.addressBuffer }
        else return .returned errorReturn d.server
    | .data _ => return .waiting d
  else if some i = d.socketClient then
    match arrival with
    | .data received => readReply env d i received
    | .connection _ _ => return .waiting d
  else return .waiting d

/-- The descriptors of one round. -/
def onReads (env : Env) : List (Socket × Arrival) → Discovery → Except Fault Progress
  | [], d => return .waiting d
  | (i, arrival) :: reads, d => do
      match ← onReady env d i arrival with
      | .returned socket s => return .returned socket s
      | .waiting d => onReads env reads d

/-- `LEADER_DISCOVERY` in the zeroed `sendBuf`. -/
def discoveryFrame (s : Server) : Text := padZero (leaderDiscovery s.self.id s.self.port)

/-- The rounds.  A round in which nothing arrives is the last one: the request is
repeated, and its answer not waited for. -/
def onRounds : List Round → Discovery → Except Fault (Socket × Server)
  | [], d => return (errorReturn, d.server)
  | .failed :: _, d => return (errorReturn, d.server)
  | .quiet env :: _, d => return (errorReturn, d.server.doMulticast env (discoveryFrame d.server))
  | .ready env reads :: rounds, d => do
      match ← onReads env (reads.filter fun r => r.1 ∈ d.master) d with
      | .returned socket s => return (socket, s)
      | .waiting d => onRounds rounds d

/-- `service_discovery`: the socket of the leader, or `error_return`. -/
def serviceDiscovery (env : Env) (rounds : List Round) (s : Server) :
    Except Fault (Socket × Server) :=
  if env.multicasts then
    onRounds (rounds.take 3) {
      server := s.doMulticast env (discoveryFrame s)
      master := {s.self.tcpSocket}
      socketClient := none
      addressBuffer := [] }
  else return (errorReturn, s)

/-- What `main` has set up when it calls `service_discovery`. -/
def setUp (env : Env) (serverIp : Text) (port : ℤ) (socketListen mcSocket : Socket) : Server :=
  startLeader env.now (getRadomId env 1 10000) serverIp port (getRadomId env 20000 1000000)
    socketListen mcSocket

/-- The sockets that `main` adds to `master` when the leader was found: those of the
leader and of the successor, and the second connection that was accepted. -/
def foundSockets (s : Server) : List Socket :=
  [s.ltcpSocket] ++ (if s.successorSocket ≠ errorReturn then [s.successorSocket] else []) ++
    ((s.clientArray[1]?.map ClientInfo.socket).filter (· ≠ 0)).toList

/-- `service_discovery`, and what `main` does with the result, up to its loop. -/
def startUp (env : Env) (rounds : List Round) (s : Server) : Except Fault Server := do
  let (ltcpSocket, s) ← serviceDiscovery env rounds s
  let s := { s with ltcpSocket := ltcpSocket }
  if IsValidSocket ltcpSocket then
    return { s with
      self := { s.self with leader := 0 }
      master := s.master ∪ (foundSockets s).toFinset }
  else return s

end ChatRing
