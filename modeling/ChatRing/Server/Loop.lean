import ChatRing.Server.Admission
import ChatRing.Server.Socket

/-!
# The event loop

`main` of `server_s.c`, one call of a handler at a time.  What `select` reports as
readable may have been closed or cleared by a handler called before in the same
round, so a read names any socket but the listening one and the multicast one.

## Main results

* `Server.handled` — the paths an event can take, stated once: an invariant is proved
  path by path.
-/

namespace ChatRing
open CText

/-- What `main` has set up when it enters the loop without having found a leader. -/
def startLeader (now id : ℤ) (serverIp : Text) (port groupId : ℤ) (socketListen mcSocket : Socket) :
    Server where
  self := createServer now id serverIp port 1 socketListen
  next := []
  participant := 0
  clientArray := []
  clkIndex := 0
  groupId := groupId
  mcSocket := mcSocket
  ltcpSocket := errorReturn
  successorSocket := errorReturn
  master := {0, socketListen, mcSocket}
  opened := {0, 1, 2, socketListen, mcSocket}
  out := []

/-- What the loop does next. -/
inductive Event
  /-- The branch taken every `HEARTBEAT_TIMEOUT` seconds. -/
  | timer (env : Env)
  /-- A connection arrives on the listening socket. -/
  | accept (socket : Socket) (clientIp : Option Text)
  /-- A datagram arrives on the multicast socket. -/
  | datagram (env : Env) (received : Option Text) (senderAddr : Text)
  /-- `recv` on socket `i` returns these bytes, or none of them. -/
  | readable (env : Env) (i : Socket) (received : Text)

/-- The follower's part of the timer branch, for the records from `current` on and what is in
`sendBuf`.  The buffer is the global one: after an overdue leader the next record gets the
vote that `send_ele_msg` has printed. -/
def sendHeartbeats (env : Env) : Text → List ServerInfo → Server → Except Fault Server
  | _, [], s => .ok s
  | sendBuf, current :: rest, s => do
      let s := sendIgnored env s current.tcpSocket sendBuf
      let buf := leaderTimeoutBuf env s (2 * heartbeatTimeout) sendBuf
      let s ← checkLeaderTimeout env s (2 * heartbeatTimeout)
      sendHeartbeats env buf rest s

/-- The timer branch. -/
def onTimer (env : Env) (s : Server) : Except Fault Server :=
  if s.self.leader = 1 then
    if s.next = [] then .ok s
    else checkHeartbeatTimeout env (s.doMulticast env (padZero (heartbeat s.self.id)))
      (2 * heartbeatTimeout)
  else sendHeartbeats env (padZero (heartbeat s.self.id)) s.next s

/-- `FD_SET` for the socket that a handler returned, when it is one. -/
def registerPeer (s : Server) (peerSocket : Socket) : Server :=
  if IsValidSocket peerSocket then s.fdSet peerSocket else s

/-- `registerPeer` only adds to `master`. -/
theorem registerPeer_eq (s : Server) (fd : Socket) :
    ∃ master, registerPeer s fd = { s with master := master } := by
  rw [registerPeer]
  split
  · exact ⟨_, rfl⟩
  · exact ⟨_, rfl⟩

@[simp] theorem registerPeer_self (s : Server) (fd : Socket) :
    (registerPeer s fd).self = s.self := by
  obtain ⟨master, h⟩ := registerPeer_eq s fd
  rw [h]

@[simp] theorem registerPeer_next (s : Server) (fd : Socket) :
    (registerPeer s fd).next = s.next := by
  obtain ⟨master, h⟩ := registerPeer_eq s fd
  rw [h]

@[simp] theorem registerPeer_out (s : Server) (fd : Socket) : (registerPeer s fd).out = s.out := by
  obtain ⟨master, h⟩ := registerPeer_eq s fd
  rw [h]

/-- A number the operating system can return for a new descriptor: a failure, or
one that is not open. -/
def Server.Fresh (s : Server) (fd : Socket) : Prop := ¬ IsValidSocket fd ∨ fd ∉ s.opened

instance (s : Server) (fd : Socket) : Decidable (s.Fresh fd) :=
  inferInstanceAs (Decidable (_ ∨ _))

/-- The operating system can let the event happen in this state. -/
def Event.Possible (s : Server) : Event → Prop
  | .timer _ => True
  | .accept socket _ => s.Fresh socket
  | .datagram env _ _ => s.Fresh env.connect
  | .readable env i _ => s.Fresh env.connect ∧ IsValidSocket i

instance (s : Server) : (e : Event) → Decidable (e.Possible s)
  | .timer _ => isTrue trivial
  | .accept socket _ => inferInstanceAs (Decidable (s.Fresh socket))
  | .datagram env _ _ => inferInstanceAs (Decidable (s.Fresh env.connect))
  | .readable env i _ => inferInstanceAs (Decidable (s.Fresh env.connect ∧ IsValidSocket i))

namespace Server

/-- Handle one event. -/
def handle (s : Server) : Event → Except Fault Server
  | .timer env => onTimer env s
  | .accept socket clientIp => .ok (acceptNewClient s socket clientIp)
  | .datagram env received senderAddr => do
      let (peerSocket, s) ← handleMcastReceive env s received senderAddr
      return registerPeer s peerSocket
  | .readable env i received => handleSocketChange env s i received

/-- One step of the loop, when the handler returns. -/
def step (s : Server) (e : Event) : Option Server :=
  if e.Possible s then (handle s e).toOption else none

/-- What handling an event amounts to, one case for each path through the handlers. -/
inductive Handled (s : Server) : Event → Server → Prop
  | timer {env : Env} {t : Server} (h : onTimer env s = .ok t) : Handled s (.timer env) t
  | accept {socket : Socket} {clientIp : Option Text} :
      Handled s (.accept socket clientIp) (acceptNewClient s socket clientIp)
  | datagram {env : Env} {received : Option Text} {senderAddr : Text} {fd : Socket} {t : Server}
      (h : handleMcastReceive env s received senderAddr = .ok (fd, t)) :
      Handled s (.datagram env received senderAddr) (registerPeer t fd)
  | disconnect {env : Env} {i : Socket} {t : Server} (h : disconnect s i = .ok t) :
      Handled s (.readable env i []) t
  | unfinished {env : Env} {i : Socket} {received : Text} (hne : received ≠ [])
      (hread : frameBody (received.take bufferSize) = none) :
      Handled s (.readable env i received) s
  | updateFromLeader {env : Env} {i : Socket} {received read ip : Text} {id port : ℤ} {t : Server}
      (hne : received ≠ []) (hread : frameBody (received.take bufferSize) = some read)
      (hframe : parseFrame (i = s.ltcpSocket) read = .updateFromLeader ip id port)
      (h : newSuccessor env s ip id port = .ok t) : Handled s (.readable env i received) t
  | client {env : Env} {i : Socket} {received read message : Text} {senderId destId r : ℤ}
      {t : Server} (hne : received ≠ []) (hread : frameBody (received.take bufferSize) = some read)
      (hframe : parseFrame (i = s.ltcpSocket) read = .client senderId destId message)
      (h : handleClientMessage env s senderId destId message i = .ok (r, t)) :
      Handled s (.readable env i received) t
  | election {env : Env} {i : Socket} {received read keyword : Text} {predId : ℤ} {t : Server}
      (hne : received ≠ []) (hread : frameBody (received.take bufferSize) = some read)
      (hframe : parseFrame (i = s.ltcpSocket) read = .election keyword predId)
      (h : handleElection env s read keyword predId = .ok t) :
      Handled s (.readable env i received) t
  | knowNewLeader {env : Env} {i : Socket} {received read nlIP sIP : Text}
      {nlID nlPORT sID sPORT : ℤ} {t : Server}
      (hne : received ≠ []) (hread : frameBody (received.take bufferSize) = some read)
      (hframe : parseFrame (i = s.ltcpSocket) read = .knowNewLeader nlID nlIP nlPORT sID sIP sPORT)
      (h : handleKnowNewLeader env s i nlID nlIP nlPORT sID sIP sPORT = .ok t) :
      Handled s (.readable env i received) t
  | heartbeat {env : Env} {i : Socket} {received read : Text} {id : ℤ}
      (hne : received ≠ []) (hread : frameBody (received.take bufferSize) = some read)
      (hframe : parseFrame (i = s.ltcpSocket) read = .heartbeat id) :
      Handled s (.readable env i received) (s.updateHeartbeat env id)
  | unknown {env : Env} {i : Socket} {received read : Text}
      (hne : received ≠ []) (hread : frameBody (received.take bufferSize) = some read)
      (hframe : parseFrame (i = s.ltcpSocket) read = .unknown) :
      Handled s (.readable env i received) s

/-- **Every event takes one of these paths.** -/
theorem handled {s t : Server} {e : Event} (h : handle s e = .ok t) : Handled s e t := by
  cases e with
  | timer env => exact .timer h
  | accept socket clientIp =>
      cases h
      exact .accept
  | datagram env received senderAddr =>
      obtain ⟨⟨fd, u⟩, hu, h⟩ := Except.bind_eq_ok.mp h
      cases h
      exact .datagram hu
  | readable env i received =>
      simp only [handle, handleSocketChange] at h
      split at h
      · rename_i hnil
        subst hnil
        exact .disconnect h
      · rename_i hne
        split at h
        · rename_i hread
          cases h
          exact .unfinished hne hread
        · rename_i read hread
          simp only [dispatch] at h
          split at h
          · rename_i hframe
            exact .updateFromLeader hne hread hframe h
          · rename_i hframe
            obtain ⟨⟨r, u⟩, hu, rfl⟩ := Except.map_eq_ok.mp h
            exact .client hne hread hframe hu
          · rename_i hframe
            exact .election hne hread hframe h
          · rename_i hframe
            exact .knowNewLeader hne hread hframe h
          · rename_i hframe
            cases h
            exact .heartbeat hne hread hframe
          · rename_i hframe
            cases h
            exact .unknown hne hread hframe

end Server
end ChatRing
