import ChatRing.Lib.Except
import ChatRing.Server.Structs
import Mathlib.Data.Finset.Insert
import Mathlib.Data.Finset.Erase

/-!
# The state of a server process

The globals of a server, the locals of its `main`, and what the operating system
holds for it: the descriptors that are open, and everything it has sent.  A handler
is a function of the state and of an `Env`, which answers its system calls.

The rest of `sendBuf` after the NUL that ends a message is not recorded: a receiver
looks at a frame only up to its first empty line or NUL.  `socket_max` is left out:
every `FD_SET` of the source raises it, so that the loop looks at all of `master`.
`udp_socket` is never opened and stays `error_return`.
-/

namespace ChatRing
open CText

/-- An entry of `ClientArray`.  `addr` points to the copy that is freed with it. -/
structure ClientInfo where
  id : ℤ
  socket : Socket
  ipAddr : Text
  deriving DecidableEq

/-- What left the process. -/
inductive Output
  /-- `send` took these bytes. -/
  | send (socket : Socket) (bytes : Text)
  /-- `do_multicast` took these bytes. -/
  | multicast (bytes : Text)
  /-- `setup_tcp_client` connected. -/
  | connect (address port : Text) (socket : Socket)
  deriving DecidableEq

/-- The frames sent on a socket. -/
def sentOn (out : List Output) (socket : Socket) : List Text :=
  out.filterMap fun
    | .send k bytes => if k = socket then some bytes else none
    | _ => none

@[simp] theorem sentOn_append (l₁ l₂ : List Output) (socket : Socket) :
    sentOn (l₁ ++ l₂) socket = sentOn l₁ socket ++ sentOn l₂ socket := List.filterMap_append

@[simp] theorem sentOn_nil (socket : Socket) : sentOn [] socket = [] := rfl

@[simp] theorem sentOn_connect (addr port : Text) (fd : Socket) (l : List Output)
    (socket : Socket) : sentOn (.connect addr port fd :: l) socket = sentOn l socket := rfl

theorem sentOn_send_self (bytes : Text) (l : List Output) (socket : Socket) :
    sentOn (.send socket bytes :: l) socket = bytes :: sentOn l socket := by
  simp [sentOn]

theorem sentOn_send_ne {k socket : Socket} (h : k ≠ socket) (bytes : Text) (l : List Output) :
    sentOn (.send k bytes :: l) socket = sentOn l socket := by
  simp [sentOn, h]

structure Server where
  /-- The head of `connected_peers`. -/
  self : ServerInfo
  /-- The records after the head. -/
  next : List ServerInfo
  participant : ℤ
  /-- `ClientArray[0 .. client_count)` -/
  clientArray : List ClientInfo
  clkIndex : ℤ
  groupId : ℤ
  mcSocket : Socket
  ltcpSocket : Socket
  successorSocket : Socket
  /-- The descriptors that `main` selects on. -/
  master : Finset Socket
  /-- The descriptors that are open. -/
  opened : Finset Socket
  out : List Output

/-- The answers of the operating system during one call.  Whether a send succeeds
may depend on everything sent before.  No handler connects or multicasts twice. -/
structure Env where
  /-- `time(NULL)` -/
  now : ℤ
  /-- `setup_tcp_client`: a descriptor, or a negative number. -/
  connect : Socket
  sends : List Output → Socket → Text → Bool
  multicasts : Bool
  /-- The first `rand()` after `srand(now)`. -/
  rand : ℕ

/-- `getRadomId(min, max)` -/
def getRadomId (env : Env) (min max : ℤ) : ℤ := (env.rand : ℤ) % (max - min + 1) + min

/-- `sprintf(port, "%d", p)` fits its buffer of six bytes. -/
def PortFits (p : ℤ) : Prop := (intText p).length < 6

instance (p : ℤ) : Decidable (PortFits p) := inferInstanceAs (Decidable (_ < _))

/-- `sprintf(port, "%d", p)` into a buffer of six bytes. -/
def portText (p : ℤ) : Except Fault Text :=
  if (intText p).length < 6 then .ok (intText p) else .error .outOfBounds

theorem portText_of_fits {p : ℤ} (h : PortFits p) : portText p = .ok (intText p) := if_pos h

theorem portText_of_not_fits {p : ℤ} (h : ¬ PortFits p) : portText p = .error .outOfBounds :=
  if_neg h

/-- Every port number fits the buffer. -/
theorem portFits_of_port {p : ℤ} (h₁ : 1 ≤ p) (h₂ : p ≤ 65535) : PortFits p := by
  obtain ⟨n, rfl⟩ := Int.eq_ofNat_of_zero_le (by omega : 0 ≤ p)
  show (Nat.toDigits 10 n).length < 6
  have h := Nat.length_toDigits_le_iff (b := 10) (k := 5) (n := n) (by decide) (by decide)
  omega

namespace Server

/-- `setup_tcp_client(address, port)` -/
def setupTcpClient (env : Env) (s : Server) (address port : Text) : Socket × Server :=
  if IsValidSocket env.connect then
    (env.connect, { s with
      opened := insert env.connect s.opened
      out := s.out ++ [.connect address port env.connect] })
  else (errorReturn, s)

/-- `send(socket, bytes, ...)`, or nothing when it returns -1. -/
def send (env : Env) (s : Server) (socket : Socket) (bytes : Text) : Option Server :=
  if env.sends s.out socket bytes then some { s with out := s.out ++ [.send socket bytes] }
  else none

/-- `do_multicast(mc_socket, MULTICAST_IP, bytes)`; no caller in the event loop looks
at its result. -/
def doMulticast (env : Env) (s : Server) (bytes : Text) : Server :=
  if env.multicasts then { s with out := s.out ++ [.multicast bytes] } else s

/-- `FD_SET(fd, master)` -/
def fdSet (s : Server) (fd : Socket) : Server := { s with master := insert fd s.master }

/-- `FD_CLR(fd, master)`; the macro subscripts the set with the descriptor. -/
def fdClr (s : Server) (fd : Socket) : Except Fault Server :=
  if IsValidSocket fd then .ok { s with master := s.master.erase fd } else .error .outOfBounds

/-- `CLOSESOCKET(fd)` -/
def closeSocket (s : Server) (fd : Socket) : Server := { s with opened := s.opened.erase fd }

/-- `FD_CLR(fd, master); CLOSESOCKET(fd)` -/
def dropSocket (s : Server) (fd : Socket) : Except Fault Server := do
  let s ← s.fdClr fd
  return s.closeSocket fd

/-- `delete_server(connected_peers, id)` -/
def deleteServer (s : Server) (id : ℤ) : Except Fault Server := do
  let next ← ChatRing.deleteServer s.next id
  return { s with next := next }

theorem send_eq_some {env : Env} {s t : Server} {socket : Socket} {bytes : Text}
    (h : s.send env socket bytes = some t) :
    t = { s with out := s.out ++ [.send socket bytes] } := by
  rw [send] at h
  split at h
  · exact (Option.some.inj h).symm
  · cases h

theorem dropSocket_eq_ok {s t : Server} {fd : Socket} (h : s.dropSocket fd = .ok t) :
    0 ≤ fd ∧ t = { s with master := s.master.erase fd, opened := s.opened.erase fd } := by
  simp only [dropSocket, fdClr] at h
  split at h
  · rename_i hfd
    exact ⟨hfd, (Except.ok.inj h).symm⟩
  · cases h

theorem dropSocket_of_valid {s : Server} {fd : Socket} (h : 0 ≤ fd) :
    s.dropSocket fd = .ok { s with master := s.master.erase fd, opened := s.opened.erase fd } := by
  rw [dropSocket, fdClr, if_pos (show IsValidSocket fd from h)]
  rfl

theorem deleteServer_eq_ok {s t : Server} {id : ℤ} (h : s.deleteServer id = .ok t) :
    ∃ next, ChatRing.deleteServer s.next id = .ok next ∧ t = { s with next := next } := by
  obtain ⟨next, hnext, ht⟩ := Except.bind_eq_ok.mp h
  exact ⟨next, hnext, (Except.pure_eq_ok.mp ht).symm⟩

end Server
end ChatRing
