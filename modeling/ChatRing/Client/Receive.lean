import ChatRing.Client.Queue

/-!
# Receiving a group message

`handle_group_receive` and `deliver_messages`.  A received datagram is written
over the global `Buffer`, cut at the first empty line, appended to the hold-back
queue, and then the queue is delivered from its head up to the first message that
is not yet deliverable.

Every exit for a datagram that is not accepted returns NULL, and the caller stores
the result as its queue.
-/

namespace ChatRing
open CText

/-- What a call leaves behind: the queue it returns, `DELIVERED`, and the messages
it printed as delivered. -/
structure Delivery where
  head : List HoldBackQueue
  delivered : Clock
  log : List HoldBackQueue
  deriving DecidableEq

/-- The loop of `deliver_messages`.  The cursor runs along the list while the loop
removes from `head` the first node that has the clock index just delivered. -/
def deliverLoop : List HoldBackQueue → List HoldBackQueue → Clock → Except Fault Delivery
  | [], head, delivered => .ok ⟨head, delivered, []⟩
  | current :: next, head, delivered =>
      if arrayCompare current.dependency delivered ≤ 0 then do
        let delivered ← bump delivered current.clkIndex
        let r ← deliverLoop next (removeFromHoldbackQueue head current.clkIndex) delivered
        return { r with log := current :: r.log }
      else .ok ⟨head, delivered, []⟩

/-- `deliver_messages` scans the message again before it looks at the queue. -/
def deliverMessages (head : List HoldBackQueue) (delivered : Clock) (cleanMessage : Text) :
    Except Fault Delivery :=
  match scanGroup cleanMessage with
  | none => .ok ⟨[], delivered, []⟩
  | some _ =>
      match head with
      | [] => .error .nullDeref
      | _ :: _ => deliverLoop head head delivered

/-- The outcome of `recvfrom` and `getnameinfo`. -/
inductive Received
  /-- `recvfrom` returned -1. -/
  | failed
  /-- The datagram was read but its sender could not be named. -/
  | unnamed (bytes : Text)
  | datagram (bytes : Text)
  deriving DecidableEq

/-- `recvfrom(group_socket, Buffer, BUFFER_SIZE, ...)` writes over the beginning of
the buffer and leaves the rest of it. -/
def recvfrom (buffer bytes : Text) : Text :=
  bytes.take bufferSize ++ buffer.drop (bytes.take bufferSize).length

/-- `Buffer` after the call. -/
def Received.buffer (buffer : Text) : Received → Text
  | .failed => buffer
  | .unnamed bytes => recvfrom buffer bytes
  | .datagram bytes => recvfrom buffer bytes

/-- `clear_message(Buffer)`. -/
def clearMessage (notCleanMessage : Text) : Option Text := frameBody notCleanMessage

/-- `handle_group_receive`.  The scan between the two calls stores the message and the list of its
dependencies, and prints them; they are taken to fit the two arrays. -/
def handleGroupReceive (stale : Clock) (buffer : Text) (received : Received)
    (bufferHead : List HoldBackQueue) (delivered : Clock) : Except Fault Delivery :=
  match received with
  | .failed => .ok ⟨[], delivered, []⟩
  | .unnamed _ => .ok ⟨[], delivered, []⟩
  | .datagram bytes =>
      match clearMessage (recvfrom buffer bytes) with
      | none => .ok ⟨[], delivered, []⟩
      | some cleanMessage => do
          let bufferHead ← appendToHoldbackQueue stale bufferHead cleanMessage
          deliverMessages bufferHead delivered cleanMessage

/-! ## Rejected datagrams -/

/-- The group message that a buffer holds, or nothing when it holds no empty line
or the five fields do not match. -/
def acceptedFields (buffer : Text) : Option GroupFields :=
  (clearMessage buffer).bind scanGroup

/-- A received datagram is rejected unless it makes the buffer hold a group message. -/
def Rejected (buffer : Text) : Received → Prop
  | .failed => True
  | .unnamed _ => True
  | .datagram bytes => acceptedFields (recvfrom buffer bytes) = none

instance (buffer : Text) : (received : Received) → Decidable (Rejected buffer received)
  | .failed => isTrue trivial
  | .unnamed _ => isTrue trivial
  | .datagram bytes => inferInstanceAs (Decidable (acceptedFields (recvfrom buffer bytes) = none))

/-- Whatever the queue was, a rejected datagram makes it empty. -/
theorem handleGroupReceive_of_rejected {stale : Clock} {buffer : Text} {received : Received}
    (h : Rejected buffer received) (bufferHead : List HoldBackQueue) (delivered : Clock) :
    handleGroupReceive stale buffer received bufferHead delivered = .ok ⟨[], delivered, []⟩ := by
  cases received with
  | failed => rfl
  | unnamed bytes => rfl
  | datagram bytes =>
      simp only [Rejected, acceptedFields] at h
      cases hc : clearMessage (recvfrom buffer bytes) with
      | none => simp [handleGroupReceive, hc]
      | some clean =>
          have hscan : scanGroup clean = none := by simpa [hc] using h
          simp only [handleGroupReceive, hc, appendToHoldbackQueue, hscan, deliverMessages]
          rfl

/-- **A rejected datagram leaves the client's state intact exactly when nothing was
held back**: the queue returned is always empty. -/
theorem rejected_keeps_state_iff {stale : Clock} {buffer : Text} {received : Received}
    (h : Rejected buffer received) (bufferHead : List HoldBackQueue) (delivered : Clock) :
    handleGroupReceive stale buffer received bufferHead delivered
        = .ok ⟨bufferHead, delivered, []⟩ ↔ bufferHead = [] := by
  rw [handleGroupReceive_of_rejected h]
  constructor
  · intro heq
    exact (congrArg Delivery.head (Except.ok.inj heq)).symm
  · rintro rfl
    rfl

/-- A message that waits for the second message of client 1. -/
private def waiting : HoldBackQueue := ⟨100, 0, text "waiting", fun i => if i = 1 then 1 else 0⟩

/-- One byte that is no message makes the client forget the message it held back. -/
theorem rejected_drops_queue :
    Rejected [] (.datagram ['x']) ∧
      handleGroupReceive 0 [] (.datagram ['x']) [waiting] 0 = .ok ⟨[], 0, []⟩ ∧
      handleGroupReceive 0 [] (.datagram ['x']) [waiting] 0 ≠ .ok ⟨[waiting], 0, []⟩ := by
  decide

theorem rejected_keeps_state_iff_empty_queue :
    Rejected [] (.datagram ['x']) ∧
      (handleGroupReceive 0 [] (.datagram ['x']) [] 0 = .ok ⟨[], 0, []⟩ ↔
        ([] : List HoldBackQueue) = []) :=
  ⟨by decide, rejected_keeps_state_iff (by decide) [] 0⟩

end ChatRing
