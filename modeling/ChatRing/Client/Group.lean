import ChatRing.Client.Send
import ChatRing.Lib.CausalBroadcast
import ChatRing.Lib.Run

/-!
# Runs of a group of clients

Clients are named by their vector index, so that indices are pairwise distinct; an
index nobody holds is a client that never takes a step.  The network is the list of
everything each client sent: a receipt takes any datagram from it, so that datagrams
may be lost, reordered, delayed and, unless a run forbids it, duplicated.

The faithful step refines the abstract protocol of `CausalBroadcast`: the state is
abstracted to delivery logs by `Group.abs`, and `Inv.abs_step` shows that a step
sends, delivers one message by the abstract rule, or changes no log.
-/

namespace ChatRing
open CText CausalBroadcast

/-- What a client sent: the datagram, and what it had delivered at that moment. -/
structure Sent where
  datagram : Text
  seen : List HoldBackQueue

/-- The clients, what each has sent, and which datagrams each has received. -/
structure Group where
  client : Fin maxGroupSize → Client
  sent : Fin maxGroupSize → List Sent
  received : Fin maxGroupSize → List (Msg (Fin maxGroupSize))

inductive GroupAction
  /-- Client `j` multicasts a typed line. -/
  | multicast (j : Fin maxGroupSize) (userInput : Text)
  /-- Client `i` receives a message; `stale` is what its stack held. -/
  | receive (i : Fin maxGroupSize) (m : Msg (Fin maxGroupSize)) (stale : Clock)
  /-- Other traffic of client `i` overwrites its `Buffer`. -/
  | overwrite (i : Fin maxGroupSize) (buffer : Text)

/-- The client after a call of the receive path. -/
def Client.deliver (c : Client) (buffer : Text) (d : Delivery) : Client :=
  { c with
    bufferHead := d.head
    delivered := d.delivered
    buffer := buffer
    log := c.log ++ d.log }

/-- `bufferHead = handle_group_receive(group_socket, bufferHead)` -/
def Client.receive (c : Client) (stale : Clock) (received : Received) : Except Fault Client := do
  let d ← handleGroupReceive stale c.buffer received c.bufferHead c.delivered
  return c.deliver (received.buffer c.buffer) d

namespace Group

def initial (selfId : Fin maxGroupSize → ℤ) : Group where
  client i := ⟨selfId i, i, 0, fun _ => 0, [], [], []⟩
  sent _ := []
  received _ := []

/-- The record of message `m`, when it was sent. -/
def sentMessage (g : Group) (m : Msg (Fin maxGroupSize)) : Option Sent := (g.sent m.1)[m.2]?

/-- The node that message `m` becomes at a receiver. -/
def message (g : Group) (m : Msg (Fin maxGroupSize)) : Option HoldBackQueue :=
  (g.sentMessage m).bind fun r => nodeOf r.datagram

def step (g : Group) : GroupAction → Option Group
  | .multicast j userInput =>
      let c := g.client j
      if PromptLine userInput ∧ c.Fits userInput then
        some { g with
          client := Function.update g.client j (c.multicast userInput)
          sent := Function.update g.sent j (g.sent j ++ [⟨c.datagram userInput, c.log⟩]) }
      else none
  | .receive i m stale =>
      match g.sentMessage m with
      | none => none
      | some r =>
          match (g.client i).receive stale (.datagram r.datagram) with
          | .error _ => none
          | .ok c => some { g with
              client := Function.update g.client i c
              received := Function.update g.received i (g.received i ++ [m]) }
  | .overwrite i buffer =>
      some { g with client := Function.update g.client i { g.client i with buffer := buffer } }

end Group

/-! ## Receiving on a queue that is empty or blocked -/

/-- The queue is empty, or its first message is not deliverable. -/
def Blocked (head : List HoldBackQueue) (delivered : Clock) : Prop :=
  ∀ m ∈ head.head?, ¬ m.dependency ≤ delivered

@[simp] theorem blocked_nil (delivered : Clock) : Blocked [] delivered := by simp [Blocked]

@[simp] theorem blocked_cons (m : HoldBackQueue) (q : List HoldBackQueue) (delivered : Clock) :
    Blocked (m :: q) delivered ↔ ¬ m.dependency ≤ delivered := by simp [Blocked]

/-- A blocked head stops the delivery loop at once. -/
theorem deliverLoop_blocked {m : HoldBackQueue} {q head : List HoldBackQueue} {delivered : Clock}
    (h : ¬ m.dependency ≤ delivered) :
    deliverLoop (m :: q) head delivered = .ok ⟨head, delivered, []⟩ := by
  rw [deliverLoop, if_neg (mt (arrayCompare_le_zero_iff _ _).mp h)]

theorem deliverLoop_ready {m : HoldBackQueue} {delivered : Clock} {j : Fin maxGroupSize}
    (hj : m.clkIndex = (j : ℕ)) (h : m.dependency ≤ delivered) :
    deliverLoop [m] [m] delivered =
      .ok ⟨[], Function.update delivered j (delivered j + 1), [m]⟩ := by
  rw [deliverLoop, if_pos ((arrayCompare_le_zero_iff _ _).mpr h), hj, bump_fin]
  simp only [removeFromHoldbackQueue, hj, if_true]
  rfl

/-- A message that arrives at an empty queue is delivered when it can be. -/
theorem receiveNode_deliver {m : HoldBackQueue} {delivered : Clock} {j : Fin maxGroupSize}
    (hj : m.clkIndex = (j : ℕ)) (h : m.dependency ≤ delivered) :
    receiveNode (some m) [] delivered =
      .ok ⟨[], Function.update delivered j (delivered j + 1), [m]⟩ :=
  deliverLoop_ready hj h

/-- Otherwise it is queued, and nothing is delivered. -/
theorem receiveNode_hold {m : HoldBackQueue} {head : List HoldBackQueue} {delivered : Clock}
    (hq : Blocked head delivered) (h : head = [] → ¬ m.dependency ≤ delivered) :
    receiveNode (some m) head delivered = .ok ⟨head ++ [m], delivered, []⟩ := by
  cases head with
  | nil => exact deliverLoop_blocked (h rfl)
  | cons x q => exact deliverLoop_blocked ((blocked_cons x q delivered).mp hq)

end ChatRing
