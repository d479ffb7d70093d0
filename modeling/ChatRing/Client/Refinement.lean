import ChatRing.Client.Group

/-!
# The group refines causal broadcast

`Group.Inv` ties the counters of the clients, the vectors of all datagrams and the
queues together.  It holds in every run, duplicated datagrams included.
`Group.Inv.abs_receive` says what a receipt does to the abstract state; a receipt
delivers at most the message just received, because a queue that is not empty stays
blocked.

## Main results

* `Group.Inv.step` — every step keeps the invariant.
* `Group.Inv.receive_isSome` — no receipt leaves the defined behaviour.
* `Group.Inv.abs_step` — a step that delivers no message a second time is a step of
  the abstract protocol, or leaves the abstract state alone.
-/

namespace ChatRing
open CText CausalBroadcast

/-- Sender and sequence number of a node: its clock index, and its own slot. -/
def msgId (n : HoldBackQueue) : Msg (Fin maxGroupSize) :=
  let j := Fin.ofNat maxGroupSize n.clkIndex.toNat
  (j, (n.dependency j).toNat)

namespace Group

/-- Delivery logs and the logs at each send, as message names. -/
def abs (g : Group) : Fin maxGroupSize → Process (Fin maxGroupSize) := fun i =>
  ⟨(g.client i).log.map msgId, (g.sent i).map fun r => r.seen.map msgId⟩

@[simp] theorem abs_log (g : Group) (i : Fin maxGroupSize) :
    (g.abs i).log = (g.client i).log.map msgId := rfl

@[simp] theorem abs_past (g : Group) (i : Fin maxGroupSize) :
    (g.abs i).past = (g.sent i).map fun r => r.seen.map msgId := rfl

structure Inv (g : Group) : Prop where
  clkIndex : ∀ i, (g.client i).clkIndex = i
  sendSeq : ∀ i, (g.client i).sendSeq = (g.sent i).length
  delivered : ∀ i j, (g.client i).delivered j = count (g.abs i).log j
  /-- A datagram acts at every receiver through its node alone. -/
  uniform : ∀ m r, g.sentMessage m = some r → ∀ stale buffer head delivered,
    handleGroupReceive stale buffer (.datagram r.datagram) head delivered =
      receiveNode (nodeOf r.datagram) head delivered
  clk : ∀ m n, g.message m = some n → n.clkIndex = (m.1 : ℕ)
  stamp : ∀ m n, g.message m = some n → ∀ i, n.dependency i = stamp g.abs m i
  log_sent : ∀ i, ∀ n ∈ (g.client i).log, ∃ m ∈ g.received i, g.message m = some n
  blocked : ∀ i, Blocked (g.client i).bufferHead (g.client i).delivered

theorem inv_initial (selfId : Fin maxGroupSize → ℤ) : (initial selfId).Inv where
  clkIndex i := rfl
  sendSeq i := rfl
  delivered i j := rfl
  uniform m r h := by simp [sentMessage, initial] at h
  clk m n h := by simp [message, sentMessage, initial] at h
  stamp m n h := by simp [message, sentMessage, initial] at h
  log_sent i n h := by simp [initial] at h
  blocked i := blocked_nil _

theorem inv_abs_initial (selfId : Fin maxGroupSize → ℤ) :
    CausalBroadcast.Inv (initial selfId).abs := CausalBroadcast.inv_initial

variable {g g' : Group}

/-- A node names the message it was built from. -/
theorem Inv.msgId_eq (h : g.Inv) {m : Msg (Fin maxGroupSize)} {n : HoldBackQueue}
    (hn : g.message m = some n) : msgId n = m := by
  have hfin : Fin.ofNat maxGroupSize n.clkIndex.toNat = m.1 := by
    rw [h.clk m n hn, Int.toNat_natCast]
    exact Fin.ofNat_val_eq_self m.1
  have hseq : (n.dependency m.1).toNat = m.2 := by
    rw [h.stamp m n hn m.1, stamp_sender, Int.toNat_natCast]
  simp only [msgId, hfin, hseq]

theorem lt_of_message {m : Msg (Fin maxGroupSize)} {n : HoldBackQueue}
    (hn : g.message m = some n) : m.2 < (g.sent m.1).length := by
  obtain ⟨r, hr, -⟩ := Option.bind_eq_some_iff.mp hn
  exact (List.getElem?_eq_some_iff.mp hr).1

/-- A message is determined by its node. -/
theorem Inv.message_injective (h : g.Inv) {m m' : Msg (Fin maxGroupSize)} {n : HoldBackQueue}
    (hn : g.message m = some n) (hn' : g.message m' = some n) : m = m' := by
  rw [← h.msgId_eq hn, h.msgId_eq hn']

/-- The names in a log are those of its nodes. -/
theorem Inv.mem_abs_log (h : g.Inv) {i : Fin maxGroupSize} {m : Msg (Fin maxGroupSize)}
    {l : List HoldBackQueue} (hl : ∀ n ∈ l, n ∈ (g.client i).log) :
    m ∈ l.map msgId ↔ ∃ n ∈ l, g.message m = some n := by
  rw [List.mem_map]
  constructor
  · rintro ⟨n, hn, rfl⟩
    obtain ⟨m', -, hm'⟩ := h.log_sent i n (hl n hn)
    rw [h.msgId_eq hm']
    exact ⟨n, hn, hm'⟩
  · rintro ⟨n, hn, hm⟩
    exact ⟨n, hn, h.msgId_eq hm⟩

/-! ## Multicasting -/

/-- The state after client `j` multicast a line. -/
def afterMulticast (g : Group) (j : Fin maxGroupSize) (userInput : Text) : Group :=
  { g with
    client := Function.update g.client j ((g.client j).multicast userInput)
    sent := Function.update g.sent j
      (g.sent j ++ [⟨(g.client j).datagram userInput, (g.client j).log⟩]) }

theorem step_multicast {j : Fin maxGroupSize} {userInput : Text}
    (hstep : g.step (.multicast j userInput) = some g') :
    PromptLine userInput ∧ (g.client j).Fits userInput ∧ g' = g.afterMulticast j userInput := by
  simp only [step] at hstep
  split at hstep
  · rename_i hguard
    exact ⟨hguard.1, hguard.2, (Option.some.inj hstep).symm⟩
  · cases hstep

/-- Sending adds the newest message and changes no other. -/
theorem sentMessage_afterMulticast (g : Group) (j : Fin maxGroupSize) (userInput : Text)
    (m : Msg (Fin maxGroupSize)) :
    (g.afterMulticast j userInput).sentMessage m =
      if m = (j, (g.sent j).length) then
        some ⟨(g.client j).datagram userInput, (g.client j).log⟩
      else g.sentMessage m := by
  obtain ⟨i, k⟩ := m
  by_cases hi : i = j
  · subst hi
    simp only [sentMessage, afterMulticast, Function.update_self, Prod.mk.injEq, true_and]
    rcases Nat.lt_trichotomy k (g.sent i).length with hk | hk | hk
    · rw [List.getElem?_append_left hk, if_neg (by omega)]
    · rw [hk, List.getElem?_concat_length, if_pos rfl]
    · rw [List.getElem?_append_right (by omega), if_neg (by omega)]
      simp [List.getElem?_eq_none (by omega : (g.sent i).length ≤ k)]
      omega
  · have hne : (i, k) ≠ (j, (g.sent j).length) := fun heq => hi (Prod.mk.inj heq).1
    rw [if_neg hne]
    simp only [sentMessage, afterMulticast, Function.update_of_ne hi]

/-- A message keeps its node when another one is sent. -/
theorem message_afterMulticast {m : Msg (Fin maxGroupSize)} {n : HoldBackQueue}
    (hm : g.message m = some n) (j : Fin maxGroupSize) (userInput : Text) :
    (g.afterMulticast j userInput).message m = some n := by
  have hne : m ≠ (j, (g.sent j).length) := by
    rintro rfl
    exact absurd (lt_of_message hm) (lt_irrefl _)
  rw [message, sentMessage_afterMulticast, if_neg hne]
  exact hm

/-- Sending is the abstract send. -/
theorem abs_afterMulticast (g : Group) (j : Fin maxGroupSize) (userInput : Text) :
    (g.afterMulticast j userInput).abs = send g.abs j := by
  funext i
  by_cases hi : i = j
  · subst hi
    simp [abs, afterMulticast, send, Client.multicast]
  · simp [abs, afterMulticast, send, hi]

/-- The vector of the new message is its abstract stamp. -/
theorem Inv.dependency_eq (h : g.Inv) (j : Fin maxGroupSize) (userInput : Text)
    (i : Fin maxGroupSize) :
    (g.client j).dependency i =
      CausalBroadcast.stamp (g.afterMulticast j userInput).abs (j, (g.sent j).length) i := by
  by_cases hi : i = j
  · subst hi
    simp [Client.dependency, CausalBroadcast.stamp, h.clkIndex, h.sendSeq]
  · have hlast : (send g.abs j j).past.getD (g.sent j).length [] = (g.abs j).log := by
      rw [past_send_self, List.getD_eq_getElem?_getD, abs_past,
        show (g.sent j).length = ((g.sent j).map fun r => r.seen.map msgId).length by simp,
        List.getElem?_concat_length]
      rfl
    rw [abs_afterMulticast, CausalBroadcast.stamp, if_neg hi, hlast, ← h.delivered j i]
    rw [Client.dependency, h.clkIndex, Function.update_of_ne hi]

theorem Inv.afterMulticast (h : g.Inv) {j : Fin maxGroupSize} {userInput : Text}
    (hl : PromptLine userInput) (hf : (g.client j).Fits userInput) :
    (g.afterMulticast j userInput).Inv := by
  have hclient : ∀ i, ((g.afterMulticast j userInput).client i).delivered = (g.client i).delivered ∧
      ((g.afterMulticast j userInput).client i).log = (g.client i).log ∧
      ((g.afterMulticast j userInput).client i).clkIndex = (g.client i).clkIndex ∧
      ((g.afterMulticast j userInput).client i).bufferHead = (g.client i).bufferHead := by
    intro i
    by_cases hi : i = j
    · subst hi
      simp [Group.afterMulticast, Client.multicast]
    · simp [Group.afterMulticast, hi]
  have hmessage : ∀ m n, (g.afterMulticast j userInput).message m = some n →
      (m = (j, (g.sent j).length) ∧ n = (g.client j).node userInput) ∨
        (m ≠ (j, (g.sent j).length) ∧ g.message m = some n) := by
    intro m n hm
    simp only [message, sentMessage_afterMulticast] at hm
    split at hm
    · rename_i heq
      refine Or.inl ⟨heq, ?_⟩
      rcases Client.nodeOf_datagram hf hl with ⟨-, hnode⟩ | ⟨-, hnode⟩
      · simp [hnode] at hm
      · simpa [hnode] using hm.symm
    · rename_i hne
      exact Or.inr ⟨hne, hm⟩
  refine ⟨?_, ?_, ?_, ?_, ?_, ?_, ?_, ?_⟩
  · intro i
    rw [(hclient i).2.2.1, h.clkIndex]
  · intro i
    by_cases hi : i = j
    · subst hi
      simp [Group.afterMulticast, Client.multicast, h.sendSeq]
    · simp [Group.afterMulticast, hi, h.sendSeq]
  · intro i k
    rw [(hclient i).1, h.delivered, abs_afterMulticast, log_send]
  · intro m r hr stale buffer head delivered
    rw [sentMessage_afterMulticast] at hr
    split at hr
    · cases hr
      exact Client.handleGroupReceive_datagram hf hl stale buffer head delivered
    · exact h.uniform m r hr stale buffer head delivered
  · intro m n hm
    rcases hmessage m n hm with ⟨rfl, rfl⟩ | ⟨-, hm⟩
    · simp [Client.node, h.clkIndex]
    · exact h.clk m n hm
  · intro m n hm i
    rcases hmessage m n hm with ⟨rfl, rfl⟩ | ⟨-, hm⟩
    · exact h.dependency_eq j userInput i
    · rw [abs_afterMulticast, stamp_send g.abs j (by simpa using lt_of_message hm)]
      exact h.stamp m n hm i
  · intro i n hn
    rw [(hclient i).2.1] at hn
    obtain ⟨m, hm, hmn⟩ := h.log_sent i n hn
    exact ⟨m, hm, message_afterMulticast hmn j userInput⟩
  · intro i
    rw [(hclient i).1, (hclient i).2.2.2]
    exact h.blocked i

/-! ## Receiving -/

/-- The state after client `i` received `m` with outcome `d`. -/
def afterReceive (g : Group) (i : Fin maxGroupSize) (m : Msg (Fin maxGroupSize)) (buffer : Text)
    (d : Delivery) : Group :=
  { g with
    client := Function.update g.client i ((g.client i).deliver buffer d)
    received := Function.update g.received i (g.received i ++ [m]) }

/-- What a receipt of message `m` does to a client. -/
inductive Receipt (g : Group) (c : Client) (m : Msg (Fin maxGroupSize)) : Delivery → Prop
  /-- A blank message is rejected, and the queue is lost. -/
  | rejected (hm : g.message m = none) : Receipt g c m ⟨[], c.delivered, []⟩
  /-- The queue was empty, and the message is delivered. -/
  | deliver (n : HoldBackQueue) (hm : g.message m = some n) (hq : c.bufferHead = [])
      (hr : n.dependency ≤ c.delivered) :
      Receipt g c m ⟨[], Function.update c.delivered m.1 (c.delivered m.1 + 1), [n]⟩
  /-- The message is queued behind a blocked one, or is itself not deliverable. -/
  | hold (n : HoldBackQueue) (hm : g.message m = some n)
      (hq : c.bufferHead = [] → ¬ n.dependency ≤ c.delivered) :
      Receipt g c m ⟨c.bufferHead ++ [n], c.delivered, []⟩

/-- **A receipt returns, and does one of three things.** -/
theorem Inv.receive (h : g.Inv) {c : Client} (hb : Blocked c.bufferHead c.delivered)
    {m : Msg (Fin maxGroupSize)} {r : Sent} (hr : g.sentMessage m = some r) (stale : Clock) :
    ∃ buffer d, c.receive stale (.datagram r.datagram) = .ok (c.deliver buffer d) ∧
      Receipt g c m d := by
  have hnode : g.message m = nodeOf r.datagram := by simp [message, hr]
  simp only [Client.receive, h.uniform m r hr, ← hnode]
  cases hm : g.message m with
  | none => exact ⟨_, _, rfl, .rejected hm⟩
  | some n =>
      by_cases hq : c.bufferHead = [] ∧ n.dependency ≤ c.delivered
      · rw [hq.1, receiveNode_deliver (h.clk m n hm) hq.2]
        exact ⟨_, _, rfl, .deliver n hm hq.1 hq.2⟩
      · have hq' : c.bufferHead = [] → ¬ n.dependency ≤ c.delivered :=
          fun hnil hle => hq ⟨hnil, hle⟩
        rw [receiveNode_hold hb hq']
        exact ⟨_, _, rfl, .hold n hm hq'⟩

/-- After a receipt the queue is again empty or blocked. -/
theorem Receipt.blocked {c : Client} {m : Msg (Fin maxGroupSize)} {d : Delivery}
    (hd : Receipt g c m d) (hb : Blocked c.bufferHead c.delivered) :
    Blocked d.head d.delivered := by
  cases hd with
  | rejected hm => exact blocked_nil _
  | deliver n hm hq hr => exact blocked_nil _
  | hold n hm hq =>
      cases hhead : c.bufferHead with
      | nil => simpa using hq hhead
      | cons x q => simpa [hhead] using hb

theorem Inv.step_receive (h : g.Inv) {i : Fin maxGroupSize} {m : Msg (Fin maxGroupSize)}
    {stale : Clock} (hstep : g.step (.receive i m stale) = some g') :
    ∃ buffer d, Receipt g (g.client i) m d ∧ g' = g.afterReceive i m buffer d := by
  simp only [Group.step] at hstep
  split at hstep
  · cases hstep
  · rename_i r hr
    obtain ⟨buffer, d, hd, hreceipt⟩ := h.receive (h.blocked i) hr stale
    rw [hd] at hstep
    exact ⟨buffer, d, hreceipt, (Option.some.inj hstep).symm⟩

/-- **Every sent datagram can be received**: neither call rejects it or reads outside its arrays.
The texts of the datagram are taken to fit the arrays that they are scanned into. -/
theorem Inv.receive_isSome (h : g.Inv) {i : Fin maxGroupSize} {m : Msg (Fin maxGroupSize)}
    {r : Sent} (hr : g.sentMessage m = some r) (stale : Clock) :
    (g.step (.receive i m stale)).isSome := by
  obtain ⟨buffer, d, hd, -⟩ := h.receive (h.blocked i) hr stale
  simp [Group.step, hr, hd]

/-- The receiver is the only client that changes. -/
theorem client_afterReceive_ne {i i' : Fin maxGroupSize} (hi : i' ≠ i)
    (m : Msg (Fin maxGroupSize)) (buffer : Text) (d : Delivery) :
    (g.afterReceive i m buffer d).client i' = g.client i' := by simp [afterReceive, hi]

theorem client_afterReceive_self (i : Fin maxGroupSize) (m : Msg (Fin maxGroupSize))
    (buffer : Text) (d : Delivery) :
    (g.afterReceive i m buffer d).client i = (g.client i).deliver buffer d := by
  simp [afterReceive]

/-- A receipt that delivers nothing leaves the abstract state alone. -/
theorem abs_afterReceive_of_log_nil (i : Fin maxGroupSize) (m : Msg (Fin maxGroupSize))
    (buffer : Text) {d : Delivery} (hlog : d.log = []) :
    (g.afterReceive i m buffer d).abs = g.abs := by
  funext i'
  by_cases hi : i' = i
  · subst hi
    simp [abs, afterReceive, Client.deliver, hlog]
  · simp [abs, afterReceive, hi]

theorem Inv.abs_afterReceive_of_log_singleton (h : g.Inv) (i : Fin maxGroupSize)
    {m : Msg (Fin maxGroupSize)} {n : HoldBackQueue} (hm : g.message m = some n)
    (buffer : Text) {d : Delivery} (hlog : d.log = [n]) :
    (g.afterReceive i m buffer d).abs = deliver g.abs i m := by
  funext i'
  by_cases hi : i' = i
  · subst hi
    simp [abs, afterReceive, Client.deliver, deliver, hlog, h.msgId_eq hm]
  · simp [abs, afterReceive, deliver, hi]

/-- A receipt is an abstract delivery, or leaves the abstract state alone. -/
theorem Inv.abs_receive (h : g.Inv) {i : Fin maxGroupSize} {m : Msg (Fin maxGroupSize)}
    {d : Delivery} (hd : Receipt g (g.client i) m d) (buffer : Text) :
    (d.log = [] ∧ (g.afterReceive i m buffer d).abs = g.abs) ∨
      ∃ n, g.message m = some n ∧ (g.client i).bufferHead = [] ∧
        n.dependency ≤ (g.client i).delivered ∧ d.log = [n] ∧
        (g.afterReceive i m buffer d).abs = deliver g.abs i m := by
  cases hd with
  | rejected hm => exact Or.inl ⟨rfl, abs_afterReceive_of_log_nil i m buffer rfl⟩
  | deliver n hm hq hr =>
      exact Or.inr ⟨n, hm, hq, hr, rfl, h.abs_afterReceive_of_log_singleton i hm buffer rfl⟩
  | hold n hm hq => exact Or.inl ⟨rfl, abs_afterReceive_of_log_nil i m buffer rfl⟩

theorem Inv.afterReceive (h : g.Inv) {i : Fin maxGroupSize} {m : Msg (Fin maxGroupSize)}
    {d : Delivery} (hd : Receipt g (g.client i) m d) (buffer : Text) :
    (g.afterReceive i m buffer d).Inv := by
  have habs : ∀ m', CausalBroadcast.stamp (g.afterReceive i m buffer d).abs m' =
      CausalBroadcast.stamp g.abs m' := by
    intro m'
    rcases h.abs_receive hd buffer with ⟨-, heq⟩ | ⟨n, -, -, -, -, heq⟩
    · rw [heq]
    · rw [heq, stamp_deliver]
  have hreceived : ∀ i', g.received i' ⊆ (g.afterReceive i m buffer d).received i' := by
    intro i' x hx
    by_cases hi : i' = i
    · subst hi
      simp [Group.afterReceive, hx]
    · simpa [Group.afterReceive, hi] using hx
  refine ⟨?_, ?_, ?_, h.uniform, h.clk, ?_, ?_, ?_⟩
  · intro i'
    by_cases hi : i' = i
    · rw [hi, client_afterReceive_self]
      exact h.clkIndex i
    · rw [client_afterReceive_ne hi]
      exact h.clkIndex i'
  · intro i'
    by_cases hi : i' = i
    · rw [hi, client_afterReceive_self]
      exact h.sendSeq i
    · rw [client_afterReceive_ne hi]
      exact h.sendSeq i'
  · intro i' k
    by_cases hi : i' = i
    · rw [hi, abs_log, client_afterReceive_self]
      simp only [Client.deliver, List.map_append, count_append, Nat.cast_add, ← abs_log,
        ← h.delivered]
      cases hd with
      | rejected hm => simp
      | hold n hm hq => simp
      | deliver n hm hq hr =>
          simp only [List.map_cons, List.map_nil, h.msgId_eq hm, count_singleton]
          by_cases hk : k = m.1
          · rw [hk, Function.update_self, if_pos rfl]
            rfl
          · rw [Function.update_of_ne hk, if_neg (Ne.symm hk)]
            simp
    · rw [abs_log, client_afterReceive_ne hi]
      exact h.delivered i' k
  · intro m' n hn i'
    rw [habs]
    exact h.stamp m' n hn i'
  · intro i' n hn
    by_cases hi : i' = i
    · rw [hi, client_afterReceive_self] at hn
      rcases List.mem_append.mp hn with hn | hn
      · obtain ⟨m', hm', hn'⟩ := h.log_sent i n hn
        exact ⟨m', hreceived i' (by rwa [hi]), hn'⟩
      · rcases h.abs_receive hd buffer with ⟨hlog, -⟩ | ⟨n', hm, -, -, hlog, -⟩
        · simp [hlog] at hn
        · have heq : n = n' := by simpa [hlog] using hn
          exact ⟨m, by simp [Group.afterReceive, hi], by rw [heq]; exact hm⟩
    · rw [client_afterReceive_ne hi] at hn
      obtain ⟨m', hm', hn'⟩ := h.log_sent i' n hn
      exact ⟨m', hreceived i' hm', hn'⟩
  · intro i'
    by_cases hi : i' = i
    · rw [hi, client_afterReceive_self]
      exact hd.blocked (h.blocked i)
    · rw [client_afterReceive_ne hi]
      exact h.blocked i'

/-! ## All steps -/

/-- Other traffic touches only the buffer. -/
theorem Inv.overwrite (h : g.Inv) {i : Fin maxGroupSize} {buffer : Text}
    (hstep : g.step (.overwrite i buffer) = some g') : g'.Inv ∧ g'.abs = g.abs := by
  simp only [Group.step, Option.some.injEq] at hstep
  have hclient : ∀ i', (g'.client i').delivered = (g.client i').delivered ∧
      (g'.client i').log = (g.client i').log ∧ (g'.client i').clkIndex = (g.client i').clkIndex ∧
      (g'.client i').bufferHead = (g.client i').bufferHead ∧
      (g'.client i').sendSeq = (g.client i').sendSeq := by
    intro i'
    subst hstep
    by_cases hi : i' = i
    · subst hi
      simp
    · simp [hi]
  have hsent : g'.sent = g.sent := by rw [← hstep]
  have hreceived : g'.received = g.received := by rw [← hstep]
  have habs : g'.abs = g.abs := by
    funext i'
    simp only [abs, (hclient i').2.1, hsent]
  have hmessage : g'.message = g.message := by
    funext m
    simp only [message, sentMessage, hsent]
  refine ⟨⟨?_, ?_, ?_, ?_, ?_, ?_, ?_, ?_⟩, habs⟩
  · intro i'; rw [(hclient i').2.2.1, h.clkIndex]
  · intro i'; rw [(hclient i').2.2.2.2, hsent, h.sendSeq]
  · intro i' j; rw [(hclient i').1, habs, h.delivered]
  · intro m r hr; exact h.uniform m r (by simpa only [sentMessage, hsent] using hr)
  · intro m n hn; exact h.clk m n (by rwa [← hmessage])
  · intro m n hn k; rw [habs]; exact h.stamp m n (by rwa [← hmessage]) k
  · intro i' n hn
    rw [hreceived, hmessage]
    exact h.log_sent i' n (by rwa [← (hclient i').2.1])
  · intro i'; rw [(hclient i').1, (hclient i').2.2.2.1]; exact h.blocked i'

/-- **Every step keeps the invariant**, whatever the network does. -/
theorem Inv.step (h : g.Inv) (a : GroupAction) (hstep : g.step a = some g') : g'.Inv := by
  cases a with
  | multicast j userInput =>
      obtain ⟨hl, hf, rfl⟩ := step_multicast hstep
      exact h.afterMulticast hl hf
  | receive i m stale =>
      obtain ⟨buffer, d, hd, rfl⟩ := h.step_receive hstep
      exact h.afterReceive hd buffer
  | overwrite i buffer => exact (h.overwrite hstep).1

/-- The receipt delivers a message that the client has delivered before: its queue
is empty, and the message is in its log. -/
def Redelivers (g : Group) : GroupAction → Prop
  | .receive i m _ => (g.client i).bufferHead = [] ∧ ∃ n ∈ (g.client i).log, g.message m = some n
  | _ => False

/-- **A step that delivers nothing a second time refines the abstract protocol.** -/
theorem Inv.abs_step (h : g.Inv) {a : GroupAction} (hstep : g.step a = some g')
    (hfresh : ¬ g.Redelivers a) : g'.abs = g.abs ∨ CausalBroadcast.Step g.abs g'.abs := by
  cases a with
  | multicast j userInput =>
      obtain ⟨-, -, rfl⟩ := step_multicast hstep
      rw [abs_afterMulticast]
      exact Or.inr (Step.send g.abs j)
  | receive i m stale =>
      obtain ⟨buffer, d, hd, rfl⟩ := h.step_receive hstep
      rcases h.abs_receive hd buffer with ⟨-, heq⟩ | ⟨n, hm, hq, hr, -, heq⟩
      · exact Or.inl heq
      · rw [heq]
        refine Or.inr (Step.deliver g.abs i m ⟨by simpa using lt_of_message hm, ?_, ?_⟩)
        · intro hmem
          obtain ⟨n', hn', hm'⟩ := (h.mem_abs_log fun n hn => hn).mp hmem
          exact hfresh ⟨hq, n', hn', hm'⟩
        · intro k
          have hk : n.dependency k ≤ (g.client i).delivered k := hr k
          rw [h.stamp m n hm, h.delivered] at hk
          exact Int.ofNat_le.mp hk
  | overwrite i buffer => exact Or.inl (h.overwrite hstep).2

end Group
end ChatRing
