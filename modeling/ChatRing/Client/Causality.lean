import ChatRing.Client.Refinement

/-!
# Causal delivery, and what a duplicated datagram does

A run in which no client receives a message twice is a run of the abstract protocol,
so delivery is FIFO from every sender and respects the causal order.  A datagram
that arrives again at a client with an empty queue, after it was delivered there, is
delivered again: its vector is still below `DELIVERED`.

## Main results

* `Group.causal_delivery` — FIFO and causal order, when nothing is received twice.
* `Group.at_most_once_iff` — every message is delivered at most once iff no step of
  the run redelivers.
-/

namespace ChatRing
open CText CausalBroadcast

namespace Group
variable {g g' : Group}

/-- No step of a run redelivers, so both levels keep their invariants. -/
structure Faithful (g : Group) : Prop where
  inv : g.Inv
  abs_inv : CausalBroadcast.Inv g.abs

theorem faithful_initial (selfId : Fin maxGroupSize → ℤ) : (initial selfId).Faithful :=
  ⟨inv_initial selfId, inv_abs_initial selfId⟩

theorem Faithful.step (h : g.Faithful) {a : GroupAction} (hfresh : ¬ g.Redelivers a)
    (hstep : g.step a = some g') : g'.Faithful := by
  refine ⟨h.inv.step a hstep, ?_⟩
  rcases h.inv.abs_step hstep hfresh with heq | habs
  · rw [heq]
    exact h.abs_inv
  · exact h.abs_inv.step habs

/-! ## Causal delivery -/

/-- The client has not received this message before. -/
def FirstReceipt (g : Group) : GroupAction → Prop
  | .receive i m _ => m ∉ g.received i
  | _ => True

instance (g : Group) : (a : GroupAction) → Decidable (g.FirstReceipt a)
  | .receive i m _ => inferInstanceAs (Decidable (m ∉ g.received i))
  | .multicast _ _ => isTrue trivial
  | .overwrite _ _ => isTrue trivial

/-- What was delivered was received, so a first receipt redelivers nothing. -/
theorem Inv.not_redelivers (h : g.Inv) {a : GroupAction} (hfirst : g.FirstReceipt a) :
    ¬ g.Redelivers a := by
  cases a with
  | multicast j userInput => exact id
  | overwrite i buffer => exact id
  | receive i m stale =>
      rintro ⟨-, n, hn, hm⟩
      obtain ⟨m', hm', hn'⟩ := h.log_sent i n hn
      rw [h.message_injective hm hn'] at hfirst
      exact hfirst hm'

/-- `m₁` was sent earlier by the same client, or delivered by the sender of `m₂`
before it sent `m₂`. -/
def DirectlyBefore (g : Group) (m₁ m₂ : Msg (Fin maxGroupSize)) : Prop :=
  (m₁.1 = m₂.1 ∧ m₁.2 < m₂.2) ∨
    ∃ r n, g.sentMessage m₂ = some r ∧ g.message m₁ = some n ∧ n ∈ r.seen

/-- Lamport's happened-before on the messages of the group. -/
def HappensBefore (g : Group) : Msg (Fin maxGroupSize) → Msg (Fin maxGroupSize) → Prop :=
  Relation.TransGen g.DirectlyBefore

theorem Inv.happensBefore_abs (h : g.Inv) {m₁ m₂ : Msg (Fin maxGroupSize)}
    (hb : g.HappensBefore m₁ m₂) : CausalBroadcast.HappensBefore g.abs m₁ m₂ := by
  have hdirect : g.DirectlyBefore ≤ CausalBroadcast.DirectlyBefore g.abs := by
    rintro a b (hab | ⟨r, n, hr, hn, hseen⟩)
    · exact Or.inl hab
    · have hpast : (g.abs b.1).past[b.2]? = some (r.seen.map msgId) := by
        have hsent : (g.sent b.1)[b.2]? = some r := hr
        rw [abs_past, List.getElem?_map, hsent]
        rfl
      refine Or.inr ?_
      rw [List.getD_eq_getElem?_getD, hpast, Option.getD_some]
      exact List.mem_map.mpr ⟨n, hseen, h.msgId_eq hn⟩
  exact Relation.TransGen.mono hdirect m₁ m₂ hb

/-- Every delivered node is the message it names. -/
theorem Inv.message_msgId (h : g.Inv) {i : Fin maxGroupSize} {n : HoldBackQueue}
    (hn : n ∈ (g.client i).log) : g.message (msgId n) = some n := by
  obtain ⟨m, -, hm⟩ := h.log_sent i n hn
  rwa [h.msgId_eq hm]

/-- The messages of client `j` that client `i` delivered, in its order of delivery. -/
def deliveredFrom (g : Group) (i j : Fin maxGroupSize) : List HoldBackQueue :=
  (g.client i).log.filter fun n => n.clkIndex = ((j : ℕ) : ℤ)

/-- The deliveries from one sender, as messages of that sender. -/
theorem Faithful.deliveredFrom_eq (h : g.Faithful) (i j : Fin maxGroupSize) :
    (g.deliveredFrom i j).map some =
      (List.range (count (g.abs i).log j)).map fun k => g.message (j, k) := by
  have hsender : ∀ n ∈ (g.client i).log, (n.clkIndex = ((j : ℕ) : ℤ) ↔ (msgId n).1 = j) := by
    intro n hn
    rw [h.inv.clk _ n (h.inv.message_msgId hn)]
    omega
  have hfilter : g.deliveredFrom i j =
      (g.client i).log.filter (fun n => (msgId n).1 = j) := by
    apply List.filter_congr
    intro n hn
    exact decide_eq_decide.mpr (hsender n hn)
  have hsome : ((g.client i).log.filter fun n => (msgId n).1 = j).map some =
      (((g.client i).log.filter fun n => (msgId n).1 = j).map msgId).map g.message := by
    rw [List.map_map]
    apply List.map_congr_left
    intro n hn
    exact (h.inv.message_msgId (List.mem_of_mem_filter hn)).symm
  have hfifo : (((g.client i).log.filter fun n => (msgId n).1 = j).map msgId) =
      (List.range (count (g.abs i).log j)).map (Prod.mk j) := by
    rw [← h.abs_inv.fifo i j, abs_log, List.filter_map]
    rfl
  rw [hfilter, hsome, hfifo, List.map_map]
  rfl

/-- **Causal delivery.**  In a run in which no client receives a message twice, every
client has delivered from each sender the first `DELIVERED[j]` messages in sending
order, and before a message everything that happened before it. -/
theorem causal_delivery (selfId : Fin maxGroupSize → ℤ) {h : List (Group × GroupAction)}
    (run : Run step (initial selfId) h g) (hfirst : ∀ x a, (x, a) ∈ h → x.FirstReceipt a)
    (i : Fin maxGroupSize) :
    (∀ j, ∃ d : ℕ, (g.client i).delivered j = d ∧ d ≤ (g.sent j).length ∧
      (g.deliveredFrom i j).map some = (List.range d).map fun k => g.message (j, k)) ∧
    ∀ m₁ m₂ n₂ l₁ l₂, g.HappensBefore m₁ m₂ → g.message m₂ = some n₂ →
      (g.client i).log = l₁ ++ n₂ :: l₂ → ∃ n₁ ∈ l₁, g.message m₁ = some n₁ := by
  have hg : g.Faithful := by
    refine run.guarded (faithful_initial selfId) ?_ hfirst
    intro x a y hx ha hstep
    exact hx.step (hx.inv.not_redelivers ha) hstep
  constructor
  · intro j
    refine ⟨count (g.abs i).log j, hg.inv.delivered i j, ?_, hg.deliveredFrom_eq i j⟩
    simpa using hg.abs_inv.count_le i j
  · intro m₁ m₂ n₂ l₁ l₂ hb hm₂ hlog
    have hlog' : (g.abs i).log = l₁.map msgId ++ m₂ :: l₂.map msgId := by
      rw [abs_log, hlog, List.map_append, List.map_cons, hg.inv.msgId_eq hm₂]
    have hmem := hg.abs_inv.mem_of_happensBefore (hg.inv.happensBefore_abs hb) hlog'
    have hsub : ∀ n ∈ l₁, n ∈ (g.client i).log := by
      intro n hn
      rw [hlog]
      exact List.mem_append_left _ hn
    exact (hg.inv.mem_abs_log hsub).mp hmem

/-- Client 0 asks, client 1 answers, and client 2 receives the question first. -/
private def conversation : List GroupAction :=
  [.multicast 0 (text "hi\n"), .receive 1 (0, 0) 0, .multicast 1 (text "yes\n"),
    .receive 2 (0, 0) 0, .receive 2 (1, 0) 0]

private def conversationEnd : Group :=
  (exec step (initial 0) conversation).get (by decide +kernel)

private theorem run_conversation :
    Run step (initial 0) (trace step (initial 0) conversation) conversationEnd :=
  Run.of_exec (Option.some_get _).symm

/-- The conversation is a run of first receipts, and client 2 delivers both. -/
theorem causal_delivery_conversation :
    (conversationEnd.client 2).log.length = 2 ∧
      ∀ j, ∃ d : ℕ, (conversationEnd.client 2).delivered j = d ∧
        d ≤ (conversationEnd.sent j).length ∧ (conversationEnd.deliveredFrom 2 j).map some =
          (List.range d).map fun k => conversationEnd.message (j, k) := by
  have hfirst : ∀ p ∈ trace step (initial 0) conversation, p.1.FirstReceipt p.2 := by
    decide +kernel
  refine ⟨by decide +kernel, ?_⟩
  exact (causal_delivery 0 run_conversation (fun x a hmem => hfirst (x, a) hmem) 2).1

/-! ## Duplicated datagrams -/

/-- Every client delivers each message at most once, and no more messages of a
client than it has sent. -/
def AtMostOnce (g : Group) : Prop :=
  ∀ i, (g.client i).log.Nodup ∧ ∀ j, (g.client i).delivered j ≤ (g.sent j).length

instance (g : Group) : Decidable g.AtMostOnce :=
  inferInstanceAs (Decidable (∀ i, (g.client i).log.Nodup ∧
    ∀ j, (g.client i).delivered j ≤ (g.sent j).length))

theorem Faithful.atMostOnce (h : g.Faithful) : g.AtMostOnce := by
  intro i
  constructor
  · exact ((h.abs_inv.fifo i).nodup).of_map msgId
  · intro j
    rw [h.inv.delivered i j]
    have hle := h.abs_inv.count_le i j
    rw [abs_past, List.length_map] at hle
    exact Int.ofNat_le.mpr hle

/-- A message delivered before is below `DELIVERED` for ever, so the receipt
delivers it again. -/
theorem Faithful.not_atMostOnce_of_redelivers (h : g.Faithful) {a : GroupAction}
    (hre : g.Redelivers a) (hstep : g.step a = some g') : ¬ g'.AtMostOnce := by
  cases a with
  | multicast j userInput => exact hre.elim
  | overwrite i buffer => exact hre.elim
  | receive i m stale =>
      obtain ⟨hq, n, hn, hm⟩ := hre
      have hready : n.dependency ≤ (g.client i).delivered := by
        intro k
        have hmem : m ∈ (g.abs i).log := by
          rw [abs_log, ← h.inv.msgId_eq hm]
          exact List.mem_map_of_mem hn
        rw [h.inv.stamp m n hm, h.inv.delivered]
        exact Int.ofNat_le.mpr (h.abs_inv.stamp_le_of_mem hmem k)
      obtain ⟨buffer, d, hd, rfl⟩ := h.inv.step_receive hstep
      intro hall
      have hnodup := (hall i).1
      rw [client_afterReceive_self] at hnodup
      have hdlog : d.log = [n] := by
        cases hd with
        | rejected hm' => rw [hm] at hm'; cases hm'
        | deliver n' hm' => rw [hm] at hm'; cases hm'; rfl
        | hold n' hm' hnot => rw [hm] at hm'; cases hm'; exact absurd hready (hnot hq)
      have hdisj := (List.nodup_append'.mp hnodup).2.2
      exact hdisj hn (by simp [hdlog])

/-- **At-most-once delivery holds in every state of a run exactly when no step of the
run redelivers**: no client whose hold-back queue is empty receives again a message
it has delivered. -/
theorem at_most_once_iff (selfId : Fin maxGroupSize → ℤ) {h : List (Group × GroupAction)}
    (run : Run step (initial selfId) h g) :
    (∀ x ∈ Run.states h g, x.AtMostOnce) ↔ ∀ x a, (x, a) ∈ h → ¬ x.Redelivers a := by
  refine run.forall_states_iff (I := Faithful) (faithful_initial selfId) ?_ ?_ ?_
  · intro x hx
    exact hx.atMostOnce
  · intro x a y hx ha hstep
    exact hx.step ha hstep
  · intro x a y hx ha hstep
    exact hx.not_atMostOnce_of_redelivers (not_not.mp ha) hstep

/-- Client 1 receives the only message of client 0 twice. -/
private def duplicate : List GroupAction :=
  [.multicast 0 (text "hi\n"), .receive 1 (0, 0) 0, .receive 1 (0, 0) 0]

private def duplicateEnd : Group :=
  (exec step (initial 0) duplicate).get (by decide +kernel)

/-- It delivers the message twice and counts two messages of a client that sent one. -/
theorem duplicate_delivered_twice :
    Run step (initial 0) (trace step (initial 0) duplicate) duplicateEnd ∧
      (duplicateEnd.sent 0).length = 1 ∧ (duplicateEnd.client 1).delivered 0 = 2 ∧
      ¬ (duplicateEnd.client 1).log.Nodup ∧ ¬ duplicateEnd.AtMostOnce := by
  refine ⟨Run.of_exec (Option.some_get _).symm, ?_⟩
  decide +kernel

theorem at_most_once_iff_conversation :
    (∀ x ∈ Run.states (trace step (initial 0) conversation) conversationEnd, x.AtMostOnce) ∧
      ((∀ x ∈ Run.states (trace step (initial 0) conversation) conversationEnd, x.AtMostOnce) ↔
        ∀ x a, (x, a) ∈ trace step (initial 0) conversation → ¬ x.Redelivers a) :=
  ⟨by decide +kernel, at_most_once_iff 0 run_conversation⟩

end Group
end ChatRing
