import ChatRing.Client.Causality

/-!
# Delivery and the order of arrival

One client receives messages of a group, each receipt through
`handle_group_receive`.  A message that cannot be delivered when it arrives stays at
the head of the queue: later messages are queued behind it, the loop returns at the
head, and nothing raises `DELIVERED` any more.  So everything is delivered exactly
when every message arrives after the messages its vector counts.

## Main results

* `Group.deliversAll_iff` — everything is delivered iff the arrival order respects
  the vectors.
-/

namespace ChatRing
open CText CausalBroadcast

namespace Group
variable {g : Group}

/-- Receiving a message of the group; the clock is what the receiver's stack held. -/
def receiveStep (g : Group) (c : Client) (a : Msg (Fin maxGroupSize) × Clock) : Option Client :=
  (g.sentMessage a.1).bind fun r => (c.receive a.2 (.datagram r.datagram)).toOption

/-- A client before its first receipt. -/
structure Fresh (c : Client) : Prop where
  delivered : c.delivered = 0
  bufferHead : c.bufferHead = []
  log : c.log = []

/-- After the last receipt everything was delivered and nothing is held back, and
after no receipt a message is left in the queue that could be delivered. -/
structure DeliversAll (g : Group) (h : List (Client × Msg (Fin maxGroupSize) × Clock))
    (c : Client) : Prop where
  queue_empty : c.bufferHead = []
  delivered : ∀ x a, (x, a) ∈ h → ∃ n ∈ c.log, g.message a.1 = some n
  none_ready : ∀ x ∈ Run.states h c, ∀ n ∈ x.bufferHead, ¬ n.dependency ≤ x.delivered

/-- How many messages of client `j` the arrivals contain. -/
def arrivals (order : List (Msg (Fin maxGroupSize) × Clock)) (j : Fin maxGroupSize) : ℕ :=
  count (order.map Prod.fst) j

/-- Every message arrives after as many messages of each client as its vector counts. -/
def OrderRespects (g : Group) (order : List (Msg (Fin maxGroupSize) × Clock)) : Prop :=
  ∀ l₁ a l₂ n, order = l₁ ++ a :: l₂ → g.message a.1 = some n →
    ∀ j, n.dependency j ≤ arrivals l₁ j

theorem orderRespects_nil (g : Group) : g.OrderRespects [] := by
  intro l₁ a l₂ n h
  simp at h

theorem orderRespects_concat {l : List (Msg (Fin maxGroupSize) × Clock)}
    {a : Msg (Fin maxGroupSize) × Clock} {n : HoldBackQueue} (hn : g.message a.1 = some n) :
    g.OrderRespects (l ++ [a]) ↔ g.OrderRespects l ∧ ∀ j, n.dependency j ≤ arrivals l j := by
  constructor
  · intro h
    constructor
    · intro l₁ b l₂ n' hl
      exact h l₁ b (l₂ ++ [a]) n' (by simp [hl])
    · exact h l a [] n rfl hn
  · rintro ⟨hl, ha⟩ l₁ b l₂ n' heq hn'
    rcases List.eq_nil_or_concat l₂ with rfl | ⟨l₂, x, rfl⟩
    · obtain ⟨rfl, hb⟩ := List.append_inj' heq rfl
      cases hb
      rw [hn] at hn'
      cases hn'
      exact ha
    · have heq' : l ++ [a] = (l₁ ++ b :: l₂) ++ [x] := by simpa using heq
      exact hl l₁ b l₂ n' (List.append_inj' heq' rfl).1 hn'

/-- What a client has done with the arrivals so far: delivered all of them, or got
stuck on the first that came too early. -/
structure Progress (g : Group) (h : List (Client × Msg (Fin maxGroupSize) × Clock))
    (c : Client) : Prop where
  blocked : Blocked c.bufferHead c.delivered
  empty : g.OrderRespects (h.map Prod.snd) → ∀ x ∈ Run.states h c, x.bufferHead = []
  delivered : g.OrderRespects (h.map Prod.snd) →
    ∀ j, c.delivered j = arrivals (h.map Prod.snd) j
  log : g.OrderRespects (h.map Prod.snd) →
    c.log.map some = (h.map Prod.snd).map fun a => g.message a.1
  stuck : ¬ g.OrderRespects (h.map Prod.snd) → c.bufferHead ≠ []

theorem Fresh.progress {c : Client} (hc : Fresh c) : Progress g [] c where
  blocked := by rw [hc.bufferHead]; exact blocked_nil _
  empty := by intro _ x hx; rw [List.mem_singleton.mp hx, hc.bufferHead]
  delivered := by intro _ j; rw [hc.delivered]; rfl
  log := by intro _; rw [hc.log]; rfl
  stuck := by intro h; exact absurd (orderRespects_nil g) h

/-- **One more arrival.** -/
theorem Progress.step (hg : g.Inv) {h : List (Client × Msg (Fin maxGroupSize) × Clock)}
    {c : Client} (hp : Progress g h c) (a : Msg (Fin maxGroupSize) × Clock) {n : HoldBackQueue}
    (hn : g.message a.1 = some n) :
    ∃ c', g.receiveStep c a = some c' ∧ Progress g (h ++ [(c, a)]) c' := by
  obtain ⟨r, hr, -⟩ := Option.bind_eq_some_iff.mp hn
  obtain ⟨buffer, d, hd, hreceipt⟩ := hg.receive hp.blocked hr a.2
  refine ⟨c.deliver buffer d, by simp [receiveStep, hr, hd, Except.toOption], ?_⟩
  have hsnd : (h ++ [(c, a)]).map Prod.snd = h.map Prod.snd ++ [a] := by simp
  have hrespects := orderRespects_concat (l := h.map Prod.snd) hn
  have hblocked : Blocked d.head d.delivered := hreceipt.blocked hp.blocked
  cases hreceipt with
  | rejected hm => rw [hn] at hm; cases hm
  | deliver n' hm hq hready =>
      rw [hn] at hm
      cases hm
      have hall : g.OrderRespects (h.map Prod.snd) := by
        by_contra hnot
        exact hp.stuck hnot hq
      have hle : ∀ j, n.dependency j ≤ arrivals (h.map Prod.snd) j := by
        intro j
        rw [← hp.delivered hall]
        exact hready j
      refine ⟨hblocked, ?_, ?_, ?_, ?_⟩
      · intro _ x hx
        rw [Run.mem_states] at hx
        rcases hx with ⟨b, hb⟩ | rfl
        · refine hp.empty hall x (Run.mem_states.mpr ?_)
          rcases List.mem_append.mp hb with hb | hb
          · exact Or.inl ⟨b, hb⟩
          · exact Or.inr (Prod.mk.inj (List.mem_singleton.mp hb)).1
        · rfl
      · intro _ j
        rw [hsnd, arrivals, List.map_append, count_append]
        show Function.update c.delivered a.1.1 (c.delivered a.1.1 + 1) j = _
        have hj := hp.delivered hall j
        simp only [List.map_cons, List.map_nil, count_singleton]
        by_cases heq : j = a.1.1
        · subst heq
          rw [Function.update_self, if_pos rfl, hj]
          rfl
        · rw [Function.update_of_ne heq, if_neg (Ne.symm heq), hj]
          rfl
      · intro _
        rw [hsnd, List.map_append, ← hp.log hall]
        simp [Client.deliver, hn]
      · intro hnot
        rw [hsnd] at hnot
        exact absurd (hrespects.mpr ⟨hall, hle⟩) hnot
  | hold n' hm hnot =>
      rw [hn] at hm
      cases hm
      -- a message that is held back came too early, or stands behind one that did
      have hearly : ¬ g.OrderRespects ((h ++ [(c, a)]).map Prod.snd) := by
        rw [hsnd, hrespects]
        rintro ⟨hall, hle⟩
        have hempty : c.bufferHead = [] := hp.empty hall c (Run.last_mem_states h c)
        refine hnot hempty fun j => ?_
        rw [hp.delivered hall]
        exact hle j
      refine ⟨hblocked, fun hr => absurd hr hearly, fun hr => absurd hr hearly,
        fun hr => absurd hr hearly, fun _ => ?_⟩
      simp [Client.deliver]

/-- **Everything is delivered exactly when the arrival order respects the vectors.**
Every order of arrivals is received without a fault. -/
theorem deliversAll_iff (selfId : Fin maxGroupSize → ℤ) {h₀ : List (Group × GroupAction)}
    (run : Run step (initial selfId) h₀ g) {c₀ : Client} (hc₀ : Fresh c₀)
    (order : List (Msg (Fin maxGroupSize) × Clock))
    (hwf : ∀ a ∈ order, ∃ n, g.message a.1 = some n) :
    ∃ h c, Run g.receiveStep c₀ h c ∧ h.map Prod.snd = order ∧
      (DeliversAll g h c ↔ g.OrderRespects order) := by
  have hg : g.Inv := run.invariant (inv_initial selfId) fun x a y hx hstep => hx.step a hstep
  have hprogress : ∃ h c, Run g.receiveStep c₀ h c ∧ h.map Prod.snd = order ∧
      Progress g h c := by
    induction order using List.reverseRecOn with
    | nil => exact ⟨[], c₀, .nil, rfl, hc₀.progress⟩
    | append_singleton l a ih =>
        obtain ⟨h, c, hrun, hl, hp⟩ := ih fun b hb => hwf b (List.mem_append_left _ hb)
        obtain ⟨n, hn⟩ := hwf a (by simp)
        obtain ⟨c', hstep, hp'⟩ := hp.step hg a hn
        exact ⟨h ++ [(c, a)], c', hrun.snoc hstep, by simp [hl], hp'⟩
  obtain ⟨h, c, hrun, rfl, hp⟩ := hprogress
  refine ⟨h, c, hrun, rfl, ?_⟩
  constructor
  · intro hall
    by_contra hnot
    exact hp.stuck hnot hall.queue_empty
  · intro hrespects
    refine ⟨hp.empty hrespects c (Run.last_mem_states h c), ?_, ?_⟩
    · intro x a hmem
      obtain ⟨n, hn⟩ := hwf a (List.mem_map.mpr ⟨(x, a), hmem, rfl⟩)
      have hsome : some n ∈ c.log.map some := by
        rw [hp.log hrespects, List.mem_map]
        exact ⟨a, List.mem_map.mpr ⟨(x, a), hmem, rfl⟩, hn⟩
      exact ⟨n, by simpa using hsome, hn⟩
    · intro x hx n hn
      rw [hp.empty hrespects x hx] at hn
      cases hn

/-! ## Two messages in the wrong order -/

private def twoLines : List GroupAction := [.multicast 0 (text "hi\n"), .multicast 0 (text "ho\n")]

private def twoLinesEnd : Group := (exec step (initial 0) twoLines).get (by decide +kernel)

private def newcomer : Client := (initial 0).client 1

private def swapped : List (Msg (Fin maxGroupSize) × Clock) := [((0, 1), 0), ((0, 0), 0)]

private def swappedEnd : Client :=
  (exec twoLinesEnd.receiveStep newcomer swapped).get (by decide +kernel)

private theorem run_twoLines :
    Run step (initial 0) (trace step (initial 0) twoLines) twoLinesEnd :=
  Run.of_exec (Option.some_get _).symm

/-- Client 1 receives both messages of client 0, the later one first.  It delivers
neither, although the earlier one depends on nothing. -/
theorem swapped_pair_stays_queued :
    Run step (initial 0) (trace step (initial 0) twoLines) twoLinesEnd ∧ Fresh newcomer ∧
      (∀ a ∈ swapped, (twoLinesEnd.message a.1).isSome) ∧
      Run twoLinesEnd.receiveStep newcomer
        (trace twoLinesEnd.receiveStep newcomer swapped) swappedEnd ∧
      swappedEnd.log = [] ∧
      (∃ n ∈ swappedEnd.bufferHead, n.dependency ≤ swappedEnd.delivered) ∧
      ¬ DeliversAll twoLinesEnd (trace twoLinesEnd.receiveStep newcomer swapped) swappedEnd := by
  have hends : (∀ a ∈ swapped, (twoLinesEnd.message a.1).isSome) ∧ swappedEnd.log = [] ∧
      (∃ n ∈ swappedEnd.bufferHead, ∀ j, n.dependency j ≤ swappedEnd.delivered j) ∧
      swappedEnd.bufferHead ≠ [] := by
    decide +kernel
  obtain ⟨hsent, hlog, hready, hqueue⟩ := hends
  exact ⟨run_twoLines, ⟨rfl, rfl, rfl⟩, hsent, Run.of_exec (Option.some_get _).symm, hlog, hready,
    fun hall => hqueue hall.queue_empty⟩

theorem deliversAll_iff_in_order :
    ∃ h c, Run twoLinesEnd.receiveStep newcomer h c ∧
      h.map Prod.snd = [((0, 0), 0), ((0, 1), 0)] ∧
      (DeliversAll twoLinesEnd h c ↔ twoLinesEnd.OrderRespects [((0, 0), 0), ((0, 1), 0)]) := by
  refine deliversAll_iff 0 run_twoLines ⟨rfl, rfl, rfl⟩ _ ?_
  intro a ha
  have hsome : ∀ a ∈ [((0, 0), 0), ((0, 1), (0 : Clock))],
      (twoLinesEnd.message a.1).isSome := by decide +kernel
  exact Option.isSome_iff_exists.mp (hsome a ha)

end Group
end ChatRing
