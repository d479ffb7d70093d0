import ChatRing.Client.LateJoin

/-!
# A group in which a multicast may fail

The send path counts a message up before it calls `group_multicast`, and ignores the result
of the call.  A message that was never sent is therefore counted by the vector of every
later one.

## Main results

* `Group.failed_multicast_iff` — `SEND_SEQ` counts the messages sent iff no multicast fails,
  and then a client that receives in causal order delivers everything that is a group
  message.
-/

namespace ChatRing
open CText CausalBroadcast

/-- What happens in a group whose multicasts may fail. -/
inductive CastAction
  /-- A step of the group; a multicast succeeds. -/
  | group (a : GroupAction)
  /-- Client `j` types a line, and `group_multicast` returns an error. -/
  | failed (j : Fin maxGroupSize) (userInput : Text)

/-- The call of `group_multicast`, if there is one, sends the message. -/
def CastAction.Succeeds : CastAction → Prop
  | .group _ => True
  | .failed _ _ => False

namespace Group
variable {g x y : Group} {i : Fin maxGroupSize} {m : Msg (Fin maxGroupSize)} {stale : Clock}
  {h : List (Group × CastAction)}

/-- The sender's state advances, and nothing is sent. -/
def afterFailed (g : Group) (j : Fin maxGroupSize) (userInput : Text) : Group :=
  { g with client := Function.update g.client j ((g.client j).multicast userInput) }

def castStep (g : Group) : CastAction → Option Group
  | .group a => g.step a
  | .failed j userInput =>
      if PromptLine userInput ∧ (g.client j).Fits userInput then some (g.afterFailed j userInput)
      else none

/-- `SEND_SEQ` is the number of messages sent, at every client. -/
def CountsSent (x : Group) : Prop := ∀ j, (x.client j).sendSeq = (x.sent j).length

/-- Client `i` receives `m` for the first time, after all that happened before it. -/
structure InOrder (x : Group) (i : Fin maxGroupSize) (m : Msg (Fin maxGroupSize)) : Prop where
  first : m ∉ x.received i
  causal : ∀ m', x.HappensBefore m' m → m' ∈ x.received i

/-- All receipts of client `i` in a run satisfy a property. -/
def Receipts (h : List (Group × CastAction)) (i : Fin maxGroupSize)
    (P : Group → Msg (Fin maxGroupSize) → Clock → Prop) : Prop :=
  ∀ x m stale, (x, .group (.receive i m stale)) ∈ h → P x m stale

theorem receipts_iff {P : Group → Msg (Fin maxGroupSize) → Clock → Prop} :
    Receipts h i P ↔
      ∀ x a, (x, a) ∈ h → ∀ m stale, a = .group (.receive i m stale) → P x m stale := by
  constructor
  · rintro hall x a hmem m stale rfl
    exact hall x m stale hmem
  · intro hall x m stale hmem
    exact hall x _ hmem m stale rfl

/-! ## The counter -/

theorem Inv.countsSent (h : x.Inv) : x.CountsSent := h.sendSeq

/-- A failed multicast is counted. -/
theorem Inv.not_countsSent_afterFailed (h : x.Inv) (j : Fin maxGroupSize) (userInput : Text) :
    ¬ (x.afterFailed j userInput).CountsSent := by
  intro hcount
  have hj : (x.client j).sendSeq + 1 = (x.sent j).length := by
    simpa [afterFailed, Client.multicast] using hcount j
  have := h.sendSeq j
  omega

theorem castStep_failed {j : Fin maxGroupSize} {userInput : Text} (hl : PromptLine userInput)
    (hf : (x.client j).Fits userInput) :
    x.castStep (.failed j userInput) = some (x.afterFailed j userInput) := by
  rw [castStep, if_pos ⟨hl, hf⟩]

theorem castStep_multicast {j : Fin maxGroupSize} {userInput : Text} (hl : PromptLine userInput)
    (hf : (x.client j).Fits userInput) :
    x.castStep (.group (.multicast j userInput)) = some (x.afterMulticast j userInput) := by
  rw [castStep, step]
  exact if_pos ⟨hl, hf⟩

theorem step_failed {j : Fin maxGroupSize} {userInput : Text}
    (hstep : x.castStep (.failed j userInput) = some y) : y = x.afterFailed j userInput := by
  simp only [castStep] at hstep
  split at hstep
  · exact (Option.some.inj hstep).symm
  · cases hstep

/-- **`SEND_SEQ` counts the messages sent exactly as long as no multicast fails.** -/
theorem countsSent_iff (selfId : Fin maxGroupSize → ℤ) (run : Run castStep (initial selfId) h g) :
    (∀ x ∈ Run.states h g, x.CountsSent) ↔ ∀ x a, (x, a) ∈ h → a.Succeeds := by
  refine run.forall_states_iff (I := Inv) (C := fun _ a => a.Succeeds) (inv_initial selfId) ?_ ?_ ?_
  · intro x hx
    exact hx.countsSent
  · intro x a y hx ha hstep
    cases a with
    | group a => exact hx.step a hstep
    | failed j userInput => exact absurd ha id
  · intro x a y hx ha hstep
    cases a with
    | group a => exact absurd trivial ha
    | failed j userInput =>
        rw [step_failed hstep]
        exact hx.not_countsSent_afterFailed j userInput

/-! ## Delivery on receipt -/

/-- From the beginning on, a group message that arrives in order counts only what was
received. -/
theorem InOrder.countsReceived (h : x.InOrder i m) (hx : x.Faithful) (hseen : x.SeenSent)
    {n : HoldBackQueue} (hn : x.message m = some n) : x.CountsReceived i m := by
  have hontime : OnTime (initial 0) x i m := ⟨Nat.zero_le _, h.first, fun m' hb _ => h.causal m' hb⟩
  exact hontime.countsReceived hx hseen ⟨n, hn, fun j hj => absurd rfl hj⟩

theorem upToDate_initial (selfId : Fin maxGroupSize → ℤ) (i : Fin maxGroupSize) :
    (initial selfId).UpToDate i := ⟨inv_initial selfId, rfl, fun _ => rfl⟩

theorem seenSent_initial (selfId : Fin maxGroupSize → ℤ) : (initial selfId).SeenSent := by
  intro m r n hr
  simp [sentMessage, initial] at hr

/-- **Without a failed multicast, a client that receives in causal order delivers on receipt
every message that scans.** -/
theorem deliveredAtOnce_iff (selfId : Fin maxGroupSize → ℤ)
    (run : Run castStep (initial selfId) h g)
    (hsucceeds : ∀ x a, (x, a) ∈ h → a.Succeeds)
    (hfirst : ∀ x a, (x, .group a) ∈ h → x.FirstReceipt a)
    (horder : Receipts h i fun x m _ => x.InOrder i m) :
    Receipts h i (fun x m stale => x.DeliveredAtOnce i m stale) ↔
      Receipts h i fun x m _ => ∃ n, x.message m = some n := by
  rw [receipts_iff] at horder ⊢
  rw [receipts_iff]
  refine run.forall_steps_iff (I := fun x => (x.Faithful ∧ x.SeenSent) ∧ x.UpToDate i)
    (B := fun x a => ∃ b, a = .group b ∧ x.FirstReceipt b ∧
      ∀ m stale, b = .receive i m stale → x.InOrder i m)
    ⟨⟨faithful_initial selfId, seenSent_initial selfId⟩, upToDate_initial selfId i⟩ ?_ ?_ ?_
  · intro x a hmem
    cases a with
    | failed j userInput => exact absurd (hsucceeds _ _ hmem) id
    | group a =>
        refine ⟨a, rfl, hfirst x a hmem, fun m stale heq => ?_⟩
        exact horder x _ hmem m stale (congrArg CastAction.group heq)
  · rintro x a y ⟨⟨hx, hseen⟩, hdate⟩ ⟨b, rfl, hb, hin⟩ hscan hstep
    refine ⟨⟨hx.step (hx.inv.not_redelivers hb) hstep, hseen.step hx.inv hstep⟩, ?_⟩
    refine hdate.step hstep fun m stale heq => ?_
    obtain ⟨n, hn⟩ := hscan m stale (congrArg CastAction.group heq)
    exact (hin m stale heq).countsReceived hx hseen hn
  · rintro x a y ⟨⟨hx, hseen⟩, hdate⟩ ⟨b, rfl, hb, hin⟩ hstep
    refine forall₂_congr fun m stale => forall_congr' fun heq => ?_
    cases heq
    rw [hdate.deliveredAtOnce_iff hstep]
    constructor
    · rintro ⟨n, hn, -⟩
      exact ⟨n, hn⟩
    · rintro ⟨n, hn⟩
      exact (hin m stale rfl).countsReceived hx hseen hn

/-- **A failed multicast is the only way for `SEND_SEQ` to leave the number of messages
sent**, and without one, where nobody receives a message twice, whoever receives in causal
order delivers on receipt what is a group message. -/
theorem failed_multicast_iff (selfId : Fin maxGroupSize → ℤ)
    (run : Run castStep (initial selfId) h g) :
    ((∀ x ∈ Run.states h g, x.CountsSent) ↔ ∀ x a, (x, a) ∈ h → a.Succeeds) ∧
      ((∀ x a, (x, a) ∈ h → a.Succeeds) → (∀ x a, (x, .group a) ∈ h → x.FirstReceipt a) →
        ∀ i, Receipts h i (fun x m _ => x.InOrder i m) →
          (Receipts h i (fun x m stale => x.DeliveredAtOnce i m stale) ↔
            Receipts h i fun x m _ => ∃ n, x.message m = some n)) :=
  ⟨countsSent_iff selfId run,
    fun hsucceeds hfirst _ horder => deliveredAtOnce_iff selfId run hsucceeds hfirst horder⟩

/-! ## One failed multicast before the first message -/

private def failedOnce : Group := (initial 0).afterFailed 0 (text "hi\n")

private def later : Group := failedOnce.afterMulticast 0 (text "ho\n")

private def held : Group := (step later (.receive 1 (0, 0) 0)).get (by decide +kernel)

private def heldSteps : List (Group × CastAction) :=
  [(initial 0, .failed 0 (text "hi\n")), (failedOnce, .group (.multicast 0 (text "ho\n"))),
    (later, .group (.receive 1 (0, 0) 0))]

private theorem run_held : Run castStep (initial 0) heldSteps held := by
  have hfailed : castStep (initial 0) (.failed 0 (text "hi\n")) = some failedOnce :=
    castStep_failed (by decide) (by decide +kernel)
  have hlater : castStep failedOnce (.group (.multicast 0 (text "ho\n"))) = some later :=
    castStep_multicast (by decide) (by decide +kernel)
  exact .cons hfailed (.cons hlater (.cons (Option.some_get _).symm .nil))

/-- Nothing happened before the only message. -/
private theorem not_happensBefore_later (m' : Msg (Fin maxGroupSize)) :
    ¬ later.HappensBefore m' (0, 0) := by
  intro hb
  obtain ⟨m'', -, hlt | ⟨r, n, hr, -, hn⟩⟩ := Relation.TransGen.tail'_iff.mp hb
  · exact absurd hlt.2 (Nat.not_lt_zero _)
  · cases hr
    cases hn

/-- The only message that was sent counts the one that was not: a client that receives it
holds it back. -/
theorem failed_multicast_blocks_next :
    Run castStep (initial 0) heldSteps held ∧ Receipts heldSteps 1 (fun x m _ => x.InOrder 1 m) ∧
      (held.client 0).sendSeq = 2 ∧ (held.sent 0).length = 1 ∧ ¬ held.CountsSent ∧
      (held.client 1).log = [] ∧ (held.client 1).bufferHead.length = 1 ∧
      ¬ later.DeliveredAtOnce 1 (0, 0) 0 := by
  have hend : (held.client 0).sendSeq = 2 ∧ (held.sent 0).length = 1 ∧
      (held.client 1).log = [] ∧ (held.client 1).bufferHead.length = 1 := by decide +kernel
  obtain ⟨hseq, hsent, hlog, hqueue⟩ := hend
  refine ⟨run_held, ?_, hseq, hsent, ?_, hlog, hqueue, ?_⟩
  · intro x m stale hmem
    obtain ⟨rfl, rfl⟩ : x = later ∧ m = (0, 0) := by
      simp only [heldSteps, List.mem_cons, Prod.mk.injEq, CastAction.group.injEq,
        GroupAction.receive.injEq, reduceCtorEq, and_false, false_or, List.not_mem_nil,
        or_false] at hmem
      exact ⟨hmem.1, hmem.2.2.1⟩
    exact ⟨List.not_mem_nil, fun m' hb => absurd hb (not_happensBefore_later m')⟩
  · intro hcount
    have hzero := hcount 0
    rw [hseq, hsent] at hzero
    omega
  · rintro ⟨y, n, hy, -, hlog'⟩
    have hheld : step later (.receive 1 (0, 0) 0) = some held := (Option.some_get _).symm
    rw [Option.some.inj (hy.symm.trans hheld), hlog] at hlog'
    exact absurd hlog'.symm (by simp)

/-! ## A multicast that succeeds -/

private def greeted : Group := (initial 0).afterMulticast 0 (text "ho\n")

private def greetedEnd : Group := (step greeted (.receive 1 (0, 0) 0)).get (by decide +kernel)

private def greetedSteps : List (Group × CastAction) :=
  [(initial 0, .group (.multicast 0 (text "ho\n"))), (greeted, .group (.receive 1 (0, 0) 0))]

theorem failed_multicast_iff_greeted :
    (greetedEnd.client 1).log.length = 1 ∧
      ((∀ x ∈ Run.states greetedSteps greetedEnd, x.CountsSent) ↔
        ∀ x a, (x, a) ∈ greetedSteps → a.Succeeds) := by
  have hmulticast : castStep (initial 0) (.group (.multicast 0 (text "ho\n"))) = some greeted :=
    castStep_multicast (by decide) (by decide +kernel)
  have hreceive : castStep greeted (.group (.receive 1 (0, 0) 0)) = some greetedEnd :=
    (Option.some_get _).symm
  have hrun : Run castStep (initial 0) greetedSteps greetedEnd :=
    .cons hmulticast (.cons hreceive .nil)
  exact ⟨by decide +kernel, (failed_multicast_iff 0 hrun).1⟩

end Group
end ChatRing
