import Mathlib.Data.List.Basic

/-!
# Runs of a labelled transition system

A system is a partial function `step`: what action `a` does in state `s`, or
nothing where the action is not possible.  A run records, for every step, the
state it was taken in and the action, so that a property of all reached states
and a condition on all steps speak about the same history.

## Main results

* `Run.invariant` — what every step preserves holds in the last state.
* `Run.guarded` — the same when every step meets a condition.
* `Run.forall_steps_iff` — two properties of steps that agree under an invariant.
* `Run.forall_states_iff` — a property that exactly the steps meeting the
  condition keep holds throughout a run iff all its steps meet it.
-/

variable {σ α : Type*}

/-- `Run step s h t`: the history `h` leads from `s` to `t`. -/
inductive Run (step : σ → α → Option σ) (s : σ) : List (σ × α) → σ → Prop
  | nil : Run step s [] s
  | snoc {h : List (σ × α)} {t u : σ} {a : α} (run : Run step s h t)
      (hstep : step t a = some u) : Run step s (h ++ [(t, a)]) u

/-- The state and the action of every step, while the actions are possible. -/
def trace (step : σ → α → Option σ) : σ → List α → List (σ × α)
  | _, [] => []
  | s, a :: as =>
      match step s a with
      | none => []
      | some t => (s, a) :: trace step t as

theorem mem_of_mem_trace {step : σ → α → Option σ} {s x : σ} {a : α} {as : List α}
    (h : (x, a) ∈ trace step s as) : a ∈ as := by
  induction as generalizing s with
  | nil => cases h
  | cons b as ih =>
      rw [trace] at h
      split at h
      · cases h
      · rcases List.mem_cons.mp h with heq | h
        · cases heq
          exact List.mem_cons_self
        · exact List.mem_cons_of_mem b (ih h)

/-- The first action of a list is in the history when it is possible. -/
theorem head_mem_trace {step : σ → α → Option σ} {s : σ} {a : α} (h : (step s a).isSome)
    (as : List α) : (s, a) ∈ trace step s (a :: as) := by
  obtain ⟨t, ht⟩ := Option.isSome_iff_exists.mp h
  simp [trace, ht]

/-- Take the actions of a list one after another. -/
def exec (step : σ → α → Option σ) : σ → List α → Option σ
  | s, [] => some s
  | s, a :: as => (step s a).bind fun t => exec step t as

theorem exec_append {step : σ → α → Option σ} {s : σ} (as bs : List α) :
    exec step s (as ++ bs) = (exec step s as).bind fun t => exec step t bs := by
  induction as generalizing s with
  | nil => rfl
  | cons a as ih =>
      cases hs : step s a with
      | none => simp [exec, hs]
      | some t => simpa [exec, hs] using ih

/-- An execution that fails has a first action that is not possible. -/
theorem exists_stop {step : σ → α → Option σ} {s : σ} {as : List α} (h : exec step s as = none) :
    ∃ as₁ a as₂ t, as = as₁ ++ a :: as₂ ∧ exec step s as₁ = some t ∧ step t a = none := by
  induction as generalizing s with
  | nil => cases h
  | cons a as ih =>
      cases hs : step s a with
      | none => exact ⟨[], a, as, s, rfl, rfl, hs⟩
      | some t =>
          rw [exec, hs, Option.bind_some] at h
          obtain ⟨as₁, b, as₂, u, rfl, hu, hb⟩ := ih h
          exact ⟨a :: as₁, b, as₂, u, rfl, by rw [exec, hs, Option.bind_some, hu], hb⟩

namespace Run
variable {step : σ → α → Option σ} {s t : σ} {h : List (σ × α)}

/-- The states a run passes through, the last one included. -/
def states (h : List (σ × α)) (t : σ) : List σ := h.map Prod.fst ++ [t]

@[simp] theorem mem_states {x : σ} : x ∈ states h t ↔ (∃ a, (x, a) ∈ h) ∨ x = t := by
  simp [states]

theorem last_mem_states (h : List (σ × α)) (t : σ) : t ∈ states h t := by simp

theorem cons {a : α} {u : σ} (hstep : step s a = some t) (run : Run step t h u) :
    Run step s ((s, a) :: h) u := by
  induction run with
  | nil => exact snoc (h := []) nil hstep
  | snoc _ hs ih => exact snoc ih hs

theorem append {h' : List (σ × α)} {u : σ} (run : Run step s h t) (run' : Run step t h' u) :
    Run step s (h ++ h') u := by
  induction run' with
  | nil => simpa using run
  | @snoc h' x u a _ hs ih => simpa [List.append_assoc] using snoc ih hs

/-- A successful execution is a run. -/
theorem of_exec {as : List α} (hexec : exec step s as = some t) :
    Run step s (trace step s as) t := by
  induction as generalizing s with
  | nil =>
      cases hexec
      exact nil
  | cons a as ih =>
      obtain ⟨x, hx, hexec⟩ := Option.bind_eq_some_iff.mp hexec
      simp only [trace, hx]
      exact cons hx (ih hexec)

/-- A run takes the actions of its history one after another. -/
theorem exec_eq (run : Run step s h t) : exec step s (h.map Prod.snd) = some t := by
  induction run with
  | nil => rfl
  | snoc _ hs ih => rw [List.map_append, exec_append, ih, Option.bind_some, List.map_singleton,
      exec, hs, Option.bind_some, exec]

/-- Every state on the way is reached by an initial part of the run. -/
theorem of_mem_states (run : Run step s h t) {x : σ} (hx : x ∈ states h t) :
    ∃ h₁ h₂, h = h₁ ++ h₂ ∧ Run step s h₁ x := by
  induction run with
  | nil => exact ⟨[], [], rfl, by simp_all [nil]⟩
  | @snoc h t u a run hstep ih =>
      rcases mem_states.mp hx with ⟨b, hb⟩ | rfl
      · have hx' : x ∈ states h t := by
          rcases List.mem_append.mp hb with hb | hb
          · exact mem_states.mpr (Or.inl ⟨b, hb⟩)
          · simp_all
        obtain ⟨h₁, h₂, rfl, run'⟩ := ih hx'
        exact ⟨h₁, h₂ ++ [(t, a)], by simp, run'⟩
      · exact ⟨h ++ [(t, a)], [], by simp, snoc run hstep⟩

/-- What holds at the start and is preserved by every step holds at the end. -/
theorem invariant {P : σ → Prop} (run : Run step s h t) (h₀ : P s)
    (hstep : ∀ x a y, P x → step x a = some y → P y) : P t := by
  induction run with
  | nil => exact h₀
  | snoc _ hs ih => exact hstep _ _ _ ih hs

/-- An invariant that steps preserve when they meet the condition `C`. -/
theorem guarded {P : σ → Prop} {C : σ → α → Prop} (run : Run step s h t) (h₀ : P s)
    (hstep : ∀ x a y, P x → C x a → step x a = some y → P y)
    (hC : ∀ x a, (x, a) ∈ h → C x a) : P t := by
  induction run with
  | nil => exact h₀
  | @snoc h t u a run hs ih =>
      have ht : P t := ih fun x b hb => hC x b (List.mem_append_left _ hb)
      exact hstep t a u ht (hC t a (by simp)) hs

/-- A guarded invariant holds in every state of the run. -/
theorem guarded_states {P : σ → Prop} {C : σ → α → Prop} (run : Run step s h t) (h₀ : P s)
    (hstep : ∀ x a y, P x → C x a → step x a = some y → P y)
    (hC : ∀ x a, (x, a) ∈ h → C x a) : ∀ x ∈ states h t, P x := by
  intro x hx
  obtain ⟨h₁, h₂, rfl, run'⟩ := run.of_mem_states hx
  exact run'.guarded h₀ hstep fun y b hb => hC y b (List.mem_append_left _ hb)

/-- Where the steps that meet `C` keep the invariant `I`, and any other step taken
from `I` leaves `Q`, a run stays inside `Q` iff all its steps meet `C`. -/
theorem forall_states_iff {I Q : σ → Prop} {C : σ → α → Prop} (run : Run step s h t) (h₀ : I s)
    (hQ : ∀ x, I x → Q x) (hkeep : ∀ x a y, I x → C x a → step x a = some y → I y)
    (hbreak : ∀ x a y, I x → ¬ C x a → step x a = some y → ¬ Q y) :
    (∀ x ∈ states h t, Q x) ↔ ∀ x a, (x, a) ∈ h → C x a := by
  constructor
  · intro hall
    induction run with
    | nil => intro x a hmem; cases hmem
    | @snoc h t u a run hs ih =>
        have hall' : ∀ x ∈ states h t, Q x := by
          intro x hx
          refine hall x (mem_states.mpr (Or.inl ?_))
          rcases mem_states.mp hx with ⟨b, hb⟩ | rfl
          · exact ⟨b, List.mem_append_left _ hb⟩
          · exact ⟨a, by simp⟩
        have hC := ih hall'
        have ht : I t := run.guarded h₀ hkeep hC
        intro x b hmem
        rcases List.mem_append.mp hmem with hmem | hmem
        · exact hC x b hmem
        · obtain ⟨rfl, rfl⟩ := Prod.mk.inj (List.mem_singleton.mp hmem)
          by_contra hnot
          exact hbreak x b u ht hnot hs (hall u (last_mem_states _ u))
  · intro hC x hx
    exact hQ x (run.guarded_states h₀ hkeep hC x hx)

/-- In a run whose steps all meet `B`: while they meet `C` the invariant holds, and under it
a step meets `C` exactly when it meets `D`.  Then all steps meet the one iff all meet the
other. -/
theorem forall_steps_iff {I : σ → Prop} {B C D : σ → α → Prop} (run : Run step s h t) (h₀ : I s)
    (hB : ∀ x a, (x, a) ∈ h → B x a)
    (hkeep : ∀ x a y, I x → B x a → C x a → step x a = some y → I y)
    (hiff : ∀ x a y, I x → B x a → step x a = some y → (D x a ↔ C x a)) :
    (∀ x a, (x, a) ∈ h → D x a) ↔ ∀ x a, (x, a) ∈ h → C x a := by
  induction run with
  | nil =>
      constructor
      · intro _ x a hmem
        cases hmem
      · intro _ x a hmem
        cases hmem
  | @snoc h t u b run hs ih =>
      have hlast : ∀ P : σ → α → Prop, (∀ x a, (x, a) ∈ h ++ [(t, b)] → P x a) ↔
          (∀ x a, (x, a) ∈ h → P x a) ∧ P t b := by
        intro P
        simp only [List.mem_append, List.mem_singleton, Prod.mk.injEq]
        constructor
        · intro hall
          exact ⟨fun x a hmem => hall x a (Or.inl hmem), hall t b (Or.inr ⟨rfl, rfl⟩)⟩
        · rintro ⟨hall, hend⟩ x a (hmem | ⟨rfl, rfl⟩)
          · exact hall x a hmem
          · exact hend
      obtain ⟨hBh, hBt⟩ := (hlast B).mp hB
      rw [hlast, hlast, ih hBh]
      refine and_congr_right fun hC => hiff t b u ?_ hBt hs
      exact run.guarded (C := fun x a => B x a ∧ C x a) h₀
        (fun x a y hx ha => hkeep x a y hx ha.1 ha.2) fun x a hmem => ⟨hBh x a hmem, hC x a hmem⟩

end Run
