import Mathlib.Data.List.Basic
import Mathlib.Data.List.Induction
import Mathlib.Data.List.Nodup
import Mathlib.GroupTheory.Perm.Cycle.Concrete
import Mathlib.Logic.Relation

/-!
# Rings kept in a list

A list stands for a ring: after its last element comes its first one.  `Linked A l`
says that `A` holds between every element and the next one around the ring.  Putting an
element into a gap of the ring, or taking one out, changes the links at that gap only.

## Main results

* `Linked.insert`, `Linked.remove` — the links after a change at one gap.
* `Linked.reaches` — following the links leads from every element to every other one.
* `Linked.apply_formPerm` — the links are those of a permutation with one cycle.
-/

namespace CyclicList
variable {α : Type*} {A A' : α → α → Prop} {a b : List α} {x : α}

/-- `A` holds around the ring: `q` comes next after `p` when `q` is first in what
follows `p`, and then in what stands before it. -/
def Linked (A : α → α → Prop) (l : List α) : Prop :=
  ∀ a p b q c, l = a ++ p :: b → b ++ a = q :: c → A p q

/-- The element before the gap between `a` and `b`. -/
def gapPred (a b : List α) : Option α := a.getLast?.or b.getLast?

/-- The element after the gap between `a` and `b`. -/
def gapSucc (a b : List α) : Option α := b.head?.or a.head?

theorem linked_nil : Linked A [] := by
  intro a p b q c h
  simp at h

theorem gapPred_mem {p : α} (h : gapPred a b = some p) : p ∈ a ++ b := by
  rw [gapPred, Option.or_eq_some_iff] at h
  rcases h with h | ⟨-, h⟩
  · exact List.mem_append_left b (List.mem_of_getLast? h)
  · exact List.mem_append_right a (List.mem_of_getLast? h)

theorem gapSucc_mem {p : α} (h : gapSucc a b = some p) : p ∈ a ++ b := by
  rw [gapSucc, Option.or_eq_some_iff] at h
  rcases h with h | ⟨-, h⟩
  · exact List.mem_append_right a (List.mem_of_head? h)
  · exact List.mem_append_left b (List.mem_of_head? h)

theorem gapPred_eq_none : gapPred a b = none ↔ a ++ b = [] := by
  simp [gapPred]

/-- With two elements or more the gap is between different ones. -/
theorem gapPred_ne_gapSucc {p q : α} (hnodup : (a ++ b).Nodup) (hlen : 2 ≤ (a ++ b).length)
    (hp : gapPred a b = some p) (hq : gapSucc a b = some q) : p ≠ q := by
  have hlast : (b ++ a).getLast? = some p := by rw [List.getLast?_append, ← hp, gapPred]
  have hhead : (b ++ a).head? = some q := by rw [List.head?_append, ← hq, gapSucc]
  obtain ⟨c, hc⟩ := List.head?_eq_some_iff.mp hhead
  have hqc : q ∉ c := by
    have hperm := List.perm_append_comm.nodup_iff.mp hnodup
    rw [hc] at hperm
    exact (List.nodup_cons.mp hperm).1
  have hne : c ≠ [] := by
    rintro rfl
    have hone := congrArg List.length hc
    simp only [List.length_append, List.length_cons, List.length_nil] at hone hlen
    omega
  rintro rfl
  rw [hc, List.getLast?_cons_of_ne_nil hne] at hlast
  exact hqc (List.mem_of_getLast? hlast)

/-- An element with another one behind it is not the last. -/
theorem getLast?_ne_of_nodup {l u v : List α} {p y : α} (hnodup : l.Nodup)
    (hl : l = u ++ p :: y :: v) : l.getLast? ≠ some p := by
  subst hl
  intro hlast
  have hmem : p ∈ y :: v := by
    rw [List.getLast?_append_of_ne_nil u (by simp), List.getLast?_cons_cons] at hlast
    exact List.mem_of_getLast? hlast
  have hp := (List.nodup_append.mp hnodup).2.1
  exact (List.nodup_cons.mp hp).1 hmem

/-- The element before the gap has nothing of its own side behind it. -/
theorem gapPred_ne_of_left {u w : List α} {p y : α} (hnodup : ((u ++ p :: y :: w) ++ b).Nodup) :
    gapPred (u ++ p :: y :: w) b ≠ some p := by
  have hlast := getLast?_ne_of_nodup (List.nodup_append.mp hnodup).1 rfl
  rw [gapPred, Option.or_of_isSome (by simp)]
  exact hlast

theorem gapPred_ne_of_right {p : α} {v w : List α} (hnodup : (a ++ (w ++ p :: v)).Nodup)
    (h : a ≠ [] ∨ v ≠ []) : gapPred a (w ++ p :: v) ≠ some p := by
  rw [gapPred]
  cases ha : a.getLast? with
  | some r =>
      have hr : r ∈ a := List.mem_of_getLast? ha
      intro heq
      cases heq
      exact (List.nodup_append.mp hnodup).2.2 p hr p (by simp) rfl
  | none =>
      have hv : v ≠ [] := h.resolve_left (not_not_intro (List.getLast?_eq_none_iff.mp ha))
      obtain ⟨y, v, rfl⟩ := List.exists_cons_of_ne_nil hv
      exact getLast?_ne_of_nodup (List.nodup_append.mp hnodup).2.1 rfl

/-- The first element of what comes after the gap decides, unless nothing does. -/
theorem head_of_append {v w : List α} {q : α} {c : List α} (hne : a ≠ [] ∨ v ≠ [])
    (h : v ++ (a ++ w) = q :: c) (w' : List α) : ∃ c', v ++ (a ++ w') = q :: c' := by
  cases v with
  | cons z v =>
      obtain ⟨rfl, -⟩ := List.cons.inj h
      exact ⟨v ++ (a ++ w'), rfl⟩
  | nil =>
      obtain ⟨z, a, rfl⟩ := List.exists_cons_of_ne_nil (hne.resolve_right (by simp))
      obtain ⟨rfl, -⟩ := List.cons.inj h
      exact ⟨a ++ w', rfl⟩

/-- **Putting `x` into the gap.**  Only the element before the gap gets a new link. -/
theorem Linked.insert (hnodup : (a ++ b).Nodup) (h : Linked A (a ++ b))
    (hkeep : ∀ p ∈ a ++ b, gapPred a b ≠ some p → ∀ q, A p q → A' p q)
    (hpred : ∀ p, gapPred a b = some p → A' p x)
    (hsucc : ∀ q, gapSucc a b = some q → A' x q) : Linked A' (a ++ x :: b) := by
  have hnew : ∀ q c, b ++ a = q :: c → A' x q := by
    intro q c hnext
    apply hsucc
    cases b with
    | nil =>
        obtain rfl : a = q :: c := by simpa using hnext
        rfl
    | cons y b =>
        obtain ⟨rfl, -⟩ := List.cons.inj hnext
        rfl
  intro u p v q c hsplit hnext
  rcases List.append_eq_append_iff.mp hsplit with ⟨w, rfl, hw⟩ | ⟨w, rfl, hw⟩
  · cases w with
    | nil =>
        obtain ⟨rfl, rfl⟩ := List.cons.inj hw
        exact hnew q c (by simpa using hnext)
    | cons y w =>
        -- `p` stands after the gap
        obtain ⟨rfl, rfl⟩ := List.cons.inj hw
        by_cases hwrap : a = [] ∧ v = []
        · obtain ⟨rfl, rfl⟩ := hwrap
          cases hnext
          exact hpred p (by simp [gapPred])
        · have hne : a ≠ [] ∨ v ≠ [] := by
            by_contra hnot
            push Not at hnot
            exact hwrap hnot
          refine hkeep p (by simp) (gapPred_ne_of_right hnodup hne) q ?_
          obtain ⟨c', hc'⟩ := head_of_append hne hnext w
          exact h (a ++ w) p v q c' (by simp) hc'
  · cases w with
    | nil =>
        obtain ⟨rfl, rfl⟩ := List.cons.inj hw
        exact hnew q c (by simpa using hnext)
    | cons y w =>
        -- `p` stands before the gap
        obtain ⟨rfl, rfl⟩ := List.cons.inj hw
        cases w with
        | nil =>
            cases hnext
            exact hpred p (by simp [gapPred])
        | cons z w =>
            cases hnext
            refine hkeep p (by simp) (gapPred_ne_of_left hnodup) q ?_
            exact h u p (q :: (w ++ b)) q (w ++ b ++ u) (by simp) (by simp)

/-- **Taking `x` out.**  The element before the gap is linked to the one after it. -/
theorem Linked.remove (hnodup : (a ++ b).Nodup) (h : Linked A (a ++ x :: b))
    (hkeep : ∀ p ∈ a ++ b, gapPred a b ≠ some p → ∀ q, A p q → A' p q)
    (hgap : ∀ p q, 2 ≤ (a ++ b).length → gapPred a b = some p → gapSucc a b = some q → A' p q) :
    Linked A' (a ++ b) := by
  intro u p v q c hsplit hnext
  have hlen : 2 ≤ (a ++ b).length := by
    have := congrArg List.length hnext
    rw [hsplit]
    simp only [List.length_append, List.length_cons] at this ⊢
    omega
  have hafter : ∀ w, u = a ++ w → b = w ++ p :: v → A' p q := by
    rintro w rfl rfl
    by_cases hwrap : a = [] ∧ v = []
    · obtain ⟨rfl, rfl⟩ := hwrap
      refine hgap p q hlen List.getLast?_concat ?_
      obtain rfl : w = q :: c := by simpa using hnext
      rfl
    · have hne : a ≠ [] ∨ v ≠ [] := by
        by_contra hnot
        push Not at hnot
        exact hwrap hnot
      refine hkeep p (by simp) (gapPred_ne_of_right hnodup hne) q ?_
      obtain ⟨c', hc'⟩ := head_of_append hne hnext (x :: w)
      exact h (a ++ x :: w) p v q c' (by simp) hc'
  rcases List.append_eq_append_iff.mp hsplit with ⟨w, hu, hb⟩ | ⟨w, rfl, hw⟩
  · exact hafter w hu hb
  · cases w with
    | nil => exact hafter [] (by simp) (by simpa using hw.symm)
    | cons y w =>
        -- `p` stands before the gap
        obtain ⟨rfl, rfl⟩ := List.cons.inj hw
        cases w with
        | nil =>
            refine hgap p q hlen (by simp [gapPred]) ?_
            cases b with
            | nil =>
                obtain rfl : u = q :: c := by simpa using hnext
                rfl
            | cons z b =>
                obtain ⟨rfl, -⟩ := List.cons.inj hnext
                rfl
        | cons z w =>
            cases hnext
            refine hkeep p (by simp) (gapPred_ne_of_left hnodup) q ?_
            exact h u p (q :: (w ++ x :: b)) q (w ++ x :: b ++ u) (by simp) (by simp)

/-- The link into an element comes from the one before its gap. -/
theorem Linked.of_gapPred {p : α} (h : Linked A (a ++ x :: b)) (hp : gapPred a b = some p) :
    A p x := by
  rcases List.eq_nil_or_concat a with rfl | ⟨l, y, rfl⟩
  · obtain ⟨l, rfl⟩ := List.getLast?_eq_some_iff.mp hp
    exact h (x :: l) p [] x l (by simp) (by simp)
  · obtain rfl : y = p := by simpa [gapPred] using hp
    exact h l y (x :: b) x (b ++ l) (by simp) (by simp)

/-- The link out of an element leads to the one after its gap. -/
theorem Linked.of_gapSucc {q : α} (h : Linked A (a ++ x :: b)) (hq : gapSucc a b = some q) :
    A x q := by
  have hnext : ∃ c, b ++ a = q :: c := by
    cases b with
    | nil => exact List.head?_eq_some_iff.mp hq
    | cons y b =>
        obtain rfl : y = q := by simpa [gapSucc] using hq
        exact ⟨b ++ a, rfl⟩
  obtain ⟨c, hc⟩ := hnext
  exact h a x b q c rfl hc

/-- In a ring of two every link involves both elements. -/
theorem linked_of_length_le_two {l : List α} {p : α} (hl : l.length ≤ 2) (hp : p ∈ l)
    (hfrom : ∀ q, A p q) (hto : ∀ q, A q p) : Linked A l := by
  rintro a u b v c rfl hnext
  have hc : c = [] := by
    have := congrArg List.length hnext
    simp only [List.length_append, List.length_cons] at this hl
    exact List.length_eq_zero_iff.mp (by omega)
  have hmem : p = u ∨ p ∈ b ++ a := by
    simp only [List.mem_append, List.mem_cons] at hp ⊢
    tauto
  rw [hnext, hc, List.mem_singleton] at hmem
  rcases hmem with rfl | rfl
  · exact hfrom v
  · exact hto u

/-- Links that a map respects. -/
theorem Linked.map {β : Type*} {B : β → β → Prop} {l : List α} (h : Linked A l) (f : α → β)
    (hf : ∀ p q, A p q → B (f p) (f q)) : Linked B (l.map f) := by
  intro u p v q c hsplit hnext
  obtain ⟨u', v', rfl, rfl, hv⟩ := List.map_eq_append_iff.mp hsplit
  obtain ⟨p', w, rfl, rfl, rfl⟩ := List.map_eq_cons_iff.mp hv
  rw [← List.map_append] at hnext
  obtain ⟨q', c', hc, rfl, -⟩ := List.map_eq_cons_iff.mp hnext
  exact hf p' q' (h u' p' w q' c' rfl hc)

/-- The links are between elements of the list. -/
theorem Linked.mono {B : α → α → Prop} {l : List α} (h : Linked A l)
    (hAB : ∀ p ∈ l, ∀ q ∈ l, A p q → B p q) : Linked B l := by
  intro u p v q c hl hnext
  have hq : q ∈ v ++ u := by simp [hnext]
  refine hAB p (by simp [hl]) q ?_ (h u p v q c hl hnext)
  simp only [hl, List.mem_append, List.mem_cons] at hq ⊢
  tauto

theorem Linked.and {B : α → α → Prop} {l : List α} (h : Linked A l) (h' : Linked B l) :
    Linked (fun p q => A p q ∧ B p q) l :=
  fun a p b q c hl hnext => ⟨h a p b q c hl hnext, h' a p b q c hl hnext⟩

theorem Linked.of_map {β : Type*} {B : β → β → Prop} {l : List α} {f : α → β}
    (h : Linked B (l.map f)) : Linked (fun p q => B (f p) (f q)) l := by
  intro a p b q c hl hnext
  refine h (a.map f) (f p) (b.map f) (f q) (c.map f) (by simp [hl]) ?_
  rw [← List.map_append, hnext, List.map_cons]

/-- `q` comes next after `p` in ascending order around the ring. -/
def NextUp [LinearOrder α] (l : List α) (p q : α) : Prop :=
  (p < q ∧ ∀ r ∈ l, r ≤ p ∨ q ≤ r) ∨ ((∀ r ∈ l, r ≤ p) ∧ ∀ r ∈ l, q ≤ r)

/-- A ring in ascending order. -/
theorem linked_of_pairwise_lt [LinearOrder α] {l : List α} (h : l.Pairwise (· < ·)) :
    Linked (NextUp l) l := by
  rintro u p v q c rfl hnext
  obtain ⟨-, hpv, hup⟩ := List.pairwise_append.mp h
  have hp : ∀ r ∈ u, r ≤ p := fun r hr => (hup r hr p (by simp)).le
  have hv : ∀ r ∈ v, p < r := (List.pairwise_cons.mp hpv).1
  cases v with
  | cons y v =>
      obtain ⟨rfl, -⟩ := List.cons.inj hnext
      left
      refine ⟨hv y (by simp), fun r hr => ?_⟩
      have hy := (List.pairwise_cons.mp (List.pairwise_cons.mp hpv).2).1
      simp only [List.mem_append, List.mem_cons] at hr
      rcases hr with hr | rfl | rfl | hr
      · exact Or.inl (hp r hr)
      · exact Or.inl le_rfl
      · exact Or.inr le_rfl
      · exact Or.inr (hy r hr).le
  | nil =>
      -- `p` is the last element, and `q` the first
      obtain rfl : u = q :: c := by simpa using hnext
      right
      have hq : ∀ r ∈ c, q < r := fun r hr =>
        (List.pairwise_cons.mp (List.pairwise_append.mp h).1).1 r hr
      constructor
      · intro r hr
        rcases List.mem_append.mp hr with hr | hr
        · exact hp r hr
        · exact (List.mem_singleton.mp hr).le
      · intro r hr
        simp only [List.cons_append, List.mem_cons, List.mem_append, List.not_mem_nil,
          or_false] at hr
        rcases hr with rfl | hr | rfl
        · exact le_rfl
        · exact (hq r hr).le
        · exact hp q (by simp)

/-- **The links are those of a permutation.**  It has one cycle. -/
theorem Linked.apply_formPerm [DecidableEq α] {l : List α} (h : Linked A l) (hnodup : l.Nodup)
    (hl : 2 ≤ l.length) {p : α} (hp : p ∈ l) : A p (l.formPerm p) := by
  obtain ⟨u, v, rfl⟩ := List.append_of_mem hp
  have hne : v ++ u ≠ [] := by
    intro hnil
    have := congrArg List.length hnil
    simp only [List.length_append, List.length_cons, List.length_nil] at this hl
    omega
  obtain ⟨q, c, hqc⟩ := List.exists_cons_of_ne_nil hne
  have hrotate : (u ++ p :: v).rotate u.length = p :: q :: c := by
    rw [List.rotate_append_length_eq, List.cons_append, hqc]
  have hformPerm := List.formPerm_rotate (u ++ p :: v) hnodup u.length
  have hnodup' : (p :: q :: c).Nodup := by
    rw [← hrotate]
    exact List.nodup_rotate.mpr hnodup
  rw [← hformPerm, hrotate, List.formPerm_apply_head p q c hnodup']
  exact h u p v q c rfl hqc

/-- Following the links leads to everything that stands behind. -/
theorem Linked.reaches_behind {l : List α} (h : Linked A l) {u w v : List α} {p q : α}
    (hl : l = u ++ p :: (w ++ q :: v)) :
    Relation.ReflTransGen (fun y z => y ∈ l ∧ z ∈ l ∧ A y z) p q := by
  induction w using List.reverseRecOn generalizing q v with
  | nil =>
      subst hl
      exact Relation.ReflTransGen.single
        ⟨by simp, by simp, h u p (q :: v) q (v ++ u) (by simp) (by simp)⟩
  | append_singleton w y ih =>
      have hstep : A y q :=
        h (u ++ p :: w) y (q :: v) q (v ++ (u ++ p :: w)) (by simp [hl]) (by simp)
      exact (ih (v := q :: v) (by simp [hl])).tail ⟨by simp [hl], by simp [hl], hstep⟩

/-- **The links form one cycle**: they lead from every element to every other one. -/
theorem Linked.reaches {l : List α} (h : Linked A l) {p q : α} (hp : p ∈ l) (hq : q ∈ l) :
    Relation.ReflTransGen (fun y z => y ∈ l ∧ z ∈ l ∧ A y z) p q := by
  obtain ⟨u, v, rfl⟩ := List.append_of_mem hp
  rcases List.mem_append.mp hq with hq | hq
  · -- around the end of the list
    obtain ⟨w, w', rfl⟩ := List.append_of_mem hq
    generalize hl : w ++ q :: w' ++ p :: v = l at h ⊢
    have hlast : ∃ z l', l = l' ++ [z] ∧
        Relation.ReflTransGen (fun y z => y ∈ l ∧ z ∈ l ∧ A y z) p z := by
      rcases List.eq_nil_or_concat v with rfl | ⟨v, z, rfl⟩
      · exact ⟨p, w ++ q :: w', hl.symm, Relation.ReflTransGen.refl⟩
      · refine ⟨z, w ++ q :: w' ++ p :: v, by simp [← hl], ?_⟩
        exact h.reaches_behind (u := w ++ q :: w') (w := v) (v := []) (by simp [← hl])
    have hfirst : ∃ y l', l = y :: l' ∧
        Relation.ReflTransGen (fun y z => y ∈ l ∧ z ∈ l ∧ A y z) y q := by
      cases w with
      | nil => exact ⟨q, w' ++ p :: v, by simp [← hl], Relation.ReflTransGen.refl⟩
      | cons y w =>
          refine ⟨y, w ++ q :: w' ++ p :: v, by simp [← hl], ?_⟩
          exact h.reaches_behind (u := []) (w := w) (v := w' ++ p :: v) (by simp [← hl])
    obtain ⟨z, l₁, hl₁, hpz⟩ := hlast
    obtain ⟨y, l₂, hl₂, hyq⟩ := hfirst
    have hzy : A z y := by
      cases l₁ with
      | nil =>
          have hlen := congrArg List.length (hl.trans hl₁)
          simp only [List.length_append, List.length_cons, List.length_nil] at hlen
          omega
      | cons y' l₁ =>
          have hy : y' = y := by
            have heq := hl₁.symm.trans hl₂
            exact (List.cons.inj heq).1
          exact h (y' :: l₁) z [] y l₁ hl₁ (by simp [hy])
    have hstep : z ∈ l ∧ y ∈ l ∧ A z y := ⟨by simp [hl₁], by simp [hl₂], hzy⟩
    exact (hpz.tail hstep).trans hyq
  · rcases List.mem_cons.mp hq with rfl | hq
    · exact Relation.ReflTransGen.refl
    · obtain ⟨w, w', rfl⟩ := List.append_of_mem hq
      exact h.reaches_behind rfl

end CyclicList
