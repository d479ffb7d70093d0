import ChatRing.Lib.CText
import Mathlib.Data.List.Infix

/-!
# Arrays of characters

A C array is a text as long as the array.  The functions below read and write it one
element at a time; they return nothing when a subscript leaves the array.

## Main definitions

* `store a k c`, `memcpy dst src n` — the array after a store, and after a copy.
* `search pat a` — `strstr`, which reads up to the first NUL.
* `Holds a s` — the array holds the string `s`, with its NUL.
* `strcat dst src`, `sprintfInto size t` — the string functions that write.

## Main results

* `search_of_nul` — a search in an array that holds a NUL stays in it.
* `search_of_not_nul` — another one stays in it exactly when it finds the pattern.
* `Holds.strcat`, `Holds.strcat_eq_none` — what `strcat` appends, and when it leaves the array.
-/

namespace CArray
open CText

/-- `a[k] = c` -/
def store (a : Text) (k : ℤ) (c : Char) : Option Text :=
  if 0 ≤ k ∧ k < a.length then some (a.set k.toNat c) else none

/-- `memcpy(dst, src, n)` -/
def memcpy (dst src : Text) (n : ℕ) : Option Text :=
  if n ≤ dst.length ∧ n ≤ src.length then some (src.take n ++ dst.drop n) else none

/-- Compare with the pattern up to the first difference. -/
def startsWith : Text → Text → Option Bool
  | [], _ => some true
  | _ :: _, [] => none
  | c :: pat, d :: a => if c = d then startsWith pat a else some false

/-- The subscript that `strstr(a, pat)` points to, or the fact that there is none. -/
def search (pat : Text) : Text → Option (Option ℕ)
  | [] => none
  | c :: a =>
      match startsWith pat (c :: a) with
      | none => none
      | some true => some (some 0)
      | some false =>
          if c = '\x00' then some none else (search pat a).map fun found => found.map (· + 1)

variable {pat a : Text} {c : Char}

/-! ## Stores and copies -/

theorem store_of_lt {k : ℕ} (h : k < a.length) : store a k c = some (a.set k c) := by
  rw [store, if_pos (by omega), Int.toNat_natCast]

theorem store_length : store a a.length c = none := by
  rw [store, if_neg (by omega)]

theorem memcpy_of_le {dst src : Text} {n : ℕ} (hdst : n ≤ dst.length) (hsrc : n ≤ src.length) :
    memcpy dst src n = some (src.take n ++ dst.drop n) := if_pos ⟨hdst, hsrc⟩

/-! ## Searching -/

/-- A pattern without NUL is compared with nothing behind one. -/
theorem startsWith_of_nul (hpat : '\x00' ∉ pat) (ha : '\x00' ∈ a) :
    startsWith pat a = some (pat.isPrefixOf a) := by
  induction pat generalizing a with
  | nil => rfl
  | cons c pat ih =>
      cases a with
      | nil => cases ha
      | cons d a =>
          rw [startsWith]
          by_cases hcd : c = d
          · subst hcd
            have hmem : '\x00' ∈ a :=
              (List.mem_cons.mp ha).resolve_left fun h => hpat (List.mem_cons.mpr (Or.inl h))
            rw [if_pos rfl, ih (fun h => hpat (List.mem_cons_of_mem c h)) hmem]
            simp [List.isPrefixOf]
          · simp [hcd, List.isPrefixOf]

theorem startsWith_of_le (h : pat.length ≤ a.length) :
    startsWith pat a = some (pat.isPrefixOf a) := by
  induction pat generalizing a with
  | nil => rfl
  | cons c pat ih =>
      cases a with
      | nil => cases h
      | cons d a =>
          rw [startsWith]
          by_cases hcd : c = d
          · rw [if_pos hcd, ih (Nat.le_of_succ_le_succ h)]
            simp [hcd, List.isPrefixOf]
          · simp [hcd, List.isPrefixOf]

theorem length_le_of_startsWith (h : startsWith pat a = some true) : pat.length ≤ a.length := by
  induction pat generalizing a with
  | nil => exact Nat.zero_le _
  | cons c pat ih =>
      cases a with
      | nil => cases h
      | cons d a =>
          rw [startsWith] at h
          by_cases hcd : c = d
          · rw [if_pos hcd] at h
            exact Nat.succ_le_succ (ih h)
          · rw [if_neg hcd] at h
            cases h

theorem strstr_of_length_lt (h : a.length < pat.length) : strstr pat a = none := by
  rw [strstr_eq_none_iff]
  exact fun hinfix => absurd hinfix.length_le (not_le_of_gt h)

/-- A pattern without NUL begins the array when it begins the string in it. -/
theorem isPrefixOf_cstr (hpat : '\x00' ∉ pat) (a : Text) :
    pat.isPrefixOf (cstr a) = pat.isPrefixOf a := by
  rw [Bool.eq_iff_iff, List.isPrefixOf_iff_prefix, List.isPrefixOf_iff_prefix]
  constructor
  · exact fun h => h.trans (List.takeWhile_prefix _)
  · rintro ⟨t, rfl⟩
    have hchars : ∀ c ∈ pat, decide (c ≠ '\x00') = true :=
      fun c hc => decide_eq_true (ne_of_mem_of_not_mem hc hpat)
    rw [cstr, List.takeWhile_append_of_pos hchars]
    exact List.prefix_append pat _

theorem not_prefix_nul (hne : pat ≠ []) (hpat : '\x00' ∉ pat) :
    pat.isPrefixOf ('\x00' :: a) = false := by
  obtain ⟨c, pat, rfl⟩ := List.exists_cons_of_ne_nil hne
  have hc : c ≠ '\x00' := fun h => hpat (by simp [h])
  simp [List.isPrefixOf, hc]

/-- **A search in an array with a NUL** finds what the string in it holds. -/
theorem search_of_nul (hne : pat ≠ []) (hpat : '\x00' ∉ pat) (ha : '\x00' ∈ a) :
    search pat a = some ((strstr pat (cstr a)).map fun p => p.1.length) := by
  induction a with
  | nil => cases ha
  | cons c a ih =>
      rw [search, startsWith_of_nul hpat ha]
      by_cases hc : c = '\x00'
      · subst hc
        have hcstr : cstr ('\x00' :: a) = [] := rfl
        simp only [not_prefix_nul hne hpat, if_true, hcstr, strstr_nil, if_neg hne, Option.map_none]
      · have hcstr : cstr (c :: a) = c :: cstr a := by simp [cstr, hc]
        have hmem : '\x00' ∈ a := (List.mem_cons.mp ha).resolve_left (Ne.symm hc)
        rw [← isPrefixOf_cstr hpat, hcstr, strstr_cons]
        cases pat.isPrefixOf (c :: cstr a) with
        | true => rfl
        | false =>
            simp only [if_neg hc, ih hmem, Bool.false_eq_true, if_false, Option.map_some,
              Option.map_map]
            rfl

/-- **A search in an array without NUL** runs out of it, unless the pattern is there. -/
theorem search_of_not_nul (hne : pat ≠ []) (ha : '\x00' ∉ a) :
    search pat a = (strstr pat a).map fun p => some p.1.length := by
  induction a with
  | nil => simp [search, strstr_nil, hne]
  | cons c a ih =>
      have hc : c ≠ '\x00' := fun h => ha (by simp [h])
      rw [search, strstr_cons, ih fun h => ha (List.mem_cons_of_mem c h)]
      by_cases hlen : pat.length ≤ (c :: a).length
      · rw [startsWith_of_le hlen]
        cases pat.isPrefixOf (c :: a) with
        | true => rfl
        | false =>
            simp only [if_neg hc, Bool.false_eq_true, if_false, Option.map_map]
            rfl
      · -- the array ends before the pattern could
        have hlt : (c :: a).length < pat.length := not_le.mp hlen
        have hnone : strstr pat (c :: a) = none := strstr_of_length_lt hlt
        have hnone' : strstr pat a = none := by
          refine strstr_of_length_lt (lt_trans ?_ hlt)
          exact Nat.lt_succ_self _
        rw [strstr_cons] at hnone
        rw [hnone, hnone']
        cases hstart : startsWith pat (c :: a) with
        | none => rfl
        | some found =>
            cases found with
            | true => exact absurd (length_le_of_startsWith hstart) hlen
            | false => simp only [if_neg hc, Option.map_none]

/-! ## Strings in arrays -/

/-- The array holds the string, with the NUL that ends it. -/
def Holds (a s : Text) : Prop := cstr a = s ∧ s.length < a.length

/-- `strcat(dst, src)`: the characters of `src`, and a NUL, from the NUL of `dst` on. -/
def strcat (dst src : Text) : Option Text :=
  if (cstr dst).length + src.length < dst.length then
    some (cstr dst ++ src ++ '\x00' :: dst.drop ((cstr dst).length + src.length + 1))
  else none

/-- `sprintf` of the text `t` into an array of that size. -/
def sprintfInto (size : ℕ) (t : Text) : Option Text := if t.length < size then some t else none

section Strings
variable {s src : Text}

theorem Holds.not_nul (h : Holds a s) : '\x00' ∉ s := h.1 ▸ nul_not_mem_cstr a

theorem holds_append (hs : '\x00' ∉ s) (t : Text) : Holds (s ++ '\x00' :: t) s :=
  ⟨cstr_append_nul hs t, by simp⟩

theorem holds_nil (h : a.head? = some '\x00') : Holds a [] := by
  obtain ⟨t, rfl⟩ := List.head?_eq_some_iff.mp h
  exact holds_append List.not_mem_nil t

/-- An array that is long enough takes what is appended, and no other one does. -/
theorem Holds.strcat (h : Holds a s) (hsrc : '\x00' ∉ src)
    (hlen : s.length + src.length < a.length) :
    ∃ b, strcat a src = some b ∧ Holds b (s ++ src) ∧ b.length = a.length := by
  have hnul : '\x00' ∉ s ++ src := by simp [h.not_nul, hsrc]
  refine ⟨_, ?_, holds_append hnul (a.drop (s.length + src.length + 1)), ?_⟩
  · rw [CArray.strcat, h.1, if_pos hlen]
  · simp only [List.length_append, List.length_cons, List.length_drop]
    omega

theorem Holds.strcat_eq_none (h : Holds a s) (hlen : a.length ≤ s.length + src.length) :
    CArray.strcat a src = none := by
  rw [CArray.strcat, h.1, if_neg (by omega)]

/-- A NUL over the last character. -/
theorem Holds.store_last (h : Holds a s) (hne : s ≠ []) :
    ∃ b, store a (s.length - 1) '\x00' = some b ∧ Holds b s.dropLast ∧ b.length = a.length := by
  have hlen := List.length_pos_iff.mpr hne
  have hlt : s.length - 1 < a.length := by
    have := h.2
    omega
  have hindex : (s.length : ℤ) - 1 = ((s.length - 1 : ℕ) : ℤ) := by omega
  refine ⟨a.set (s.length - 1) '\x00', by rw [hindex, store_of_lt hlt], ?_, List.length_set⟩
  have htake : a.take (s.length - 1) = s.dropLast := by
    have hprefix : s <+: a := h.1 ▸ List.takeWhile_prefix _
    rw [List.dropLast_eq_take, List.prefix_iff_eq_take.mp hprefix, List.take_take]
    simp
  rw [List.set_eq_take_append_cons_drop, if_pos hlt, htake]
  exact holds_append (fun hmem => h.not_nul (List.mem_of_mem_dropLast hmem)) _

end Strings

end CArray
