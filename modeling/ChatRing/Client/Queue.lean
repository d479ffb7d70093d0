import ChatRing.Lib.Except
import ChatRing.Wire
import Mathlib.Data.Fintype.Basic
import Mathlib.Order.Lattice

/-!
# The hold-back queue of a client

`client/data_structure.c`: the linked list of messages that wait for delivery,
the comparison of two vectors, and the text form of a vector.  A queue is the list
of its nodes from the head on.  A C array of `MAX_GROUP_SIZE` ints is a `Clock`;
a store outside it is the fault `outOfBounds`.
-/

namespace ChatRing
open CText

/-- `MAX_GROUP_SIZE` -/
def maxGroupSize : ℕ := 10

instance : NeZero maxGroupSize := ⟨by decide⟩

/-- `int[MAX_GROUP_SIZE]`: one counter for each member of the group. -/
abbrev Clock := Fin maxGroupSize → ℤ

/-- A node of the queue, without its `next` pointer. -/
structure HoldBackQueue where
  id : ℤ
  clkIndex : ℤ
  content : Text
  dependency : Clock
  deriving DecidableEq

/-- Drop the first message with this clock index. -/
def removeFromHoldbackQueue : List HoldBackQueue → ℤ → List HoldBackQueue
  | [], _ => []
  | m :: q, clkIndex =>
      if m.clkIndex = clkIndex then q else m :: removeFromHoldbackQueue q clkIndex

/-- `1` when some entry of the first vector exceeds the second one's, `0` otherwise. -/
def arrayCompare (arr1 arr2 : Clock) : ℤ :=
  if (List.finRange maxGroupSize).any fun i => arr1 i ≠ arr2 i && arr1 i > arr2 i then 1 else 0

/-- The test of the delivery loop is the pointwise order of the two vectors. -/
theorem arrayCompare_le_zero_iff (arr1 arr2 : Clock) :
    arrayCompare arr1 arr2 ≤ 0 ↔ arr1 ≤ arr2 := by
  have hany : ((List.finRange maxGroupSize).any fun i => arr1 i ≠ arr2 i && arr1 i > arr2 i) = true
      ↔ ¬ arr1 ≤ arr2 := by
    simp only [List.any_eq_true, List.mem_finRange, true_and, Bool.and_eq_true,
      decide_eq_true_eq, Pi.le_def, not_forall, not_le]
    exact exists_congr fun i => ⟨fun h => h.2, fun h => ⟨h.ne', h⟩⟩
  by_cases h : arr1 ≤ arr2
  · rw [arrayCompare, if_neg (mt hany.mp (not_not_intro h))]
    exact iff_of_true le_rfl h
  · rw [arrayCompare, if_pos (hany.mpr h)]
    exact iff_of_false (by decide) h

/-- `DELIVERED[k] += 1` -/
def bump (delivered : Clock) (k : ℤ) : Except Fault Clock :=
  if h : 0 ≤ k ∧ k < maxGroupSize then
    let i : Fin maxGroupSize := ⟨k.toNat, by omega⟩
    .ok (Function.update delivered i (delivered i + 1))
  else .error .outOfBounds

@[simp] theorem bump_fin (delivered : Clock) (i : Fin maxGroupSize) :
    bump delivered i = .ok (Function.update delivered i (delivered i + 1)) := by
  have h : (0 : ℤ) ≤ (i : ℕ) ∧ ((i : ℕ) : ℤ) < maxGroupSize := by omega
  simp [bump, h]

/-- The index is inside the arrays. -/
def InRange (clkIndex : ℤ) : Prop := 0 ≤ clkIndex ∧ clkIndex < maxGroupSize

instance (clkIndex : ℤ) : Decidable (InRange clkIndex) := inferInstanceAs (Decidable (_ ∧ _))

theorem InRange.toNat_lt {clkIndex : ℤ} (h : InRange clkIndex) : clkIndex.toNat < maxGroupSize := by
  have := h.1
  have := h.2
  omega

theorem bump_isOk_iff {delivered : Clock} {clkIndex : ℤ} :
    (∃ delivered', bump delivered clkIndex = .ok delivered') ↔ InRange clkIndex := by
  rw [bump]
  split
  · rename_i h
    exact iff_of_true ⟨_, rfl⟩ h
  · rename_i h
    exact iff_of_false (fun ⟨_, hd⟩ => Except.ok_ne_error hd.symm) h

/-- Counting up at an index. -/
theorem bump_eq_ok {delivered delivered' : Clock} {k : ℤ} (h : bump delivered k = .ok delivered')
    (i : Fin maxGroupSize) : delivered' i = delivered i + if k = (i : ℕ) then 1 else 0 := by
  rw [bump] at h
  split at h
  · rename_i hk
    cases h
    by_cases hi : k = (i : ℕ)
    · have heq : (⟨k.toNat, by omega⟩ : Fin maxGroupSize) = i := Fin.ext (by simp [hi])
      rw [if_pos hi, heq, Function.update_self]
    · rw [if_neg hi, add_zero, Function.update_of_ne]
      rintro rfl
      exact hi (Int.toNat_of_nonneg hk.1).symm
  · cases h

/-! ## Vectors as text -/

section Vectors
variable {n : ℕ}

/-- `get_deps_str`: print every entry with a comma, then drop the last comma. -/
def getDepsStr (intArray : Fin n → ℤ) : Text :=
  ((List.finRange n).foldl (fun str i => str ++ (intText (intArray i) ++ [','])) []).dropLast

/-- Store the fields from entry `i` on; the array has no entry for a field too many. -/
def storeDeps : ℕ → List Text → (Fin n → ℤ) → Except Fault (Fin n → ℤ)
  | _, [], arr => .ok arr
  | i, token :: rest, arr =>
      if h : i < n then storeDeps (i + 1) rest (Function.update arr ⟨i, h⟩ (atoi token))
      else .error .outOfBounds

/-- `get_deps_int`: an entry for which the text has no field keeps what the array held. -/
def getDepsInt (strArray : Text) (intArray : Fin n → ℤ) : Except Fault (Fin n → ℤ) :=
  storeDeps 0 (tokens ',' strArray) intArray

/-- The printed entries, joined by commas. -/
theorem getDepsStr_eq_intercalate (hn : 0 < n) (v : Fin n → ℤ) :
    getDepsStr v = [','].intercalate ((List.finRange n).map fun i => intText (v i)) := by
  apply dropLast_foldl_append
  rw [← List.length_pos_iff, List.length_finRange]
  exact hn

/-- Every field goes to the next entry; the entries behind the last one keep what they held. -/
theorem storeDeps_eq (ts : List Text) {i : ℕ} (hi : i ≤ n) (arr : Fin n → ℤ) :
    storeDeps i ts arr =
      if i + ts.length ≤ n then
        .ok fun j => if (j : ℕ) < i then arr j else (ts[(j : ℕ) - i]?.map atoi).getD (arr j)
      else .error .outOfBounds := by
  induction ts generalizing i arr with
  | nil => simp [storeDeps, hi]
  | cons token ts ih =>
      rw [storeDeps]
      by_cases hlt : i < n
      · have hlen : i + (token :: ts).length = i + 1 + ts.length := by
          simp only [List.length_cons]
          omega
        rw [dif_pos hlt, ih hlt, hlen]
        refine if_congr Iff.rfl (congrArg Except.ok (funext fun j => ?_)) rfl
        rcases Nat.lt_trichotomy j i with hj | hj | hj
        · have hne : j ≠ ⟨i, hlt⟩ := Fin.ne_of_val_ne hj.ne
          rw [if_pos (by omega), if_pos hj, Function.update_of_ne hne]
        · have heq : j = ⟨i, hlt⟩ := Fin.ext hj
          rw [if_pos (by omega), if_neg (by omega), heq, Function.update_self]
          simp
        · have hne : j ≠ ⟨i, hlt⟩ := Fin.ne_of_val_ne hj.ne'
          have hsub : (j : ℕ) - i = (j : ℕ) - (i + 1) + 1 := by omega
          rw [if_neg (by omega), if_neg (by omega), Function.update_of_ne hne, hsub,
            List.getElem?_cons_succ]
      · rw [dif_neg hlt, if_neg]
        simp only [List.length_cons]
        omega

/-- **What `get_deps_int` leaves in the array**: entry `j` is the number that field `j` begins
with, as far as there are fields. -/
theorem getDepsInt_eq (strArray : Text) (arr : Fin n → ℤ) :
    getDepsInt strArray arr =
      if (tokens ',' strArray).length ≤ n then
        .ok fun j => ((tokens ',' strArray)[(j : ℕ)]?.map atoi).getD (arr j)
      else .error .outOfBounds := by
  simp [getDepsInt, storeDeps_eq _ (Nat.zero_le n)]

/-- The fields of a printed vector are its entries. -/
theorem tokens_getDepsStr (hn : 0 < n) (v : Fin n → ℤ) :
    tokens ',' (getDepsStr v) = List.ofFn fun i => intText (v i) := by
  have hcomma : ∀ l ∈ (List.finRange n).map fun i => intText (v i), ',' ∉ l := by
    intro l hl
    obtain ⟨i, -, rfl⟩ := List.mem_map.mp hl
    exact not_mem_intText (v i) (by decide) (by decide)
  have hne : ∀ l ∈ (List.finRange n).map fun i => intText (v i), l ≠ [] := by
    intro l hl
    obtain ⟨i, -, rfl⟩ := List.mem_map.mp hl
    exact intText_ne_nil (v i)
  have hnil : ((List.finRange n).map fun i => intText (v i)) ≠ [] := by
    rw [← List.length_pos_iff, List.length_map, List.length_finRange]
    exact hn
  rw [getDepsStr_eq_intercalate hn, tokens_intercalate hnil hcomma hne, List.ofFn_eq_map]

/-- **The text form of a vector of ints is read back in full** into an array that is at least as
long; the rest of the array keeps what it held. -/
theorem getDepsInt_getDepsStr_of_le {m : ℕ} (hn : 0 < n) (hm : n ≤ m) {v : Fin n → ℤ}
    (hv : ∀ i, IsInt (v i)) (arr : Fin m → ℤ) :
    getDepsInt (getDepsStr v) arr = .ok fun j => if h : (j : ℕ) < n then v ⟨j, h⟩ else arr j := by
  rw [getDepsInt_eq, tokens_getDepsStr hn, if_pos (by simpa using hm)]
  congr 1
  ext j
  by_cases hj : (j : ℕ) < n
  · simp [hj, atoi_intText (hv _)]
  · simp [hj]

theorem getDepsInt_getDepsStr (hn : 0 < n) {v : Fin n → ℤ} (hv : ∀ i, IsInt (v i))
    (arr : Fin n → ℤ) : getDepsInt (getDepsStr v) arr = .ok v := by
  rw [getDepsInt_getDepsStr_of_le hn le_rfl hv]
  congr 1
  ext j
  simp

/-- The text of a vector is made of digits, signs and commas. -/
theorem mem_getDepsStr {v : Fin n → ℤ} {c : Char} (h : c ∈ getDepsStr v) :
    c.isDigit = true ∨ c = '-' ∨ c = ',' := by
  have hfold : ∀ (l : List (Fin n)) (s : Text), (∀ c ∈ s, c.isDigit = true ∨ c = '-' ∨ c = ',') →
      ∀ c ∈ l.foldl (fun str i => str ++ (intText (v i) ++ [','])) s,
        c.isDigit = true ∨ c = '-' ∨ c = ',' := by
    intro l
    induction l with
    | nil => intro s hs; exact hs
    | cons i l ih =>
        intro s hs
        apply ih
        intro c hc
        simp only [List.mem_append, List.mem_singleton] at hc
        rcases hc with hc | hc | hc
        · exact hs c hc
        · rcases mem_intText hc with h | h
          · exact Or.inl h
          · exact Or.inr (Or.inl h)
        · exact Or.inr (Or.inr hc)
  exact hfold _ [] (by simp) c (List.mem_of_mem_dropLast h)

theorem not_mem_getDepsStr {c : Char} (v : Fin n → ℤ) (hd : c.isDigit = false) (hm : c ≠ '-')
    (hc : c ≠ ',') : c ∉ getDepsStr v := by
  intro h
  rcases mem_getDepsStr h with h | h | h
  · rw [hd] at h; cases h
  · exact hm h
  · exact hc h

theorem isSpace_of_mem_getDepsStr {v : Fin n → ℤ} {c : Char} (h : c ∈ getDepsStr v) :
    isSpace c = false := by
  rcases mem_getDepsStr h with h | rfl | rfl
  · exact isSpace_of_isDigit h
  · rfl
  · rfl

theorem getDepsStr_ne_nil (hn : 0 < n) (v : Fin n → ℤ) : getDepsStr v ≠ [] := by
  obtain ⟨m, rfl⟩ : ∃ m, n = m + 1 := ⟨n - 1, by omega⟩
  rw [getDepsStr_eq_intercalate hn, List.finRange_succ]
  cases m with
  | zero => simpa using intText_ne_nil _
  | succ m => simp [List.finRange_succ, List.intercalate_cons_cons, intText_ne_nil]

end Vectors

/-! ## Appending a received message -/

/-- The fields of a group message that `sscanf` assigns. -/
structure GroupFields where
  groupId : ℤ
  senderId : ℤ
  senderClkIndex : ℤ
  deps : Text
  message : Text
  deriving DecidableEq

/-- The group message format, which three functions of the client scan. -/
def groupFormat : String :=
  "\n\tGROUP_ID:%d\n\tSENDER_ID:%d\n\tSENDER_CLK_INDEX:%d\n\tDEPS:%s\n\tMESSAGE:%s"

/-- `sscanf(clean_message, groupFormat, ...)`, or nothing when it does not assign
all five fields. -/
def scanGroup (cleanMessage : Text) : Option GroupFields :=
  match sscanf cleanMessage groupFormat with
  | [.int g, .int i, .int k, .str d, .str m] => some ⟨g, i, k, d, m⟩
  | _ => none

/-- `append_to_holdback_queue`: the node keeps the whole text as its content.
`stale` is what the uninitialised `sender_dep` held. -/
def appendToHoldbackQueue (stale : Clock) (head : List HoldBackQueue) (cleanMessage : Text) :
    Except Fault (List HoldBackQueue) :=
  match scanGroup cleanMessage with
  | none => .ok head
  | some f => do
      let senderDep ← getDepsInt f.deps stale
      return head ++ [⟨f.senderId, f.senderClkIndex, cleanMessage, senderDep⟩]

end ChatRing
