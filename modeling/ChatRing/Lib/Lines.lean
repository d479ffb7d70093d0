import Mathlib.Data.List.Infix
import Mathlib.Data.List.TakeDrop

/-!
# Reading a stream in bounded lines

A reader with room for `n` symbols takes them up to the end of the line, which it keeps,
and otherwise takes `n` symbols.  A line that does not fit is therefore read in pieces, and
the next read continues in the middle of it.

## Main results

* `readUpTo_append` — nothing is lost or repeated.
* `readUpTo_line`, `readUpTo_full` — a line that fits is read with its end, and of one that
  does not the first `n` symbols.
* `not_mem_dropLast_readUpTo` — only the last symbol read can be the end of a line.
* `flatten_fullPieces`, `lastPiece_eq_nil_iff` — the pieces are the line, and the last one is
  empty exactly when `n` divides its length.
-/

namespace Lines

section Reading

variable {α : Type*} [DecidableEq α]

/-- At most `n` symbols, and no further than the first `stop`: what is read and what is
left. -/
def readUpTo (stop : α) : ℕ → List α → List α × List α
  | 0, s => ([], s)
  | _ + 1, [] => ([], [])
  | n + 1, c :: s =>
      if c = stop then ([c], s)
      else (c :: (readUpTo stop n s).1, (readUpTo stop n s).2)

variable {stop : α} {n : ℕ} {s line : List α}

@[simp] theorem readUpTo_zero (stop : α) (s : List α) : readUpTo stop 0 s = ([], s) := rfl

@[simp] theorem readUpTo_nil (stop : α) (n : ℕ) : readUpTo stop n [] = ([], []) := by
  cases n <;> rfl

@[simp] theorem readUpTo_cons (stop : α) (n : ℕ) (c : α) (s : List α) :
    readUpTo stop (n + 1) (c :: s) =
      if c = stop then ([c], s)
      else (c :: (readUpTo stop n s).1, (readUpTo stop n s).2) := rfl

/-- **Nothing is lost or repeated.** -/
theorem readUpTo_append (stop : α) (n : ℕ) (s : List α) :
    (readUpTo stop n s).1 ++ (readUpTo stop n s).2 = s := by
  induction n generalizing s with
  | zero => simp
  | succ n ih =>
      cases s with
      | nil => simp
      | cons c s =>
          rw [readUpTo_cons]
          split
          · simp
          · simpa using ih s

theorem length_readUpTo_le (stop : α) (n : ℕ) (s : List α) :
    (readUpTo stop n s).1.length ≤ n := by
  induction n generalizing s with
  | zero => simp
  | succ n ih =>
      cases s with
      | nil => simp
      | cons c s =>
          rw [readUpTo_cons]
          split
          · simp
          · simpa using ih s

/-- The reader moves on. -/
theorem length_rest_lt (stop : α) (hn : 0 < n) (hs : s ≠ []) :
    (readUpTo stop n s).2.length < s.length := by
  obtain ⟨n, rfl⟩ := Nat.exists_eq_succ_of_ne_zero hn.ne'
  obtain ⟨c, s, rfl⟩ := List.exists_cons_of_ne_nil hs
  have hlen := congrArg List.length (readUpTo_append stop n s)
  rw [List.length_append] at hlen
  rw [Nat.succ_eq_add_one, readUpTo_cons]
  split
  · simp
  · simp only [List.length_cons]
    omega

/-- **Only the last symbol read can be the end of a line.** -/
theorem not_mem_dropLast_readUpTo (stop : α) (n : ℕ) (s : List α) :
    stop ∉ (readUpTo stop n s).1.dropLast := by
  induction n generalizing s with
  | zero => simp
  | succ n ih =>
      cases s with
      | nil => simp
      | cons c s =>
          rw [readUpTo_cons]
          split
          · simp
          · rename_i hc
            by_cases hnil : (readUpTo stop n s).1 = []
            · simp [hnil]
            · rw [List.dropLast_cons_of_ne_nil hnil, List.mem_cons, not_or]
              exact ⟨Ne.symm hc, ih s⟩

/-- A line that fits is read with its end. -/
theorem readUpTo_line (h : stop ∉ line) (hlen : line.length < n) (rest : List α) :
    readUpTo stop n (line ++ stop :: rest) = (line ++ [stop], rest) := by
  induction line generalizing n with
  | nil =>
      obtain ⟨n, rfl⟩ := Nat.exists_eq_succ_of_ne_zero hlen.ne'
      simp
  | cons c line ih =>
      rw [List.mem_cons, not_or] at h
      obtain ⟨n, rfl⟩ := Nat.exists_eq_succ_of_ne_zero (Nat.ne_zero_of_lt hlen)
      have hrest := ih h.2 (Nat.lt_of_succ_lt_succ hlen)
      simp [hrest, Ne.symm h.1]

/-- Of a line that does not fit the beginning is read. -/
theorem readUpTo_full (h : stop ∉ line) (rest : List α) :
    readUpTo stop line.length (line ++ rest) = (line, rest) := by
  induction line with
  | nil => simp
  | cons c line ih =>
      rw [List.mem_cons, not_or] at h
      simp [ih h.2, Ne.symm h.1]

end Reading

/-! ## The pieces of a line -/

section Pieces

variable {α : Type*} {n : ℕ} {line : List α}

/-- The pieces of a line that `n` symbols are read of, without the last. -/
def fullPieces (n : ℕ) (line : List α) : List (List α) :=
  (List.range (line.length / n)).map fun k => (line.drop (n * k)).take n

/-- The last piece, which is read with the end of the line. -/
def lastPiece (n : ℕ) (line : List α) : List α := line.drop (n * (line.length / n))

theorem fullPieces_of_lt (h : line.length < n) : fullPieces n line = [] := by
  simp [fullPieces, Nat.div_eq_of_lt h]

theorem lastPiece_of_lt (h : line.length < n) : lastPiece n line = line := by
  simp [lastPiece, Nat.div_eq_of_lt h]

theorem div_length_drop (hn : 0 < n) (h : n ≤ line.length) :
    line.length / n = (line.drop n).length / n + 1 := by
  rw [List.length_drop, Nat.div_eq_sub_div hn h]

/-- The first piece of a line that does not fit, and the pieces of what is left. -/
theorem fullPieces_of_le (hn : 0 < n) (h : n ≤ line.length) :
    fullPieces n line = line.take n :: fullPieces n (line.drop n) := by
  rw [fullPieces, div_length_drop hn h, List.range_succ_eq_map, List.map_cons, List.map_map,
    fullPieces]
  simp [Function.comp_def, Nat.mul_add, Nat.add_comm]

theorem lastPiece_of_le (hn : 0 < n) (h : n ≤ line.length) :
    lastPiece n line = lastPiece n (line.drop n) := by
  rw [lastPiece, div_length_drop hn h, lastPiece, List.drop_drop, Nat.mul_add, Nat.mul_one,
    Nat.add_comm]

theorem length_lastPiece (n : ℕ) (line : List α) :
    (lastPiece n line).length = line.length % n := by
  rw [lastPiece, List.length_drop, Nat.mod_eq_sub]

/-- The last piece is empty exactly when the pieces before it fill the line. -/
theorem lastPiece_eq_nil_iff : lastPiece n line = [] ↔ n ∣ line.length := by
  rw [← List.length_eq_zero_iff, length_lastPiece, Nat.dvd_iff_mod_eq_zero]

/-- **The pieces are the line.** -/
theorem flatten_fullPieces (hn : 0 < n) (line : List α) :
    (fullPieces n line).flatten ++ lastPiece n line = line := by
  induction hlen : line.length using Nat.strong_induction_on generalizing line with
  | _ k ih =>
      by_cases h : line.length < n
      · simp [fullPieces_of_lt h, lastPiece_of_lt h]
      · have hle : n ≤ line.length := by omega
        have hrest := ih (line.drop n).length (by rw [List.length_drop]; omega) _ rfl
        rw [fullPieces_of_le hn hle, lastPiece_of_le hn hle, List.flatten_cons, List.append_assoc,
          hrest, List.take_append_drop]

end Pieces

end Lines
