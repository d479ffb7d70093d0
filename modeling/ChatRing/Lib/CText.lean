import Mathlib.Algebra.Order.Ring.Int
import Mathlib.Data.List.Basic
import Mathlib.Data.List.DropRight
import Mathlib.Data.List.Infix
import Mathlib.Data.List.TakeWhile

/-!
# C strings, formatted printing and scanning

The part of the C string library that a line protocol needs, over lists of
characters.  A buffer is a list of characters that may contain NUL; `cstr` is the
string a C function sees in it.  `format` reads a format string once, and
`sprintf` and `sscanf` interpret the directives it yields: `%d`, `%s` and
`%[^c]` with an optional width.

A conversion stops at the first directive that does not match, so the number of
assignments `sscanf` returns is the length of the list of values here.

## Main definitions

* `intText n` — what `%d` prints.
* `scanInt s` — what `%d`, `strtol` and `atoi` read.
* `sprintf`, `sscanf` — the two interpreters of a format.
* `strstr pat s` — the text before the first occurrence, and the rest.
* `tokens d s` — the fields `strtok` walks over.
-/

namespace CText

/-- A C string without its terminating NUL, or the bytes of a buffer. -/
abbrev Text := List Char

/-- The characters of a literal.  A constant of its own, so that rewriting does not
unfold the literal. -/
def text (s : String) : Text := s.toList

/-- The string a buffer holds: its bytes before the first NUL. -/
def cstr (buf : Text) : Text := buf.takeWhile (· ≠ '\x00')

theorem nul_not_mem_cstr (buf : Text) : '\x00' ∉ cstr buf := fun h => by
  simpa using List.mem_takeWhile_imp h

theorem cstr_append_nul {s : Text} (h : '\x00' ∉ s) (t : Text) :
    cstr (s ++ '\x00' :: t) = s := by
  have hs : ∀ c ∈ s, decide (c ≠ '\x00') = true := by
    intro c hc
    exact decide_eq_true (ne_of_mem_of_not_mem hc h)
  rw [cstr, List.takeWhile_append_of_pos hs]
  simp

/-- What stands behind a NUL is not part of the string. -/
theorem cstr_append_of_mem {s : Text} (h : '\x00' ∈ s) (t : Text) : cstr (s ++ t) = cstr s := by
  obtain ⟨a, b, rfl, ha⟩ := List.eq_append_cons_of_mem h
  rw [List.append_assoc, List.cons_append, cstr_append_nul ha, cstr_append_nul ha]

theorem cstr_eq_self {s : Text} (h : '\x00' ∉ s) : cstr s = s := by
  rw [cstr, List.takeWhile_eq_self_iff]
  intro c hc
  exact decide_eq_true (ne_of_mem_of_not_mem hc h)

/-- `isspace` in the C locale. -/
def isSpace (c : Char) : Bool :=
  c = ' ' || c = '\t' || c = '\n' || c = '\x0b' || c = '\x0c' || c = '\r'

/-! ## Integers -/

/-- The `int` stored for a number that `strtol` read: clamped to `long`, then
truncated. -/
def toInt (n : ℤ) : ℤ := Int.bmod (max (-2 ^ 63) (min n (2 ^ 63 - 1))) (2 ^ 32)

/-- The numbers a C `int` holds. -/
def IsInt (n : ℤ) : Prop := -2 ^ 31 ≤ n ∧ n < 2 ^ 31

instance (n : ℤ) : Decidable (IsInt n) := inferInstanceAs (Decidable (_ ∧ _))

theorem toInt_of_isInt {n : ℤ} (h : IsInt n) : toInt n = n := by
  obtain ⟨h₁, h₂⟩ := h
  have hmin : min n (2 ^ 63 - 1) = n := min_eq_left (by omega)
  have hmax : max (-2 ^ 63) n = n := max_eq_right (by omega)
  rw [toInt, hmin, hmax]
  apply Int.bmod_eq_of_le <;> omega

/-- Decimal text, as `%d` prints it. -/
def intText : ℤ → Text
  | .ofNat n => Nat.toDigits 10 n
  | .negSucc n => '-' :: Nat.toDigits 10 (n + 1)

/-- At least one decimal digit, and the text after the last one. -/
def scanDigits (s : Text) : Option (ℕ × Text) :=
  if s.takeWhile Char.isDigit = [] then none
  else some (Nat.ofDigitChars 10 (s.takeWhile Char.isDigit) 0, s.dropWhile Char.isDigit)

/-- White space, an optional sign and digits: the longest number at the start of
`s`, as an `int`, and the text after it. -/
def scanInt (s : Text) : Option (ℤ × Text) :=
  match s.dropWhile isSpace with
  | '-' :: t => (scanDigits t).map fun p => (toInt (-p.1), p.2)
  | '+' :: t => (scanDigits t).map fun p => (toInt p.1, p.2)
  | t => (scanDigits t).map fun p => (toInt p.1, p.2)

/-- `atoi`: zero when no number starts the text. -/
def atoi (s : Text) : ℤ := ((scanInt s).map Prod.fst).getD 0

theorem isDigit_of_mem_toDigits {n : ℕ} {c : Char} (h : c ∈ Nat.toDigits 10 n) :
    c.isDigit = true := Nat.isDigit_of_mem_toDigits (by decide) (by decide) h

/-- The text that follows a printed number must not extend it. -/
def NoDigitHead (s : Text) : Prop := ∀ c ∈ s.head?, c.isDigit = false

@[simp] theorem noDigitHead_nil : NoDigitHead [] := by simp [NoDigitHead]

@[simp] theorem noDigitHead_cons (c : Char) (s : Text) :
    NoDigitHead (c :: s) ↔ c.isDigit = false := by simp [NoDigitHead]

theorem scanDigits_toDigits (n : ℕ) {s : Text} (hs : NoDigitHead s) :
    scanDigits (Nat.toDigits 10 n ++ s) = some (n, s) := by
  have hd : ∀ c ∈ Nat.toDigits 10 n, c.isDigit = true := fun _ => isDigit_of_mem_toDigits
  have htake : s.takeWhile Char.isDigit = [] := by
    cases s with
    | nil => rfl
    | cons c s => simp [(noDigitHead_cons c s).mp hs]
  have hdrop : s.dropWhile Char.isDigit = s := by
    cases s with
    | nil => rfl
    | cons c s => simp [(noDigitHead_cons c s).mp hs]
  simp only [scanDigits, List.takeWhile_append_of_pos hd, List.dropWhile_append_of_pos hd,
    htake, hdrop, List.append_nil, Nat.toDigits_ne_nil, if_false, Nat.ofDigitChars_ten_toDigits]

theorem isSpace_of_isDigit {c : Char} (h : c.isDigit = true) : isSpace c = false := by
  by_contra hs
  simp only [isSpace, Bool.not_eq_false, Bool.or_eq_true, decide_eq_true_eq] at hs
  rcases hs with ((((rfl | rfl) | rfl) | rfl) | rfl) | rfl <;> simp_all [Char.isDigit]

/-- **`%d` reads back what `%d` printed**, up to the first character that is not
a digit. -/
theorem scanInt_intText {n : ℤ} (hn : IsInt n) {s : Text} (hs : NoDigitHead s) :
    scanInt (intText n ++ s) = some (n, s) := by
  cases n with
  | ofNat k =>
      obtain ⟨c, ds, hds⟩ := List.exists_cons_of_ne_nil (Nat.toDigits_ne_nil (n := k) (b := 10))
      have hc : c.isDigit = true := isDigit_of_mem_toDigits (n := k) (by simp [hds])
      have hminus : c ≠ '-' := by rintro rfl; simp [Char.isDigit] at hc
      have hplus : c ≠ '+' := by rintro rfl; simp [Char.isDigit] at hc
      have hscan := scanDigits_toDigits k hs
      simp only [hds, List.cons_append] at hscan
      simp only [intText, hds, List.cons_append, scanInt,
        List.dropWhile_cons_of_neg (by simp [isSpace_of_isDigit hc] : ¬ isSpace c = true)]
      split
      · rename_i h; exact absurd (List.cons.inj h).1 hminus
      · rename_i h; exact absurd (List.cons.inj h).1 hplus
      · rw [hscan]
        simp only [Option.map_some]
        exact congrArg (fun m => some (m, s)) (toInt_of_isInt hn)
  | negSucc k =>
      have hspace : ¬ isSpace '-' = true := by decide
      simp only [intText, List.cons_append, scanInt, List.dropWhile_cons_of_neg hspace,
        scanDigits_toDigits (k + 1) hs, Option.map_some]
      exact congrArg (fun m => some (m, s)) (toInt_of_isInt hn)

@[simp] theorem atoi_intText {n : ℤ} (hn : IsInt n) : atoi (intText n) = n := by
  have h := scanInt_intText hn noDigitHead_nil
  simp only [List.append_nil] at h
  simp [atoi, h]

theorem scanDigits_suffix {s t : Text} {k : ℕ} (h : scanDigits s = some (k, t)) : t <:+ s := by
  rw [scanDigits] at h
  split at h
  · cases h
  · cases h
    exact List.dropWhile_suffix _

/-- What follows a number is the end of the text. -/
theorem scanInt_suffix {s t : Text} {n : ℤ} (h : scanInt s = some (n, t)) : t <:+ s := by
  refine List.IsSuffix.trans ?_ (List.dropWhile_suffix isSpace)
  rw [scanInt] at h
  split at h
  · rename_i u hu
    obtain ⟨⟨k, t'⟩, hd, heq⟩ := Option.map_eq_some_iff.mp h
    cases heq
    rw [hu]
    exact (scanDigits_suffix hd).trans (List.suffix_cons _ _)
  · rename_i u hu
    obtain ⟨⟨k, t'⟩, hd, heq⟩ := Option.map_eq_some_iff.mp h
    cases heq
    rw [hu]
    exact (scanDigits_suffix hd).trans (List.suffix_cons _ _)
  · obtain ⟨⟨k, t'⟩, hd, heq⟩ := Option.map_eq_some_iff.mp h
    cases heq
    exact scanDigits_suffix hd

theorem intText_ne_nil (n : ℤ) : intText n ≠ [] := by
  cases n <;> simp [intText, Nat.toDigits_ne_nil]

/-- Decimal text consists of digits and a sign. -/
theorem mem_intText {n : ℤ} {c : Char} (h : c ∈ intText n) : c.isDigit = true ∨ c = '-' := by
  cases n with
  | ofNat k => exact Or.inl (isDigit_of_mem_toDigits h)
  | negSucc k =>
      rcases List.mem_cons.mp h with rfl | h
      · exact Or.inr rfl
      · exact Or.inl (isDigit_of_mem_toDigits h)

/-- A character that is neither a digit nor a sign is not in decimal text. -/
theorem not_mem_intText {c : Char} (n : ℤ) (hd : c.isDigit = false) (hm : c ≠ '-') :
    c ∉ intText n := by
  intro h
  rcases mem_intText h with h | h
  · rw [hd] at h; cases h
  · exact hm h

/-- Ten digits are enough for an `int` without a sign. -/
theorem IsInt.length_le_of_nonneg {n : ℤ} (h : IsInt n) (hn : 0 ≤ n) :
    (intText n).length ≤ 10 := by
  obtain ⟨-, h₂⟩ := h
  obtain ⟨k, rfl⟩ := Int.eq_ofNat_of_zero_le hn
  show (Nat.toDigits 10 k).length ≤ 10
  rw [Nat.length_toDigits_le_iff (by decide) (by decide)]
  omega

/-- A sign and ten digits are enough for an `int`. -/
theorem IsInt.length_le {n : ℤ} (h : IsInt n) : (intText n).length ≤ 11 := by
  cases n with
  | ofNat k => exact (h.length_le_of_nonneg (Int.natCast_nonneg k)).trans (by decide)
  | negSucc k =>
      obtain ⟨h₁, h₂⟩ := h
      have hk : (Nat.toDigits 10 (k + 1)).length ≤ 10 := by
        rw [Nat.length_toDigits_le_iff (by decide) (by decide)]
        omega
      exact Nat.succ_le_succ hk

/-! ## Formats -/

/-- A conversion or a literal character of a format string. -/
inductive Directive
  /-- A character to print or to match; white space matches any white space. -/
  | lit (c : Char)
  /-- `%d` -/
  | int
  /-- `%s` -/
  | str
  /-- `%[^c]`, with the field width when one is given -/
  | set (width : Option ℕ) (stop : Char)
  deriving DecidableEq, Repr

/-- Read a format; `width` is `none` outside a conversion. -/
def formatAux : Option (Option ℕ) → Text → List Directive
  | _, [] => []
  | none, '%' :: f => formatAux (some none) f
  | none, c :: f => .lit c :: formatAux none f
  | some _, 'd' :: f => .int :: formatAux none f
  | some _, 's' :: f => .str :: formatAux none f
  | some w, '[' :: '^' :: c :: ']' :: f => .set w c :: formatAux none f
  | some w, c :: f => formatAux (some (some (10 * w.getD 0 + (c.toNat - '0'.toNat)))) f

/-- The directives of a format string. -/
def format (f : String) : List Directive := formatAux none (text f)

/-- A value printed or assigned by a conversion. -/
inductive Arg
  | int (n : ℤ)
  | str (t : Text)
  deriving DecidableEq, Repr

/-- Interpret directives as `sprintf` does. -/
def print : List Directive → List Arg → Text
  | [], _ => []
  | .lit c :: ds, as => c :: print ds as
  | .int :: ds, .int n :: as => intText n ++ print ds as
  | .str :: ds, .str t :: as => t ++ print ds as
  | _ :: ds, as => print ds as

/-- Interpret directives as `sscanf` does: the values assigned before the first
directive that fails. -/
def scan : List Directive → Text → List Arg
  | [], _ => []
  | .lit c :: ds, s =>
      if isSpace c then scan ds (s.dropWhile isSpace)
      else match s with
        | [] => []
        | x :: s => if x = c then scan ds s else []
  | .int :: ds, s =>
      match scanInt s with
      | none => []
      | some (n, s) => .int n :: scan ds s
  | .str :: ds, s =>
      let s := s.dropWhile isSpace
      let w := s.takeWhile (!isSpace ·)
      if w = [] then [] else .str w :: scan ds (s.drop w.length)
  | .set width c :: ds, s =>
      let w := s.takeWhile (· ≠ c)
      let w := match width with
        | none => w
        | some k => w.take k
      if w = [] then [] else .str w :: scan ds (s.drop w.length)

def sprintf (f : String) (as : List Arg) : Text := print (format f) as

def sscanf (s : Text) (f : String) : List Arg := scan (format f) s

@[simp] theorem scan_nil (s : Text) : scan [] s = [] := rfl

theorem scan_lit_nil (c : Char) (ds : List Directive) :
    scan (.lit c :: ds) [] = if isSpace c then scan ds [] else [] := rfl

theorem scan_lit_cons (c x : Char) (ds : List Directive) (s : Text) :
    scan (.lit c :: ds) (x :: s) =
      if isSpace c then scan ds ((x :: s).dropWhile isSpace)
      else if x = c then scan ds s else [] := rfl

theorem scan_int_none {s : Text} (h : scanInt s = none) (ds : List Directive) :
    scan (.int :: ds) s = [] :=
  congrArg (fun r : Option (ℤ × Text) =>
    match r with
    | none => []
    | some (n, s) => Arg.int n :: scan ds s) h

theorem scan_int_some {s t : Text} {n : ℤ} (h : scanInt s = some (n, t)) (ds : List Directive) :
    scan (.int :: ds) s = .int n :: scan ds t :=
  congrArg (fun r : Option (ℤ × Text) =>
    match r with
    | none => []
    | some (n, s) => Arg.int n :: scan ds s) h

theorem scan_str_eq (ds : List Directive) (s : Text) :
    scan (.str :: ds) s =
      if (s.dropWhile isSpace).takeWhile (!isSpace ·) = [] then []
      else .str ((s.dropWhile isSpace).takeWhile (!isSpace ·)) ::
        scan ds ((s.dropWhile isSpace).drop
          ((s.dropWhile isSpace).takeWhile (!isSpace ·)).length) := rfl

theorem scan_set_none (c : Char) (ds : List Directive) (s : Text) :
    scan (.set none c :: ds) s =
      if s.takeWhile (· ≠ c) = [] then []
      else .str (s.takeWhile (· ≠ c)) :: scan ds (s.drop (s.takeWhile (· ≠ c)).length) := rfl

theorem scan_set_some (k : ℕ) (c : Char) (ds : List Directive) (s : Text) :
    scan (.set (some k) c :: ds) s =
      if (s.takeWhile (· ≠ c)).take k = [] then []
      else .str ((s.takeWhile (· ≠ c)).take k) ::
        scan ds (s.drop ((s.takeWhile (· ≠ c)).take k).length) := rfl

/-- White space in a format skips white space in the text. -/
theorem scan_space {c : Char} (hc : isSpace c = true) (ds : List Directive) (s : Text) :
    scan (.lit c :: ds) s = scan ds (s.dropWhile isSpace) := by
  cases s with
  | nil => rw [scan_lit_nil, if_pos hc, List.dropWhile_nil]
  | cons x s => rw [scan_lit_cons, if_pos hc]

theorem scan_lit {c : Char} (hc : isSpace c = false) (ds : List Directive) (s : Text) :
    scan (.lit c :: ds) (c :: s) = scan ds s := by
  simp [scan_lit_cons, hc]

/-- A literal that differs from the text ends the conversion. -/
theorem scan_lit_ne {c x : Char} (hc : isSpace c = false) (hx : x ≠ c) (ds : List Directive)
    (s : Text) : scan (.lit c :: ds) (x :: s) = [] := by
  simp [scan_lit_cons, hc, hx]

/-- A text that begins with another character than the format assigns nothing. -/
theorem sscanf_of_head_ne {f : String} {c x : Char} (hf : (format f).head? = some (.lit c))
    (hc : isSpace c = false) (hx : x ≠ c) (s : Text) : sscanf (x :: s) f = [] := by
  obtain ⟨ds, hds⟩ := List.head?_eq_some_iff.mp hf
  rw [sscanf, hds, scan_lit_ne hc hx]

/-- The format and the text begin with different characters. -/
def differs (f : String) (key : Text) : Bool :=
  match format f, key with
  | .lit c :: _, x :: _ => !isSpace c && x ≠ c
  | _, _ => false

theorem sscanf_of_differs {f : String} {key : Text} (h : differs f key = true) (s : Text) :
    sscanf (key ++ s) f = [] := by
  unfold differs at h
  split at h
  · rename_i c ds x key hf
    simp only [Bool.and_eq_true, Bool.not_eq_true', decide_eq_true_eq] at h
    exact sscanf_of_head_ne (by rw [hf]; rfl) h.1 h.2 _
  · cases h

theorem scan_int {n : ℤ} (hn : IsInt n) {s : Text} (hs : NoDigitHead s) (ds : List Directive) :
    scan (.int :: ds) (intText n ++ s) = .int n :: scan ds s :=
  scan_int_some (scanInt_intText hn hs) ds

/-- `%s` takes a word up to the next white space. -/
theorem scan_str {w s : Text} (hne : w ≠ []) (hw : ∀ c ∈ w, isSpace c = false)
    (hs : ∀ c ∈ s.head?, isSpace c = true) (ds : List Directive) :
    scan (.str :: ds) (w ++ s) = .str w :: scan ds s := by
  obtain ⟨x, w', rfl⟩ := List.exists_cons_of_ne_nil hne
  have hx : ¬ isSpace x = true := by simp [hw x (by simp)]
  have hw' : ∀ c ∈ x :: w', (!isSpace c) = true := by
    intro c hc
    simp [hw c hc]
  have htake : s.takeWhile (!isSpace ·) = [] := by
    cases s with
    | nil => rfl
    | cons c s => simp [hs c (by simp)]
  have hdrop : (x :: w' ++ s).dropWhile isSpace = x :: w' ++ s := by
    rw [List.cons_append, List.dropWhile_cons_of_neg hx]
  simp only [scan_str_eq, hdrop, List.takeWhile_append_of_pos hw', htake, List.append_nil, hne,
    if_false, List.drop_left]

/-- `%s` fails on blank text. -/
theorem scan_str_blank {s : Text} (hs : ∀ c ∈ s, isSpace c = true) (ds : List Directive) :
    scan (.str :: ds) s = [] := by
  have h : s.dropWhile isSpace = [] := List.dropWhile_eq_nil_iff.mpr hs
  simp [scan_str_eq, h]

/-- A field up to a separator, within its width. -/
theorem scan_set {width : Option ℕ} {stop : Char} {w s : Text} (hne : w ≠ []) (hw : stop ∉ w)
    (hlen : ∀ k ∈ width, w.length ≤ k) (hs : ∀ c ∈ s.head?, c = stop) (ds : List Directive) :
    scan (.set width stop :: ds) (w ++ s) = .str w :: scan ds s := by
  have hw' : ∀ c ∈ w, decide (c ≠ stop) = true := by
    intro c hc
    exact decide_eq_true (ne_of_mem_of_not_mem hc hw)
  have htake : s.takeWhile (· ≠ stop) = [] := by
    cases s with
    | nil => rfl
    | cons c s => simp [hs c (by simp)]
  cases width with
  | none =>
      simp only [scan_set_none, List.takeWhile_append_of_pos hw', htake, List.append_nil, hne,
        if_false, List.drop_left]
  | some k =>
      have hk : w.take k = w := List.take_of_length_le (hlen k rfl)
      simp only [scan_set_some, List.takeWhile_append_of_pos hw', htake, List.append_nil, hk, hne,
        if_false, List.drop_left]

/-! ### Runs of literal characters -/

/-- The directives of literal text. -/
def lits (s : Text) : List Directive := s.map .lit

theorem scan_lits {w : Text} (hw : w.any isSpace = false) (ds : List Directive) (s : Text) :
    scan (lits w ++ ds) (w ++ s) = scan ds s := by
  induction w with
  | nil => rfl
  | cons c w ih =>
      simp only [List.any_cons, Bool.or_eq_false_iff] at hw
      simp only [lits, List.map_cons, List.cons_append, scan_lit hw.1]
      exact ih hw.2

/-- A format that begins with literal text assigns something only to a text that does. -/
theorem prefix_of_scan_lits {w : Text} (hw : w.any isSpace = false) {ds : List Directive}
    {s : Text} (h : scan (lits w ++ ds) s ≠ []) : w <+: s := by
  induction w generalizing s with
  | nil => exact List.nil_prefix
  | cons c w ih =>
      simp only [List.any_cons, Bool.or_eq_false_iff] at hw
      simp only [lits, List.map_cons, List.cons_append] at h
      cases s with
      | nil => simp [scan_lit_nil, hw.1] at h
      | cons x s =>
          by_cases hx : x = c
          · subst hx
            rw [scan_lit hw.1] at h
            exact (List.prefix_cons_inj x).mpr (ih hw.2 h)
          · exact absurd (scan_lit_ne hw.1 hx _ s) h

/-- White space in the format meets at least as much white space in the text. -/
theorem scan_spaces {w s : Text} (hne : w ≠ []) (hw : w.all isSpace = true)
    (ds : List Directive) : scan (lits w ++ ds) s = scan ds (s.dropWhile isSpace) := by
  induction w generalizing s with
  | nil => exact absurd rfl hne
  | cons c w ih =>
      simp only [List.all_cons, Bool.and_eq_true] at hw
      simp only [lits, List.map_cons, List.cons_append, scan_space hw.1]
      cases w with
      | nil => rfl
      | cons d w =>
          have h := ih (s := s.dropWhile isSpace) (by simp) hw.2
          rw [List.dropWhile_idempotent] at h
          exact h

/-- A field that is scanned is a part of the text. -/
theorem infix_of_mem_scan {w : Text} {ds : List Directive} {s : Text} (h : .str w ∈ scan ds s) :
    w <:+: s := by
  induction ds generalizing s with
  | nil => cases h
  | cons d ds ih =>
      cases d with
      | lit c =>
          cases s with
          | nil =>
              rw [scan_lit_nil] at h
              split at h
              · exact ih h
              · cases h
          | cons x s =>
              rw [scan_lit_cons] at h
              split at h
              · exact (ih h).trans (List.dropWhile_suffix _).isInfix
              · split at h
                · exact (ih h).trans (List.suffix_cons _ _).isInfix
                · cases h
      | int =>
          cases hscan : scanInt s with
          | none =>
              rw [scan_int_none hscan] at h
              cases h
          | some r =>
              obtain ⟨n, t⟩ := r
              rw [scan_int_some hscan] at h
              obtain h | h := List.mem_cons.mp h
              · cases h
              · exact (ih h).trans (scanInt_suffix hscan).isInfix
      | str =>
          rw [scan_str_eq] at h
          split at h
          · cases h
          · obtain h | h := List.mem_cons.mp h
            · cases h
              exact (List.takeWhile_prefix _).isInfix.trans (List.dropWhile_suffix _).isInfix
            · exact ((ih h).trans (List.drop_suffix _ _).isInfix).trans
                (List.dropWhile_suffix _).isInfix
      | set width c =>
          have hword : s.takeWhile (· ≠ c) <:+: s := (List.takeWhile_prefix _).isInfix
          cases width with
          | none =>
              rw [scan_set_none] at h
              split at h
              · cases h
              · obtain h | h := List.mem_cons.mp h
                · cases h
                  exact hword
                · exact (ih h).trans (List.drop_suffix _ _).isInfix
          | some k =>
              rw [scan_set_some] at h
              split at h
              · cases h
              · obtain h | h := List.mem_cons.mp h
                · cases h
                  exact (List.take_prefix k _).isInfix.trans hword
                · exact (ih h).trans (List.drop_suffix _ _).isInfix

@[simp] theorem print_nil (as : List Arg) : print [] as = [] := rfl

@[simp] theorem print_lit (c : Char) (ds : List Directive) (as : List Arg) :
    print (.lit c :: ds) as = c :: print ds as := rfl

@[simp] theorem print_int (n : ℤ) (ds : List Directive) (as : List Arg) :
    print (.int :: ds) (.int n :: as) = intText n ++ print ds as := rfl

@[simp] theorem print_str (t : Text) (ds : List Directive) (as : List Arg) :
    print (.str :: ds) (.str t :: as) = t ++ print ds as := rfl

/-- What a format that begins with a literal character prints. -/
theorem sprintf_of_head {f : String} {c : Char} (hf : (format f).head? = some (.lit c))
    (as : List Arg) : ∃ s, sprintf f as = c :: s := by
  obtain ⟨ds, hds⟩ := List.head?_eq_some_iff.mp hf
  exact ⟨print ds as, by rw [sprintf, hds, print_lit]⟩

/-- Printing literal text copies it. -/
@[simp] theorem print_lits (w : Text) (ds : List Directive) (as : List Arg) :
    print (lits w ++ ds) as = w ++ print ds as := by
  induction w with
  | nil => rfl
  | cons c w ih =>
      simp only [lits, List.map_cons, List.cons_append, print_lit] at ih ⊢
      rw [ih]

@[simp] theorem print_lits_nil (w : Text) (as : List Arg) : print (lits w) as = w := by
  simpa using print_lits w [] as

/-! ## Searching and splitting -/

/-- The first occurrence of `pat`: the text before it, and the text from it on. -/
def strstr (pat : Text) : Text → Option (Text × Text)
  | [] => if pat = [] then some ([], []) else none
  | c :: s =>
      if pat.isPrefixOf (c :: s) then some ([], c :: s)
      else (strstr pat s).map fun p => (c :: p.1, p.2)

theorem strstr_nil (pat : Text) : strstr pat [] = if pat = [] then some ([], []) else none := rfl

theorem strstr_cons (pat : Text) (c : Char) (s : Text) :
    strstr pat (c :: s) =
      if pat.isPrefixOf (c :: s) then some ([], c :: s)
      else (strstr pat s).map fun p => (c :: p.1, p.2) := rfl

/-- The two parts `strstr` finds make up the text, and the second starts with the
pattern. -/
theorem strstr_eq_some {pat s a b : Text} (h : strstr pat s = some (a, b)) :
    s = a ++ b ∧ pat <+: b := by
  induction s generalizing a b with
  | nil =>
      by_cases hp : pat = [] <;> simp [strstr_nil, hp] at h
      obtain ⟨rfl, rfl⟩ := h
      simp [hp]
  | cons c s ih =>
      by_cases hp : pat.isPrefixOf (c :: s) = true
      · simp only [strstr_cons, hp, if_true, Option.some.injEq, Prod.mk.injEq] at h
        obtain ⟨rfl, rfl⟩ := h
        exact ⟨rfl, List.isPrefixOf_iff_prefix.mp hp⟩
      · simp only [strstr_cons, if_neg hp, Option.map_eq_some_iff] at h
        obtain ⟨⟨a', b'⟩, h', heq⟩ := h
        obtain ⟨rfl, rfl⟩ := Prod.mk.inj heq
        obtain ⟨rfl, hb⟩ := ih h'
        exact ⟨rfl, hb⟩

/-- No occurrence lies before the first one. -/
theorem not_infix_of_strstr {pat s a b : Text} (hne : pat ≠ []) (h : strstr pat s = some (a, b)) :
    ¬ pat <:+: a := by
  induction s generalizing a b with
  | nil => simp [strstr_nil, hne] at h
  | cons c s ih =>
      rw [strstr_cons] at h
      split at h
      · cases h
        simpa using hne
      · rename_i hp
        obtain ⟨⟨a', b'⟩, h', heq⟩ := Option.map_eq_some_iff.mp h
        cases heq
        rw [List.infix_cons_iff]
        rintro (hstart | hinfix)
        · obtain ⟨rfl, -⟩ := strstr_eq_some h'
          exact hp (List.isPrefixOf_iff_prefix.mpr (hstart.trans ⟨b', rfl⟩))
        · exact ih h' hinfix

/-- The first occurrence is found without what follows it. -/
theorem strstr_append_pat {pat s a b : Text} (h : strstr pat s = some (a, b)) :
    strstr pat (a ++ pat) = some (a, pat) := by
  induction s generalizing a with
  | nil =>
      by_cases hp : pat = []
      · simp only [strstr_nil, hp, if_true, Option.some.injEq, Prod.mk.injEq] at h
        obtain ⟨rfl, -⟩ := h
        simp [strstr_nil, hp]
      · simp [strstr_nil, hp] at h
  | cons c s ih =>
      by_cases hp : pat.isPrefixOf (c :: s)
      · simp only [strstr_cons, hp, if_true, Option.some.injEq, Prod.mk.injEq] at h
        obtain ⟨rfl, -⟩ := h
        cases pat with
        | nil => rfl
        | cons d pat =>
            rw [List.nil_append, strstr_cons, if_pos]
            rw [List.isPrefixOf_iff_prefix]
      · simp only [strstr_cons, if_neg hp, Option.map_eq_some_iff] at h
        obtain ⟨⟨a', b'⟩, h', heq⟩ := h
        obtain ⟨rfl, rfl⟩ := Prod.mk.inj heq
        obtain ⟨rfl, hb⟩ := strstr_eq_some h'
        have hnot : ¬ pat.isPrefixOf (c :: (a' ++ pat)) := by
          rw [List.isPrefixOf_iff_prefix] at hp ⊢
          intro hstart
          obtain ⟨t, rfl⟩ := hb
          exact hp (hstart.trans ⟨t, by simp⟩)
        rw [List.cons_append, strstr_cons, if_neg hnot, ih h']
        rfl

/-- `strstr` fails exactly when the pattern does not occur. -/
theorem strstr_eq_none_iff {pat s : Text} : strstr pat s = none ↔ ¬ pat <:+: s := by
  induction s with
  | nil => by_cases hp : pat = [] <;> simp [strstr_nil, hp]
  | cons c s ih =>
      by_cases hp : pat.isPrefixOf (c :: s) = true
      · simp [strstr_cons, hp, List.infix_cons_iff, List.isPrefixOf_iff_prefix.mp hp]
      · have hp' : ¬ pat <+: c :: s := by rwa [← List.isPrefixOf_iff_prefix]
        simp [strstr_cons, hp, ih, List.infix_cons_iff, hp']

/-- An occurrence is found again when text follows. -/
theorem strstr_append_right {pat s a b : Text} (h : strstr pat s = some (a, b)) (t : Text) :
    strstr pat (s ++ t) = some (a, b ++ t) := by
  induction s generalizing a b with
  | nil =>
      by_cases hp : pat = [] <;> simp [strstr_nil, hp] at h
      obtain ⟨rfl, rfl⟩ := h
      cases t <;> simp [strstr_nil, strstr_cons, hp]
  | cons c s ih =>
      by_cases hp : pat.isPrefixOf (c :: s) = true
      · simp only [strstr_cons, hp, if_true, Option.some.injEq, Prod.mk.injEq] at h
        obtain ⟨rfl, rfl⟩ := h
        have hp' : pat.isPrefixOf (c :: (s ++ t)) = true := by
          rw [List.isPrefixOf_iff_prefix] at hp ⊢
          exact hp.trans ⟨t, by simp⟩
        simp [strstr_cons, hp']
      · simp only [strstr_cons, if_neg hp, Option.map_eq_some_iff] at h
        obtain ⟨⟨a', b'⟩, h', heq⟩ := h
        obtain ⟨rfl, rfl⟩ := Prod.mk.inj heq
        have hp' : ¬ pat.isPrefixOf (c :: (s ++ t)) = true := by
          intro hpre
          rw [List.isPrefixOf_iff_prefix] at hp hpre
          have hlen : pat.length ≤ (c :: s).length := by
            obtain ⟨rfl, hb⟩ := strstr_eq_some h'
            have := hb.length_le
            simp only [List.length_cons, List.length_append]
            omega
          exact hp (List.prefix_of_prefix_length_le hpre ⟨t, rfl⟩ hlen)
        simp [strstr_cons, hp', ih h']

/-- No pair `cc` occurs in `s` or can begin in it. -/
def Settled (c : Char) (s : Text) : Prop := ¬ [c, c] <:+: s ∧ s.getLast? ≠ some c

instance (c : Char) (s : Text) : Decidable (Settled c s) := inferInstanceAs (Decidable (_ ∧ _))

theorem settled_of_not_mem {c : Char} {s : Text} (h : c ∉ s) : Settled c s := by
  refine ⟨fun hin => h (hin.subset (by simp)), fun hlast => h (List.mem_of_getLast? hlast)⟩

/-- Settled text stays settled behind text without the pair, unless they meet in it. -/
theorem settled_append {c : Char} {s t : Text} (hs : ¬ [c, c] <:+: s) (ht : Settled c t)
    (hne : t ≠ []) (hborder : s.getLast? ≠ some c ∨ t.head? ≠ some c) : Settled c (s ++ t) := by
  refine ⟨fun hin => ?_, fun hlast => ht.2 (by rwa [List.getLast?_append_of_ne_nil s hne] at hlast)⟩
  rcases List.infix_append_iff_ne_nil.mp hin with h | h | ⟨u, v, hu, hv, heq, hsuffix, hstart⟩
  · exact hs h
  · exact ht.1 h
  · obtain ⟨x, u, rfl⟩ := List.exists_cons_of_ne_nil hu
    obtain ⟨y, v, rfl⟩ := List.exists_cons_of_ne_nil hv
    have hlen := congrArg List.length heq
    simp only [List.length_append, List.length_cons, List.length_nil] at hlen
    obtain rfl : u = [] := List.eq_nil_of_length_eq_zero (by omega)
    simp only [List.cons_append, List.nil_append, List.cons.injEq] at heq
    obtain ⟨rfl, rfl, -⟩ := heq
    rcases hborder with h | h
    · obtain ⟨w, rfl⟩ := hsuffix
      exact h (by simp)
    · obtain ⟨w, rfl⟩ := hstart
      exact h rfl

/-- A search for a pair passes over settled text. -/
theorem strstr_settled {c : Char} {s : Text} (h : Settled c s) (t : Text) :
    strstr [c, c] (s ++ t) = (strstr [c, c] t).map fun p => (s ++ p.1, p.2) := by
  induction s with
  | nil => simp
  | cons x s ih =>
      obtain ⟨hin, hlast⟩ := h
      have hpre : ¬ [c, c].isPrefixOf (x :: (s ++ t)) = true := by
        intro hp
        rw [List.isPrefixOf_iff_prefix, List.cons_prefix_cons] at hp
        obtain ⟨rfl, hp⟩ := hp
        cases s with
        | nil => simp at hlast
        | cons y s =>
            obtain ⟨rfl, -⟩ := List.cons_prefix_cons.mp hp
            exact hin ⟨[], s, rfl⟩
      have hs : s = [] ∨ Settled c s := by
        by_cases hs : s = []
        · exact Or.inl hs
        · refine Or.inr ⟨fun h => hin (h.trans (List.suffix_cons x s).isInfix), ?_⟩
          rwa [List.getLast?_cons_of_ne_nil hs] at hlast
      simp only [List.cons_append, strstr_cons, if_neg hpre]
      rcases hs with rfl | hs
      · simp
      · rw [ih hs, Option.map_map]
        rfl

/-- The fields of `s` between separators, empty ones skipped: what successive
calls of `strtok` return. -/
def tokens (d : Char) (s : Text) : List Text := (s.splitOn d).filter (· ≠ [])

/-- Nonempty fields without the separator are read back from their joined text. -/
theorem tokens_intercalate {d : Char} {ls : List Text} (hne : ls ≠ [])
    (hd : ∀ l ∈ ls, d ∉ l) (hl : ∀ l ∈ ls, l ≠ []) : tokens d ([d].intercalate ls) = ls := by
  rw [tokens, List.splitOn_intercalate d hd hne, List.filter_eq_self]
  intro l hmem
  exact decide_eq_true (hl l hmem)

/-- Appending every field with a separator and dropping the last one joins them. -/
theorem dropLast_foldl_append {α : Type*} (f : α → Text) (d : Char) {l : List α} (hl : l ≠ []) :
    (l.foldl (fun s x => s ++ (f x ++ [d])) []).dropLast = [d].intercalate (l.map f) := by
  have hflat : ∀ (l : List α) (s : Text),
      l.foldl (fun s x => s ++ (f x ++ [d])) s = s ++ (l.map fun x => f x ++ [d]).flatten := by
    intro l
    induction l with
    | nil => simp
    | cons x l ih => intro s; simp [ih]
  have hjoin : ∀ l : List α, l ≠ [] →
      (l.map fun x => f x ++ [d]).flatten = [d].intercalate (l.map f) ++ [d] := by
    intro l
    induction l with
    | nil => intro h; exact absurd rfl h
    | cons x l ih =>
        intro _
        cases l with
        | nil => simp
        | cons y l =>
            have h := ih (by simp)
            simp only [List.map_cons, List.flatten_cons] at h ⊢
            rw [h, List.intercalate_cons_cons]
            simp
  rw [hflat, List.nil_append, hjoin l hl, List.dropLast_concat]

end CText
