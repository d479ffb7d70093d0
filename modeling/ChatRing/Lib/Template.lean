import ChatRing.Lib.CText

/-!
# Labelled fields

A line of text that one format prints and another one reads: labels, each followed by a
field.  The printer writes a field as `%d` or `%s`; the reader stops at the end of the
number, or at the character that a scan set excludes, which the next label begins with.

## Main results

* `Template.print_printFormat`, `Template.scan_scanFormat` — the round trip.
* `Template.settled_text` — no pair of separators is in the line or can begin in it.
-/

namespace CText

/-- The labels of a line, each with the conversion that reads the field behind it. -/
abbrev Template := List (Text × Directive)

/-- The text of a field. -/
def Arg.text : Arg → Text
  | .int n => intText n
  | .str t => t

@[simp] theorem text_int (n : ℤ) : (Arg.int n).text = intText n := rfl

@[simp] theorem text_str (t : Text) : (Arg.str t).text = t := rfl

/-- The conversion that prints what `d` reads. -/
def Directive.printed : Directive → Directive
  | .set _ _ => .str
  | d => d

/-- The text `t` ends the field `a` that `d` reads. -/
def Reads (d : Directive) (a : Arg) (t : Text) : Prop :=
  match d, a with
  | .int, .int n => IsInt n ∧ NoDigitHead t
  | .set width stop, .str w =>
      w ≠ [] ∧ stop ∉ w ∧ (∀ k ∈ width, w.length ≤ k) ∧ ∀ c ∈ t.head?, c = stop
  | _, _ => False

@[simp] theorem reads_int {n : ℤ} {t : Text} :
    Reads .int (.int n) t ↔ IsInt n ∧ NoDigitHead t := Iff.rfl

@[simp] theorem reads_set {width : Option ℕ} {stop : Char} {w t : Text} :
    Reads (.set width stop) (.str w) t ↔
      w ≠ [] ∧ stop ∉ w ∧ (∀ k ∈ width, w.length ≤ k) ∧ ∀ c ∈ t.head?, c = stop := Iff.rfl

namespace Template

/-- The line with these fields. -/
def text : Template → List Arg → Text
  | (label, _) :: T, a :: fields => label ++ (a.text ++ text T fields)
  | _, _ => []

/-- The format that reads the line. -/
def scanFormat (T : Template) : List Directive := T.flatMap fun p => lits p.1 ++ [p.2]

/-- The format that prints the line. -/
def printFormat (T : Template) : List Directive := T.flatMap fun p => lits p.1 ++ [p.2.printed]

/-- Every field ends where the next label begins. -/
def Readable : Template → List Arg → Prop
  | [], [] => True
  | (label, d) :: T, a :: fields =>
      label.any isSpace = false ∧ Reads d a (text T fields) ∧ Readable T fields
  | _, _ => False

@[simp] theorem text_nil (fields : List Arg) : text [] fields = [] := rfl

@[simp] theorem text_cons (label : Text) (d : Directive) (T : Template) (a : Arg)
    (fields : List Arg) :
    text ((label, d) :: T) (a :: fields) = label ++ (a.text ++ text T fields) := rfl

@[simp] theorem readable_nil : Readable [] [] := trivial

@[simp] theorem readable_cons {label : Text} {d : Directive} {T : Template} {a : Arg}
    {fields : List Arg} : Readable ((label, d) :: T) (a :: fields) ↔
      label.any isSpace = false ∧ Reads d a (text T fields) ∧ Readable T fields := Iff.rfl

theorem Readable.length_eq {T : Template} {fields : List Arg} (h : Readable T fields) :
    T.length = fields.length := by
  induction T generalizing fields with
  | nil =>
      cases fields with
      | nil => rfl
      | cons a fields => cases h
  | cons p T ih =>
      cases fields with
      | nil => cases h
      | cons a fields => exact congrArg (· + 1) (ih h.2.2)

theorem print_field {d : Directive} {a : Arg} {t : Text} (h : Reads d a t) (ds : List Directive)
    (as : List Arg) : print (d.printed :: ds) (a :: as) = a.text ++ print ds as := by
  cases d with
  | int =>
      cases a with
      | int n => rfl
      | str w => cases h
  | set width stop =>
      cases a with
      | int n => cases h
      | str w => rfl
  | lit c => cases h
  | str => cases h

theorem scan_field {d : Directive} {a : Arg} {t : Text} (h : Reads d a t) (ds : List Directive) :
    scan (d :: ds) (a.text ++ t) = a :: scan ds t := by
  cases d with
  | int =>
      cases a with
      | int n => exact scan_int h.1 h.2 ds
      | str w => cases h
  | set width stop =>
      cases a with
      | int n => cases h
      | str w =>
          obtain ⟨hne, hstop, hwidth, hend⟩ := h
          exact scan_set hne hstop hwidth hend ds
  | lit c => cases h
  | str => cases h

/-- **The line is printed.** -/
theorem print_printFormat {T : Template} {fields : List Arg} (h : Readable T fields)
    (ds : List Directive) : print (T.printFormat ++ ds) fields = text T fields ++ print ds [] := by
  induction T generalizing fields with
  | nil =>
      cases fields with
      | nil => rfl
      | cons a fields => cases h
  | cons p T ih =>
      cases fields with
      | nil => cases h
      | cons a fields =>
          obtain ⟨-, hreads, hrest⟩ := h
          have hformat : printFormat (p :: T) ++ ds =
              lits p.1 ++ (p.2.printed :: (printFormat T ++ ds)) := by
            simp [printFormat]
          rw [hformat, print_lits, print_field hreads, ih hrest, text]
          simp only [List.append_assoc]

/-- **The fields are read back.** -/
theorem scan_scanFormat {T : Template} {fields : List Arg} (h : Readable T fields)
    (ds : List Directive) : scan (T.scanFormat ++ ds) (text T fields) = fields ++ scan ds [] := by
  induction T generalizing fields with
  | nil =>
      cases fields with
      | nil => rfl
      | cons a fields => cases h
  | cons p T ih =>
      cases fields with
      | nil => cases h
      | cons a fields =>
          obtain ⟨hlabel, hreads, hrest⟩ := h
          have hformat : scanFormat (p :: T) ++ ds = lits p.1 ++ (p.2 :: (scanFormat T ++ ds)) := by
            simp [scanFormat]
          rw [hformat, text, scan_lits hlabel, scan_field hreads, ih hrest]
          rfl

theorem sprintf_eq {f : String} {T : Template} {fields : List Arg} {w : Text}
    (hf : format f = T.printFormat ++ lits w) (h : Readable T fields) :
    sprintf f fields = text T fields ++ w := by
  rw [sprintf, hf, print_printFormat h, print_lits_nil]

theorem sscanf_eq {f : String} {T : Template} {fields : List Arg} (hf : format f = T.scanFormat)
    (h : Readable T fields) : sscanf (text T fields) f = fields := by
  have hscan := scan_scanFormat h []
  rw [List.append_nil] at hscan
  rw [sscanf, hf, hscan, scan_nil, List.append_nil]

/-- The line begins otherwise than the format. -/
theorem sscanf_eq_nil {f : String} {T : Template} {a : Arg} {fields : List Arg}
    (h : (T.head?.map fun p => differs f p.1) = some true) :
    sscanf (text T (a :: fields)) f = [] := by
  obtain ⟨p, hp, hdiffers⟩ := Option.map_eq_some_iff.mp h
  obtain ⟨T', rfl⟩ := List.head?_eq_some_iff.mp hp
  exact sscanf_of_differs hdiffers _

/-! ## Where a line ends -/

/-- No field has a pair of separators, the last one no separator, and every label but the
first one keeps the fields around it apart. -/
def Apart (c : Char) : Template → List Arg → Prop
  | (label, _) :: T, a :: fields =>
      c ∉ label ∧ a.text ≠ [] ∧ ¬ [c, c] <:+: a.text ∧ (T = [] → c ∉ a.text) ∧
        (∀ p ∈ T.head?, p.1 ≠ []) ∧ Apart c T fields
  | _, _ => True

@[simp] theorem apart_nil {c : Char} : Apart c [] [] := trivial

@[simp] theorem apart_cons {c : Char} {label : Text} {d : Directive} {T : Template} {a : Arg}
    {fields : List Arg} : Apart c ((label, d) :: T) (a :: fields) ↔
      c ∉ label ∧ a.text ≠ [] ∧ ¬ [c, c] <:+: a.text ∧ (T = [] → c ∉ a.text) ∧
        (∀ p ∈ T.head?, p.1 ≠ []) ∧ Apart c T fields := Iff.rfl

/-- **No pair of separators is in the line, and none begins with its end.** -/
theorem settled_text {c : Char} {T : Template} {fields : List Arg} (hne : T ≠ [])
    (hlength : T.length = fields.length) (h : Apart c T fields) :
    Settled c (text T fields) ∧ text T fields ≠ [] := by
  induction T generalizing fields with
  | nil => exact absurd rfl hne
  | cons p T ih =>
      obtain ⟨label, d⟩ := p
      cases fields with
      | nil => cases hlength
      | cons a fields =>
          obtain ⟨hlabel, htext, hpair, hlast, hnext, hrest⟩ := h
          have hfield : Settled c (a.text ++ text T fields) ∧ a.text ++ text T fields ≠ [] := by
            refine ⟨?_, by simp [htext]⟩
            cases T with
            | nil =>
                rw [text_nil, List.append_nil]
                exact settled_of_not_mem (hlast rfl)
            | cons q T =>
                obtain ⟨hsettled, hne'⟩ := ih (by simp) (Nat.succ.inj hlength) hrest
                refine settled_append hpair hsettled hne' (Or.inr ?_)
                -- the next label begins with another character
                cases fields with
                | nil => cases hlength
                | cons b fields =>
                    have hq : q.1 ≠ [] := hnext q rfl
                    obtain ⟨x, l, hl⟩ := List.exists_cons_of_ne_nil hq
                    have hx : c ∉ q.1 := hrest.1
                    rw [text, hl]
                    rintro heq
                    cases heq
                    exact hx (by simp [hl])
          rw [text_cons]
          refine ⟨settled_append (settled_of_not_mem hlabel).1 hfield.1 hfield.2 (Or.inl ?_), ?_⟩
          · exact fun heq => hlabel (List.mem_of_getLast? heq)
          · simp [htext]

end Template
end CText
