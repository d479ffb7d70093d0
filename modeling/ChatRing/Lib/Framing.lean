import Mathlib.Data.List.Basic
import Mathlib.Data.List.Infix

/-!
# Messages on a byte stream

Messages are written one after another on a stream, and the stream is delivered in
blocks whose limits are not those of the messages.  A receiver that looks at one block
at a time and keeps nothing for the next one takes at most one message out of each.

A `Framing` says what the two sides agree on: a message carries one end mark, and the
receiver finds the message that a block begins with.  The blocks are `Aligned` with the
messages when every message begins a block that reaches through its end mark.

## Main results

* `Framing.extracted_eq_iff_aligned` — such a receiver gets back the messages that were
  written if and only if the blocks are aligned with them.
-/

/-- Messages `M` written as symbols `α`, and a receiver of one block at a time. -/
structure Framing (M α β : Type*) where
  /-- what is written for a message -/
  bytes : M → List α
  /-- the beginning of it, up to and including the end mark -/
  head : M → List α
  body : M → β
  /-- what the receiver takes out of one block -/
  extract : List α → Option β
  /-- an end mark stands in the text -/
  Marked : List α → Prop
  not_marked_nil : ¬ Marked []
  marked_mono : ∀ {a b c}, Marked b → Marked (a ++ b ++ c)
  marked_of_extract : ∀ {b x}, extract b = some x → Marked b
  marked_head : ∀ m, Marked (head m)
  head_prefix : ∀ m, head m <+: bytes m
  /-- a message carries one end mark -/
  marked_once : ∀ {m a b}, bytes m = a ++ b → Marked a → ¬ Marked b
  head_of_marked : ∀ {m d r}, bytes m = d ++ r → Marked d → head m <+: d
  /-- the beginning of a message completes no end mark -/
  marked_across : ∀ {m a d r}, bytes m = d ++ r → Marked (a ++ d) → ¬ Marked a → Marked d
  extract_head : ∀ m c, extract (head m ++ c) = some (body m)
  /-- text in front of a message spoils it -/
  extract_late : ∀ {m a c}, ¬ Marked a → extract (a ++ head m ++ c) = some (body m) → a = []
  /-- a message that was cut off in front is spoiled -/
  extract_cut : ∀ {m d r b}, bytes m = d ++ r → d ≠ [] → Marked r → r <+: b ∨ b <+: r →
    extract b ≠ some (body m)

namespace Framing
variable {M α β : Type*} (F : Framing M α β) {ms us vs : List M} {m : M}
  {b c d r : List α} {bs : List (List α)}

/-- The stream that a sequence of messages is written as. -/
def stream (ms : List M) : List α := ms.flatMap F.bytes

/-- What the receiver takes out of the blocks. -/
def extracted (bs : List (List α)) : List β := bs.filterMap F.extract

/-- After the text `r`, every message begins a block that reaches through its mark. -/
def AlignedFrom (r : List α) (bs : List (List α)) (ms : List M) : Prop :=
  ∀ us m vs, ms = us ++ m :: vs →
    ∃ cs b, cs ++ [b] <+: bs ∧ cs.flatten = r ++ F.stream us ∧ F.head m <+: b

/-- Every message begins a block that reaches through its end mark. -/
def Aligned (bs : List (List α)) (ms : List M) : Prop :=
  ∀ us m vs, ms = us ++ m :: vs →
    ∃ cs b, cs ++ [b] <+: bs ∧ cs.flatten = F.stream us ∧ F.head m <+: b

@[simp] theorem stream_nil : F.stream [] = [] := rfl

@[simp] theorem stream_cons : F.stream (m :: ms) = F.bytes m ++ F.stream ms := rfl

@[simp] theorem extracted_nil : F.extracted [] = [] := rfl

theorem extracted_cons_none (h : F.extract b = none) :
    F.extracted (b :: bs) = F.extracted bs := List.filterMap_cons_none h

theorem extracted_cons_some {x : β} (h : F.extract b = some x) :
    F.extracted (b :: bs) = x :: F.extracted bs := List.filterMap_cons_some h

theorem head_ne_nil (m : M) : F.head m ≠ [] := by
  intro h
  exact F.not_marked_nil (h ▸ F.marked_head m)

theorem extract_eq_none (h : ¬ F.Marked b) : F.extract b = none := by
  cases hb : F.extract b with
  | none => rfl
  | some x => exact absurd (F.marked_of_extract hb) h

theorem not_marked_left (h : ¬ F.Marked (b ++ c)) : ¬ F.Marked b := by
  intro hb
  exact h (by simpa using F.marked_mono (a := []) (c := c) hb)

theorem not_marked_right (h : ¬ F.Marked (b ++ c)) : ¬ F.Marked c := by
  intro hc
  exact h (by simpa using F.marked_mono (a := b) (c := []) hc)

/-! ## Where a block ends -/

/-- A nonempty beginning of the stream ends inside some message. -/
theorem exists_split {rest : List α} (hc : c ≠ []) (h : c ++ rest = F.stream ms) :
    ∃ us m vs d r, ms = us ++ m :: vs ∧ c = F.stream us ++ d ∧ d ≠ [] ∧
      F.bytes m = d ++ r ∧ rest = r ++ F.stream vs := by
  induction ms generalizing c with
  | nil => exact absurd (List.append_eq_nil_iff.mp h).1 hc
  | cons m ms ih =>
      rw [stream_cons] at h
      rcases List.append_eq_append_iff.mp h with ⟨r, hm, hrest⟩ | ⟨c', rfl, hms⟩
      · exact ⟨[], m, ms, c, r, rfl, rfl, hc, hm, hrest⟩
      · by_cases hc' : c' = []
        · subst hc'
          refine ⟨[], m, ms, F.bytes m, [], rfl, by simp, by simpa using hc, by simp, ?_⟩
          exact hms.symm
        · obtain ⟨us, m', vs, d, r, rfl, rfl, hd, hm', hrest⟩ := ih hc' hms.symm
          exact ⟨m :: us, m', vs, d, r, rfl, by simp, hd, hm', hrest⟩

/-- A block ends in the text before the messages, or inside some message. -/
theorem block_cases {rest : List α} (h : b ++ rest = r ++ F.stream ms) :
    (∃ r', r = b ++ r' ∧ rest = r' ++ F.stream ms) ∨
      ∃ us m vs d r', ms = us ++ m :: vs ∧ b = r ++ F.stream us ++ d ∧ d ≠ [] ∧
        F.bytes m = d ++ r' ∧ rest = r' ++ F.stream vs := by
  rcases List.append_eq_append_iff.mp h with ⟨r', hr, hrest⟩ | ⟨c, rfl, hms⟩
  · exact Or.inl ⟨r', hr, hrest⟩
  · by_cases hc : c = []
    · subst hc
      exact Or.inl ⟨[], by simp, hms.symm⟩
    · obtain ⟨us, m, vs, d, r', hms', rfl, hd, hm, hrest⟩ := F.exists_split hc hms.symm
      exact Or.inr ⟨us, m, vs, d, r', hms', by simp, hd, hm, hrest⟩

/-! ## The number of messages taken out -/

/-- The rest of a message carries at most one end mark. -/
theorem once_of_bytes (hm : F.bytes m = d ++ r) :
    ∀ x y, r = x ++ y → F.Marked x → ¬ F.Marked y := by
  rintro x y rfl hx
  rw [← List.append_assoc] at hm
  exact F.marked_once hm (by simpa using F.marked_mono (a := d) (c := []) hx)

/-- The receiver takes out at most one message for each one that still begins, and one
more when the text before them can end one. -/
theorem length_extracted_le (hr : ∀ x y, r = x ++ y → F.Marked x → ¬ F.Marked y)
    (h : bs.flatten = r ++ F.stream ms) :
    (F.extracted bs).length ≤ ms.length + 1 ∧
      (¬ F.Marked r → (F.extracted bs).length ≤ ms.length) := by
  induction bs generalizing r ms with
  | nil => simp
  | cons b bs ih =>
      rw [List.flatten_cons] at h
      rcases F.block_cases h with ⟨r', rfl, hrest⟩ | ⟨us, m, vs, d, r', rfl, rfl, -, hm, hrest⟩
      · have hr' : ∀ x y, r' = x ++ y → F.Marked x → ¬ F.Marked y := by
          rintro x y rfl hx
          exact hr (b ++ x) y (by simp) (by simpa using F.marked_mono (a := b) (c := []) hx)
        obtain ⟨hle, hlt⟩ := ih hr' hrest
        cases hb : F.extract b with
        | none =>
            rw [F.extracted_cons_none hb]
            exact ⟨hle, fun hn => hlt (F.not_marked_right hn)⟩
        | some x =>
            have hmark := F.marked_of_extract hb
            have hlen := hlt (hr b r' rfl hmark)
            rw [F.extracted_cons_some hb, List.length_cons]
            exact ⟨by omega, fun hn => absurd hmark (F.not_marked_left hn)⟩
      · obtain ⟨hle, hlt⟩ := ih (F.once_of_bytes hm) hrest
        simp only [List.length_append, List.length_cons]
        cases hb : F.extract (r ++ F.stream us ++ d) with
        | none =>
            rw [F.extracted_cons_none hb]
            exact ⟨by omega, fun _ => by omega⟩
        | some x =>
            rw [F.extracted_cons_some hb, List.length_cons]
            refine ⟨by omega, fun hn => ?_⟩
            cases us with
            | nil =>
                -- the block holds the mark of `m`, so the rest of `m` holds none
                have hmark : F.Marked (r ++ d) := by simpa using F.marked_of_extract hb
                have hlen := hlt (F.marked_once hm (F.marked_across hm hmark hn))
                simp only [List.length_nil]
                omega
            | cons u us =>
                simp only [List.length_cons]
                omega

/-- A message whose beginning is gone is not among those taken out of the rest. -/
theorem extracted_ne_of_cut (hm : F.bytes m = d ++ r) (hd : d ≠ [])
    (h : bs.flatten = r ++ F.stream vs) : F.extracted bs ≠ F.body m :: vs.map F.body := by
  intro heq
  induction bs generalizing d r with
  | nil => exact absurd heq (by simp)
  | cons b bs ih =>
      have hlen := congrArg List.length heq
      simp only [List.length_cons, List.length_map] at hlen
      by_cases hmark : F.Marked r
      · rw [List.flatten_cons] at h
        rcases F.block_cases h with ⟨r', rfl, hrest⟩ | ⟨us, m', vs, e, r', rfl, rfl, -, hm', hrest⟩
        · cases hb : F.extract b with
          | none =>
              rw [F.extracted_cons_none hb] at heq
              rw [← List.append_assoc] at hm
              exact ih hm (by simp [hd]) hrest heq
          | some x =>
              rw [F.extracted_cons_some hb] at heq
              obtain ⟨rfl, -⟩ := List.cons.inj heq
              exact F.extract_cut hm hd hmark (Or.inr ⟨r', rfl⟩) hb
        · cases hb : F.extract (r ++ F.stream us ++ e) with
          | none =>
              rw [F.extracted_cons_none hb] at hlen
              have hle := (F.length_extracted_le (F.once_of_bytes hm') hrest).1
              simp only [List.length_append, List.length_cons] at hlen
              omega
          | some x =>
              rw [F.extracted_cons_some hb] at heq
              obtain ⟨rfl, -⟩ := List.cons.inj heq
              refine F.extract_cut hm hd hmark (Or.inl ⟨F.stream us ++ e, ?_⟩) hb
              rw [List.append_assoc]
      · have hle := (F.length_extracted_le (F.once_of_bytes hm) h).2 hmark
        omega

/-! ## Alignment -/

/-- What was taken out tells where the messages began. -/
theorem alignedFrom_of_extracted (hr : ¬ F.Marked r) (h : bs.flatten = r ++ F.stream ms)
    (heq : F.extracted bs = ms.map F.body) : F.AlignedFrom r bs ms := by
  induction bs generalizing r ms with
  | nil =>
      have hms : ms = [] := by simpa using heq.symm
      subst hms
      intro us m vs hsplit
      simp at hsplit
  | cons b bs ih =>
      rw [List.flatten_cons] at h
      rcases F.block_cases h with ⟨r', rfl, hrest⟩ | ⟨us, m, vs, d, r', rfl, rfl, hd, hm, hrest⟩
      · have hb := F.extract_eq_none (F.not_marked_left hr)
        rw [F.extracted_cons_none hb] at heq
        intro us m vs hsplit
        obtain ⟨cs, b', hpre, hflat, hhead⟩ := ih (F.not_marked_right hr) hrest heq us m vs hsplit
        refine ⟨b :: cs, b', ?_, by simp [hflat], hhead⟩
        simpa using hpre
      · have hle := (F.length_extracted_le (F.once_of_bytes hm) hrest).1
        have hlen := congrArg List.length heq
        simp only [List.length_map, List.length_append, List.length_cons] at hlen
        cases us with
        | nil =>
            cases hb : F.extract (r ++ F.stream [] ++ d) with
            | none =>
                rw [F.extracted_cons_none hb] at heq
                exact absurd heq (F.extracted_ne_of_cut hm hd hrest)
            | some x =>
                rw [F.extracted_cons_some hb] at heq
                obtain ⟨rfl, htail⟩ := List.cons.inj heq
                simp only [stream_nil, List.append_nil] at hb ⊢
                have hmark := F.marked_across hm (F.marked_of_extract hb) hr
                obtain ⟨d', rfl⟩ := F.head_of_marked hm hmark
                rw [← List.append_assoc] at hb
                obtain rfl := F.extract_late hr hb
                rw [List.nil_append]
                have haligned := ih (F.marked_once hm hmark) hrest htail
                intro us' m' vs' hsplit
                cases us' with
                | nil =>
                    obtain ⟨rfl, -⟩ := List.cons.inj hsplit
                    exact ⟨[], _, ⟨bs, rfl⟩, rfl, by simp⟩
                | cons u us' =>
                    obtain ⟨rfl, hvs⟩ := List.cons.inj hsplit
                    obtain ⟨cs, b', hpre, hflat, hhead⟩ := haligned us' m' vs' hvs
                    refine ⟨(F.head m ++ d') :: cs, b', ?_, ?_, hhead⟩
                    · simpa using hpre
                    · rw [List.flatten_cons, hflat, stream_cons, hm]
                      simp
        | cons u us =>
            -- two messages end behind this block, and it yields one
            cases hb : F.extract (r ++ F.stream (u :: us) ++ d) with
            | none =>
                rw [F.extracted_cons_none hb] at hlen
                simp only [List.length_cons] at hlen
                omega
            | some x =>
                rw [F.extracted_cons_some hb] at hlen heq
                simp only [List.length_cons] at hlen
                have hus : us = [] := List.length_eq_zero_iff.mp (by omega)
                subst hus
                exact absurd (List.cons.inj heq).2 (F.extracted_ne_of_cut hm hd hrest)

theorem extracted_eq_nil (h : ¬ F.Marked bs.flatten) : F.extracted bs = [] := by
  induction bs with
  | nil => rfl
  | cons b bs ih =>
      rw [List.flatten_cons] at h
      rw [F.extracted_cons_none (F.extract_eq_none (F.not_marked_left h))]
      exact ih (F.not_marked_right h)

/-- Of two places where blocks end, the one with more text before it is behind the
other, block and all. -/
theorem append_prefix_of_flatten_lt {cs cs' : List (List α)} {b' : List α}
    (h : cs ++ [b] <+: bs) (h' : cs' ++ [b'] <+: bs)
    (hlt : cs.flatten.length < cs'.flatten.length) : cs ++ [b] <+: cs' := by
  have hcs' : cs' <+: bs := (List.prefix_append cs' [b']).trans h'
  apply List.prefix_of_prefix_length_le h hcs'
  by_contra hlen
  simp only [List.length_append, List.length_singleton, not_le] at hlen
  have hpre : cs' <+: cs := by
    apply List.prefix_of_prefix_length_le hcs' ((List.prefix_append cs [b]).trans h)
    omega
  have hle := hpre.flatten.length_le
  omega

/-- Aligned blocks yield the messages. -/
theorem extracted_of_alignedFrom (hr : ¬ F.Marked r) (h : bs.flatten = r ++ F.stream ms)
    (haligned : F.AlignedFrom r bs ms) : F.extracted bs = ms.map F.body := by
  induction ms generalizing r bs with
  | nil =>
      rw [stream_nil, List.append_nil] at h
      exact F.extracted_eq_nil (by rwa [h])
  | cons m ms ih =>
      obtain ⟨cs, b, ⟨ds, rfl⟩, hcs, e, rfl⟩ := haligned [] m ms rfl
      rw [stream_nil, List.append_nil] at hcs
      have hstream : F.head m ++ e ++ ds.flatten = F.bytes m ++ F.stream ms := by
        simpa [hcs] using h
      have hbytes : 0 < (F.bytes m).length :=
        (List.length_pos_iff.mpr (F.head_ne_nil m)).trans_le (F.head_prefix m).length_le
      -- the blocks of the later messages stand behind the block of `m`
      have hbehind : ∀ us m' vs, ms = us ++ m' :: vs → ∃ cs' b', cs' ++ [b'] <+: ds ∧
          F.head m ++ e ++ cs'.flatten = F.bytes m ++ F.stream us ∧ F.head m' <+: b' := by
        intro us m' vs hsplit
        obtain ⟨cs', b', hpre, hflat, hhead⟩ := haligned (m :: us) m' vs (by rw [hsplit]; rfl)
        have hlt : cs.flatten.length < cs'.flatten.length := by
          rw [hcs, hflat, stream_cons]
          simp only [List.length_append]
          omega
        obtain ⟨cs'', rfl⟩ := append_prefix_of_flatten_lt ⟨ds, rfl⟩ hpre hlt
        refine ⟨cs'', b', ?_, ?_, hhead⟩
        · rwa [List.append_assoc, List.prefix_append_right_inj] at hpre
        · simpa [hcs] using hflat
      have hhead : F.extracted (cs ++ [F.head m ++ e] ++ ds) = F.body m :: F.extracted ds := by
        have hnil : cs.filterMap F.extract = [] := F.extracted_eq_nil (by rwa [hcs])
        simp [extracted, hnil, F.extract_head]
      rw [hhead, List.map_cons]
      congr 1
      obtain ⟨r', hm, hds⟩ : ∃ r', F.bytes m = F.head m ++ e ++ r' ∧
          ds.flatten = r' ++ F.stream ms := by
        rcases List.append_eq_append_iff.mp hstream with h' | ⟨k, hk, hms⟩
        · exact h'
        · have hnil : k = [] := by
            cases ms with
            | nil => exact (List.append_eq_nil_iff.mp hms.symm).1
            | cons m' ms =>
                obtain ⟨cs', -, -, hflat, -⟩ := hbehind [] m' ms rfl
                have hlen := congrArg List.length hflat
                simp only [hk, stream_nil, List.length_append, List.length_nil] at hlen
                exact List.length_eq_zero_iff.mp (by omega)
          subst hnil
          exact ⟨[], by simpa using hk.symm, hms.symm⟩
      have hmark : F.Marked (F.head m ++ e) := by
        simpa using F.marked_mono (a := []) (c := e) (F.marked_head m)
      apply ih (F.marked_once hm hmark) hds
      intro us m' vs hsplit
      obtain ⟨cs', b', hpre, hflat, hhead'⟩ := hbehind us m' vs hsplit
      refine ⟨cs', b', hpre, ?_, hhead'⟩
      rwa [hm, List.append_assoc _ r', List.append_cancel_left_eq] at hflat

/-- **A receiver that keeps nothing between blocks gets back the messages that were
written if and only if the blocks are aligned with them.** -/
theorem extracted_eq_iff_aligned (h : bs.flatten = F.stream ms) :
    F.extracted bs = ms.map F.body ↔ F.Aligned bs ms := by
  constructor
  · intro heq us m vs hsplit
    simpa using F.alignedFrom_of_extracted F.not_marked_nil (by simpa using h) heq us m vs hsplit
  · intro haligned
    refine F.extracted_of_alignedFrom F.not_marked_nil (by simpa using h) ?_
    intro us m vs hsplit
    simpa using haligned us m vs hsplit

end Framing
