import ChatRing.Lib.CArray
import ChatRing.Server.Messages

/-!
# The bounds of a receive

`handle_socket_change`, `service_discovery` and `handle_mcast_receive` receive into an array
of 256 bytes, end the text in it with a NUL, look for the empty line and copy what stands
before it.  Each does so in its own way.  Here every subscript is checked; elsewhere
`frameBody` stands for the text that the three extract.

## Main results

* `Handler.extract_eq_frameBody` — what is extracted when no subscript is out of bounds.
* `Handler.extracts_iff` — for which blocks none is, and the text is that before the first
  empty line of the block.
-/

namespace ChatRing
open CText CArray

/-- `memset(readBuf, 0, BUFFER_SIZE)`, and then these bytes are received into it. -/
def filled (bytes : Text) : Text := bytes ++ List.replicate (bufferSize - bytes.length) '\x00'

/-- Find the empty line, and copy what stands before it into a zeroed array of `size`
bytes. -/
def copyBody (readBuf : Text) (size : ℕ) : Option (Option Text) := do
  match ← search emptyLine readBuf with
  | none => return none
  | some n => return some (← memcpy (List.replicate size '\x00') readBuf n)

/-- The functions of the server that receive. -/
inductive Handler
  | handleSocketChange
  | serviceDiscovery
  | handleMcastReceive
  deriving DecidableEq

namespace Handler

/-- The text that the handler goes on with, if it finds one; nothing when a subscript is
out of bounds. -/
def extract : Handler → Text → Option (Option Text)
  | .handleSocketChange, bytes => do
      match ← copyBody (filled bytes) bufferSize with
      | none => return none
      | some read => return some (cstr (← store read bytes.length '\x00'))
  | .serviceDiscovery, bytes => do
      let readBuf ← store (filled bytes) bytes.length '\x00'
      return (← copyBody readBuf (bufferSize + 1)).map cstr
  | .handleMcastReceive, bytes => do
      let readBuf ← store (filled bytes) (bytes.length - 1) '\x00'
      return (← copyBody readBuf bufferSize).map cstr

/-- What `recv` and `recvfrom` can return, short of a failure. -/
def Receives (bytes : Text) : Handler → Prop
  | .handleMcastReceive => bytes.length ≤ bufferSize
  | _ => 1 ≤ bytes.length ∧ bytes.length ≤ bufferSize

instance (bytes : Text) : (h : Handler) → Decidable (h.Receives bytes)
  | .handleMcastReceive => inferInstanceAs (Decidable (_ ≤ _))
  | .handleSocketChange => inferInstanceAs (Decidable (_ ∧ _))
  | .serviceDiscovery => inferInstanceAs (Decidable (_ ∧ _))

end Handler

/-- The received bytes before the first empty line in them. -/
def textBefore (bytes : Text) : Option Text := (strstr emptyLine bytes).map Prod.fst

namespace Handler

/-- No subscript is out of bounds, and the text is the one before the first empty line. -/
def Extracts (bytes : Text) (h : Handler) : Prop := h.extract bytes = some (textBefore bytes)

/-- There is no NUL before the first empty line, and the store of the NUL is in bounds and
spares that line.  A full block is left alone by `handle_socket_change` when it holds a NUL
and no empty line. -/
def Fits (bytes : Text) : Handler → Prop
  | .handleSocketChange =>
      (bytes.length < bufferSize ∧ ∀ p ∈ textBefore bytes, '\x00' ∉ p) ∨
        (bytes.length = bufferSize ∧ '\x00' ∈ bytes ∧ textBefore bytes = none)
  | .serviceDiscovery => bytes.length < bufferSize ∧ ∀ p ∈ textBefore bytes, '\x00' ∉ p
  | .handleMcastReceive => bytes ≠ [] ∧
      ∀ p ∈ textBefore bytes, '\x00' ∉ p ∧ p.length + emptyLine.length < bytes.length

end Handler

/-! ## The first empty line -/

section FirstLine
variable {bytes readBuf p : Text}

/-- The text goes up to its first empty line. -/
def IsFirst (p : Text) : Prop := strstr emptyLine (p ++ emptyLine) = some (p, emptyLine)

theorem textBefore_eq_some : textBefore bytes = some p ↔ IsFirst p ∧ p ++ emptyLine <+: bytes := by
  rw [textBefore, Option.map_eq_some_iff]
  constructor
  · rintro ⟨⟨a, b⟩, hfound, rfl⟩
    obtain ⟨rfl, t, rfl⟩ := strstr_eq_some hfound
    exact ⟨strstr_append_pat hfound, t, by simp⟩
  · rintro ⟨hfirst, t, rfl⟩
    exact ⟨_, strstr_append_right hfirst t, rfl⟩

theorem frameBody_eq_some :
    frameBody readBuf = some p ↔ IsFirst p ∧ '\x00' ∉ p ∧ p ++ emptyLine <+: readBuf := by
  have hbody : frameBody readBuf = textBefore (cstr readBuf) := rfl
  rw [hbody, textBefore_eq_some]
  refine and_congr_right fun _ => ?_
  constructor
  · intro h
    have hnul : '\x00' ∉ p ++ emptyLine := fun hmem => nul_not_mem_cstr readBuf (h.subset hmem)
    exact ⟨fun hmem => hnul (List.mem_append_left _ hmem), h.trans (List.takeWhile_prefix _)⟩
  · rintro ⟨hp, t, rfl⟩
    have hnul : '\x00' ∉ p ++ emptyLine := by
      rw [List.mem_append, not_or]
      exact ⟨hp, by decide⟩
    rw [cstr_append hnul]
    exact List.prefix_append _ _

/-- A string holds the text before the first empty line when there is no NUL in it. -/
theorem frameBody_eq_textBefore_iff :
    frameBody bytes = textBefore bytes ↔ ∀ p ∈ textBefore bytes, '\x00' ∉ p := by
  constructor
  · intro h p hp
    rw [Option.mem_def, ← h, frameBody_eq_some] at hp
    exact hp.2.1
  · intro h
    cases hp : textBefore bytes with
    | none =>
        rw [Option.eq_none_iff_forall_ne_some]
        intro p hp'
        obtain ⟨hfirst, -, hpre⟩ := frameBody_eq_some.mp hp'
        rw [textBefore_eq_some.mpr ⟨hfirst, hpre⟩] at hp
        cases hp
    | some p =>
        obtain ⟨hfirst, hpre⟩ := textBefore_eq_some.mp hp
        exact frameBody_eq_some.mpr ⟨hfirst, h p hp, hpre⟩

/-- Without its last byte the block holds that text when the empty line ends before it. -/
theorem frameBody_dropLast_eq_iff (hne : bytes ≠ []) :
    frameBody bytes.dropLast = textBefore bytes ↔
      ∀ p ∈ textBefore bytes, '\x00' ∉ p ∧ p.length + emptyLine.length < bytes.length := by
  have hlen : 0 < bytes.length := List.length_pos_iff.mpr hne
  have hpre : ∀ p, p ++ emptyLine <+: bytes.dropLast ↔
      p ++ emptyLine <+: bytes ∧ p.length + emptyLine.length < bytes.length := by
    intro p
    rw [List.dropLast_eq_take, List.prefix_take_iff, List.length_append]
    exact and_congr_right fun _ => by omega
  constructor
  · intro h p hp
    rw [Option.mem_def, ← h, frameBody_eq_some, hpre] at hp
    exact ⟨hp.2.1, hp.2.2.2⟩
  · intro h
    cases hp : textBefore bytes with
    | none =>
        rw [Option.eq_none_iff_forall_ne_some]
        intro p hp'
        obtain ⟨hfirst, -, hp'⟩ := frameBody_eq_some.mp hp'
        rw [textBefore_eq_some.mpr ⟨hfirst, ((hpre p).mp hp').1⟩] at hp
        cases hp
    | some p =>
        obtain ⟨hfirst, hp'⟩ := textBefore_eq_some.mp hp
        obtain ⟨hnul, hlt⟩ := h p hp
        exact frameBody_eq_some.mpr ⟨hfirst, hnul, (hpre p).mpr ⟨hp', hlt⟩⟩

end FirstLine

/-! ## Finding and copying -/

section Copy
variable {bytes readBuf : Text} {size : ℕ}

/-- The copy of the text, and the zeros behind it. -/
def copied (p : Text) (size : ℕ) : Text := p ++ List.replicate (size - p.length) '\x00'

theorem memcpy_zeros {p t : Text} (hsize : (p ++ t).length ≤ size) :
    memcpy (List.replicate size '\x00') (p ++ t) p.length = some (copied p size) := by
  rw [List.length_append] at hsize
  rw [memcpy_of_le (by rw [List.length_replicate]; omega) (by simp), List.take_left,
    List.drop_replicate, copied]

theorem copyBody_of_nul (hnul : '\x00' ∈ readBuf) (hsize : readBuf.length ≤ size) :
    copyBody readBuf size = some ((frameBody readBuf).map fun p => copied p size) := by
  rw [copyBody, search_of_nul (by decide) (by decide) hnul]
  cases hp : frameBody readBuf with
  | none =>
      have hnone : strstr emptyLine (cstr readBuf) = none := Option.map_eq_none_iff.mp hp
      rw [hnone]
      rfl
  | some p =>
      obtain ⟨⟨a, b⟩, hfound, rfl⟩ := Option.map_eq_some_iff.mp hp
      obtain ⟨-, -, t, rfl⟩ := frameBody_eq_some.mp hp
      rw [hfound]
      rw [List.append_assoc] at hsize ⊢
      simp only [Option.map_some, Option.bind_eq_bind, Option.bind_some, memcpy_zeros hsize]
      rfl

theorem copyBody_of_not_nul (hnul : '\x00' ∉ readBuf) (hsize : readBuf.length ≤ size) :
    copyBody readBuf size = (textBefore readBuf).map fun p => some (copied p size) := by
  rw [copyBody, search_of_not_nul (by decide) hnul]
  cases hp : textBefore readBuf with
  | none =>
      have hnone : strstr emptyLine readBuf = none := Option.map_eq_none_iff.mp hp
      rw [hnone]
      rfl
  | some p =>
      obtain ⟨⟨a, b⟩, hfound, rfl⟩ := Option.map_eq_some_iff.mp hp
      obtain ⟨-, t, rfl⟩ := textBefore_eq_some.mp hp
      rw [hfound]
      rw [List.append_assoc] at hsize ⊢
      simp only [Option.map_some, Option.bind_eq_bind, Option.bind_some, memcpy_zeros hsize]
      rfl

theorem cstr_append_zeros (s : Text) (n : ℕ) : cstr (s ++ List.replicate n '\x00') = cstr s := by
  induction s with
  | nil => cases n <;> rfl
  | cons c s ih =>
      simp only [cstr, List.cons_append, List.takeWhile_cons] at ih ⊢
      rw [ih]

theorem cstr_copied {p : Text} (hp : '\x00' ∉ p) : cstr (copied p size) = p := by
  rw [copied, cstr_append_zeros, cstr_eq_self hp]

/-- A NUL behind the text changes nothing. -/
theorem store_copied {p : Text} {n : ℕ} (hp : p.length ≤ n) (hn : n < size) :
    store (copied p size) n '\x00' = some (copied p size) := by
  have hlen : n < (copied p size).length := by
    rw [copied, List.length_append, List.length_replicate]
    omega
  rw [store_of_lt hlen, copied, List.set_append_right _ _ hp, List.set_replicate_self]

end Copy

/-! ## The three handlers -/

section Handlers
variable {bytes : Text}

theorem length_filled (h : bytes.length ≤ bufferSize) : (filled bytes).length = bufferSize := by
  rw [filled, List.length_append, List.length_replicate]
  omega

theorem frameBody_filled (bytes : Text) : frameBody (filled bytes) = frameBody bytes := by
  rw [frameBody, filled, cstr_append_zeros]
  rfl

theorem nul_mem_filled (h : bytes.length < bufferSize) : '\x00' ∈ filled bytes :=
  List.mem_append_right _ (List.mem_replicate.mpr ⟨by omega, rfl⟩)

theorem filled_of_length_eq (h : bytes.length = bufferSize) : filled bytes = bytes := by
  rw [filled, h, Nat.sub_self, List.replicate_zero, List.append_nil]

theorem store_filled (h : bytes.length < bufferSize) :
    store (filled bytes) bytes.length '\x00' = some (filled bytes) := by
  rw [store_of_lt (by rw [length_filled h.le]; exact h), filled,
    List.set_append_right _ _ le_rfl, List.set_replicate_self]

/-- The last byte gives way to the NUL. -/
theorem store_filled_last (hne : bytes ≠ []) (h : bytes.length ≤ bufferSize) :
    store (filled bytes) (bytes.length - 1) '\x00' = some (filled bytes.dropLast) := by
  obtain ⟨l, c, rfl⟩ := (List.eq_nil_or_concat bytes).resolve_left hne
  rw [List.concat_eq_append] at *
  have hlen : (l ++ [c]).length = l.length + 1 := by simp
  rw [hlen] at h
  have hcast : ((l ++ [c]).length : ℤ) - 1 = l.length := by
    rw [hlen]
    omega
  have hzeros : bufferSize - l.length = bufferSize - (l ++ [c]).length + 1 := by
    rw [hlen]
    omega
  rw [hcast, store_of_lt (by rw [length_filled (by rw [hlen]; exact h)]; omega),
    List.dropLast_concat, filled, filled, hzeros, List.replicate_succ]
  simp

theorem map_cstr_copied (size : ℕ) :
    ((frameBody bytes).map fun p => copied p size).map cstr = frameBody bytes := by
  cases hp : frameBody bytes with
  | none => rfl
  | some p => simp [cstr_copied (frameBody_eq_some.mp hp).2.1]

theorem extract_handleSocketChange_of_lt (h : bytes.length < bufferSize) :
    Handler.handleSocketChange.extract bytes = some (frameBody bytes) := by
  simp only [Handler.extract, copyBody_of_nul (nul_mem_filled h) (length_filled h.le).le,
    frameBody_filled]
  cases hp : frameBody bytes with
  | none => rfl
  | some p =>
      obtain ⟨-, hnul, hpre⟩ := frameBody_eq_some.mp hp
      have hlen : p.length ≤ bytes.length := by
        have := hpre.length_le
        rw [List.length_append] at this
        omega
      simp only [Option.map_some, Option.bind_eq_bind, Option.bind_some, store_copied hlen h,
        cstr_copied hnul]
      rfl

/-- A full block. -/
theorem extract_handleSocketChange_of_eq (h : bytes.length = bufferSize) :
    Handler.handleSocketChange.extract bytes =
      if '\x00' ∈ bytes ∧ frameBody bytes = none then some none else none := by
  have hstore : ∀ p, p ++ emptyLine <+: bytes →
      store (copied p bufferSize) bytes.length '\x00' = none := by
    intro p hp
    have hlen := hp.length_le
    rw [List.length_append] at hlen
    have hcopied : bytes.length = (copied p bufferSize).length := by
      rw [copied, List.length_append, List.length_replicate]
      omega
    rw [hcopied]
    exact store_length
  simp only [Handler.extract, filled_of_length_eq h]
  by_cases hnul : '\x00' ∈ bytes
  · rw [copyBody_of_nul hnul h.le]
    cases hp : frameBody bytes with
    | none => simp [hnul]
    | some p =>
        simp [hstore p (frameBody_eq_some.mp hp).2.2]
  · rw [copyBody_of_not_nul hnul h.le, if_neg fun h => hnul h.1]
    cases hp : textBefore bytes with
    | none => rfl
    | some p =>
        simp [hstore p (textBefore_eq_some.mp hp).2]

theorem extract_serviceDiscovery_of_lt (h : bytes.length < bufferSize) :
    Handler.serviceDiscovery.extract bytes = some (frameBody bytes) := by
  have hsize : (filled bytes).length ≤ bufferSize + 1 := by
    rw [length_filled h.le]
    exact Nat.le_succ _
  simp only [Handler.extract, store_filled h, Option.bind_eq_bind, Option.bind_some,
    copyBody_of_nul (nul_mem_filled h) hsize, frameBody_filled, map_cstr_copied]
  rfl

theorem extract_serviceDiscovery_of_eq (h : bytes.length = bufferSize) :
    Handler.serviceDiscovery.extract bytes = none := by
  have hstore : store (filled bytes) bytes.length '\x00' = none := by
    rw [filled_of_length_eq h]
    exact store_length
  simp only [Handler.extract, hstore]
  rfl

theorem extract_handleMcastReceive (hne : bytes ≠ []) (h : bytes.length ≤ bufferSize) :
    Handler.handleMcastReceive.extract bytes = some (frameBody bytes.dropLast) := by
  have hlt : bytes.dropLast.length < bufferSize := by
    have := List.length_pos_iff.mpr hne
    rw [List.length_dropLast]
    omega
  simp only [Handler.extract, store_filled_last hne h, Option.bind_eq_bind, Option.bind_some,
    copyBody_of_nul (nul_mem_filled hlt) (length_filled hlt.le).le, frameBody_filled,
    map_cstr_copied]
  rfl

end Handlers

namespace Handler
variable {bytes : Text}

/-- The text of the model, in which no subscript is checked. -/
def body (bytes : Text) : Handler → Option Text
  | .handleMcastReceive => frameBody bytes.dropLast
  | _ => frameBody bytes

/-- **What a handler extracts without leaving its arrays** is the text of the model. -/
theorem extract_eq_frameBody {h : Handler} (hreceives : h.Receives bytes) {found : Option Text}
    (hextract : h.extract bytes = some found) : found = h.body bytes := by
  cases h with
  | handleSocketChange =>
      rcases lt_or_eq_of_le hreceives.2 with hlt | heq
      · rw [extract_handleSocketChange_of_lt hlt] at hextract
        exact (Option.some.inj hextract).symm
      · rw [extract_handleSocketChange_of_eq heq] at hextract
        split at hextract
        · rename_i hnone
          rw [← Option.some.inj hextract]
          exact hnone.2.symm
        · cases hextract
  | serviceDiscovery =>
      rcases lt_or_eq_of_le hreceives.2 with hlt | heq
      · rw [extract_serviceDiscovery_of_lt hlt] at hextract
        exact (Option.some.inj hextract).symm
      · rw [extract_serviceDiscovery_of_eq heq] at hextract
        cases hextract
  | handleMcastReceive =>
      have hne : bytes ≠ [] := by
        rintro rfl
        cases hextract
      rw [extract_handleMcastReceive hne hreceives] at hextract
      exact (Option.some.inj hextract).symm

/-- **A handler extracts the text before the first empty line within its arrays exactly
when** the block fits. -/
theorem extracts_iff {h : Handler} (hreceives : h.Receives bytes) :
    h.Extracts bytes ↔ h.Fits bytes := by
  cases h with
  | handleSocketChange =>
      rcases lt_or_eq_of_le hreceives.2 with hlt | heq
      · have hne : ¬ (bytes.length = bufferSize ∧ '\x00' ∈ bytes ∧ textBefore bytes = none) :=
          fun h => hlt.ne h.1
        rw [Extracts, extract_handleSocketChange_of_lt hlt, Option.some.injEq,
          frameBody_eq_textBefore_iff, Fits, or_iff_left hne, and_iff_right hlt]
      · have hnot : ¬ (bytes.length < bufferSize ∧ ∀ p ∈ textBefore bytes, '\x00' ∉ p) :=
          fun h => h.1.ne heq
        rw [Extracts, extract_handleSocketChange_of_eq heq, Fits, or_iff_right hnot,
          and_iff_right heq]
        constructor
        · intro h
          split at h
          · rename_i hnone
            exact ⟨hnone.1, (Option.some.inj h).symm⟩
          · cases h
        · rintro ⟨hnul, hnone⟩
          have hbody : frameBody bytes = none := by
            rw [frameBody_eq_textBefore_iff.mpr (by simp [hnone]), hnone]
          rw [if_pos ⟨hnul, hbody⟩, hnone]
  | serviceDiscovery =>
      rcases lt_or_eq_of_le hreceives.2 with hlt | heq
      · rw [Extracts, extract_serviceDiscovery_of_lt hlt, Option.some.injEq,
          frameBody_eq_textBefore_iff, Fits, and_iff_right hlt]
      · rw [Extracts, extract_serviceDiscovery_of_eq heq]
        exact iff_of_false (fun h => by cases h) fun h => h.1.ne heq
  | handleMcastReceive =>
      by_cases hne : bytes = []
      · subst hne
        exact iff_of_false (fun h => by cases h) fun h => h.1 rfl
      · rw [Extracts, extract_handleMcastReceive hne hreceives, Option.some.injEq,
          frameBody_dropLast_eq_iff hne, Fits, and_iff_right hne]

end Handler

/-! ### A frame of 256 bytes -/

/-- A frame as the servers send it fills the array, so that the NUL goes behind it; an empty
datagram puts it before the array; and a datagram that ends with its empty line is cut. -/
theorem full_frame_leaves_array :
    (Handler.handleSocketChange.Receives (padX (heartbeat 7)) ∧
      Handler.handleSocketChange.extract (padX (heartbeat 7)) = none) ∧
    (Handler.serviceDiscovery.Receives (padX (heartbeat 7)) ∧
      Handler.serviceDiscovery.extract (padX (heartbeat 7)) = none) ∧
    (Handler.handleMcastReceive.Receives [] ∧ Handler.handleMcastReceive.extract [] = none) ∧
    Handler.handleMcastReceive.Receives (heartbeat 7) ∧
      Handler.handleMcastReceive.extract (heartbeat 7) = some none ∧
      textBefore (heartbeat 7) = some (text "HEARTBEAT:7") := by
  have hlen : (padX (heartbeat 7)).length = bufferSize := length_padX (by decide)
  have hreceives : 1 ≤ (padX (heartbeat 7)).length ∧ (padX (heartbeat 7)).length ≤ bufferSize := by
    rw [hlen]
    decide
  have hbody : frameBody (padX (heartbeat 7)) = some (text "HEARTBEAT:7") := by
    have hsettled : Settled '\n' (text "HEARTBEAT:7") := settled_of_not_mem (by decide)
    have hfound := frameBody_padX (by decide) hsettled (by decide)
    rwa [List.take_of_length_le (show (padX (text "HEARTBEAT:7" ++ emptyLine)).length ≤ bufferSize
      from hlen.le)] at hfound
  refine ⟨⟨hreceives, ?_⟩, ⟨hreceives, extract_serviceDiscovery_of_eq hlen⟩,
    ⟨by decide, rfl⟩, by decide, ?_, rfl⟩
  · rw [extract_handleSocketChange_of_eq hlen, if_neg]
    rintro ⟨-, hnone⟩
    rw [hbody] at hnone
    cases hnone
  · rw [extract_handleMcastReceive (by decide) (by decide)]
    rfl

theorem extracts_iff_heartbeat : Handler.handleSocketChange.Extracts (heartbeat 7) ↔
    Handler.handleSocketChange.Fits (heartbeat 7) := Handler.extracts_iff (by decide)

end ChatRing
