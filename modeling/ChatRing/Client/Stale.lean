import ChatRing.Client.Delivery
import ChatRing.Client.Send

/-!
# What a receipt takes from the old `Buffer`

`recvfrom` writes a datagram over the beginning of the global `Buffer`, which is not
cleared before, and `clear_message` then reads `Buffer` as one string.  A datagram that
ends neither in a NUL nor in an empty line is therefore read together with whatever
stood behind it: an earlier datagram, a reply of the server, or the client's own last
outgoing message.

## Main results

* `kept_ne_of_accepted` — a receipt that is accepted changes the queue or the vector.
* `sameReceipt_iff` — when the old contents make no difference.
-/

namespace ChatRing
open CText

/-- The queue and the vector that a receipt leaves behind. -/
def Delivery.kept (d : Delivery) : List HoldBackQueue × Clock := (d.head, d.delivered)

/-- The receipt returns the same queue and leaves the same `DELIVERED`, whatever
`Buffer` held before. -/
def SameReceipt (stale : Clock) (bufferHead : List HoldBackQueue) (delivered : Clock)
    (bytes : Text) : Prop :=
  ∀ b₁ b₂ : Text, b₁.length = bufferSize → b₂.length = bufferSize →
    (handleGroupReceive stale b₁ (.datagram bytes) bufferHead delivered).map Delivery.kept =
      (handleGroupReceive stale b₂ (.datagram bytes) bufferHead delivered).map Delivery.kept

/-- The datagram fills the buffer, carries an end of its own, or is the beginning of no
group message that the buffer could hold. -/
def SelfContained (bytes : Text) : Prop :=
  bufferSize ≤ bytes.length ∨ '\x00' ∈ bytes ∨ emptyLine <:+: bytes ∨
    ∀ rest : Text, bytes.length + rest.length = bufferSize → acceptedFields (bytes ++ rest) = none

section Buffer
variable {buffer bytes : Text}

theorem recvfrom_of_le (h : bufferSize ≤ bytes.length) (hb : buffer.length = bufferSize) :
    recvfrom buffer bytes = bytes.take bufferSize := by
  rw [recvfrom, List.length_take, min_eq_left h, List.drop_of_length_le hb.le, List.append_nil]

theorem recvfrom_of_lt (h : bytes.length < bufferSize) :
    recvfrom buffer bytes = bytes ++ buffer.drop bytes.length := by
  rw [recvfrom, List.take_of_length_le h.le]

/-- The first end that a datagram carries is found before what stands behind it. -/
theorem frameBody_congr (h : '\x00' ∈ bytes ∨ emptyLine <:+: bytes) (r₁ r₂ : Text) :
    frameBody (bytes ++ r₁) = frameBody (bytes ++ r₂) := by
  by_cases hnul : '\x00' ∈ bytes
  · rw [frameBody, frameBody, cstr_append_of_mem hnul, cstr_append_of_mem hnul]
  · have hline : emptyLine <:+: bytes := h.resolve_left hnul
    cases hp : strstr emptyLine bytes with
    | none => exact absurd hline (strstr_eq_none_iff.mp hp)
    | some p => rw [frameBody_of_strstr hnul hp, frameBody_of_strstr hnul hp]

/-- A datagram without an end in a buffer of zeros is no message. -/
theorem frameBody_zeros (hnul : '\x00' ∉ bytes) (hline : ¬ emptyLine <:+: bytes) (n : ℕ) :
    frameBody (bytes ++ List.replicate n '\x00') = none := by
  have hcstr : cstr (bytes ++ List.replicate n '\x00') = bytes := by
    cases n with
    | zero => simpa using cstr_eq_self hnul
    | succ n => exact cstr_append_nul hnul _
  rw [frameBody, hcstr, strstr_eq_none_iff.mpr hline, Option.map_none]

end Buffer

section Receipt
variable {stale delivered : Clock} {bufferHead : List HoldBackQueue} {b₁ b₂ bytes rest : Text}

/-- The buffer matters only through the text before its first empty line. -/
theorem handleGroupReceive_congr
    (h : frameBody (recvfrom b₁ bytes) = frameBody (recvfrom b₂ bytes)) :
    handleGroupReceive stale b₁ (.datagram bytes) bufferHead delivered =
      handleGroupReceive stale b₂ (.datagram bytes) bufferHead delivered := by
  simp only [handleGroupReceive, clearMessage, h]

/-- An accepted message is queued; so it is kept, or something is delivered. -/
theorem kept_ne_of_accepted {buffer : Text} {f : GroupFields}
    (h : acceptedFields (recvfrom buffer bytes) = some f) :
    (handleGroupReceive stale buffer (.datagram bytes) bufferHead delivered).map Delivery.kept ≠
      .ok ([], delivered) := by
  intro heq
  obtain ⟨r, hr, hkept⟩ := Except.map_eq_ok.mp heq
  obtain ⟨hhead, hdelivered⟩ := Prod.ext_iff.mp hkept
  obtain ⟨clean, hclean, hscan⟩ := Option.bind_eq_some_iff.mp h
  simp only [handleGroupReceive, hclean] at hr
  obtain ⟨q, hq, hr⟩ := Except.bind_eq_ok.mp hr
  simp only [appendToHoldbackQueue, hscan] at hq
  obtain ⟨dep, -, hq⟩ := Except.bind_eq_ok.mp hq
  cases hq
  simp only [deliverMessages, hscan] at hr
  split at hr
  · cases hr
  · rename_i m q' hcons
    obtain ⟨hlog, hhead'⟩ := delivers_of_deliverLoop hr
    rw [show r.delivered = delivered from hdelivered] at hlog
    rw [show r.head = [] from hhead] at hhead'
    simpa using hhead' hlog.eq_nil

/-- A datagram that the old contents complete to a message is received differently in a
buffer of zeros. -/
theorem not_sameReceipt (hnul : '\x00' ∉ bytes) (hline : ¬ emptyLine <:+: bytes)
    (hlen : bytes.length + rest.length = bufferSize) {f : GroupFields}
    (h : acceptedFields (bytes ++ rest) = some f) (hlt : bytes.length < bufferSize) :
    ¬ SameReceipt stale bufferHead delivered bytes := by
  intro hsame
  have hzeros : Rejected (List.replicate bufferSize '\x00') (.datagram bytes) := by
    simp only [Rejected, acceptedFields, clearMessage, recvfrom_of_lt hlt, List.drop_replicate,
      frameBody_zeros hnul hline, Option.bind_none]
  have hrest : recvfrom (bytes ++ rest) bytes = bytes ++ rest := by
    rw [recvfrom_of_lt hlt, List.drop_left]
  have hkept := hsame (bytes ++ rest) (List.replicate bufferSize '\x00') (by simpa using hlen)
    (List.length_replicate ..)
  rw [handleGroupReceive_of_rejected hzeros] at hkept
  exact kept_ne_of_accepted (hrest.symm ▸ h) hkept

/-- **A receipt depends only on the received bytes exactly when the datagram is
self-contained.** -/
theorem sameReceipt_iff (stale : Clock) (bufferHead : List HoldBackQueue) (delivered : Clock)
    (bytes : Text) : SameReceipt stale bufferHead delivered bytes ↔ SelfContained bytes := by
  constructor
  · intro hsame
    by_contra hself
    simp only [SelfContained, not_or, not_le, not_forall] at hself
    obtain ⟨hlt, hnul, hline, rest, hlen, haccepted⟩ := hself
    obtain ⟨f, hf⟩ := Option.ne_none_iff_exists'.mp haccepted
    exact not_sameReceipt hnul hline hlen hf hlt hsame
  · intro hself b₁ b₂ h₁ h₂
    have hcongr (h : frameBody (recvfrom b₁ bytes) = frameBody (recvfrom b₂ bytes)) :
        (handleGroupReceive stale b₁ (.datagram bytes) bufferHead delivered).map Delivery.kept =
          (handleGroupReceive stale b₂ (.datagram bytes) bufferHead delivered).map Delivery.kept :=
      congrArg (Except.map Delivery.kept) (handleGroupReceive_congr h)
    by_cases hlt : bytes.length < bufferSize
    · rw [recvfrom_of_lt hlt, recvfrom_of_lt hlt] at hcongr
      rcases hself with hle | hnul | hline | hnone
      · omega
      · exact hcongr (frameBody_congr (Or.inl hnul) _ _)
      · exact hcongr (frameBody_congr (Or.inr hline) _ _)
      · have hrejected : ∀ b : Text, b.length = bufferSize → Rejected b (.datagram bytes) := by
          intro b hb
          simp only [Rejected, recvfrom_of_lt hlt]
          apply hnone
          rw [List.length_drop]
          omega
        rw [handleGroupReceive_of_rejected (hrejected b₁ h₁),
          handleGroupReceive_of_rejected (hrejected b₂ h₂)]
    · refine hcongr ?_
      rw [recvfrom_of_le (not_lt.mp hlt) h₁, recvfrom_of_le (not_lt.mp hlt) h₂]

end Receipt

/-! ### An empty datagram behind the client's own message -/

private def writer : Client := ⟨100, 0, 0, 0, [], [], []⟩

private theorem writer_fits : writer.Fits (text "hi\n") ∧ PromptLine (text "hi\n") ∧
    ¬ Client.Blank (text "hi\n") := by
  refine ⟨⟨by decide, by decide, by decide, by decide +kernel⟩, by decide, ?_⟩
  intro hblank
  exact absurd (hblank 'h' (by decide)) (by decide)

/-- The client takes its own outgoing `Buffer` for a message that it received. -/
theorem empty_datagram_repeats :
    handleGroupReceive 0 (List.replicate bufferSize '\x00') (.datagram []) [] 0 = .ok ⟨[], 0, []⟩ ∧
      (handleGroupReceive 0 (writer.multicast (text "hi\n")).buffer (.datagram []) [] 0).map
        Delivery.log = .ok [writer.node (text "hi\n")] ∧
      ¬ SameReceipt 0 [] 0 [] := by
  obtain ⟨hf, hl, hblank⟩ := writer_fits
  have hbuffer (buffer : Text) : recvfrom buffer [] = buffer := rfl
  have hbody : clearMessage (writer.multicast (text "hi\n")).buffer =
      some (writer.cleanMessage (text "hi\n")) := Client.clearMessage_multicast hl
  obtain ⟨w, hscan⟩ := Client.scanGroup_cleanMessage hf hblank
  have hzeros : frameBody ([] ++ List.replicate bufferSize '\x00') = none :=
    frameBody_zeros (by simp) (by simp [emptyLine]) bufferSize
  rw [List.nil_append] at hzeros
  refine ⟨?_, ?_, ?_⟩
  · apply handleGroupReceive_of_rejected
    simp [Rejected, acceptedFields, clearMessage, hbuffer, hzeros]
  · simp only [handleGroupReceive, hbuffer, hbody,
      Client.appendToHoldbackQueue_cleanMessage hf hblank, Except.ok_bind, List.nil_append,
      deliverMessages, hscan]
    rfl
  · have haccepted : acceptedFields ([] ++ (writer.multicast (text "hi\n")).buffer) = some
        ⟨0, writer.selfId, (writer.clkIndex : ℕ), getDepsStr writer.dependency, w⟩ := by
      rw [List.nil_append, acceptedFields, hbody, Option.bind_some, hscan]
    have hlen : (writer.multicast (text "hi\n")).buffer.length = bufferSize :=
      length_padX hf.message
    exact not_sameReceipt (by simp) (by simp [emptyLine]) (by simpa using hlen) haccepted
      (by decide)

end ChatRing
