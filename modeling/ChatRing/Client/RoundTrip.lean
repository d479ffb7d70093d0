import ChatRing.Client.Send

/-!
# The round trip of a typed line

A line typed at the multicast prompt goes through `sprintf`, the padded buffer,
`clear_message` and `append_to_holdback_queue`.  `fgets` leaves the newline at the end of
the line, and `clear_message` cuts at the first empty line, so that this newline is the
one character that does not arrive.

## Main results

* `Client.Sends.fits` — the message fits its buffer.
* `Client.roundTrips_iff` — a typed line arrives iff something in it is visible.
-/

namespace ChatRing
open CText

/-- The line without the newline that `fgets` leaves at its end. -/
def typedText (userInput : Text) : Text := userInput.takeWhile (· ≠ '\n')

/-- Some character of the line is not white space. -/
def Visible (userInput : Text) : Prop := ∃ c ∈ userInput, isSpace c = false

theorem not_mem_typedText (userInput : Text) : '\n' ∉ typedText userInput := by
  intro h
  exact absurd (List.mem_takeWhile_imp h) (by simp)

/-- `fgets` stops behind the first newline. -/
theorem typedText_or {userInput : Text} (hfgets : '\n' ∉ userInput.dropLast) :
    userInput = typedText userInput ∨ userInput = typedText userInput ++ ['\n'] := by
  by_cases hmem : '\n' ∈ userInput
  · refine Or.inr ?_
    have hne : userInput ≠ [] := List.ne_nil_of_mem hmem
    have hsplit := List.dropLast_append_getLast hne
    have hlast : userInput.getLast hne = '\n' := by
      rw [← hsplit, List.mem_append, List.mem_singleton] at hmem
      exact (hmem.resolve_left hfgets).symm
    have htake : typedText userInput = userInput.dropLast := by
      rw [typedText, ← hsplit, hlast, List.takeWhile_append_of_pos]
      · simp
      · intro c hc
        exact decide_eq_true (ne_of_mem_of_not_mem hc hfgets)
    rw [htake, ← hlast, hsplit]
  · refine Or.inl (Eq.symm ?_)
    rw [typedText, List.takeWhile_eq_self_iff]
    intro c hc
    exact decide_eq_true (ne_of_mem_of_not_mem hc hmem)

instance (userInput : Text) : Decidable (Visible userInput) :=
  inferInstanceAs (Decidable (∃ c ∈ userInput, isSpace c = false))

namespace Client

/-- A client that can multicast: its ID, its counters, and a vector whose text fits
`DEPENDENCY_STR`. -/
structure Sends (c : Client) : Prop where
  selfId : 100 ≤ c.selfId ∧ c.selfId ≤ 1000
  sendSeq : 0 ≤ c.sendSeq ∧ IsInt c.sendSeq
  delivered : ∀ i, 0 ≤ c.delivered i ∧ IsInt (c.delivered i)
  dependency : (getDepsStr c.dependency).length < 5 * maxGroupSize

/-- Whatever the receiver holds, it appends one node with the sender's fields, and the
content of the node ends in `line`. -/
def RoundTrips (c : Client) (userInput line : Text) : Prop :=
  ∀ (buffer : Text) (stale : Clock) (head : List HoldBackQueue),
    ∃ cleanMessage m, clearMessage (recvfrom buffer (c.datagram userInput)) = some cleanMessage ∧
      appendToHoldbackQueue stale head cleanMessage = .ok (head ++ [m]) ∧
        m.id = c.selfId ∧ m.clkIndex = ((c.clkIndex : ℕ) : ℤ) ∧ m.dependency = c.dependency ∧
          line <:+ m.content

variable {c : Client} {userInput line : Text}

/-- The longest header and the longest line fit `message[BUFFER_SIZE]`. -/
theorem Sends.fits (hc : c.Sends) (hl : PromptLine userInput) : c.Fits userInput := by
  obtain ⟨hid₁, hid₂⟩ := hc.selfId
  refine ⟨⟨by omega, by omega⟩, hc.sendSeq.2, fun i => (hc.delivered i).2, ?_⟩
  have hid : (intText c.selfId).length ≤ 4 := by
    obtain ⟨n, hn⟩ := Int.eq_ofNat_of_zero_le (by omega : 0 ≤ c.selfId)
    rw [hn]
    show (Nat.toDigits 10 n).length ≤ 4
    rw [Nat.length_toDigits_le_iff (by decide) (by decide)]
    omega
  have hindex : (intText ((c.clkIndex : ℕ) : ℤ)).length ≤ 1 := by
    show (Nat.toDigits 10 (c.clkIndex : ℕ)).length ≤ 1
    rw [Nat.length_toDigits_le_iff (by decide) (by decide)]
    exact c.clkIndex.isLt
  have hdeps := hc.dependency
  have hline := hl.length_le
  have h₀ : (intText 0).length = 1 := by decide +kernel
  have h₁ : (text "\n\tGROUP_ID:").length = 11 := by decide +kernel
  have h₂ : (text "\n\tSENDER_ID:").length = 12 := by decide +kernel
  have h₃ : (text "\n\tSENDER_CLK_INDEX:").length = 19 := by decide +kernel
  have h₄ : (text "\n\tDEPS:").length = 7 := by decide +kernel
  have h₅ : (text "\n\tMESSAGE:").length = 10 := by decide +kernel
  rw [message, groupMessage_eq]
  simp only [groupHeader, List.length_append, emptyLine, List.length_cons, List.length_nil,
    h₀, h₁, h₂, h₃, h₄, h₅]
  simp only [maxGroupSize, bufferSize] at hdeps hline ⊢
  omega

/-- The empty line behind a line of `fgets` is found where its newline stands. -/
theorem receivedLine_eq (hfgets : '\n' ∉ userInput.dropLast) :
    receivedLine userInput = typedText userInput := by
  have hcut : ∀ t, strstr emptyLine (typedText userInput ++ (emptyLine ++ t)) =
      some (typedText userInput, emptyLine ++ t) := by
    intro t
    rw [emptyLine, strstr_settled (settled_of_not_mem (not_mem_typedText userInput))]
    simp [strstr]
  rw [receivedLine]
  rcases typedText_or hfgets with h | h
  · have hcut' := hcut []
    rw [← h, List.append_nil] at hcut'
    rw [hcut', ← h]
    rfl
  · have hline : userInput ++ emptyLine = typedText userInput ++ (emptyLine ++ ['\n']) := by
      conv_lhs => rw [h, List.append_assoc]
      rfl
    rw [hline, hcut]
    rfl

/-- The character that is left out is not visible. -/
theorem mem_typedText (hfgets : '\n' ∉ userInput.dropLast) {ch : Char} (hch : ch ∈ userInput)
    (hvisible : isSpace ch = false) : ch ∈ typedText userInput := by
  rcases typedText_or hfgets with h | h
  · rwa [h] at hch
  · rw [h, List.mem_append, List.mem_singleton] at hch
    rcases hch with hch | rfl
    · exact hch
    · cases hvisible

/-- A line is blank for the receiver when nothing in it is visible. -/
theorem blank_iff (hfgets : '\n' ∉ userInput.dropLast) : Blank userInput ↔ ¬ Visible userInput := by
  rw [Blank, receivedLine_eq hfgets]
  constructor
  · rintro hblank ⟨ch, hch, hvisible⟩
    rw [hblank ch (mem_typedText hfgets hch hvisible)] at hvisible
    cases hvisible
  · intro hnot ch hch
    by_contra hvisible
    exact hnot ⟨ch, (List.takeWhile_prefix _).subset hch, Bool.eq_false_of_not_eq_true hvisible⟩

/-- A line that the receiver accepts arrives in the node of its sender. -/
theorem roundTrips_iff_of_visible (hc : c.Sends) (hl : PromptLine userInput)
    (hfgets : '\n' ∉ userInput.dropLast) (hvisible : Visible userInput) :
    c.RoundTrips userInput line ↔ line <:+ (c.node userInput).content := by
  have hb : ¬ Blank userInput := fun h => (blank_iff hfgets).mp h hvisible
  constructor
  · intro htrips
    obtain ⟨cleanMessage, m, hclean, hm, -, -, -, hline⟩ := htrips [] 0 []
    rw [clearMessage_datagram (hc.fits hl) hl] at hclean
    cases hclean
    rw [appendToHoldbackQueue_cleanMessage (hc.fits hl) hb] at hm
    cases hm
    exact hline
  · intro hline buffer stale head
    exact ⟨c.cleanMessage userInput, c.node userInput, clearMessage_datagram (hc.fits hl) hl buffer,
      appendToHoldbackQueue_cleanMessage (hc.fits hl) hb stale head, rfl, rfl, rfl, hline⟩

/-- A line in which nothing is visible is not accepted. -/
theorem not_roundTrips_of_not_visible (hc : c.Sends) (hl : PromptLine userInput)
    (hfgets : '\n' ∉ userInput.dropLast) (hvisible : ¬ Visible userInput) :
    ¬ c.RoundTrips userInput line := by
  intro htrips
  obtain ⟨cleanMessage, m, hclean, hm, -⟩ := htrips [] 0 []
  rw [clearMessage_datagram (hc.fits hl) hl] at hclean
  cases hclean
  simp only [appendToHoldbackQueue,
    scanGroup_of_blank (hc.fits hl) ((blank_iff hfgets).mpr hvisible)] at hm
  cases hm

/-- The content of a node ends in the line without its newline. -/
theorem content_node (hfgets : '\n' ∉ userInput.dropLast) :
    (c.node userInput).content =
      groupHeader 0 c.selfId (c.clkIndex : ℕ) (getDepsStr c.dependency) ++ typedText userInput :=
  congrArg (_ ++ ·) (receivedLine_eq hfgets)

/-- **A typed line arrives exactly when something in it is visible**, without the newline
that `fgets` left at its end; with that newline it never arrives. -/
theorem roundTrips_iff (hc : c.Sends) (hl : PromptLine userInput)
    (hfgets : '\n' ∉ userInput.dropLast) :
    (c.RoundTrips userInput (typedText userInput) ↔ Visible userInput) ∧
      (c.RoundTrips userInput userInput ↔ Visible userInput ∧ '\n' ∉ userInput) := by
  by_cases hvisible : Visible userInput
  · rw [roundTrips_iff_of_visible hc hl hfgets hvisible,
      roundTrips_iff_of_visible hc hl hfgets hvisible, content_node hfgets]
    refine ⟨iff_of_true (List.suffix_append _ _) hvisible, ?_⟩
    rw [and_iff_right hvisible]
    rcases typedText_or hfgets with h | h
    · refine iff_of_true ?_ ?_
      · conv_lhs => rw [h]
        exact List.suffix_append _ _
      · rw [h]
        exact not_mem_typedText userInput
    · refine iff_of_false (fun hsuffix => ?_) ?_
      · -- the content ends in a character of the text before the newline
        obtain ⟨ch, hch, hspace⟩ := hvisible
        have hne : typedText userInput ≠ [] := List.ne_nil_of_mem (mem_typedText hfgets hch hspace)
        obtain ⟨w, hw⟩ := hsuffix
        have hlast := congrArg List.getLast? hw
        rw [List.getLast?_append_of_ne_nil _ hne, List.getLast?_append_of_ne_nil _
          (List.ne_nil_of_mem hch), h, List.getLast?_concat, ← h] at hlast
        exact not_mem_typedText userInput (List.mem_of_getLast? hlast.symm)
      · rw [h]
        simp
  · have hnot : ∀ line, ¬ c.RoundTrips userInput line :=
      fun _ => not_roundTrips_of_not_visible hc hl hfgets hvisible
    exact ⟨iff_of_false (hnot _) hvisible, iff_of_false (hnot _) fun h => hvisible h.1⟩

/-! ## A line with a blank in it, and a line of nothing else -/

private def sender : Client := ⟨500, 3, 7, fun i => if i = 1 then 12 else 0, [], [], []⟩

private theorem sender_sends : sender.Sends :=
  ⟨by decide, by decide, by decide, by decide +kernel⟩

theorem roundTrips_iff_two_words :
    typedText (text " two words\n") = text " two words" ∧
      (sender.RoundTrips (text " two words\n") (typedText (text " two words\n")) ↔
        Visible (text " two words\n")) ∧
      (sender.RoundTrips (text " two words\n") (text " two words\n") ↔
        Visible (text " two words\n") ∧ '\n' ∉ text " two words\n") :=
  ⟨by decide +kernel, roundTrips_iff sender_sends (by decide +kernel) (by decide +kernel)⟩

/-- The prompt takes a single blank for a message, and no receiver does. -/
theorem single_blank_rejected :
    sender.Sends ∧ PromptLine (text " \n") ∧ '\n' ∉ (text " \n").dropLast ∧
      (∀ buffer, clearMessage (recvfrom buffer (sender.datagram (text " \n"))) =
        some (sender.cleanMessage (text " \n"))) ∧
      (∀ stale head, appendToHoldbackQueue stale head (sender.cleanMessage (text " \n")) =
        .ok head) ∧
      ¬ sender.RoundTrips (text " \n") (typedText (text " \n")) := by
  have hl : PromptLine (text " \n") := by decide +kernel
  have hfgets : '\n' ∉ (text " \n").dropLast := by decide +kernel
  have hvisible : ¬ Visible (text " \n") := by
    rintro ⟨c, hc, hspace⟩
    rcases List.mem_pair.mp (show c ∈ [' ', '\n'] from hc) with rfl | rfl <;> cases hspace
  refine ⟨sender_sends, hl, hfgets, clearMessage_datagram (sender_sends.fits hl) hl, ?_,
    not_roundTrips_of_not_visible sender_sends hl hfgets hvisible⟩
  intro stale head
  simp only [appendToHoldbackQueue,
    scanGroup_of_blank (sender_sends.fits hl) ((blank_iff hfgets).mpr hvisible)]

end Client
end ChatRing
