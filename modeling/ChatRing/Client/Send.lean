import ChatRing.Client.Receive

/-!
# Sending a group message

The mode-1 branch of the client's `main`: the dependency vector is the delivery
vector with the sender's own slot replaced by its send counter, and the message is
printed into a padded buffer of which `strlen(Buffer)` bytes are sent.

`nodeOf` is the node a receiver appends for a datagram.  `nodeOf_datagram` computes
it for every datagram of the send path: the printed fields are recovered, unless
the text is blank, in which case `sscanf` finds no fifth field and the receiver
rejects the message.
-/

namespace ChatRing
open CText

/-- The globals of one client that take part in group communication.  `GROUP_ID` is
never assigned and stays 0.  `log` is what the client printed as delivered. -/
structure Client where
  selfId : ℤ
  clkIndex : Fin maxGroupSize
  sendSeq : ℤ
  delivered : Clock
  bufferHead : List HoldBackQueue
  buffer : Text
  log : List HoldBackQueue

/-- `memcpy(DEPENDENCY, DELIVERED, ...); DEPENDENCY[CLK_INDEX] = SEND_SEQ` -/
def Client.dependency (c : Client) : Clock := Function.update c.delivered c.clkIndex c.sendSeq

/-- The text printed for a group message. -/
def groupMessage (groupId selfId clkIndex : ℤ) (dependencyStr userInput : Text) : Text :=
  sprintf
    "\n\tGROUP_ID:%d\n\tSENDER_ID:%d\n\tSENDER_CLK_INDEX:%d\n\tDEPS:%s\n\tMESSAGE:%s\n\n"
    [.int groupId, .int selfId, .int clkIndex, .str dependencyStr, .str userInput]

/-- `message`, as the send path prints it for a typed line. -/
def Client.message (c : Client) (userInput : Text) : Text :=
  groupMessage 0 c.selfId (c.clkIndex : ℕ) (getDepsStr c.dependency) userInput

/-- The bytes handed to `group_multicast`: the string in the padded buffer. -/
def Client.datagram (c : Client) (userInput : Text) : Text := cstr (padX (c.message userInput))

/-- The state after the send: `SEND_SEQ++`, and `Buffer` holds the message. -/
def Client.multicast (c : Client) (userInput : Text) : Client :=
  { c with sendSeq := c.sendSeq + 1, buffer := padX (c.message userInput) }

/-- Counters and texts within their types: every counter is an `int` and the
message fits `message[BUFFER_SIZE]`. -/
structure Client.Fits (c : Client) (userInput : Text) : Prop where
  selfId : IsInt c.selfId
  sendSeq : IsInt c.sendSeq
  delivered : ∀ i, IsInt (c.delivered i)
  message : (c.message userInput).length < bufferSize

/-- A line the prompt accepts: no NUL, at least two characters, and not the line
that leaves the mode. -/
structure PromptLine (userInput : Text) : Prop where
  not_nul : '\x00' ∉ userInput
  length_ge : 2 ≤ userInput.length
  length_le : userInput.length ≤ bufferSize - 128
  ne_zero : userInput ≠ text "0\n"

instance (c : Client) (userInput : Text) : Decidable (c.Fits userInput) :=
  decidable_of_iff
    (IsInt c.selfId ∧ IsInt c.sendSeq ∧ (∀ i, IsInt (c.delivered i)) ∧
      (c.message userInput).length < bufferSize)
    ⟨fun ⟨h₁, h₂, h₃, h₄⟩ => ⟨h₁, h₂, h₃, h₄⟩, fun ⟨h₁, h₂, h₃, h₄⟩ => ⟨h₁, h₂, h₃, h₄⟩⟩

instance (userInput : Text) : Decidable (PromptLine userInput) :=
  decidable_of_iff
    ('\x00' ∉ userInput ∧ 2 ≤ userInput.length ∧ userInput.length ≤ bufferSize - 128 ∧
      userInput ≠ text "0\n")
    ⟨fun ⟨h₁, h₂, h₃, h₄⟩ => ⟨h₁, h₂, h₃, h₄⟩, fun ⟨h₁, h₂, h₃, h₄⟩ => ⟨h₁, h₂, h₃, h₄⟩⟩

/-- The node that `append_to_holdback_queue` builds for a received datagram, or
nothing when it builds none. -/
def nodeOf (bytes : Text) : Option HoldBackQueue :=
  match clearMessage (recvfrom [] bytes) with
  | none => none
  | some cleanMessage =>
      match appendToHoldbackQueue 0 [] cleanMessage with
      | .ok [m] => some m
      | _ => none

/-- What the receive path does with the node of a datagram. -/
def receiveNode : Option HoldBackQueue → List HoldBackQueue → Clock → Except Fault Delivery
  | none, _, delivered => .ok ⟨[], delivered, []⟩
  | some m, head, delivered => deliverLoop (head ++ [m]) (head ++ [m]) delivered

/-- The part of a typed line that reaches a receiver: up to the first empty line. -/
def receivedLine (userInput : Text) : Text :=
  ((strstr emptyLine (userInput ++ emptyLine)).map Prod.fst).getD []

/-! ## The header of a group message -/

/-- Everything before the typed line. -/
def groupHeader (groupId selfId clkIndex : ℤ) (dependencyStr : Text) : Text :=
  text "\n\tGROUP_ID:" ++ (intText groupId ++ (text "\n\tSENDER_ID:" ++ (intText selfId ++
    (text "\n\tSENDER_CLK_INDEX:" ++ (intText clkIndex ++ (text "\n\tDEPS:" ++
      (dependencyStr ++ text "\n\tMESSAGE:")))))))

theorem groupMessage_eq (groupId selfId clkIndex : ℤ) (deps userInput : Text) :
    groupMessage groupId selfId clkIndex deps userInput =
      groupHeader groupId selfId clkIndex deps ++ (userInput ++ emptyLine) := by
  have hformat : format
      "\n\tGROUP_ID:%d\n\tSENDER_ID:%d\n\tSENDER_CLK_INDEX:%d\n\tDEPS:%s\n\tMESSAGE:%s\n\n" =
      lits (text "\n\tGROUP_ID:") ++ (.int :: (lits (text "\n\tSENDER_ID:") ++ (.int ::
        (lits (text "\n\tSENDER_CLK_INDEX:") ++ (.int :: (lits (text "\n\tDEPS:") ++ (.str ::
          (lits (text "\n\tMESSAGE:") ++ (.str :: (lits emptyLine ++ [])))))))))) := by
    decide +kernel
  rw [groupMessage, sprintf, hformat]
  simp only [print_lits, print_lits_nil, print_int, print_str, groupHeader, List.append_assoc,
    List.append_nil]

/-- The header holds no empty line and ends in a colon. -/
theorem strstr_groupHeader (groupId selfId clkIndex : ℤ) (v : Clock) (t : Text) :
    strstr emptyLine (groupHeader groupId selfId clkIndex (getDepsStr v) ++ t) =
      (strstr emptyLine t).map fun p =>
        (groupHeader groupId selfId clkIndex (getDepsStr v) ++ p.1, p.2) := by
  have hdeps : Settled '\n' (getDepsStr v) :=
    settled_of_not_mem (not_mem_getDepsStr v (by decide) (by decide) (by decide))
  simp only [groupHeader, emptyLine, List.append_assoc]
  rw [strstr_settled (by decide +kernel : Settled '\n' (text "\n\tGROUP_ID:")),
    strstr_settled (settled_intText _),
    strstr_settled (by decide +kernel : Settled '\n' (text "\n\tSENDER_ID:")),
    strstr_settled (settled_intText _),
    strstr_settled (by decide +kernel : Settled '\n' (text "\n\tSENDER_CLK_INDEX:")),
    strstr_settled (settled_intText _),
    strstr_settled (by decide +kernel : Settled '\n' (text "\n\tDEPS:")), strstr_settled hdeps,
    strstr_settled (by decide +kernel : Settled '\n' (text "\n\tMESSAGE:"))]
  simp only [Option.map_map]
  rfl

theorem not_nul_groupHeader (groupId selfId clkIndex : ℤ) (v : Clock) :
    '\x00' ∉ groupHeader groupId selfId clkIndex (getDepsStr v) := by
  have hdeps : '\x00' ∉ getDepsStr v :=
    not_mem_getDepsStr v (by decide) (by decide) (by decide)
  have h₁ : '\x00' ∉ text "\n\tGROUP_ID:" := by decide +kernel
  have h₂ : '\x00' ∉ text "\n\tSENDER_ID:" := by decide +kernel
  have h₃ : '\x00' ∉ text "\n\tSENDER_CLK_INDEX:" := by decide +kernel
  have h₄ : '\x00' ∉ text "\n\tDEPS:" := by decide +kernel
  have h₅ : '\x00' ∉ text "\n\tMESSAGE:" := by decide +kernel
  simp only [groupHeader, List.mem_append, not_or]
  exact ⟨h₁, not_nul_of_mem_intText, h₂, not_nul_of_mem_intText, h₃, not_nul_of_mem_intText,
    h₄, hdeps, h₅⟩

/-- The scan of a header recovers its fields and reaches the typed line. -/
theorem sscanf_groupHeader {groupId selfId clkIndex : ℤ} (hg : IsInt groupId) (hs : IsInt selfId)
    (hk : IsInt clkIndex) (v : Clock) (line : Text) :
    sscanf (groupHeader groupId selfId clkIndex (getDepsStr v) ++ line) groupFormat =
      .int groupId :: .int selfId :: .int clkIndex :: .str (getDepsStr v) ::
        scan [.str] line := by
  have hformat : format groupFormat =
      lits ['\n', '\t'] ++ (lits (text "GROUP_ID:") ++ (.int ::
        (lits ['\n', '\t'] ++ (lits (text "SENDER_ID:") ++ (.int ::
          (lits ['\n', '\t'] ++ (lits (text "SENDER_CLK_INDEX:") ++ (.int ::
            (lits ['\n', '\t'] ++ (lits (text "DEPS:") ++ (.str ::
              (lits ['\n', '\t'] ++ (lits (text "MESSAGE:") ++ [.str]))))))))))))) := by
    decide +kernel
  -- white space in the format skips the newline and the tab before a label
  have hspaces : ∀ (ds : List Directive) (label s : Text), label.head?.any isSpace = false →
      label ≠ [] → scan (lits ['\n', '\t'] ++ ds) ('\n' :: '\t' :: (label ++ s)) =
        scan ds (label ++ s) := by
    intro ds label s hlabel hne
    obtain ⟨c, label, rfl⟩ := List.exists_cons_of_ne_nil hne
    rw [scan_spaces (by simp) (by decide)]
    have hc : isSpace c = false := hlabel
    simp [hc, show isSpace '\n' = true from rfl,
      show isSpace '\t' = true from rfl]
  have split₁ : text "\n\tGROUP_ID:" = '\n' :: '\t' :: text "GROUP_ID:" := by decide +kernel
  have split₂ : text "\n\tSENDER_ID:" = '\n' :: '\t' :: text "SENDER_ID:" := by decide +kernel
  have split₃ : text "\n\tSENDER_CLK_INDEX:" = '\n' :: '\t' :: text "SENDER_CLK_INDEX:" := by
    decide +kernel
  have split₄ : text "\n\tDEPS:" = '\n' :: '\t' :: text "DEPS:" := by decide +kernel
  have split₅ : text "\n\tMESSAGE:" = '\n' :: '\t' :: text "MESSAGE:" := by decide +kernel
  have hn : ∀ s : Text, NoDigitHead ('\n' :: s) := by intro s; simp
  have hdeps : ∀ c ∈ getDepsStr v, isSpace c = false := fun _ => isSpace_of_mem_getDepsStr
  rw [sscanf, hformat]
  simp only [groupHeader, split₁, split₂, split₃, split₄, split₅, List.append_assoc,
    List.cons_append]
  rw [hspaces _ _ _ (by decide +kernel) (by decide +kernel), scan_lits (by decide +kernel),
    scan_int hg (hn _),
    hspaces _ _ _ (by decide +kernel) (by decide +kernel), scan_lits (by decide +kernel),
    scan_int hs (hn _),
    hspaces _ _ _ (by decide +kernel) (by decide +kernel), scan_lits (by decide +kernel),
    scan_int hk (hn _),
    hspaces _ _ _ (by decide +kernel) (by decide +kernel), scan_lits (by decide +kernel),
    scan_str (getDepsStr_ne_nil (by decide) v) hdeps (by simp [isSpace]),
    hspaces _ _ _ (by decide +kernel) (by decide +kernel), scan_lits (by decide +kernel)]

/-! ## The round trip of a group message -/

namespace Client
variable (c : Client) (userInput : Text)

/-- The text that a receiver cuts out of the datagram. -/
def cleanMessage : Text :=
  groupHeader 0 c.selfId (c.clkIndex : ℕ) (getDepsStr c.dependency) ++ receivedLine userInput

/-- The node that a receiver builds from an accepted datagram. -/
def node : HoldBackQueue := ⟨c.selfId, (c.clkIndex : ℕ), c.cleanMessage userInput, c.dependency⟩

/-- Only white space of the line reaches the receiver, so that `MESSAGE:%s` fails. -/
def Blank : Prop := ∀ ch ∈ receivedLine userInput, isSpace ch = true

variable {c userInput}

theorem isInt_zero : IsInt 0 := by decide

theorem isInt_clkIndex (i : Fin maxGroupSize) : IsInt ((i : ℕ) : ℤ) := by
  have hlt : (i : ℕ) < maxGroupSize := i.isLt
  have hmax : maxGroupSize = 10 := rfl
  unfold IsInt
  omega

theorem Fits.isInt_dependency (h : c.Fits userInput) (i : Fin maxGroupSize) :
    IsInt (c.dependency i) := by
  by_cases hi : i = c.clkIndex
  · rw [dependency, hi, Function.update_self]
    exact h.sendSeq
  · rw [dependency, Function.update_of_ne hi]
    exact h.delivered i

theorem not_nul_message (hl : PromptLine userInput) : '\x00' ∉ c.message userInput := by
  rw [message, groupMessage_eq, List.mem_append, List.mem_append]
  rintro (h | h | h)
  · exact not_nul_groupHeader _ _ _ _ h
  · exact hl.not_nul h
  · exact absurd h (by decide)

/-- The datagram is the printed message followed by `'x'` bytes. -/
theorem datagram_eq (hl : PromptLine userInput) :
    c.datagram userInput = c.message userInput ++
      List.replicate (bufferSize - 1 - (c.message userInput).length) 'x' := by
  have hx : '\x00' ∉ c.message userInput ++
      List.replicate (bufferSize - 1 - (c.message userInput).length) 'x' := by
    rw [List.mem_append]
    rintro (h | h)
    · exact not_nul_message hl h
    · exact absurd (List.eq_of_mem_replicate h) (by decide)
  exact cstr_append_nul hx []

/-- The printed message up to its first empty line. -/
theorem strstr_message (c : Client) (userInput : Text) :
    ∃ b, strstr emptyLine (c.message userInput) = some (c.cleanMessage userInput, b) := by
  have hline :
      ∃ b, strstr emptyLine (userInput ++ emptyLine) = some (receivedLine userInput, b) := by
    cases hs : strstr emptyLine (userInput ++ emptyLine) with
    | none => exact absurd ⟨userInput, [], by simp⟩ (strstr_eq_none_iff.mp hs)
    | some p => exact ⟨p.2, by simp [receivedLine, hs]⟩
  obtain ⟨b, hb⟩ := hline
  refine ⟨b, ?_⟩
  rw [message, groupMessage_eq, strstr_groupHeader, hb]
  rfl

/-- A sent message stays in the sender's own buffer. -/
theorem clearMessage_multicast (hl : PromptLine userInput) :
    clearMessage (c.multicast userInput).buffer = some (c.cleanMessage userInput) := by
  obtain ⟨b, hmsg⟩ := strstr_message c userInput
  rw [clearMessage, multicast, padX, List.append_assoc]
  exact frameBody_of_strstr (not_nul_message hl) hmsg _

/-- The receiver finds the same text whatever its buffer held. -/
theorem clearMessage_datagram (hf : c.Fits userInput) (hl : PromptLine userInput)
    (buffer : Text) :
    clearMessage (recvfrom buffer (c.datagram userInput)) = some (c.cleanMessage userInput) := by
  have hlen : (c.datagram userInput).length ≤ bufferSize := by
    have := hf.message
    rw [datagram_eq hl, List.length_append, List.length_replicate]
    omega
  obtain ⟨b, hmsg⟩ := strstr_message c userInput
  rw [clearMessage, recvfrom, List.take_of_length_le hlen, datagram_eq hl, List.append_assoc]
  exact frameBody_of_strstr (not_nul_message hl) hmsg _

theorem scanGroup_cleanMessage (hf : c.Fits userInput) (hb : ¬ Blank userInput) :
    ∃ w, scanGroup (c.cleanMessage userInput) =
      some ⟨0, c.selfId, (c.clkIndex : ℕ), getDepsStr c.dependency, w⟩ := by
  have hstr : ∃ w, scan [.str] (receivedLine userInput) = [.str w] := by
    have hne : (receivedLine userInput).dropWhile isSpace ≠ [] := by
      intro hnil
      exact hb (List.dropWhile_eq_nil_iff.mp hnil)
    have hhead := List.head_dropWhile_not isSpace hne
    obtain ⟨x, t, ht⟩ := List.exists_cons_of_ne_nil hne
    have hx : isSpace x = false := by simpa [ht] using hhead
    exact ⟨(x :: t).takeWhile (!isSpace ·), by simp [scan, ht, hx]⟩
  obtain ⟨w, hw⟩ := hstr
  refine ⟨w, ?_⟩
  simp only [scanGroup, cleanMessage,
    sscanf_groupHeader isInt_zero hf.selfId (isInt_clkIndex _), hw]

theorem scanGroup_of_blank (hf : c.Fits userInput) (hb : Blank userInput) :
    scanGroup (c.cleanMessage userInput) = none := by
  simp only [scanGroup, cleanMessage,
    sscanf_groupHeader isInt_zero hf.selfId (isInt_clkIndex _), scan_str_blank hb]

/-- A receiver appends the sender's id, clock index and vector. -/
theorem appendToHoldbackQueue_cleanMessage (hf : c.Fits userInput) (hb : ¬ Blank userInput)
    (stale : Clock) (head : List HoldBackQueue) :
    appendToHoldbackQueue stale head (c.cleanMessage userInput) =
      .ok (head ++ [c.node userInput]) := by
  obtain ⟨w, hw⟩ := scanGroup_cleanMessage hf hb
  simp only [appendToHoldbackQueue, hw, getDepsInt_getDepsStr (by decide) hf.isInt_dependency]
  rfl

/-- **What a datagram of the send path carries**: the fields of its sender, unless
the line is blank. -/
theorem nodeOf_datagram (hf : c.Fits userInput) (hl : PromptLine userInput) :
    (Blank userInput ∧ nodeOf (c.datagram userInput) = none) ∨
      (¬ Blank userInput ∧ nodeOf (c.datagram userInput) = some (c.node userInput)) := by
  by_cases hb : Blank userInput
  · refine Or.inl ⟨hb, ?_⟩
    simp only [nodeOf, clearMessage_datagram hf hl, appendToHoldbackQueue, scanGroup_of_blank hf hb]
  · refine Or.inr ⟨hb, ?_⟩
    simp only [nodeOf, clearMessage_datagram hf hl, appendToHoldbackQueue_cleanMessage hf hb,
      List.nil_append]

/-- Receiving such a datagram depends on nothing but its node. -/
theorem handleGroupReceive_datagram (hf : c.Fits userInput) (hl : PromptLine userInput)
    (stale : Clock) (buffer : Text) (head : List HoldBackQueue) (delivered : Clock) :
    handleGroupReceive stale buffer (.datagram (c.datagram userInput)) head delivered =
      receiveNode (nodeOf (c.datagram userInput)) head delivered := by
  rcases nodeOf_datagram hf hl with ⟨hb, hnode⟩ | ⟨hb, hnode⟩
  · rw [hnode]
    apply handleGroupReceive_of_rejected
    simp [Rejected, acceptedFields, clearMessage_datagram hf hl, scanGroup_of_blank hf hb]
  · obtain ⟨w, hw⟩ := scanGroup_cleanMessage hf hb
    simp only [handleGroupReceive, clearMessage_datagram hf hl,
      appendToHoldbackQueue_cleanMessage hf hb, hnode, receiveNode]
    change deliverMessages (head ++ [c.node userInput]) delivered (c.cleanMessage userInput) = _
    cases head <;> simp only [deliverMessages, hw, List.nil_append, List.cons_append]

end Client
end ChatRing
