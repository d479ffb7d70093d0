import ChatRing.Lib.Framing
import ChatRing.Server.Socket

/-!
# Messages and `recv` results

What the program writes on a connection that `handle_socket_change` reads: 256 bytes for
every message, but a client's line of text goes out as `strlen(Buffer)`, that is 255,
bytes.  The reader calls `recv` once per call, on a buffer filled with NULs, and keeps
nothing for the next call.

## Main results

* `framing_iff` — the bodies dispatched are those sent if and only if every message
  begins a `recv` result that reaches through its empty line.
-/

namespace ChatRing
open CText

/-- The request that follows the connection of a client. -/
def getIndex (selfId : ℤ) : Text :=
  sprintf "CLIENT:%d:%d:GET_INDEX\n\n" [.int selfId, .int 0]

/-- A typed line of a client in mode 0. -/
def unicast (selfId : ℤ) (userInput : Text) : Text :=
  sprintf "CLIENT:%d:%s\n\n" [.int selfId, .str userInput]

/-- Neither a newline nor a NUL is in the text. -/
def Plain (s : Text) : Prop := '\n' ∉ s ∧ '\x00' ∉ s

instance (s : Text) : Decidable (Plain s) := inferInstanceAs (Decidable (_ ∧ _))

@[simp] theorem plain_append {s t : Text} : Plain (s ++ t) ↔ Plain s ∧ Plain t := by
  simp only [Plain, List.mem_append]
  tauto

@[simp] theorem plain_intText (n : ℤ) : Plain (intText n) :=
  ⟨not_mem_intText n (by decide) (by decide), not_nul_of_mem_intText⟩

@[simp] theorem plain_nil : Plain [] := by decide

@[simp] theorem plain_cons {c : Char} {s : Text} :
    Plain (c :: s) ↔ (c ≠ '\n' ∧ c ≠ '\x00') ∧ Plain s := by
  simp only [Plain, List.mem_cons, not_or, ne_comm]
  tauto

theorem getIndex_eq (selfId : ℤ) :
    getIndex selfId = text "CLIENT:" ++ intText selfId ++ text ":0:GET_INDEX" ++ emptyLine := by
  have hformat : format "CLIENT:%d:%d:GET_INDEX\n\n" = lits (text "CLIENT:") ++
      (.int :: (lits [':'] ++ (.int :: (lits (text ":GET_INDEX") ++ lits emptyLine)))) := by
    decide +kernel
  have hzero : text ":0:GET_INDEX" = [':'] ++ (intText 0 ++ text ":GET_INDEX") := by decide +kernel
  simp only [getIndex, sprintf, hformat, print_lits, print_lits_nil, print_int, hzero,
    List.append_assoc]

theorem unicast_eq (selfId : ℤ) (userInput : Text) :
    unicast selfId userInput =
      text "CLIENT:" ++ intText selfId ++ [':'] ++ userInput ++ emptyLine := by
  have hformat : format "CLIENT:%d:%s\n\n" = lits (text "CLIENT:") ++
      (.int :: (lits [':'] ++ (.str :: lits emptyLine))) := by decide +kernel
  simp only [unicast, sprintf, hformat, print_lits, print_lits_nil, print_int, print_str,
    List.append_assoc]

/-- The text is one line, the empty line, and at most one more newline. -/
def Terminated (s : Text) : Prop :=
  ∃ line extra, s = line ++ emptyLine ++ extra ∧ (extra = [] ∨ extra = ['\n']) ∧
    Plain line ∧ line ≠ []

theorem terminated_append {line : Text} (h : Plain line) (hne : line ≠ []) :
    Terminated (line ++ emptyLine) :=
  ⟨line, [], (List.append_nil _).symm, Or.inl rfl, h, hne⟩

/-- The messages sent on connections that `handle_socket_change` reads. -/
inductive Sending
  | updateFromLeader (addr : Text) (id port : ℤ)
  | knowNewLeader (id : ℤ) (addr : Text) (port successorId : ℤ) (successorAddr : Text)
      (successorPort : ℤ)
  | electionVote (id : ℤ)
  | electionLeader (id : ℤ)
  | heartbeat (id : ℤ)
  | getIndex (selfId : ℤ)
  | unicast (selfId : ℤ) (userInput : Text)
  deriving DecidableEq, Repr

namespace Sending

/-- The printed message. -/
def text : Sending → Text
  | updateFromLeader addr id port => ChatRing.updateFromLeader addr id port
  | knowNewLeader id addr port successorId successorAddr successorPort =>
      ChatRing.knowNewLeader id addr port successorId successorAddr successorPort
  | electionVote id => ChatRing.electionVote id
  | electionLeader id => ChatRing.electionLeader id
  | heartbeat id => ChatRing.heartbeat id
  | getIndex selfId => ChatRing.getIndex selfId
  | unicast selfId userInput => ChatRing.unicast selfId userInput

/-- The bytes handed to `send`. -/
def bytes (m : Sending) : Text :=
  match m with
  | updateFromLeader .. | knowNewLeader .. | getIndex _ => padX m.text
  | electionVote _ | electionLeader _ | heartbeat _ => padZero m.text
  | unicast .. => cstr (padX m.text)

/-- The body of a message is its text before the empty line. -/
def body (m : Sending) : Text := (frameBody m.text).getD []

/-- The texts in a message are a line each; `fgets` leaves the newline at the end of a
typed line. -/
def Lines : Sending → Prop
  | updateFromLeader addr _ _ => Plain addr
  | knowNewLeader _ addr _ _ successorAddr _ => Plain addr ∧ Plain successorAddr
  | unicast _ userInput => Plain userInput.dropLast ∧ '\x00' ∉ userInput
  | electionVote _ | electionLeader _ | heartbeat _ | getIndex _ => True

instance : DecidablePred Lines
  | updateFromLeader .. => inferInstanceAs (Decidable (Plain _))
  | knowNewLeader .. => inferInstanceAs (Decidable (_ ∧ _))
  | unicast .. => inferInstanceAs (Decidable (_ ∧ _))
  | electionVote _ | electionLeader _ | heartbeat _ | getIndex _ =>
      inferInstanceAs (Decidable True)

/-- A message as the program builds it: it fits `message[BUFFER_SIZE]`. -/
structure Fits (m : Sending) : Prop where
  lines : m.Lines
  length : m.text.length < bufferSize

instance (m : Sending) : Decidable m.Fits :=
  decidable_of_iff (m.Lines ∧ m.text.length < bufferSize)
    ⟨fun ⟨h₁, h₂⟩ => ⟨h₁, h₂⟩, fun ⟨h₁, h₂⟩ => ⟨h₁, h₂⟩⟩

theorem terminated_text {m : Sending} (h : m.Lines) : Terminated m.text := by
  cases m with
  | updateFromLeader addr id port =>
      have hkey : Plain (CText.text "UPDATE_FROM_LEADER:") := by decide +kernel
      rw [text, updateFromLeader_eq]
      apply terminated_append
      · simpa [hkey, Lines] using h
      · simp
  | knowNewLeader id addr port successorId successorAddr successorPort =>
      have hkey : Plain (CText.text "KNOW_NEW_LEADER:") := by decide +kernel
      rw [text, knowNewLeader_eq]
      apply terminated_append
      · simpa [hkey, Lines] using h
      · simp
  | electionVote id =>
      have hkey : Plain (CText.text "ELECTION:VOTE:") := by decide +kernel
      rw [text, electionVote_eq]
      apply terminated_append
      · simp [hkey]
      · simp [intText_ne_nil]
  | electionLeader id =>
      have hkey : Plain (CText.text "ELECTION:LEADER:") := by decide +kernel
      rw [text, electionLeader_eq]
      apply terminated_append
      · simp [hkey]
      · simp [intText_ne_nil]
  | heartbeat id =>
      have hkey : Plain (CText.text "HEARTBEAT:") := by decide +kernel
      rw [text, heartbeat_eq]
      apply terminated_append
      · simp [hkey]
      · simp [intText_ne_nil]
  | getIndex selfId =>
      have hkey : Plain (CText.text "CLIENT:") := by decide +kernel
      have hrequest : Plain (CText.text ":0:GET_INDEX") := by decide +kernel
      rw [text, getIndex_eq]
      apply terminated_append
      · simp [hkey, hrequest]
      · simp [intText_ne_nil]
  | unicast selfId userInput =>
      have hkey : Plain (CText.text "CLIENT:") := by decide +kernel
      obtain ⟨hline, hnul⟩ := h
      rw [text, unicast_eq]
      rcases List.eq_nil_or_concat userInput with rfl | ⟨l, c, rfl⟩
      · apply terminated_append
        · simp [hkey]
        · simp
      · rw [List.concat_eq_append] at hline hnul ⊢
        rw [List.dropLast_concat] at hline
        by_cases hc : c = '\n'
        · -- the newline that `fgets` kept moves the end of the message by one
          subst hc
          refine ⟨CText.text "CLIENT:" ++ intText selfId ++ [':'] ++ l, ['\n'], ?_, Or.inr rfl,
            ?_, by simp⟩
          · simp [emptyLine]
          · simp [hkey, hline]
        · apply terminated_append
          · have hc' : c ≠ '\x00' := by
              rintro rfl
              exact hnul (by simp)
            simp [hkey, hline, hc, hc']
          · simp

theorem body_eq {m : Sending} {line extra : Text} (h : m.text = line ++ emptyLine ++ extra)
    (hline : Plain line) : m.body = line := by
  rw [body, h, frameBody_append hline.2 (settled_of_not_mem hline.1), Option.getD_some]

/-- A message is followed by bytes that are not newlines. -/
theorem bytes_eq_text {m : Sending} (h : '\x00' ∉ m.text) :
    ∃ fill, m.bytes = m.text ++ fill ∧ '\n' ∉ fill := by
  have hx : '\n' ∉ List.replicate (bufferSize - 1 - m.text.length) 'x' ++ ['\x00'] := by
    simp [List.mem_replicate]
  have hzero : '\n' ∉ List.replicate (bufferSize - m.text.length) '\x00' := by
    simp [List.mem_replicate]
  cases m with
  | updateFromLeader addr id port => exact ⟨_, List.append_assoc _ _ _, hx⟩
  | knowNewLeader id addr port successorId successorAddr successorPort =>
      exact ⟨_, List.append_assoc _ _ _, hx⟩
  | electionVote id => exact ⟨_, rfl, hzero⟩
  | electionLeader id => exact ⟨_, rfl, hzero⟩
  | heartbeat id => exact ⟨_, rfl, hzero⟩
  | getIndex selfId => exact ⟨_, List.append_assoc _ _ _, hx⟩
  | unicast selfId userInput =>
      have hbytes : (unicast selfId userInput).bytes = (unicast selfId userInput).text ++
          cstr (List.replicate (bufferSize - 1 - (unicast selfId userInput).text.length) 'x' ++
            ['\x00']) := by
        rw [bytes, padX, List.append_assoc, cstr_append h]
      refine ⟨_, hbytes, ?_⟩
      intro hmem
      exact hx (List.takeWhile_subset _ hmem)

/-- What is sent for a message: a line, the empty line, and at most one newline more. -/
theorem bytes_eq {m : Sending} (h : m.Lines) :
    Plain m.body ∧ m.body ≠ [] ∧
      ∃ pad, m.bytes = m.body ++ emptyLine ++ pad ∧ pad.count '\n' ≤ 1 := by
  obtain ⟨line, extra, htext, hextra, hline, hne⟩ := terminated_text h
  rw [body_eq htext hline]
  refine ⟨hline, hne, ?_⟩
  have hnul : '\x00' ∉ m.text := by
    rw [htext]
    rcases hextra with rfl | rfl <;> simp [emptyLine, hline.2]
  obtain ⟨fill, hbytes, hfill⟩ := bytes_eq_text hnul
  refine ⟨extra ++ fill, by rw [hbytes, htext, List.append_assoc], ?_⟩
  rw [List.count_append, List.count_eq_zero_of_not_mem hfill]
  rcases hextra with rfl | rfl <;> simp

end Sending

/-! ## The receiver -/

theorem prefix_of_frameBody {b x : Text} (h : frameBody b = some x) : x ++ emptyLine <+: b := by
  rw [frameBody, Option.map_eq_some_iff] at h
  obtain ⟨⟨x', y⟩, hfind, rfl⟩ := h
  obtain ⟨hb, z, rfl⟩ := strstr_eq_some hfind
  have hx : x' ++ emptyLine <+: cstr b := ⟨z, by rw [hb, List.append_assoc]⟩
  exact hx.trans (List.takeWhile_prefix _)

/-- The first newline of a text ends its first line. -/
theorem firstLine_append {s : Text} (h : '\n' ∉ s) (t : Text) :
    (s ++ '\n' :: t).takeWhile (· ≠ '\n') = s := by
  have hs : ∀ c ∈ s, decide (c ≠ '\n') = true := by
    intro c hc
    exact decide_eq_true (ne_of_mem_of_not_mem hc h)
  rw [List.takeWhile_append_of_pos hs]
  simp

theorem firstLine_eq {s t : Text} (h : s <+: t) (hs : '\n' ∈ s) :
    t.takeWhile (· ≠ '\n') = s.takeWhile (· ≠ '\n') := by
  obtain ⟨u, v, rfl, hu⟩ := List.eq_append_cons_of_mem hs
  obtain ⟨w, rfl⟩ := h
  rw [List.append_assoc, List.cons_append, firstLine_append hu, firstLine_append hu]

theorem two_le_count_newline {s : Text} (h : emptyLine <:+: s) : 2 ≤ s.count '\n' :=
  h.sublist.count_le '\n'

/-- An empty line that a text ends in front of does not begin before it. -/
theorem infix_of_infix_append {a d : Text} (h : emptyLine <:+: a ++ d) (ha : ¬ emptyLine <:+: a)
    (hd : d.head? ≠ some '\n') : emptyLine <:+: d := by
  induction a with
  | nil => exact h
  | cons x a ih =>
      rw [List.infix_cons_iff, not_or] at ha
      rw [List.cons_append, List.infix_cons_iff] at h
      rcases h with hpre | hin
      · exfalso
        rw [emptyLine, List.cons_prefix_cons] at hpre
        obtain ⟨rfl, hpre⟩ := hpre
        cases a with
        | nil =>
            obtain ⟨t, rfl⟩ := hpre
            exact hd rfl
        | cons y a =>
            obtain ⟨rfl, -⟩ := List.cons_prefix_cons.mp hpre
            exact ha.1 ⟨a, rfl⟩
      · exact ih hin ha.2

/-- A block that begins with other text and a message yields that message only if the
other text holds the empty line of a message. -/
theorem eq_nil_of_frameBody {a body c : Text} (hbody : Plain body) (hne : body ≠ [])
    (ha : ¬ emptyLine <:+: a) (h : frameBody (a ++ (body ++ emptyLine) ++ c) = some body) :
    a = [] := by
  have hpre := prefix_of_frameBody h
  have hfirst : (a ++ (body ++ emptyLine) ++ c).takeWhile (· ≠ '\n') = body := by
    rw [firstLine_eq hpre (by simp [emptyLine])]
    exact firstLine_append hbody.1 ['\n']
  by_cases hmem : '\n' ∈ a
  · exfalso
    obtain ⟨u, v, rfl, hu⟩ := List.eq_append_cons_of_mem hmem
    simp only [List.append_assoc, List.cons_append, firstLine_append hu] at hfirst
    subst hfirst
    simp only [List.append_assoc, List.cons_append, List.prefix_append_right_inj, emptyLine,
      List.cons_prefix_cons, true_and] at hpre
    cases v with
    | nil =>
        obtain ⟨x, w, rfl⟩ := List.exists_cons_of_ne_nil hne
        obtain ⟨rfl, -⟩ := List.cons_prefix_cons.mp hpre
        exact hbody.1 (by simp)
    | cons y v =>
        obtain ⟨rfl, -⟩ := List.cons_prefix_cons.mp hpre
        exact ha ⟨u, v, by simp [emptyLine]⟩
  · have hsplit : a ++ (body ++ emptyLine) ++ c = (a ++ body) ++ '\n' :: ('\n' :: c) := by
      simp [emptyLine]
    rw [hsplit, firstLine_append (by simp [hmem, hbody.1])] at hfirst
    simpa using hfirst

/-- A message whose beginning is missing is not found. -/
theorem frameBody_ne_of_cut {body pad d r b : Text} (hbody : Plain body) (hne : body ≠ [])
    (hpad : pad.count '\n' ≤ 1) (hbytes : body ++ emptyLine ++ pad = d ++ r) (hd : d ≠ [])
    (hr : emptyLine <:+: r) (hb : r <+: b ∨ b <+: r) : frameBody b ≠ some body := by
  intro h
  have hpre := prefix_of_frameBody h
  have hrcount := two_le_count_newline hr
  have hrmem : '\n' ∈ r := List.count_pos_iff.mp (by omega)
  have hbfirst : b.takeWhile (· ≠ '\n') = body := by
    rw [firstLine_eq hpre (by simp [emptyLine])]
    exact firstLine_append hbody.1 ['\n']
  have hrfirst : r.takeWhile (· ≠ '\n') = body := by
    rw [← hbfirst]
    rcases hb with hb | hb
    · exact (firstLine_eq hb hrmem).symm
    · exact firstLine_eq hb (hpre.subset (by simp [emptyLine]))
  have hfirst : (body ++ emptyLine ++ pad).takeWhile (· ≠ '\n') = body := by
    simpa [emptyLine] using firstLine_append hbody.1 ('\n' :: pad)
  by_cases hmem : '\n' ∈ d
  · obtain ⟨w, z, rfl, hw⟩ := List.eq_append_cons_of_mem hmem
    rw [hbytes, List.append_assoc, List.cons_append, firstLine_append hw] at hfirst
    subst hfirst
    simp only [emptyLine, List.append_assoc, List.cons_append, List.append_cancel_left_eq,
      List.cons.injEq, true_and, List.nil_append] at hbytes
    cases z with
    | nil =>
        rw [List.nil_append] at hbytes
        rw [← hbytes] at hrfirst
        exact hne (by simpa using hrfirst.symm)
    | cons x z =>
        obtain ⟨rfl, htail⟩ := List.cons.inj hbytes
        have hcount : r.count '\n' ≤ pad.count '\n' := by
          rw [htail]
          exact (List.suffix_append z r).sublist.count_le '\n'
        omega
  · obtain ⟨u, v, rfl, hu⟩ := List.eq_append_cons_of_mem hrmem
    rw [firstLine_append hu] at hrfirst
    have hsplit : d ++ (u ++ '\n' :: v) = (d ++ u) ++ '\n' :: v := by simp
    rw [hbytes, hsplit, firstLine_append (by simp [hmem, hu]), hrfirst] at hfirst
    exact hd (by simpa using hfirst)

/-- The beginning of a message that holds an empty line reaches through the first. -/
theorem reaches_emptyLine {body pad d r : Text} (hbody : Plain body)
    (hbytes : body ++ emptyLine ++ pad = d ++ r) (hd : emptyLine <:+: d) :
    body ++ emptyLine <+: d := by
  have hpre : body ++ emptyLine <+: d ++ r := ⟨pad, hbytes⟩
  rcases List.prefix_or_prefix_of_prefix hpre (List.prefix_append d r) with h | h
  · exact h
  · have hsplit : body ++ emptyLine = (body ++ ['\n']) ++ ['\n'] := by simp [emptyLine]
    rw [hsplit, List.prefix_concat_iff] at h
    rcases h with rfl | h
    · rw [hsplit]
    · exfalso
      have hcount := two_le_count_newline (hd.trans h.isInfix)
      rw [List.count_append, List.count_eq_zero_of_not_mem hbody.1] at hcount
      simp at hcount

theorem head_ne_newline {body pad d r : Text} (hbody : Plain body) (hne : body ≠ [])
    (hbytes : body ++ emptyLine ++ pad = d ++ r) : d.head? ≠ some '\n' := by
  cases d with
  | nil => simp
  | cons y d =>
      obtain ⟨x, w, rfl⟩ := List.exists_cons_of_ne_nil hne
      obtain ⟨rfl, -⟩ := List.cons.inj hbytes
      have hx := (plain_cons.mp hbody).1.1
      simpa using hx

/-! ## The sequence of messages -/

/-- The messages that the program builds, and the reader of one `recv` result. -/
def framing : Framing {m : Sending // m.Fits} Char Text where
  bytes m := m.1.bytes
  head m := m.1.body ++ emptyLine
  body m := m.1.body
  extract := frameBody
  Marked b := emptyLine <:+: b
  not_marked_nil := by decide
  marked_mono h := h.trans (List.infix_append _ _ _)
  marked_of_extract h := (List.suffix_append _ _).isInfix.trans (prefix_of_frameBody h).isInfix
  marked_head m := (List.suffix_append _ _).isInfix
  head_prefix m := by
    obtain ⟨-, -, pad, hbytes, -⟩ := Sending.bytes_eq m.2.lines
    exact ⟨pad, hbytes.symm⟩
  marked_once := by
    intro m a b hab ha hb
    obtain ⟨hbody, -, pad, hbytes, hpad⟩ := Sending.bytes_eq m.2.lines
    have hcount := congrArg (List.count '\n') (hbytes.symm.trans hab)
    have hacount := two_le_count_newline ha
    have hbcount := two_le_count_newline hb
    simp only [List.count_append, List.count_eq_zero_of_not_mem hbody.1] at hcount
    have hempty : emptyLine.count '\n' = 2 := by decide
    omega
  head_of_marked := by
    intro m d r hd hmark
    obtain ⟨hbody, -, pad, hbytes, hpad⟩ := Sending.bytes_eq m.2.lines
    exact reaches_emptyLine hbody (hbytes.symm.trans hd) hmark
  marked_across := by
    intro m a d r hd hmark ha
    obtain ⟨hbody, hne, pad, hbytes, -⟩ := Sending.bytes_eq m.2.lines
    apply infix_of_infix_append hmark ha
    exact head_ne_newline hbody hne (hbytes.symm.trans hd)
  extract_head m c := by
    obtain ⟨hbody, -, -⟩ := Sending.bytes_eq m.2.lines
    exact frameBody_append hbody.2 (settled_of_not_mem hbody.1) c
  extract_late := by
    intro m a c ha h
    obtain ⟨hbody, hne, -⟩ := Sending.bytes_eq m.2.lines
    exact eq_nil_of_frameBody hbody hne ha h
  extract_cut := by
    intro m d r b hdr hd hr hb
    obtain ⟨hbody, hne, pad, hbytes, hpad⟩ := Sending.bytes_eq m.2.lines
    exact frameBody_ne_of_cut hbody hne hpad (hbytes.symm.trans hdr) hd hr hb

/-- The body that `handle_socket_change` dispatches for one `recv` result. -/
def receivedBody (received : Text) : Option Text := frameBody (received.take bufferSize)

/-- The bodies dispatched for successive `recv` results. -/
def dispatched (blocks : List Text) : List Text := blocks.filterMap receivedBody

/-- Successive calls dispatch just these bodies. -/
theorem foldlM_handleSocketChange {i : Socket} {calls : List (Env × Text)}
    (hcalls : ∀ c ∈ calls, c.2 ≠ []) (s : Server) :
    calls.foldlM (fun s c => handleSocketChange c.1 s i c.2) s =
      (calls.filterMap fun c => (receivedBody c.2).map (c.1, ·)).foldlM
        (fun s c => dispatch c.1 s i c.2) s := by
  induction calls generalizing s with
  | nil => rfl
  | cons c calls ih =>
      obtain ⟨hc, hcalls⟩ := List.forall_mem_cons.mp hcalls
      rw [List.foldlM_cons, handleSocketChange, if_neg hc]
      cases hbody : frameBody (c.2.take bufferSize) with
      | none =>
          rw [List.filterMap_cons_none (by rw [receivedBody, hbody]; rfl)]
          exact ih hcalls s
      | some read =>
          rw [List.filterMap_cons_some (by rw [receivedBody, hbody]; rfl), List.foldlM_cons]
          exact congrArg _ (funext fun t => ih hcalls t)

/-- Every message begins a `recv` result that reaches through its empty line. -/
def EachBegins (blocks : List Text) (ms : List Sending) : Prop :=
  ∀ us m vs, ms = us ++ m :: vs →
    ∃ cs b, cs ++ [b] <+: blocks ∧ cs.flatten = us.flatMap Sending.bytes ∧
      m.body ++ emptyLine <+: b

/-- **The bodies dispatched are the bodies sent if and only if** every message begins a
`recv` result that reaches through its empty line. -/
theorem framing_iff {ms : List Sending} (hms : ∀ m ∈ ms, m.Fits) {blocks : List Text}
    (hblocks : ∀ b ∈ blocks, 1 ≤ b.length ∧ b.length ≤ bufferSize)
    (hstream : blocks.flatten = ms.flatMap Sending.bytes) :
    dispatched blocks = ms.map Sending.body ↔ EachBegins blocks ms := by
  have hdispatched : dispatched blocks = framing.extracted blocks := by
    apply List.filterMap_congr
    intro b hb
    rw [receivedBody, List.take_of_length_le (hblocks b hb).2]
    rfl
  lift ms to List {m : Sending // m.Fits} using hms
  have hstream' : ∀ us : List {m : Sending // m.Fits},
      framing.stream us = (us.map Subtype.val).flatMap Sending.bytes := by
    intro us
    rw [List.flatMap_map]
    rfl
  rw [hdispatched, List.map_map]
  refine (framing.extracted_eq_iff_aligned (hstream.trans (hstream' ms).symm)).trans ?_
  constructor
  · intro haligned us m vs hsplit
    obtain ⟨us, mvs, rfl, rfl, hmvs⟩ := List.map_eq_append_iff.mp hsplit
    obtain ⟨m, vs, rfl, rfl, rfl⟩ := List.map_eq_cons_iff.mp hmvs
    rw [← hstream']
    exact haligned us m vs rfl
  · intro hbegins us m vs hsplit
    rw [hstream']
    apply hbegins (us.map Subtype.val) m.1 (vs.map Subtype.val)
    rw [hsplit, List.map_append, List.map_cons]

/-! ## Two lines read together -/

private def twoLines : List Sending := [.unicast 7 (text "9:hi\n"), .unicast 7 (text "9:there\n")]

private def twoLinesStream : Text := twoLines.flatMap Sending.bytes

/-- The two lines arrive as 256 and 254 bytes: the first byte of the second one is taken
for padding of the first, and the text dispatched for it is no message of the protocol. -/
theorem coalesced_line_loses_keyword :
    (∀ m ∈ twoLines, m.Fits) ∧
      [twoLinesStream.take 256, twoLinesStream.drop 256].flatten = twoLinesStream ∧
      (twoLinesStream.drop 256).length = 254 ∧
      twoLines.map Sending.body = [text "CLIENT:7:9:hi", text "CLIENT:7:9:there"] ∧
      dispatched [twoLinesStream.take 256, twoLinesStream.drop 256] =
        [text "CLIENT:7:9:hi", text "LIENT:7:9:there"] ∧
      dispatched [twoLinesStream.take 256, twoLinesStream.drop 256] ≠
        twoLines.map Sending.body := by
  decide +kernel

theorem framing_iff_line_by_line :
    dispatched (twoLines.map Sending.bytes) = twoLines.map Sending.body ↔
      EachBegins (twoLines.map Sending.bytes) twoLines :=
  framing_iff (by decide +kernel) (by decide +kernel) (by decide +kernel)

end ChatRing
