import ChatRing.Client.Dependencies
import ChatRing.Client.RoundTrip
import ChatRing.Lib.Lines
import ChatRing.Server.Framing

/-!
# The session of a client

The loop of the client's `main`.  A pass serves the group's socket, the connection to the
server and the keyboard, in this order and each at most once, so that the loop is a sequence
of these three events.  In mode 0 a typed line goes to the server, in mode 1 to the group; the
lines `1` and `0` change the mode, and an empty line ends the session.

The prompt reads with `fgets` into 129 bytes.  A longer line is read in pieces, each of which
`main` takes for a line of its own.

## Main definitions

* `Session.step` — an event of the loop.
* `entered` — the lines that a user enters, with their modes, read off the whole input.

## Main results

* `Session.Follows.step` — what is sent follows what is entered.
* `Session.typed_line` — what becomes of a line of any length.
-/

namespace ChatRing
open CText

/-- `sizeof(userInput)` -/
def userInputSize : ℕ := bufferSize - 127

/-- `fgets(userInput, size, stdin)`: NULL at the end of the input, and otherwise what is
stored and what is left to read. -/
def fgets (size : ℕ) (stdin : Text) : Option (Text × Text) :=
  if stdin = [] then none else some (Lines.readUpTo '\n' (size - 1) stdin)

/-- The global `mode`, 0 or 1. -/
inductive Mode
  | unicast
  | multicast
  deriving DecidableEq, Repr

namespace Mode

def other : Mode → Mode
  | unicast => multicast
  | multicast => unicast

/-- The character that leaves the mode. -/
def command : Mode → Char
  | unicast => '1'
  | multicast => '0'

end Mode

/-- What `main` makes of a string that was read. -/
inductive Entry
  | quit
  | switch
  | line (userInput : Text)
  deriving DecidableEq, Repr

/-- `strlen(userInput) <= 1` ends the loop; the command of the mode, alone before its
newline, changes the mode. -/
def Mode.entry (mode : Mode) (userInput : Text) : Entry :=
  if userInput.length ≤ 1 then .quit
  else if userInput.head? = some mode.command ∧ userInput.length = 2 then .switch
  else .line userInput

/-- A line that was handed to `send` or `group_multicast`, whose results are ignored; in which
mode, and its bytes. -/
structure Said where
  mode : Mode
  userInput : Text
  sent : Sent

/-- Whether the loop goes on, or which `break` it left by. -/
inductive Status
  | running
  | quit
  | closed
  deriving DecidableEq, Repr

/-- One client in its loop: its globals, what is left of its input, what it sent, and the
texts of the server that it printed. -/
structure Session where
  client : Client
  mode : Mode
  stdin : Text
  status : Status
  said : List Said
  screen : List (Option Text)

/-- A descriptor that `select` found ready. -/
inductive ClientEvent
  | keyboard
  /-- `recv` on the connection to the server; no bytes when it failed or was closed. -/
  | fromServer (received : Text)
  | fromGroup (stale : Clock) (received : Received)

def ClientEvent.isKeyboard : ClientEvent → Bool
  | .keyboard => true
  | .fromServer _ => false
  | .fromGroup _ _ => false

instance (c : Client) : Decidable c.StoresDeps := inferInstanceAs (Decidable (_ = true))

namespace Session

/-- The mode-0 branch, for a line. -/
def unicast (s : Session) (userInput : Text) : Except Fault Session :=
  let message := ChatRing.unicast s.client.selfId userInput
  if message.length < bufferSize then
    .ok { s with
      client := { s.client with buffer := padX message }
      said := s.said ++ [⟨.unicast, userInput, ⟨cstr (padX message), s.client.log⟩⟩] }
  else .error .outOfBounds

/-- The mode-1 branch, for a line. -/
def multicast (s : Session) (userInput : Text) : Except Fault Session :=
  if s.client.Fits userInput ∧ s.client.StoresDeps then
    .ok { s with
      client := s.client.multicast userInput
      said := s.said ++ [⟨.multicast, userInput, ⟨s.client.datagram userInput, s.client.log⟩⟩] }
  else .error .outOfBounds

/-- The branch of the current mode. -/
def say (s : Session) (userInput : Text) : Except Fault Session :=
  match s.mode with
  | .unicast => s.unicast userInput
  | .multicast => s.multicast userInput

/-- `FD_ISSET(0, &reads)` -/
def keyboard (s : Session) : Except Fault Session :=
  match fgets userInputSize s.stdin with
  | none => .ok { s with status := .quit }
  | some (userInput, stdin) =>
      match s.mode.entry (cstr userInput) with
      | .quit => .ok { s with stdin := stdin, status := .quit }
      | .switch => .ok { s with stdin := stdin, mode := s.mode.other }
      | .line userInput => { s with stdin := stdin }.say userInput

/-- `FD_ISSET(socket_peer, &reads)`.  The text is printed with `strlen(Buffer)`, which needs
the NUL. -/
def fromServer (s : Session) (received : Text) : Except Fault Session :=
  let buffer := padZero (received.take bufferSize)
  let s := { s with client := { s.client with buffer := buffer } }
  if received = [] then .ok { s with status := .closed }
  else if '\x00' ∈ buffer then .ok { s with screen := s.screen ++ [clearMessage buffer] }
  else .error .outOfBounds

/-- `FD_ISSET(group_socket, &reads)` -/
def fromGroup (s : Session) (stale : Clock) (received : Received) : Except Fault Session := do
  let client ← s.client.receive stale received
  return { s with client := client }

def handle (s : Session) : ClientEvent → Except Fault Session
  | .keyboard => s.keyboard
  | .fromServer received => s.fromServer received
  | .fromGroup stale received => s.fromGroup stale received

def step (s : Session) (e : ClientEvent) : Option Session :=
  if s.status = .running then (s.handle e).toOption else none

/-- The loop begins: nothing is sent or printed, and `Buffer` holds the reply to
`GET_INDEX`. -/
def start (selfId : ℤ) (clkIndex : Fin maxGroupSize) (buffer stdin : Text) : Session where
  client := ⟨selfId, clkIndex, 0, fun _ => 0, [], buffer, []⟩
  mode := .unicast
  stdin := stdin
  status := .running
  said := []
  screen := []

/-- The lines that were sent, with their modes. -/
def transcript (s : Session) : List (Mode × Text) := s.said.map fun x => (x.mode, x.userInput)

/-- What was sent in a mode. -/
def sent (s : Session) (mode : Mode) : List Sent :=
  (s.said.filter fun x => x.mode = mode).map Said.sent

end Session

/-! ## Reading the input -/

theorem fgets_eq_some {size : ℕ} {stdin userInput rest : Text}
    (h : fgets size stdin = some (userInput, rest)) :
    stdin ≠ [] ∧ Lines.readUpTo '\n' (size - 1) stdin = (userInput, rest) := by
  rw [fgets] at h
  split at h
  · cases h
  · rename_i hne
    exact ⟨hne, Option.some.inj h⟩

theorem length_of_fgets {stdin userInput rest : Text}
    (h : fgets userInputSize stdin = some (userInput, rest)) : rest.length < stdin.length := by
  obtain ⟨hne, hread⟩ := fgets_eq_some h
  have hlt := Lines.length_rest_lt '\n' (by decide : 0 < userInputSize - 1) hne
  rwa [hread] at hlt

/-- The lines that a user enters until the session ends, with the mode of each. -/
def entered (mode : Mode) (stdin : Text) : List (Mode × Text) :=
  match _h : fgets userInputSize stdin with
  | none => []
  | some (userInput, rest) =>
      match mode.entry (cstr userInput) with
      | .quit => []
      | .switch => entered mode.other rest
      | .line userInput => (mode, userInput) :: entered mode rest
termination_by stdin.length
decreasing_by
  · exact length_of_fgets _h
  · exact length_of_fgets _h

/-- The lines entered in a mode. -/
def linesOf (mode : Mode) (l : List (Mode × Text)) : List Text :=
  (l.filter fun x => x.1 = mode).map Prod.snd

theorem entered_of_none {mode : Mode} {stdin : Text} (h : fgets userInputSize stdin = none) :
    entered mode stdin = [] := by
  rw [entered]
  split
  · rfl
  · rename_i hsome
    rw [h] at hsome
    cases hsome

/-- The next entry, and the rest. -/
theorem entered_of_some {mode : Mode} {stdin userInput rest : Text}
    (h : fgets userInputSize stdin = some (userInput, rest)) :
    entered mode stdin =
      match mode.entry (cstr userInput) with
      | .quit => []
      | .switch => entered mode.other rest
      | .line userInput => (mode, userInput) :: entered mode rest := by
  rw [entered]
  split
  · rename_i hnone
    rw [h] at hnone
    cases hnone
  · rename_i hsome
    rw [h] at hsome
    cases hsome
    rfl

/-- A line that was read is one that the prompt accepts, and `fgets` read it. -/
structure ReadLine (mode : Mode) (userInput : Text) : Prop where
  not_nul : '\x00' ∉ userInput
  fgets : '\n' ∉ userInput.dropLast
  length_ge : 2 ≤ userInput.length
  length_le : userInput.length ≤ bufferSize - 128
  not_command : ¬ (userInput.head? = some mode.command ∧ userInput.length = 2)

theorem Mode.entry_eq_line {mode : Mode} {userInput line : Text}
    (h : mode.entry userInput = .line line) :
    line = userInput ∧ 2 ≤ userInput.length ∧
      ¬ (userInput.head? = some mode.command ∧ userInput.length = 2) := by
  rw [Mode.entry] at h
  split at h
  · cases h
  · rename_i hlen
    split at h
    · cases h
    · rename_i hcommand
      exact ⟨(Entry.line.inj h).symm, by omega, hcommand⟩

/-- What is before a NUL is the beginning. -/
theorem prefix_cstr (s : Text) : cstr s <+: s := List.takeWhile_prefix _

theorem not_mem_dropLast_of_prefix {s t : Text} (h : s <+: t) (ht : '\n' ∉ t.dropLast) :
    '\n' ∉ s.dropLast := by
  obtain ⟨u, rfl⟩ := h
  rcases List.eq_nil_or_concat u with rfl | ⟨u, c, rfl⟩
  · simpa using ht
  · intro hmem
    apply ht
    rw [List.concat_eq_append, ← List.append_assoc, List.dropLast_concat]
    exact List.mem_append_left _ (List.dropLast_subset s hmem)

theorem readLine_of_fgets {mode : Mode} {stdin userInput rest line : Text}
    (h : fgets userInputSize stdin = some (userInput, rest))
    (hline : mode.entry (cstr userInput) = .line line) : ReadLine mode line := by
  obtain ⟨rfl, hlen, hcommand⟩ := Mode.entry_eq_line hline
  obtain ⟨-, hread⟩ := fgets_eq_some h
  have hfgets := Lines.not_mem_dropLast_readUpTo '\n' (userInputSize - 1) stdin
  have hle := Lines.length_readUpTo_le '\n' (userInputSize - 1) stdin
  rw [hread] at hfgets hle
  refine ⟨nul_not_mem_cstr _, not_mem_dropLast_of_prefix (prefix_cstr _) hfgets, hlen, ?_,
    hcommand⟩
  exact (prefix_cstr userInput).length_le.trans hle

theorem ReadLine.promptLine {userInput : Text} (h : ReadLine .multicast userInput) :
    PromptLine userInput := by
  refine ⟨h.not_nul, h.length_ge, h.length_le, ?_⟩
  rintro rfl
  exact h.not_command (by decide)

/-- The bytes of a line are those that its mode prints, for the ID and the index. -/
def Said.Printed (x : Said) (selfId : ℤ) (clkIndex : Fin maxGroupSize) : Prop :=
  match x.mode with
  | .unicast => x.sent.datagram = (Sending.unicast selfId x.userInput).bytes
  | .multicast => ∃ c : Client, c.selfId = selfId ∧ c.clkIndex = clkIndex ∧
      c.Fits x.userInput ∧ x.sent.datagram = c.datagram x.userInput

namespace Session

/-! ## What an event does -/

/-- What an event of the loop does to a session. -/
inductive Moves (s : Session) : ClientEvent → Session → Prop
  | eof (hread : fgets userInputSize s.stdin = none) :
      Moves s .keyboard { s with status := .quit }
  | quit (userInput stdin : Text) (hread : fgets userInputSize s.stdin = some (userInput, stdin))
      (hentry : s.mode.entry (cstr userInput) = .quit) :
      Moves s .keyboard { s with stdin := stdin, status := .quit }
  | switch (userInput stdin : Text)
      (hread : fgets userInputSize s.stdin = some (userInput, stdin))
      (hentry : s.mode.entry (cstr userInput) = .switch) :
      Moves s .keyboard { s with stdin := stdin, mode := s.mode.other }
  | unicast (userInput stdin line : Text)
      (hread : fgets userInputSize s.stdin = some (userInput, stdin))
      (hentry : s.mode.entry (cstr userInput) = .line line) (hmode : s.mode = .unicast)
      (buffer : Text) : Moves s .keyboard { s with
        client := { s.client with buffer := buffer }
        stdin := stdin
        said := s.said ++ [⟨s.mode, line,
          ⟨(Sending.unicast s.client.selfId line).bytes, s.client.log⟩⟩] }
  | multicast (userInput stdin line : Text)
      (hread : fgets userInputSize s.stdin = some (userInput, stdin))
      (hentry : s.mode.entry (cstr userInput) = .line line) (hmode : s.mode = .multicast)
      (hfits : s.client.Fits line) : Moves s .keyboard { s with
        client := s.client.multicast line
        stdin := stdin
        said := s.said ++ [⟨s.mode, line, ⟨s.client.datagram line, s.client.log⟩⟩] }
  | closed (buffer : Text) : Moves s (.fromServer []) { s with
      client := { s.client with buffer := buffer }
      status := .closed }
  | heard (received buffer : Text) (clean : Option Text) : Moves s (.fromServer received) { s with
      client := { s.client with buffer := buffer }
      screen := s.screen ++ [clean] }
  | received (stale : Clock) (received : Received) (c : Client)
      (hreceive : s.client.receive stale received = .ok c) :
      Moves s (.fromGroup stale received) { s with client := c }

variable {s s' : Session} {e : ClientEvent}

theorem moves_of_keyboard (h : s.keyboard = .ok s') : s.Moves .keyboard s' := by
  rw [keyboard] at h
  split at h
  · rename_i hread
    cases h
    exact .eof hread
  · rename_i userInput stdin hread
    split at h
    · rename_i hentry
      cases h
      exact .quit userInput stdin hread hentry
    · rename_i hentry
      cases h
      exact .switch userInput stdin hread hentry
    · rename_i line hentry
      rw [say] at h
      cases hmode : s.mode with
      | unicast =>
          simp only [hmode, Session.unicast] at h
          split at h
          · cases h
            rw [← hmode]
            exact .unicast userInput stdin line hread hentry hmode _
          · cases h
      | multicast =>
          simp only [hmode, Session.multicast] at h
          split at h
          · rename_i hguard
            cases h
            rw [← hmode]
            exact .multicast userInput stdin line hread hentry hmode hguard.1
          · cases h

theorem moves_of_fromServer {received : Text} (h : s.fromServer received = .ok s') :
    s.Moves (.fromServer received) s' := by
  simp only [fromServer] at h
  split at h
  · rename_i hnil
    subst hnil
    cases h
    exact .closed _
  · split at h
    · cases h
      exact .heard received _ _
    · cases h

/-- **What an event does.** -/
theorem moves_of_step (h : s.step e = some s') : s.status = .running ∧ s.Moves e s' := by
  rw [step] at h
  split at h
  · rename_i hrunning
    refine ⟨hrunning, ?_⟩
    have hhandle : s.handle e = .ok s' := by
      cases hres : s.handle e with
      | error f => simp [hres, Except.toOption] at h
      | ok t => simpa [hres, Except.toOption] using h
    cases e with
    | keyboard => exact moves_of_keyboard hhandle
    | fromServer received => exact moves_of_fromServer hhandle
    | fromGroup stale received =>
        obtain ⟨c, hc, heq⟩ := Except.bind_eq_ok.mp hhandle
        cases heq
        exact .received stale received c hc
  · cases h

/-! ## What the keyboard does -/

/-- The part of a session that its user determines: the mode, the rest of the input, the
lines sent, and whether the user has ended the session. -/
structure Typing where
  mode : Mode
  stdin : Text
  lines : List (Mode × Text)
  quit : Bool
  deriving DecidableEq

/-- The prompt reads once. -/
def Typing.next (x : Typing) : Typing :=
  match fgets userInputSize x.stdin with
  | none => { x with quit := true }
  | some (userInput, stdin) =>
      match x.mode.entry (cstr userInput) with
      | .quit => { x with stdin := stdin, quit := true }
      | .switch => { x with stdin := stdin, mode := x.mode.other }
      | .line userInput => { x with stdin := stdin, lines := x.lines ++ [(x.mode, userInput)] }

/-- The lines sent and those still to be sent. -/
def Typing.all (x : Typing) : List (Mode × Text) :=
  x.lines ++ if x.quit then [] else entered x.mode x.stdin

def typing (s : Session) : Typing := ⟨s.mode, s.stdin, s.transcript, s.status = .quit⟩

theorem Typing.all_next {x : Typing} (h : x.quit = false) : x.next.all = x.all := by
  rw [Typing.next]
  split
  · rename_i hread
    simp [Typing.all, h, entered_of_none hread]
  · rename_i hread
    split
    · rename_i hentry
      simp [Typing.all, h, entered_of_some hread, hentry]
    · rename_i hentry
      simp [Typing.all, h, entered_of_some hread, hentry]
    · rename_i hentry
      simp [Typing.all, h, entered_of_some hread, hentry]

/-- The receive path leaves the rest of the client alone. -/
theorem receive_eq_deliver {c c' : Client} {stale : Clock} {received : Received}
    (h : c.receive stale received = .ok c') : ∃ buffer d, c' = c.deliver buffer d := by
  obtain ⟨d, -, heq⟩ := Except.bind_eq_ok.mp h
  cases heq
  exact ⟨_, d, rfl⟩

/-- **What the user determines depends on the keyboard only.** -/
theorem typing_step (h : s.step e = some s') :
    s'.typing = if e.isKeyboard then s.typing.next else s.typing := by
  obtain ⟨hrunning, hmoves⟩ := moves_of_step h
  cases hmoves with
  | eof hread => simp [typing, ClientEvent.isKeyboard, Typing.next, hread, transcript]
  | quit userInput stdin hread hentry =>
      simp [typing, ClientEvent.isKeyboard, Typing.next, hread, hentry, transcript]
  | switch userInput stdin hread hentry =>
      simp [typing, ClientEvent.isKeyboard, Typing.next, hread, hentry, transcript]
  | unicast userInput stdin line hread hentry hmode buffer =>
      simp [typing, ClientEvent.isKeyboard, Typing.next, hread, hentry, transcript]
  | multicast userInput stdin line hread hentry hmode hfits =>
      simp [typing, ClientEvent.isKeyboard, Typing.next, hread, hentry, transcript]
  | closed buffer => simp [typing, ClientEvent.isKeyboard, hrunning, transcript]
  | heard received buffer clean => simp [typing, ClientEvent.isKeyboard, transcript]
  | received stale received c hreceive => simp [typing, ClientEvent.isKeyboard, transcript]

/-- What is added to the lines sent. -/
theorem said_step (h : s.step e = some s') :
    s'.said = s.said ∨ ∃ x, s'.said = s.said ++ [x] ∧ ReadLine x.mode x.userInput ∧
      x.Printed s.client.selfId s.client.clkIndex := by
  obtain ⟨hrunning, hmoves⟩ := moves_of_step h
  cases hmoves with
  | unicast userInput stdin line hread hentry hmode buffer =>
      refine Or.inr ⟨_, rfl, readLine_of_fgets hread hentry, ?_⟩
      simp only [Said.Printed, hmode]
  | multicast userInput stdin line hread hentry hmode hfits =>
      refine Or.inr ⟨_, rfl, readLine_of_fgets hread hentry, ?_⟩
      simp only [Said.Printed, hmode]
      exact ⟨s.client, rfl, rfl, hfits, rfl⟩
  | _ => exact Or.inl rfl

theorem identity_step (h : s.step e = some s') :
    s'.client.selfId = s.client.selfId ∧ s'.client.clkIndex = s.client.clkIndex := by
  obtain ⟨hrunning, hmoves⟩ := moves_of_step h
  cases hmoves with
  | received stale received c hreceive =>
      obtain ⟨buffer, d, rfl⟩ := receive_eq_deliver hreceive
      exact ⟨rfl, rfl⟩
  | _ => exact ⟨rfl, rfl⟩

/-! ## What is sent follows what is entered -/

/-- What a session has sent, of the lines that its user enters. -/
structure Follows (s : Session) (selfId : ℤ) (clkIndex : Fin maxGroupSize)
    (lines : List (Mode × Text)) : Prop where
  identity : s.client.selfId = selfId ∧ s.client.clkIndex = clkIndex
  printed : ∀ x ∈ s.said, x.Printed selfId clkIndex
  read : ∀ x ∈ s.said, ReadLine x.mode x.userInput
  all : s.typing.all = lines

variable {selfId : ℤ} {clkIndex : Fin maxGroupSize} {lines : List (Mode × Text)}

theorem follows_start (selfId : ℤ) (clkIndex : Fin maxGroupSize) (buffer stdin : Text) :
    (start selfId clkIndex buffer stdin).Follows selfId clkIndex (entered .unicast stdin) where
  identity := ⟨rfl, rfl⟩
  printed x hx := by cases hx
  read x hx := by cases hx
  all := rfl

/-- **Every event keeps what is sent in line with what is entered.** -/
theorem Follows.step (h : s.Follows selfId clkIndex lines) (hstep : s.step e = some s') :
    s'.Follows selfId clkIndex lines := by
  have hrunning := (moves_of_step hstep).1
  obtain ⟨hselfId, hclkIndex⟩ := identity_step hstep
  refine ⟨⟨hselfId.trans h.identity.1, hclkIndex.trans h.identity.2⟩, ?_, ?_, ?_⟩
  · intro x hx
    rcases said_step hstep with hsaid | ⟨y, hsaid, -, hprinted⟩
    · exact h.printed x (hsaid ▸ hx)
    · rw [hsaid, List.mem_append, List.mem_singleton] at hx
      rcases hx with hx | rfl
      · exact h.printed x hx
      · rwa [h.identity.1, h.identity.2] at hprinted
  · intro x hx
    rcases said_step hstep with hsaid | ⟨y, hsaid, hread, -⟩
    · exact h.read x (hsaid ▸ hx)
    · rw [hsaid, List.mem_append, List.mem_singleton] at hx
      rcases hx with hx | rfl
      · exact h.read x hx
      · exact hread
  · rw [typing_step hstep]
    split
    · rw [Typing.all_next (by simp [typing, hrunning]), h.all]
    · exact h.all

/-- **However a session goes, it sends the lines entered, in their order**, and all of them
when its user ended it. -/
theorem Follows.transcript (h : s.Follows selfId clkIndex lines) :
    s.transcript <+: lines ∧ (s.status = .quit → s.transcript = lines) := by
  rw [← h.all]
  constructor
  · exact List.prefix_append _ _
  · intro hquit
    simp [Typing.all, typing, hquit]

/-! ## A line of any length -/

/-- What the prompt makes of a line: its full pieces are sent, and then the rest of it, unless
that is empty or the command of the mode. -/
def Typing.after (x : Typing) (line rest : Text) : Typing :=
  let full := (Lines.fullPieces (userInputSize - 1) line).map fun piece => (x.mode, piece)
  let last := Lines.lastPiece (userInputSize - 1) line
  if last = [] then { x with stdin := rest, lines := x.lines ++ full, quit := true }
  else if last = [x.mode.command] then
    { x with stdin := rest, lines := x.lines ++ full, mode := x.mode.other }
  else { x with stdin := rest, lines := x.lines ++ full ++ [(x.mode, last ++ ['\n'])] }

/-- The three outcomes together. -/
theorem Typing.after_eq (x : Typing) (line rest : Text) : x.after line rest =
    { mode := if Lines.lastPiece 128 line = [x.mode.command] then x.mode.other else x.mode
      stdin := rest
      lines := x.lines ++ (Lines.fullPieces 128 line).map (Prod.mk x.mode) ++
        if 128 ∣ line.length ∨ Lines.lastPiece 128 line = [x.mode.command] then []
        else [(x.mode, Lines.lastPiece 128 line ++ ['\n'])]
      quit := x.quit || decide (128 ∣ line.length) } := by
  have hsize : userInputSize - 1 = 128 := rfl
  simp only [← Lines.lastPiece_eq_nil_iff, Typing.after, hsize]
  by_cases hnil : Lines.lastPiece 128 line = []
  · simp [hnil]
  · by_cases hcommand : Lines.lastPiece 128 line = [x.mode.command]
    · simp [hcommand]
    · simp [hnil, hcommand]

variable {x : Typing} {line rest : Text}

theorem fgets_of_le (hline : '\n' ∉ line) (hlen : userInputSize - 1 ≤ line.length) :
    fgets userInputSize (line ++ '\n' :: rest) =
      some (line.take (userInputSize - 1), line.drop (userInputSize - 1) ++ '\n' :: rest) := by
  have hsplit : line ++ '\n' :: rest = line.take (userInputSize - 1) ++
      (line.drop (userInputSize - 1) ++ '\n' :: rest) := by
    rw [← List.append_assoc, List.take_append_drop]
  have hpiece : '\n' ∉ line.take (userInputSize - 1) := fun h => hline (List.mem_of_mem_take h)
  have hfull := Lines.readUpTo_full hpiece (line.drop (userInputSize - 1) ++ '\n' :: rest)
  rw [← hsplit, List.length_take_of_le hlen] at hfull
  rw [fgets, if_neg (by simp), hfull]

theorem fgets_of_lt (hline : '\n' ∉ line) (hlen : line.length < userInputSize - 1) :
    fgets userInputSize (line ++ '\n' :: rest) = some (line ++ ['\n'], rest) := by
  rw [fgets, if_neg (by simp), Lines.readUpTo_line hline hlen]

/-- A full piece is too long for a command. -/
theorem next_of_le (hline : '\n' ∉ line) (hnul : '\x00' ∉ line)
    (hlen : userInputSize - 1 ≤ line.length) (hstdin : x.stdin = line ++ '\n' :: rest) :
    x.next = { x with
      stdin := line.drop (userInputSize - 1) ++ '\n' :: rest
      lines := x.lines ++ [(x.mode, line.take (userInputSize - 1))] } := by
  have hpiece : (line.take (userInputSize - 1)).length = 128 := List.length_take_of_le hlen
  have hentry : x.mode.entry (cstr (line.take (userInputSize - 1))) =
      .line (line.take (userInputSize - 1)) := by
    rw [cstr_eq_self fun h => hnul (List.mem_of_mem_take h), Mode.entry, if_neg (by omega),
      if_neg (by omega)]
  rw [Typing.next, hstdin, fgets_of_le hline hlen]
  simp only [hentry]

/-- The end of a line is read with its newline. -/
theorem next_of_lt (hline : '\n' ∉ line) (hnul : '\x00' ∉ line)
    (hlen : line.length < userInputSize - 1) (hstdin : x.stdin = line ++ '\n' :: rest) :
    x.next = x.after line rest := by
  have hcstr : cstr (line ++ ['\n']) = line ++ ['\n'] := cstr_eq_self (by simp [hnul])
  rw [Typing.next, hstdin, fgets_of_lt hline hlen, Typing.after, Lines.fullPieces_of_lt hlen,
    Lines.lastPiece_of_lt hlen]
  simp only [hcstr, Mode.entry, List.length_append, List.length_singleton]
  cases line with
  | nil => simp
  | cons c line =>
      cases line with
      | nil => by_cases hc : c = x.mode.command <;> simp [hc]
      | cons d line => simp

/-- The prompt reads a line to its end. -/
theorem iterate_next (hline : '\n' ∉ line) (hnul : '\x00' ∉ line)
    (hstdin : x.stdin = line ++ '\n' :: rest) :
    Typing.next^[line.length / (userInputSize - 1) + 1] x = x.after line rest := by
  induction hlen : line.length using Nat.strong_induction_on generalizing line x with
  | _ k ih =>
      have hpos : 0 < userInputSize - 1 := by decide
      by_cases h : line.length < userInputSize - 1
      · rw [← hlen, Nat.div_eq_of_lt h]
        exact next_of_lt hline hnul h hstdin
      · have hle : userInputSize - 1 ≤ line.length := by omega
        have hrest := ih (line.drop (userInputSize - 1)).length (by rw [List.length_drop]; omega)
          (x := x.next) (fun hmem => hline (List.mem_of_mem_drop hmem))
          (fun hmem => hnul (List.mem_of_mem_drop hmem))
          (by rw [next_of_le hline hnul hle hstdin]) rfl
        rw [← hlen, Lines.div_length_drop hpos hle, Function.iterate_succ_apply, hrest,
          next_of_le hline hnul hle hstdin]
        simp only [Typing.after, Lines.fullPieces_of_le hpos hle, Lines.lastPiece_of_le hpos hle,
          List.map_cons, List.append_assoc, List.singleton_append]

/-- How often the keyboard was read in a run. -/
def readings (h : List (Session × ClientEvent)) : ℕ := h.countP fun p => p.2.isKeyboard

theorem typing_run {h : List (Session × ClientEvent)} {t : Session} (run : Run step s h t) :
    t.typing = Typing.next^[readings h] s.typing := by
  induction run with
  | nil => rfl
  | @snoc h t u e run hstep ih =>
      rw [typing_step hstep, readings, List.countP_append, List.countP_singleton, ih]
      split
      · rw [Function.iterate_succ_apply']
        rfl
      · rfl

/-- The pieces of a line, as they are sent, are the line. -/
theorem flatMap_pieces (mode : Mode) (line : Text) :
    ((Lines.fullPieces 128 line).map (Prod.mk mode) ++
      [(mode, Lines.lastPiece 128 line ++ ['\n'])]).flatMap Prod.snd = line ++ ['\n'] := by
  have hall := Lines.flatten_fullPieces (by decide : 0 < 128) line
  have hfull : ((Lines.fullPieces 128 line).map (Prod.mk mode)).flatMap Prod.snd =
      (Lines.fullPieces 128 line).flatten := by
    rw [List.flatMap_map]
    exact List.flatMap_id
  rw [List.flatMap_append, hfull, List.flatMap_singleton, ← List.append_assoc, hall]

/-- **What becomes of a typed line**, whatever else arrives while it is read.  All of it is
sent in the mode it was typed in, in pieces of 128 characters, but for a last piece that is
the command of the mode; and the session ends exactly when 128 divides the length of the
line.  Otherwise nothing of the line is lost. -/
theorem typed_line {h : List (Session × ClientEvent)} {t : Session} (run : Run step s h t)
    (hstdin : s.stdin = line ++ '\n' :: rest) (hline : '\n' ∉ line) (hnul : '\x00' ∉ line)
    (hrunning : s.status = .running) (hreadings : readings h = line.length / 128 + 1) :
    t.stdin = rest ∧ (t.status = .quit ↔ 128 ∣ line.length) ∧
      t.mode = (if Lines.lastPiece 128 line = [s.mode.command] then s.mode.other else s.mode) ∧
      t.transcript = s.transcript ++ (Lines.fullPieces 128 line).map (Prod.mk s.mode) ++
        (if 128 ∣ line.length ∨ Lines.lastPiece 128 line = [s.mode.command] then []
          else [(s.mode, Lines.lastPiece 128 line ++ ['\n'])]) ∧
      (¬ 128 ∣ line.length → Lines.lastPiece 128 line ≠ [s.mode.command] →
        (t.transcript.drop s.transcript.length).flatMap Prod.snd = line ++ ['\n']) := by
  have htyping : t.typing = s.typing.after line rest := by
    rw [typing_run run, hreadings]
    exact iterate_next hline hnul hstdin
  rw [Typing.after_eq] at htyping
  have hquit : decide (t.status = .quit) =
      (decide (s.status = .quit) || decide (128 ∣ line.length)) := congrArg Typing.quit htyping
  have hsent : t.transcript = s.transcript ++
      (Lines.fullPieces 128 line).map (Prod.mk s.mode) ++
        if 128 ∣ line.length ∨ Lines.lastPiece 128 line = [s.mode.command] then []
        else [(s.mode, Lines.lastPiece 128 line ++ ['\n'])] := congrArg Typing.lines htyping
  refine ⟨congrArg Typing.stdin htyping, by simpa [hrunning] using hquit,
    congrArg Typing.mode htyping, hsent, fun hdvd hcommand => ?_⟩
  rw [hsent, if_neg (not_or.mpr ⟨hdvd, hcommand⟩), List.append_assoc, List.drop_left,
    flatMap_pieces]

/-- As long as the array that the prompt reads into, without its NUL. -/
private def longLine : Text := List.replicate 128 'a'

private def typist : Session := start 100 0 [] (longLine ++ '\n' :: text "hi\n")

private def bothReadings : List ClientEvent := [.keyboard, .keyboard]

private def typed : Session := (exec step typist bothReadings).get (by decide +kernel)

/-- The line is sent, and its newline alone is read as the empty line. -/
theorem typed_line_of_128 :
    typed.status = .quit ∧ typed.transcript = [(.unicast, longLine)] := by
  have run : Run step typist (trace step typist bothReadings) typed :=
    Run.of_exec (Option.some_get _).symm
  have hline : '\n' ∉ longLine ∧ '\x00' ∉ longLine := by decide
  obtain ⟨-, hquit, -, htranscript, -⟩ :=
    typed_line run rfl hline.1 hline.2 rfl (by decide +kernel)
  exact ⟨hquit.mpr (by simp [longLine]), htranscript.trans (by decide +kernel)⟩

end Session
end ChatRing
