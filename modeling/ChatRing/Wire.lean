import ChatRing.Lib.CText

/-!
# Frames

Client and server exchange text in buffers of `BUFFER_SIZE` bytes.  A message
ends with an empty line; what follows it in the buffer is padding, `'x'` bytes or
NULs depending on the sender.  Every receiver looks for the first empty line and
keeps the text before it.

`Fault` names the ways a handler can leave the defined behaviour of C or the
process: the model returns it where the source reads through a NULL pointer,
subscripts an array out of bounds, or calls `exit`.
-/

namespace ChatRing
open CText

/-- How a handler can end other than by returning. -/
inductive Fault
  | nullDeref
  | outOfBounds
  | exit
  deriving DecidableEq, Repr

/-- `BUFFER_SIZE` -/
def bufferSize : ℕ := 256

/-- The empty line that ends a message. -/
def emptyLine : Text := ['\n', '\n']

/-- `memset(buf, 'x', BUFFER_SIZE-1); buf[BUFFER_SIZE-1] = '\0';
memcpy(buf, message, strlen(message))` -/
def padX (message : Text) : Text :=
  message ++ List.replicate (bufferSize - 1 - message.length) 'x' ++ ['\x00']

/-- `memset(buf, 0, BUFFER_SIZE); sprintf(buf, ...)` -/
def padZero (message : Text) : Text :=
  message ++ List.replicate (bufferSize - message.length) '\x00'

/-- `end = strstr(buf, "\n\n"); memcpy(read, buf, end - buf)`: the text before the
first empty line of the string in `buf`, or nothing when there is none. -/
def frameBody (buf : Text) : Option Text := (strstr emptyLine (cstr buf)).map Prod.fst

theorem length_padX {message : Text} (h : message.length < bufferSize) :
    (padX message).length = bufferSize := by
  simp only [padX, List.length_append, List.length_replicate, List.length_singleton]
  simp only [bufferSize] at h ⊢
  omega

theorem length_padZero {message : Text} (h : message.length ≤ bufferSize) :
    (padZero message).length = bufferSize := by
  simp only [padZero, List.length_append, List.length_replicate]
  omega

/-- The string seen in a buffer begins with its NUL-free beginning. -/
theorem cstr_append {s : Text} (h : '\x00' ∉ s) (t : Text) : cstr (s ++ t) = s ++ cstr t := by
  apply List.takeWhile_append_of_pos
  intro c hc
  exact decide_eq_true (ne_of_mem_of_not_mem hc h)

/-- The first empty line of the text decides the body, whatever follows it. -/
theorem frameBody_of_strstr {s a b : Text} (h₀ : '\x00' ∉ s)
    (h : strstr emptyLine s = some (a, b)) (t : Text) : frameBody (s ++ t) = some a := by
  simp only [frameBody, cstr_append h₀, strstr_append_right h, Option.map_some]

/-- A body that holds no empty line and does not end in a newline is cut off
exactly at the empty line that was appended to it. -/
theorem frameBody_append {s : Text} (h₀ : '\x00' ∉ s) (hs : Settled '\n' s) (t : Text) :
    frameBody (s ++ emptyLine ++ t) = some s := by
  have hnul : '\x00' ∉ s ++ emptyLine := by
    rw [List.mem_append]
    rintro (h | h)
    · exact h₀ h
    · exact absurd h (by decide)
  refine frameBody_of_strstr hnul (b := emptyLine) ?_ t
  have h := strstr_settled hs emptyLine
  rw [show strstr ['\n', '\n'] emptyLine = some ([], emptyLine) from rfl] at h
  simpa [emptyLine] using h

/-- The body of a frame holds no empty line. -/
theorem not_emptyLine_of_frameBody {buf body : Text} (h : frameBody buf = some body) :
    ¬ emptyLine <:+: body := by
  obtain ⟨p, hp, rfl⟩ := Option.map_eq_some_iff.mp h
  exact not_infix_of_strstr (by decide) hp

/-- A message in a padded buffer is found again. -/
theorem frameBody_padX {body : Text} (hnul : '\x00' ∉ body) (hsettled : Settled '\n' body)
    (hlen : body.length + 2 < bufferSize) :
    frameBody ((padX (body ++ emptyLine)).take bufferSize) = some body := by
  have hlength : (padX (body ++ emptyLine)).length = bufferSize := by
    apply length_padX
    simpa [emptyLine] using hlen
  rw [List.take_of_length_le hlength.le, padX, List.append_assoc]
  exact frameBody_append hnul hsettled _

theorem not_nul_of_mem_intText {n : ℤ} : '\x00' ∉ intText n :=
  not_mem_intText n (by decide) (by decide)

theorem settled_intText (n : ℤ) : Settled '\n' (intText n) :=
  settled_of_not_mem (not_mem_intText n (by decide) (by decide))

end ChatRing
