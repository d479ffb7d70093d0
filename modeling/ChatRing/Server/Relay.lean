import ChatRing.Client.Session
import ChatRing.Server.Printed
import ChatRing.Server.Routing

/-!
# A line from one client to another

The way of a typed line `d:text` in mode 0: the keyboard of the sender, the branch of the
server for `CLIENT` frames, and the screen of the client that is registered as `d`.  Every
`recv` returns what one `send` wrote.

## Main results

* `Registry.line_relayed` — the text arrives with the ID of its sender, and nobody else gets
  anything.
-/

namespace ChatRing
open CText

/-- The text that a client prints for a line of another. -/
def relayedText (senderId : ℤ) (message : Text) : Text :=
  text "[SENDER]: " ++ (intText senderId ++ (text "\n\t[MESSAGE]: " ++ message))

/-! ## The screen -/

section Screen
variable {senderId : ℤ} {message : Text}

theorem forwarded_eq (senderId : ℤ) (message : Text) :
    forwarded senderId message = relayedText senderId message ++ emptyLine := by
  have hformat : format "[SENDER]: %d\n\t[MESSAGE]: %s\n\n" = lits (text "[SENDER]: ") ++
      (.int :: (lits (text "\n\t[MESSAGE]: ") ++ (.str :: lits emptyLine))) := by decide +kernel
  simp only [forwarded, relayedText, sprintf, hformat, print_lits, print_lits_nil, print_int,
    print_str, List.append_assoc]

theorem not_nul_forwarded (hmessage : '\x00' ∉ message) :
    '\x00' ∉ forwarded senderId message := by
  have h₁ : '\x00' ∉ text "[SENDER]: " := by decide +kernel
  have h₂ : '\x00' ∉ text "\n\t[MESSAGE]: " := by decide +kernel
  rw [forwarded_eq]
  simp [relayedText, h₁, h₂, not_nul_of_mem_intText, hmessage, emptyLine]

/-- The empty line that ends the frame is its first. -/
theorem strstr_forwarded (senderId : ℤ) (hmessage : '\n' ∉ message) :
    strstr emptyLine (forwarded senderId message) =
      some (relayedText senderId message, emptyLine) := by
  rw [forwarded_eq]
  simp only [relayedText, emptyLine, List.append_assoc]
  rw [strstr_settled (by decide +kernel : Settled '\n' (text "[SENDER]: ")),
    strstr_settled (settled_intText senderId),
    strstr_settled (by decide +kernel : Settled '\n' (text "\n\t[MESSAGE]: ")),
    strstr_settled (settled_of_not_mem hmessage)]
  simp [strstr]

/-- A forwarded line is printed without its empty line. -/
theorem Session.step_forwarded {b : Session} (hb : b.status = .running) (hmessage : Plain message)
    (hlen : (forwarded senderId message).length < bufferSize) :
    ∃ b', b.step (.fromServer (forwarded senderId message)) = some b' ∧
      b'.screen = b.screen ++ [some (relayedText senderId message)] := by
  have hne : forwarded senderId message ≠ [] := by
    rw [forwarded_eq]
    simp [emptyLine]
  have hnul : '\x00' ∈ padZero (forwarded senderId message) := by
    rw [padZero, List.mem_append, List.mem_replicate]
    exact Or.inr ⟨by omega, rfl⟩
  have hclear : clearMessage (padZero (forwarded senderId message)) =
      some (relayedText senderId message) :=
    frameBody_of_strstr (not_nul_forwarded hmessage.2) (strstr_forwarded senderId hmessage.1) _
  refine ⟨{ b with
    client := { b.client with buffer := padZero (forwarded senderId message) }
    screen := b.screen ++ [some (relayedText senderId message)] }, ?_, rfl⟩
  rw [step, if_pos hb, handle, fromServer, List.take_of_length_le hlen.le, if_neg hne,
    if_pos hnul, hclear]
  rfl

end Screen

/-! ## The keyboard -/

/-- A line in mode 0 that fits the prompt and is no command is sent as it was typed. -/
theorem Session.step_unicast {a : Session} {line rest : Text} (ha : a.status = .running)
    (hmode : a.mode = .unicast) (hid : IsInt a.client.selfId)
    (hstdin : a.stdin = line ++ '\n' :: rest) (hline : Plain line) (hlen : line.length < 128)
    (htwo : 2 ≤ line.length) :
    ∃ a' seen, a.step .keyboard = some a' ∧ a'.stdin = rest ∧ a'.said = a.said ++
      [⟨.unicast, line ++ ['\n'],
        ⟨(Sending.unicast a.client.selfId (line ++ ['\n'])).bytes, seen⟩⟩] := by
  let userInput := line ++ ['\n']
  have hread : fgets userInputSize a.stdin = some (userInput, rest) := by
    rw [hstdin]
    exact fgets_of_lt hline.1 hlen
  have hentry : Mode.unicast.entry (cstr userInput) = .line userInput := by
    have hcstr : cstr userInput = userInput := cstr_eq_self (by simp [userInput, hline.2])
    have hlength : userInput.length = line.length + 1 := by simp [userInput]
    rw [hcstr, Mode.entry, if_neg (by omega), if_neg (by omega)]
  have hfits : (ChatRing.unicast a.client.selfId userInput).length < bufferSize := by
    have hkey : (text "CLIENT:").length = 7 := by decide
    have := hid.length_le
    rw [unicast_eq]
    simp only [userInput, List.length_append, hkey, emptyLine, List.length_cons, List.length_nil,
      bufferSize]
    omega
  refine ⟨{ a with
    client := { a.client with buffer := padX (ChatRing.unicast a.client.selfId userInput) }
    stdin := rest
    said := a.said ++ [⟨.unicast, userInput,
      ⟨cstr (padX (ChatRing.unicast a.client.selfId userInput)), a.client.log⟩⟩] },
    a.client.log, ?_, rfl, rfl⟩
  rw [step, if_pos ha, handle, keyboard, hread]
  simp only [hmode, hentry, say, Session.unicast, hfits, if_true]
  rfl

/-! ## The way of a line -/

/-- A frame that is read as a chat message is parsed as one. -/
theorem parse_of_read_client {fromLeader : Bool} {bytes message : Text} {senderId destId : ℤ}
    (h : (Receiver.connection fromLeader).read bytes = some (.client senderId destId message)) :
    ∃ read, frameBody (bytes.take bufferSize) = some read ∧
      parseFrame fromLeader read = .client senderId destId message := by
  obtain ⟨read, hbody, hread⟩ := Option.bind_eq_some_iff.mp h
  refine ⟨read, hbody, ?_⟩
  unfold readConnection at hread
  split at hread
  · cases hread
  · rename_i hparse
    cases hread
    exact hparse
  · split at hread
    · cases hread
    · split at hread
      · cases hread
      · cases hread
  · cases hread
  · cases hread
  · cases hread

namespace Registry

/-- Client `a` on connection `i` types the line `d:message`, and client `b` on connection `fd`
is `d`: the keyboard sends a frame for which the server sends one frame, to `fd`, and `b`
prints the text from it. -/
def Relays (x : Registry) (env : Env) (i fd : Socket) (a b : Session) (message rest : Text) :
    Prop :=
  ∃ a' b' said, a.step .keyboard = some a' ∧ a'.stdin = rest ∧ a'.said = a.said ++ [said] ∧
    x.server.handle (.readable env i said.sent.datagram) =
      .ok { x.server with
        out := x.server.out ++ [.send fd (forwarded a.client.selfId message)] } ∧
    b.step (.fromServer (forwarded a.client.selfId message)) = some b' ∧
    b'.screen = b.screen ++ [some (relayedText a.client.selfId message)]

variable {x : Registry}

theorem Starts.known_of_run {x₀ : Registry} {h : List (Registry × Event)} (h₀ : x₀.Starts)
    (run : Run step x₀ h x) (hleaks : ∀ y e, (y, e) ∈ h → ¬ y.server.Leaks e) : x.Known := by
  have hboth : x.Known ∧ x.tracked.Inv := by
    refine run.guarded (P := fun y => y.Known ∧ y.tracked.Inv) ⟨h₀.known, h₀.inv⟩ ?_ hleaks
    intro y e z hy he hstep
    exact ⟨hy.1.step hy.2 he hstep, inv_step hy.2 hstep⟩
  exact hboth.1

/-- **A line reaches the client that it names, and nobody else.**  The server may have served
any connections, requests and disconnections before, as long as it closed no connection that
its table keeps; `b` is the only client registered under its ID. -/
theorem line_relayed {x₀ : Registry} {h : List (Registry × Event)} (h₀ : x₀.Starts)
    (run : Run step x₀ h x) (hclaims : ∀ y e, (y, e) ∈ h → y.ClaimsAssigned e)
    (hleaks : ∀ y e, (y, e) ∈ h → ¬ y.server.Leaks e) {env : Env} (hsends : env.Sends)
    {i fd : Socket} {a b : Session} (ha : x.registered i = some a.client.selfId)
    (hb : x.registered fd = some b.client.selfId)
    (honly : ∀ fd', x.registered fd' = some b.client.selfId → fd' = fd)
    (hruns : a.status = .running ∧ b.status = .running) (hmode : a.mode = .unicast)
    {message rest : Text}
    (hstdin : a.stdin = intText b.client.selfId ++ ':' :: message ++ '\n' :: rest)
    (hmessage : Plain message) (hne : message ≠ []) (hindex : message ≠ Server.getIndex)
    (hlen : (intText b.client.selfId).length + message.length < 127) :
    x.Relays env i fd a b message rest := by
  have hranged := h₀.ranged_of_run run hclaims
  have hknown := h₀.known_of_run run hleaks
  have hint : ∀ {k : ℤ}, IsClientId k → IsInt k := by
    rintro k ⟨hge, hle⟩
    constructor <;> omega
  have hselfId := hint (hranged.registered i _ ha)
  have hdestId := hint (hranged.registered fd _ hb)
  let line := intText b.client.selfId ++ ':' :: message
  have hpos := List.length_pos_iff.mpr hne
  have hlength : line.length = (intText b.client.selfId).length + message.length + 1 := by
    simp [line, Nat.add_assoc]
  obtain ⟨a', seen, hstep, hrest, hsaid⟩ := Session.step_unicast hruns.1 hmode hselfId
    (show a.stdin = line ++ '\n' :: rest from hstdin) (by simpa [line] using hmessage) (by omega)
    (by omega)
  let f : ChatFrame := ⟨env, i, (Sending.unicast a.client.selfId (line ++ ['\n'])).bytes,
    a.client.selfId, b.client.selfId, message⟩
  have hf : x.Typed f := by
    refine ⟨ha, parse_of_read_client ?_, hsends⟩
    refine read_client hselfId hdestId hne hmessage.1 hmessage.2 (Or.inr rfl) ?_
    rw [List.length_append, List.length_singleton]
    show line.length + 1 ≤ 128
    omega
  have hfits : (forwarded a.client.selfId message).length < bufferSize := by
    have := hselfId.length_le
    rw [length_forwarded]
    simp only [bufferSize]
    omega
  have hforwards : x.Forwards f [fd] (forwarded a.client.selfId message) := by
    refine (forwards_client_iff hf hindex ?_ fd).mpr ⟨hfits, ?_⟩
    · exact hranged.ne_groupId (.inr (hranged.registered fd _ hb))
    · exact (destClient_iff hknown hranged hb).mpr honly fd hb
  obtain ⟨b', hb', hscreen⟩ := Session.step_forwarded hruns.2 hmessage hfits
  exact ⟨a', b', _, hstep, hrest, hsaid, hforwards, hb', hscreen⟩

/-! ## Two clients -/

/-- A chat frame closes nothing as long as replies can be sent. -/
theorem not_leaks_of_client {env : Env} (hsends : env.Sends) {s : Server} {i : Socket}
    {received read message : Text} {senderId destId : ℤ}
    (hread : frameBody (received.take bufferSize) = some read)
    (hparse : ∀ fromLeader, parseFrame fromLeader read = .client senderId destId message) :
    ¬ s.Leaks (.readable env i received) := by
  rintro (⟨rfl, -⟩ | ⟨-, read', hread', fd, -, hcloses⟩)
  · cases hread
  · rw [hread] at hread'
    cases hread'
    simp only [Server.ReadCloses, hparse] at hcloses
    have hfails : env.sends _ _ _ = false := hcloses.2.1
    rw [hsends] at hfails
    cases hfails

private def answering : Env := ⟨0, errorReturn, fun _ _ _ => true, true, 8⟩

private def deserted : Registry :=
  ⟨⟨startLeader 0 7 (text "10.0.0.1") 4041 20000 3 4, ∅⟩, fun _ => none⟩

private theorem deserted_starts : deserted.Starts :=
  ⟨by decide, rfl, rfl, fun _ => rfl, by decide⟩

/-- Client 100 registers on connection 5, and client 200 on connection 6. -/
private def arrivals : List Event :=
  [.accept 5 (some (text "10.0.0.8")),
    .readable answering 5 (padX (text "CLIENT:100:0:GET_INDEX\n\n")),
    .accept 6 (some (text "10.0.0.9")),
    .readable answering 6 (padX (text "CLIENT:200:0:GET_INDEX\n\n"))]

private def populated : Registry := (exec step deserted arrivals).get (by decide +kernel)

private theorem arrivals_leak_nothing (s : Server) {e : Event} (he : e ∈ arrivals) :
    ¬ s.Leaks e := by
  have hrequests : ∀ id ∈ [100, 200], ∀ fromLeader,
      parseFrame fromLeader (text "CLIENT:" ++ intText id ++ text ":0:GET_INDEX") =
        .client id 0 Server.getIndex := by
    decide +kernel
  simp only [arrivals, List.mem_cons, List.not_mem_nil, or_false] at he
  rcases he with rfl | rfl | rfl | rfl
  · simp [Server.Leaks]
  · exact not_leaks_of_client (fun _ _ _ => rfl) (by decide +kernel) (hrequests 100 (by simp))
  · simp [Server.Leaks]
  · exact not_leaks_of_client (fun _ _ _ => rfl) (by decide +kernel) (hrequests 200 (by simp))

/-- Client 100 writes to client 200. -/
theorem line_relayed_hello :
    populated.Relays answering 5 6 (.start 100 0 [] (text "200:hello\n")) (.start 200 1 [] [])
      (text "hello") [] := by
  have run : Run step deserted (trace step deserted arrivals) populated :=
    Run.of_exec (Option.some_get _).symm
  have hclaims : ∀ p ∈ trace step deserted arrivals, p.1.ClaimsAssigned p.2 := by decide +kernel
  have hleaks : ∀ y e, (y, e) ∈ trace step deserted arrivals → ¬ y.server.Leaks e :=
    fun y e he => arrivals_leak_nothing y.server (mem_of_mem_trace he)
  have hstate : populated.registered 5 = some 100 ∧ populated.registered 6 = some 200 ∧
      populated.tracked.accepted = {5, 6} := by
    decide +kernel
  obtain ⟨hfirst, hsecond, haccepted⟩ := hstate
  refine line_relayed deserted_starts run (fun y e he => hclaims (y, e) he) hleaks
    (fun _ _ _ => rfl) hfirst hsecond ?_ ⟨rfl, rfl⟩ rfl (by decide +kernel) (by decide)
    (by decide) (by decide) (by decide +kernel)
  intro fd hfd
  have hmem := (deserted_starts.known_of_run run hleaks).accepted fd (by rw [hfd]; rfl)
  rw [haccepted, Finset.mem_insert, Finset.mem_singleton] at hmem
  rcases hmem with rfl | rfl
  · rw [hfirst] at hfd
    cases hfd
  · rfl

end Registry
end ChatRing
