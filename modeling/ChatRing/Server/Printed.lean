import ChatRing.Server.Decoding

/-!
# Texts printed from received fields

A handler prints the fields of a frame again: the port of a server or a client into six
bytes, and a chat text with its sender into `sendBuf`.  Neither print looks at the size
of its buffer.

## Main results

* `Channel.reprinted_iff` — which frames are printed inside the buffers.
-/

namespace ChatRing
open CText

/-! ## The length of what is printed -/

theorem length_forwarded (senderId : ℤ) (message : Text) :
    (forwarded senderId message).length = (intText senderId).length + message.length + 25 := by
  have hformat : format "[SENDER]: %d\n\t[MESSAGE]: %s\n\n" = lits (text "[SENDER]: ") ++
      (.int :: (lits (text "\n\t[MESSAGE]: ") ++ (.str :: lits emptyLine))) := rfl
  simp only [forwarded, sprintf, hformat, print_lits, print_lits_nil, print_str, print_int,
    List.length_append]
  have h₁ : (text "[SENDER]: ").length = 10 := rfl
  have h₂ : (text "\n\t[MESSAGE]: ").length = 13 := rfl
  have h₃ : emptyLine.length = 2 := rfl
  omega

theorem length_forwardedToGroup (senderId groupId : ℤ) (message : Text) :
    (forwardedToGroup senderId groupId message).length =
      (intText senderId).length + (intText groupId).length + message.length + 36 := by
  have hformat : format "[SENDER]: %d\n\t[GROUP]: %d\n\t[MESSAGE]: %s\n\n" =
      lits (text "[SENDER]: ") ++ (.int :: (lits (text "\n\t[GROUP]: ") ++
        (.int :: (lits (text "\n\t[MESSAGE]: ") ++ (.str :: lits emptyLine))))) := rfl
  simp only [forwardedToGroup, sprintf, hformat, print_lits, print_lits_nil, print_str, print_int,
    List.length_append]
  have h₁ : (text "[SENDER]: ").length = 10 := rfl
  have h₂ : (text "\n\t[GROUP]: ").length = 11 := rfl
  have h₃ : (text "\n\t[MESSAGE]: ").length = 13 := rfl
  have h₄ : emptyLine.length = 2 := rfl
  omega

/-- A port has room for five digits, or for a sign and four. -/
theorem portFits_iff {p : ℤ} : PortFits p ↔ -9999 ≤ p ∧ p ≤ 99999 := by
  cases p with
  | ofNat n =>
      have h := Nat.length_toDigits_le_iff (b := 10) (k := 5) (n := n) (by decide) (by decide)
      have hlen : PortFits (Int.ofNat n) ↔ (Nat.toDigits 10 n).length ≤ 5 := Nat.lt_succ_iff
      rw [hlen, h, Int.ofNat_eq_natCast]
      omega
  | negSucc n =>
      have h := Nat.length_toDigits_le_iff (b := 10) (k := 4) (n := n + 1) (by decide) (by decide)
      have hlen : PortFits (Int.negSucc n) ↔ (Nat.toDigits 10 (n + 1)).length ≤ 4 :=
        Nat.lt_succ_iff.trans Nat.succ_le_succ_iff
      rw [hlen, h]
      omega

theorem portText_ne_error_iff {p : ℤ} :
    portText p ≠ .error .outOfBounds ↔ -9999 ≤ p ∧ p ≤ 99999 := by
  rw [← portFits_iff]
  by_cases h : PortFits p
  · rw [portText_of_fits h]
    exact iff_of_true (fun h => by cases h) h
  · have hfault : portText p = .error .outOfBounds := portText_of_not_fits h
    exact iff_of_false (not_not_intro hfault) h

theorem printSendBuf_of_lt {message : Text} (h : message.length < bufferSize) :
    printSendBuf message = .ok message := if_pos h

theorem printSendBuf_of_le {message : Text} (h : bufferSize ≤ message.length) :
    printSendBuf message = .error .outOfBounds := if_neg (not_lt_of_ge h)

/-- The copy for the client with the ID is the first that may leave the buffer. -/
theorem forwardToClient_cases (env : Env) (s : Server) (senderId destId : ℤ) (message : Text) :
    (forwardToClient env s senderId destId message = .error .outOfBounds ∧
      (∃ c ∈ s.clientArray, c.id = destId) ∧ bufferSize ≤ (forwarded senderId message).length) ∨
    (¬ ((∃ c ∈ s.clientArray, c.id = destId) ∧
        bufferSize ≤ (forwarded senderId message).length) ∧
      ∃ sent, forwardToClient env s senderId destId message =
        .ok { s with out := s.out ++ sent }) := by
  rw [forwardToClient]
  cases hfind : s.clientArray.find? fun c => c.id = destId with
  | none =>
      refine Or.inr ⟨?_, [], by simp⟩
      rintro ⟨⟨c, hc, hid⟩, -⟩
      exact absurd hid (by simpa using List.find?_eq_none.mp hfind c hc)
  | some c =>
      have hmem : ∃ c ∈ s.clientArray, c.id = destId :=
        ⟨c, List.mem_of_find?_eq_some hfind, by simpa using List.find?_some hfind⟩
      by_cases hlen : bufferSize ≤ (forwarded senderId message).length
      · exact Or.inl ⟨by rw [printSendBuf_of_le hlen]; rfl, hmem, hlen⟩
      · refine Or.inr ⟨fun h => hlen h.2, ?_⟩
        obtain ⟨sent, -, hsent⟩ := sendIgnored_eq env s c.socket (forwarded senderId message)
        exact ⟨sent, by rw [printSendBuf_of_lt (not_le.mp hlen), ← hsent]; rfl⟩

/-- A chat text leaves its buffer with the copy for the client, or with the one for the
group. -/
theorem handleClientMessage_eq_outOfBounds {env : Env} {s : Server} {senderId destId : ℤ}
    {message : Text} {i : Socket} :
    handleClientMessage env s senderId destId message i = .error .outOfBounds ↔
      message ≠ Server.getIndex ∧
        ((∃ c ∈ s.clientArray, c.id = destId) ∧
            bufferSize ≤ (forwarded senderId message).length ∨
          destId = s.groupId ∧
            bufferSize ≤ (forwardedToGroup senderId s.groupId message).length) := by
  rw [handleClientMessage]
  by_cases hmessage : message = Server.getIndex
  · rw [if_pos (show message = text "GET_INDEX" from hmessage)]
    exact iff_of_false (fun h => by cases h) fun h => h.1 hmessage
  · rw [if_neg (show message ≠ text "GET_INDEX" from hmessage),
      and_iff_right (show message ≠ Server.getIndex from hmessage)]
    rcases forwardToClient_cases env s senderId destId message with
      ⟨hforward, hlong⟩ | ⟨hnot, sent, hforward⟩
    · rw [hforward]
      exact iff_of_true rfl (Or.inl hlong)
    · rw [hforward, Except.ok_bind, or_iff_right hnot]
      by_cases hgroup : destId = s.groupId
      · rw [if_pos hgroup, and_iff_right hgroup]
        by_cases hlen : bufferSize ≤ (forwardedToGroup senderId s.groupId message).length
        · rw [printSendBuf_of_le hlen]
          exact iff_of_true rfl hlen
        · rw [printSendBuf_of_lt (not_le.mp hlen)]
          exact iff_of_false (fun h => by cases h) hlen
      · rw [if_neg hgroup]
        exact iff_of_false (fun h => by cases h) fun h => hgroup h.1

/-! ## Frames whose texts fit -/

/-- The handler prints the fields of the frame inside its buffers. -/
def Frame.Printed (s : Server) (i : Socket) : Frame → Prop
  | .updateFromLeader _ _ port => portText port ≠ .error .outOfBounds
  | .client senderId destId message =>
      ∀ env, handleClientMessage env s senderId destId message i ≠ .error .outOfBounds
  | .knowNewLeader _ _ _ _ _ sPORT => portText sPORT ≠ .error .outOfBounds
  | _ => True

/-- The same for an announcement to the leader. -/
def Message.Printed : Message → Prop
  | .leaderDiscovery _ port => portText port ≠ .error .outOfBounds
  | .whoIsLeader _ port => portText port ≠ .error .outOfBounds
  | .newClient port => portText port ≠ .error .outOfBounds
  | _ => True

/-- Where the server reads. -/
inductive Channel
  | connection (i : Socket)
  /-- The multicast socket of a leader. -/
  | multicast

namespace Channel

/-- Whatever the server reads in the bytes, it prints inside its buffers. -/
def Printed (s : Server) (received : Text) : Channel → Prop
  | .connection i => ∀ read ∈ frameBody (received.take bufferSize),
      (parseFrame (i = s.ltcpSocket) read).Printed s i
  | .multicast => ∀ buf ∈ frameBody (received.take bufferSize).dropLast,
      ∀ m ∈ readMulticast true buf, m.Printed

end Channel

/-- A port is a number of at most five characters, its sign included. -/
def PortRange (p : ℤ) : Prop := -9999 ≤ p ∧ p ≤ 99999

/-- What the fields of the frame are when they fit.  A chat text has 230 characters with
the ID of its sender, and 219 with that of the group. -/
def Frame.Fits (s : Server) : Frame → Prop
  | .updateFromLeader _ _ port => PortRange port
  | .client senderId destId message => message ≠ Server.getIndex →
      ((∃ c ∈ s.clientArray, c.id = destId) →
        (intText senderId).length + message.length ≤ 230) ∧
      (destId = s.groupId →
        (intText senderId).length + (intText s.groupId).length + message.length ≤ 219)
  | .knowNewLeader _ _ _ _ _ sPORT => PortRange sPORT
  | _ => True

def Message.Fits : Message → Prop
  | .leaderDiscovery _ port => PortRange port
  | .whoIsLeader _ port => PortRange port
  | .newClient port => PortRange port
  | _ => True

/-- The fields that the server reads in the bytes fit. -/
def Channel.Fits (s : Server) (received : Text) : Channel → Prop
  | .connection i => ∀ read ∈ frameBody (received.take bufferSize),
      (parseFrame (i = s.ltcpSocket) read).Fits s
  | .multicast => ∀ buf ∈ frameBody (received.take bufferSize).dropLast,
      ∀ m ∈ readMulticast true buf, m.Fits

theorem Frame.printed_iff {s : Server} {i : Socket} {frame : Frame} :
    frame.Printed s i ↔ frame.Fits s := by
  cases frame with
  | updateFromLeader s1IP s1ID s1PORT => exact portText_ne_error_iff
  | client senderId destId message =>
      simp only [Frame.Printed, Frame.Fits, ne_eq, handleClientMessage_eq_outOfBounds,
        length_forwarded, length_forwardedToGroup]
      have hsize : bufferSize = 256 := rfl
      rw [hsize]
      constructor
      · intro h hmessage
        let env : Env := ⟨0, errorReturn, fun _ _ _ => false, false, 0⟩
        refine ⟨fun hclient => ?_, fun hgroup => ?_⟩
        · by_contra hlong
          exact h env ⟨hmessage, Or.inl ⟨hclient, by omega⟩⟩
        · by_contra hlong
          exact h env ⟨hmessage, Or.inr ⟨hgroup, by omega⟩⟩
      · rintro h - ⟨hmessage, ⟨hclient, hlong⟩ | ⟨hgroup, hlong⟩⟩
        · have := (h hmessage).1 hclient
          omega
        · have := (h hmessage).2 hgroup
          omega
  | election keyword predId => exact Iff.rfl
  | knowNewLeader nlID nlIP nlPORT sID sIP sPORT => exact portText_ne_error_iff
  | heartbeat senderId => exact Iff.rfl
  | unknown => exact Iff.rfl

theorem Message.printed_iff {m : Message} : m.Printed ↔ m.Fits := by
  cases m with
  | leaderDiscovery id port => exact portText_ne_error_iff
  | whoIsLeader id port => exact portText_ne_error_iff
  | newClient port => exact portText_ne_error_iff
  | _ => exact Iff.rfl

/-- **Everything printed from a block fits exactly when the fields read in it are short
enough.** -/
theorem Channel.reprinted_iff (channel : Channel) (s : Server) (received : Text) :
    channel.Printed s received ↔ channel.Fits s received := by
  cases channel with
  | connection i => simp only [Channel.Printed, Channel.Fits, Frame.printed_iff]
  | multicast => simp only [Channel.Printed, Channel.Fits, Message.printed_iff]

/-- A text that does not fit ends the handler of its frame. -/
theorem handleSocketChange_of_not_printed {s : Server} {i : Socket} {received read : Text}
    (hread : frameBody (received.take bufferSize) = some read)
    (h : ¬ (parseFrame (i = s.ltcpSocket) read).Printed s i) :
    ∃ env, handleSocketChange env s i received = .error .outOfBounds := by
  have hne : received ≠ [] := by
    rintro rfl
    cases hread
  have hdispatch : ∀ env, handleSocketChange env s i received = dispatch env s i read := by
    intro env
    rw [handleSocketChange, if_neg hne, hread]
  simp only [hdispatch, dispatch]
  cases hframe : parseFrame (i = s.ltcpSocket) read with
  | updateFromLeader s1IP s1ID s1PORT =>
      rw [hframe] at h
      have hport : portText s1PORT = .error .outOfBounds := not_not.mp h
      refine ⟨⟨0, errorReturn, fun _ _ _ => false, false, 0⟩, ?_⟩
      simp only [newSuccessor, hport]
      rfl
  | client senderId destId message =>
      rw [hframe] at h
      obtain ⟨env, henv⟩ := not_forall.mp h
      exact ⟨env, by simp only [not_not.mp henv]; rfl⟩
  | election keyword predId =>
      rw [hframe] at h
      exact absurd trivial h
  | knowNewLeader nlID nlIP nlPORT sID sIP sPORT =>
      rw [hframe] at h
      have hport : portText sPORT = .error .outOfBounds := not_not.mp h
      have hne : sPORT ≠ 0 := by
        rintro rfl
        cases hport
      refine ⟨⟨0, errorReturn, fun _ _ _ => false, false, 0⟩, ?_⟩
      simp only [handleKnowNewLeader, if_pos hne, newSuccessor, hport]
      rfl
  | heartbeat senderId =>
      rw [hframe] at h
      exact absurd trivial h
  | unknown =>
      rw [hframe] at h
      exact absurd trivial h

/-! ### A line of 228 characters -/

/-- Client 101 is on descriptor 6. -/
private def serverOfClient : Server := { startLeader 0 7 (text "127.0.0.1") 4041 20000 3 4 with
  clientArray := [⟨101, 6, text "10.0.0.1"⟩] }

private def lineOf (message : Text) : Text :=
  clientTemplate.text [.int 100, .int 101, .str message] ++ emptyLine

/-- `CLIENT:100:101:` and a line of 228 characters are 245 bytes, and 256 when forwarded. -/
private theorem not_printed_of_length {message : Text} (hlen : message.length = 228)
    (hline : '\n' ∉ message) (hnul : '\x00' ∉ message) :
    (lineOf message).length = 245 ∧
      ¬ (Channel.connection 5).Printed serverOfClient (lineOf message) := by
  have hkey : (text "CLIENT:").any isSpace = false ∧ '\n' ∉ text "CLIENT:" ∧
      '\x00' ∉ text "CLIENT:" ∧ (text "CLIENT:").length = 7 := by decide
  have hne : message ≠ [] := by
    rintro rfl
    cases hlen
  have hint : IsInt 100 ∧ IsInt 101 := by decide
  have hreadable : clientTemplate.Readable [.int 100, .int 101, .str message] := by
    simp [clientTemplate, hkey, hint, hne, hline, isSpace, Char.isDigit]
  have hlength : (lineOf message).length = 245 := by
    simp only [lineOf, clientTemplate, Template.text_cons, Template.text_nil, text_int, text_str,
      List.length_append, List.length_cons, List.length_nil, hkey, hlen, emptyLine]
    rfl
  refine ⟨hlength, ?_⟩
  have hbody : frameBody ((lineOf message).take bufferSize) =
      some (clientTemplate.text [.int 100, .int 101, .str message]) := by
    rw [List.take_of_length_le (by rw [hlength]; decide), lineOf,
      ← List.append_nil (_ ++ emptyLine)]
    refine frameBody_append ?_ ?_ []
    · simp [clientTemplate, hkey, hnul, not_nul_of_mem_intText]
    · refine settled_of_not_mem ?_
      simp [clientTemplate, hkey, hline, not_mem_intText]
  intro h
  have hfits := Frame.printed_iff.mp (h _ hbody)
  rw [parseFrame_client hreadable] at hfits
  have hget : message ≠ Server.getIndex := by
    rintro rfl
    cases hlen
  have hshort := (hfits hget).1 ⟨⟨101, 6, text "10.0.0.1"⟩, by simp [serverOfClient], rfl⟩
  rw [hlen] at hshort
  exact absurd hshort (by decide)

/-- The forwarded line has no room for its NUL; nor has a port of six digits. -/
theorem long_line_not_printed : (lineOf (List.replicate 228 'a')).length = 245 ∧
    ¬ (Channel.connection 5).Printed serverOfClient (lineOf (List.replicate 228 'a')) ∧
    ¬ Channel.multicast.Printed serverOfClient (text "LEADER_DISCOVERY:8:100000\n\n\x00") := by
  have hline : '\n' ∉ List.replicate 228 'a' :=
    fun h => absurd (List.eq_of_mem_replicate h) (by decide)
  have hnul : '\x00' ∉ List.replicate 228 'a' :=
    fun h => absurd (List.eq_of_mem_replicate h) (by decide)
  obtain ⟨hlength, hlong⟩ := not_printed_of_length (List.length_replicate ..) hline hnul
  exact ⟨hlength, hlong, fun h => h _ rfl _ rfl rfl⟩

end ChatRing
