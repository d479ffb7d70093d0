import ChatRing.Client.Send
import ChatRing.Lib.Except
import ChatRing.Server.Messages

/-!
# Joining the group

The client's start-up.  `get_service_info_mcast` asks the servers for their leader, and
`main` takes its own ID and the address of the leader from the reply.  The reply to
`GET_INDEX` has the address of the group and its own vector index, which subscripts
`DEPENDENCY` in every message it sends, and `DELIVERED` in every member that delivers one.
-/

namespace ChatRing
open CText

/-- The request that `get_service_info_mcast` multicasts. -/
def newClientRequest (localPort : Text) : Text := sprintf "NEW_CLIENT:%s\n\n" [.str localPort]

/-- What `main` takes from the reply of the leader. -/
structure ServiceInfo where
  selfId : ℤ
  serverIp : Text
  serverPort : ℤ
  deriving DecidableEq

/-- `main` reads the reply that `get_service_info_mcast` received. -/
def readServiceInfo (received : Text) : Option ServiceInfo :=
  match frameBody (received.take bufferSize) with
  | none => none
  | some serviceInfo =>
      match sscanf serviceInfo "LEADER:YOUR_ID:%d:SERVER_IP:%15[^:]:SERVER_PORT:%d" with
      | [.int selfId, .str serverIp, .int serverPort] => some ⟨selfId, serverIp, serverPort⟩
      | _ => none

/-- What `main` takes from the reply to `GET_INDEX`. -/
structure Joined where
  groupIp : Text
  groupPort : ℤ
  clkIndex : ℤ
  deriving DecidableEq

/-- `main` reads the reply to `GET_INDEX`. -/
def readIndexReply (received : Text) : Option Joined :=
  match frameBody (received.take bufferSize) with
  | none => none
  | some message =>
      match sscanf message "GROUP_IP:%15[^:]:GROUP_PORT:%d:INDEX:%d" with
      | [.str groupIp, .int groupPort, .int clkIndex] => some ⟨groupIp, groupPort, clkIndex⟩
      | _ => none

/-- `DEPENDENCY[CLK_INDEX] = SEND_SEQ`, on a copy of `DELIVERED`. -/
def storeDependency (delivered : Clock) (clkIndex sendSeq : ℤ) : Except Fault Clock :=
  if h : InRange clkIndex then
    .ok (Function.update delivered ⟨clkIndex.toNat, h.toNat_lt⟩ sendSeq)
  else .error .outOfBounds

theorem newClientRequest_eq (localPort : Text) :
    newClientRequest localPort = text "NEW_CLIENT:" ++ localPort ++ emptyLine := by
  have hformat : format "NEW_CLIENT:%s\n\n" =
      lits (text "NEW_CLIENT:") ++ (.str :: lits emptyLine) := by decide +kernel
  simp only [newClientRequest, sprintf, hformat, print_lits, print_lits_nil, print_str,
    List.append_assoc]

/-- A client whose index is in range multicasts with the vector of its state. -/
theorem storeDependency_client (c : Client) :
    storeDependency c.delivered (c.clkIndex : ℕ) c.sendSeq = .ok c.dependency := by
  have h : InRange (c.clkIndex : ℕ) := ⟨Int.natCast_nonneg _, Int.ofNat_lt.mpr c.clkIndex.isLt⟩
  simp [storeDependency, h, Client.dependency]

theorem storeDependency_isOk_iff {delivered : Clock} {clkIndex sendSeq : ℤ} :
    (∃ dependency, storeDependency delivered clkIndex sendSeq = .ok dependency) ↔
      InRange clkIndex := by
  rw [storeDependency]
  split
  · rename_i h
    exact iff_of_true ⟨_, rfl⟩ h
  · rename_i h
    exact iff_of_false (fun ⟨_, hd⟩ => Except.ok_ne_error hd.symm) h

/-- **A client reads from the reply what the server printed.** -/
theorem readIndexReply_padX {ip : Text} (hip : IsAddress ip) {port index : ℤ} (hport : IsInt port)
    (hindex : IsInt index) :
    readIndexReply (padX (indexReply ip port index)) = some ⟨ip, port, index⟩ := by
  let rest := text ":GROUP_PORT:" ++ intText port ++ text ":INDEX:" ++ intText index
  have hrest : '\n' ∉ rest ∧ '\x00' ∉ rest := by
    have h₁ : '\n' ∉ text ":GROUP_PORT:" ∧ '\x00' ∉ text ":GROUP_PORT:" := by decide +kernel
    have h₂ : '\n' ∉ text ":INDEX:" ∧ '\x00' ∉ text ":INDEX:" := by decide +kernel
    simp [rest, h₁, h₂, not_mem_intText]
  have hbody : frameBody ((padX (indexReply ip port index)).take bufferSize) =
      some (text "GROUP_IP:" ++ (ip ++ rest)) := by
    have hkey : '\n' ∉ text "GROUP_IP:" ∧ '\x00' ∉ text "GROUP_IP:" := by decide +kernel
    have hreply : indexReply ip port index = text "GROUP_IP:" ++ (ip ++ rest) ++ emptyLine := by
      simp only [indexReply_eq, rest, List.append_assoc]
    rw [hreply]
    apply frameBody_padX
    · simp [hkey.2, hip.not_nul, hrest.2]
    · have htail : Settled '\n' (ip ++ rest) :=
        settled_append hip.not_emptyLine (settled_of_not_mem hrest.1)
          (by simp [rest, intText_ne_nil])
          (Or.inr (by simp [rest, text]))
      refine settled_append (settled_of_not_mem hkey.1).1 htail (by simp [hip.ne_nil]) (Or.inl ?_)
      decide +kernel
    · have h₁ : (text "GROUP_IP:").length = 9 := by decide +kernel
      have h₂ : (text ":GROUP_PORT:").length = 12 := by decide +kernel
      have h₃ : (text ":INDEX:").length = 7 := by decide +kernel
      have := hip.length_le
      have := hport.length_le
      have := hindex.length_le
      simp only [rest, List.length_append, h₁, h₂, h₃, bufferSize]
      omega
  have hformat : format "GROUP_IP:%15[^:]:GROUP_PORT:%d:INDEX:%d" = lits (text "GROUP_IP:") ++
      (.set (some 15) ':' :: (lits (text ":GROUP_PORT:") ++ (.int :: (lits (text ":INDEX:") ++
        [.int])))) := by
    decide +kernel
  have hscan : sscanf (text "GROUP_IP:" ++ (ip ++ rest))
      "GROUP_IP:%15[^:]:GROUP_PORT:%d:INDEX:%d" = [.str ip, .int port, .int index] := by
    have hcolon : ∀ c ∈ (text ":GROUP_PORT:" ++ (intText port ++ (text ":INDEX:" ++
        intText index))).head?, c = ':' := by
      simp [text]
    have hhead : NoDigitHead (text ":INDEX:" ++ intText index) := by simp [text]
    simp only [rest, List.append_assoc]
    rw [sscanf, hformat, scan_lits (by decide +kernel),
      scan_set hip.ne_nil hip.not_colon (by simpa using hip.length_le) hcolon,
      scan_lits (by decide +kernel), scan_int hport hhead, scan_lits (by decide +kernel),
      ← List.append_nil (intText index), scan_int hindex noDigitHead_nil, scan_nil]
  rw [readIndexReply, hbody]
  simp only [hscan]

end ChatRing
