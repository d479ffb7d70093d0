import ChatRing.Server.Messages
import ChatRing.Server.State

/-!
# The client table and chat messages

`chat_client.c`, and `accept_new_client` of `server_s.c`.  Every accepted connection
enters the table with ID 0, and gets its ID with the first `GET_INDEX` request.
-/

namespace ChatRing
open CText

/-- `MAX_CONNECTION` -/
def maxConnection : ℕ := 20

/-- `randomPort` -/
def randomPort : ℤ := 8081

/-- `assign_client_info`; no address is given when `getnameinfo` failed. -/
def assignClientInfo (s : Server) (socketClient : Socket) (clientIp : Option Text) : Server :=
  match clientIp with
  | none => s
  | some ip =>
      if s.clientArray.length = maxConnection then s.closeSocket socketClient
      else { s with clientArray := s.clientArray ++ [⟨0, socketClient, ip⟩] }

theorem assignClientInfo_eq (s : Server) (socketClient : Socket) (clientIp : Option Text) :
    ∃ opened clientArray, assignClientInfo s socketClient clientIp =
      { s with opened := opened, clientArray := clientArray } := by
  rw [assignClientInfo.eq_def]
  split
  · exact ⟨_, _, rfl⟩
  · split
    · exact ⟨_, _, rfl⟩
    · exact ⟨_, _, rfl⟩

@[simp] theorem assignClientInfo_self (s : Server) (socketClient : Socket)
    (clientIp : Option Text) : (assignClientInfo s socketClient clientIp).self = s.self := by
  obtain ⟨opened, clientArray, hset⟩ := assignClientInfo_eq s socketClient clientIp
  rw [hset]

@[simp] theorem assignClientInfo_next (s : Server) (socketClient : Socket)
    (clientIp : Option Text) : (assignClientInfo s socketClient clientIp).next = s.next := by
  obtain ⟨opened, clientArray, hset⟩ := assignClientInfo_eq s socketClient clientIp
  rw [hset]

/-- `accept_new_client`, for the result of `accept`. -/
def acceptNewClient (s : Server) (socketClient : Socket) (clientIp : Option Text) : Server :=
  if IsValidSocket socketClient then
    assignClientInfo ({ s with opened := insert socketClient s.opened }.fdSet socketClient)
      socketClient clientIp
  else s

/-- An accepted connection changes nothing but the descriptors and the table. -/
theorem acceptNewClient_eq (s : Server) (socketClient : Socket) (clientIp : Option Text) :
    ∃ master opened clientArray, acceptNewClient s socketClient clientIp =
      { s with master := master, opened := opened, clientArray := clientArray } := by
  rw [acceptNewClient]
  split
  · obtain ⟨opened, clientArray, hset⟩ := assignClientInfo_eq
      ({ s with opened := insert socketClient s.opened }.fdSet socketClient) socketClient clientIp
    rw [hset]
    exact ⟨_, _, _, rfl⟩
  · exact ⟨_, _, _, rfl⟩

/-- `remove_client_from_list` -/
def removeClientFromList (s : Server) (sockfd : Socket) : Server :=
  { s with clientArray := s.clientArray.eraseP fun c => c.socket = sockfd }

/-- Printing a text into `sendBuf`. -/
def printSendBuf (message : Text) : Except Fault Text :=
  if message.length < bufferSize then .ok message else .error .outOfBounds

/-- A `send` whose result is only printed. -/
def sendIgnored (env : Env) (s : Server) (socket : Socket) (bytes : Text) : Server :=
  (s.send env socket bytes).getD s

/-- The `GET_INDEX` branch of `handle_client_message`. -/
def handleGetIndex (env : Env) (s : Server) (senderId : ℤ) (i : Socket) : ℤ × Server :=
  let msg := indexReply multicastIp randomPort s.clkIndex
  let s := { s with
    clientArray := s.clientArray.map fun (c : ClientInfo) =>
      if c.socket = i then { c with id := senderId } else c
    clkIndex := s.clkIndex + 1 }
  match s.send env i (padX msg) with
  | none => (-1, s.closeSocket i)
  | some s => (0, s)

/-- Forward a message to the first client with this ID, if there is one. -/
def forwardToClient (env : Env) (s : Server) (senderId destId : ℤ) (message : Text) :
    Except Fault Server :=
  match s.clientArray.find? fun c => c.id = destId with
  | none => .ok s
  | some destClient => do
      let sendBuf ← printSendBuf (forwarded senderId message)
      return sendIgnored env s destClient.socket sendBuf

/-- `handle_client_message` -/
def handleClientMessage (env : Env) (s : Server) (senderId destId : ℤ) (message : Text)
    (i : Socket) : Except Fault (ℤ × Server) :=
  if message = text "GET_INDEX" then .ok (handleGetIndex env s senderId i)
  else do
    let s ← forwardToClient env s senderId destId message
    if destId = s.groupId then
      let sendBuf ← printSendBuf (forwardedToGroup senderId s.groupId message)
      let others := s.clientArray.filter fun c => c.id ≠ senderId
      return (1, others.foldl (fun s c => sendIgnored env s c.socket sendBuf) s)
    else return (0, s)

/-! ## What a message changes -/

section Messages
variable {env : Env} {s t : Server} {senderId destId r : ℤ} {message : Text} {i : Socket}

theorem printSendBuf_eq_ok {buf : Text} (h : printSendBuf message = .ok buf) : buf = message := by
  rw [printSendBuf] at h
  split at h
  · exact (Except.ok.inj h).symm
  · cases h

theorem sendIgnored_eq (env : Env) (s : Server) (socket : Socket) (bytes : Text) :
    ∃ sent, (∀ k b, Output.send k b ∈ sent → b = bytes) ∧
      sendIgnored env s socket bytes = { s with out := s.out ++ sent } := by
  rw [sendIgnored]
  cases h : s.send env socket bytes with
  | none => exact ⟨[], by simp, by simp⟩
  | some t => exact ⟨[.send socket bytes], by simp, Server.send_eq_some h⟩

theorem foldl_sendIgnored_eq (env : Env) (bytes : Text) (l : List ClientInfo) (s : Server) :
    ∃ sent, (∀ k b, Output.send k b ∈ sent → b = bytes) ∧
      l.foldl (fun s c => sendIgnored env s c.socket bytes) s =
        { s with out := s.out ++ sent } := by
  induction l generalizing s with
  | nil => exact ⟨[], by simp, by simp⟩
  | cons c l ih =>
      obtain ⟨first, hfirst, heq⟩ := sendIgnored_eq env s c.socket bytes
      obtain ⟨others, hothers, heq'⟩ := ih { s with out := s.out ++ first }
      refine ⟨first ++ others, ?_, ?_⟩
      · intro k b hmem
        exact (List.mem_append.mp hmem).elim (hfirst k b) (hothers k b)
      · rw [List.foldl_cons, heq, heq', ← List.append_assoc]

/-- Client `i` has registered under an ID, and the next index is taken. -/
def Server.indexed (s : Server) (senderId : ℤ) (i : Socket) : Server := { s with
  clientArray := s.clientArray.map fun c => if c.socket = i then { c with id := senderId } else c
  clkIndex := s.clkIndex + 1 }

/-- The reply to `GET_INDEX`. -/
def Server.indexFrame (s : Server) : Text := padX (indexReply multicastIp randomPort s.clkIndex)

/-- A request for an index, whether or not the reply can be sent. -/
theorem handleClientMessage_getIndex (env : Env) (s : Server) (senderId destId : ℤ) (i : Socket) :
    handleClientMessage env s senderId destId (text "GET_INDEX") i =
      .ok (if env.sends s.out i s.indexFrame = true then
        (0, { s.indexed senderId i with out := s.out ++ [.send i s.indexFrame] })
      else (-1, (s.indexed senderId i).closeSocket i)) := by
  rw [handleClientMessage, if_pos rfl, handleGetIndex]
  by_cases hsends : env.sends s.out i s.indexFrame = true
  · rw [if_pos hsends]
    have hsend : (s.indexed senderId i).send env i s.indexFrame =
        some { s.indexed senderId i with out := s.out ++ [.send i s.indexFrame] } := if_pos hsends
    simp only [Server.indexed, Server.indexFrame] at hsend
    simp only [hsend]
    rfl
  · rw [if_neg hsends]
    have hsend : (s.indexed senderId i).send env i s.indexFrame = none := if_neg hsends
    simp only [Server.indexed, Server.indexFrame] at hsend
    simp only [hsend]
    rfl

/-- Any other message only sends what is forwarded. -/
theorem handleClientMessage_forward (hmessage : message ≠ text "GET_INDEX")
    (h : handleClientMessage env s senderId destId message i = .ok (r, t)) :
    ∃ sent, (∀ k bytes, Output.send k bytes ∈ sent →
        bytes = forwarded senderId message ∨
          bytes = forwardedToGroup senderId s.groupId message) ∧
      t = { s with out := s.out ++ sent } := by
  rw [handleClientMessage, if_neg hmessage] at h
  obtain ⟨u, hu, h⟩ := Except.bind_eq_ok.mp h
  obtain ⟨sent, hsent, rfl⟩ : ∃ sent, (∀ k bytes, Output.send k bytes ∈ sent →
      bytes = forwarded senderId message) ∧ u = { s with out := s.out ++ sent } := by
    rw [forwardToClient] at hu
    split at hu
    · cases hu
      exact ⟨[], by simp, by simp⟩
    · obtain ⟨sendBuf, hbuf, hu⟩ := Except.bind_eq_ok.mp hu
      cases hu
      obtain rfl := printSendBuf_eq_ok hbuf
      exact sendIgnored_eq env s _ _
  split at h
  · obtain ⟨sendBuf, hbuf, h⟩ := Except.bind_eq_ok.mp h
    cases h
    obtain rfl := printSendBuf_eq_ok hbuf
    obtain ⟨others, hothers, heq⟩ := foldl_sendIgnored_eq env
      (forwardedToGroup senderId s.groupId message)
      (s.clientArray.filter fun c => c.id ≠ senderId) { s with out := s.out ++ sent }
    refine ⟨sent ++ others, ?_, by rw [heq, ← List.append_assoc]⟩
    intro k bytes hmem
    exact (List.mem_append.mp hmem).imp (hsent k bytes) (hothers k bytes)
  · cases h
    exact ⟨sent, fun k bytes hmem => Or.inl (hsent k bytes hmem), rfl⟩

end Messages
end ChatRing
