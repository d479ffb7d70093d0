import ChatRing.Client.Join
import ChatRing.Lib.Template
import ChatRing.Server.Follower
import ChatRing.Server.Framing

/-!
# The wire format

Every message but a client's multicast is printed by one format and read by an ordered
chain of others.  Which chain reads it depends on the receiver: a server on a connection
or on the multicast socket, a server that looks for its leader, or a client that starts.

## Main definitions

* `Message` — a message, with the fields that its reader takes from it.
* `Receiver.read` — the frame cut out of the bytes, and the chain of the receiver.
* `Encodes` — the bytes that the program sends to a receiver for a message.

## Main results

* `Encodes.read_iff` — the reader finds the message and its fields, unless an address has
  an empty line.
* `handleSocketChange_of_read`, `handleMcastReceive_of_read`, `readReply_of_read` — what
  the receiver does with the message that it reads.
-/

namespace ChatRing
open CText

/-- A message, by its branch. -/
inductive Message
  | joinReply (id : ℤ) (addr : Text) (port successorId : ℤ)
  | updateFromLeader (addr : Text) (id port : ℤ)
  | knowNewLeader (id : ℤ) (addr : Text) (port successorId : ℤ) (successorAddr : Text)
      (successorPort : ℤ)
  | vote (id : ℤ)
  | leader (id : ℤ)
  | heartbeat (id : ℤ)
  | leaderDiscovery (id port : ℤ)
  | whoIsLeader (id port : ℤ)
  | newClient (port : ℤ)
  | clientReply (clientId : ℤ) (addr : Text) (port : ℤ)
  | indexReply (ip : Text) (port index : ℤ)
  | client (senderId destId : ℤ) (message : Text)
  deriving DecidableEq

/-- Who reads a message. -/
inductive Receiver
  /-- A server, while it looks for its leader. -/
  | discovery
  /-- A server, on the connection from its leader or on another one. -/
  | connection (fromLeader : Bool)
  /-- A server, on the multicast socket. -/
  | multicast (leads : Bool)
  /-- A client that waits for its ID. -/
  | serviceInfo
  /-- A client that waits for its index. -/
  | index
  deriving DecidableEq

/-- `service_discovery` -/
def readJoinReply (buf : Text) : Option Message :=
  match sscanf buf "%d:%15[^:]:%d:%d\n\n" with
  | [.int id, .str successorIP, .int mPORT, .int ids] => some (.joinReply id successorIP mPORT ids)
  | _ => none

/-- `handle_socket_change`, with the second look that `leader_found` takes at a frame. -/
def readConnection (fromLeader : Bool) (read : Text) : Option Message :=
  match parseFrame fromLeader read with
  | .updateFromLeader s1IP s1ID s1PORT => some (.updateFromLeader s1IP s1ID s1PORT)
  | .client senderId destId message => some (.client senderId destId message)
  | .election keyword predId =>
      if (electionOf read keyword predId).1 = text "VOTE" then
        some (.vote (electionOf read keyword predId).2)
      else if (electionOf read keyword predId).1 = text "LEADER" then
        some (.leader (electionOf read keyword predId).2)
      else none
  | .knowNewLeader nlID nlIP nlPORT sID sIP sPORT =>
      some (.knowNewLeader nlID nlIP nlPORT sID sIP sPORT)
  | .heartbeat senderId => some (.heartbeat senderId)
  | .unknown => none

/-- `handle_mcast_receive`, and `peer_mcast_receive` at the leader. -/
def readMulticast (leads : Bool) (buf : Text) : Option Message :=
  match leads with
  | true =>
      match sscanf buf "LEADER_DISCOVERY:%d:%d" with
      | [.int newPeerId, .int newPeerPort] => some (.leaderDiscovery newPeerId newPeerPort)
      | _ =>
          match sscanf buf "WHO_IS_LEADER:%d:%d" with
          | [.int newPeerId, .int newPeerPort] => some (.whoIsLeader newPeerId newPeerPort)
          | _ =>
              match sscanf buf "NEW_CLIENT:%d" with
              | [.int newClientTcpPort] => some (.newClient newClientTcpPort)
              | _ => none
  | false =>
      match sscanf buf "HEARTBEAT:%d" with
      | [.int receivedId] => some (.heartbeat receivedId)
      | _ => none

/-- What the receiver takes from the bytes. -/
def Receiver.read : Receiver → Text → Option Message
  | .discovery, received => (frameBody (received.take bufferSize)).bind readJoinReply
  | .connection fromLeader, received =>
      (frameBody (received.take bufferSize)).bind (readConnection fromLeader)
  | .multicast leads, received =>
      (frameBody (received.take bufferSize).dropLast).bind (readMulticast leads)
  | .serviceInfo, received =>
      (readServiceInfo received).map fun info =>
        .clientReply info.selfId info.serverIp info.serverPort
  | .index, received =>
      (readIndexReply received).map fun joined =>
        .indexReply joined.groupIp joined.groupPort joined.clkIndex

/-- The bytes that the program sends to a receiver for a message. -/
inductive Encodes : Receiver → Message → Text → Prop
  | joinReply {id port successorId : ℤ} {addr : Text} (hid : IsInt id) (haddr : IsField addr)
      (hport : IsInt port) (hsuccessor : IsInt successorId) :
      Encodes .discovery (.joinReply id addr port successorId)
        (padX (ChatRing.joinReply id addr port successorId))
  | updateFromLeader {id port : ℤ} {addr : Text} (haddr : IsField addr) (hid : IsInt id)
      (hport : IsInt port) :
      Encodes (.connection true) (.updateFromLeader addr id port)
        (padX (ChatRing.updateFromLeader addr id port))
  | knowNewLeader {fromLeader : Bool} {id port successorId successorPort : ℤ}
      {addr successorAddr : Text} (hid : IsInt id) (haddr : IsField addr) (hport : IsInt port)
      (hsuccessor : IsInt successorId) (hsuccessorAddr : IsField successorAddr)
      (hsuccessorPort : IsInt successorPort) :
      Encodes (.connection fromLeader)
        (.knowNewLeader id addr port successorId successorAddr successorPort)
        (padX (ChatRing.knowNewLeader id addr port successorId successorAddr successorPort))
  | vote {fromLeader : Bool} {id : ℤ} (hid : IsId id) :
      Encodes (.connection fromLeader) (.vote id) (padZero (electionVote id))
  | leader {fromLeader : Bool} {id : ℤ} (hid : IsId id) :
      Encodes (.connection fromLeader) (.leader id) (padZero (electionLeader id))
  | heartbeat {fromLeader : Bool} {id : ℤ} (hid : IsInt id) :
      Encodes (.connection fromLeader) (.heartbeat id) (padZero (ChatRing.heartbeat id))
  | leaderHeartbeat {id : ℤ} (hid : IsInt id) :
      Encodes (.multicast false) (.heartbeat id) (padZero (ChatRing.heartbeat id))
  | leaderDiscovery {id port : ℤ} (hid : IsInt id) (hport : IsInt port) :
      Encodes (.multicast true) (.leaderDiscovery id port)
        (padZero (ChatRing.leaderDiscovery id port))
  | whoIsLeader {id port : ℤ} (hid : IsInt id) (hport : IsInt port) :
      Encodes (.multicast true) (.whoIsLeader id port) (padX (ChatRing.whoIsLeader id port))
  | newClient {port : ℤ} (hport : IsInt port) :
      Encodes (.multicast true) (.newClient port) (cstr (padX (newClientRequest (intText port))))
  | clientReply {clientId port : ℤ} {addr : Text} (hid : IsInt clientId) (haddr : IsField addr)
      (hport : IsInt port) :
      Encodes .serviceInfo (.clientReply clientId addr port)
        (padX (ChatRing.clientReply clientId addr port))
  | indexReply {port index : ℤ} {ip : Text} (hip : IsField ip) (hport : IsInt port)
      (hindex : IsInt index) :
      Encodes .index (.indexReply ip port index) (padX (ChatRing.indexReply ip port index))
  | getIndex {fromLeader : Bool} {selfId : ℤ} (hid : IsInt selfId) :
      Encodes (.connection fromLeader) (.client selfId 0 Server.getIndex) (padX (getIndex selfId))
  /-- A line `dest:text`, with the newline that `fgets` keeps when it fits. -/
  | client {fromLeader : Bool} {selfId destId : ℤ} {message newline : Text} (hid : IsInt selfId)
      (hdest : IsInt destId) (hne : message ≠ []) (hline : '\n' ∉ message)
      (hnul : '\x00' ∉ message) (hnewline : newline = [] ∨ newline = ['\n'])
      (hfgets : (intText destId ++ ':' :: message ++ newline).length ≤ bufferSize - 128) :
      Encodes (.connection fromLeader) (.client selfId destId message)
        (cstr (padX (unicast selfId (intText destId ++ ':' :: message ++ newline))))

/-! ## Frames -/

/-- A line that a frame carries whole. -/
structure Carried (T : Template) (fields : List Arg) : Prop where
  nonempty : T ≠ []
  readable : T.Readable fields
  apart : T.Apart '\n' fields
  not_nul : '\x00' ∉ T.text fields
  length_lt : (T.text fields).length + 3 < bufferSize

section Frames
variable {T : Template} {fields : List Arg} {body message : Text}

/-- Whatever follows it, the line is what is cut out of the frame. -/
theorem Carried.frameBody (h : Carried T fields) (t : Text) :
    ChatRing.frameBody (T.text fields ++ emptyLine ++ t) = some (T.text fields) :=
  frameBody_append h.not_nul
    (Template.settled_text h.nonempty h.readable.length_eq h.apart).1 t

theorem take_padX (h : message.length < bufferSize) : (padX message).take bufferSize =
    message ++ (List.replicate (bufferSize - 1 - message.length) 'x' ++ ['\x00']) := by
  rw [List.take_of_length_le (length_padX h).le, padX, List.append_assoc]

theorem take_padZero (h : message.length < bufferSize) : (padZero message).take bufferSize =
    message ++ List.replicate (bufferSize - message.length) '\x00' := by
  rw [List.take_of_length_le (length_padZero h.le).le, padZero]

/-- A client sends the string in its buffer. -/
theorem take_cstr_padX (hnul : '\x00' ∉ message) (h : message.length < bufferSize) :
    (cstr (padX message)).take bufferSize =
      message ++ List.replicate (bufferSize - 1 - message.length) 'x' := by
  have hstring : '\x00' ∉ message ++ List.replicate (bufferSize - 1 - message.length) 'x' := by
    simp [hnul]
  rw [padX, cstr_append_nul hstring, List.take_of_length_le]
  simp only [List.length_append, List.length_replicate]
  omega

/-- The last byte of a datagram is not the line's. -/
theorem dropLast_append_replicate {n : ℕ} (c : Char) (hn : n ≠ 0) :
    (message ++ List.replicate n c).dropLast = message ++ List.replicate (n - 1) c := by
  rw [List.dropLast_append_of_ne_nil (by simpa using hn), List.dropLast_replicate]

variable (h : Carried T fields)
include h

theorem Carried.length_message_lt : (T.text fields ++ emptyLine).length + 1 < bufferSize := by
  have := h.length_lt
  simpa [emptyLine] using this

theorem Carried.padX {f : String} (hf : format f = T.printFormat ++ lits emptyLine) :
    ChatRing.frameBody ((ChatRing.padX (sprintf f fields)).take bufferSize) =
      some (T.text fields) := by
  have := h.length_message_lt
  rw [Template.sprintf_eq hf h.readable, take_padX (by omega)]
  exact h.frameBody _

theorem Carried.padZero {f : String} (hf : format f = T.printFormat ++ lits emptyLine) :
    ChatRing.frameBody ((ChatRing.padZero (sprintf f fields)).take bufferSize) =
      some (T.text fields) := by
  have := h.length_message_lt
  rw [Template.sprintf_eq hf h.readable, take_padZero (by omega)]
  exact h.frameBody _

theorem Carried.padX_datagram {f : String} (hf : format f = T.printFormat ++ lits emptyLine) :
    ChatRing.frameBody ((ChatRing.padX (sprintf f fields)).take bufferSize).dropLast =
      some (T.text fields) := by
  have := h.length_message_lt
  rw [Template.sprintf_eq hf h.readable, take_padX (by omega), ← List.append_assoc,
    List.dropLast_concat]
  exact h.frameBody _

theorem Carried.padZero_datagram {f : String} (hf : format f = T.printFormat ++ lits emptyLine) :
    ChatRing.frameBody ((ChatRing.padZero (sprintf f fields)).take bufferSize).dropLast =
      some (T.text fields) := by
  have := h.length_message_lt
  rw [Template.sprintf_eq hf h.readable, take_padZero (by omega),
    dropLast_append_replicate _ (by omega)]
  exact h.frameBody _

theorem Carried.cstr_datagram : ChatRing.frameBody ((cstr (ChatRing.padX (T.text fields ++
    emptyLine))).take bufferSize).dropLast = some (T.text fields) := by
  have := h.length_message_lt
  have hnul : '\x00' ∉ T.text fields ++ emptyLine := by
    rw [List.mem_append]
    rintro (hmem | hmem)
    · exact h.not_nul hmem
    · exact absurd hmem (by decide)
  rw [take_cstr_padX hnul (by omega), dropLast_append_replicate _ (by omega)]
  exact h.frameBody _

end Frames

/-! ## Numbers and addresses -/

/-- What a server's `%d` or `%15[^:]` is to read: an `int`, or an address. -/
def FieldOf (d : Directive) (a : Arg) : Prop :=
  match d, a with
  | .int, .int n => IsInt n
  | .set width stop, .str w => width = some 15 ∧ stop = ':' ∧ IsAddress w
  | _, _ => False

/-- Labels are words, all but the first one begin with a colon, and the last field is a
number. -/
def ColonSeparated (T : Template) : Prop :=
  (∀ p ∈ T, p.1.any isSpace = false ∧ '\x00' ∉ p.1) ∧ (∀ p ∈ T.tail, p.1.head? = some ':') ∧
    ∀ p ∈ T.getLast?, p.2 = .int

instance (T : Template) : Decidable (ColonSeparated T) :=
  inferInstanceAs (Decidable (_ ∧ _ ∧ _))

/-- What a field is, whichever its kind. -/
theorem FieldOf.text {d : Directive} {a : Arg} (h : FieldOf d a) : a.text ≠ [] ∧
    '\x00' ∉ a.text ∧ ¬ emptyLine <:+: a.text ∧ a.text.length ≤ 15 := by
  cases a with
  | int n =>
      cases d with
      | int =>
          have hlen : (intText n).length ≤ 11 := IsInt.length_le h
          refine ⟨intText_ne_nil n, not_nul_of_mem_intText, (settled_intText n).1, ?_⟩
          rw [text_int]
          omega
      | _ => cases h
  | str w =>
      cases d with
      | set width stop =>
          obtain ⟨-, -, haddr⟩ := h
          exact ⟨haddr.ne_nil, haddr.not_nul, haddr.not_emptyLine, haddr.length_le⟩
      | _ => cases h

/-- A field ends at a colon, or at the end of the line. -/
theorem FieldOf.reads {d : Directive} {a : Arg} {t : Text} (h : FieldOf d a)
    (ht : ∀ c ∈ t.head?, c = ':') : Reads d a t := by
  cases a with
  | int n =>
      cases d with
      | int =>
          refine ⟨h, fun c hc => ?_⟩
          rw [ht c hc]
          rfl
      | _ => cases h
  | str w =>
      cases d with
      | set width stop =>
          obtain ⟨rfl, rfl, haddr⟩ := h
          exact ⟨haddr.ne_nil, haddr.not_colon, by simpa using haddr.length_le, ht⟩
      | _ => cases h

theorem ColonSeparated.tail {p : Text × Directive} {T : Template}
    (h : ColonSeparated (p :: T)) : ColonSeparated T :=
  ⟨fun q hq => h.1 q (List.mem_cons_of_mem p hq), fun q hq => h.2.1 q (List.mem_of_mem_tail hq),
    fun q hq => h.2.2 q (by rw [List.getLast?_cons, hq]; rfl)⟩

theorem ColonSeparated.head?_text {p : Text × Directive} {T : Template} {fields : List Arg}
    (h : ColonSeparated (p :: T)) : ∀ c ∈ (T.text fields).head?, c = ':' := by
  intro c hc
  cases T with
  | nil => cases hc
  | cons q T =>
      cases fields with
      | nil => cases hc
      | cons a fields =>
          have hq : q.1.head? = some ':' := h.2.1 q List.mem_cons_self
          rw [Template.text, List.head?_append, hq] at hc
          exact (Option.some.inj hc).symm

theorem ColonSeparated.readable {T : Template} {fields : List Arg} (h : ColonSeparated T)
    (hfields : List.Forall₂ (fun p a => FieldOf p.2 a) T fields) : T.Readable fields := by
  induction hfields with
  | nil => exact Template.readable_nil
  | cons ha _ ih => exact ⟨(h.1 _ List.mem_cons_self).1, ha.reads h.head?_text, ih h.tail⟩

theorem ColonSeparated.apart {T : Template} {fields : List Arg} (h : ColonSeparated T)
    (hfields : List.Forall₂ (fun p a => FieldOf p.2 a) T fields) : T.Apart '\n' fields := by
  induction hfields with
  | nil => exact Template.apart_nil
  | @cons p a T fields ha _ ih =>
      obtain ⟨hne, -, hempty, -⟩ := ha.text
      have hlabel : '\n' ∉ p.1 := fun hmem =>
        absurd (List.any_eq_false.mp (h.1 p List.mem_cons_self).1 '\n' hmem) (by decide)
      refine ⟨hlabel, hne, hempty, fun hT => ?_, fun q hq => ?_, ih h.tail⟩
      · -- the last field is a number
        have hlast : p.2 = .int := h.2.2 p (by rw [hT]; rfl)
        cases a with
        | int n => exact not_mem_intText n (by decide) (by decide)
        | str w => rw [hlast] at ha; cases ha
      · have hhead := h.2.1 q (List.mem_of_mem_head? hq)
        intro hnil
        rw [hnil] at hhead
        cases hhead

theorem ColonSeparated.not_nul {T : Template} {fields : List Arg} (h : ColonSeparated T)
    (hfields : List.Forall₂ (fun p a => FieldOf p.2 a) T fields) : '\x00' ∉ T.text fields := by
  induction hfields with
  | nil => exact List.not_mem_nil
  | cons ha _ ih =>
      rw [Template.text, List.mem_append, List.mem_append]
      rintro (hmem | hmem | hmem)
      · exact (h.1 _ List.mem_cons_self).2 hmem
      · exact ha.text.2.1 hmem
      · exact ih h.tail hmem

theorem length_text_le {T : Template} {fields : List Arg}
    (hfields : List.Forall₂ (fun p a => FieldOf p.2 a) T fields) :
    (T.text fields).length ≤ (T.map fun p => p.1.length + 15).sum := by
  induction hfields with
  | nil => exact le_rfl
  | cons ha _ ih =>
      have := ha.text.2.2.2
      simp only [Template.text, List.length_append, List.map_cons, List.sum_cons]
      omega

/-- A line of labelled numbers and addresses that is short enough for a frame. -/
structure Line where
  template : Template
  separated : ColonSeparated template
  nonempty : template ≠ []
  short : (template.map fun p => p.1.length + 15).sum + 3 < bufferSize

/-- **A frame carries such a line whole.** -/
theorem Line.carried (l : Line) {fields : List Arg}
    (hfields : List.Forall₂ (fun p a => FieldOf p.2 a) l.template fields) :
    Carried l.template fields := by
  refine ⟨l.nonempty, l.separated.readable hfields, l.separated.apart hfields,
    l.separated.not_nul hfields, ?_⟩
  have := length_text_le hfields
  have := l.short
  omega

/-! ## The lines -/

def joinReplyLine : Line where
  template := [([], .int), ([':'], .set (some 15) ':'), ([':'], .int), ([':'], .int)]
  separated := by decide
  nonempty := by decide
  short := by decide

def updateFromLeaderLine : Line where
  template := [(text "UPDATE_FROM_LEADER:", .set (some 15) ':'), ([':'], .int), ([':'], .int)]
  separated := by decide
  nonempty := by decide
  short := by decide

def knowNewLeaderLine : Line where
  template := [(text "KNOW_NEW_LEADER:", .int), ([':'], .set (some 15) ':'), ([':'], .int),
    ([':'], .int), ([':'], .set (some 15) ':'), ([':'], .int)]
  separated := by decide
  nonempty := by decide
  short := by decide

def heartbeatLine : Line where
  template := [(text "HEARTBEAT:", .int)]
  separated := by decide
  nonempty := by decide
  short := by decide

def leaderDiscoveryLine : Line where
  template := [(text "LEADER_DISCOVERY:", .int), ([':'], .int)]
  separated := by decide
  nonempty := by decide
  short := by decide

def whoIsLeaderLine : Line where
  template := [(text "WHO_IS_LEADER:", .int), ([':'], .int)]
  separated := by decide
  nonempty := by decide
  short := by decide

def newClientLine : Line where
  template := [(text "NEW_CLIENT:", .int)]
  separated := by decide
  nonempty := by decide
  short := by decide

def clientReplyLine : Line where
  template := [(text "LEADER:YOUR_ID:", .int), (text ":SERVER_IP:", .set (some 15) ':'),
    (text ":SERVER_PORT:", .int)]
  separated := by decide
  nonempty := by decide
  short := by decide

/-- `CLIENT:sender:dest:text`, whose last field is not an address. -/
def clientTemplate : Template := [(text "CLIENT:", .int), ([':'], .int), ([':'], .set none '\n')]

section Readers
variable {id port successorId successorPort : ℤ} {addr successorAddr : Text} {fromLeader : Bool}

theorem readJoinReply_eq
    (h : joinReplyLine.template.Readable [.int id, .str addr, .int port, .int successorId]) :
    readJoinReply (joinReplyLine.template.text [.int id, .str addr, .int port, .int successorId]) =
      some (.joinReply id addr port successorId) := by
  have hformat : format "%d:%15[^:]:%d:%d\n\n" =
      joinReplyLine.template.scanFormat ++ lits emptyLine := rfl
  have hend : scan (lits emptyLine) [] = [] := rfl
  unfold readJoinReply
  rw [sscanf, hformat, Template.scan_scanFormat h, hend]
  rfl

theorem readConnection_updateFromLeader
    (h : updateFromLeaderLine.template.Readable [.str addr, .int id, .int port]) :
    readConnection true (updateFromLeaderLine.template.text [.str addr, .int id, .int port]) =
      some (.updateFromLeader addr id port) := by
  have hparse : parseFrame true
      (updateFromLeaderLine.template.text [.str addr, .int id, .int port]) =
        .updateFromLeader addr id port := by
    unfold parseFrame
    rw [Template.sscanf_eq rfl h]
  unfold readConnection
  rw [hparse]

theorem readConnection_knowNewLeader (h : knowNewLeaderLine.template.Readable
      [.int id, .str addr, .int port, .int successorId, .str successorAddr, .int successorPort]) :
    readConnection fromLeader (knowNewLeaderLine.template.text
        [.int id, .str addr, .int port, .int successorId, .str successorAddr,
          .int successorPort]) =
      some (.knowNewLeader id addr port successorId successorAddr successorPort) := by
  have hparse : parseFrame fromLeader (knowNewLeaderLine.template.text
      [.int id, .str addr, .int port, .int successorId, .str successorAddr, .int successorPort]) =
        .knowNewLeader id addr port successorId successorAddr successorPort := by
    unfold parseFrame
    rw [Template.sscanf_eq_nil (f := "UPDATE_FROM_LEADER:%15[^:]:%d:%d") rfl,
      Template.sscanf_eq_nil (f := "CLIENT:%d:%d:%[^\n]") rfl,
      Template.sscanf_eq_nil (f := "ELECTION:%7[^:]:%d") rfl,
      Template.sscanf_eq rfl h]
    cases fromLeader <;> rfl
  unfold readConnection
  rw [hparse]

theorem readConnection_heartbeat (h : heartbeatLine.template.Readable [.int id]) :
    readConnection fromLeader (heartbeatLine.template.text [.int id]) = some (.heartbeat id) := by
  have hparse : parseFrame fromLeader (heartbeatLine.template.text [.int id]) = .heartbeat id := by
    unfold parseFrame
    rw [Template.sscanf_eq_nil (f := "UPDATE_FROM_LEADER:%15[^:]:%d:%d") rfl,
      Template.sscanf_eq_nil (f := "CLIENT:%d:%d:%[^\n]") rfl,
      Template.sscanf_eq_nil (f := "ELECTION:%7[^:]:%d") rfl,
      Template.sscanf_eq_nil (f := "KNOW_NEW_LEADER:%d:%15[^:]:%d:%d:%15[^:]:%d")
        rfl,
      Template.sscanf_eq rfl h]
    cases fromLeader <;> rfl
  unfold readConnection
  rw [hparse]

theorem parseFrame_client {selfId destId : ℤ} {message : Text}
    (h : clientTemplate.Readable [.int selfId, .int destId, .str message]) (fromLeader : Bool) :
    parseFrame fromLeader (clientTemplate.text [.int selfId, .int destId, .str message]) =
      .client selfId destId message := by
  unfold parseFrame
  rw [Template.sscanf_eq_nil (f := "UPDATE_FROM_LEADER:%15[^:]:%d:%d") rfl,
    Template.sscanf_eq rfl h]
  cases fromLeader <;> rfl

theorem readConnection_client {selfId destId : ℤ} {message : Text}
    (h : clientTemplate.Readable [.int selfId, .int destId, .str message]) :
    readConnection fromLeader (clientTemplate.text [.int selfId, .int destId, .str message]) =
      some (.client selfId destId message) := by
  unfold readConnection
  rw [parseFrame_client h]

/-- The frame of a vote is read as one: no `LEADER:` is found in it. -/
theorem readConnection_vote (hid : IsInt id) :
    readConnection fromLeader (text "ELECTION:" ++ (text "VOTE" ++ (':' :: intText id))) =
      some (.vote id) := by
  have hparse := parseFrame_election (show text "VOTE" ≠ [] by decide) (by decide)
    (by decide) hid fromLeader
  unfold readConnection
  rw [hparse]
  simp [electionOf, leaderFound_vote]

theorem readConnection_leader (hid : IsInt id) :
    readConnection fromLeader (text "ELECTION:" ++ (text "LEADER" ++ (':' :: intText id))) =
      some (.leader id) := by
  have hparse := parseFrame_election (show text "LEADER" ≠ [] by decide) (by decide)
    (by decide) hid fromLeader
  have hkey : text "LEADER" ≠ text "VOTE" := by decide
  unfold readConnection
  rw [hparse]
  simp only [electionOf, leaderFound_leader hid]
  by_cases hne : id = 0
  · simp [hne, hkey]
  · simp [hne, hkey]

theorem readMulticast_leaderDiscovery
    (h : leaderDiscoveryLine.template.Readable [.int id, .int port]) :
    readMulticast true (leaderDiscoveryLine.template.text [.int id, .int port]) =
      some (.leaderDiscovery id port) := by
  unfold readMulticast
  rw [Template.sscanf_eq rfl h]

theorem readMulticast_whoIsLeader (h : whoIsLeaderLine.template.Readable [.int id, .int port]) :
    readMulticast true (whoIsLeaderLine.template.text [.int id, .int port]) =
      some (.whoIsLeader id port) := by
  unfold readMulticast
  rw [Template.sscanf_eq_nil (f := "LEADER_DISCOVERY:%d:%d") rfl,
    Template.sscanf_eq rfl h]

theorem readMulticast_newClient (h : newClientLine.template.Readable [.int port]) :
    readMulticast true (newClientLine.template.text [.int port]) = some (.newClient port) := by
  unfold readMulticast
  rw [Template.sscanf_eq_nil (f := "LEADER_DISCOVERY:%d:%d") rfl,
    Template.sscanf_eq_nil (f := "WHO_IS_LEADER:%d:%d") rfl,
    Template.sscanf_eq rfl h]

theorem readMulticast_heartbeat (h : heartbeatLine.template.Readable [.int id]) :
    readMulticast false (heartbeatLine.template.text [.int id]) = some (.heartbeat id) := by
  have hscan := Template.sscanf_eq (f := "HEARTBEAT:%d") rfl h
  unfold readMulticast
  simp only [hscan]

end Readers

/-! ## The round trip -/

section Kinds
variable {id port successorId successorPort : ℤ} {addr successorAddr : Text} {fromLeader : Bool}

theorem read_joinReply (hid : IsInt id) (haddr : IsAddress addr) (hport : IsInt port)
    (hsuccessor : IsInt successorId) :
    Receiver.discovery.read (padX (joinReply id addr port successorId)) =
      some (.joinReply id addr port successorId) := by
  have hcarried : Carried joinReplyLine.template
      [.int id, .str addr, .int port, .int successorId] :=
    joinReplyLine.carried
      (.cons hid (.cons ⟨rfl, rfl, haddr⟩ (.cons hport (.cons hsuccessor .nil))))
  rw [Receiver.read, joinReply, hcarried.padX rfl, Option.bind_some,
    readJoinReply_eq hcarried.readable]

theorem read_updateFromLeader (haddr : IsAddress addr) (hid : IsInt id) (hport : IsInt port) :
    (Receiver.connection true).read (padX (updateFromLeader addr id port)) =
      some (.updateFromLeader addr id port) := by
  have hcarried : Carried updateFromLeaderLine.template [.str addr, .int id, .int port] :=
    updateFromLeaderLine.carried
      (.cons ⟨rfl, rfl, haddr⟩ (.cons hid (.cons hport .nil)))
  rw [Receiver.read, updateFromLeader, hcarried.padX rfl, Option.bind_some,
    readConnection_updateFromLeader hcarried.readable]

theorem read_knowNewLeader (hid : IsInt id) (haddr : IsAddress addr) (hport : IsInt port)
    (hsuccessor : IsInt successorId) (hsuccessorAddr : IsAddress successorAddr)
    (hsuccessorPort : IsInt successorPort) :
    (Receiver.connection fromLeader).read
        (padX (knowNewLeader id addr port successorId successorAddr successorPort)) =
      some (.knowNewLeader id addr port successorId successorAddr successorPort) := by
  have hcarried : Carried knowNewLeaderLine.template
      [.int id, .str addr, .int port, .int successorId, .str successorAddr, .int successorPort] :=
    knowNewLeaderLine.carried
      (.cons hid (.cons ⟨rfl, rfl, haddr⟩ (.cons hport (.cons hsuccessor
        (.cons ⟨rfl, rfl, hsuccessorAddr⟩ (.cons hsuccessorPort .nil))))))
  rw [Receiver.read, knowNewLeader, hcarried.padX rfl, Option.bind_some,
    readConnection_knowNewLeader hcarried.readable]

theorem read_vote (hid : IsInt id) :
    (Receiver.connection fromLeader).read (padZero (electionVote id)) = some (.vote id) := by
  have htext : electionVote id =
      text "ELECTION:" ++ (text "VOTE" ++ (':' :: intText id)) ++ emptyLine := by
    rw [electionVote_eq]
    rfl
  rw [Receiver.read, htext, frameBody_election (by decide) (by decide) (by decide) hid,
    Option.bind_some, readConnection_vote hid]

theorem read_leader (hid : IsInt id) :
    (Receiver.connection fromLeader).read (padZero (electionLeader id)) = some (.leader id) := by
  have htext : electionLeader id =
      text "ELECTION:" ++ (text "LEADER" ++ (':' :: intText id)) ++ emptyLine := by
    rw [electionLeader_eq]
    rfl
  rw [Receiver.read, htext, frameBody_election (by decide) (by decide) (by decide) hid,
    Option.bind_some, readConnection_leader hid]

theorem carried_heartbeat (hid : IsInt id) : Carried heartbeatLine.template [.int id] :=
  heartbeatLine.carried (.cons hid .nil)

theorem read_heartbeat (hid : IsInt id) :
    (Receiver.connection fromLeader).read (padZero (heartbeat id)) = some (.heartbeat id) := by
  rw [Receiver.read, heartbeat, (carried_heartbeat hid).padZero rfl, Option.bind_some,
    readConnection_heartbeat (carried_heartbeat hid).readable]

/-- The leader multicasts the same frame. -/
theorem read_leaderHeartbeat (hid : IsInt id) :
    (Receiver.multicast false).read (padZero (heartbeat id)) = some (.heartbeat id) := by
  rw [Receiver.read, heartbeat, (carried_heartbeat hid).padZero_datagram rfl, Option.bind_some,
    readMulticast_heartbeat (carried_heartbeat hid).readable]

theorem read_leaderDiscovery (hid : IsInt id) (hport : IsInt port) :
    (Receiver.multicast true).read (padZero (leaderDiscovery id port)) =
      some (.leaderDiscovery id port) := by
  have hcarried : Carried leaderDiscoveryLine.template [.int id, .int port] :=
    leaderDiscoveryLine.carried (.cons hid (.cons hport .nil))
  rw [Receiver.read, leaderDiscovery, hcarried.padZero_datagram rfl,
    Option.bind_some, readMulticast_leaderDiscovery hcarried.readable]

theorem read_whoIsLeader (hid : IsInt id) (hport : IsInt port) :
    (Receiver.multicast true).read (padX (whoIsLeader id port)) = some (.whoIsLeader id port) := by
  have hcarried : Carried whoIsLeaderLine.template [.int id, .int port] :=
    whoIsLeaderLine.carried (.cons hid (.cons hport .nil))
  rw [Receiver.read, whoIsLeader, hcarried.padX_datagram rfl, Option.bind_some,
    readMulticast_whoIsLeader hcarried.readable]

theorem read_newClient (hport : IsInt port) :
    (Receiver.multicast true).read (cstr (padX (newClientRequest (intText port)))) =
      some (.newClient port) := by
  have hcarried : Carried newClientLine.template [.int port] :=
    newClientLine.carried (.cons hport .nil)
  have htext : newClientRequest (intText port) =
      newClientLine.template.text [.int port] ++ emptyLine := by
    simp [newClientRequest_eq, newClientLine]
  rw [Receiver.read, htext, hcarried.cstr_datagram, Option.bind_some,
    readMulticast_newClient hcarried.readable]

theorem read_clientReply (hid : IsInt id) (haddr : IsAddress addr) (hport : IsInt port) :
    Receiver.serviceInfo.read (padX (clientReply id addr port)) =
      some (.clientReply id addr port) := by
  have hcarried : Carried clientReplyLine.template [.int id, .str addr, .int port] :=
    clientReplyLine.carried
      (.cons hid (.cons ⟨rfl, rfl, haddr⟩ (.cons hport .nil)))
  have hscan := Template.sscanf_eq
    (f := "LEADER:YOUR_ID:%d:SERVER_IP:%15[^:]:SERVER_PORT:%d") rfl hcarried.readable
  rw [Receiver.read, readServiceInfo, clientReply, hcarried.padX rfl]
  simp only [hscan]
  rfl

theorem read_indexReply {index : ℤ} (haddr : IsAddress addr) (hport : IsInt port)
    (hindex : IsInt index) :
    Receiver.index.read (padX (indexReply addr port index)) =
      some (.indexReply addr port index) := by
  rw [Receiver.read, readIndexReply_padX haddr hport hindex]
  rfl

/-- The frame that carries `CLIENT:sender:dest:text`. -/
theorem carried_client {selfId destId : ℤ} {message : Text} (hid : IsInt selfId)
    (hdest : IsInt destId) (hne : message ≠ []) (hline : '\n' ∉ message)
    (hnul : '\x00' ∉ message) (hlength : message.length ≤ bufferSize - 128) :
    Carried clientTemplate [.int selfId, .int destId, .str message] := by
  have hkey : (text "CLIENT:").any isSpace = false ∧ '\n' ∉ text "CLIENT:" ∧
      '\x00' ∉ text "CLIENT:" ∧ (text "CLIENT:").length = 7 := by decide
  have h₁ := hid.length_le
  have h₂ := hdest.length_le
  refine ⟨by simp [clientTemplate], ?_, ?_, ?_, ?_⟩
  · simp [clientTemplate, hkey, hid, hdest, hne, hline, isSpace, Char.isDigit]
  · simp [clientTemplate, hkey, hne, hline, intText_ne_nil, not_mem_intText,
      (settled_intText _).1, (settled_of_not_mem hline).1]
  · simp [clientTemplate, hkey, hnul, not_nul_of_mem_intText]
  · simp only [clientTemplate, Template.text_cons, Template.text_nil, text_int, text_str,
      List.length_append, List.length_cons, List.length_nil, hkey, bufferSize] at hlength ⊢
    omega

/-- The request for an index is a line for the ID 0. -/
theorem read_getIndex {selfId : ℤ} (hid : IsInt selfId) :
    (Receiver.connection fromLeader).read (padX (getIndex selfId)) =
      some (.client selfId 0 Server.getIndex) := by
  have hcarried : Carried clientTemplate [.int selfId, .int 0, .str Server.getIndex] :=
    carried_client hid (by decide) (by decide) (by decide) (by decide) (by decide)
  have htext : getIndex selfId =
      clientTemplate.text [.int selfId, .int 0, .str Server.getIndex] ++ emptyLine := by
    rw [getIndex_eq, show text ":0:GET_INDEX" = [':'] ++ (intText 0 ++ text ":GET_INDEX") by decide]
    simp [clientTemplate, Server.getIndex]
    rfl
  have := hcarried.length_message_lt
  rw [Receiver.read, htext, take_padX (by omega), hcarried.frameBody, Option.bind_some,
    readConnection_client hcarried.readable]

/-- A typed line ends with its newline, or where `fgets` stopped. -/
theorem read_client {selfId destId : ℤ} {message newline : Text} (hid : IsInt selfId)
    (hdest : IsInt destId) (hne : message ≠ []) (hline : '\n' ∉ message)
    (hnul : '\x00' ∉ message) (hnewline : newline = [] ∨ newline = ['\n'])
    (hfgets : (intText destId ++ ':' :: message ++ newline).length ≤ bufferSize - 128) :
    (Receiver.connection fromLeader).read
        (cstr (padX (unicast selfId (intText destId ++ ':' :: message ++ newline)))) =
      some (.client selfId destId message) := by
  have hlength : message.length ≤ bufferSize - 128 := by
    simp only [List.length_append, List.length_cons] at hfgets
    omega
  have hcarried : Carried clientTemplate [.int selfId, .int destId, .str message] :=
    carried_client hid hdest hne hline hnul hlength
  have htext : unicast selfId (intText destId ++ ':' :: message ++ newline) =
      clientTemplate.text [.int selfId, .int destId, .str message] ++ emptyLine ++ newline := by
    rw [unicast_eq]
    rcases hnewline with rfl | rfl <;> simp [clientTemplate, emptyLine]
  have hnul' : '\x00' ∉ unicast selfId (intText destId ++ ':' :: message ++ newline) := by
    have hkey : '\x00' ∉ text "CLIENT:" := by decide
    rw [unicast_eq]
    rcases hnewline with rfl | rfl <;> simp [hkey, hnul, not_nul_of_mem_intText, emptyLine]
  have hshort : (unicast selfId (intText destId ++ ':' :: message ++ newline)).length <
      bufferSize := by
    have hkey : (text "CLIENT:").length = 7 := by decide
    have := hid.length_le
    rw [unicast_eq]
    simp only [List.length_append, hkey, emptyLine, List.length_cons, List.length_nil,
      bufferSize] at hfgets ⊢
    omega
  rw [Receiver.read, take_cstr_padX hnul' hshort, htext, List.append_assoc, hcarried.frameBody,
    Option.bind_some, readConnection_client hcarried.readable]

end Kinds

/-- The addresses in a message. -/
def Message.addresses : Message → List Text
  | .joinReply _ addr _ _ => [addr]
  | .updateFromLeader addr _ _ => [addr]
  | .knowNewLeader _ addr _ _ successorAddr _ => [addr, successorAddr]
  | .clientReply _ addr _ => [addr]
  | .indexReply ip _ _ => [ip]
  | _ => []

section RoundTrip
variable {r : Receiver} {m : Message} {bytes received : Text}

/-- A receiver finds the branch and the fields. -/
theorem Encodes.read (h : Encodes r m bytes) (haddresses : ∀ a ∈ m.addresses, ¬ emptyLine <:+: a) :
    r.read bytes = some m := by
  have haddress : ∀ {a : Text}, a ∈ m.addresses → IsField a → IsAddress a :=
    fun hmem ha => ⟨ha, haddresses _ hmem⟩
  cases h with
  | joinReply hid haddr hport hsuccessor =>
      exact read_joinReply hid (haddress List.mem_cons_self haddr) hport hsuccessor
  | updateFromLeader haddr hid hport =>
      exact read_updateFromLeader (haddress List.mem_cons_self haddr) hid hport
  | knowNewLeader hid haddr hport hsuccessor hsuccessorAddr hsuccessorPort =>
      exact read_knowNewLeader hid (haddress List.mem_cons_self haddr) hport hsuccessor
        (haddress (List.mem_cons_of_mem _ List.mem_cons_self) hsuccessorAddr) hsuccessorPort
  | vote hid => exact read_vote hid.isInt
  | leader hid => exact read_leader hid.isInt
  | heartbeat hid => exact read_heartbeat hid
  | leaderHeartbeat hid => exact read_leaderHeartbeat hid
  | leaderDiscovery hid hport => exact read_leaderDiscovery hid hport
  | whoIsLeader hid hport => exact read_whoIsLeader hid hport
  | newClient hport => exact read_newClient hport
  | clientReply hid haddr hport =>
      exact read_clientReply hid (haddress List.mem_cons_self haddr) hport
  | indexReply hip hport hindex =>
      exact read_indexReply (haddress List.mem_cons_self hip) hport hindex
  | getIndex hid => exact read_getIndex hid
  | client hid hdest hne hline hnul hnewline hfgets =>
      exact read_client hid hdest hne hline hnul hnewline hfgets

/-- An address that is read lies in the frame. -/
theorem infix_of_sscanf {read a : Text} {f : String} {args : List Arg}
    (hscan : sscanf read f = args) (ha : .str a ∈ args) : a <:+: read := by
  rw [← hscan] at ha
  exact infix_of_mem_scan ha

/-- The addresses in a frame. -/
def Frame.addresses : Frame → List Text
  | .updateFromLeader s1IP _ _ => [s1IP]
  | .knowNewLeader _ nlIP _ _ sIP _ => [nlIP, sIP]
  | _ => []

theorem infix_of_parseFrame {fromLeader : Bool} {read a : Text}
    (ha : a ∈ (parseFrame fromLeader read).addresses) : a <:+: read := by
  unfold parseFrame at ha
  split at ha
  · rename_i s1IP s1ID s1PORT hscan
    obtain rfl := List.mem_singleton.mp ha
    exact infix_of_sscanf hscan (by simp)
  · split at ha
    · cases ha
    · split at ha
      · cases ha
      · split at ha
        · rename_i nlID nlIP nlPORT sID sIP sPORT hscan
          rcases List.mem_pair.mp ha with rfl | rfl
          · exact infix_of_sscanf hscan (by simp)
          · exact infix_of_sscanf hscan (by simp)
        · split at ha
          · cases ha
          · cases ha

theorem infix_of_readConnection {fromLeader : Bool} {read a : Text}
    (h : readConnection fromLeader read = some m) (ha : a ∈ m.addresses) : a <:+: read := by
  refine @infix_of_parseFrame fromLeader read a ?_
  unfold readConnection at h
  split at h
  · rename_i hparse
    cases h
    rw [hparse]
    exact ha
  · cases h
    cases ha
  · split at h
    · cases h
      cases ha
    · split at h
      · cases h
        cases ha
      · cases h
  · rename_i hparse
    cases h
    rw [hparse]
    exact ha
  · cases h
    cases ha
  · cases h

theorem infix_of_readJoinReply {buf a : Text} (h : readJoinReply buf = some m)
    (ha : a ∈ m.addresses) : a <:+: buf := by
  unfold readJoinReply at h
  split at h
  · rename_i id successorIP mPORT ids hscan
    cases h
    obtain rfl := List.mem_singleton.mp ha
    exact infix_of_sscanf hscan (by simp)
  · cases h

/-- The messages of the group. -/
theorem readMulticast_eq_some {leads : Bool} {buf : Text} (h : readMulticast leads buf = some m) :
    (∃ id port, m = .leaderDiscovery id port) ∨ (∃ id port, m = .whoIsLeader id port) ∨
      (∃ port, m = .newClient port) ∨ ∃ id, m = .heartbeat id := by
  unfold readMulticast at h
  split at h
  · split at h
    · cases h
      exact Or.inl ⟨_, _, rfl⟩
    · split at h
      · cases h
        exact Or.inr (Or.inl ⟨_, _, rfl⟩)
      · split at h
        · cases h
          exact Or.inr (Or.inr (Or.inl ⟨_, rfl⟩))
        · cases h
  · split at h
    · cases h
      exact Or.inr (Or.inr (Or.inr ⟨_, rfl⟩))
    · cases h

theorem addresses_of_readMulticast {leads : Bool} {buf : Text}
    (h : readMulticast leads buf = some m) : m.addresses = [] := by
  rcases readMulticast_eq_some h with ⟨id, port, rfl⟩ | ⟨id, port, rfl⟩ | ⟨port, rfl⟩ | ⟨id, rfl⟩
  · rfl
  · rfl
  · rfl
  · rfl

/-- **No address that a receiver reads has an empty line.** -/
theorem not_emptyLine_of_read {a : Text} (h : r.read received = some m) (ha : a ∈ m.addresses) :
    ¬ emptyLine <:+: a := by
  intro hempty
  cases r with
  | discovery =>
      obtain ⟨body, hbody, h⟩ := Option.bind_eq_some_iff.mp h
      exact not_emptyLine_of_frameBody hbody (hempty.trans (infix_of_readJoinReply h ha))
  | connection fromLeader =>
      obtain ⟨body, hbody, h⟩ := Option.bind_eq_some_iff.mp h
      exact not_emptyLine_of_frameBody hbody (hempty.trans (infix_of_readConnection h ha))
  | multicast leads =>
      obtain ⟨body, -, h⟩ := Option.bind_eq_some_iff.mp h
      rw [addresses_of_readMulticast h] at ha
      cases ha
  | serviceInfo =>
      obtain ⟨info, hinfo, rfl⟩ := Option.map_eq_some_iff.mp h
      rw [readServiceInfo] at hinfo
      split at hinfo
      · cases hinfo
      · rename_i body hbody
        split at hinfo
        · rename_i selfId serverIp serverPort hscan
          cases hinfo
          obtain rfl := List.mem_singleton.mp ha
          exact not_emptyLine_of_frameBody hbody
            (hempty.trans (infix_of_sscanf hscan (by simp)))
        · cases hinfo
  | index =>
      obtain ⟨joined, hjoined, rfl⟩ := Option.map_eq_some_iff.mp h
      rw [readIndexReply] at hjoined
      split at hjoined
      · cases hjoined
      · rename_i body hbody
        split at hjoined
        · rename_i groupIp groupPort clkIndex hscan
          cases hjoined
          obtain rfl := List.mem_singleton.mp ha
          exact not_emptyLine_of_frameBody hbody
            (hempty.trans (infix_of_sscanf hscan (by simp)))
        · cases hjoined

/-- **The receiver of a message finds its branch and its fields exactly when no address in
it has an empty line.** -/
theorem Encodes.read_iff (h : Encodes r m bytes) :
    r.read bytes = some m ↔ ∀ a ∈ m.addresses, ¬ emptyLine <:+: a :=
  ⟨fun hread _ ha => not_emptyLine_of_read hread ha, h.read⟩

end RoundTrip

/-! ## What the receiver does -/

/-- What a server does with a message on connection `i`. -/
def Message.act (env : Env) (s : Server) (i : Socket) : Message → Except Fault Server
  | .updateFromLeader addr id port => newSuccessor env s addr id port
  | .client senderId destId message =>
      (handleClientMessage env s senderId destId message i).map Prod.snd
  | .vote id => lcrElection env s (text "VOTE") id >>= fun r => actOnElection env r.1 r.2
  | .leader id => lcrElection env s (text "LEADER") id >>= fun r => actOnElection env r.1 r.2
  | .knowNewLeader id addr port successorId successorAddr successorPort =>
      handleKnowNewLeader env s i id addr port successorId successorAddr successorPort
  | .heartbeat id => .ok (s.updateHeartbeat env id)
  | _ => .ok s

/-- What a leader does with a message on the multicast socket. -/
def Message.admit (env : Env) (s : Server) (senderAddr : Text) :
    Message → Except Fault (Socket × Server)
  | .leaderDiscovery id port => newServer env s id port senderAddr
  | .whoIsLeader id port => ringReconstruction env s id port senderAddr
  | .newClient port => ChatRing.newClient env s port senderAddr
  | _ => .ok (errorReturn, s)

section Handlers
variable {env : Env} {s : Server} {i : Socket} {received : Text} {m : Message}

theorem dispatch_of_read {body : Text}
    (h : readConnection (i = s.ltcpSocket) body = some m) :
    dispatch env s i body = m.act env s i := by
  unfold readConnection at h
  split at h
  · rename_i hparse
    cases h
    rw [dispatch, hparse]
    rfl
  · rename_i hparse
    cases h
    rw [dispatch, hparse]
    rfl
  · rename_i keyword predId hparse
    rw [dispatch, hparse]
    simp only [handleElection_eq]
    split at h
    · rename_i hkeyword
      cases h
      rw [hkeyword]
      rfl
    · split at h
      · rename_i hkeyword
        cases h
        rw [hkeyword]
        rfl
      · cases h
  · rename_i hparse
    cases h
    rw [dispatch, hparse]
    rfl
  · rename_i hparse
    cases h
    rw [dispatch, hparse]
    rfl
  · cases h

theorem handleSocketChange_of_read
    (h : (Receiver.connection (i = s.ltcpSocket)).read received = some m) :
    handleSocketChange env s i received = m.act env s i := by
  obtain ⟨body, hbody, h⟩ := Option.bind_eq_some_iff.mp h
  have hne : received ≠ [] := by
    rintro rfl
    cases hbody
  rw [handleSocketChange, if_neg hne, hbody]
  exact dispatch_of_read h

theorem peerMcastReceive_of_read {body : Text} (senderAddr : Text)
    (h : readMulticast true body = some m) :
    peerMcastReceive env s body senderAddr = m.admit env s senderAddr := by
  -- the receiver's own matches are opened only once the text has been read
  simp only [readMulticast] at h
  split at h
  · rename_i hscan
    cases h
    rw [peerMcastReceive, hscan]
    rfl
  · rename_i hdiscovery
    split at h
    · rename_i hscan
      cases h
      rw [peerMcastReceive]
      split
      · rename_i id port hdiscovered
        exact absurd hdiscovered (hdiscovery id port)
      · rw [hscan]
        rfl
    · rename_i hwho
      split at h
      · rename_i hscan
        cases h
        rw [peerMcastReceive]
        split
        · rename_i id port hdiscovered
          exact absurd hdiscovered (hdiscovery id port)
        · split
          · rename_i id port hfound
            exact absurd hfound (hwho id port)
          · rw [hscan]
            rfl
      · cases h

theorem handleMcastReceive_of_read (hleads : s.self.leader = 1) (senderAddr : Text)
    (h : (Receiver.multicast true).read received = some m) :
    handleMcastReceive env s (some received) senderAddr = m.admit env s senderAddr := by
  obtain ⟨body, hbody, hread⟩ := Option.bind_eq_some_iff.mp h
  cases received with
  | nil => cases hbody
  | cons c received =>
      simp only [handleMcastReceive, hbody, if_pos hleads,
        peerMcastReceive_of_read senderAddr hread]

/-- A follower compares the ID with that of its leader. -/
theorem handleMcastReceive_of_heartbeat (hleads : s.self.leader ≠ 1) (senderAddr : Text)
    (h : (Receiver.multicast false).read received = some m) {first : ServerInfo}
    {rest : List ServerInfo} (hnext : s.next = first :: rest) :
    ∃ id, m = .heartbeat id ∧ handleMcastReceive env s (some received) senderAddr =
      .ok (errorReturn, if id = first.id then
        { s with next := { first with lastHeartbeat := env.now } :: rest } else s) := by
  obtain ⟨body, hbody, h⟩ := Option.bind_eq_some_iff.mp h
  simp only [readMulticast] at h
  split at h
  · rename_i id hscan
    cases h
    refine ⟨id, rfl, ?_⟩
    cases received with
    | nil => cases hbody
    | cons c received =>
        simp only [handleMcastReceive, hbody, if_neg hleads, hscan, hnext]
        split <;> rfl
  · cases h

/-- A server that finds its leader takes it and its successor into its list. -/
theorem readReply_of_read {d : Discovery} {id port successorId : ℤ} {addr : Text}
    (h : Receiver.discovery.read received = some (.joinReply id addr port successorId)) :
    readReply env d i received = (joinSuccessor env { d.server with
      self := { d.server.self with leader := 0 }
      next := appendServer env.now d.server.self d.server.next id d.addressBuffer
        d.server.self.port 1 i } i addr port successorId).map fun r => .returned r.1 r.2 := by
  obtain ⟨body, hbody, h⟩ := Option.bind_eq_some_iff.mp h
  have hne : received ≠ [] := by
    rintro rfl
    cases hbody
  unfold readJoinReply at h
  split at h
  · rename_i hscan
    cases h
    rw [readReply, if_neg hne, hbody]
    simp only [hscan]
    exact (map_eq_pure_bind _ _).symm
  · cases h

end Handlers

/-! ## A ring of one server, and an address with an empty line -/

/-- The zeros that the only other server is told. -/
theorem read_iff_zeros :
    (Receiver.connection false).read
          (padX (knowNewLeader 7 (text "10.0.0.1") 4041 0 (text "0.0.0.0") 0)) =
        some (.knowNewLeader 7 (text "10.0.0.1") 4041 0 (text "0.0.0.0") 0) ↔
      ∀ a ∈ (Message.knowNewLeader 7 (text "10.0.0.1") 4041 0 (text "0.0.0.0") 0).addresses,
        ¬ emptyLine <:+: a := by
  have haddr : IsField (text "10.0.0.1") := ⟨by decide, by decide, by decide, by decide⟩
  have hzeros : IsField (text "0.0.0.0") := ⟨by decide, by decide, by decide, by decide⟩
  exact Encodes.read_iff
    (.knowNewLeader (by decide) haddr (by decide) (by decide) hzeros (by decide))

theorem address_with_empty_line :
    IsField (text "10\n\n0") ∧
      Encodes (.connection true) (.updateFromLeader (text "10\n\n0") 9 4043)
          (padX (updateFromLeader (text "10\n\n0") 9 4043)) ∧
        (Receiver.connection true).read (padX (updateFromLeader (text "10\n\n0") 9 4043)) ≠
          some (.updateFromLeader (text "10\n\n0") 9 4043) := by
  have haddr : IsField (text "10\n\n0") := ⟨by decide, by decide, by decide, by decide⟩
  refine ⟨haddr, .updateFromLeader haddr (by decide) (by decide), fun hread => ?_⟩
  have hempty : emptyLine <:+: text "10\n\n0" := by decide
  exact not_emptyLine_of_read hread List.mem_cons_self hempty

end ChatRing
