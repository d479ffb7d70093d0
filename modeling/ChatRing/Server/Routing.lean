import ChatRing.Server.Indices

/-!
# Chat messages and their recipients

A chat client registers with `GET_INDEX` under the ID that `new_client` assigned to it.
A line `d:text` is for the client registered as `d`, or for the whole group.  The table
also holds the connections of peer servers, and of clients that have not registered, under
the ID 0, and the same ID can be assigned twice.

## Main definitions

* `Registry` — a server, its accepted connections, and who has registered on them.
* `Registry.Routed` — a line reaches those it is for, and nobody else.

## Main results

* `Registry.routed_iff` — when a line is routed.
-/

namespace ChatRing
open CText

/-- The IDs that `new_client` assigns. -/
def IsClientId (k : ℤ) : Prop := 100 ≤ k ∧ k ≤ 1000

theorem isClientId_getRadomId (env : Env) : IsClientId (getRadomId env 100 1000) := by
  rw [IsClientId, getRadomId]
  omega

theorem IsClientId.ne_zero {k : ℤ} (h : IsClientId k) : k ≠ 0 := by
  have := h.1
  omega

/-- A server, and the IDs under which chat clients have registered on its connections. -/
structure Registry where
  tracked : Tracked
  registered : Socket → Option ℤ

namespace Registry

def server (x : Registry) : Server := x.tracked.server

/-- Registrations last as long as the connection. -/
def registeredAfter (x : Registry) (e : Event) (y : Tracked) (fd : Socket) : Option ℤ :=
  if fd ∈ y.accepted then
    match x.server.indexRequested e with
    | some (i, senderId) => if fd = i then some senderId else x.registered fd
    | none => x.registered fd
  else none

def step (x : Registry) (e : Event) : Option Registry :=
  (x.tracked.step e).map fun y => ⟨y, x.registeredAfter e y⟩

/-- The loop begins: nobody is connected. -/
structure Starts (x : Registry) : Prop where
  id : 1 ≤ x.server.self.id
  clientArray : x.server.clientArray = []
  accepted : x.tracked.accepted = ∅
  registered : ∀ fd, x.registered fd = none
  groupId : 20000 ≤ x.server.groupId

end Registry

/-- A `CLIENT` frame, as it is read. -/
structure ChatFrame where
  env : Env
  i : Socket
  received : Text
  senderId : ℤ
  destId : ℤ
  message : Text

namespace Registry

/-- A registered client sends the frame, under its ID, and the system takes what the
server forwards. -/
structure Typed (x : Registry) (f : ChatFrame) : Prop where
  registered : x.registered f.i = some f.senderId
  read : ∃ read, frameBody (f.received.take bufferSize) = some read ∧
    parseFrame (f.i = x.server.ltcpSocket) read = .client f.senderId f.destId f.message
  sends : f.env.Sends

/-- What the server sends, and nothing else changes. -/
def Forwards (x : Registry) (f : ChatFrame) (recipients : List Socket) (bytes : Text) : Prop :=
  x.server.handle (.readable f.env f.i f.received) =
    .ok { x.server with out := x.server.out ++ recipients.map fun fd => .send fd bytes }

/-- The line reaches the client that it names, or all other clients, or nobody. -/
def Routed (x : Registry) (f : ChatFrame) : Prop :=
  (∀ fd, x.registered fd = some f.destId →
      x.Forwards f [fd] (forwarded f.senderId f.message)) ∧
    ((∀ fd, x.registered fd ≠ some f.destId) → f.destId = x.server.groupId →
      ∃ recipients : List Socket, recipients.Nodup ∧
        (∀ fd, fd ∈ recipients ↔ (x.registered fd).isSome ∧ fd ≠ f.i) ∧
          x.Forwards f recipients (forwardedToGroup f.senderId x.server.groupId f.message)) ∧
    ((∀ fd, x.registered fd ≠ some f.destId) → f.destId ≠ x.server.groupId →
      x.Forwards f [] [])

/-- The connections that `handle_client_message` takes for the other members. -/
def others (x : Registry) (f : ChatFrame) : List Socket :=
  (x.server.clientArray.filter fun c => c.id ≠ f.senderId).map ClientInfo.socket

/-- The first entry with the destination's ID. -/
def destClient (x : Registry) (f : ChatFrame) : Option ClientInfo :=
  x.server.clientArray.find? fun c => c.id = f.destId

/-- The table points to those the line is for. -/
structure TableFits (x : Registry) (f : ChatFrame) : Prop where
  message : f.message ≠ Server.getIndex
  client : ∀ fd, x.registered fd = some f.destId →
    (forwarded f.senderId f.message).length < bufferSize ∧
      ∃ c, x.destClient f = some c ∧ c.socket = fd
  group : (∀ fd, x.registered fd ≠ some f.destId) → f.destId = x.server.groupId →
    (forwardedToGroup f.senderId x.server.groupId f.message).length < bufferSize ∧
      (x.others f).Nodup ∧ ∀ fd, fd ∈ x.others f ↔ (x.registered fd).isSome ∧ fd ≠ f.i
  nobody : (∀ fd, x.registered fd ≠ some f.destId) → f.destId ≠ x.server.groupId →
    x.destClient f = none

/-- No other text, no second client with the ID, and nobody else in the table. -/
structure Clear (x : Registry) (f : ChatFrame) : Prop where
  message : f.message ≠ Server.getIndex
  client : ∀ fd, x.registered fd = some f.destId →
    (forwarded f.senderId f.message).length < bufferSize ∧
      ∀ fd', x.registered fd' = some f.destId → fd' = fd
  group : (∀ fd, x.registered fd ≠ some f.destId) → f.destId = x.server.groupId →
    (forwardedToGroup f.senderId x.server.groupId f.message).length < bufferSize ∧
      ∀ fd ∈ x.tracked.accepted, fd ≠ f.i → ∃ k, x.registered fd = some k ∧ k ≠ f.senderId
  nobody : (∀ fd, x.registered fd ≠ some f.destId) → f.destId = 0 →
    ∀ fd ∈ x.tracked.accepted, (x.registered fd).isSome

end Registry

/-! ## What the server forwards -/

section Forwarding
variable {env : Env} {s : Server} {senderId destId : ℤ} {message : Text}

theorem sendIgnored_of_sends (henv : env.Sends) (s : Server) (fd : Socket) (bytes : Text) :
    sendIgnored env s fd bytes = { s with out := s.out ++ [.send fd bytes] } := by
  rw [sendIgnored, Server.send, if_pos (henv _ _ _)]
  rfl

theorem foldl_sendIgnored_of_sends (henv : env.Sends) (bytes : Text) (l : List ClientInfo)
    (s : Server) : l.foldl (fun s c => sendIgnored env s c.socket bytes) s =
      { s with out := s.out ++ (l.map ClientInfo.socket).map fun fd => .send fd bytes } := by
  induction l generalizing s with
  | nil => simp
  | cons c l ih =>
      rw [List.foldl_cons, sendIgnored_of_sends henv, ih]
      simp

/-- Nobody has the ID. -/
theorem handleClientMessage_nobody (hmessage : message ≠ Server.getIndex)
    (hnone : (s.clientArray.find? fun c => c.id = destId) = none) (hgroup : destId ≠ s.groupId)
    (i : Socket) :
    (handleClientMessage env s senderId destId message i).map Prod.snd = .ok s := by
  rw [handleClientMessage, if_neg (show message ≠ text "GET_INDEX" from hmessage), forwardToClient,
    hnone]
  simp only [Except.ok_bind, if_neg hgroup]
  rfl

/-- An entry has the ID, which is not the group's. -/
theorem handleClientMessage_client {c : ClientInfo} (henv : env.Sends)
    (hmessage : message ≠ Server.getIndex)
    (hfind : (s.clientArray.find? fun c => c.id = destId) = some c) (hgroup : destId ≠ s.groupId)
    (i : Socket) :
    (handleClientMessage env s senderId destId message i).map Prod.snd =
      if (forwarded senderId message).length < bufferSize then
        .ok { s with out := s.out ++ [.send c.socket (forwarded senderId message)] }
      else .error .outOfBounds := by
  rw [handleClientMessage, if_neg (show message ≠ text "GET_INDEX" from hmessage), forwardToClient,
    hfind]
  simp only [printSendBuf]
  split
  · simp only [Except.ok_bind, sendIgnored_of_sends henv, pure_bind, if_neg hgroup]
    rfl
  · rfl

/-- The line is for the group, and no entry has its ID. -/
theorem handleClientMessage_group (henv : env.Sends) (hmessage : message ≠ Server.getIndex)
    (hnone : (s.clientArray.find? fun c => c.id = s.groupId) = none) (i : Socket) :
    (handleClientMessage env s senderId s.groupId message i).map Prod.snd =
      if (forwardedToGroup senderId s.groupId message).length < bufferSize then
        .ok { s with
          out := s.out ++
            ((s.clientArray.filter fun c => c.id ≠ senderId).map ClientInfo.socket).map
              fun fd => .send fd (forwardedToGroup senderId s.groupId message) }
      else .error .outOfBounds := by
  rw [handleClientMessage, if_neg (show message ≠ text "GET_INDEX" from hmessage), forwardToClient,
    hnone]
  simp only [Except.ok_bind, if_true, printSendBuf]
  split
  · simp only [Except.ok_bind, foldl_sendIgnored_of_sends henv]
    rfl
  · rfl

end Forwarding

namespace Registry
variable {x y : Registry} {f : ChatFrame} {recipients : List Socket} {bytes : Text}

/-- The handler of a frame is that of its message. -/
theorem Typed.handle_eq (hf : x.Typed f) : x.server.handle (.readable f.env f.i f.received) =
    (handleClientMessage f.env x.server f.senderId f.destId f.message f.i).map Prod.snd := by
  obtain ⟨read, hread, hparse⟩ := hf.read
  have hne : f.received ≠ [] := by
    intro hnil
    rw [hnil] at hread
    cases hread
  simp only [Server.handle, handleSocketChange, if_neg hne, hread, dispatch, hparse]

/-- The frame makes the server send `sent`. -/
theorem forwards_iff {sent : List Output}
    (hsent : x.server.handle (.readable f.env f.i f.received) =
      .ok { x.server with out := x.server.out ++ sent }) :
    x.Forwards f recipients bytes ↔ sent = recipients.map fun fd => .send fd bytes := by
  rw [Forwards, hsent]
  constructor
  · intro h
    exact List.append_cancel_left (congrArg Server.out (Except.ok.inj h))
  · intro h
    rw [h]

/-- A frame whose text is a request takes an index. -/
theorem not_forwards_of_getIndex (hf : x.Typed f) (hmessage : f.message = Server.getIndex) :
    ¬ x.Forwards f recipients bytes := by
  intro h
  rw [Forwards, hf.handle_eq, show f.message = text "GET_INDEX" from hmessage,
    handleClientMessage_getIndex, if_pos (hf.sends _ _ _)] at h
  have hclk : x.server.clkIndex + 1 = x.server.clkIndex :=
    congrArg Server.clkIndex (Except.ok.inj h)
  omega

theorem Routed.exists_forwards (h : x.Routed f) :
    ∃ recipients bytes, x.Forwards f recipients bytes := by
  obtain ⟨hclient, hgroup, hnobody⟩ := h
  by_cases hreg : ∃ fd, x.registered fd = some f.destId
  · obtain ⟨fd, hfd⟩ := hreg
    exact ⟨_, _, hclient fd hfd⟩
  · have hnone : ∀ fd, x.registered fd ≠ some f.destId := fun fd hfd => hreg ⟨fd, hfd⟩
    by_cases hdest : f.destId = x.server.groupId
    · obtain ⟨recipients, -, -, h⟩ := hgroup hnone hdest
      exact ⟨_, _, h⟩
    · exact ⟨_, _, hnobody hnone hdest⟩

/-- The IDs are in their ranges: those of clients, 0, and the group's. -/
structure Ranged (x : Registry) : Prop where
  groupId : 20000 ≤ x.server.groupId
  entries : ∀ c ∈ x.server.clientArray, c.id = 0 ∨ IsClientId c.id
  registered : ∀ fd k, x.registered fd = some k → IsClientId k

theorem Ranged.ne_groupId (hx : x.Ranged) {k : ℤ} (hk : k = 0 ∨ IsClientId k) :
    k ≠ x.server.groupId := by
  have := hx.groupId
  rcases hk with rfl | ⟨-, hle⟩ <;> omega

/-- No entry has the ID of the group. -/
theorem Ranged.find?_groupId (hx : x.Ranged) :
    (x.server.clientArray.find? fun c => c.id = x.server.groupId) = none := by
  rw [List.find?_eq_none]
  intro c hc
  simpa using hx.ne_groupId (hx.entries c hc)

section Clauses
variable (hx : x.Ranged) (hf : x.Typed f) (hmessage : f.message ≠ Server.getIndex)
include hf hmessage

theorem forwards_client_iff (hgroup : f.destId ≠ x.server.groupId) (fd : Socket) :
    x.Forwards f [fd] (forwarded f.senderId f.message) ↔
      (forwarded f.senderId f.message).length < bufferSize ∧
        ∃ c, x.destClient f = some c ∧ c.socket = fd := by
  cases hfind : x.destClient f with
  | none =>
      have hsent := hf.handle_eq.trans (handleClientMessage_nobody hmessage hfind hgroup f.i)
      have hnobody : x.server.handle (.readable f.env f.i f.received) =
          .ok { x.server with out := x.server.out ++ [] } := by rw [hsent, List.append_nil]
      rw [forwards_iff hnobody]
      simp
  | some c =>
      have hsent := hf.handle_eq.trans
        (handleClientMessage_client hf.sends hmessage hfind hgroup f.i)
      by_cases hfits : (forwarded f.senderId f.message).length < bufferSize
      · rw [if_pos hfits] at hsent
        rw [forwards_iff hsent]
        simp [hfits]
      · rw [if_neg hfits] at hsent
        rw [Forwards, hsent]
        simp [hfits]

theorem forwards_nobody_iff (hgroup : f.destId ≠ x.server.groupId) :
    x.Forwards f [] [] ↔ x.destClient f = none := by
  cases hfind : x.destClient f with
  | none =>
      have hsent := hf.handle_eq.trans (handleClientMessage_nobody hmessage hfind hgroup f.i)
      refine iff_of_true ?_ rfl
      rw [Forwards, hsent, List.map_nil, List.append_nil]
  | some c =>
      have hsent := hf.handle_eq.trans
        (handleClientMessage_client hf.sends hmessage hfind hgroup f.i)
      split at hsent
      · rw [forwards_iff hsent]
        simp
      · rw [Forwards, hsent]
        simp

include hx in
theorem forwards_group_iff (hgroup : f.destId = x.server.groupId) :
    x.Forwards f recipients (forwardedToGroup f.senderId x.server.groupId f.message) ↔
      (forwardedToGroup f.senderId x.server.groupId f.message).length < bufferSize ∧
        recipients = x.others f := by
  have hsent := hf.handle_eq
  rw [hgroup, handleClientMessage_group hf.sends hmessage hx.find?_groupId] at hsent
  by_cases hfits : (forwardedToGroup f.senderId x.server.groupId f.message).length < bufferSize
  · rw [if_pos hfits] at hsent
    have hinj : Function.Injective fun fd =>
        Output.send fd (forwardedToGroup f.senderId x.server.groupId f.message) :=
      fun _ _ h => (Output.send.inj h).1
    rw [forwards_iff hsent, (List.map_injective_iff.mpr hinj).eq_iff]
    exact ⟨fun h => ⟨hfits, h.symm⟩, fun h => h.2.symm⟩
  · rw [if_neg hfits] at hsent
    rw [Forwards, hsent]
    simp [hfits]

end Clauses

/-- **A line is routed exactly when the table points to those it is for.** -/
theorem routed_iff_tableFits (hx : x.Ranged) (hf : x.Typed f) : x.Routed f ↔ x.TableFits f := by
  constructor
  · intro h
    have hmessage : f.message ≠ Server.getIndex := by
      intro hget
      obtain ⟨recipients, bytes, hforwards⟩ := h.exists_forwards
      exact not_forwards_of_getIndex hf hget hforwards
    obtain ⟨hclient, hgroup, hnobody⟩ := h
    refine ⟨hmessage, fun fd hfd => ?_, fun hnone hdest => ?_, fun hnone hdest => ?_⟩
    · have hne := hx.ne_groupId (.inr (hx.registered fd _ hfd))
      exact (forwards_client_iff hf hmessage hne fd).mp (hclient fd hfd)
    · obtain ⟨recipients, hnodup, hmem, h⟩ := hgroup hnone hdest
      obtain ⟨hfits, rfl⟩ := (forwards_group_iff hx hf hmessage hdest).mp h
      exact ⟨hfits, hnodup, hmem⟩
    · exact (forwards_nobody_iff hf hmessage hdest).mp (hnobody hnone hdest)
  · intro h
    refine ⟨fun fd hfd => ?_, fun hnone hdest => ?_, fun hnone hdest => ?_⟩
    · have hne := hx.ne_groupId (.inr (hx.registered fd _ hfd))
      exact (forwards_client_iff hf h.message hne fd).mpr (h.client fd hfd)
    · obtain ⟨hfits, hnodup, hmem⟩ := h.group hnone hdest
      exact ⟨x.others f, hnodup, hmem, (forwards_group_iff hx hf h.message hdest).mpr ⟨hfits, rfl⟩⟩
    · exact (forwards_nobody_iff hf h.message hdest).mpr (h.nobody hnone hdest)

/-! ## An exact table -/

/-- The table is exact, and its IDs are those registered. -/
structure Known (x : Registry) : Prop where
  exact : x.tracked.Exact
  entries : ∀ c ∈ x.server.clientArray, c.id = (x.registered c.socket).getD 0
  accepted : ∀ fd, (x.registered fd).isSome → fd ∈ x.tracked.accepted

/-- The entry of an accepted connection. -/
theorem Known.exists_entry (hx : x.Known) {fd : Socket} (hfd : fd ∈ x.tracked.accepted) :
    ∃ c ∈ x.server.clientArray, c.socket = fd :=
  List.mem_map.mp ((hx.exact.2 fd).mpr hfd)

theorem Known.entry_of_registered (hx : x.Known) {fd : Socket} {k : ℤ}
    (hfd : x.registered fd = some k) : ∃ c ∈ x.server.clientArray, c.socket = fd ∧ c.id = k := by
  obtain ⟨c, hc, rfl⟩ := hx.exists_entry (hx.accepted fd (by rw [hfd]; rfl))
  exact ⟨c, hc, rfl, by rw [hx.entries c hc, hfd]; rfl⟩

/-- An ID other than 0 is registered on the connection of its entry. -/
theorem Known.registered_of_entry (hx : x.Known) {c : ClientInfo} (hc : c ∈ x.server.clientArray)
    (hne : c.id ≠ 0) : x.registered c.socket = some c.id := by
  have hid := hx.entries c hc
  cases hreg : x.registered c.socket with
  | none => exact absurd (by rw [hid, hreg]; rfl) hne
  | some k => rw [hid, hreg]; rfl

theorem mem_others (hx : x.Known) (fd : Socket) :
    fd ∈ x.others f ↔ fd ∈ x.tracked.accepted ∧ (x.registered fd).getD 0 ≠ f.senderId := by
  simp only [others, List.mem_map, List.mem_filter, decide_eq_true_eq]
  constructor
  · rintro ⟨c, ⟨hc, hne⟩, rfl⟩
    exact ⟨(hx.exact.2 _).mp (List.mem_map_of_mem hc), hx.entries c hc ▸ hne⟩
  · rintro ⟨hfd, hne⟩
    obtain ⟨c, hc, rfl⟩ := hx.exists_entry hfd
    exact ⟨c, ⟨hc, (hx.entries c hc).symm ▸ hne⟩, rfl⟩

/-- The first entry with a registered ID is that of its only connection. -/
theorem destClient_iff (hx : x.Known) (hr : x.Ranged) {fd : Socket}
    (hfd : x.registered fd = some f.destId) :
    (∀ fd', x.registered fd' = some f.destId → ∃ c, x.destClient f = some c ∧ c.socket = fd') ↔
      ∀ fd', x.registered fd' = some f.destId → fd' = fd := by
  constructor
  · intro h fd' hfd'
    obtain ⟨c, hc, rfl⟩ := h fd hfd
    obtain ⟨c', hc', rfl⟩ := h fd' hfd'
    rw [hc] at hc'
    cases hc'
    rfl
  · intro h fd' hfd'
    obtain ⟨c, hc, -, hid⟩ := hx.entry_of_registered hfd
    have hsome : (x.destClient f).isSome := by
      rw [destClient, List.find?_isSome]
      exact ⟨c, hc, decide_eq_true hid⟩
    obtain ⟨first, hfirst⟩ := Option.isSome_iff_exists.mp hsome
    have hdest : first.id = f.destId := by simpa using List.find?_some hfirst
    have hne : first.id ≠ 0 := by
      rw [hdest]
      exact (hr.registered fd _ hfd).ne_zero
    have hreg := hx.registered_of_entry (List.mem_of_find?_eq_some hfirst) hne
    exact ⟨first, hfirst, by rw [h fd' hfd', ← h first.socket (by rw [hreg, hdest])]⟩

/-- All other connections belong to registered clients. -/
theorem mem_others_iff (hx : x.Known) (hr : x.Ranged) (hf : x.Typed f) :
    (∀ fd, fd ∈ x.others f ↔ (x.registered fd).isSome ∧ fd ≠ f.i) ↔
      ∀ fd ∈ x.tracked.accepted, fd ≠ f.i → ∃ k, x.registered fd = some k ∧ k ≠ f.senderId := by
  have hsender : f.senderId ≠ 0 := (hr.registered _ _ hf.registered).ne_zero
  constructor
  · intro h fd hfd hne
    cases hreg : x.registered fd with
    | none =>
        have hmem : fd ∈ x.others f := by
          rw [mem_others hx, hreg]
          exact ⟨hfd, hsender.symm⟩
        have hsome := ((h fd).mp hmem).1
        rw [hreg] at hsome
        cases hsome
    | some k =>
        have hmem := (h fd).mpr ⟨by rw [hreg]; rfl, hne⟩
        rw [mem_others hx, hreg] at hmem
        exact ⟨k, rfl, hmem.2⟩
  · intro h fd
    rw [mem_others hx]
    constructor
    · rintro ⟨hfd, hid⟩
      have hne : fd ≠ f.i := by
        rintro rfl
        rw [hf.registered] at hid
        exact hid rfl
      obtain ⟨k, hk, -⟩ := h fd hfd hne
      exact ⟨by rw [hk]; rfl, hne⟩
    · rintro ⟨hsome, hne⟩
      have hfd := hx.accepted fd hsome
      obtain ⟨k, hk, hid⟩ := h fd hfd hne
      exact ⟨hfd, by rw [hk]; exact hid⟩

/-- No entry has an ID that nobody registered, unless it is 0. -/
theorem destClient_eq_none_iff (hx : x.Known) (hnone : ∀ fd, x.registered fd ≠ some f.destId) :
    x.destClient f = none ↔
      (f.destId = 0 → ∀ fd ∈ x.tracked.accepted, (x.registered fd).isSome) := by
  rw [destClient, List.find?_eq_none]
  constructor
  · intro h hzero fd hfd
    obtain ⟨c, hc, rfl⟩ := hx.exists_entry hfd
    rw [Option.isSome_iff_ne_none]
    intro hreg
    have hid : c.id = f.destId := by rw [hx.entries c hc, hreg, hzero]; rfl
    exact h c hc (decide_eq_true hid)
  · intro h c hc hdest
    have hid : c.id = f.destId := of_decide_eq_true hdest
    by_cases hzero : c.id = 0
    · have hsome := h (hid ▸ hzero) c.socket ((hx.exact.2 _).mp (List.mem_map_of_mem hc))
      obtain ⟨k, hk⟩ := Option.isSome_iff_exists.mp hsome
      have hentry := hx.entries c hc
      rw [hk] at hentry
      exact hnone c.socket (by rw [hk, ← hid, hentry]; rfl)
    · exact hnone c.socket (hid ▸ hx.registered_of_entry hc hzero)

/-- **In an exact table a line is clear exactly when the table points to those it is for.** -/
theorem tableFits_iff_clear (hx : x.Known) (hr : x.Ranged) (hf : x.Typed f) :
    x.TableFits f ↔ x.Clear f := by
  have hnodup : (x.others f).Nodup :=
    hx.exact.1.sublist (List.filter_sublist.map ClientInfo.socket)
  constructor
  · intro h
    refine ⟨h.message, fun fd hfd => ?_, fun hnone hdest => ?_, fun hnone hzero => ?_⟩
    · exact ⟨(h.client fd hfd).1,
        (destClient_iff hx hr hfd).mp fun fd' hfd' => (h.client fd' hfd').2⟩
    · obtain ⟨hfits, -, hmem⟩ := h.group hnone hdest
      exact ⟨hfits, (mem_others_iff hx hr hf).mp hmem⟩
    · have hdest : f.destId ≠ x.server.groupId := hr.ne_groupId (.inl hzero)
      exact (destClient_eq_none_iff hx hnone).mp (h.nobody hnone hdest) hzero
  · intro h
    refine ⟨h.message, fun fd hfd => ?_, fun hnone hdest => ?_, fun hnone hdest => ?_⟩
    · obtain ⟨hfits, honly⟩ := h.client fd hfd
      exact ⟨hfits, (destClient_iff hx hr hfd).mpr honly fd hfd⟩
    · obtain ⟨hfits, hall⟩ := h.group hnone hdest
      exact ⟨hfits, hnodup, (mem_others_iff hx hr hf).mpr hall⟩
    · exact (destClient_eq_none_iff hx hnone).mpr (h.nobody hnone)

/-! ## Runs -/

theorem step_eq_some {e : Event} (hstep : step x e = some y) :
    ∃ t, e.Possible x.server ∧ x.server.handle e = .ok t ∧ y.tracked = x.tracked.after e t ∧
      y.registered = x.registeredAfter e y.tracked := by
  obtain ⟨z, hz, rfl⟩ := Option.map_eq_some_iff.mp hstep
  obtain ⟨t, ht, rfl⟩ := Option.map_eq_some_iff.mp hz
  obtain ⟨hpossible, ht⟩ := Server.step_eq_some ht
  exact ⟨t, hpossible, ht, rfl, rfl⟩

/-- A client claims the ID that some server assigned to it. -/
def ClaimsAssigned (x : Registry) (e : Event) : Prop :=
  ∀ r ∈ x.server.indexRequested e, IsClientId r.2

instance (x : Registry) (e : Event) : Decidable (x.ClaimsAssigned e) :=
  inferInstanceAs (Decidable (∀ r ∈ x.server.indexRequested e, 100 ≤ r.2 ∧ r.2 ≤ 1000))

theorem registeredAfter_eq_some {e : Event} {z : Tracked} {fd : Socket} {k : ℤ}
    (h : x.registeredAfter e z fd = some k) : fd ∈ z.accepted ∧
      (x.server.indexRequested e = some (fd, k) ∨ x.registered fd = some k) := by
  rw [registeredAfter] at h
  split at h
  · rename_i hfd
    split at h
    · rename_i i senderId hrequest
      split at h
      · rename_i heq
        cases h
        exact ⟨hfd, .inl (by rw [hrequest, heq])⟩
      · exact ⟨hfd, .inr h⟩
    · exact ⟨hfd, .inr h⟩
  · cases h

/-- Without a request, an open connection stays registered as it is. -/
theorem registeredAfter_of_none {e : Event} {z : Tracked} {fd : Socket} (hfd : fd ∈ z.accepted)
    (hrequest : x.server.indexRequested e = none) :
    x.registeredAfter e z fd = x.registered fd := by
  rw [registeredAfter, if_pos hfd, hrequest]

theorem Ranged.step {e : Event} (hx : x.Ranged) (hclaims : x.ClaimsAssigned e)
    (hstep : step x e = some y) : y.Ranged := by
  obtain ⟨t, -, ht, htracked, hregistered⟩ := step_eq_some hstep
  have hserver : y.server = t := by rw [server, htracked]; rfl
  have hreg : ∀ fd k, y.registered fd = some k → IsClientId k := by
    intro fd k hk
    rw [hregistered] at hk
    rcases (registeredAfter_eq_some hk).2 with h | h
    · exact hclaims (fd, k) h
    · exact hx.registered fd k h
  rw [← hserver] at ht
  cases Server.handle_table ht with
  | same hrequest h =>
      exact ⟨h.groupId ▸ hx.groupId, fun c hc => hx.entries c (h.clientArray ▸ hc), hreg⟩
  | @entered socket ip _ h =>
      refine ⟨h.groupId ▸ hx.groupId, fun c hc => ?_, hreg⟩
      rw [h.clientArray] at hc
      rcases List.mem_append.mp hc with hc | hc
      · exact hx.entries c hc
      · rw [List.mem_singleton.mp hc]
        exact .inl rfl
  | removed hkeeps h =>
      refine ⟨h.groupId ▸ hx.groupId, fun c hc => ?_, hreg⟩
      rw [h.clientArray] at hc
      exact hx.entries c (List.mem_of_mem_eraseP hc)
  | @indexed env i received senderId _ hrequest h hout =>
      refine ⟨h.groupId ▸ hx.groupId, fun c hc => ?_, hreg⟩
      rw [h.clientArray] at hc
      obtain ⟨b, hb, rfl⟩ := List.mem_map.mp hc
      split
      · exact .inr (hclaims (i, senderId) hrequest)
      · exact hx.entries b hb

/-- **An event that leaks nothing keeps the table exact, and its IDs those registered.** -/
theorem Known.step {e : Event} (hx : x.Known) (hinv : x.tracked.Inv)
    (hleaks : ¬ x.server.Leaks e) (hstep : step x e = some y) : y.Known := by
  obtain ⟨t, hpossible, ht, htracked, hregistered⟩ := step_eq_some hstep
  have hserver : y.server = t := by rw [server, htracked]; rfl
  have hexact : y.tracked.Exact := by
    rw [htracked]
    exact (hx.exact.handle_iff hinv hpossible ht).mpr hleaks
  have haccepted : ∀ fd, (y.registered fd).isSome → fd ∈ y.tracked.accepted := by
    intro fd hsome
    obtain ⟨k, hk⟩ := Option.isSome_iff_exists.mp hsome
    rw [hregistered] at hk
    exact (registeredAfter_eq_some hk).1
  have hopen : ∀ c ∈ y.server.clientArray, c.socket ∈ y.tracked.accepted := fun c hc =>
    (hexact.2 _).mp (List.mem_map_of_mem hc)
  refine ⟨hexact, fun c hc => ?_, haccepted⟩
  have hfd := hopen c hc
  rw [hregistered]
  rw [← hserver] at ht
  cases Server.handle_table ht with
  | same hrequest h =>
      rw [registeredAfter_of_none hfd hrequest]
      exact hx.entries c (h.clientArray ▸ hc)
  | @entered socket ip _ h =>
      rw [registeredAfter_of_none hfd rfl]
      rw [h.clientArray] at hc
      rcases List.mem_append.mp hc with hc | hc
      · exact hx.entries c hc
      · -- The connection is new, since the table names it once.
        have hnodup := hexact.1
        rw [Server.tableSockets, show y.tracked.server = y.server from rfl, h.clientArray,
          List.map_append, List.nodup_append'] at hnodup
        obtain rfl := List.mem_singleton.mp hc
        have hnew : socket ∉ x.tracked.accepted := fun hmem =>
          hnodup.2.2 ((hx.exact.2 socket).mpr hmem) (List.mem_singleton_self socket)
        cases hreg : x.registered socket with
        | none => rfl
        | some k => exact absurd (hx.accepted socket (by rw [hreg]; rfl)) hnew
  | removed hkeeps h =>
      rw [registeredAfter_of_none hfd rfl]
      rw [h.clientArray] at hc
      exact hx.entries c (List.mem_of_mem_eraseP hc)
  | @indexed env i received senderId _ hrequest h hout =>
      rw [h.clientArray] at hc
      obtain ⟨b, hb, rfl⟩ := List.mem_map.mp hc
      rw [registeredAfter, if_pos hfd, hrequest]
      by_cases hi : b.socket = i
      · simp [hi]
      · simp [hi, hx.entries b hb]

theorem Starts.ranged (h : x.Starts) : x.Ranged where
  groupId := h.groupId
  entries c hc := by
    rw [h.clientArray] at hc
    cases hc
  registered fd k hk := by
    rw [h.registered fd] at hk
    cases hk

theorem Starts.known (h : x.Starts) : x.Known where
  exact := by
    have hsockets : x.tracked.server.tableSockets = [] := congrArg (List.map _) h.clientArray
    rw [Tracked.Exact, hsockets, h.accepted]
    exact ⟨List.nodup_nil, fun fd => iff_of_false List.not_mem_nil (Finset.notMem_empty fd)⟩
  entries c hc := by
    rw [h.clientArray] at hc
    cases hc
  accepted fd hsome := by
    rw [h.registered fd] at hsome
    cases hsome

theorem Starts.inv (h : x.Starts) : x.tracked.Inv where
  id := h.id
  opened := by
    rw [h.accepted]
    exact Finset.empty_subset _

theorem inv_step {e : Event} (hinv : x.tracked.Inv) (hstep : step x e = some y) :
    y.tracked.Inv := by
  obtain ⟨t, -, ht, htracked, -⟩ := step_eq_some hstep
  rw [htracked]
  exact hinv.after ht

theorem Starts.ranged_of_run {x₀ : Registry} {h : List (Registry × Event)} (h₀ : x₀.Starts)
    (run : Run step x₀ h x) (hclaims : ∀ y e, (y, e) ∈ h → y.ClaimsAssigned e) : x.Ranged :=
  run.guarded h₀.ranged (fun _ _ _ hy he hstep => hy.step he hstep) hclaims

/-- **After every run, a line is routed exactly when the table points to those it is for.
After a run that leaks nothing, that is when the line is clear.** -/
theorem routed_iff {x₀ : Registry} {h : List (Registry × Event)} (h₀ : x₀.Starts)
    (run : Run step x₀ h x) (hclaims : ∀ y e, (y, e) ∈ h → y.ClaimsAssigned e) (hf : x.Typed f) :
    (x.Routed f ↔ x.TableFits f) ∧
      ((∀ y e, (y, e) ∈ h → ¬ y.server.Leaks e) → (x.Routed f ↔ x.Clear f)) := by
  have hranged := h₀.ranged_of_run run hclaims
  refine ⟨routed_iff_tableFits hranged hf, fun hleaks => ?_⟩
  have hknown : x.Known ∧ x.tracked.Inv :=
    run.guarded (P := fun y => y.Known ∧ y.tracked.Inv) ⟨h₀.known, h₀.inv⟩
      (fun _ _ _ hy he hstep => ⟨hy.1.step hy.2 he hstep, inv_step hy.2 hstep⟩) hleaks
  rw [routed_iff_tableFits hranged hf, tableFits_iff_clear hknown.1 hranged hf]

/-! ## A peer server among the clients -/

private def taking : Env := ⟨0, errorReturn, fun _ _ _ => true, true, 8⟩

private def opening : Registry :=
  ⟨⟨startLeader 0 7 (text "10.0.0.1") 4041 20000 3 4, ∅⟩, fun _ => none⟩

private theorem opening_starts : opening.Starts :=
  ⟨by decide, rfl, rfl, fun _ => rfl, by decide⟩

/-- Client 100 registers on connection 5. -/
private def firstClient : List Event :=
  [.accept 5 (some (text "10.0.0.8")),
    .readable taking 5 (padX (text "CLIENT:100:0:GET_INDEX\n\n"))]

/-- A second client registers on connection 6. -/
private def twoClients : List Event :=
  firstClient ++ [.accept 6 (some (text "10.0.0.9")),
    .readable taking 6 (padX (text "CLIENT:200:0:GET_INDEX\n\n"))]

/-- A peer server connects, which registers no ID. -/
private def clientAndPeer : List Event := firstClient ++ [.accept 6 (some (text "10.0.0.2"))]

private def withClients : Registry := (exec step opening twoClients).get (by decide +kernel)

private def withPeer : Registry := (exec step opening clientAndPeer).get (by decide +kernel)

private def toClient : ChatFrame :=
  ⟨taking, 5, padX (text "CLIENT:100:200:hello\n\n"), 100, 200, text "hello"⟩

private def toGroup : ChatFrame :=
  ⟨taking, 5, padX (text "CLIENT:100:20000:hello\n\n"), 100, 20000, text "hello"⟩

theorem routed_iff_two_clients :
    withClients.registered 6 = some 200 ∧
      (withClients.Routed toClient ↔ withClients.TableFits toClient) ∧
        ((∀ y e, (y, e) ∈ trace step opening twoClients → ¬ y.server.Leaks e) →
          (withClients.Routed toClient ↔ withClients.Clear toClient)) := by
  have hclaims : ∀ p ∈ trace step opening twoClients, p.1.ClaimsAssigned p.2 := by decide +kernel
  have hsender : withClients.registered 5 = some 100 ∧ withClients.registered 6 = some 200 := by
    decide +kernel
  have hread : frameBody (toClient.received.take bufferSize) =
      some (text "CLIENT:100:200:hello") ∧
        parseFrame (toClient.i = withClients.server.ltcpSocket) (text "CLIENT:100:200:hello") =
          .client 100 200 (text "hello") := by
    decide +kernel
  exact ⟨hsender.2, routed_iff opening_starts (Run.of_exec (Option.some_get _).symm)
    (fun y e he => hclaims (y, e) he) ⟨hsender.1, ⟨_, hread⟩, fun _ _ _ => rfl⟩⟩

/-- A line for the group goes to the peer server. -/
theorem group_line_reaches_peer :
    opening.Starts ∧ Run step opening (trace step opening clientAndPeer) withPeer ∧
      (∀ p ∈ trace step opening clientAndPeer, p.1.ClaimsAssigned p.2) ∧
        withPeer.Typed toGroup ∧ withPeer.server.groupId = 20000 ∧ withPeer.registered 6 = none ∧
          withPeer.Forwards toGroup [6] (forwardedToGroup 100 20000 (text "hello")) ∧
            ¬ withPeer.Routed toGroup := by
  have hclaims : ∀ p ∈ trace step opening clientAndPeer, p.1.ClaimsAssigned p.2 := by
    decide +kernel
  have hread : frameBody (toGroup.received.take bufferSize) =
      some (text "CLIENT:100:20000:hello") ∧
        parseFrame (toGroup.i = withPeer.server.ltcpSocket) (text "CLIENT:100:20000:hello") =
          .client 100 20000 (text "hello") := by
    decide +kernel
  have hstate : withPeer.registered 5 = some 100 ∧ withPeer.registered 6 = none ∧
      withPeer.server.groupId = 20000 ∧ withPeer.others toGroup = [6] ∧
        (forwardedToGroup 100 20000 (text "hello")).length < bufferSize := by
    decide +kernel
  obtain ⟨hsender, hpeer, hgroup, hothers, hfits⟩ := hstate
  have run : Run step opening (trace step opening clientAndPeer) withPeer :=
    Run.of_exec (Option.some_get _).symm
  have hranged := opening_starts.ranged_of_run run fun y e he => hclaims (y, e) he
  have hf : withPeer.Typed toGroup := ⟨hsender, ⟨_, hread⟩, fun _ _ _ => rfl⟩
  have hforwards : withPeer.Forwards toGroup [6] (forwardedToGroup 100 20000 (text "hello")) := by
    rw [← hgroup] at hfits ⊢
    exact (forwards_group_iff hranged hf (by decide +kernel) hgroup.symm).mpr ⟨hfits, hothers.symm⟩
  refine ⟨opening_starts, run, hclaims, hf, hgroup, hpeer, hforwards, fun hrouted => ?_⟩
  have hnone : ∀ fd, withPeer.registered fd ≠ some toGroup.destId := fun fd hfd =>
    absurd (hranged.registered fd _ hfd).2 (by decide)
  obtain ⟨-, -, hmem⟩ := ((routed_iff_tableFits hranged hf).mp hrouted).group hnone hgroup.symm
  have hsome := ((hmem 6).mp (by rw [hothers]; exact List.mem_singleton_self 6)).1
  rw [hpeer] at hsome
  cases hsome

end Registry
end ChatRing
