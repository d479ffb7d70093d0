import ChatRing.Server.Follower
import ChatRing.Server.ServiceDiscovery
import ChatRing.Server.Successor

/-!
# How a follower keeps to what its leader tells it

The leader names a successor in its reply to an announcement, and again whenever the ring
changes at the follower.  `Guided` says that the list of a follower holds the leader and the
successor named last; `Script` says which successor a sequence of unread messages will name
last.

## Main results

* `Guided.read` — a follower that reads a message takes over the successor it names.
* `undisturbed_of_background` — what else happens at a follower leaves its list alone.
* `Guided.hangUp` — a follower that loses its successor keeps its leader.
* `guided_of_knowNewLeader`, `guided_of_startUp` — the two ways in which a server becomes one.
-/

namespace ChatRing
open CText

/-- The record has the ID, the address and the port of `q`. -/
structure SamePeer (r q : ServerInfo) : Prop where
  id : r.id = q.id
  addr : r.addr = q.addr
  port : r.port = q.port

theorem SamePeer.refl (q : ServerInfo) : SamePeer q q := ⟨rfl, rfl, rfl⟩

theorem SamePeer.trans {p q r : ServerInfo} (h₁ : SamePeer p q) (h₂ : SamePeer q r) :
    SamePeer p r :=
  ⟨h₁.id.trans h₂.id, h₁.addr.trans h₂.addr, h₁.port.trans h₂.port⟩

/-- The record also has the socket of `q`. -/
structure SameHead (r q : ServerInfo) : Prop extends SamePeer r q where
  socket : r.tcpSocket = q.tcpSocket

theorem SameHead.refl (q : ServerInfo) : SameHead q q := ⟨.refl q, rfl⟩

theorem SameHead.trans {p q r : ServerInfo} (h₁ : SameHead p q) (h₂ : SameHead q r) :
    SameHead p r :=
  ⟨h₁.toSamePeer.trans h₂.toSamePeer, h₁.socket.trans h₂.socket⟩

/-- The records after the head of a follower that knows its leader, and the successor named
last.  `socket` is its `successor_socket`. -/
inductive GuidedList (leaderId : ℤ) (socket : Socket) : Option ServerInfo → List ServerInfo → Prop
  | led {leader : ServerInfo} (hleader : leader.id = leaderId) :
      GuidedList leaderId socket none [leader]
  | ring {leader successor q : ServerInfo} (hleader : leader.id = leaderId)
      (hsuccessor : SamePeer successor q) (hne : successor.id ≠ leaderId)
      (hsocket : successor.tcpSocket = socket) (hvalid : IsValidSocket socket) :
      GuidedList leaderId socket (some q) [leader, successor]

/-- A follower whose leader reaches it on `fd`, and that was last told of `o`. -/
structure Guided (f : Server) (fd : Socket) (leaderId : ℤ) (o : Option ServerInfo) : Prop where
  leader : f.self.leader = 0
  participant : f.participant = 0
  ltcp : f.ltcpSocket = fd
  next : GuidedList leaderId f.successorSocket o f.next

/-- A successor that a follower with the ID `me` can be told of. -/
structure CanFollow (leaderId me : ℤ) (q : ServerInfo) : Prop where
  member : IsMember q
  ne_self : q.id ≠ me
  ne_leader : q.id ≠ leaderId

section Guidance
variable {env : Env} {f t : Server} {fd : Socket} {leaderId : ℤ} {o : Option ServerInfo}
  {q : ServerInfo}

/-- The first two records, and one more. -/
theorem appendServer_led {now : ℤ} {self leader : ServerInfo} {socket : Socket}
    (hleader : leader.id = leaderId) (hself : q.id ≠ self.id) (hne : q.id ≠ leaderId) :
    appendServer now self [leader] q.id q.addr q.port 0 socket =
      [leader, createServer now q.id q.addr q.port 0 socket] := by
  rw [appendServer_singleton, if_neg]
  rw [hleader]
  simp [hself, hne]

/-- The new successor comes after the leader, whether there was one before or not. -/
theorem replaceSuccessor_guided (h : GuidedList leaderId f.successorSocket o f.next)
    (hq : CanFollow leaderId f.self.id q) (hconnect : IsValidSocket env.connect) :
    ∃ next master opened, GuidedList leaderId env.connect (some q) next ∧
      replaceSuccessor env f q.addr q.id q.port env.connect =
        .ok { f with next := next, master := master, opened := opened } := by
  have hring : ∀ {leader : ServerInfo}, leader.id = leaderId →
      GuidedList leaderId env.connect (some q)
        (appendServer env.now f.self [leader] q.id q.addr q.port 0 env.connect) := by
    intro leader hid
    rw [appendServer_led hid hq.ne_self hq.ne_leader]
    exact .ring hid ⟨rfl, rfl, rfl⟩ hq.ne_leader rfl hconnect
  generalize hl : f.next = l at h
  cases h with
  | led hid => exact ⟨_, f.master, f.opened, hring hid, by simp only [replaceSuccessor, hl]⟩
  | @ring leader successor q' hid _ hne _ hvalid =>
      have hdelete : deleteServer [leader, successor] successor.id = .ok [leader] :=
        deleteServer_append (a := [leader]) (by simpa [hid] using Ne.symm hne)
      refine ⟨_, f.master.erase f.successorSocket, f.opened.erase f.successorSocket, hring hid, ?_⟩
      simp only [replaceSuccessor, hl, Server.deleteServer, hdelete, Except.ok_bind, pure,
        Except.pure]
      exact Server.dropSocket_of_valid hvalid

/-- **A follower takes over the successor it is told of**, in the place of the old one. -/
theorem Guided.newSuccessor (h : Guided f fd leaderId o) (hq : CanFollow leaderId f.self.id q)
    (hconnect : IsValidSocket env.connect) :
    ∃ t, newSuccessor env f q.addr q.id q.port = .ok t ∧ t.self = f.self ∧
      Guided t fd leaderId (some q) := by
  have hport := portFits_of_port hq.member.port_pos hq.member.port_le
  have hsetup : f.setupTcpClient env q.addr (intText q.port) = (env.connect, { f with
      opened := insert env.connect f.opened
      out := f.out ++ [.connect q.addr (intText q.port) env.connect] }) := by
    rw [Server.setupTcpClient, if_pos hconnect]
  obtain ⟨next, master, opened, hnext, hreplace⟩ := replaceSuccessor_guided
    (show GuidedList leaderId (f.setupTcpClient env q.addr (intText q.port)).2.successorSocket o
      (f.setupTcpClient env q.addr (intText q.port)).2.next by rw [hsetup]; exact h.next)
    (by rw [hsetup]; exact hq) hconnect
  rw [hsetup] at hreplace
  refine ⟨{ f with
    next := next
    successorSocket := env.connect
    master := insert env.connect master
    opened := opened
    out := f.out ++ [.connect q.addr (intText q.port) env.connect] }, ?_, rfl,
    ⟨h.leader, h.participant, h.ltcp, hnext⟩⟩
  simp only [ChatRing.newSuccessor, portText_of_fits hport, Except.ok_bind, hsetup, hconnect,
    if_true, hreplace]
  rfl

end Guidance

/-! ## Messages of the leader -/

/-- The fields of a leader that its messages carry. -/
structure IsHead (leader : ServerInfo) : Prop where
  id : IsInt leader.id
  addr : IsAddress leader.addr
  port : IsInt leader.port

theorem LeaderList.isHead {s : Server} (h : LeaderList s) : IsHead s.self := ⟨h.id, h.addr, h.port⟩

/-- The message tells a follower that `q` comes next: `UPDATE_FROM_LEADER`, or
`KNOW_NEW_LEADER` with the leader's own fields. -/
def Guides (leader q : ServerInfo) (frame : Text) : Prop :=
  frame = padX (updateFromLeader q.addr q.id q.port) ∨
    frame = padX (knowNewLeader leader.id leader.addr leader.port q.id q.addr q.port)

/-- Reading these messages one after another, the server with the ID `me` that was told of `o`
is told of `o'` last. -/
inductive Script (leader : ServerInfo) (me : ℤ) :
    List Text → Option ServerInfo → Option ServerInfo → Prop
  | nil {o : Option ServerInfo} : Script leader me [] o o
  | cons {frame : Text} {rest : List Text} {o o' : Option ServerInfo} {q : ServerInfo}
      (hframe : Guides leader q frame) (hq : CanFollow leader.id me q)
      (hrest : Script leader me rest (some q) o') : Script leader me (frame :: rest) o o'

theorem Script.concat {leader q : ServerInfo} {me : ℤ} {frames : List Text} {frame : Text}
    {o o' : Option ServerInfo} (h : Script leader me frames o o') (hframe : Guides leader q frame)
    (hq : CanFollow leader.id me q) : Script leader me (frames ++ [frame]) o (some q) := by
  induction h with
  | nil => exact .cons hframe hq .nil
  | cons hfirst hq' _ ih => exact .cons hfirst hq' ih

section Reading
variable {env : Env} {f t : Server} {fd : Socket} {leader : ServerInfo} {o : Option ServerInfo}
  {q : ServerInfo} {frame : Text}

/-- **A follower that reads a message of its leader** takes over the successor named there. -/
theorem Guided.read (h : Guided f fd leader.id o) (hleader : IsHead leader)
    (hframe : Guides leader q frame) (hq : CanFollow leader.id f.self.id q)
    (hconnect : IsValidSocket env.connect) :
    ∃ t, handleSocketChange env f fd frame = .ok t ∧ t.self = f.self ∧
      Guided t fd leader.id (some q) := by
  obtain ⟨t, ht, hself, hguided⟩ := h.newSuccessor hq hconnect
  have hltcp : decide (fd = f.ltcpSocket) = true := decide_eq_true h.ltcp.symm
  rcases hframe with rfl | rfl
  · refine ⟨t, ?_, hself, hguided⟩
    rw [handleSocketChange_of_read (m := .updateFromLeader q.addr q.id q.port)]
    · exact ht
    · rw [hltcp]
      exact read_updateFromLeader hq.member.addr hq.member.id hq.member.isInt_port
  · refine ⟨{ t with ltcpSocket := fd }, ?_, hself,
      ⟨hguided.leader, hguided.participant, rfl, hguided.next⟩⟩
    have hne : f.next ≠ [] := by
      have hnext := h.next
      intro hnil
      rw [hnil] at hnext
      cases hnext
    have hport : q.port ≠ 0 := by
      have hpos := hq.member.port_pos
      omega
    rw [handleSocketChange_of_read (read_knowNewLeader hleader.id hleader.addr hleader.port
      hq.member.id hq.member.addr hq.member.isInt_port)]
    simp only [Message.act, handleKnowNewLeader, if_neg hne, ne_eq, hport, not_false_eq_true,
      if_true, ht]
    rfl

/-- **The reply to `WHO_IS_LEADER`.**  A server that knew nobody enters its leader, and the
successor when one is named. -/
theorem guided_of_knowNewLeader {s : Server} (hs : LeaderList s) (hnext : f.next = [])
    (hlead : f.self.leader = 0) (hparticipant : f.participant = 0) (hid : s.self.id ≠ f.self.id)
    (ho : ∀ q ∈ o, CanFollow s.self.id f.self.id q) (hconnect : IsValidSocket env.connect)
    (fd : Socket) :
    ∃ t, handleSocketChange env f fd (padX (Announcement.reply s .whoIsLeader o)) = .ok t ∧
      t.self = f.self ∧ Guided t fd s.self.id o := by
  have hentered : appendServer env.now f.self f.next s.self.id s.self.addr s.self.port 1 fd =
      [createServer env.now s.self.id s.self.addr s.self.port 1 fd] := by
    rw [hnext, appendServer_nil, if_neg hid]
  cases o with
  | none =>
      have hzeros : IsAddress (text "0.0.0.0") :=
        ⟨⟨by decide, by decide, by decide, by decide⟩, by decide⟩
      refine ⟨{ f with
        next := [createServer env.now s.self.id s.self.addr s.self.port 1 fd]
        ltcpSocket := fd }, ?_, rfl, ⟨hlead, hparticipant, rfl, .led rfl⟩⟩
      rw [Announcement.reply, handleSocketChange_of_read (read_knowNewLeader hs.id hs.addr hs.port
        (by decide) hzeros (by decide))]
      simp only [Message.act, handleKnowNewLeader, if_pos hnext, hentered]
      rfl
  | some q =>
      have hq : CanFollow s.self.id f.self.id q := ho q rfl
      have hport : q.port ≠ 0 := by
        have hpos := hq.member.port_pos
        omega
      have hled : Guided { f with
          next := [createServer env.now s.self.id s.self.addr s.self.port 1 fd] }
          f.ltcpSocket s.self.id none := ⟨hlead, hparticipant, rfl, .led rfl⟩
      obtain ⟨t, ht, hself, hguided⟩ := hled.newSuccessor hq hconnect
      refine ⟨{ t with ltcpSocket := fd }, ?_, hself,
        ⟨hguided.leader, hguided.participant, rfl, hguided.next⟩⟩
      rw [Announcement.reply, handleSocketChange_of_read (read_knowNewLeader hs.id hs.addr hs.port
        hq.member.id hq.member.addr hq.member.isInt_port)]
      simp only [Message.act, handleKnowNewLeader, if_pos hnext, hentered, ne_eq, hport,
        not_false_eq_true, if_true, ht]
      rfl

end Reading

/-! ## What else happens at a follower -/

/-- A text that neither a leader nor an election sends. -/
def Frame.Routine : Frame → Prop
  | .client .. => True
  | .heartbeat _ => True
  | .unknown => True
  | _ => False

instance : (f : Frame) → Decidable f.Routine
  | .client .. | .heartbeat _ | .unknown => isTrue trivial
  | .updateFromLeader .. | .election .. | .knowNewLeader .. => isFalse id

/-- The leader is not overdue, the connection to the successor stays, and no message of the
leader or of an election is read. -/
def Server.Background (f : Server) : Event → Prop
  | .timer env => ∀ leader ∈ f.next.head?, ¬ TimedOut env (2 * heartbeatTimeout) leader
  | .accept .. => True
  | .datagram .. => True
  | .readable _ i received => (received = [] → i ≠ f.ltcpSocket ∧ i ≠ f.successorSocket) ∧
      ∀ read ∈ frameBody (received.take bufferSize), (parseFrame (i = f.ltcpSocket) read).Routine

instance (f : Server) : (e : Event) → Decidable (f.Background e)
  | .timer _ => inferInstanceAs (Decidable (∀ leader ∈ f.next.head?, _))
  | .accept .. => isTrue trivial
  | .datagram .. => isTrue trivial
  | .readable _ _ received => inferInstanceAs (Decidable ((received = [] → _) ∧
      ∀ read ∈ frameBody (received.take bufferSize), _))

/-- The servers have the same IDs, addresses and sockets, and the same successor. -/
structure Undisturbed (f t : Server) : Prop where
  self : SameHead t.self f.self
  leader : t.self.leader = f.self.leader
  participant : t.participant = f.participant
  ltcp : t.ltcpSocket = f.ltcpSocket
  successor : t.successorSocket = f.successorSocket
  next : List.Forall₂ (fun r r' => ∃ now, r' = { r with lastHeartbeat := now }) f.next t.next

section Background
variable {env : Env} {f t : Server} {fd i : Socket} {leaderId : ℤ} {o : Option ServerInfo}

theorem forall₂_beat_refl (l : List ServerInfo) :
    List.Forall₂ (fun r r' => ∃ now, r' = { r with lastHeartbeat := now }) l l :=
  List.forall₂_same.mpr fun r _ => ⟨r.lastHeartbeat, rfl⟩

theorem Undisturbed.of_fields (hself : t.self = f.self) (hnext : t.next = f.next)
    (hparticipant : t.participant = f.participant) (hltcp : t.ltcpSocket = f.ltcpSocket)
    (hsuccessor : t.successorSocket = f.successorSocket) : Undisturbed f t where
  self := by rw [hself]; exact .refl _
  leader := by rw [hself]
  participant := hparticipant
  ltcp := hltcp
  successor := hsuccessor
  next := by rw [hnext]; exact forall₂_beat_refl _

theorem Undisturbed.refl (f : Server) : Undisturbed f f := .of_fields rfl rfl rfl rfl rfl

theorem forall₂_updateHeartbeatTimeout (now id : ℤ) (l : List ServerInfo) :
    List.Forall₂ (fun r r' => ∃ now, r' = { r with lastHeartbeat := now }) l
      (updateHeartbeatTimeout now l id) := by
  induction l with
  | nil => exact .nil
  | cons r l ih =>
      rw [updateHeartbeatTimeout]
      split
      · exact .cons ⟨now, rfl⟩ (forall₂_beat_refl l)
      · exact .cons ⟨r.lastHeartbeat, rfl⟩ ih

theorem undisturbed_updateHeartbeat (f : Server) (env : Env) (id : ℤ) :
    Undisturbed f (f.updateHeartbeat env id) := by
  rw [Server.updateHeartbeat]
  split
  · exact ⟨⟨⟨rfl, rfl, rfl⟩, rfl⟩, rfl, rfl, rfl, rfl, forall₂_beat_refl _⟩
  · exact ⟨.refl _, rfl, rfl, rfl, rfl, forall₂_updateHeartbeatTimeout env.now id f.next⟩

/-- The connection to another server, or to a client, is lost. -/
theorem undisturbed_disconnect (hltcp : i ≠ f.ltcpSocket) (hsuccessor : i ≠ f.successorSocket)
    (ht : disconnect f i = .ok t) : Undisturbed f t := by
  obtain ⟨u, hu, ht⟩ := Except.bind_eq_ok.mp ht
  have hfields : Undisturbed f u := by
    rcases handleDisconnection_eq_ok hu with ⟨-, rfl⟩ | ⟨hi, -⟩ | ⟨-, -, -, -, rfl⟩
    · exact .refl _
    · exact absurd hi hsuccessor
    · exact .of_fields rfl rfl rfl rfl rfl
  simp only [hfields.ltcp, if_neg hltcp] at ht
  obtain ⟨-, rfl⟩ := Server.dropSocket_eq_ok ht
  exact ⟨hfields.self, hfields.leader, hfields.participant, hfields.ltcp, hfields.successor,
    hfields.next⟩

/-- **What else happens at a follower leaves its list alone.** -/
theorem undisturbed_of_background {e : Event} (hleader : f.self.leader ≠ 1)
    (hback : f.Background e) (ht : f.handle e = .ok t) : Undisturbed f t := by
  have hroutine : ∀ {env i received read frame}, e = .readable env i received →
      frameBody (received.take bufferSize) = some read →
        parseFrame (i = f.ltcpSocket) read = frame → frame.Routine := by
    rintro env i received read frame rfl hread rfl
    exact hback.2 read hread
  cases Server.handled ht with
  | timer ht =>
      have hdue : ¬ f.LeaderOverdue _ := fun ⟨leader, hmem, hdue⟩ => hback leader hmem hdue
      obtain ⟨participant, sent, hsent, -, hpart⟩ := onTimer_eq hleader fun halone => hdue halone.1
      obtain rfl := hpart.resolve_right fun hvote => hdue hvote.2.1
      rw [hsent] at ht
      cases ht
      exact .of_fields rfl rfl rfl rfl rfl
  | accept =>
      obtain ⟨master, opened, clientArray, heq⟩ := acceptNewClient_eq f _ _
      rw [heq]
      exact .of_fields rfl rfl rfl rfl rfl
  | @datagram env received senderAddr k u hu =>
      obtain ⟨master, hmaster⟩ := registerPeer_eq u k
      rw [hmaster]
      rcases handleMcastReceive_eq_ok hu with ⟨-, rfl⟩ | ⟨hlead, -⟩ |
        ⟨-, -, leader, rest, hnext, rfl⟩
      · exact .of_fields rfl rfl rfl rfl rfl
      · exact absurd hlead hleader
      · refine ⟨.refl _, rfl, rfl, rfl, rfl, ?_⟩
        rw [hnext]
        exact .cons ⟨env.now, rfl⟩ (forall₂_beat_refl rest)
  | disconnect hu => exact undisturbed_disconnect (hback.1 rfl).1 (hback.1 rfl).2 hu
  | unfinished => exact .refl f
  | updateFromLeader _ hread hframe => exact (hroutine rfl hread hframe).elim
  | @client env i received read message senderId destId r _ _ _ _ hu =>
      by_cases hmessage : message = text "GET_INDEX"
      · rw [hmessage, handleClientMessage_getIndex] at hu
        split at hu
        · cases hu
          exact .of_fields rfl rfl rfl rfl rfl
        · cases hu
          exact .of_fields rfl rfl rfl rfl rfl
      · obtain ⟨sent, -, rfl⟩ := handleClientMessage_forward hmessage hu
        exact .of_fields rfl rfl rfl rfl rfl
  | election _ hread hframe => exact (hroutine rfl hread hframe).elim
  | knowNewLeader _ hread hframe => exact (hroutine rfl hread hframe).elim
  | heartbeat => exact undisturbed_updateHeartbeat f _ _
  | unknown => exact .refl f

theorem Guided.undisturbed (h : Guided f fd leaderId o) (hsame : Undisturbed f t) :
    Guided t fd leaderId o := by
  refine ⟨hsame.leader.trans h.leader, hsame.participant.trans h.participant,
    hsame.ltcp.trans h.ltcp, ?_⟩
  have hnext := hsame.next
  have hguided := h.next
  rw [hsame.successor]
  generalize f.next = l at hnext hguided
  generalize t.next = l' at hnext ⊢
  cases hguided with
  | led hleader =>
      obtain ⟨_, rest, ⟨now, rfl⟩, hrest, rfl⟩ := List.forall₂_cons_left_iff.mp hnext
      obtain rfl := List.forall₂_nil_left_iff.mp hrest
      exact .led hleader
  | ring hleader hsuccessor hne hsocket hvalid =>
      obtain ⟨_, rest, ⟨now, rfl⟩, hrest, rfl⟩ := List.forall₂_cons_left_iff.mp hnext
      obtain ⟨_, last, ⟨now', rfl⟩, hlast, rfl⟩ := List.forall₂_cons_left_iff.mp hrest
      obtain rfl := List.forall₂_nil_left_iff.mp hlast
      exact .ring hleader ⟨hsuccessor.id, hsuccessor.addr, hsuccessor.port⟩ hne hsocket hvalid

/-- **A follower that loses its successor** keeps its leader. -/
theorem Guided.hangUp (h : Guided f fd leaderId o) {successor : ServerInfo}
    (hnext : f.next[1]? = some successor) (hmc : f.successorSocket ≠ f.mcSocket)
    (hltcp : f.successorSocket ≠ f.ltcpSocket) (env : Env) :
    ∃ t, handleSocketChange env f f.successorSocket [] = .ok t ∧ t.self = f.self ∧
      Guided t fd leaderId none ∧ ∀ q ∈ o, q.id = successor.id := by
  have hlist := h.next
  generalize hl : f.next = l at hlist hnext
  cases hlist with
  | led => cases hnext
  | @ring leader successor' q hleader hsuccessor hne hsocket hvalid =>
      obtain rfl : successor' = successor := by simpa using hnext
      have hdelete : deleteServer f.next successor'.id = .ok [leader] := by
        rw [hl]
        exact deleteServer_append (a := [leader]) (by simpa [hleader] using Ne.symm hne)
      have hhandled :
          handleDisconnection f f.successorSocket = .ok { f with next := [leader] } := by
        rw [handleDisconnection, if_neg hmc, if_neg hltcp, if_pos ⟨rfl, by rw [h.leader]; decide⟩]
        simp only [Server.successor, hl, Except.ok_bind, Server.deleteServer]
        rw [← hl, hdelete]
        rfl
      refine ⟨{ f with
        next := [leader]
        master := f.master.erase f.successorSocket
        opened := f.opened.erase f.successorSocket }, ?_, rfl,
        ⟨h.leader, h.participant, h.ltcp, .led hleader⟩, ?_⟩
      · simp only [handleSocketChange, if_true, disconnect, hhandled, Except.ok_bind, if_neg hltcp]
        exact Server.dropSocket_of_valid hvalid
      · intro q' hq'
        obtain rfl := Option.some.inj hq'
        exact hsuccessor.id.symm

/-- A server that knows nobody and asks for its leader.  One that has just started has entered
itself as the leader; one that took part in an election has not. -/
structure Asks (kind : Announcement) (f : Server) : Prop where
  next : f.next = []
  participant : f.participant = 0
  leader : f.self.leader = match kind with
    | .discovery => 1
    | .whoIsLeader => 0

theorem Asks.undisturbed {kind : Announcement} (h : Asks kind f) (hsame : Undisturbed f t) :
    Asks kind t where
  next := List.forall₂_nil_left_iff.mp (h.next ▸ hsame.next)
  participant := hsame.participant.trans h.participant
  leader := hsame.leader.trans h.leader

end Background

/-! ## Joining -/

section Joining
variable {env env' : Env} {f s t : Server} {d : Discovery} {i fd : Socket} {p : Progress}
  {rounds : List Round} {r : Reply} {o : Option ServerInfo}

theorem onReady_participant {arrival : Arrival} (h : onReady env d i arrival = .ok p) :
    p.server.participant = d.server.participant := by
  unfold onReady at h
  split at h
  · split at h
    · rename_i socketClient clientIp
      split at h
      · cases h
        exact (SameRole.of_assignClientInfo _ socketClient clientIp).participant
      · cases h
        rfl
    · cases h
      rfl
  · split at h
    · split at h
      · rw [readReply] at h
        split at h
        · cases h
          rfl
        · split at h
          · cases h
            rfl
          · split at h
            · obtain ⟨⟨socket, u⟩, hu, h⟩ := Except.bind_eq_ok.mp h
              cases h
              exact (SameRole.of_joinSuccessor hu).participant
            · cases h
              rfl
      · cases h
        rfl
    · cases h
      rfl

theorem onReads_participant {reads : List (Socket × Arrival)} (h : onReads env reads d = .ok p) :
    p.server.participant = d.server.participant := by
  induction reads generalizing d with
  | nil =>
      cases h
      rfl
  | cons e reads ih =>
      obtain ⟨p', hp', h⟩ := Except.bind_eq_ok.mp h
      rw [← onReady_participant hp']
      cases p' with
      | returned socket u =>
          cases h
          rfl
      | waiting d' => exact ih h

/-- A server that looks for its leader takes part in no election. -/
theorem onRounds_participant (h : onRounds rounds d = .ok (fd, t)) :
    t.participant = d.server.participant := by
  induction rounds generalizing d with
  | nil =>
      cases h
      rfl
  | cons round rounds ih =>
      cases round with
      | failed =>
          cases h
          rfl
      | quiet env =>
          cases h
          exact (SameRole.of_doMulticast env _ _).participant
      | ready env reads =>
          obtain ⟨p, hp, h⟩ := Except.bind_eq_ok.mp h
          rw [← onReads_participant hp]
          cases p with
          | returned socket u =>
              cases h
              rfl
          | waiting d' => exact ih h

/-- The reply that is read first is the one that is acted on. -/
theorem serviceDiscovery_of_readsFirst (hmulticast : env.multicasts = true) (hnext : f.next = [])
    (hread : ReadsFirst f.self.tcpSocket (rounds.take 3) fd r env') :
    IsValidSocket fd ∧ ∃ d : Discovery, d.server.self = f.self ∧ d.server.next = [] ∧
      serviceDiscovery env rounds f = joinSuccessor env'
        (withLeader env' d.server fd d.addressBuffer r.id) fd r.addr r.port r.successorId := by
  obtain ⟨hrounds, hbefore, hreads, hearlier, hfd, hlast, hreply⟩ := hread
  obtain ⟨d, hd, heq⟩ := serviceDiscovery_eq hmulticast hnext rounds
  obtain ⟨d₁, hd₁, hrest₁⟩ := hd.pass_rounds hbefore
  obtain ⟨d', hd', hrest'⟩ := hd₁.pass_all env' hearlier
  refine ⟨hd'.valid fd hlast, d', hd'.self, hd'.next, ?_⟩
  rw [heq, hrounds, hrest₁]
  apply onRounds_of_returned
  rw [hd₁.watched, hreads, hrest']
  apply onReads_of_returned
  rw [← readReply_of_reply hreply, onReady, if_neg (by rwa [hd'.self]),
    if_pos (by rw [hd'.last, hlast])]

/-- The reply to `LEADER_DISCOVERY` of a leader that names `o`. -/
def replyFields (s : Server) : Option ServerInfo → Reply
  | none => ⟨s.self.id, placeholder, 48, s.self.leader⟩
  | some q => ⟨s.self.id, q.addr, q.port, q.id⟩

theorem replyOf_joinReply {id port successorId : ℤ} {addr : Text} (hid : IsInt id)
    (haddr : IsAddress addr) (hport : IsInt port) (hsuccessor : IsInt successorId) :
    replyOf (padX (joinReply id addr port successorId)) = some ⟨id, addr, port, successorId⟩ := by
  rw [replyOf, read_joinReply hid haddr hport hsuccessor]

theorem replyOf_reply (hs : LeaderList s) (ho : ∀ q ∈ o, IsMember q) :
    replyOf (padX (Announcement.reply s .discovery o)) = some (replyFields s o) := by
  cases o with
  | none =>
      have hzeros : IsAddress placeholder :=
        ⟨⟨by decide, by decide, by decide, by decide⟩, by decide⟩
      have hleader : IsInt s.self.leader := by
        rw [hs.leader]
        decide
      exact replyOf_joinReply hs.id hzeros (by decide) hleader
  | some q =>
      have hq := ho q rfl
      exact replyOf_joinReply hs.id hq.addr hq.isInt_port hq.id

/-- The leader is entered, and the successor that it names. -/
theorem joinSuccessor_guided {v : Server} (hnext : v.next = []) (hid : s.self.id ≠ v.self.id)
    (hfd : IsValidSocket fd) (ho : ∀ q ∈ o, CanFollow s.self.id v.self.id q)
    (hlen : ∀ q ∈ o, 8 ≤ q.addr.length) (hconnect : IsValidSocket env.connect)
    (addressBuffer : Text) :
    ∃ u, joinSuccessor env (withLeader env v fd addressBuffer (replyFields s o).id) fd
        (replyFields s o).addr (replyFields s o).port (replyFields s o).successorId = .ok (fd, u) ∧
      SameHead u.self v.self ∧ GuidedList s.self.id u.successorSocket o u.next := by
  have hentered : appendServer env.now v.self v.next s.self.id addressBuffer v.self.port 1 fd =
      [createServer env.now s.self.id addressBuffer v.self.port 1 fd] := by
    rw [hnext, appendServer_nil, if_neg hid]
  cases o with
  | none =>
      refine ⟨_, joinSuccessor_of_lt (show placeholder.length < 8 by decide),
        ⟨⟨rfl, rfl, rfl⟩, rfl⟩, ?_⟩
      simp only [withLeader, replyFields, hentered]
      exact .led rfl
  | some q =>
      have hq : CanFollow s.self.id v.self.id q := ho q rfl
      have hport := portFits_of_port hq.member.port_pos hq.member.port_le
      refine ⟨_, (joinSuccessor_eq_ok_iff hfd (hlen q rfl)).mpr ⟨hport, hconnect, rfl⟩,
        ⟨⟨rfl, rfl, rfl⟩, rfl⟩, ?_⟩
      simp only [withLeader, replyFields, hentered]
      have hself : q.id ≠ ({ v.self with leader := 0 } : ServerInfo).id := hq.ne_self
      have hleader : (createServer env.now s.self.id addressBuffer v.self.port 1 fd).id =
          s.self.id := rfl
      rw [appendServer_led hleader hself hq.ne_leader]
      exact .ring rfl ⟨rfl, rfl, rfl⟩ hq.ne_leader rfl hconnect

theorem startUp_of_found (h : serviceDiscovery env rounds f = .ok (fd, t))
    (hfd : IsValidSocket fd) : startUp env rounds f = .ok { t with
      ltcpSocket := fd
      self := { t.self with leader := 0 }
      master := t.master ∪ (foundSockets { t with ltcpSocket := fd }).toFinset } := by
  simp only [startUp, h, Except.ok_bind, if_pos hfd]
  rfl

theorem serviceDiscovery_participant (h : serviceDiscovery env rounds f = .ok (fd, t)) :
    t.participant = f.participant := by
  rw [serviceDiscovery] at h
  split at h
  · rw [onRounds_participant h]
    exact (SameRole.of_doMulticast env f _).participant
  · cases h
    rfl

/-- **The reply to `LEADER_DISCOVERY`.**  A server that reads it while it looks for its leader
enters the leader, and the successor when one is named. -/
theorem guided_of_startUp (hnext : f.next = []) (hparticipant : f.participant = 0)
    (hid : s.self.id ≠ f.self.id) (ho : ∀ q ∈ o, CanFollow s.self.id f.self.id q)
    (hlen : ∀ q ∈ o, 8 ≤ q.addr.length) (hmulticast : env.multicasts = true)
    (hread : ReadsFirst f.self.tcpSocket (rounds.take 3) fd (replyFields s o) env')
    (hconnect : IsValidSocket env'.connect) :
    ∃ t, startUp env rounds f = .ok t ∧ SameHead t.self f.self ∧ Guided t fd s.self.id o := by
  obtain ⟨hfd, d, hself, hnil, heq⟩ := serviceDiscovery_of_readsFirst hmulticast hnext hread
  obtain ⟨u, hu, hself', hlist⟩ := joinSuccessor_guided (s := s) hnil (by rwa [hself]) hfd
    (by rwa [hself]) hlen hconnect d.addressBuffer
  rw [hu] at heq
  refine ⟨_, startUp_of_found heq hfd, ?_, rfl, ?_, rfl, hlist⟩
  · rw [← hself]
    exact ⟨⟨hself'.id, hself'.addr, hself'.port⟩, hself'.socket⟩
  · exact (serviceDiscovery_participant heq).trans hparticipant

end Joining

/-! ## Everything a follower is told -/

/-- When a server has read the messages on its link, it has been told of `o` last.  The first
message may be the reply to its announcement. -/
inductive Told (kind : Announcement) (s : Server) (fd : Socket) (f : Server) :
    List Text → Option ServerInfo → Prop
  | asked {rest : List Text} {o o' : Option ServerInfo} (hasks : Asks kind f)
      (ho : ∀ q ∈ o, CanFollow s.self.id f.self.id q ∧ 8 ≤ q.addr.length)
      (hrest : Script s.self f.self.id rest o o') :
      Told kind s fd f (padX (kind.reply s o) :: rest) o'
  | guided {link : List Text} {o o' : Option ServerInfo} (hguided : Guided f fd s.self.id o)
      (hrest : Script s.self f.self.id link o o') : Told kind s fd f link o'

namespace Told
variable {kind : Announcement} {s f t : Server} {fd : Socket} {link rest : List Text}
  {frame : Text} {o : Option ServerInfo} {q : ServerInfo} {env : Env}

/-- One more message. -/
theorem concat (h : Told kind s fd f link o) (hframe : Guides s.self q frame)
    (hq : CanFollow s.self.id f.self.id q) : Told kind s fd f (link ++ [frame]) (some q) := by
  cases h with
  | asked hasks ho hrest => exact .asked hasks ho (hrest.concat hframe hq)
  | guided hguided hrest => exact .guided hguided (hrest.concat hframe hq)

theorem undisturbed (h : Told kind s fd f link o) (hsame : Undisturbed f t) :
    Told kind s fd t link o := by
  have hid := hsame.self.id
  cases h with
  | asked hasks ho hrest =>
      exact .asked (hasks.undisturbed hsame) (by rwa [hid]) (by rwa [hid])
  | guided hguided hrest => exact .guided (hguided.undisturbed hsame) (by rwa [hid])

/-- Nothing is left to read. -/
theorem done (h : Told kind s fd f [] o) : Guided f fd s.self.id o := by
  cases h with
  | guided hguided hrest =>
      cases hrest
      exact hguided

/-- **Reading the next message in the loop.** -/
theorem read (h : Told kind s fd f (frame :: rest) o) (hs : LeaderList s)
    (hid : s.self.id ≠ f.self.id) (hleader : f.self.leader ≠ 1)
    (hconnect : IsValidSocket env.connect) :
    ∃ t, handleSocketChange env f fd frame = .ok t ∧ t.self = f.self ∧
      Told kind s fd t rest o := by
  cases h with
  | asked hasks ho hrest =>
      cases kind with
      | discovery => exact absurd hasks.leader hleader
      | whoIsLeader =>
          obtain ⟨t, ht, hself, hguided⟩ := guided_of_knowNewLeader hs hasks.next hasks.leader
            hasks.participant hid (fun q hq => (ho q hq).1) hconnect fd
          exact ⟨t, ht, hself, .guided hguided (by rwa [hself])⟩
  | guided hguided hrest =>
      cases hrest with
      | cons hframe hq hrest =>
          obtain ⟨t, ht, hself, hguided⟩ := hguided.read hs.isHead hframe hq hconnect
          exact ⟨t, ht, hself, .guided hguided (by rwa [hself])⟩

/-- **Losing the successor.**  A message that is still to be read names another one. -/
theorem hangUp (h : Told kind s fd f link o) {successor : ServerInfo}
    (hnext : f.next[1]? = some successor) (hmc : f.successorSocket ≠ f.mcSocket)
    (hltcp : f.successorSocket ≠ f.ltcpSocket) (env : Env) :
    ∃ t, handleSocketChange env f f.successorSocket [] = .ok t ∧ t.self = f.self ∧
      (∃ o', Told kind s fd t link o') ∧
        ((∀ q ∈ o, q.id ≠ successor.id) → o ≠ none → Told kind s fd t link o) := by
  cases h with
  | asked hasks _ _ =>
      rw [hasks.next] at hnext
      cases hnext
  | guided hguided hrest =>
      obtain ⟨t, ht, hself, hled, hid⟩ := hguided.hangUp hnext hmc hltcp env
      refine ⟨t, ht, hself, ?_⟩
      cases hrest with
      | nil =>
          refine ⟨⟨none, .guided hled .nil⟩, fun hne hsome => ?_⟩
          obtain ⟨q, rfl⟩ := Option.ne_none_iff_exists'.mp hsome
          exact absurd (hid q rfl) (hne q rfl)
      | @cons frame rest _ _ q hframe hq hrest =>
          have hscript : Script s.self t.self.id (frame :: rest) none o := by
            rw [hself]
            exact .cons hframe hq hrest
          exact ⟨⟨o, .guided hled hscript⟩, fun _ _ => .guided hled hscript⟩

/-- **Reading the reply while looking for the leader.** -/
theorem join {rounds : List Round} {env' : Env} (h : Told kind s fd f (frame :: rest) o)
    (hs : LeaderList s) (hid : s.self.id ≠ f.self.id) (hleader : f.self.leader = 1)
    (hmulticast : env.multicasts = true) (hread : ∀ r, replyOf frame = some r →
      ReadsFirst f.self.tcpSocket (rounds.take 3) fd r env')
    (hconnect : IsValidSocket env'.connect) :
    ∃ t, startUp env rounds f = .ok t ∧ SameHead t.self f.self ∧ Told kind s fd t rest o := by
  cases h with
  | guided hguided hrest =>
      have hzero := hguided.leader
      omega
  | asked hasks ho hrest =>
      cases kind with
      | whoIsLeader =>
          have hzero : f.self.leader = 0 := hasks.leader
          omega
      | discovery =>
          have hreply := replyOf_reply hs fun q hq => (ho q hq).1.member
          obtain ⟨t, ht, hself, hguided⟩ := guided_of_startUp hasks.next hasks.participant hid
            (fun q hq => (ho q hq).1) (fun q hq => (ho q hq).2) hmulticast (hread _ hreply) hconnect
          exact ⟨t, ht, hself, .guided hguided (by rwa [hself.id])⟩

end Told

end ChatRing
