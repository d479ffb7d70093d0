import ChatRing.Server.Descriptors
import ChatRing.Server.System

/-!
# The list of a follower

A follower knows nobody, its leader, or its leader and its successor, in this order.  The
handlers that rewrite the list delete by ID and append at the end, and none of them breaks
this shape, whatever the fields of a frame are, as long as the sends succeed.

## Main definitions

* `Server.Wins`, `Server.Learns` — the two frames of an election that a server acts on.
* `FollowerList` — the shape.

## Main results

* `lcrElection_wins`, `lcrElection_learns`, `lcrElection_passes` — what `lcr_election`
  does to the list.
* `Server.follower_list` — the shape in every state of a run after start-up.
-/

namespace ChatRing
open CText RingElection

/-! ## What an election does to the list -/

/-- The own vote is back, and the announcement is sent. -/
def Server.Wins (env : Env) (s : Server) (keyword : Text) (predId : ℤ) : Prop :=
  keyword = text "VOTE" ∧ predId = s.self.id ∧ s.self.leader ≠ 1 ∧
    ∃ successor ∈ s.next[1]?,
      env.sends s.out successor.tcpSocket (padZero (electionLeader s.self.id)) = true

/-- Another server is announced, and the announcement is passed on. -/
def Server.Learns (env : Env) (s : Server) (keyword : Text) (predId : ℤ) : Prop :=
  keyword = text "LEADER" ∧ predId ≠ s.self.id ∧
    ∃ successor ∈ s.next[1]?,
      env.sends s.out successor.tcpSocket (padZero (electionLeader predId)) = true

instance (env : Env) (s : Server) (keyword : Text) (predId : ℤ) :
    Decidable (s.Wins env keyword predId) := inferInstanceAs (Decidable (_ ∧ _ ∧ _ ∧ _))

instance (env : Env) (s : Server) (keyword : Text) (predId : ℤ) :
    Decidable (s.Learns env keyword predId) := inferInstanceAs (Decidable (_ ∧ _ ∧ _))

section Election
variable {env : Env} {s t : Server} {keyword : Text} {q r : ℤ}

theorem getElem?_one_eq_some {l : List ServerInfo} {successor : ServerInfo}
    (h : successor ∈ l[1]?) : ∃ first rest, l = first :: successor :: rest := by
  match l, h with
  | first :: second :: rest, h =>
      cases h
      exact ⟨first, rest, rfl⟩

theorem sendToSuccessor_of_sends {first successor : ServerInfo} {rest : List ServerInfo}
    {message : Text} (hnext : s.next = first :: successor :: rest)
    (hsends : env.sends s.out successor.tcpSocket (padZero message) = true) :
    sendToSuccessor env s message =
      .ok (some { s with out := s.out ++ [.send successor.tcpSocket (padZero message)] }) := by
  have hsend : s.send env successor.tcpSocket (padZero message) =
      some { s with out := s.out ++ [.send successor.tcpSocket (padZero message)] } :=
    if_pos hsends
  simp only [sendToSuccessor, Server.successor, hnext, Except.ok_bind, hsend]
  rfl

/-- The winner drops its old leader. -/
theorem lcrElection_wins (h : s.Wins env keyword q) :
    ∃ t first successor rest, lcrElection env s keyword q = .ok (q, t) ∧
      s.next = first :: successor :: rest ∧ t.next = successor :: rest ∧
        t.self = { s.self with leader := 1 } := by
  obtain ⟨rfl, rfl, hleader, successor, hsuccessor, hsends⟩ := h
  obtain ⟨first, rest, hnext⟩ := getElem?_one_eq_some hsuccessor
  have hirrefl : ¬ s.self.id > s.self.id := lt_irrefl _
  refine ⟨{ s with
    participant := 1
    self := { s.self with leader := 1 }
    next := successor :: rest
    out := s.out ++ [.send successor.tcpSocket (padZero (electionLeader s.self.id))] },
    first, successor, rest, ?_, hnext, rfl, rfl⟩
  rw [lcrElection, if_pos rfl, if_neg hirrefl, if_neg hirrefl, if_neg hleader]
  have hsend := sendToSuccessor_of_sends (s := { s with
    participant := 1, self := { s.self with leader := 1 } }) hnext hsends
  simp only [hsend, Except.ok_bind]
  simp only [hnext, Server.deleteServer, ChatRing.deleteServer, if_true]
  rfl

/-- A follower takes the announced server for its leader. -/
theorem lcrElection_learns (h : s.Learns env keyword q) :
    ∃ t first successor rest, lcrElection env s keyword q = .ok (1, t) ∧
      s.next = first :: successor :: rest ∧
        t.next = { first with id := q, leader := 1 } :: successor :: rest ∧ t.self = s.self := by
  obtain ⟨rfl, hid, successor, hsuccessor, hsends⟩ := h
  obtain ⟨first, rest, hnext⟩ := getElem?_one_eq_some hsuccessor
  refine ⟨{ s with
    participant := 0
    next := { first with id := q, leader := 1 } :: successor :: rest
    out := s.out ++ [.send successor.tcpSocket (padZero (electionLeader q))] },
    first, successor, rest, ?_, hnext, rfl, rfl⟩
  have hkey : text "LEADER" ≠ text "VOTE" := by decide +kernel
  rw [lcrElection, if_neg hkey, if_pos rfl, if_neg hid]
  simp only [hnext, sendToSuccessor_of_sends (s := { s with
    participant := 0, next := { first with id := q, leader := 1 } :: successor :: rest })
    rfl hsends, Except.ok_bind]
  rfl

theorem successor_eq_ok {successor : ServerInfo} (h : s.successor = .ok successor) :
    successor ∈ s.next[1]? := by
  rw [Server.successor] at h
  split at h
  · rename_i hnext
    cases h
    simp [hnext]
  · cases h

/-- A send that only decides about the value returned. -/
private theorem return_sendToSuccessor {s₁ : Server} {message : Text} {fail sent : ℤ}
    (h : (do
      match ← sendToSuccessor env s₁ message with
      | none => return (fail, s₁)
      | some u => return (sent, u)) = (.ok (r, t) : Except Fault (ℤ × Server))) :
    ∃ successor ∈ s₁.next[1]?, t.self = s₁.self ∧ t.next = s₁.next ∧
      (r = fail ∧ env.sends s₁.out successor.tcpSocket (padZero message) = false ∨
        r = sent ∧ env.sends s₁.out successor.tcpSocket (padZero message) = true) := by
  obtain ⟨o, ho, h⟩ := Except.bind_eq_ok.mp h
  obtain ⟨successor, hsuccessor, rfl⟩ := sendToSuccessor_eq_ok ho
  refine ⟨successor, successor_eq_ok hsuccessor, ?_⟩
  by_cases hsends : env.sends s₁.out successor.tcpSocket (padZero message) = true
  · simp only [Server.send, if_pos hsends] at h
    cases h
    exact ⟨rfl, rfl, Or.inr ⟨rfl, hsends⟩⟩
  · simp only [Server.send, if_neg hsends] at h
    cases h
    exact ⟨rfl, rfl, Or.inl ⟨rfl, Bool.eq_false_of_not_eq_true hsends⟩⟩

/-- No other frame, and no frame without its send, makes the caller act.  Only an announcement that
cannot be passed on changes the list. -/
theorem lcrElection_passes (hwins : ¬ s.Wins env keyword q) (hlearns : ¬ s.Learns env keyword q)
    (h : lcrElection env s keyword q = .ok (r, t)) :
    (r = 0 ∨ r = -1) ∧ t.self.id = s.self.id ∧ (s.self.leader = 1 → t.self.leader = 1) ∧
      (t.next = s.next ∨ ∃ socket bytes, env.sends s.out socket bytes = false) := by
  simp only [lcrElection] at h
  split at h
  · rename_i hkey
    split at h
    · split at h
      · cases h
        exact ⟨Or.inl rfl, rfl, id, Or.inl rfl⟩
      · obtain ⟨_, -, hself, hnext, hr⟩ := return_sendToSuccessor h
        rw [hself]
        exact ⟨(hr.imp And.left And.left).symm, rfl, id, Or.inl hnext⟩
    · rename_i hgt
      split at h
      · split at h
        · cases h
          exact ⟨Or.inl rfl, rfl, id, Or.inl rfl⟩
        · split at h
          · cases h
            exact ⟨Or.inl rfl, rfl, id, Or.inl rfl⟩
          · obtain ⟨_, -, hself, hnext, hr⟩ := return_sendToSuccessor h
            rw [hself]
            exact ⟨(hr.imp And.left And.left).symm, rfl, id, Or.inl hnext⟩
      · rename_i hlt
        split at h
        · cases h
          exact ⟨Or.inl rfl, rfl, id, Or.inl rfl⟩
        · rename_i hleader
          obtain ⟨o, ho, h⟩ := Except.bind_eq_ok.mp h
          obtain ⟨successor, hsuccessor, rfl⟩ := sendToSuccessor_eq_ok ho
          have hmem := successor_eq_ok hsuccessor
          have hq : q = s.self.id := by omega
          by_cases hsends : env.sends s.out successor.tcpSocket
              (padZero (electionLeader s.self.id)) = true
          · exact absurd ⟨hkey, hq, hleader, successor, hmem, hsends⟩ hwins
          · simp only [Server.send, if_neg hsends] at h
            cases h
            exact ⟨Or.inr rfl, rfl, fun _ => rfl, Or.inl rfl⟩
  · split at h
    · rename_i hkey
      split at h
      · cases h
        exact ⟨Or.inl rfl, rfl, id, Or.inl rfl⟩
      · rename_i hid
        split at h
        · cases h
          exact ⟨Or.inl rfl, rfl, id, Or.inl rfl⟩
        · rename_i first rest hnext
          obtain ⟨successor, hmem, hself, -, ⟨hr, hfails⟩ | ⟨-, hsends⟩⟩ :=
            return_sendToSuccessor h
          · rw [hself]
            exact ⟨Or.inl hr, rfl, id, Or.inr ⟨_, _, hfails⟩⟩
          · have hmem' : successor ∈ s.next[1]? := by
              rw [hnext]
              exact hmem
            exact absurd ⟨hkey, hid, successor, hmem', hsends⟩ hlearns
    · cases h
      exact ⟨Or.inl rfl, rfl, id, Or.inl rfl⟩

/-- IDs are positive, so a frame that is only passed on ends there. -/
theorem actOnElection_passes (hid : 1 ≤ s.self.id) (hr : r = 0 ∨ r = -1) :
    actOnElection env r s = .ok s := by
  have hne : r ≠ 1 := by omega
  have hself : s.self.id ≠ r := by omega
  rw [actOnElection, if_neg hne, if_neg hself]

theorem mem_dropSuccessor_opened {fd : Socket} : fd ∈ (dropSuccessor s).opened ↔
    fd ∈ s.opened ∧ ¬ (IsValidSocket s.successorSocket ∧ fd = s.successorSocket) := by
  rw [dropSuccessor]
  split
  · rename_i hvalid
    simp [hvalid, and_comm]
  · rename_i hvalid
    simp [hvalid]

@[simp] theorem doMulticast_self (bytes : Text) : (s.doMulticast env bytes).self = s.self := by
  rw [Server.doMulticast]
  split <;> rfl

@[simp] theorem doMulticast_next (bytes : Text) : (s.doMulticast env bytes).next = s.next := by
  rw [Server.doMulticast]
  split <;> rfl

@[simp] theorem doMulticast_opened (bytes : Text) :
    (s.doMulticast env bytes).opened = s.opened := by
  rw [Server.doMulticast]
  split <;> rfl

@[simp] theorem dropSuccessor_self (s : Server) : (dropSuccessor s).self = s.self := by
  rw [dropSuccessor]
  split <;> rfl

@[simp] theorem dropSuccessor_next (s : Server) : (dropSuccessor s).next = s.next := by
  rw [dropSuccessor]
  split <;> rfl

end Election

/-! ## The shape -/

/-- The records after the head of a follower: nobody, the leader, or the leader and the
successor.  `id` is the follower's own ID and `socket` its `successor_socket`. -/
inductive FollowerList (id : ℤ) (socket : Socket) : List ServerInfo → Prop
  | alone : FollowerList id socket []
  | led {leader : ServerInfo} (hleader : leader.leader = 1) (hid : leader.id ≠ id) :
      FollowerList id socket [leader]
  | ring {leader successor : ServerInfo} (hleader : leader.leader = 1)
      (hsuccessor : successor.leader = 0) (hid : leader.id ≠ id) (hid' : successor.id ≠ id)
      (hne : leader.id ≠ successor.id) (hsocket : successor.tcpSocket = socket) :
      FollowerList id socket [leader, successor]

/-- Every send succeeds. -/
def Env.Sends (env : Env) : Prop := ∀ out socket bytes, env.sends out socket bytes = true

def Event.Sends : Event → Prop
  | .timer env => env.Sends
  | .accept .. => True
  | .datagram env _ _ => env.Sends
  | .readable env _ _ => env.Sends

namespace Server

def Follows (s : Server) : Prop := FollowerList s.self.id s.successorSocket s.next

section Shape
variable {env : Env} {s t : Server} {i : Socket}

theorem Follows.of_fields (h : s.Follows) (hid : t.self.id = s.self.id) (hnext : t.next = s.next)
    (hsocket : t.successorSocket = s.successorSocket) : t.Follows := by
  rw [Follows, hid, hnext, hsocket]
  exact h

/-- A record appended after the leader. -/
theorem followerList_append {id : ℤ} {self leader : ServerInfo} (hself : self.id = id)
    (hleader : leader.leader = 1) (hid : leader.id ≠ id) (now newId port : ℤ) (ip : Text)
    (socket : Socket) :
    FollowerList id socket (appendServer now self [leader] newId ip port 0 socket) := by
  rw [appendServer]
  split
  · exact .led hleader hid
  · rename_i hnew
    have hnot : ∀ x ∈ self :: [leader], x.id ≠ newId := fun x hx heq => hnew ⟨x, hx, heq⟩
    refine .ring hleader rfl hid ?_ (hnot leader (by simp)) rfl
    rw [← hself]
    exact (hnot self (by simp)).symm

theorem deleteServer_successor {leader successor : ServerInfo} {next : List ServerInfo}
    (hne : leader.id ≠ successor.id)
    (h : ChatRing.deleteServer [leader, successor] successor.id = .ok next) : next = [leader] := by
  have hlast : ChatRing.deleteServer [leader, successor] successor.id = .ok [leader] :=
    deleteServer_append (a := [leader]) (by simpa using hne)
  exact (Except.ok.inj (hlast.symm.trans h)).symm

/-- The new successor takes the third place, or its ID is known and the place is free. -/
theorem Follows.newSuccessor (hs : s.Follows) {ip : Text} {id port : ℤ}
    (h : newSuccessor env s ip id port = .ok t) : t.Follows := by
  obtain ⟨-, portStr, next, master, opened, hcases, rfl⟩ := newSuccessor_eq_ok h
  have hlist : ∃ leader, next = [leader] ∧ leader.leader = 1 ∧ leader.id ≠ s.self.id := by
    rw [Follows] at hs
    generalize s.next = l at hs hcases
    cases hs with
    | alone => simp at hcases
    | @led leader hleader hid =>
        obtain ⟨rfl, -⟩ : next = [leader] ∧ _ := by simpa using hcases
        exact ⟨leader, rfl, hleader, hid⟩
    | @ring leader successor hleader hsuccessor hid hid' hne hsocket =>
        refine ⟨leader, ?_, hleader, hid⟩
        rcases hcases with ⟨first, hnext, -⟩ | ⟨first, second, rest, hnext, hdelete, -⟩
        · cases hnext
        · cases hnext
          exact deleteServer_successor hne hdelete
  obtain ⟨leader, rfl, hleader, hid⟩ := hlist
  exact followerList_append rfl hleader hid _ _ _ _ _

theorem Follows.handleKnowNewLeader (hs : s.Follows) {nlID nlPORT sID sPORT : ℤ} {nlIP sIP : Text}
    (h : handleKnowNewLeader env s i nlID nlIP nlPORT sID sIP sPORT = .ok t) : t.Follows := by
  obtain ⟨next, hnext, hcases⟩ := handleKnowNewLeader_eq_ok h
  have hfollows : Follows { s with next := next } := by
    rcases hnext with ⟨-, rfl⟩ | ⟨-, rfl⟩
    · exact hs
    · rw [Follows, appendServer]
      split
      · exact .alone
      · rename_i hnew
        exact .led rfl fun heq => hnew ⟨s.self, List.mem_cons_self, heq.symm⟩
  rcases hcases with ⟨-, rfl⟩ | ⟨-, u, hu, rfl⟩
  · exact hfollows.of_fields rfl rfl rfl
  · exact (hfollows.newSuccessor hu).of_fields rfl rfl rfl

/-- A successor that disconnects leaves the third place free. -/
theorem Follows.disconnect (hs : s.Follows) (h : disconnect s i = .ok t) : t.Follows := by
  obtain ⟨u, ltcpSocket, hu, rfl⟩ := disconnect_eq_ok h
  rcases handleDisconnection_eq_ok hu with ⟨-, rfl⟩ |
    ⟨-, -, successor, next, hsuccessor, hdelete, rfl⟩ | ⟨-, -, -, -, rfl⟩
  · exact hs
  · rw [Follows] at hs
    show FollowerList _ _ next
    rw [Server.successor] at hsuccessor
    generalize s.next = l at hs hsuccessor hdelete
    cases hs with
    | alone => cases hsuccessor
    | led hleader hid => cases hsuccessor
    | @ring leader third hleader hthird hid hid' hne hsocket =>
        obtain rfl : third = successor := Except.ok.inj hsuccessor
        rw [deleteServer_successor hne hdelete]
        exact .led hleader hid
  · exact hs

/-- A frame of an election takes the list down, makes the server a leader, or changes
nothing about it. -/
theorem Follows.handleElection (hs : s.Follows) (hid : 1 ≤ s.self.id) (henv : env.Sends)
    {read keyword : Text} {predId : ℤ} (h : handleElection env s read keyword predId = .ok t) :
    t.self.leader = 1 ∨ t.Follows := by
  rw [handleElection_eq] at h
  generalize electionOf read keyword predId = e at h
  obtain ⟨⟨r, u⟩, hu, h⟩ := Except.bind_eq_ok.mp h
  simp only at h
  by_cases hwins : s.Wins env e.1 e.2
  · obtain ⟨u', -, -, -, hlcr, -, -, hself⟩ := lcrElection_wins hwins
    obtain ⟨rfl, rfl⟩ := Prod.mk.inj (Except.ok.inj (hlcr.symm.trans hu))
    left
    rw [(SameRole.of_actOnElection h).leader, hself]
  · by_cases hlearns : s.Learns env e.1 e.2
    · obtain ⟨u', first, successor, rest, hlcr, hnext, hunext, hself⟩ := lcrElection_learns hlearns
      obtain ⟨rfl, rfl⟩ := Prod.mk.inj (Except.ok.inj (hlcr.symm.trans hu))
      obtain ⟨second, rest', htail, ht⟩ := actOnElection_learned hunext h
      right
      rw [Follows] at hs ⊢
      rw [hnext] at hs
      cases hs
      cases htail
      rw [ht]
      simpa using FollowerList.alone
    · obtain ⟨hr, huid, -, hunext | ⟨socket, bytes, hfails⟩⟩ := lcrElection_passes hwins hlearns hu
      · rw [actOnElection_passes (huid ▸ hid) hr] at h
        cases h
        exact Or.inr (hs.of_fields huid hunext (SameSockets.of_lcrElection hu).successorSocket)
      · rw [henv] at hfails
        cases hfails

/-- A leader timeout makes a server without a successor a leader, and else leaves the list
alone. -/
theorem Follows.onTimer (hs : s.Follows) (hleader : s.self.leader ≠ 1)
    (h : onTimer env s = .ok t) : t.self.leader = 1 ∨ t.Follows := by
  by_cases halone : s.LeftAlone env
  · obtain ⟨sent, ht, -⟩ := onTimer_alone hleader halone
    obtain rfl := Except.ok.inj (ht.symm.trans h)
    exact Or.inl rfl
  · obtain ⟨participant, sent, ht, -⟩ := onTimer_eq hleader halone
    obtain rfl := Except.ok.inj (ht.symm.trans h)
    exact Or.inr (hs.of_fields rfl rfl rfl)

theorem followerList_updateHeartbeatTimeout {id : ℤ} {socket : Socket} {next : List ServerInfo}
    (h : FollowerList id socket next) (now alive : ℤ) :
    FollowerList id socket (updateHeartbeatTimeout now next alive) := by
  cases h with
  | alone => exact .alone
  | led hleader hid =>
      simp only [updateHeartbeatTimeout]
      split
      · exact .led hleader hid
      · exact .led hleader hid
  | ring hleader hsuccessor hid hid' hne hsocket =>
      simp only [updateHeartbeatTimeout]
      split
      · exact .ring hleader hsuccessor hid hid' hne hsocket
      · split
        · exact .ring hleader hsuccessor hid hid' hne hsocket
        · exact .ring hleader hsuccessor hid hid' hne hsocket

theorem Follows.updateHeartbeat (hs : s.Follows) (env : Env) (id : ℤ) :
    (s.updateHeartbeat env id).Follows := by
  rw [Server.updateHeartbeat]
  split
  · exact hs
  · exact followerList_updateHeartbeatTimeout hs env.now id

/-- A heartbeat of the leader is all that a follower takes from the group. -/
theorem Follows.handleMcastReceive (hs : s.Follows) (hleader : s.self.leader ≠ 1)
    {received : Option Text} {addr : Text} {fd : Socket}
    (h : handleMcastReceive env s received addr = .ok (fd, t)) : t.Follows := by
  rcases handleMcastReceive_eq_ok h with ⟨-, rfl⟩ | ⟨hleads, -⟩ | ⟨-, -, leader, rest, hnext, rfl⟩
  · exact hs
  · exact absurd hleads hleader
  · rw [Follows, hnext] at hs
    show FollowerList _ _ ({ leader with lastHeartbeat := env.now } :: rest)
    cases hs with
    | led hlead hid => exact .led hlead hid
    | ring hlead hsuccessor hid hid' hne hsocket =>
        exact .ring hlead hsuccessor hid hid' hne hsocket

theorem Follows.acceptNewClient (hs : s.Follows) (socket : Socket) (clientIp : Option Text) :
    (acceptNewClient s socket clientIp).Follows := by
  obtain ⟨master, opened, clientArray, hset⟩ := acceptNewClient_eq s socket clientIp
  rw [hset]
  exact hs

end Shape

/-! ## Every event -/

section Events
variable {env : Env} {s t : Server} {i : Socket} {e : Event}

/-- A server keeps its ID, and a leader stays one. -/
theorem handle_self (h : handle s e = .ok t) :
    t.self.id = s.self.id ∧ (s.self.leader = 1 → t.self.leader = 1) := by
  obtain ⟨hid, hlead, -⟩ := handle_role h
  exact ⟨hid, fun hleader => hlead.mpr (Or.inl hleader)⟩

/-- IDs are positive, and a server that does not lead has the list of a follower. -/
structure KeepsList (s : Server) : Prop where
  id : 1 ≤ s.self.id
  follows : s.self.leader ≠ 1 → s.Follows

/-- **No event breaks the list of a follower.** -/
theorem KeepsList.handle (hs : s.KeepsList) (hsends : e.Sends) (h : s.handle e = .ok t) :
    t.KeepsList := by
  obtain ⟨hid, hstays⟩ := handle_self h
  refine ⟨hid ▸ hs.id, fun hleader => ?_⟩
  have hs₀ : s.self.leader ≠ 1 := fun h₁ => hleader (hstays h₁)
  have hfollows : s.Follows := hs.follows hs₀
  cases handled h with
  | timer ht => exact (hfollows.onTimer hs₀ ht).resolve_left hleader
  | accept => exact hfollows.acceptNewClient _ _
  | @datagram env received senderAddr fd u ht =>
      obtain ⟨master, hregister⟩ := registerPeer_eq u fd
      have hu : u.Follows := hfollows.handleMcastReceive hs₀ ht
      rw [hregister]
      exact hu
  | disconnect ht => exact hfollows.disconnect ht
  | unfinished => exact hfollows
  | updateFromLeader _ _ _ ht => exact hfollows.newSuccessor ht
  | @client env i received read message senderId destId r t _ _ _ ht =>
      by_cases hmessage : message = text "GET_INDEX"
      · rw [hmessage, handleClientMessage_getIndex] at ht
        split at ht
        · cases ht
          exact hfollows
        · cases ht
          exact hfollows
      · obtain ⟨sent, -, rfl⟩ := handleClientMessage_forward hmessage ht
        exact hfollows
  | election _ _ _ ht => exact (hfollows.handleElection hs.id hsends ht).resolve_left hleader
  | knowNewLeader _ _ _ ht => exact hfollows.handleKnowNewLeader ht
  | heartbeat => exact hfollows.updateHeartbeat _ _
  | unknown => exact hfollows

end Events
end Server

/-! ## Joining -/

/-- The ID that a join reply gives for the leader. -/
def replyLeader (received : Text) : Option ℤ :=
  match frameBody (received.take bufferSize) with
  | none => none
  | some buf =>
      match sscanf buf "%d:%15[^:]:%d:%d\n\n" with
      | [.int id, .str _, .int _, .int _] => some id
      | _ => none

/-- Every join reply that is read names another server than this one. -/
def NamesOther (id : ℤ) (rounds : List Round) : Prop :=
  ∀ round ∈ rounds, ∀ received ∈ round.received, replyLeader received ≠ some id

instance (id : ℤ) (rounds : List Round) : Decidable (NamesOther id rounds) :=
  inferInstanceAs (Decidable (∀ round ∈ rounds, _))

section Joining
variable {env : Env} {s t : Server} {d : Discovery} {i fd : Socket} {id : ℤ}

/-- The server knows nobody yet. -/
def Searching (id : ℤ) (s : Server) : Prop := s.next = [] ∧ s.self.id = id

/-- The server still knows nobody, or has the list of a follower. -/
def Progress.Joins (id : ℤ) : Progress → Prop
  | .returned _ s => s.Follows ∧ s.self.id = id
  | .waiting d => Searching id d.server

theorem Searching.follows (h : Searching id s) : s.Follows ∧ s.self.id = id := by
  refine ⟨?_, h.2⟩
  rw [Server.Follows, h.1]
  exact .alone

theorem joinSuccessor_follows {leader : ServerInfo} {ip : Text} {port successorId : ℤ}
    (hnext : s.next = [leader]) (hleader : leader.leader = 1) (hid : leader.id ≠ s.self.id)
    (h : joinSuccessor env s i ip port successorId = .ok (fd, t)) :
    t.Follows ∧ t.self.id = s.self.id := by
  have hled : ∀ socket, FollowerList s.self.id socket s.next := by
    intro socket
    rw [hnext]
    exact .led hleader hid
  rw [joinSuccessor] at h
  split at h
  · obtain ⟨portStr, -, h⟩ := Except.bind_eq_ok.mp h
    simp only [Server.setupTcpClient] at h
    by_cases hc : IsValidSocket env.connect
    · simp only [hc, if_true] at h
      cases h
      refine ⟨?_, rfl⟩
      show FollowerList _ _ (appendServer env.now s.self s.next successorId ip port 0 env.connect)
      rw [hnext]
      exact Server.followerList_append rfl hleader hid _ _ _ _ _
    · simp only [hc, if_false] at h
      cases h
      exact ⟨hled _, rfl⟩
  · cases h
    exact ⟨hled _, rfl⟩

theorem Searching.readReply (hd : Searching id d.server) {received : Text}
    (hother : replyLeader received ≠ some id) {p : Progress}
    (h : readReply env d i received = .ok p) : p.Joins id := by
  rw [ChatRing.readReply] at h
  split at h
  · cases h
    exact hd.follows
  · split at h
    · cases h
      exact hd.follows
    · rename_i buf hbuf
      split at h
      · rename_i leaderId ip port successorId hreply
        have hne : leaderId ≠ id := by
          rintro rfl
          exact hother (by simp [replyLeader, hbuf, hreply])
        have happend : appendServer env.now d.server.self d.server.next leaderId d.addressBuffer
            d.server.self.port 1 i =
              [createServer env.now leaderId d.addressBuffer d.server.self.port 1 i] := by
          rw [appendServer, hd.1, if_neg]
          · rfl
          · rintro ⟨x, hx, heq⟩
            obtain rfl := List.mem_singleton.mp hx
            exact hne (heq.symm.trans hd.2)
        simp only [happend] at h
        obtain ⟨⟨socket, u⟩, hu, h⟩ := Except.bind_eq_ok.mp h
        cases h
        have hself : leaderId ≠ d.server.self.id := fun heq => hne (heq.trans hd.2)
        obtain ⟨hfollows, hid⟩ := joinSuccessor_follows (s := { d.server with
          self := { d.server.self with leader := 0 }
          next := [createServer env.now leaderId d.addressBuffer d.server.self.port 1 i] })
          rfl rfl hself hu
        exact ⟨hfollows, hid.trans hd.2⟩
      · cases h
        exact hd

theorem Searching.onReady (hd : Searching id d.server) {arrival : Arrival}
    (hother : ∀ received, arrival = .data received → replyLeader received ≠ some id) {p : Progress}
    (h : onReady env d i arrival = .ok p) : p.Joins id := by
  unfold ChatRing.onReady at h
  split at h
  · split at h
    · rename_i socketClient clientIp
      split at h
      · cases h
        show Searching id (assignClientInfo _ socketClient clientIp)
        rw [Searching, assignClientInfo_next, assignClientInfo_self]
        exact hd
      · cases h
        exact hd.follows
    · cases h
      exact hd
  · split at h
    · split at h
      · exact hd.readReply (hother _ rfl) h
      · cases h
        exact hd
    · cases h
      exact hd

theorem Searching.onReads (hd : Searching id d.server) {reads : List (Socket × Arrival)}
    (hother : ∀ i received, (i, Arrival.data received) ∈ reads → replyLeader received ≠ some id)
    {p : Progress} (h : onReads env reads d = .ok p) : p.Joins id := by
  induction reads generalizing d with
  | nil =>
      cases h
      exact hd
  | cons r reads ih =>
      obtain ⟨p', hp', h⟩ := Except.bind_eq_ok.mp h
      have hp : p'.Joins id := by
        refine hd.onReady ?_ hp'
        intro received hr
        exact hother r.1 received (by rw [← hr]; exact List.mem_cons_self)
      cases p' with
      | returned socket u =>
          cases h
          exact hp
      | waiting d' =>
          exact ih hp (fun i received hmem => hother i received (List.mem_cons_of_mem _ hmem)) h

theorem Searching.onRounds (hd : Searching id d.server) {rounds : List Round}
    (hother : NamesOther id rounds) (h : onRounds rounds d = .ok (fd, t)) :
    t.Follows ∧ t.self.id = id := by
  induction rounds generalizing d with
  | nil =>
      cases h
      exact hd.follows
  | cons round rounds ih =>
      cases round with
      | failed =>
          cases h
          exact hd.follows
      | quiet env =>
          cases h
          refine Searching.follows ⟨?_, ?_⟩
          · simpa using hd.1
          · simpa using hd.2
      | ready env reads =>
          obtain ⟨p, hp, h⟩ := Except.bind_eq_ok.mp h
          have hjoins : p.Joins id := by
            refine hd.onReads ?_ hp
            intro i received hmem
            refine hother _ List.mem_cons_self received ?_
            exact List.mem_filterMap.mpr ⟨_, (List.mem_filter.mp hmem).1, rfl⟩
          cases p with
          | returned socket u =>
              cases h
              exact hjoins
          | waiting d' => exact ih hjoins (fun r hr => hother r (List.mem_cons_of_mem _ hr)) h

/-- **A server that joins has the list of a follower.** -/
theorem startUp_keepsList {rounds : List Round} (hid : 1 ≤ s.self.id) (hnext : s.next = [])
    (hother : NamesOther s.self.id rounds) (h : startUp env rounds s = .ok t) : t.KeepsList := by
  obtain ⟨⟨ltcpSocket, u⟩, hu, h⟩ := Except.bind_eq_ok.mp h
  have hjoined : u.Follows ∧ u.self.id = s.self.id := by
    rw [serviceDiscovery] at hu
    split at hu
    · refine Searching.onRounds ?_ (fun r hr => hother r (List.mem_of_mem_take hr)) hu
      exact ⟨by simpa using hnext, by simp⟩
    · cases hu
      exact Searching.follows ⟨hnext, rfl⟩
  simp only at h
  split at h
  · cases h
    exact ⟨hjoined.2 ▸ hid, fun _ => hjoined.1⟩
  · cases h
    exact ⟨hjoined.2 ▸ hid, fun _ => hjoined.1⟩

end Joining

/-! ## Runs -/

namespace Server

/-- **A server that has joined keeps the list of a follower until it leads, whatever
arrives, as long as its sends succeed.**  A connect that fails ends the process. -/
theorem follower_list {env₀ env₁ : Env} {ip : Text} {port : ℤ} {socketListen mcSocket : Socket}
    {rounds : List Round} {s₀ s : Server} {h : List (Server × Event)}
    (start : startUp env₁ rounds (setUp env₀ ip port socketListen mcSocket) = .ok s₀)
    (hother : NamesOther (getRadomId env₀ 1 10000) rounds) (run : Run step s₀ h s)
    (hsends : ∀ x e, (x, e) ∈ h → e.Sends) :
    ∀ x ∈ Run.states h s, x.self.leader ≠ 1 → FollowerList x.self.id x.successorSocket x.next := by
  have h₀ : s₀.KeepsList := startUp_keepsList (System.isId_getRadomId env₀).1 rfl hother start
  have hkeep := run.guarded_states h₀ (P := KeepsList) (C := fun _ e => e.Sends)
    (fun x e y hx he hstep => hx.handle he (step_eq_some hstep).2) hsends
  intro x hx
  exact (hkeep x hx).follows

/-- Every send succeeds; the next connection gets the descriptor `fd`. -/
private def working (now : ℤ) (fd : Socket) : Env := ⟨now, fd, fun _ _ _ => true, true, 8⟩

/-- The leader 7 names the successor 11. -/
private def joiningRounds : List Round :=
  [.ready (working 0 6) [(3, .connection 5 (some (text "10.0.0.1")))],
    .ready (working 0 6) [(5, .data (padX (joinReply 7 (text "10.0.0.3") 4041 11)))]]

private def joinedServer : Server :=
  (startUp (working 0 6) joiningRounds
    (setUp (working 0 6) (text "10.0.0.2") 4041 3 4)).toOption.get (by decide +kernel)

/-- A new successor that leaves, another one, an election that 11 wins, and its message. -/
private def memberEvents : List Event :=
  [.readable (working 1 7) 5 (padX (updateFromLeader (text "10.0.0.4") 13 4041)),
    .readable (working 2 errorReturn) 7 [],
    .readable (working 3 8) 5 (padX (updateFromLeader (text "10.0.0.3") 11 4041)),
    .timer (working 9 errorReturn),
    .readable (working 10 errorReturn) 9 (frame (.leader 11)),
    .readable (working 11 12) 10
      (padX (knowNewLeader 11 (text "10.0.0.3") 4041 7 (text "10.0.0.1") 4041))]

private def memberEnd : Server := (exec step joinedServer memberEvents).get (by decide +kernel)

theorem follower_list_rejoined :
    joinedServer.next.map ServerInfo.id = [7, 11] ∧ memberEnd.next.map ServerInfo.id = [11, 7] ∧
      ∀ x ∈ Run.states (trace step joinedServer memberEvents) memberEnd,
        x.self.leader ≠ 1 → FollowerList x.self.id x.successorSocket x.next := by
  have start : startUp (working 0 6) joiningRounds
      (setUp (working 0 6) (text "10.0.0.2") 4041 3 4) = .ok joinedServer :=
    Except.toOption_eq_some.mp (Option.some_get _).symm
  have run : Run step joinedServer (trace step joinedServer memberEvents) memberEnd :=
    Run.of_exec (Option.some_get _).symm
  refine ⟨by decide +kernel, by decide +kernel, follower_list start (by decide +kernel) run ?_⟩
  have hsends : ∀ e ∈ memberEvents, e.Sends := by
    simp [memberEvents, Event.Sends, Env.Sends, working]
  exact fun x e hmem => hsends e (mem_of_mem_trace hmem)

end Server
end ChatRing
