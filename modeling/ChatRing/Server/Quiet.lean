import ChatRing.Server.Guidance
import ChatRing.Server.Sweep

/-!
# What else happens at a leader

Heartbeats, connections and the messages of chat clients change nothing in the list of a leader
but the times of the last heartbeats, and nothing of what it tells the servers there.

## Main results

* `still_of_quiet` — the list stays, and nothing is sent to its servers.
-/

namespace ChatRing
open CText

/-- No server is reached on descriptor `i`, nor on that of a chat client. -/
def Server.Apart (s : Server) (i : Socket) : Prop :=
  ∀ p ∈ s.next, p.tcpSocket ≠ i ∧ ∀ e ∈ s.clientArray, e.socket ≠ p.tcpSocket

instance (s : Server) (i : Socket) : Decidable (s.Apart i) :=
  inferInstanceAs (Decidable (∀ p ∈ s.next, _))

/-- A text that a server or a chat client sends to its leader on connection `i`. -/
def Frame.Harmless (s : Server) (i : Socket) : Frame → Prop
  | .heartbeat _ => True
  | .unknown => True
  | .client .. => s.Apart i
  | _ => False

instance (s : Server) (i : Socket) : (f : Frame) → Decidable (f.Harmless s i)
  | .heartbeat _ | .unknown => isTrue trivial
  | .client .. => inferInstanceAs (Decidable (s.Apart i))
  | .updateFromLeader .. | .election .. | .knowNewLeader .. => isFalse id

/-- What a leader handles besides announcements and overdue servers. -/
def Server.Quiet (s : Server) : Event → Prop
  | .timer env => ∀ p ∈ s.next, ¬ TimedOut env (2 * heartbeatTimeout) p
  | .accept .. => True
  | .datagram .. => False
  | .readable _ i received => ∀ read ∈ frameBody (received.take bufferSize),
      (parseFrame (i = s.ltcpSocket) read).Harmless s i

instance (s : Server) : (e : Event) → Decidable (s.Quiet e)
  | .timer _ => inferInstanceAs (Decidable (∀ p ∈ s.next, _))
  | .accept .. => isTrue trivial
  | .datagram .. => isFalse id
  | .readable _ _ received =>
      inferInstanceAs (Decidable (∀ read ∈ frameBody (received.take bufferSize), _))

/-- The connection that is lost. -/
def Event.closes : Event → Option Socket
  | .readable _ i [] => some i
  | _ => none

/-- The leader lists the same servers, and has sent them nothing. -/
structure Still (s t : Server) : Prop where
  self : SamePeer t.self s.self
  leader : LeaderList t
  next : ∃ g : ServerInfo → ServerInfo, (∀ r, ∃ now, g r = { r with lastHeartbeat := now }) ∧
    t.next = s.next.map g
  sent : ∀ p ∈ s.next, sentOn (t.out.drop s.out.length) p.tcpSocket = []

section Still
variable {env : Env} {s t : Server} {e : Event} {k socket i : Socket} {bytes message : Text}
  {senderId destId r : ℤ}

/-- A heartbeat is all that its frame says. -/
theorem quiet_of_heartbeat {received : Text} {id : ℤ} (env : Env)
    (h : (Receiver.connection (i = s.ltcpSocket)).read received = some (.heartbeat id)) :
    s.Quiet (.readable env i received) ∧ (Event.readable env i received).closes = none := by
  obtain ⟨body, hbody, h⟩ := Option.bind_eq_some_iff.mp h
  constructor
  · intro read hread
    obtain rfl := Option.some.inj (hbody.symm.trans hread)
    unfold readConnection at h
    split at h
    · cases h
    · cases h
    · split at h
      · cases h
      · split at h
        · cases h
        · cases h
    · cases h
    · rename_i hparse
      rw [hparse]
      trivial
    · cases h
  · cases received with
    | nil => cases hbody
    | cons x received => rfl

theorem Still.of_fields (hs : LeaderList s) (hself : t.self = s.self) (hnext : t.next = s.next)
    (hsent : ∀ p ∈ s.next, sentOn (t.out.drop s.out.length) p.tcpSocket = []) : Still s t where
  self := by rw [hself]; exact .refl _
  leader := hs.of_next ⟨by rw [hself]; exact hs.leader, by rw [hnext]; exact hs.ascending⟩
    (by rw [hself]) (by rw [hself]) (by rw [hself])
    fun p hp => ⟨hs.head_ne p (hnext ▸ hp), hs.peers p (hnext ▸ hp)⟩
  next := ⟨id, fun r => ⟨r.lastHeartbeat, rfl⟩, by rw [hnext, List.map_id]⟩
  sent := hsent

theorem still_updateHeartbeat (hs : LeaderList s) (env : Env) (alive : ℤ) :
    Still s (s.updateHeartbeat env alive) := by
  have hleader : LeaderList (s.updateHeartbeat env alive) :=
    hs.step (a := .heartbeat env alive) trivial rfl
  refine ⟨?_, hleader, ?_, ?_⟩
  · rw [Server.updateHeartbeat]
    split
    · exact ⟨rfl, rfl, rfl⟩
    · exact .refl _
  · rw [Server.updateHeartbeat]
    split
    · exact ⟨id, fun r => ⟨r.lastHeartbeat, rfl⟩, by simp⟩
    · refine ⟨ServerInfo.beat env.now alive, ?_, updateHeartbeatTimeout_eq_map hs.ascending⟩
      intro r
      rw [ServerInfo.beat]
      split
      · exact ⟨_, rfl⟩
      · exact ⟨r.lastHeartbeat, rfl⟩
  · intro p _
    rw [Server.updateHeartbeat]
    split
    · simp
    · simp

/-- A multicast goes to no connection. -/
theorem doMulticast_sent (env : Env) (s : Server) (bytes : Text) :
    ∃ sent, (s.doMulticast env bytes).out = s.out ++ sent ∧ ∀ k, sentOn sent k = [] := by
  rw [Server.doMulticast]
  split
  · exact ⟨[.multicast bytes], rfl, fun k => rfl⟩
  · exact ⟨[], (List.append_nil _).symm, fun k => rfl⟩

theorem sweep_of_alive {timeout : ℤ} {l : List ServerInfo} (s : Server)
    (halive : ∀ p ∈ l, ¬ TimedOut env timeout p) : sweep env timeout l s = .ok s := by
  induction l with
  | nil => rfl
  | cons p l ih =>
      rw [sweep_cons_of_alive (halive p (by simp))]
      exact ih fun q hq => halive q (by simp [hq])

/-! ### The messages of chat clients -/

theorem sendIgnored_elsewhere (env : Env) (s : Server) (socket : Socket) (bytes : Text) :
    ∃ sent, sendIgnored env s socket bytes = { s with out := s.out ++ sent } ∧
      ∀ k, socket ≠ k → sentOn sent k = [] := by
  rw [sendIgnored]
  cases h : s.send env socket bytes with
  | none => exact ⟨[], by simp, by simp⟩
  | some t =>
      refine ⟨[.send socket bytes], Server.send_eq_some h, fun k hk => ?_⟩
      simp [sentOn, hk]

theorem foldl_sendIgnored_elsewhere (env : Env) (bytes : Text) (l : List ClientInfo)
    (s : Server) :
    ∃ sent, l.foldl (fun s e => sendIgnored env s e.socket bytes) s =
      { s with out := s.out ++ sent } ∧ ∀ k, (∀ e ∈ l, e.socket ≠ k) → sentOn sent k = [] := by
  induction l generalizing s with
  | nil => exact ⟨[], by simp, by simp⟩
  | cons e l ih =>
      obtain ⟨first, heq, hfirst⟩ := sendIgnored_elsewhere env s e.socket bytes
      obtain ⟨others, heq', hothers⟩ := ih { s with out := s.out ++ first }
      refine ⟨first ++ others, ?_, fun k hk => ?_⟩
      · rw [List.foldl_cons, heq, heq', ← List.append_assoc]
      · rw [sentOn_append, hfirst k (hk e (by simp)), hothers k fun e' he' => hk e' (by simp [he'])]
        rfl

/-- A chat message is sent to chat clients, and the reply to a request on its connection. -/
theorem handleClientMessage_elsewhere
    (h : handleClientMessage env s senderId destId message i = .ok (r, t)) :
    t.self = s.self ∧ t.next = s.next ∧
      ∀ k, i ≠ k → (∀ e ∈ s.clientArray, e.socket ≠ k) →
        sentOn (t.out.drop s.out.length) k = [] := by
  by_cases hmessage : message = text "GET_INDEX"
  · rw [hmessage, handleClientMessage_getIndex] at h
    split at h
    · cases h
      refine ⟨rfl, rfl, fun k hi _ => ?_⟩
      simp [sentOn, hi]
    · cases h
      refine ⟨rfl, rfl, fun k _ _ => ?_⟩
      simp [Server.indexed, Server.closeSocket]
  · rw [handleClientMessage, if_neg hmessage] at h
    obtain ⟨u, hu, h⟩ := Except.bind_eq_ok.mp h
    have hforward : ∃ sent, u = { s with out := s.out ++ sent } ∧
        ∀ k, (∀ e ∈ s.clientArray, e.socket ≠ k) → sentOn sent k = [] := by
      rw [forwardToClient] at hu
      split at hu
      · cases hu
        exact ⟨[], by simp, by simp⟩
      · rename_i destClient hfind
        obtain ⟨sendBuf, -, hu⟩ := Except.bind_eq_ok.mp hu
        cases hu
        obtain ⟨sent, heq, hsent⟩ := sendIgnored_elsewhere env s destClient.socket sendBuf
        exact ⟨sent, heq, fun k hk => hsent k (hk _ (List.mem_of_find?_eq_some hfind))⟩
    obtain ⟨sent, rfl, hsent⟩ := hforward
    split at h
    · obtain ⟨sendBuf, -, h⟩ := Except.bind_eq_ok.mp h
      obtain ⟨others, heq, hothers⟩ := foldl_sendIgnored_elsewhere env sendBuf
        (s.clientArray.filter fun e => e.id ≠ senderId) { s with out := s.out ++ sent }
      cases h
      simp only [heq]
      refine ⟨trivial, trivial, fun k _ hk => ?_⟩
      rw [List.append_assoc, List.drop_left, sentOn_append, hsent k hk,
        hothers k fun e he => hk e (List.mem_of_mem_filter he)]
      rfl
    · cases h
      refine ⟨rfl, rfl, fun k _ hk => ?_⟩
      rw [List.drop_left, hsent k hk]

/-- **What else a leader handles** leaves its list alone, and goes to nobody there. -/
theorem still_of_quiet (hs : LeaderList s) (hquiet : s.Quiet e) (ht : s.handle e = .ok t) :
    Still s t := by
  have hharmless : ∀ {env i received read frame}, e = .readable env i received →
      frameBody (received.take bufferSize) = some read →
        parseFrame (i = s.ltcpSocket) read = frame → frame.Harmless s i := by
    rintro env i received read frame rfl hread rfl
    exact hquiet read hread
  cases Server.handled ht with
  | @timer env _ ht =>
      rw [onTimer, if_pos hs.leader] at ht
      split at ht
      · cases ht
        exact .of_fields hs rfl rfl (by simp)
      · obtain ⟨sent, hout, hsent⟩ :=
          doMulticast_sent env s (padZero (heartbeat s.self.id))
        rw [checkHeartbeatTimeout, doMulticast_next, sweep_of_alive _ hquiet] at ht
        cases ht
        exact .of_fields hs (doMulticast_self _) (doMulticast_next _) (by simp [hout, hsent])
  | accept =>
      obtain ⟨master, opened, clientArray, heq⟩ := acceptNewClient_eq s _ _
      rw [heq]
      exact .of_fields hs rfl rfl (by simp)
  | datagram => exact hquiet.elim
  | disconnect hu =>
      obtain ⟨hself, hnext, hout⟩ := disconnect_next hs.leader hu
      exact .of_fields hs hself hnext (by simp [hout])
  | unfinished => exact .of_fields hs rfl rfl (by simp)
  | updateFromLeader _ hread hframe => exact (hharmless rfl hread hframe).elim
  | client _ hread hframe hu =>
      have hapart := hharmless rfl hread hframe
      obtain ⟨hself, hnext, hsent⟩ := handleClientMessage_elsewhere hu
      exact .of_fields hs hself hnext fun p hp => hsent _ (hapart p hp).1.symm (hapart p hp).2
  | election _ hread hframe => exact (hharmless rfl hread hframe).elim
  | knowNewLeader _ hread hframe => exact (hharmless rfl hread hframe).elim
  | heartbeat => exact still_updateHeartbeat hs _ _
  | unknown => exact .of_fields hs rfl rfl (by simp)

end Still

end ChatRing
