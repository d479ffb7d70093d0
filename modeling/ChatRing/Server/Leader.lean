import ChatRing.Lib.Run
import ChatRing.Server.Loop

/-!
# The leader and its peers

The events that change the list of a leader: admissions, heartbeats of peers,
disconnections and heartbeat sweeps.  One peer is removed by `ring_status`, whose
effect `ringStatus_eq` gives for the first record with the socket.

## Main results

* `ringStatus_eq`, `ringStatus_eq_ok` — which record goes, and who is told.
* `Leading.step` — the list stays ascending, so that no two records share an ID.
-/

namespace ChatRing
open CText

inductive LeaderAction
  /-- `LEADER_DISCOVERY` of a server at `addr`. -/
  | discovery (env : Env) (id port : ℤ) (addr : Text)
  /-- `WHO_IS_LEADER` of a server at `addr`. -/
  | whoIsLeader (env : Env) (id port : ℤ) (addr : Text)
  /-- A heartbeat frame of a peer. -/
  | heartbeat (env : Env) (id : ℤ)
  /-- `recv` on socket `i` returns less than 1. -/
  | disconnect (i : Socket)
  /-- One call of `check_heartbeat_timeout`. -/
  | sweep (env : Env) (timeout : ℤ)

/-- An admission, and the `FD_SET` of `main` for the socket it returned. -/
def register (admission : Except Fault (Socket × Server)) : Except Fault Server := do
  let (fd, s) ← admission
  return registerPeer s fd

namespace Server

def leaderHandle (s : Server) : LeaderAction → Except Fault Server
  | .discovery env id port addr => register (newServer env s id port addr)
  | .whoIsLeader env id port addr => register (ringReconstruction env s id port addr)
  | .heartbeat env id => .ok (s.updateHeartbeat env id)
  | .disconnect i => ChatRing.disconnect s i
  | .sweep env timeout => checkHeartbeatTimeout env s timeout

/-- A new connection gets a number that is not in use. -/
def LeaderPossible (s : Server) : LeaderAction → Prop
  | .discovery env _ _ _ => s.Fresh env.connect
  | .whoIsLeader env _ _ _ => s.Fresh env.connect
  | _ => True

instance (s : Server) : (a : LeaderAction) → Decidable (s.LeaderPossible a)
  | .discovery env _ _ _ => inferInstanceAs (Decidable (s.Fresh env.connect))
  | .whoIsLeader env _ _ _ => inferInstanceAs (Decidable (s.Fresh env.connect))
  | .heartbeat _ _ => isTrue trivial
  | .disconnect _ => isTrue trivial
  | .sweep _ _ => isTrue trivial

def leaderStep (s : Server) (a : LeaderAction) : Option Server :=
  if s.LeaderPossible a then (s.leaderHandle a).toOption else none

theorem leaderStep_eq_some {s t : Server} {a : LeaderAction} (h : s.leaderStep a = some t) :
    s.LeaderPossible a ∧ s.leaderHandle a = .ok t := by
  rw [leaderStep] at h
  split at h
  · rename_i hpossible
    exact ⟨hpossible, Except.toOption_eq_some.mp h⟩
  · cases h

end Server

/-! ## Removing one peer -/

/-- The peer told about a removal, and the successor it is told: the records before
and after the gap between `a` and `b`, around the ring.  Nobody is told when fewer
than two peers are left. -/
def repair (a b : List ServerInfo) : Option (ServerInfo × ServerInfo) :=
  match a ++ b with
  | [] => none
  | [_] => none
  | first :: rest => some (a.getLastD ((first :: rest).getLastD first), b.headD first)

/-- Tell the peer before the gap, or exit. -/
def sendRepair (env : Env) (s : Server) : Option (ServerInfo × ServerInfo) → Except Fault Server
  | none => .ok s
  | some (pred, successor) => updateRing env s pred successor

/-- The arguments of the call of `update_ring` in `ring_status`, when it is made. -/
def ringCall (s : Server) (i : Socket) : Option (ServerInfo × ServerInfo) := do
  let k ← istPeerServer i s.self s.next
  let peer ← s.next[k]?
  let predI := if k = 0 then getLastServer s.self s.next else (s.self :: s.next).getD k s.self
  match ← (ChatRing.deleteServer s.next peer.id).toOption with
  | [] => none
  | [_] => none
  | first :: rest => some (predI, (first :: rest).getD k first)

theorem ringStatus_eq_ringCall {env : Env} {s : Server} {i : Socket} {k : ℕ} {peer : ServerInfo}
    {next : List ServerInfo} (hfind : istPeerServer i s.self s.next = some k)
    (hget : s.next[k]? = some peer) (hdelete : ChatRing.deleteServer s.next peer.id = .ok next) :
    ringStatus env s i = sendRepair env { s with next := next } (ringCall s i) := by
  simp only [ringStatus, ringCall, hfind, hget, Server.deleteServer, hdelete, Except.ok_bind,
    Except.toOption, Option.bind_eq_bind, Option.bind_some]
  cases next with
  | nil => rfl
  | cons first rest =>
      cases rest with
      | nil => rfl
      | cons second rest => rfl

section Removal
variable {env : Env} {s : Server} {a b : List ServerInfo} {x : ServerInfo}
  (hleader : s.self.leader = 1) (hnext : s.next = a ++ x :: b)
  (hfirst : ∀ y ∈ a, y.tcpSocket ≠ x.tcpSocket) (hid : ∀ y ∈ a, y.id ≠ x.id)
include hleader hnext hfirst

theorem istPeerServer_eq : istPeerServer x.tcpSocket s.self s.next = some a.length := by
  rw [istPeerServer, if_neg (not_not_intro hleader), hnext]
  exact findIdx?_append_cons (fun y hy => by simpa using hfirst y hy) (by simp)

include hid

theorem ringCall_eq : ringCall s x.tcpSocket = repair a b := by
  have hget : s.next[a.length]? = some x := by simp [hnext]
  have hdelete : ChatRing.deleteServer s.next x.id = .ok (a ++ b) := by
    rw [hnext, deleteServer_append hid]
  simp only [ringCall, istPeerServer_eq hleader hnext hfirst, hget, hdelete, Except.toOption,
    Option.bind_eq_bind, Option.bind_some, repair]
  cases hab : a ++ b with
  | nil => rfl
  | cons first rest =>
      cases rest with
      | nil => rfl
      | cons second rest =>
          have hsucc : (first :: second :: rest).getD a.length first = b.headD first := by
            rw [← hab]
            cases b <;> simp
          simp only [hsucc]
          congr 2
          by_cases ha : a = []
          · subst ha
            have hb : b = first :: second :: rest := hab
            simp [getLastServer, hnext, hb, List.getLast?_cons]
          · have hlen : a.length ≠ 0 := fun h => ha (List.length_eq_zero_iff.mp h)
            rw [if_neg hlen, hnext, getD_cons_append ha]
            obtain ⟨l, y, rfl⟩ := List.eq_nil_or_concat a |>.resolve_left ha
            simp

/-- **`ring_status` removes the first record with the socket** and repairs the ring
around it. -/
theorem ringStatus_eq :
    ringStatus env s x.tcpSocket = sendRepair env { s with next := a ++ b } (repair a b) := by
  have hget : s.next[a.length]? = some x := by simp [hnext]
  have hdelete : ChatRing.deleteServer s.next x.id = .ok (a ++ b) := by
    rw [hnext, deleteServer_append hid]
  rw [ringStatus_eq_ringCall (istPeerServer_eq hleader hnext hfirst) hget hdelete,
    ringCall_eq hleader hnext hfirst hid]

end Removal

theorem sendRepair_eq_ok {env : Env} {s t : Server} {r : Option (ServerInfo × ServerInfo)}
    (h : sendRepair env s r = .ok t) : t.self = s.self ∧ t.next = s.next := by
  cases r with
  | none =>
      cases h
      exact ⟨rfl, rfl⟩
  | some p =>
      simp only [sendRepair, updateRing] at h
      split at h
      · cases h
      · rename_i u hu
        cases h
        rw [Server.send_eq_some hu]
        exact ⟨rfl, rfl⟩

/-- When `ring_status` returns, it has removed the first record with the socket. -/
theorem ringStatus_eq_ok {env : Env} {s t : Server} {i : Socket} (hasc : Ascending s.next)
    (h : ringStatus env s i = .ok t) :
    t.self = s.self ∧ ∃ a x b, s.next = a ++ x :: b ∧ x.tcpSocket = i ∧
      (∀ y ∈ a, y.tcpSocket ≠ i) ∧ t.next = a ++ b := by
  cases hfind : istPeerServer i s.self s.next with
  | none =>
      rw [ringStatus, hfind] at h
      cases h
  | some k =>
      rw [istPeerServer] at hfind
      split at hfind
      · cases hfind
      · rename_i hleader
        obtain ⟨a, x, b, hnext, -, hx, ha⟩ := findIdx?_eq_some hfind
        have hxi : x.tcpSocket = i := by simpa using hx
        have hfirst : ∀ y ∈ a, y.tcpSocket ≠ x.tcpSocket := by
          intro y hy
          rw [hxi]
          simpa using ha y hy
        have hid : ∀ y ∈ a, y.id ≠ x.id := by
          rw [hnext] at hasc
          intro y hy
          exact hasc.id_ne_of_append y (List.mem_append_left b hy)
        rw [← hxi, ringStatus_eq (not_not.mp hleader) hnext hfirst hid] at h
        obtain ⟨hself, hlist⟩ := sendRepair_eq_ok h
        refine ⟨hself, a, x, b, hnext, hxi, ?_, hlist⟩
        rw [← hxi]
        exact hfirst

/-! ## The list of a leader -/

/-- A leader with an ascending list of peers. -/
structure Leading (s : Server) : Prop where
  leader : s.self.leader = 1
  ascending : Ascending s.next

theorem leading_of_start {s : Server} (hleader : s.self.leader = 1) (hnext : s.next = []) :
    Leading s := ⟨hleader, by rw [hnext]; exact List.Pairwise.nil⟩

theorem Leading.of_sublist {s t : Server} (h : Leading s) (hself : t.self = s.self)
    (hnext : t.next.Sublist s.next) : Leading t :=
  ⟨by rw [hself]; exact h.leader, h.ascending.sublist hnext⟩

theorem ascending_appendServerSorted {now id port leader : ℤ} {head : ServerInfo}
    {next : List ServerInfo} {addr : Text} {fd : Socket} (h : Ascending next) :
    Ascending (appendServerSorted now head next id addr port leader fd) := by
  rw [appendServerSorted]
  split
  · exact h
  · rename_i hnew
    have hne : ∀ s ∈ next, s.id ≠ (createServer now id addr port leader fd).id := by
      intro s hs heq
      exact hnew ⟨s, List.mem_cons_of_mem _ hs, heq⟩
    rw [insertSorted_of_new hne]
    refine ascending_split ?_ lt_of_mem_smaller (h.lt_of_mem_larger hne)
    rw [smaller_append_larger]
    exact h

/-- An admission leaves the list alone or inserts the new record into it. -/
theorem admitPeer_next {env : Env} {s t : Server} {id port : ℤ} {fd : Socket}
    {addr toPredecessor : Text} {reply : Option ServerInfo → Text}
    (h : admitPeer env s id port addr reply toPredecessor = .ok (fd, t)) :
    t.self = s.self ∧ (t.next = s.next ∨
      t.next = appendServerSorted env.now s.self s.next id addr port 0 env.connect) := by
  rcases admitPeer_eq_ok h with ⟨-, -, rfl⟩ | ⟨-, -, sent, -, rfl⟩
  · exact ⟨rfl, Or.inl rfl⟩
  · exact ⟨rfl, Or.inr rfl⟩

/-- A leader keeps the record of a peer that disconnects. -/
theorem disconnect_next {s t : Server} {i : Socket} (hleader : s.self.leader = 1)
    (h : disconnect s i = .ok t) : t.self = s.self ∧ t.next = s.next ∧ t.out = s.out := by
  obtain ⟨u, ltcpSocket, hu, rfl⟩ := disconnect_eq_ok h
  rcases handleDisconnection_eq_ok hu with ⟨-, rfl⟩ | ⟨-, hfollower, -⟩ | ⟨-, -, -, -, rfl⟩
  · exact ⟨rfl, rfl, rfl⟩
  · exact absurd hleader hfollower
  · exact ⟨rfl, rfl, rfl⟩

theorem disconnect_isOk {s : Server} {i : Socket} (hleader : s.self.leader = 1)
    (hi : IsValidSocket i) : ∃ t, disconnect s i = .ok t := by
  have hhandled : ∃ u, handleDisconnection s i = .ok u := by
    rw [handleDisconnection]
    split
    · exact ⟨s, rfl⟩
    · split
      · exact ⟨s, rfl⟩
      · rw [if_neg fun h => h.2 hleader]
        split
        · exact ⟨s, rfl⟩
        · exact ⟨_, rfl⟩
  obtain ⟨u, hu⟩ := hhandled
  exact disconnect_isOk_of_handled hu hi

theorem sweep_sublist {env : Env} {timeout : ℤ} {l : List ServerInfo} {s t : Server}
    (hasc : Ascending s.next) (h : sweep env timeout l s = .ok t) :
    t.self = s.self ∧ t.next.Sublist s.next := by
  induction l generalizing s with
  | nil =>
      cases h
      exact ⟨rfl, List.Sublist.refl _⟩
  | cons current rest ih =>
      rw [sweep] at h
      split at h
      · obtain ⟨u, hu, h⟩ := Except.bind_eq_ok.mp h
        obtain ⟨hself, a, x, b, hnext, -, -, hlist⟩ := ringStatus_eq_ok hasc hu
        have hsub : u.next.Sublist s.next := by
          rw [hnext, hlist]
          exact List.Sublist.append_left (List.sublist_cons_self x b) a
        obtain ⟨hself', hsub'⟩ := ih (hasc.sublist hsub) h
        exact ⟨hself'.trans hself, hsub'.trans hsub⟩
      · exact ih hasc h

theorem Leading.register {s t : Server} (h : Leading s) {env : Env} {id port : ℤ}
    {addr toPredecessor : Text} {reply : Option ServerInfo → Text}
    (ht : register (admitPeer env s id port addr reply toPredecessor) = .ok t) : Leading t := by
  obtain ⟨⟨fd, u⟩, hu, ht⟩ := Except.bind_eq_ok.mp ht
  cases ht
  obtain ⟨hself, hnext⟩ := admitPeer_next hu
  refine ⟨by simpa [hself] using h.leader, ?_⟩
  rw [registerPeer_next]
  rcases hnext with hnext | hnext
  · rw [hnext]
    exact h.ascending
  · rw [hnext]
    exact ascending_appendServerSorted h.ascending

theorem Leading.updateHeartbeat {s : Server} (h : Leading s) (env : Env) (id : ℤ) :
    Leading (s.updateHeartbeat env id) := by
  rw [Server.updateHeartbeat]
  split
  · exact ⟨h.leader, h.ascending⟩
  · refine ⟨h.leader, ?_⟩
    show Ascending (updateHeartbeatTimeout env.now s.next id)
    rw [updateHeartbeatTimeout_eq_map h.ascending]
    exact h.ascending.map_beat

/-- **No event of a leader puts the list out of order.** -/
theorem Leading.step {s t : Server} (h : Leading s) {a : LeaderAction}
    (hstep : s.leaderStep a = some t) : Leading t := by
  obtain ⟨-, ht⟩ := Server.leaderStep_eq_some hstep
  cases a with
  | discovery env id port addr => exact h.register ht
  | whoIsLeader env id port addr => exact h.register ht
  | heartbeat env id =>
      cases ht
      exact h.updateHeartbeat env id
  | disconnect i =>
      obtain ⟨hself, hnext, -⟩ := disconnect_next h.leader ht
      exact h.of_sublist hself (by rw [hnext])
  | sweep env timeout =>
      obtain ⟨hself, hsub⟩ := sweep_sublist h.ascending ht
      exact h.of_sublist hself hsub

end ChatRing
