import ChatRing.Server.Clients
import ChatRing.Server.Election

/-!
# Disconnections and heartbeats

`disconnection_handler.c`.  The leader removes a peer when its heartbeat is overdue,
and tells the peer before it in the ring who comes next.
-/

namespace ChatRing
open CText

/-- `HEARTBEAT_TIMEOUT` -/
def heartbeatTimeout : ℤ := 4

/-- `handle_disconnection`.  The peers of a leader stay in its list until their
heartbeat is overdue. -/
def handleDisconnection (s : Server) (i : Socket) : Except Fault Server :=
  if i = s.mcSocket then .ok s
  else if i = s.ltcpSocket then .ok s
  else if i = s.successorSocket ∧ s.self.leader ≠ 1 then do
    let successor ← s.successor
    s.deleteServer successor.id
  else if istPeerServer i s.self s.next ≠ none then .ok s
  else .ok (removeClientFromList s i)

/-- The frame of `update_ring`. -/
def repairFrame (successor : ServerInfo) : Text :=
  padX (updateFromLeader successor.addr successor.id successor.port)

/-- `update_ring`: tell `pred` that `successor` comes next.  The caller exits when
the send fails. -/
def updateRing (env : Env) (s : Server) (pred successor : ServerInfo) : Except Fault Server :=
  match s.send env pred.tcpSocket (repairFrame successor) with
  | none => .error .exit
  | some s => .ok s

/-- `ring_status`: remove the peer with this socket.  `pred_i` is a pointer to the
record before it, given by its position; once the record after it is gone, the
position is that of the next one. -/
def ringStatus (env : Env) (s : Server) (i : Socket) : Except Fault Server :=
  match istPeerServer i s.self s.next with
  | none => .error .nullDeref
  | some k =>
      match s.next[k]? with
      | none => .error .nullDeref
      | some peer => do
          let predI :=
            if k = 0 then getLastServer s.self s.next else (s.self :: s.next).getD k s.self
          let s ← s.deleteServer peer.id
          match s.next with
          | [] => return s
          | [_] => return s
          | first :: _ => updateRing env s predI (s.next.getD k first)

/-- `difftime(now, p->last_heartbeat) >= timeout` -/
def TimedOut (env : Env) (timeout : ℤ) (p : ServerInfo) : Prop :=
  env.now - p.lastHeartbeat ≥ timeout

instance (env : Env) (timeout : ℤ) (p : ServerInfo) : Decidable (TimedOut env timeout p) :=
  inferInstanceAs (Decidable (_ ≥ _))

/-- The loop of `check_heartbeat_timeout`.  It steps to the next record before it
removes one, and the record removed is never one still to come. -/
def sweep (env : Env) (timeout : ℤ) : List ServerInfo → Server → Except Fault Server
  | [], s => .ok s
  | current :: rest, s =>
      if TimedOut env timeout current then do
        let s ← ringStatus env s current.tcpSocket
        sweep env timeout rest s
      else sweep env timeout rest s

/-- `check_heartbeat_timeout` -/
def checkHeartbeatTimeout (env : Env) (s : Server) (timeout : ℤ) : Except Fault Server :=
  sweep env timeout s.next s

/-! ## What a disconnection changes -/

section Changes
variable {env : Env} {s t : Server} {i : Socket}

/-- A follower loses the record of its successor.  A connection that is nobody else's is a
client's. -/
theorem handleDisconnection_eq_ok (h : handleDisconnection s i = .ok t) :
    ((i = s.mcSocket ∨ i = s.ltcpSocket ∨ istPeerServer i s.self s.next ≠ none) ∧ t = s) ∨
      (i = s.successorSocket ∧ s.self.leader ≠ 1 ∧ ∃ successor next,
        s.successor = .ok successor ∧ deleteServer s.next successor.id = .ok next ∧
          t = { s with next := next }) ∨
      (i ≠ s.mcSocket ∧ i ≠ s.ltcpSocket ∧ ¬ (i = s.successorSocket ∧ s.self.leader ≠ 1) ∧
        istPeerServer i s.self s.next = none ∧ t = removeClientFromList s i) := by
  simp only [handleDisconnection] at h
  split at h
  · rename_i hmc
    cases h
    exact Or.inl ⟨Or.inl hmc, rfl⟩
  · rename_i hmc
    split at h
    · rename_i hltcp
      cases h
      exact Or.inl ⟨Or.inr (Or.inl hltcp), rfl⟩
    · rename_i hltcp
      split at h
      · rename_i hsuccessor
        obtain ⟨successor, hget, h⟩ := Except.bind_eq_ok.mp h
        obtain ⟨next, hdelete, rfl⟩ := Server.deleteServer_eq_ok h
        exact Or.inr (Or.inl ⟨hsuccessor.1, hsuccessor.2, successor, next, hget, hdelete, rfl⟩)
      · rename_i hsuccessor
        split at h
        · rename_i hpeer
          cases h
          exact Or.inl ⟨Or.inr (Or.inr hpeer), rfl⟩
        · rename_i hpeer
          cases h
          exact Or.inr (Or.inr ⟨hmc, hltcp, hsuccessor, not_not.mp hpeer, rfl⟩)

/-- The record goes, and its predecessor may be told. -/
theorem ringStatus_changes (h : ringStatus env s i = .ok t) : ∃ next sent,
    (∀ k bytes, Output.send k bytes ∈ sent → ∃ successor, bytes = repairFrame successor) ∧
      t = { s with next := next, out := s.out ++ sent } := by
  simp only [ringStatus] at h
  split at h
  · cases h
  · split at h
    · cases h
    · obtain ⟨u, hu, h⟩ := Except.bind_eq_ok.mp h
      obtain ⟨next, -, rfl⟩ := Server.deleteServer_eq_ok hu
      split at h
      · cases h
        exact ⟨_, [], by simp, by rw [List.append_nil]⟩
      · cases h
        exact ⟨_, [], by simp, by rw [List.append_nil]⟩
      · rw [updateRing] at h
        split at h
        · cases h
        · rename_i hsend
          cases h
          refine ⟨next, _, ?_, Server.send_eq_some hsend⟩
          intro k bytes hmem
          cases List.mem_singleton.mp hmem
          exact ⟨_, rfl⟩

/-- So does a sweep, for each record that it removes. -/
theorem sweep_changes {timeout : ℤ} {l : List ServerInfo} (h : sweep env timeout l s = .ok t) :
    ∃ next sent,
      (∀ k bytes, Output.send k bytes ∈ sent → ∃ successor, bytes = repairFrame successor) ∧
        t = { s with next := next, out := s.out ++ sent } := by
  induction l generalizing s with
  | nil =>
      cases h
      exact ⟨_, [], by simp, by rw [List.append_nil]⟩
  | cons current rest ih =>
      rw [sweep] at h
      split at h
      · obtain ⟨u, hu, h⟩ := Except.bind_eq_ok.mp h
        obtain ⟨next, first, hfirst, rfl⟩ := ringStatus_changes hu
        obtain ⟨next', others, hothers, rfl⟩ := ih h
        refine ⟨next', first ++ others, ?_, by rw [List.append_assoc]⟩
        intro k bytes hmem
        exact (List.mem_append.mp hmem).elim (hfirst k bytes) (hothers k bytes)
      · exact ih h

end Changes

end ChatRing
