import ChatRing.Server.Follower

/-!
# Links that are missing

About fifteen places read a field through `connected_peers->next` or its `next`.  Which
of them are reached with too short a list depends on the event: `Server.MissesLink` says
exactly when the handler of a follower reads through NULL.

## Main results

* `Server.handle_eq_nullDeref` — one event.
* `Loop.never_misses_link_iff` — a run of the loop.
* `System.follower_misses_link` — three correct servers, one of which reads through NULL
  when the heartbeat of the new leader arrives before its `KNOW_NEW_LEADER`.
-/

namespace ChatRing
open CText RingElection

/-! ## When a handler of a follower reads through NULL -/

namespace Server

/-- A new successor is connected, and there is no leader before it. -/
def SuccessorMissesLink (env : Env) (s : Server) (port : ℤ) : Prop :=
  s.next = [] ∧ PortFits port ∧ IsValidSocket env.connect

/-- A frame of the election goes on to a successor that is not there.  The server with
the ID 1 takes the ID that `lcr_election` returns for an announcement of another leader
when its own vote is back, and drops a record too many. -/
def ElectionMissesLink (env : Env) (s : Server) (keyword : Text) (predId : ℤ) : Prop :=
  (keyword = text "VOTE" ∧ s.self.id < predId ∧ s.next.length = 1) ∨
    (keyword = text "VOTE" ∧ predId < s.self.id ∧ s.participant ≠ 1 ∧ s.next.length = 1) ∨
    (keyword = text "VOTE" ∧ predId = s.self.id ∧ s.next.length < 2) ∨
    (keyword = text "LEADER" ∧ predId ≠ s.self.id ∧ s.next.length = 1) ∨
    (s.Wins env keyword predId ∧ predId = 1 ∧ s.next.length = 2)

/-- The text of a block that came on socket `i`. -/
def ReadMissesLink (env : Env) (s : Server) (i : Socket) (read : Text) : Prop :=
  match parseFrame (i = s.ltcpSocket) read with
  | .updateFromLeader _ _ port => s.SuccessorMissesLink env port
  | .election keyword predId =>
      s.ElectionMissesLink env (electionOf read keyword predId).1 (electionOf read keyword predId).2
  | .knowNewLeader nlID _ _ _ _ sPORT =>
      nlID = s.self.id ∧ sPORT ≠ 0 ∧ s.SuccessorMissesLink env sPORT
  | _ => False

/-- The successor disconnects, and there is no record of it. -/
def DisconnectMissesLink (s : Server) (i : Socket) : Prop :=
  i ≠ s.mcSocket ∧ i ≠ s.ltcpSocket ∧ i = s.successorSocket ∧ s.next.length < 2

/-- The heartbeat of a leader arrives, and the server knows none. -/
def DatagramMissesLink (s : Server) (received : Option Text) : Prop :=
  s.next = [] ∧ ∃ bytes ∈ received, ∃ buf ∈ frameBody (bytes.take bufferSize).dropLast,
    ∃ id, sscanf buf "HEARTBEAT:%d" = [.int id]

/-- The event makes a follower read through NULL. -/
def MissesLink (s : Server) : Event → Prop
  | .timer _ => False
  | .accept _ _ => False
  | .datagram _ received _ => s.DatagramMissesLink received
  | .readable env i received =>
      (received = [] ∧ s.DisconnectMissesLink i) ∨
        (received ≠ [] ∧ ∃ read ∈ frameBody (received.take bufferSize), s.ReadMissesLink env i read)

end Server

section Faults
variable {env : Env} {s t : Server} {i : Socket} {message keyword : Text} {q r : ℤ}

theorem dropSocket_ne_nullDeref (s : Server) (fd : Socket) :
    s.dropSocket fd ≠ .error .nullDeref := by
  by_cases hfd : 0 ≤ fd
  · rw [Server.dropSocket_of_valid hfd]
    simp
  · rw [Server.dropSocket, Server.fdClr, if_neg (show ¬ IsValidSocket fd from hfd)]
    intro h
    cases h

theorem Server.deleteServer_of_mem {x : ServerInfo} (h : x ∈ s.next) :
    ∃ rest, s.deleteServer x.id = .ok { s with next := rest } := by
  obtain ⟨rest, hrest⟩ := ChatRing.deleteServer_of_mem h
  exact ⟨rest, by rw [Server.deleteServer, hrest]; rfl⟩

theorem dropNext_ne_nullDeref (h : s.next ≠ []) : dropNext s ≠ .error .nullDeref := by
  obtain ⟨first, rest, hnext⟩ := List.exists_cons_of_ne_nil h
  simp only [dropNext, hnext]
  intro herror
  rcases Except.bind_eq_error.mp herror with herror | ⟨u, hu, herror⟩
  · exact dropSocket_ne_nullDeref s _ herror
  · obtain ⟨-, rfl⟩ := Server.dropSocket_eq_ok hu
    obtain ⟨rest', hrest'⟩ := Server.deleteServer_of_mem (s := { s with
      master := s.master.erase first.tcpSocket
      opened := s.opened.erase first.tcpSocket }) (x := first) (by simp [hnext])
    rw [hrest'] at herror
    cases herror

theorem sendToSuccessor_eq_nullDeref :
    sendToSuccessor env s message = .error .nullDeref ↔ s.next.length < 2 := by
  rcases hnext : s.next with _ | ⟨first, _ | ⟨second, rest⟩⟩
  · simp [sendToSuccessor, Server.successor, hnext, bind, Except.bind]
  · simp [sendToSuccessor, Server.successor, hnext, bind, Except.bind]
  · simp [sendToSuccessor, Server.successor, hnext, bind, Except.bind, pure, Except.pure]

private theorem return_sendToSuccessor_eq_nullDeref {fail sent : ℤ} :
    (do
      match ← sendToSuccessor env s message with
      | none => return (fail, s)
      | some u => return (sent, u)) = (.error .nullDeref : Except Fault (ℤ × Server)) ↔
        s.next.length < 2 := by
  rw [Except.bind_eq_error, sendToSuccessor_eq_nullDeref]
  constructor
  · rintro (h | ⟨o, -, h⟩)
    · exact h
    · cases o with
      | none => cases h
      | some u => cases h
  · exact Or.inl

private theorem length_eq_one_iff (h : s.next ≠ []) : s.next.length < 2 ↔ s.next.length = 1 := by
  have hpos := List.length_pos_of_ne_nil h
  omega

private theorem pure_ne_error {a : ℤ × Server} {f : Fault} :
    (pure a : Except Fault (ℤ × Server)) ≠ .error f := Except.ok_ne_error

theorem lcrElection_larger_eq_nullDeref (hq : s.self.id < q) :
    lcrElection env s (text "VOTE") q = .error .nullDeref ↔ s.next.length = 1 := by
  rw [lcrElection, if_pos rfl, if_pos hq]
  by_cases hnil : s.next = []
  · rw [if_pos hnil]
    simp [hnil, pure_ne_error]
  · rw [if_neg hnil, ← length_eq_one_iff hnil]
    exact return_sendToSuccessor_eq_nullDeref

theorem lcrElection_smaller_eq_nullDeref (hq : q < s.self.id) :
    lcrElection env s (text "VOTE") q = .error .nullDeref ↔
      s.participant ≠ 1 ∧ s.next.length = 1 := by
  rw [lcrElection, if_pos rfl, if_neg hq.not_gt, if_pos hq]
  by_cases hnil : s.next = []
  · rw [if_pos hnil]
    simp [hnil, pure_ne_error]
  · rw [if_neg hnil, ← length_eq_one_iff hnil]
    by_cases hparticipant : s.participant = 1
    · rw [if_pos hparticipant]
      simp [hparticipant, pure_ne_error]
    · rw [if_neg hparticipant, and_iff_right hparticipant]
      exact return_sendToSuccessor_eq_nullDeref (s := { s with participant := 1 })

theorem lcrElection_own_eq_nullDeref (hleader : s.self.leader ≠ 1) :
    lcrElection env s (text "VOTE") s.self.id = .error .nullDeref ↔ s.next.length < 2 := by
  have hirrefl : ¬ s.self.id > s.self.id := lt_irrefl _
  rw [lcrElection, if_pos rfl, if_neg hirrefl, if_neg hirrefl, if_neg hleader]
  refine Except.bind_eq_error.trans ?_
  rw [sendToSuccessor_eq_nullDeref]
  refine or_iff_left ?_
  rintro ⟨o, ho, h⟩
  obtain ⟨successor, hsuccessor, rfl⟩ := sendToSuccessor_eq_ok ho
  obtain ⟨first, rest, hnext⟩ := getElem?_one_eq_some (successor_eq_ok hsuccessor)
  rw [Server.send] at h
  split at h
  · cases h
  · rename_i u hu
    split at hu
    · cases hu
      change s.next = first :: successor :: rest at hnext
      simp only [hnext, Server.deleteServer, deleteServer, if_true] at h
      cases h
    · cases hu

theorem lcrElection_leader_eq_nullDeref (hq : q ≠ s.self.id) :
    lcrElection env s (text "LEADER") q = .error .nullDeref ↔ s.next.length = 1 := by
  have hkey : text "LEADER" ≠ text "VOTE" := by decide +kernel
  rw [lcrElection, if_neg hkey, if_pos rfl, if_neg hq]
  rcases hnext : s.next with _ | ⟨first, rest⟩
  · simp [pure_ne_error]
  · refine (return_sendToSuccessor_eq_nullDeref (s := { s with
      participant := 0, next := { first with id := q, leader := 1 } :: rest })).trans ?_
    simp only [List.length_cons]
    omega

/-- The places of `lcr_election`. -/
theorem lcrElection_eq_nullDeref (hleader : s.self.leader ≠ 1) :
    lcrElection env s keyword q = .error .nullDeref ↔
      (keyword = text "VOTE" ∧ s.self.id < q ∧ s.next.length = 1) ∨
        (keyword = text "VOTE" ∧ q < s.self.id ∧ s.participant ≠ 1 ∧ s.next.length = 1) ∨
        (keyword = text "VOTE" ∧ q = s.self.id ∧ s.next.length < 2) ∨
        (keyword = text "LEADER" ∧ q ≠ s.self.id ∧ s.next.length = 1) := by
  have hkeys : text "VOTE" ≠ text "LEADER" := by decide +kernel
  by_cases hvote : keyword = text "VOTE"
  · subst hvote
    rcases lt_trichotomy q s.self.id with hlt | rfl | hgt
    · rw [lcrElection_smaller_eq_nullDeref hlt]
      simp [hlt, hlt.ne, hlt.not_gt, hkeys]
    · rw [lcrElection_own_eq_nullDeref hleader]
      simp [hkeys]
    · rw [lcrElection_larger_eq_nullDeref hgt]
      simp [hgt, hgt.ne', hgt.not_gt, hkeys]
  · by_cases hlead : keyword = text "LEADER"
    · subst hlead
      by_cases hown : q = s.self.id
      · subst hown
        rw [lcrElection_own_leader]
        simp [hkeys.symm]
      · rw [lcrElection_leader_eq_nullDeref hown]
        simp [hkeys.symm, hown]
    · rw [lcrElection, if_neg hvote, if_neg hlead]
      simp [hvote, hlead, pure_ne_error]

/-- What follows an election reads through NULL when one record is left of which two are
to be dropped. -/
theorem actOnElection_eq_nullDeref :
    actOnElection env r s = .error .nullDeref ↔ r = 1 ∧ s.next.length = 1 := by
  rw [actOnElection]
  split
  · rename_i hr
    rcases hnext : s.next with _ | ⟨first, rest⟩
    · simp
    · have hdelete : s.deleteServer first.id = .ok { s with next := rest } := by
        simp only [Server.deleteServer, hnext, deleteServer_head]
        rfl
      simp only [hdelete, Except.ok_bind]
      rw [Except.bind_eq_error]
      rcases rest with _ | ⟨second, rest⟩
      · simp [dropNext, hr]
      · have hdrop := dropNext_ne_nullDeref (s := { s with next := second :: rest }) (by simp)
        refine iff_of_false ?_ (by simp)
        rintro (h | ⟨u, -, h⟩)
        · exact hdrop h
        · cases h
  · rename_i hr
    refine iff_of_false ?_ fun h => hr h.1
    split
    · split
      · simp
      · rename_i hnext
        refine dropNext_ne_nullDeref ?_
        rw [dropSuccessor_next, hnext]
        simp
    · simp

/-- Only the server 1, when it has won, drops a record too many. -/
private theorem exists_lcrElection_one :
    (∃ a, lcrElection env s keyword q = .ok a ∧ a.1 = 1 ∧ a.2.next.length = 1) ↔
      s.Wins env keyword q ∧ q = 1 ∧ s.next.length = 2 := by
  by_cases hwins : s.Wins env keyword q
  · obtain ⟨t, first, successor, rest, hlcr, hnext, htnext, -⟩ := lcrElection_wins hwins
    simp [hlcr, hwins, hnext, htnext]
  · refine iff_of_false ?_ fun h => hwins h.1
    rintro ⟨⟨r, t⟩, hlcr, hr, hlen⟩
    by_cases hlearns : s.Learns env keyword q
    · obtain ⟨u, first, successor, rest, hu, -, hunext, -⟩ := lcrElection_learns hlearns
      obtain ⟨rfl, rfl⟩ := Prod.mk.inj (Except.ok.inj (hu.symm.trans hlcr))
      rw [hunext] at hlen
      simp at hlen
    · obtain ⟨hr', -⟩ := lcrElection_passes hwins hlearns hlcr
      simp only at hr
      omega

theorem handleElection_eq_nullDeref (hleader : s.self.leader ≠ 1) {read : Text} :
    handleElection env s read keyword q = .error .nullDeref ↔
      s.ElectionMissesLink env (electionOf read keyword q).1 (electionOf read keyword q).2 := by
  rw [handleElection_eq, Except.bind_eq_error]
  simp only [actOnElection_eq_nullDeref]
  rw [lcrElection_eq_nullDeref hleader, exists_lcrElection_one, Server.ElectionMissesLink,
    or_assoc, or_assoc, or_assoc]

theorem replaceSuccessor_eq_nullDeref {ip : Text} {id port : ℤ} {fd : Socket} :
    replaceSuccessor env s ip id port fd = .error .nullDeref ↔ s.next = [] := by
  rw [replaceSuccessor]
  rcases hnext : s.next with _ | ⟨first, _ | ⟨second, rest⟩⟩
  · simp
  · simp
  · obtain ⟨next, hdelete⟩ := Server.deleteServer_of_mem (s := s) (x := second) (by simp [hnext])
    simp only [hdelete, Except.ok_bind]
    exact iff_of_false (dropSocket_ne_nullDeref _ _) (by simp)

/-- A new successor is put behind a leader. -/
theorem newSuccessor_eq_nullDeref {ip : Text} {id port : ℤ} :
    newSuccessor env s ip id port = .error .nullDeref ↔ s.SuccessorMissesLink env port := by
  rw [newSuccessor, Server.SuccessorMissesLink]
  by_cases hfits : PortFits port
  · have hport : portText port = .ok (intText port) := if_pos hfits
    rw [hport, Except.ok_bind]
    by_cases hc : IsValidSocket env.connect
    · simp only [Server.setupTcpClient, hc, if_true, hfits, and_true]
      rw [Except.bind_eq_error, replaceSuccessor_eq_nullDeref]
      refine or_iff_left ?_
      rintro ⟨t, -, h⟩
      cases h
    · have herror : ¬ IsValidSocket errorReturn := by decide
      simp [Server.setupTcpClient, hc, herror]
  · have hport : portText port = .error .outOfBounds := portText_of_not_fits hfits
    rw [hport]
    simp [hfits, bind, Except.bind]

theorem handleKnowNewLeader_eq_nullDeref {nlID nlPORT sID sPORT : ℤ} {nlIP sIP : Text} :
    handleKnowNewLeader env s i nlID nlIP nlPORT sID sIP sPORT = .error .nullDeref ↔
      nlID = s.self.id ∧ sPORT ≠ 0 ∧ s.SuccessorMissesLink env sPORT := by
  simp only [handleKnowNewLeader]
  generalize hu : (if s.next = [] then
    { s with next := appendServer env.now s.self s.next nlID nlIP nlPORT 1 i } else s) = u
  have hnil : u.next = [] ↔ nlID = s.self.id ∧ s.next = [] := by
    split at hu
    · rename_i hnext
      subst hu
      show appendServer env.now s.self s.next nlID nlIP nlPORT 1 i = [] ↔ _
      simp [hnext, appendServer_nil]
    · rename_i hnext
      subst hu
      simp [hnext]
  by_cases hport : sPORT ≠ 0
  · rw [if_pos hport, Except.bind_eq_error, newSuccessor_eq_nullDeref, Server.SuccessorMissesLink,
      Server.SuccessorMissesLink, hnil, and_assoc, and_iff_right hport]
    refine or_iff_left ?_
    rintro ⟨t, -, h⟩
    cases h
  · rw [if_neg hport]
    simp [hport]

theorem handleDisconnection_eq_nullDeref (hleader : s.self.leader ≠ 1) :
    handleDisconnection s i = .error .nullDeref ↔ s.DisconnectMissesLink i := by
  rw [handleDisconnection, Server.DisconnectMissesLink]
  by_cases hmc : i = s.mcSocket
  · simp [hmc]
  rw [if_neg hmc, and_iff_right hmc]
  by_cases hltcp : i = s.ltcpSocket
  · simp [hltcp]
  rw [if_neg hltcp, and_iff_right hltcp]
  by_cases hsuccessor : i = s.successorSocket
  · rw [if_pos ⟨hsuccessor, hleader⟩, and_iff_right hsuccessor]
    rcases hnext : s.next with _ | ⟨first, _ | ⟨second, rest⟩⟩
    · simp [Server.successor, hnext, bind, Except.bind]
    · simp [Server.successor, hnext, bind, Except.bind]
    · obtain ⟨next, hdelete⟩ := Server.deleteServer_of_mem (s := s) (x := second) (by simp [hnext])
      simp [Server.successor, hnext, hdelete]
  · rw [if_neg fun h => hsuccessor h.1]
    simp only [hsuccessor, false_and, iff_false]
    split
    · simp
    · simp

theorem disconnect_eq_nullDeref (hleader : s.self.leader ≠ 1) :
    disconnect s i = .error .nullDeref ↔ s.DisconnectMissesLink i := by
  rw [disconnect, Except.bind_eq_error, handleDisconnection_eq_nullDeref hleader]
  refine or_iff_left ?_
  rintro ⟨t, -, h⟩
  exact dropSocket_ne_nullDeref _ _ h

/-- A follower looks at its list for the heartbeat of a leader only. -/
theorem handleMcastReceive_eq_nullDeref (hleader : s.self.leader ≠ 1) {received : Option Text}
    {addr : Text} :
    handleMcastReceive env s received addr = .error .nullDeref ↔ s.DatagramMissesLink received := by
  simp only [handleMcastReceive, if_neg hleader, Server.DatagramMissesLink]
  match received with
  | none => simp
  | some [] => simp [frameBody, cstr, strstr, emptyLine]
  | some (c :: bytes) =>
      simp only [Option.mem_some_iff, exists_eq_left']
      rcases hbuf : frameBody ((c :: bytes).take bufferSize).dropLast with _ | buf
      · simp
      · simp only [Option.mem_some_iff, exists_eq_left']
        split
        · rename_i id hscan
          rcases hnext : s.next with _ | ⟨leader, rest⟩
          · exact iff_of_true rfl ⟨rfl, id, hscan⟩
          · simp only [reduceCtorEq, false_and, iff_false]
            split <;> simp
        · rename_i hscan
          simp only [reduceCtorEq, false_iff, not_and, not_exists]
          exact fun _ => hscan

/-- The timer goes through the list as it found it. -/
theorem onTimer_ne_nullDeref (hleader : s.self.leader ≠ 1) : onTimer env s ≠ .error .nullDeref := by
  by_cases halone : s.LeftAlone env
  · obtain ⟨sent, ht, -⟩ := onTimer_alone hleader halone
    rw [ht]
    exact Except.ok_ne_error
  · obtain ⟨participant, sent, ht, -⟩ := onTimer_eq hleader halone
    rw [ht]
    exact Except.ok_ne_error

theorem printSendBuf_ne_nullDeref (message : Text) : printSendBuf message ≠ .error .nullDeref := by
  rw [printSendBuf]
  split <;> simp

theorem handleClientMessage_ne_nullDeref {senderId destId : ℤ} :
    handleClientMessage env s senderId destId message i ≠ .error .nullDeref := by
  by_cases hmessage : message = text "GET_INDEX"
  · rw [hmessage, handleClientMessage_getIndex]
    exact Except.ok_ne_error
  · rw [handleClientMessage, if_neg hmessage]
    intro h
    rcases Except.bind_eq_error.mp h with h | ⟨t, -, h⟩
    · rw [forwardToClient] at h
      split at h
      · cases h
      · rcases Except.bind_eq_error.mp h with h | ⟨buf, -, h⟩
        · exact printSendBuf_ne_nullDeref _ h
        · cases h
    · split at h
      · rcases Except.bind_eq_error.mp h with h | ⟨buf, -, h⟩
        · exact printSendBuf_ne_nullDeref _ h
        · cases h
      · cases h

/-- The text of a block. -/
theorem dispatch_eq_nullDeref (hleader : s.self.leader ≠ 1) {read : Text} :
    dispatch env s i read = .error .nullDeref ↔ s.ReadMissesLink env i read := by
  rw [dispatch, Server.ReadMissesLink]
  cases parseFrame (i = s.ltcpSocket) read with
  | updateFromLeader ip id port => exact newSuccessor_eq_nullDeref
  | client senderId destId message =>
      exact iff_of_false (fun h => handleClientMessage_ne_nullDeref (Except.map_eq_error.mp h)) id
  | election keyword predId => exact handleElection_eq_nullDeref hleader
  | knowNewLeader nlID nlIP nlPORT sID sIP sPORT => exact handleKnowNewLeader_eq_nullDeref
  | heartbeat senderId => exact iff_of_false Except.ok_ne_error id
  | unknown => exact iff_of_false Except.ok_ne_error id

end Faults

namespace Server
variable {s : Server} {e : Event}

/-- **The handler of a follower reads through NULL exactly when a link is missing.** -/
theorem handle_eq_nullDeref (hleader : s.self.leader ≠ 1) :
    s.handle e = .error .nullDeref ↔ s.MissesLink e := by
  cases e with
  | timer env => exact iff_of_false (onTimer_ne_nullDeref hleader) id
  | accept socket clientIp => exact iff_of_false Except.ok_ne_error id
  | datagram env received senderAddr =>
      rw [handle, Except.bind_eq_error, handleMcastReceive_eq_nullDeref hleader, MissesLink]
      refine or_iff_left ?_
      rintro ⟨t, -, h⟩
      cases h
  | readable env i received =>
      rw [handle, handleSocketChange, MissesLink]
      by_cases hnil : received = []
      · simp [hnil, disconnect_eq_nullDeref hleader]
      · rw [if_neg hnil]
        simp only [hnil, false_and, false_or, ne_eq, not_false_eq_true, true_and]
        rcases hread : frameBody (received.take bufferSize) with _ | read
        · simp
        · simp only [Option.mem_some_iff, exists_eq_left']
          exact dispatch_eq_nullDeref hleader

end Server

/-! ## Runs -/

/-- The loop of a server, which ends where a handler does not return. -/
inductive Loop
  | running (s : Server)
  | ended (fault : Fault) (s : Server)

namespace Loop

def step : Loop → Event → Option Loop
  | .running s, e =>
      if e.Possible s then
        match s.handle e with
        | .ok t => some (.running t)
        | .error fault => some (.ended fault s)
      else none
  | .ended _ _, _ => none

/-- A follower has read through NULL. -/
def FollowedMissingLink : Loop → Prop
  | .ended .nullDeref s => s.self.leader ≠ 1
  | _ => False

/-- The event finds a follower without a link that its handler follows. -/
def MissesLink : Loop → Event → Prop
  | .running s, e => s.self.leader ≠ 1 ∧ s.MissesLink e
  | .ended _ _, _ => False

theorem step_followedMissingLink {x y : Loop} {e : Event} (hstep : step x e = some y) :
    y.FollowedMissingLink ↔ x.MissesLink e := by
  cases x with
  | ended fault s => cases hstep
  | running s =>
      rw [step] at hstep
      split at hstep
      · split at hstep
        · rename_i t ht
          cases hstep
          refine iff_of_false id ?_
          rintro ⟨hleader, hmisses⟩
          rw [(Server.handle_eq_nullDeref hleader).mpr hmisses] at ht
          cases ht
        · rename_i fault hfault
          cases hstep
          constructor
          · intro hfollowed
            cases fault with
            | nullDeref => exact ⟨hfollowed, (Server.handle_eq_nullDeref hfollowed).mp hfault⟩
            | outOfBounds => cases hfollowed
            | exit => cases hfollowed
          · rintro ⟨hleader, hmisses⟩
            rw [(Server.handle_eq_nullDeref hleader).mpr hmisses] at hfault
            cases hfault
            exact hleader
      · cases hstep

/-- **No follower reads through NULL in a run exactly when no event of the run finds one
without a link that its handler follows.** -/
theorem never_misses_link_iff {s₀ : Server} {x : Loop} {h : List (Loop × Event)}
    (run : Run step (.running s₀) h x) :
    (∀ y ∈ Run.states h x, ¬ y.FollowedMissingLink) ↔ ∀ y e, (y, e) ∈ h → ¬ y.MissesLink e := by
  refine run.forall_states_iff (I := fun y => ¬ y.FollowedMissingLink) id (fun _ hy => hy) ?_ ?_
  · intro y e z _ he hstep hz
    exact he ((step_followedMissingLink hstep).mp hz)
  · intro y e z _ he hstep hz
    exact he fun hmisses => hz ((step_followedMissingLink hstep).mpr hmisses)

/-- A follower that has dropped its list. -/
private def droppedList : Server :=
  { startLeader 0 9 (text "10.0.0.2") 4041 20000 3 4 with
    self := createServer 0 9 (text "10.0.0.2") 4041 0 3 }

/-- The new leader connects, its message arrives, and then its heartbeat. -/
private def informed : List Event :=
  [.accept 5 (some (text "10.0.0.3")),
    .readable ⟨0, 6, fun _ _ _ => true, true, 0⟩ 5
      (padX (knowNewLeader 11 (text "10.0.0.3") 4041 0 (text "0.0.0.0") 0)),
    .datagram ⟨4, 6, fun _ _ _ => true, true, 0⟩ (some (padZero (heartbeat 11))) (text "10.0.0.3")]

private def informedEnd : Loop :=
  (exec step (.running droppedList) informed).get (by decide +kernel)

theorem never_misses_link_iff_informed :
    (trace step (.running droppedList) informed).length = 3 ∧
      ((∀ y ∈ Run.states (trace step (.running droppedList) informed) informedEnd,
          ¬ y.FollowedMissingLink) ↔
        ∀ y e, (y, e) ∈ trace step (.running droppedList) informed → ¬ y.MissesLink e) :=
  ⟨by decide +kernel, never_misses_link_iff (Run.of_exec (Option.some_get _).symm)⟩

end Loop

/-! ## A heartbeat that comes too early -/

namespace System

/-- After the election server 9 asks for its leader, and the timer of server 11 fires once it
has answered. -/
private def earlyActions : List (SystemAction Five) :=
  electionActions ++
    [.event .c (.datagram (online 9 8) (some (padX (whoIsLeader 9 4041))) Five.b.address),
      .event .c (.timer (online 12 errorReturn))]

private def earlyEnd : System Five := (exec step start earlyActions).get (by decide +kernel)

private def waiting : Server := (earlyEnd.process .b).server.get (by decide +kernel)

private def newLeader : Server := (earlyEnd.process .c).server.get (by decide +kernel)

/-- The heartbeat that server 11 has sent to the group reaches server 9 before its
connection and the `KNOW_NEW_LEADER` on it. -/
theorem follower_misses_link :
    Run step start (trace step start earlyActions) earlyEnd ∧
      (earlyEnd.process .b).server = some waiting ∧ (earlyEnd.process .c).server = some newLeader ∧
        waiting.self.leader = 0 ∧ newLeader.self.leader = 1 ∧
          .multicast (padZero (heartbeat 11)) ∈ newLeader.out ∧
            waiting.handle (.datagram (online 12 errorReturn) (some (padZero (heartbeat 11)))
              Five.c.address) = .error .nullDeref := by
  have hends : waiting.self.leader = 0 ∧ waiting.next = [] ∧ newLeader.self.leader = 1 ∧
      .multicast (padZero (heartbeat 11)) ∈ newLeader.out := by
    decide +kernel
  obtain ⟨hleader, hnext, hlead, hsent⟩ := hends
  have hmisses : waiting.MissesLink (.datagram (online 12 errorReturn)
      (some (padZero (heartbeat 11))) Five.c.address) := by
    refine ⟨hnext, _, rfl, text "HEARTBEAT:11", ?_, 11, ?_⟩
    · decide +kernel
    · decide +kernel
  have hne : waiting.self.leader ≠ 1 := by
    rw [hleader]
    decide
  exact ⟨Run.of_exec (Option.some_get _).symm, (Option.some_get _).symm, (Option.some_get _).symm,
    hleader, hlead, hsent, (Server.handle_eq_nullDeref hne).mpr hmisses⟩

end System
end ChatRing
