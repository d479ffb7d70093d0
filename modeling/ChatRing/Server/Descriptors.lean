import ChatRing.Lib.Run
import ChatRing.Server.Loop
import Mathlib.Data.Finset.Basic

/-!
# The descriptors the loop selects on

Which handlers touch the descriptor tables, and how.  Three paths close a descriptor
and leave it in `master`: a connection rejected at the limit, a `GET_INDEX` request
whose reply cannot be sent, and a new successor whose descriptor has the number that
`successor_socket` still holds.  That the loop begins with open descriptors is shown in
`Discovered`.

## Main results

* `ListOnly`, `SameSockets` — what the list and election functions leave alone.
* `Server.only_open_iff` — every descriptor in `master` is open throughout a run iff
  no event of the run takes one of the three paths.
-/

namespace ChatRing
open CText

/-- Nothing changed but the list of servers, `participant`, and what has been sent. -/
def ListOnly (s t : Server) : Prop :=
  t = { s with self := t.self, next := t.next, participant := t.participant, out := t.out }

namespace ListOnly

theorem refl (s : Server) : ListOnly s s := rfl

theorem trans {s t u : Server} (h₁ : ListOnly s t) (h₂ : ListOnly t u) : ListOnly s u := by
  refine Eq.trans h₂ ?_
  rw [h₁]

theorem of_send {env : Env} {s t : Server} {socket : Socket} {bytes : Text}
    (h : s.send env socket bytes = some t) : ListOnly s t := by
  rw [Server.send_eq_some h]
  rfl

theorem of_sendIgnored (env : Env) (s : Server) (socket : Socket) (bytes : Text) :
    ListOnly s (sendIgnored env s socket bytes) := by
  rw [sendIgnored]
  cases h : s.send env socket bytes with
  | none => exact refl s
  | some t => exact of_send h

theorem of_doMulticast (env : Env) (s : Server) (bytes : Text) :
    ListOnly s (s.doMulticast env bytes) := by
  rw [Server.doMulticast]
  split
  · rfl
  · exact refl s

theorem of_deleteServer {s t : Server} {id : ℤ} (h : s.deleteServer id = .ok t) :
    ListOnly s t := by
  obtain ⟨next, -, rfl⟩ := Server.deleteServer_eq_ok h
  rfl

theorem of_sendToSuccessor {env : Env} {s s₁ : Server} {message : Text} {o : Option Server}
    (hs : ListOnly s s₁) (h : sendToSuccessor env s₁ message = .ok o) :
    ∀ t ∈ o, ListOnly s t := by
  obtain ⟨successor, -, rfl⟩ := sendToSuccessor_eq_ok h
  intro t ht
  exact hs.trans (of_send ht)

private theorem of_vote {env : Env} {s s₁ t : Server} {message : Text} {r fail sent : ℤ}
    (hs : ListOnly s s₁)
    (h : (do
      match ← sendToSuccessor env s₁ message with
      | none => return (fail, s₁)
      | some u => return (sent, u)) = (.ok (r, t) : Except Fault (ℤ × Server))) :
    ListOnly s t := by
  obtain ⟨o, ho, h⟩ := Except.bind_eq_ok.mp h
  cases o with
  | none =>
      cases h
      exact hs
  | some u =>
      cases h
      exact of_sendToSuccessor hs ho t rfl

/-- The election changes the list, `participant` and the head's flag. -/
theorem of_lcrElection {env : Env} {s t : Server} {keyword : Text} {predId r : ℤ}
    (h : lcrElection env s keyword predId = .ok (r, t)) : ListOnly s t := by
  simp only [lcrElection] at h
  split at h
  · split at h
    · split at h
      · cases h
        exact refl s
      · exact of_vote (refl s) h
    · split at h
      · split at h
        · cases h
          exact refl s
        · split at h
          · cases h
            exact refl s
          · refine of_vote ?_ h
            rfl
      · split at h
        · cases h
          exact refl s
        · obtain ⟨o, ho, h⟩ := Except.bind_eq_ok.mp h
          have hs : ∀ u ∈ o, ListOnly s u := by
            refine of_sendToSuccessor ?_ ho
            rfl
          cases o with
          | none =>
              cases h
              rfl
          | some u =>
              simp only at h
              split at h
              · cases h
              · obtain ⟨u', hd, h⟩ := Except.bind_eq_ok.mp h
                cases h
                exact (hs u rfl).trans (of_deleteServer hd)
  · split at h
    · split at h
      · cases h
        rfl
      · split at h
        · cases h
          exact refl s
        · refine of_vote ?_ h
          rfl
    · cases h
      exact refl s

theorem of_sendEleMsg {env : Env} {s t : Server} (h : sendEleMsg env s = .ok t) :
    ListOnly s t := by
  simp only [sendEleMsg] at h
  split at h
  · cases h
  · obtain ⟨next, -, rfl⟩ := Server.deleteServer_eq_ok h
    rfl
  · split at h
    · cases h
      exact refl s
    · split at h
      · cases h
        exact refl s
      · rename_i u hu
        cases h
        rw [Server.send_eq_some hu]
        rfl

theorem of_checkLeaderTimeout {env : Env} {s t : Server} {timeout : ℤ}
    (h : checkLeaderTimeout env s timeout = .ok t) : ListOnly s t := by
  simp only [checkLeaderTimeout] at h
  split at h
  · cases h
  · split at h
    · exact of_sendEleMsg h
    · cases h
      exact refl s

theorem of_sweep {env : Env} {timeout : ℤ} {l : List ServerInfo} {s t : Server}
    (h : sweep env timeout l s = .ok t) : ListOnly s t := by
  obtain ⟨next, sent, -, rfl⟩ := sweep_changes h
  rfl

theorem of_sendHeartbeats {env : Env} {sendBuf : Text} {l : List ServerInfo} {s t : Server}
    (h : sendHeartbeats env sendBuf l s = .ok t) : ListOnly s t := by
  induction l generalizing s sendBuf with
  | nil =>
      cases h
      exact refl t
  | cons current rest ih =>
      obtain ⟨u, hu, h⟩ := Except.bind_eq_ok.mp h
      exact (of_sendIgnored env s _ _).trans ((of_checkLeaderTimeout hu).trans (ih h))

/-- The timer branch opens and closes nothing. -/
theorem of_onTimer {env : Env} {s t : Server} (h : onTimer env s = .ok t) : ListOnly s t := by
  rw [onTimer] at h
  split at h
  · split at h
    · cases h
      exact refl s
    · exact (of_doMulticast env s _).trans (of_sweep h)
  · exact of_sendHeartbeats h

end ListOnly

/-- Descriptors, socket variables and clients are those of `s`. -/
structure SameSockets (s t : Server) : Prop where
  master : t.master = s.master
  opened : t.opened = s.opened
  mcSocket : t.mcSocket = s.mcSocket
  ltcpSocket : t.ltcpSocket = s.ltcpSocket
  successorSocket : t.successorSocket = s.successorSocket
  clientArray : t.clientArray = s.clientArray

namespace SameSockets

theorem of_listOnly {s t : Server} (h : ListOnly s t) : SameSockets s t := by
  rw [h]
  exact ⟨rfl, rfl, rfl, rfl, rfl, rfl⟩

theorem of_doMulticast (env : Env) (s : Server) (bytes : Text) :
    SameSockets s (s.doMulticast env bytes) := of_listOnly (.of_doMulticast env s bytes)

theorem of_lcrElection {env : Env} {s t : Server} {keyword : Text} {predId r : ℤ}
    (h : lcrElection env s keyword predId = .ok (r, t)) : SameSockets s t :=
  of_listOnly (.of_lcrElection h)

theorem of_onTimer {env : Env} {s t : Server} (h : onTimer env s = .ok t) : SameSockets s t :=
  of_listOnly (.of_onTimer h)

end SameSockets

namespace Server

/-- `select` finds every descriptor of `master` open. -/
def OnlyOpen (s : Server) : Prop := s.master ⊆ s.opened

instance (s : Server) : Decidable s.OnlyOpen := inferInstanceAs (Decidable (s.master ⊆ s.opened))

variable {env : Env} {s t : Server} {i : Socket}

theorem OnlyOpen.same (hs : s.OnlyOpen) (h : SameSockets s t) : t.OnlyOpen := by
  rw [OnlyOpen, h.master, h.opened]
  exact hs

/-! ## Connections of the multicast handlers -/

/-- `master` is untouched, nothing is closed, and `fd` is open if it is a socket. -/
structure Opens (s t : Server) (fd : Socket) : Prop where
  master : t.master = s.master
  opened : s.opened ⊆ t.opened
  mem : IsValidSocket fd → fd ∈ t.opened

theorem Opens.none (s : Server) : Opens s s errorReturn :=
  ⟨rfl, Finset.Subset.refl _, fun h => absurd h (by decide)⟩

theorem OnlyOpen.registerPeer (hs : s.OnlyOpen) {fd : Socket} (h : Opens s t fd) :
    (registerPeer t fd).OnlyOpen := by
  have ht : t.OnlyOpen := by
    rw [OnlyOpen, h.master]
    exact hs.trans h.opened
  rw [ChatRing.registerPeer]
  split
  · rename_i hfd
    exact Finset.insert_subset (h.mem hfd) ht
  · exact ht

theorem opens_admitPeer {id port : ℤ} {fd : Socket} {addr toPredecessor : Text}
    {reply : Option ServerInfo → Text}
    (h : admitPeer env s id port addr reply toPredecessor = .ok (fd, t)) : Opens s t fd := by
  rcases admitPeer_eq_ok h with ⟨-, rfl, rfl⟩ | ⟨-, hfd, sent, -, rfl⟩
  · exact Opens.none t
  · refine ⟨rfl, Finset.subset_insert _ _, fun hvalid => ?_⟩
    rcases hfd with rfl | rfl
    · exact absurd hvalid (by decide)
    · exact Finset.mem_insert_self _ _

/-- The connection of `new_client` is closed again, and its number was not in use. -/
theorem opens_newClient {port : ℤ} {fd : Socket} {addr : Text} (hfresh : s.Fresh env.connect)
    (h : newClient env s port addr = .ok (fd, t)) : Opens s t fd := by
  obtain ⟨rfl, rfl | ⟨hc, opened, sent, hopened, -, rfl⟩⟩ := newClient_eq_ok h
  · exact Opens.none t
  · refine ⟨rfl, ?_, fun hvalid => absurd hvalid (by decide)⟩
    rcases hopened with rfl | rfl
    · exact Finset.subset_insert _ _
    · have hnot : env.connect ∉ s.opened := hfresh.resolve_left (not_not_intro hc)
      rw [Finset.erase_insert_eq_erase, Finset.erase_eq_of_notMem hnot]

theorem opens_handleMcastReceive {received : Option Text} {fd : Socket} {addr : Text}
    (hfresh : s.Fresh env.connect) (h : handleMcastReceive env s received addr = .ok (fd, t)) :
    Opens s t fd := by
  rcases handleMcastReceive_eq_ok h with ⟨rfl, rfl⟩ | ⟨-, hadmits⟩ |
    ⟨-, rfl, leader, rest, -, rfl⟩
  · exact Opens.none t
  · rcases hadmits with ⟨id, port, h⟩ | ⟨id, port, h⟩ | ⟨port, h⟩
    · exact opens_admitPeer h
    · exact opens_admitPeer h
    · exact opens_newClient hfresh h
  · exact ⟨rfl, Finset.Subset.refl _, fun hvalid => absurd hvalid (by decide)⟩

/-! ## Connections of the socket handler -/

theorem handleDisconnection_descriptors (h : handleDisconnection s i = .ok t) :
    t.master = s.master ∧ t.opened = s.opened := by
  rcases handleDisconnection_eq_ok h with ⟨-, rfl⟩ | ⟨-, -, successor, next, -, -, rfl⟩ |
    ⟨-, -, -, -, rfl⟩
  · exact ⟨rfl, rfl⟩
  · exact ⟨rfl, rfl⟩
  · exact ⟨rfl, rfl⟩

theorem OnlyOpen.disconnect (hs : s.OnlyOpen) (h : ChatRing.disconnect s i = .ok t) :
    t.OnlyOpen := by
  obtain ⟨u, ltcpSocket, hu, rfl⟩ := disconnect_eq_ok h
  obtain ⟨hmaster, hopened⟩ := handleDisconnection_descriptors hu
  rw [OnlyOpen, hmaster, hopened]
  exact Finset.erase_subset_erase i hs

theorem OnlyOpen.dropSuccessor (hs : s.OnlyOpen) : (dropSuccessor s).OnlyOpen := by
  rw [ChatRing.dropSuccessor]
  split
  · exact Finset.erase_subset_erase _ hs
  · exact hs

theorem OnlyOpen.dropNext (hs : s.OnlyOpen) (h : dropNext s = .ok t) : t.OnlyOpen := by
  obtain ⟨first, rest, -, -, rfl⟩ := dropNext_eq_ok h
  exact Finset.erase_subset_erase first.tcpSocket hs

theorem OnlyOpen.actOnElection (hs : s.OnlyOpen) {retValue : ℤ}
    (h : actOnElection env retValue s = .ok t) : t.OnlyOpen := by
  rcases actOnElection_eq_ok h with rfl | ⟨-, first, second, rest, -, rfl⟩ | ⟨-, h⟩
  · exact hs
  · have hdropped : OnlyOpen { s with
        next := rest
        master := s.master.erase second.tcpSocket
        opened := s.opened.erase second.tcpSocket } := Finset.erase_subset_erase _ hs
    exact hdropped.dropSuccessor.same (SameSockets.of_doMulticast env _ _)
  · exact hs.dropSuccessor.dropNext h

/-- The election closes what it clears. -/
theorem OnlyOpen.handleElection (hs : s.OnlyOpen) {read keyword : Text} {predId : ℤ}
    (h : handleElection env s read keyword predId = .ok t) : t.OnlyOpen := by
  obtain ⟨⟨r, u⟩, hu, h⟩ := Except.bind_eq_ok.mp h
  exact (hs.same (SameSockets.of_lcrElection hu)).actOnElection h

/-- A new successor leaves a closed descriptor in `master` exactly when it takes the
place of an old one and its descriptor has the old one's number. -/
theorem OnlyOpen.newSuccessor_iff (hs : s.OnlyOpen) {ip : Text} {id port : ℤ}
    (h : newSuccessor env s ip id port = .ok t) :
    t.OnlyOpen ↔ ¬ (2 ≤ s.next.length ∧ env.connect = s.successorSocket) := by
  obtain ⟨-, portStr, next, master, opened, hcases, rfl⟩ := newSuccessor_eq_ok h
  have hsub : s.master ⊆ insert env.connect s.opened := hs.trans (Finset.subset_insert _ _)
  rcases hcases with ⟨first, hnext, -, rfl, rfl⟩ | ⟨first, second, rest, hnext, -, rfl, rfl⟩
  · have hlen : ¬ (2 ≤ s.next.length ∧ env.connect = s.successorSocket) := by simp [hnext]
    refine iff_of_true ?_ hlen
    exact Finset.insert_subset (Finset.mem_insert_self _ _) hsub
  · have hlen : 2 ≤ s.next.length := by simp [hnext]
    show insert env.connect (s.master.erase s.successorSocket) ⊆
      (insert env.connect s.opened).erase s.successorSocket ↔ _
    constructor
    · rintro hopen ⟨-, heq⟩
      have hmem := hopen (Finset.mem_insert_self env.connect _)
      exact (Finset.mem_erase.mp hmem).1 heq
    · intro hne
      have hne' : env.connect ≠ s.successorSocket := fun heq => hne ⟨hlen, heq⟩
      refine Finset.insert_subset ?_ (Finset.erase_subset_erase _ hsub)
      exact Finset.mem_erase.mpr ⟨hne', Finset.mem_insert_self _ _⟩

/-- The request that a client sends for its vector index. -/
def getIndex : Text := text "GET_INDEX"

/-- The answer to `GET_INDEX` cannot be sent. -/
def IndexReplyFails (env : Env) (s : Server) (i : Socket) : Prop :=
  env.sends s.out i (padX (indexReply multicastIp randomPort s.clkIndex)) = false

instance (env : Env) (s : Server) (i : Socket) : Decidable (IndexReplyFails env s i) :=
  inferInstanceAs (Decidable (_ = false))

/-- A failed reply closes the client's socket and leaves it in `master`. -/
theorem OnlyOpen.handleClientMessage_iff (hs : s.OnlyOpen) {senderId destId r : ℤ}
    {message : Text} (h : handleClientMessage env s senderId destId message i = .ok (r, t)) :
    t.OnlyOpen ↔ ¬ (message = getIndex ∧ IndexReplyFails env s i ∧ i ∈ s.master) := by
  by_cases hmessage : message = getIndex
  · rw [show message = text "GET_INDEX" from hmessage, handleClientMessage_getIndex] at h
    split at h
    · rename_i hsends
      cases h
      exact iff_of_true hs fun hall => ne_true_of_eq_false hall.2.1 hsends
    · rename_i hfails
      have hreply : IndexReplyFails env s i := Bool.eq_false_of_not_eq_true hfails
      cases h
      show s.master ⊆ s.opened.erase i ↔ _
      constructor
      · rintro hopen ⟨-, -, hi⟩
        exact (Finset.mem_erase.mp (hopen hi)).1 rfl
      · intro hnot fd hfd
        refine Finset.mem_erase.mpr ⟨?_, hs hfd⟩
        rintro rfl
        exact hnot ⟨hmessage, hreply, hfd⟩
  · obtain ⟨sent, -, rfl⟩ := handleClientMessage_forward hmessage h
    exact iff_of_true hs fun hall => hmessage hall.1

theorem OnlyOpen.assignClientInfo_iff (hs : s.OnlyOpen) {socket : Socket}
    (hsocket : socket ∈ s.master) {clientIp : Option Text} :
    (assignClientInfo s socket clientIp).OnlyOpen ↔
      ¬ (clientIp ≠ none ∧ s.clientArray.length = maxConnection) := by
  cases clientIp with
  | none =>
      refine iff_of_true hs ?_
      simp
  | some ip =>
      rw [assignClientInfo]
      split
      · rename_i hlen
        refine iff_of_false ?_ (not_not_intro ⟨by simp, hlen⟩)
        intro hopen
        exact (Finset.mem_erase.mp (hopen hsocket)).1 rfl
      · rename_i hlen
        refine iff_of_true hs ?_
        rintro ⟨-, hall⟩
        exact hlen hall

/-- A connection accepted at the limit is closed and left in `master`. -/
theorem OnlyOpen.acceptNewClient_iff (hs : s.OnlyOpen) {socket : Socket} {clientIp : Option Text} :
    (acceptNewClient s socket clientIp).OnlyOpen ↔
      ¬ (IsValidSocket socket ∧ clientIp ≠ none ∧ s.clientArray.length = maxConnection) := by
  rw [acceptNewClient]
  split
  · rename_i hsocket
    have hopen : ({ s with opened := insert socket s.opened }.fdSet socket).OnlyOpen :=
      Finset.insert_subset_insert socket hs
    rw [hopen.assignClientInfo_iff (Finset.mem_insert_self _ _), not_iff_not]
    exact ⟨fun hall => ⟨hsocket, hall⟩, And.right⟩
  · rename_i hsocket
    refine iff_of_true hs ?_
    rintro ⟨hall, -⟩
    exact hsocket hall

/-! ## All events -/

/-- The text of a block leads to a closed descriptor in `master`: a `GET_INDEX` request
on a selected socket whose reply fails, or a new successor whose descriptor has the
number in `successor_socket`. -/
def ReadClosesSelected (env : Env) (s : Server) (i : Socket) (read : Text) : Prop :=
  match parseFrame (i = s.ltcpSocket) read with
  | .client _ _ message => message = getIndex ∧ IndexReplyFails env s i ∧ i ∈ s.master
  | .updateFromLeader .. => 2 ≤ s.next.length ∧ env.connect = s.successorSocket
  | .knowNewLeader _ _ _ _ _ sPORT =>
      sPORT ≠ 0 ∧ 2 ≤ s.next.length ∧ env.connect = s.successorSocket
  | _ => False

/-- The event closes a descriptor that stays in `master`. -/
def ClosesSelected (s : Server) : Event → Prop
  | .timer _ => False
  | .accept socket clientIp =>
      IsValidSocket socket ∧ clientIp ≠ none ∧ s.clientArray.length = maxConnection
  | .datagram _ _ _ => False
  | .readable env i received =>
      received ≠ [] ∧
        ∃ read, frameBody (received.take bufferSize) = some read ∧ ReadClosesSelected env s i read

theorem OnlyOpen.handleKnowNewLeader_iff (hs : s.OnlyOpen) {nlID nlPORT sID sPORT : ℤ}
    {nlIP sIP : Text} (h : handleKnowNewLeader env s i nlID nlIP nlPORT sID sIP sPORT = .ok t) :
    t.OnlyOpen ↔ ¬ (sPORT ≠ 0 ∧ 2 ≤ s.next.length ∧ env.connect = s.successorSocket) := by
  obtain ⟨next, hnext, ⟨hport, rfl⟩ | ⟨hport, u, hu, rfl⟩⟩ := handleKnowNewLeader_eq_ok h
  · exact iff_of_true hs fun hall => hall.1 hport
  · have hlist : OnlyOpen { s with next := next } := hs
    have hiff := hlist.newSuccessor_iff hu
    rw [two_le_length_appendLeader hnext] at hiff
    show u.OnlyOpen ↔ _
    rw [hiff, and_iff_right hport]

/-- **One event keeps `master` within the open descriptors exactly when it takes none
of the three paths.** -/
theorem OnlyOpen.handle_iff (hs : s.OnlyOpen) {e : Event} (hpossible : e.Possible s)
    (h : handle s e = .ok t) : t.OnlyOpen ↔ ¬ s.ClosesSelected e := by
  cases handled h with
  | timer ht => exact iff_of_true (hs.same (SameSockets.of_onTimer ht)) id
  | accept => exact hs.acceptNewClient_iff
  | datagram ht => exact iff_of_true (hs.registerPeer (opens_handleMcastReceive hpossible ht)) id
  | disconnect ht => exact iff_of_true (hs.disconnect ht) fun hall => hall.1 rfl
  | unfinished hne hread =>
      refine iff_of_true hs ?_
      simp [ClosesSelected, hread]
  | updateFromLeader hne hread hframe ht =>
      rw [hs.newSuccessor_iff ht]
      simp [ClosesSelected, ReadClosesSelected, hne, hread, hframe]
  | client hne hread hframe ht =>
      rw [hs.handleClientMessage_iff ht]
      simp [ClosesSelected, ReadClosesSelected, hne, hread, hframe]
  | election hne hread hframe ht =>
      refine iff_of_true (hs.handleElection ht) ?_
      simp [ClosesSelected, ReadClosesSelected, hread, hframe]
  | knowNewLeader hne hread hframe ht =>
      rw [hs.handleKnowNewLeader_iff ht]
      simp [ClosesSelected, ReadClosesSelected, hne, hread, hframe]
  | @heartbeat env i received read id hne hread hframe =>
      have hopen : (s.updateHeartbeat env id).OnlyOpen := by
        obtain ⟨lastHeartbeat, next, hset⟩ := updateHeartbeat_eq env s id
        rw [hset]
        exact hs
      refine iff_of_true hopen ?_
      simp [ClosesSelected, ReadClosesSelected, hread, hframe]
  | unknown hne hread hframe =>
      refine iff_of_true hs ?_
      simp [ClosesSelected, ReadClosesSelected, hread, hframe]

theorem step_eq_some {e : Event} (h : s.step e = some t) :
    e.Possible s ∧ handle s e = .ok t := by
  rw [step] at h
  split at h
  · rename_i hpossible
    exact ⟨hpossible, Except.toOption_eq_some.mp h⟩
  · cases h

/-- **Every descriptor in `master` is open in every state of a run exactly when no event
of the run closes a descriptor that stays in `master`.** -/
theorem only_open_iff {s₀ : Server} (h₀ : s₀.OnlyOpen) {h : List (Server × Event)}
    (run : Run step s₀ h s) :
    (∀ x ∈ Run.states h s, x.OnlyOpen) ↔ ∀ x e, (x, e) ∈ h → ¬ x.ClosesSelected e := by
  refine run.forall_states_iff (I := OnlyOpen) h₀ (fun _ hx => hx) ?_ ?_
  · intro x e y hx he hstep
    obtain ⟨hpossible, hh⟩ := step_eq_some hstep
    exact (hx.handle_iff hpossible hh).mpr he
  · intro x e y hx he hstep
    obtain ⟨hpossible, hh⟩ := step_eq_some hstep
    exact fun hopen => he ((hx.handle_iff hpossible hh).mp hopen)

/-! ## A leader that cannot answer -/

private def started : Server := startLeader 0 7 (text "127.0.0.1") 4041 20000 3 4

/-- An environment in which every send has the given result. -/
private def allSends (ok : Bool) : Env := ⟨0, errorReturn, fun _ _ _ => ok, true, 0⟩

/-- A client connects and asks for its index. -/
private def indexRequest (ok : Bool) : List Event :=
  [.accept 5 (some (text "127.0.0.1")),
    .readable (allSends ok) 5 (padX (text "CLIENT:100:1:GET_INDEX\n\n"))]

private def indexRequestEnd (ok : Bool) : Server :=
  (exec step started (indexRequest ok)).get (by cases ok <;> decide +kernel)

private theorem run_indexRequest (ok : Bool) :
    Run step started (trace step started (indexRequest ok)) (indexRequestEnd ok) :=
  Run.of_exec (Option.some_get _).symm

/-- When the reply cannot be sent, descriptor 5 is closed and still selected on. -/
theorem unsent_index_leaves_closed_descriptor :
    started.OnlyOpen ∧
      Run step started (trace step started (indexRequest false)) (indexRequestEnd false) ∧
      5 ∈ (indexRequestEnd false).master ∧ 5 ∉ (indexRequestEnd false).opened ∧
      ¬ (indexRequestEnd false).OnlyOpen :=
  ⟨by decide +kernel, run_indexRequest false, by decide +kernel, by decide +kernel,
    by decide +kernel⟩

theorem only_open_iff_index_sent :
    (indexRequestEnd true).master = {0, 3, 4, 5} ∧
      ((∀ x ∈ Run.states (trace step started (indexRequest true)) (indexRequestEnd true),
          x.OnlyOpen) ↔
        ∀ x e, (x, e) ∈ trace step started (indexRequest true) → ¬ x.ClosesSelected e) :=
  ⟨by decide +kernel, only_open_iff (by decide +kernel) (run_indexRequest true)⟩

end Server
end ChatRing
