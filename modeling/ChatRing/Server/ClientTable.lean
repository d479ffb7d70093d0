import ChatRing.Server.Follower

/-!
# The client table and the connections in it

`ClientArray` is to hold one entry for every open connection that was accepted and not
rejected at the limit.  An entry goes only where `handle_disconnection` takes the
connection for a client's; every other path that closes an accepted connection leaves its
entry behind, and a connection whose address `getnameinfo` does not find gets none.  With which
table the loop begins is the subject of `Discovered`.

## Main definitions

* `Tracked` — a server together with the accepted connections that are open.
* `Tracked.Exact` — the table is exact.
* `Server.Leaks` — the paths that make it inexact.

## Main results

* `SameClients` — what all other handlers leave alone.
* `Tracked.exact_iff` — the table is exact throughout a run iff no event takes such a path.
-/

namespace ChatRing
open CText RingElection

/-- The table, the counter of indices and the ID of the group are those of `s`. -/
structure SameClients (s t : Server) : Prop where
  clientArray : t.clientArray = s.clientArray
  clkIndex : t.clkIndex = s.clkIndex
  groupId : t.groupId = s.groupId

namespace SameClients
variable {env : Env} {s t u : Server}

theorem refl (s : Server) : SameClients s s := ⟨rfl, rfl, rfl⟩

theorem trans (h₁ : SameClients s t) (h₂ : SameClients t u) : SameClients s u :=
  ⟨h₂.clientArray.trans h₁.clientArray, h₂.clkIndex.trans h₁.clkIndex,
    h₂.groupId.trans h₁.groupId⟩

theorem of_listOnly (h : ListOnly s t) : SameClients s t := by
  rw [h]
  exact ⟨rfl, rfl, rfl⟩

/-! ### The multicast socket -/

theorem of_admitPeer {id port : ℤ} {fd : Socket} {addr toPredecessor : Text}
    {reply : Option ServerInfo → Text}
    (h : admitPeer env s id port addr reply toPredecessor = .ok (fd, t)) : SameClients s t := by
  rcases admitPeer_eq_ok h with ⟨-, -, rfl⟩ | ⟨-, -, sent, -, rfl⟩
  · exact refl t
  · exact ⟨rfl, rfl, rfl⟩

theorem of_newClient {port : ℤ} {fd : Socket} {addr : Text}
    (h : newClient env s port addr = .ok (fd, t)) : SameClients s t := by
  rcases newClient_eq_ok h with ⟨-, rfl | ⟨-, opened, sent, -, -, rfl⟩⟩
  · exact refl t
  · exact ⟨rfl, rfl, rfl⟩

theorem of_handleMcastReceive {received : Option Text} {fd : Socket} {addr : Text}
    (h : handleMcastReceive env s received addr = .ok (fd, t)) : SameClients s t := by
  rcases handleMcastReceive_eq_ok h with ⟨-, rfl⟩ | ⟨-, hadmits⟩ | ⟨-, -, leader, rest, -, rfl⟩
  · exact refl t
  · rcases hadmits with ⟨id, port, h⟩ | ⟨id, port, h⟩ | ⟨port, h⟩
    · exact of_admitPeer h
    · exact of_admitPeer h
    · exact of_newClient h
  · exact ⟨rfl, rfl, rfl⟩

/-! ### Connections -/

theorem of_newSuccessor {ip : Text} {id port : ℤ} (h : newSuccessor env s ip id port = .ok t) :
    SameClients s t := by
  obtain ⟨-, portStr, next, master, opened, -, rfl⟩ := newSuccessor_eq_ok h
  exact ⟨rfl, rfl, rfl⟩

theorem of_handleKnowNewLeader {i : Socket} {nlID nlPORT sID sPORT : ℤ} {nlIP sIP : Text}
    (h : handleKnowNewLeader env s i nlID nlIP nlPORT sID sIP sPORT = .ok t) :
    SameClients s t := by
  obtain ⟨next, -, ⟨-, rfl⟩ | ⟨-, u, hu, rfl⟩⟩ := handleKnowNewLeader_eq_ok h
  · exact ⟨rfl, rfl, rfl⟩
  · have hsame := of_newSuccessor hu
    exact ⟨hsame.clientArray, hsame.clkIndex, hsame.groupId⟩

theorem of_updateHeartbeat (env : Env) (s : Server) (id : ℤ) :
    SameClients s (s.updateHeartbeat env id) := by
  obtain ⟨lastHeartbeat, next, hset⟩ := updateHeartbeat_eq env s id
  rw [hset]
  exact ⟨rfl, rfl, rfl⟩

/-! ### The election -/

theorem of_dropSuccessor (s : Server) : SameClients s (dropSuccessor s) := by
  rw [dropSuccessor]
  split
  · exact ⟨rfl, rfl, rfl⟩
  · exact refl s

theorem of_dropNext (h : dropNext s = .ok t) : SameClients s t := by
  obtain ⟨first, rest, -, -, rfl⟩ := dropNext_eq_ok h
  exact ⟨rfl, rfl, rfl⟩

theorem of_handleElection {read keyword : Text} {predId : ℤ}
    (h : handleElection env s read keyword predId = .ok t) : SameClients s t := by
  obtain ⟨⟨r, u⟩, hu, h⟩ := Except.bind_eq_ok.mp h
  refine (of_listOnly (.of_lcrElection hu)).trans ?_
  rcases actOnElection_eq_ok h with rfl | ⟨-, first, second, rest, -, rfl⟩ | ⟨-, h⟩
  · exact refl t
  · refine SameClients.trans ?_ ((of_dropSuccessor _).trans (of_listOnly (.of_doMulticast env _ _)))
    exact ⟨rfl, rfl, rfl⟩
  · exact (of_dropSuccessor u).trans (of_dropNext h)

end SameClients

/-! ## Descriptors that are closed -/

namespace Server

/-- The descriptors that have an entry in the table. -/
def tableSockets (s : Server) : List Socket := s.clientArray.map ClientInfo.socket

/-- A disconnection that is not taken for a client's. -/
def KeepsEntry (s : Server) (i : Socket) : Prop :=
  i = s.mcSocket ∨ i = s.ltcpSocket ∨ (i = s.successorSocket ∧ s.self.leader ≠ 1) ∨
    istPeerServer i s.self s.next ≠ none

/-- An election that the server wins, or that tells it its leader, closes its successor's
connection and the number in `successor_socket`. -/
def ElectionCloses (env : Env) (s : Server) (keyword : Text) (predId : ℤ) (fd : Socket) : Prop :=
  (s.Wins env keyword predId ∨ s.Learns env keyword predId) ∧
    ((IsValidSocket s.successorSocket ∧ fd = s.successorSocket) ∨
      ∃ dropped ∈ s.next[if keyword = text "VOTE" ∧ predId = 1 then 2 else 1]?,
        fd = dropped.tcpSocket)

/-- The text of a block that came on socket `i` makes the server close `fd`. -/
def ReadCloses (env : Env) (s : Server) (i : Socket) (read : Text) (fd : Socket) : Prop :=
  match parseFrame (i = s.ltcpSocket) read with
  | .updateFromLeader .. => 2 ≤ s.next.length ∧ fd = s.successorSocket
  | .client _ _ message => message = getIndex ∧ IndexReplyFails env s i ∧ fd = i
  | .election keyword predId =>
      s.ElectionCloses env (electionOf read keyword predId).1 (electionOf read keyword predId).2 fd
  | .knowNewLeader _ _ _ _ _ sPORT => sPORT ≠ 0 ∧ 2 ≤ s.next.length ∧ fd = s.successorSocket
  | _ => False

/-- The event opens an accepted connection without an entry, or closes one and leaves its
entry. -/
def Leaks (s : Server) : Event → Prop
  | .timer _ => False
  | .accept socket clientIp => IsValidSocket socket ∧ clientIp = none
  | .datagram _ _ _ => False
  | .readable env i received =>
      (received = [] ∧ i ∈ s.tableSockets ∧ s.KeepsEntry i) ∨
        (received ≠ [] ∧ ∃ read ∈ frameBody (received.take bufferSize),
          ∃ fd ∈ s.tableSockets, s.ReadCloses env i read fd)

section Closing
variable {env : Env} {s t : Server} {i fd : Socket}

/-- Only the last branch removes an entry, and it does nothing else. -/
theorem handleDisconnection_clients {u : Server} (h : handleDisconnection s i = .ok u) :
    (s.KeepsEntry i ∧ SameClients s u) ∨ (¬ s.KeepsEntry i ∧ u = removeClientFromList s i) := by
  rcases handleDisconnection_eq_ok h with ⟨hkeeps, rfl⟩ |
    ⟨hsocket, hleader, successor, next, -, -, rfl⟩ | ⟨hmc, hltcp, hsuccessor, hpeer, rfl⟩
  · refine Or.inl ⟨?_, .refl u⟩
    exact hkeeps.imp_right fun hkeeps => hkeeps.imp_right Or.inr
  · exact Or.inl ⟨Or.inr (Or.inr (Or.inl ⟨hsocket, hleader⟩)), rfl, rfl, rfl⟩
  · refine Or.inr ⟨?_, rfl⟩
    rintro (h | h | h | h)
    · exact hmc h
    · exact hltcp h
    · exact hsuccessor h
    · exact h hpeer

theorem disconnect_clients (h : disconnect s i = .ok t) :
    (s.KeepsEntry i ∧ SameClients s t) ∨
      (¬ s.KeepsEntry i ∧ SameClients (removeClientFromList s i) t) := by
  obtain ⟨u, ltcpSocket, hu, rfl⟩ := disconnect_eq_ok h
  rcases handleDisconnection_clients hu with ⟨hkeeps, hsame⟩ | ⟨hkeeps, rfl⟩
  · exact Or.inl ⟨hkeeps, hsame.clientArray, hsame.clkIndex, hsame.groupId⟩
  · exact Or.inr ⟨hkeeps, rfl, rfl, rfl⟩

/-- The descriptor of the new connection is fresh, so it is not among those open before. -/
theorem newSuccessor_opened {ip : Text} {id port : ℤ} (h : newSuccessor env s ip id port = .ok t)
    (hfd : fd ∈ s.opened) :
    fd ∈ t.opened ↔ ¬ (2 ≤ s.next.length ∧ fd = s.successorSocket) := by
  obtain ⟨-, portStr, next, master, opened, hcases, rfl⟩ := newSuccessor_eq_ok h
  rcases hcases with ⟨first, hnext, -, -, rfl⟩ | ⟨first, second, rest, hnext, -, -, rfl⟩
  · have hlen : ¬ (2 ≤ s.next.length ∧ fd = s.successorSocket) := by simp [hnext]
    exact iff_of_true (Finset.mem_insert_of_mem hfd) hlen
  · show fd ∈ (insert env.connect s.opened).erase s.successorSocket ↔ _
    simp [hfd, hnext]

theorem handleKnowNewLeader_opened {nlID nlPORT sID sPORT : ℤ} {nlIP sIP : Text}
    (h : handleKnowNewLeader env s i nlID nlIP nlPORT sID sIP sPORT = .ok t)
    (hfd : fd ∈ s.opened) :
    fd ∈ t.opened ↔ ¬ (sPORT ≠ 0 ∧ 2 ≤ s.next.length ∧ fd = s.successorSocket) := by
  obtain ⟨next, hnext, ⟨hport, rfl⟩ | ⟨hport, u, hu, rfl⟩⟩ := handleKnowNewLeader_eq_ok h
  · exact iff_of_true hfd fun hall => hall.1 hport
  · have hiff := newSuccessor_opened hu hfd
    rw [two_le_length_appendLeader hnext] at hiff
    show fd ∈ u.opened ↔ _
    rw [hiff, and_iff_right hport]

theorem electionCloses_iff {keyword : Text} {predId : ℤ} {dropped : ServerInfo}
    (hacts : s.Wins env keyword predId ∨ s.Learns env keyword predId)
    (hdropped : s.next[if keyword = text "VOTE" ∧ predId = 1 then 2 else 1]? = some dropped) :
    s.ElectionCloses env keyword predId fd ↔
      (IsValidSocket s.successorSocket ∧ fd = s.successorSocket) ∨ fd = dropped.tcpSocket := by
  rw [ElectionCloses, and_iff_right hacts, hdropped]
  simp

/-- The teardown closes the number in `successor_socket` and one record's descriptor. -/
private theorem mem_teardown {u : Server} (hsame : SameSockets s u) (hfd : fd ∈ s.opened)
    (dropped : ServerInfo) (rest : List ServerInfo) :
    fd ∈ (dropSuccessor { u with
      next := rest
      master := u.master.erase dropped.tcpSocket
      opened := u.opened.erase dropped.tcpSocket }).opened ↔
        ¬ ((IsValidSocket s.successorSocket ∧ fd = s.successorSocket) ∨
          fd = dropped.tcpSocket) := by
  rw [mem_dropSuccessor_opened]
  show fd ∈ u.opened.erase dropped.tcpSocket ∧
    ¬ (IsValidSocket u.successorSocket ∧ fd = u.successorSocket) ↔ _
  rw [hsame.opened, hsame.successorSocket, Finset.mem_erase, and_iff_left hfd, not_or, and_comm]

/-- What an election closes. -/
theorem handleElection_opened (hid : 1 ≤ s.self.id) {read keyword : Text} {predId : ℤ}
    (h : handleElection env s read keyword predId = .ok t) (hfd : fd ∈ s.opened) :
    fd ∈ t.opened ↔ ¬ s.ElectionCloses env (electionOf read keyword predId).1
      (electionOf read keyword predId).2 fd := by
  rw [handleElection_eq] at h
  generalize electionOf read keyword predId = e at h
  obtain ⟨⟨r, u⟩, hu, h⟩ := Except.bind_eq_ok.mp h
  have hsame := SameSockets.of_lcrElection hu
  by_cases hwins : s.Wins env e.1 e.2
  · obtain ⟨u', first, successor, rest, hlcr, hnext, hunext, hself⟩ := lcrElection_wins hwins
    obtain ⟨rfl, rfl⟩ := Prod.mk.inj (Except.ok.inj (hlcr.symm.trans hu))
    by_cases hone : e.2 = 1
    · rw [hone] at h
      obtain ⟨second, rest', rfl, rfl⟩ := actOnElection_learned hunext h
      have hdropped : s.next[if e.1 = text "VOTE" ∧ e.2 = 1 then 2 else 1]? = some second := by
        rw [if_pos ⟨hwins.1, hone⟩, hnext]
        rfl
      rw [electionCloses_iff (Or.inl hwins) hdropped, doMulticast_opened]
      exact mem_teardown hsame hfd second rest'
    · have hown : u'.self.id = e.2 := by
        rw [hself]
        exact hwins.2.1.symm
      simp only [actOnElection, if_neg hone, if_pos hown, hunext] at h
      obtain ⟨dropped, rest', hdrop, -, rfl⟩ := dropNext_eq_ok h
      rw [dropSuccessor_next, hunext] at hdrop
      obtain ⟨rfl, rfl⟩ := List.cons_eq_cons.mp hdrop
      have hdropped : s.next[if e.1 = text "VOTE" ∧ e.2 = 1 then 2 else 1]? = some successor := by
        rw [if_neg fun hall => hone hall.2, hnext]
        rfl
      rw [electionCloses_iff (Or.inl hwins) hdropped]
      show fd ∈ (dropSuccessor u').opened.erase successor.tcpSocket ↔ _
      rw [Finset.mem_erase, mem_dropSuccessor_opened, hsame.opened, hsame.successorSocket,
        and_iff_right hfd, not_or, and_comm]
  · by_cases hlearns : s.Learns env e.1 e.2
    · obtain ⟨u', first, successor, rest, hlcr, hnext, hunext, hself⟩ := lcrElection_learns hlearns
      obtain ⟨rfl, rfl⟩ := Prod.mk.inj (Except.ok.inj (hlcr.symm.trans hu))
      obtain ⟨second, rest', htail, rfl⟩ := actOnElection_learned hunext h
      obtain ⟨rfl, rfl⟩ := List.cons_eq_cons.mp htail
      have hkey : e.1 ≠ text "VOTE" := by
        rw [hlearns.1]
        decide +kernel
      have hdropped : s.next[if e.1 = text "VOTE" ∧ e.2 = 1 then 2 else 1]? = some successor := by
        rw [if_neg fun hall => hkey hall.1, hnext]
        rfl
      rw [electionCloses_iff (Or.inr hlearns) hdropped, doMulticast_opened]
      exact mem_teardown hsame hfd successor rest
    · obtain ⟨hr, huid, -, -⟩ := lcrElection_passes hwins hlearns hu
      rw [actOnElection_passes (huid ▸ hid) hr] at h
      cases h
      rw [← hsame.opened] at hfd
      exact iff_of_true hfd fun hall => hall.1.elim hwins hlearns

end Closing
end Server

/-! ## Accepted connections -/

/-- A server, and the connections that it has accepted and not rejected at the limit, as
long as they are open. -/
structure Tracked where
  server : Server
  accepted : Finset Socket

/-- The connection that the event brings, unless it is rejected at the limit. -/
def Server.admitted (s : Server) : Event → Finset Socket
  | .accept socket clientIp =>
      if IsValidSocket socket ∧ ¬ (clientIp ≠ none ∧ s.clientArray.length = maxConnection) then
        {socket}
      else ∅
  | _ => ∅

namespace Tracked

/-- The connections after the event: those before it and the new one, if they are open. -/
def after (x : Tracked) (e : Event) (t : Server) : Tracked :=
  ⟨t, (x.accepted ∪ x.server.admitted e) ∩ t.opened⟩

def step (x : Tracked) (e : Event) : Option Tracked := (x.server.step e).map (x.after e)

/-- The entries of the table are one for each accepted connection that is open. -/
def Exact (x : Tracked) : Prop :=
  x.server.tableSockets.Nodup ∧ ∀ fd, fd ∈ x.server.tableSockets ↔ fd ∈ x.accepted

/-- What holds whether or not the table is exact. -/
structure Inv (x : Tracked) : Prop where
  id : 1 ≤ x.server.self.id
  opened : x.accepted ⊆ x.server.opened

section Step
variable {x : Tracked} {t : Server} {e : Event}

theorem Inv.after (hx : x.Inv) (h : x.server.handle e = .ok t) : (x.after e t).Inv where
  id := (Server.handle_self h).1 ▸ hx.id
  opened := Finset.inter_subset_right

/-- An event that leaves the entries alone keeps the table exact when it closes none of
their connections. -/
theorem Exact.after_iff (hx : x.Exact) (hsockets : t.tableSockets = x.server.tableSockets)
    (hadmitted : x.server.admitted e = ∅) :
    (x.after e t).Exact ↔ ∀ fd ∈ x.server.tableSockets, fd ∈ t.opened := by
  rw [Exact, after, hadmitted, Finset.union_empty]
  show t.tableSockets.Nodup ∧ (∀ fd, fd ∈ t.tableSockets ↔ fd ∈ x.accepted ∩ t.opened) ↔ _
  rw [hsockets]
  constructor
  · rintro ⟨-, hall⟩ fd hfd
    exact (Finset.mem_inter.mp ((hall fd).mp hfd)).2
  · intro hall
    refine ⟨hx.1, fun fd => ?_⟩
    rw [Finset.mem_inter, ← hx.2 fd]
    exact ⟨fun hfd => ⟨hfd, hall fd hfd⟩, And.left⟩

/-- No connection is closed. -/
theorem Exact.after_of_subset (hx : x.Exact) (hinv : x.Inv)
    (hsockets : t.tableSockets = x.server.tableSockets) (hadmitted : x.server.admitted e = ∅)
    (hopened : x.server.opened ⊆ t.opened) : (x.after e t).Exact :=
  (hx.after_iff hsockets hadmitted).mpr fun fd hfd =>
    hopened (hinv.opened ((hx.2 fd).mp hfd))

/-- Exactly the connections with the property `p` are closed. -/
theorem Exact.after_closes (hx : x.Exact) (hinv : x.Inv)
    (hsockets : t.tableSockets = x.server.tableSockets) (hadmitted : x.server.admitted e = ∅)
    {p : Socket → Prop}
    (hcloses : ∀ fd ∈ x.server.opened, fd ∈ t.opened ↔ ¬ p fd) :
    (x.after e t).Exact ↔ ¬ ∃ fd ∈ x.server.tableSockets, p fd := by
  rw [hx.after_iff hsockets hadmitted, not_exists]
  constructor
  · rintro hall fd ⟨hfd, hc⟩
    exact (hcloses fd (hinv.opened ((hx.2 fd).mp hfd))).mp (hall fd hfd) hc
  · intro hall fd hfd
    exact (hcloses fd (hinv.opened ((hx.2 fd).mp hfd))).mpr fun hc => hall fd ⟨hfd, hc⟩

theorem tableSockets_of_same {s t : Server} (h : SameClients s t) :
    t.tableSockets = s.tableSockets := by
  rw [Server.tableSockets, h.clientArray, Server.tableSockets]

theorem tableSockets_indexed (s : Server) (senderId : ℤ) (i : Socket) :
    (s.indexed senderId i).tableSockets = s.tableSockets := by
  rw [Server.tableSockets, Server.tableSockets, Server.indexed, List.map_map]
  refine List.map_congr_left fun c _ => ?_
  rw [Function.comp_apply]
  split <;> rfl

/-- Which disconnections remove an entry. -/
theorem handleDisconnection_table {s u : Server} {i : Socket}
    (h : handleDisconnection s i = .ok u) :
    (s.KeepsEntry i ∧ u.tableSockets = s.tableSockets) ∨
      (¬ s.KeepsEntry i ∧ u.tableSockets = s.tableSockets.erase i) := by
  rcases Server.handleDisconnection_clients h with ⟨hkeeps, hsame⟩ | ⟨hkeeps, rfl⟩
  · exact Or.inl ⟨hkeeps, tableSockets_of_same hsame⟩
  · refine Or.inr ⟨hkeeps, ?_⟩
    rw [Server.tableSockets, Server.tableSockets, List.erase_eq_eraseP', List.eraseP_map]
    exact congrArg (fun p => (s.clientArray.eraseP p).map ClientInfo.socket)
      (funext fun c => (beq_eq_decide c.socket i).symm)

section Accept
variable {socket : Socket} {ip : Text}

/-- A connection whose address is not found. -/
theorem Exact.accept_unnamed (hnot : socket ∉ x.server.tableSockets)
    (hvalid : IsValidSocket socket) :
    ¬ (x.after (.accept socket none) (acceptNewClient x.server socket none)).Exact := by
  rintro ⟨-, hall⟩
  have hsame : acceptNewClient x.server socket none =
      { x.server with opened := insert socket x.server.opened }.fdSet socket := if_pos hvalid
  have hadmitted : x.server.admitted (.accept socket none) = {socket} :=
    if_pos ⟨hvalid, fun h => h.1 rfl⟩
  rw [hsame] at hall
  refine hnot ((hall socket).mpr (Finset.mem_inter.mpr ⟨?_, Finset.mem_insert_self _ _⟩))
  rw [hadmitted]
  exact Finset.mem_union_right _ (Finset.mem_singleton_self socket)

/-- A connection that is rejected is closed again. -/
theorem Exact.accept_rejected (hx : x.Exact) (hinv : x.Inv) (hnew : socket ∉ x.server.opened)
    (hvalid : IsValidSocket socket) (hlen : x.server.clientArray.length = maxConnection) :
    (x.after (.accept socket (some ip)) (acceptNewClient x.server socket (some ip))).Exact := by
  have hadmitted : x.server.admitted (.accept socket (some ip)) = ∅ :=
    if_neg fun h => h.2 ⟨by simp, hlen⟩
  have hrejected : acceptNewClient x.server socket (some ip) =
      ({ x.server with opened := insert socket x.server.opened }.fdSet socket).closeSocket
        socket := by
    rw [acceptNewClient, if_pos hvalid]
    exact if_pos hlen
  rw [hrejected]
  refine hx.after_of_subset hinv rfl hadmitted ?_
  show x.server.opened ⊆ (insert socket x.server.opened).erase socket
  rw [Finset.erase_insert_eq_erase, Finset.erase_eq_of_notMem hnew]

/-- Any other connection gets the last entry. -/
theorem Exact.accept_entered (hx : x.Exact) (hinv : x.Inv) (hnot : socket ∉ x.server.tableSockets)
    (hvalid : IsValidSocket socket) (hlen : x.server.clientArray.length ≠ maxConnection) :
    (x.after (.accept socket (some ip)) (acceptNewClient x.server socket (some ip))).Exact := by
  have hadmitted : x.server.admitted (.accept socket (some ip)) = {socket} :=
    if_pos ⟨hvalid, fun h => hlen h.2⟩
  have hentered : acceptNewClient x.server socket (some ip) =
      { { x.server with opened := insert socket x.server.opened }.fdSet socket with
        clientArray := x.server.clientArray ++ [⟨0, socket, ip⟩] } := by
    rw [acceptNewClient, if_pos hvalid]
    exact if_neg hlen
  rw [hentered]
  have hsockets : (x.server.clientArray ++ [ClientInfo.mk 0 socket ip]).map ClientInfo.socket =
      x.server.tableSockets ++ [socket] := List.map_append
  refine ⟨?_, fun fd => ?_⟩
  · show ((x.server.clientArray ++ [ClientInfo.mk 0 socket ip]).map ClientInfo.socket).Nodup
    rw [hsockets, ← List.concat_eq_append]
    exact hx.1.concat hnot
  · show fd ∈ (x.server.clientArray ++ [ClientInfo.mk 0 socket ip]).map ClientInfo.socket ↔
      fd ∈ (x.accepted ∪ x.server.admitted (.accept socket (some ip))) ∩
        insert socket x.server.opened
    rw [hsockets, hadmitted, List.mem_append, List.mem_singleton, hx.2 fd, Finset.mem_inter,
      Finset.mem_union, Finset.mem_singleton, Finset.mem_insert]
    exact ⟨fun h => ⟨h, h.symm.imp_right fun hfd => hinv.opened hfd⟩, And.left⟩

end Accept

/-- A new connection gets its entry unless its address is not found. -/
theorem Exact.accept_iff (hx : x.Exact) (hinv : x.Inv) {socket : Socket} {clientIp : Option Text}
    (hfresh : x.server.Fresh socket) :
    (x.after (.accept socket clientIp) (acceptNewClient x.server socket clientIp)).Exact ↔
      ¬ (IsValidSocket socket ∧ clientIp = none) := by
  by_cases hvalid : IsValidSocket socket
  · have hnew : socket ∉ x.server.opened := hfresh.resolve_left (not_not_intro hvalid)
    have hnot : socket ∉ x.server.tableSockets := fun h => hnew (hinv.opened ((hx.2 socket).mp h))
    cases clientIp with
    | none => exact iff_of_false (Exact.accept_unnamed hnot hvalid) (not_not_intro ⟨hvalid, rfl⟩)
    | some ip =>
        refine iff_of_true ?_ (by simp)
        by_cases hlen : x.server.clientArray.length = maxConnection
        · exact hx.accept_rejected hinv hnew hvalid hlen
        · exact hx.accept_entered hinv hnot hvalid hlen
  · have hsame : acceptNewClient x.server socket clientIp = x.server := if_neg hvalid
    rw [hsame]
    refine iff_of_true (hx.after_of_subset hinv rfl ?_ (Finset.Subset.refl _)) fun h => hvalid h.1
    exact if_neg fun h => hvalid h.1

/-- A connection that ends loses its entry when it is taken for a client's. -/
theorem Exact.disconnect_iff (hx : x.Exact) (hinv : x.Inv) {env : Env} {i : Socket}
    (h : disconnect x.server i = .ok t) :
    (x.after (.readable env i []) t).Exact ↔
      ¬ (i ∈ x.server.tableSockets ∧ x.server.KeepsEntry i) := by
  obtain ⟨u, ltcpSocket, hu, ht⟩ := disconnect_eq_ok h
  obtain ⟨-, hopened⟩ := Server.handleDisconnection_descriptors hu
  have htopened : t.opened = x.server.opened.erase i := by
    rw [ht, hopened]
  have htsockets : t.tableSockets = u.tableSockets := by
    rw [ht]
    rfl
  rcases handleDisconnection_table hu with ⟨hkeeps, hsockets⟩ | ⟨hkeeps, hsockets⟩
  · rw [hx.after_closes hinv (htsockets.trans hsockets) rfl (p := (· = i)) ?_]
    · simp [hkeeps]
    · intro fd hfd
      rw [htopened, Finset.mem_erase, and_iff_left hfd]
  · refine iff_of_true ⟨?_, fun fd => ?_⟩ fun hall => hkeeps hall.2
    · show t.tableSockets.Nodup
      rw [htsockets, hsockets]
      exact hx.1.erase i
    · show fd ∈ t.tableSockets ↔ fd ∈ (x.accepted ∪ ∅) ∩ t.opened
      rw [htsockets, hsockets, hx.1.mem_erase_iff, hx.2 fd, Finset.union_empty, htopened,
        Finset.mem_inter, Finset.mem_erase]
      exact ⟨fun ⟨hne, hfd⟩ => ⟨hfd, hne, hinv.opened hfd⟩, fun ⟨hfd, hne, _⟩ => ⟨hne, hfd⟩⟩

/-- A message other than `GET_INDEX` closes nothing, and a request for an index closes the
connection when the reply cannot be sent. -/
theorem Exact.client_iff (hx : x.Exact) (hinv : x.Inv) {env : Env} {i : Socket}
    {received message : Text} {senderId destId r : ℤ}
    (h : handleClientMessage env x.server senderId destId message i = .ok (r, t)) :
    (x.after (.readable env i received) t).Exact ↔
      ¬ ∃ fd ∈ x.server.tableSockets,
        message = Server.getIndex ∧ Server.IndexReplyFails env x.server i ∧ fd = i := by
  by_cases hmessage : message = text "GET_INDEX"
  · rw [hmessage, handleClientMessage_getIndex] at h
    split at h
    · rename_i hsends
      cases h
      refine iff_of_true (hx.after_of_subset hinv (tableSockets_indexed _ _ _) rfl
        (Finset.Subset.refl _)) ?_
      rintro ⟨fd, -, -, hfails, -⟩
      exact ne_true_of_eq_false hfails hsends
    · rename_i hfails
      cases h
      refine (hx.after_closes (e := .readable env i received)
        (t := (x.server.indexed senderId i).closeSocket i) hinv
        (tableSockets_indexed _ _ _) rfl (p := (· = i)) ?_).trans ?_
      · intro fd hfd
        show fd ∈ x.server.opened.erase i ↔ _
        rw [Finset.mem_erase, and_iff_left hfd]
      · have hreply : Server.IndexReplyFails env x.server i := Bool.eq_false_of_not_eq_true hfails
        simp [hmessage, Server.getIndex, hreply]
  · obtain ⟨sent, -, rfl⟩ := handleClientMessage_forward hmessage h
    refine iff_of_true (hx.after_of_subset hinv rfl rfl (Finset.Subset.refl _)) ?_
    rintro ⟨fd, -, hget, -⟩
    exact hmessage hget

/-- **One event keeps the table exact exactly when it takes none of the paths that leak.** -/
theorem Exact.handle_iff (hx : x.Exact) (hinv : x.Inv) (hpossible : e.Possible x.server)
    (h : x.server.handle e = .ok t) : (x.after e t).Exact ↔ ¬ x.server.Leaks e := by
  cases Server.handled h with
  | timer ht =>
      have hsame := SameSockets.of_onTimer ht
      refine iff_of_true (hx.after_of_subset hinv ?_ rfl hsame.opened.ge) id
      exact tableSockets_of_same (.of_listOnly (.of_onTimer ht))
  | accept => exact hx.accept_iff hinv hpossible
  | @datagram env received senderAddr fd u ht =>
      obtain ⟨master, hregister⟩ := registerPeer_eq u fd
      have hopens := Server.opens_handleMcastReceive hpossible ht
      have hsockets := tableSockets_of_same (.of_handleMcastReceive ht)
      rw [hregister]
      exact iff_of_true (hx.after_of_subset hinv hsockets rfl hopens.opened) id
  | disconnect ht =>
      rw [hx.disconnect_iff hinv ht, Server.Leaks]
      simp
  | unfinished hne hread =>
      refine iff_of_true (hx.after_of_subset hinv rfl rfl (Finset.Subset.refl _)) ?_
      simp [Server.Leaks, hne, hread]
  | updateFromLeader hne hread hframe ht =>
      rw [hx.after_closes hinv (tableSockets_of_same (.of_newSuccessor ht)) rfl
        fun fd hfd => Server.newSuccessor_opened ht hfd]
      simp [Server.Leaks, Server.ReadCloses, hne, hread, hframe]
  | client hne hread hframe ht =>
      rw [hx.client_iff hinv ht]
      simp [Server.Leaks, Server.ReadCloses, hne, hread, hframe]
  | election hne hread hframe ht =>
      rw [hx.after_closes hinv (tableSockets_of_same (.of_handleElection ht)) rfl
        fun fd hfd => Server.handleElection_opened hinv.id ht hfd]
      simp [Server.Leaks, Server.ReadCloses, hne, hread, hframe]
  | knowNewLeader hne hread hframe ht =>
      rw [hx.after_closes hinv (tableSockets_of_same (.of_handleKnowNewLeader ht)) rfl
        fun fd hfd => Server.handleKnowNewLeader_opened ht hfd]
      simp [Server.Leaks, Server.ReadCloses, hne, hread, hframe]
  | @heartbeat env i received read id hne hread hframe =>
      have hopened : (x.server.updateHeartbeat env id).opened = x.server.opened := by
        obtain ⟨lastHeartbeat, next, hset⟩ := updateHeartbeat_eq env x.server id
        rw [hset]
      refine iff_of_true (hx.after_of_subset hinv
        (tableSockets_of_same (.of_updateHeartbeat _ _ _)) rfl hopened.ge) ?_
      simp [Server.Leaks, Server.ReadCloses, hne, hread, hframe]
  | unknown hne hread hframe =>
      refine iff_of_true (hx.after_of_subset hinv rfl rfl (Finset.Subset.refl _)) ?_
      simp [Server.Leaks, Server.ReadCloses, hne, hread, hframe]

end Step

/-- **The table is exact in every state of a run exactly when no event of the run leaks an
entry or a connection.** -/
theorem exact_iff {x₀ x : Tracked} {h : List (Tracked × Event)} (h₀ : x₀.Exact) (hinv : x₀.Inv)
    (run : Run step x₀ h x) :
    (∀ y ∈ Run.states h x, y.Exact) ↔ ∀ y e, (y, e) ∈ h → ¬ y.server.Leaks e := by
  refine run.forall_states_iff (I := fun y => y.Exact ∧ y.Inv) ⟨h₀, hinv⟩ (fun _ hy => hy.1) ?_ ?_
  · rintro y e z ⟨hy, hyinv⟩ he hstep
    obtain ⟨t, ht, rfl⟩ := Option.map_eq_some_iff.mp hstep
    obtain ⟨hpossible, ht⟩ := Server.step_eq_some ht
    exact ⟨(hy.handle_iff hyinv hpossible ht).mpr he, hyinv.after ht⟩
  · rintro y e z ⟨hy, hyinv⟩ he hstep
    obtain ⟨t, ht, rfl⟩ := Option.map_eq_some_iff.mp hstep
    obtain ⟨hpossible, ht⟩ := Server.step_eq_some ht
    exact fun hexact => he ((hy.handle_iff hyinv hpossible ht).mp hexact)

/-! ## A leader with clients, and a follower without its leader -/

private def serving (fd : Socket) : Env := ⟨0, fd, fun _ _ _ => true, true, 8⟩

private def leaderStart : Tracked := ⟨startLeader 0 7 (text "10.0.0.1") 4041 20000 3 4, ∅⟩

/-- Two clients connect, one registers and leaves, and its descriptor is used again. -/
private def clientEvents : List Event :=
  [.accept 5 (some (text "10.0.0.8")), .accept 6 (some (text "10.0.0.9")),
    .readable (serving errorReturn) 5 (padX (text "CLIENT:100:0:GET_INDEX\n\n")),
    .readable (serving errorReturn) 5 [], .accept 5 (some (text "10.0.0.7"))]

private def clientEnd : Tracked := (exec step leaderStart clientEvents).get (by decide +kernel)

theorem exact_iff_clients :
    clientEnd.server.tableSockets = [6, 5] ∧
      ((∀ y ∈ Run.states (trace step leaderStart clientEvents) clientEnd, y.Exact) ↔
        ∀ y e, (y, e) ∈ trace step leaderStart clientEvents → ¬ y.server.Leaks e) := by
  have hstart : leaderStart.Exact := by
    refine ⟨List.nodup_nil, fun fd => ?_⟩
    exact iff_of_false List.not_mem_nil (Finset.notMem_empty fd)
  have hinv : leaderStart.Inv := ⟨by decide, Finset.empty_subset _⟩
  exact ⟨by decide +kernel, exact_iff hstart hinv (Run.of_exec (Option.some_get _).symm)⟩

/-- The connection 5 of the leader is accepted, and its reply names no other server. -/
private def leaderRounds : List Round :=
  [.ready (serving 6) [(3, .connection 5 (some (text "10.0.0.1")))],
    .ready (serving 6) [(5, .data (padX (joinReply 7 (text "0.0.0.0") 48 1)))]]

private def ledServer : Server :=
  (startUp (serving 6) leaderRounds
    (setUp (serving 6) (text "10.0.0.2") 4041 3 4)).toOption.get (by decide +kernel)

private def joinedStart : Tracked := ⟨ledServer, {5}⟩

private def leaderGone : Tracked :=
  (exec step joinedStart [.readable (serving 6) 5 []]).get (by decide +kernel)

/-- The connection of the leader is in the table.  When it ends, its entry stays, and its
descriptor is closed. -/
theorem leader_entry_stays :
    startUp (serving 6) leaderRounds (setUp (serving 6) (text "10.0.0.2") 4041 3 4) =
        .ok ledServer ∧
      joinedStart.Exact ∧ 5 ∈ joinedStart.server.opened ∧
        Run step joinedStart (trace step joinedStart [.readable (serving 6) 5 []]) leaderGone ∧
          leaderGone.server.tableSockets = [5] ∧ 5 ∉ leaderGone.server.opened ∧
            ¬ leaderGone.Exact := by
  have hends : joinedStart.server.tableSockets = [5] ∧ 5 ∈ joinedStart.server.opened ∧
      leaderGone.server.tableSockets = [5] ∧ 5 ∉ leaderGone.server.opened ∧
        5 ∉ leaderGone.accepted := by
    decide +kernel
  obtain ⟨htable, hopen, htable', hclosed, haccepted⟩ := hends
  have hstart : joinedStart.Exact := by
    refine ⟨by rw [htable]; exact List.nodup_singleton 5, fun fd => ?_⟩
    rw [htable, List.mem_singleton]
    exact Finset.mem_singleton.symm
  refine ⟨Except.toOption_eq_some.mp (Option.some_get _).symm, hstart, hopen,
    Run.of_exec (Option.some_get _).symm, htable', hclosed, ?_⟩
  rintro ⟨-, hall⟩
  exact haccepted ((hall 5).mp (by rw [htable']; exact List.mem_singleton_self 5))

end Tracked
end ChatRing
