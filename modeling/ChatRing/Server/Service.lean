import Mathlib.Data.Fintype.Lattice
import ChatRing.Server.Recovery

/-!
# The service while leaders come and go

A history of the service is a sequence of eras.  In each of them one leader admits servers and
removes those that crash; when the leader itself crashes, the servers of its ring elect the next
one, and those that have lost ask for it together with newcomers.

## Main results

* `Era.start` — every era starts alike.
* `service_ring` — in every era the servers form a ring, and it elects one leader.
-/

namespace ChatRing
open CText RingElection Function

/-- The servers of the ring, when the leader of the cluster has crashed. -/
def Cluster.bereaved {ι : Type*} (c : Cluster ι) : Network c.Member where
  server i := c.server i
  link _ := []

/-- The clusters with which the eras of a history start. -/
inductive Era : (ι : Type) → [DecidableEq ι] → [Fintype ι] → (ι → Announcement) → (ι → Text) →
    Cluster ι → Prop
  | first {ι : Type} [DecidableEq ι] [Fintype ι] {kind : ι → Announcement} {addr : ι → Text}
      {c : Cluster ι} (hstart : Cluster.Start kind addr c)
      (hself : ∀ i, IsAddress (c.server i).self.addr) : Era ι kind addr c
  | next {ι κ : Type} [DecidableEq ι] [Fintype ι] [DecidableEq κ] [Fintype κ]
      {kind : ι → Announcement} {addr : ι → Text} {inbound : ι → Socket} {c₀ c : Cluster ι}
      {h : List (Cluster ι × ClusterAction ι)} (hera : Era ι kind addr c₀)
      (run : Run (Cluster.step kind addr inbound) c₀ h c) (hrest : c.AtRest)
      (hmembers : Nontrivial c.Member) {ring : Equiv.Perm c.Member} {incoming : c.Member → Socket}
      (hintact : Intact ring (fun i => (c.server i).successorSocket) c.bereaved)
      {r : CrashRing c.Member} {h' : List (CrashRing c.Member × CrashAction c.Member)}
      (run' : Run (CrashRing.step ring (fun i => (c.server i).successorSocket) incoming)
        c.bereaved.whole h' r)
      (hpeace : ∀ z ∈ h', z.2.Peaceful) (hstarted : ∃ z ∈ h', z.1.TimesOut z.2) (hcalm : r.Calm)
      {top : c.Member} (hleader : (r.server top).self.leader = 1)
      {kind' : κ → Announcement} {addr' : κ → Text} {d : Cluster κ}
      (hsucceeds : Succeeds (fun i : c.Member => addr i) r.toNetwork top kind' addr' d) :
      Era κ kind' addr' d

section Service
variable {ι : Type} [DecidableEq ι] [Fintype ι] {kind : ι → Announcement} {addr : ι → Text}
  {inbound : ι → Socket} {c₀ c : Cluster ι} {h : List (Cluster ι × ClusterAction ι)}

omit [DecidableEq ι] [Fintype ι] in
/-- The successors determine the ring. -/
theorem Intact.ring_unique {ring ring' : Equiv.Perm ι} {socket socket' : ι → Socket}
    {x : Network ι} (hintact : Intact ring socket x) (hintact' : Intact ring' socket' x) :
    ring = ring' := by
  ext i
  obtain ⟨leader, successor, hnext, hid, -⟩ := hintact.next i
  obtain ⟨leader', successor', hnext', hid', -⟩ := hintact'.next i
  rw [hnext] at hnext'
  obtain ⟨-, hnext'⟩ := List.cons.inj hnext'
  obtain ⟨rfl, -⟩ := List.cons.inj hnext'
  exact hintact.id_injective (hid.symm.trans hid')

omit [DecidableEq ι] [Fintype ι] in
theorem Cluster.Inv.reachable (hstart : Cluster.Start kind addr c₀)
    (hself : ∀ i, IsAddress (c₀.server i).self.addr)
    (hinv : Cluster.Inv kind addr inbound c₀ c) :
    Reachable (fun i : c.Member => addr i) c.bereaved where
  address := fun i => (hstart.member i).addr
  length := fun i => hstart.length i
  self := by
    intro i
    show IsAddress (c.server i).self.addr
    rw [(hinv.server i).addr]
    exact hself i
  port := by
    intro i
    show 1 ≤ (c.server i).self.port ∧ (c.server i).self.port ≤ 65535
    rw [(hinv.server i).port]
    exact ⟨(hstart.member i).port_pos, (hstart.member i).port_le⟩

omit [DecidableEq ι] [Fintype ι] in
theorem Elected.leads_iff {x₀ x : Network ι} {top i : ι} (helected : Elected x₀ x top) :
    (x.server i).self.leader = 1 ↔ i = top := by
  constructor
  · intro hi
    by_contra hne
    have hzero := helected.follower i hne
    omega
  · rintro rfl
    exact helected.leader

/-- **An election in the ring of a cluster** is won by one server. -/
theorem exists_elected [Nontrivial c.Member] (hstart : Cluster.Start kind addr c₀)
    (run : Run (Cluster.step kind addr inbound) c₀ h c) (hrest : c.AtRest)
    {ring : Equiv.Perm c.Member} {incoming : c.Member → Socket}
    (hintact : Intact ring (fun i => (c.server i).successorSocket) c.bereaved)
    {r : CrashRing c.Member} {h' : List (CrashRing c.Member × CrashAction c.Member)}
    (run' : Run (CrashRing.step ring (fun i => (c.server i).successorSocket) incoming)
      c.bereaved.whole h' r)
    (hpeace : ∀ z ∈ h', z.2.Peaceful) (hstarted : ∃ z ∈ h', z.1.TimesOut z.2) (hcalm : r.Calm) :
    ∃ top : c.Member, (∀ i : c.Member, (c.server i).self.id ≤ (c.server top).self.id) ∧
      Elected c.bereaved r.toNetwork top := by
  obtain ⟨ring', hcycle, -, hintact', -⟩ := (Cluster.inv_of_run hstart run).formed hstart hrest
  rw [← hintact.ring_unique hintact'] at hcycle
  obtain ⟨top, htop⟩ := Finite.exists_max fun i : c.Member => (c.server i).self.id
  exact ⟨top, htop, elected_of_run hintact hcycle htop run' hpeace hstarted hcalm⟩

/-- **Every era starts alike.** -/
theorem Era.start (hera : Era ι kind addr c) :
    Cluster.Start kind addr c ∧ ∀ i, IsAddress (c.server i).self.addr := by
  induction hera with
  | first hstart hself => exact ⟨hstart, hself⟩
  | next _ run hrest hmembers hintact run' hpeace hstarted hcalm hleader hsucceeds ih =>
      obtain ⟨hstart, hself⟩ := ih
      obtain ⟨top, -, helected⟩ :=
        exists_elected hstart run hrest hintact run' hpeace hstarted hcalm
      obtain rfl := helected.leads_iff.mp hleader
      exact start_of_succeeds hintact ((Cluster.inv_of_run hstart run).reachable hstart hself)
        helected hsucceeds

/-- **The service.**  Through any history of joins, crashes of followers and crashes of leaders:
at rest the servers that the leader is connected to form one ring in the order of their IDs, with
the leader at the head of every list.  When it crashes, every election on that ring that has come
to rest has one winner, the server with the largest ID, and all others have asked for it. -/
theorem service_ring (hera : Era ι kind addr c₀)
    (run : Run (Cluster.step kind addr inbound) c₀ h c) (hrest : c.AtRest)
    [Nontrivial c.Member] :
    ∃ ring : Equiv.Perm c.Member, ring.IsCycleOn Set.univ ∧
      Cluster.Ascends ring (fun i => (c.server i).self.id) ∧
      Intact ring (fun i => (c.server i).successorSocket) c.bereaved ∧
      (∀ i : c.Member, ∃ leader rest,
        (c.server i).next = leader :: rest ∧ leader.id = c.leader.self.id) ∧
      ∀ (incoming : c.Member → Socket) (r : CrashRing c.Member)
        (h' : List (CrashRing c.Member × CrashAction c.Member)),
        Run (CrashRing.step ring (fun i => (c.server i).successorSocket) incoming)
          c.bereaved.whole h' r →
        (∀ z ∈ h', z.2.Peaceful) → (∃ z ∈ h', z.1.TimesOut z.2) → r.Calm →
        ∃ top, (∀ i, (r.server i).self.leader = 1 ↔ i = top) ∧
          (∀ i : c.Member, (c.server i).self.id ≤ (c.server top).self.id) ∧
          ∀ i ≠ top,
            Announcement.whoIsLeader.request (r.server i) ∈ multicasts (r.server i).out := by
  obtain ⟨hstart, hself⟩ := hera.start
  have hinv := Cluster.inv_of_run hstart run
  obtain ⟨ring, hcycle, hascends, hintact, hleader⟩ := hinv.formed hstart hrest
  refine ⟨ring, hcycle, hascends, hintact, fun i => (hleader i).2, ?_⟩
  intro incoming r h' run' hpeace hstarted hcalm
  obtain ⟨top, htop, helected⟩ :=
    exists_elected hstart run hrest hintact run' hpeace hstarted hcalm
  exact ⟨top, fun i => helected.leads_iff, htop, fun i hi =>
    (newcomer_of_elected hintact (hinv.reachable hstart hself) helected hi).2⟩

end Service

/-! ## Two eras -/

/-- A server that starts with the ID `id`. -/
private def starting (id : ℤ) : Server :=
  startLeader 0 id (text "127.0.0.1") 4041 20000 3 4

private def replyAtOnce (fd : Socket) : Schedule :=
  ⟨[.ready (Cluster.reliable fd) [(3, .connection 7 (some (text "10.0.0.1")))]],
    Cluster.reliable fd, [], [], []⟩

private inductive Starter
  | twenty | seven
  deriving DecidableEq

private instance : Fintype Starter where
  elems := {.twenty, .seven}
  complete := by
    intro i
    cases i <;> decide

/-- The first leader has the ID 5. -/
private def firstCluster : Cluster Starter where
  leader := startLeader 0 5 (text "10.0.0.1") 4041 20000 3 4
  server
    | .twenty => starting 20
    | .seven => starting 7
  alive _ := true
  fd _ := none
  link _ := []

private def starterStep :=
  Cluster.step (fun _ : Starter => .discovery) (fun _ => text "10.0.0.2") fun _ => 7

private def firstActions : List (ClusterAction Starter) :=
  [.announce .twenty (Cluster.reliable 10), .announce .seven (Cluster.reliable 11),
    .join .twenty (Cluster.reliable 8) (replyAtOnce 8), .read .twenty (Cluster.reliable 8),
    .join .seven (Cluster.reliable 8) (replyAtOnce 8)]

private def firstEnd : Cluster Starter :=
  (exec starterStep firstCluster firstActions).get (by decide +kernel)

private def winner : firstEnd.Member := ⟨.twenty, by decide +kernel⟩

private def loser : firstEnd.Member := ⟨.seven, by decide +kernel⟩

private def swapRing : Equiv.Perm firstEnd.Member := Equiv.swap winner loser

private def electionStep := CrashRing.step swapRing
  (fun i => (firstEnd.server i).successorSocket) fun _ => 7

/-- Server 7 starts, and 20 wins. -/
private def electionActions : List (CrashAction firstEnd.Member) :=
  .timer loser afterTimeout.1 ::
    [loser, loser, winner, loser, winner, loser].map fun i => .deliver i afterTimeout.1

private def electionEnd : CrashRing firstEnd.Member :=
  (exec electionStep firstEnd.bereaved.whole electionActions).get (by decide +kernel)

private inductive Heir
  | seven | thirty
  deriving DecidableEq

private instance : Fintype Heir where
  elems := {.seven, .thirty}
  complete := by
    intro i
    cases i <;> decide

private def heirKind : Heir → Announcement
  | .seven => .whoIsLeader
  | .thirty => .discovery

/-- Server 7 has lost, and server 30 has just started. -/
private def secondCluster : Cluster Heir where
  leader := electionEnd.server winner
  server
    | .seven => electionEnd.server loser
    | .thirty => starting 30
  alive _ := true
  fd _ := none
  link _ := []

private def heirStep := Cluster.step heirKind (fun _ => text "10.0.0.2") fun _ => 7

private def secondActions : List (ClusterAction Heir) :=
  [.announce .seven (Cluster.reliable 20), .announce .thirty (Cluster.reliable 21),
    .read .seven (Cluster.reliable 8), .join .thirty (Cluster.reliable 8) (replyAtOnce 8),
    .read .seven (Cluster.reliable 8)]

private def secondEnd : Cluster Heir :=
  (exec heirStep secondCluster secondActions).get (by decide +kernel)

private theorem isAddress_local : IsAddress (text "127.0.0.1") ∧ IsAddress (text "10.0.0.2") :=
  ⟨⟨⟨by decide, by decide, by decide, by decide⟩, by decide⟩,
    ⟨by decide, by decide, by decide, by decide⟩, by decide⟩

private theorem newcomer_starting {id : ℤ} (hid : IsId id) :
    Newcomer .discovery (text "10.0.0.2") (starting id) where
  asks := ⟨rfl, rfl, rfl⟩
  id := hid
  member := ⟨hid.isInt, isAddress_local.2, by show text "10.0.0.2" ≠ _; decide,
    show (1 : ℤ) ≤ 4041 by decide, show (4041 : ℤ) ≤ 65535 by decide⟩
  length := by decide
  self := isAddress_local.1

private theorem era_first :
    Era Starter (fun _ => .discovery) (fun _ => text "10.0.0.2") firstCluster := by
  have hnew : ∀ i, Newcomer .discovery (text "10.0.0.2") (firstCluster.server i) := by
    intro i
    cases i with
    | twenty => exact newcomer_starting (by decide)
    | seven => exact newcomer_starting (by decide)
  have hleader : LeaderList firstCluster.leader :=
    ⟨⟨rfl, by decide⟩, by simp [firstCluster, startLeader], by decide,
      ⟨⟨by decide, by decide, by decide, by decide⟩, by decide⟩, by decide,
      by simp [firstCluster, startLeader]⟩
  exact .first ⟨hleader, rfl, fun i => (hnew i).asks, fun i => (hnew i).id, by decide, by decide,
    fun i => (hnew i).member, fun i => (hnew i).length, by decide, by decide⟩
    fun i => (hnew i).self

private theorem firstEnd_intact :
    Intact swapRing (fun i => (firstEnd.server i).successorSocket) firstEnd.bereaved := by
  refine ⟨by decide +kernel, by decide +kernel, by decide +kernel, by decide +kernel, fun i => ?_,
    by decide +kernel, fun i => rfl⟩
  have hnext : ∀ i : firstEnd.Member,
      ((firstEnd.server i).next.map fun p => (p.id, p.tcpSocket)) =
        [(5, 7),
          ((firstEnd.server (swapRing i)).self.id, (firstEnd.server i).successorSocket)] := by
    decide +kernel
  obtain ⟨leader, rest, hl, -, hrest⟩ := List.map_eq_cons_iff.mp (hnext i)
  obtain ⟨successor, others, rfl, hsuccessor, hnil⟩ := List.map_eq_cons_iff.mp hrest
  obtain rfl := List.map_eq_nil_iff.mp hnil
  exact ⟨leader, successor, hl, (Prod.mk.inj hsuccessor).1, (Prod.mk.inj hsuccessor).2⟩

private theorem era_second : Era Heir heirKind (fun _ => text "10.0.0.2") secondCluster := by
  have run : Run starterStep firstCluster (trace starterStep firstCluster firstActions) firstEnd :=
    Run.of_exec (Option.some_get _).symm
  have run' : Run electionStep firstEnd.bereaved.whole
      (trace electionStep firstEnd.bereaved.whole electionActions) electionEnd :=
    Run.of_exec (Option.some_get _).symm
  have hpeace : ∀ a ∈ electionActions, a.Peaceful :=
    List.forall_mem_cons.mpr ⟨trivial, List.forall_mem_map.mpr fun _ _ => trivial⟩
  have hstarted : ∃ z ∈ trace electionStep firstEnd.bereaved.whole electionActions,
      z.1.TimesOut z.2 :=
    ⟨(firstEnd.bereaved.whole, .timer loser afterTimeout.1), head_mem_trace (by decide +kernel) _,
      by decide +kernel⟩
  have hmembers : Nontrivial firstEnd.Member := ⟨winner, loser, by simp [winner, loser]⟩
  have hleader : (electionEnd.server winner).self.leader = 1 := by decide +kernel
  refine era_first.next run ⟨by decide +kernel, by decide +kernel⟩ hmembers firstEnd_intact run'
    (fun z hz => hpeace z.2 (mem_of_mem_trace hz)) hstarted (by decide +kernel) hleader ?_
  refine ⟨rfl, fun i => ?_, by decide +kernel, by decide +kernel, by decide, by decide⟩
  cases i with
  | seven => exact Or.inl ⟨loser, by simp [winner, loser], rfl, rfl, rfl⟩
  | thirty => exact Or.inr (newcomer_starting (by decide))

/-- In the second era the servers 7 and 30 are in the ring of the new leader 20. -/
theorem service_ring_two :
    ((secondEnd.server .seven).next.map ServerInfo.id = [20, 30] ∧
      (secondEnd.server .thirty).next.map ServerInfo.id = [20, 7]) ∧
      ∃ ring : Equiv.Perm secondEnd.Member, ring.IsCycleOn Set.univ ∧
        Intact ring (fun i => (secondEnd.server i).successorSocket) secondEnd.bereaved := by
  have run : Run heirStep secondCluster (trace heirStep secondCluster secondActions) secondEnd :=
    Run.of_exec (Option.some_get _).symm
  have : Nontrivial secondEnd.Member :=
    ⟨⟨.seven, by decide +kernel⟩, ⟨.thirty, by decide +kernel⟩, by simp⟩
  obtain ⟨ring, hcycle, -, hintact, -⟩ :=
    service_ring era_second run ⟨by decide +kernel, by decide +kernel⟩
  exact ⟨by decide +kernel, ring, hcycle, hintact⟩

end ChatRing
