import ChatRing.Server.Progress

/-!
# The ring that the servers form

When the leader has connected to servers that are alive and they have read what they were told,
their successors form a ring, on which an election can be held.  It can always be completed.

## Main results

* `ring_formed` — the ring, in whatever order the servers announce themselves, read and crash.
* `ring_completes` — how many steps are left at most.
-/

namespace ChatRing
open CText CyclicList Function

namespace Cluster
variable {ι : Type*} {kind : ι → Announcement} {addr : ι → Text} {inbound : ι → Socket}

/-! ## The ring -/

/-- The servers that the leader is connected to. -/
abbrev Member (c : Cluster ι) : Type _ := {i // c.fd i ≠ none}

/-- The ring leads from every server to the one with the next larger ID, and from the largest
ID to the smallest. -/
def Ascends (ring : Equiv.Perm ι) (id : ι → ℤ) : Prop :=
  ∀ i, (id i < id (ring i) ∧ ∀ j, id j ≤ id i ∨ id (ring i) ≤ id j) ∨
    ((∀ j, id j ≤ id i) ∧ ∀ j, id (ring i) ≤ id j)

section Ring
variable {c₀ c : Cluster ι} (hstart : Start kind addr c₀) (h : Inv kind addr inbound c₀ c)

include hstart h

/-- The members in the order of the leader's list are a ring, and each has been told of the next
one last. -/
theorem Inv.exists_ring [Nontrivial c.Member] (halive : ∀ i, c.fd i ≠ none → c.alive i) :
    ∃ ring : Equiv.Perm c.Member, ring.IsCycleOn Set.univ ∧
      Ascends ring (fun i => (c₀.server i).self.id) ∧
        ∀ i : c.Member, IsTold kind inbound c₀ c i (some (c₀.peer addr (ring i))) := by
  classical
  generalize hid : (fun i => (c₀.server i).self.id) = id
  have hinj : Injective id := hid ▸ hstart.id_injective
  obtain ⟨i₀, j₀, hne⟩ := exists_pair_ne c.Member
  obtain ⟨f, hf⟩ : ∃ f : ServerInfo → ι, ∀ i p, Entry addr c₀ c i p → f p = i := by
    have : Nonempty ι := ⟨i₀⟩
    refine ⟨fun p => invFun id p.id, fun i p hp => ?_⟩
    show invFun id p.id = i
    rw [show p.id = id i from hp.peer.id.trans (congrFun hid i)]
    exact leftInverse_invFun hinj i
  have hnodup : (c.leader.next.map f).Nodup := by
    refine List.Nodup.map_on ?_ h.nodup
    intro p hp q hq heq
    obtain ⟨i, hi⟩ := h.entry p hp
    obtain ⟨j, hj⟩ := h.entry q hq
    obtain rfl : i = j := by rw [← hf i p hi, ← hf j q hj, heq]
    exact h.entry_unique hi hj hp hq
  have hmem : ∀ i, i ∈ c.leader.next.map f ↔ c.fd i ≠ none := by
    intro i
    rw [List.mem_map]
    constructor
    · rintro ⟨p, hp, rfl⟩
      obtain ⟨j, hj⟩ := h.entry p hp
      rw [hf j p hj, hj.fd]
      exact Option.some_ne_none _
    · intro hi
      obtain ⟨p, hp, hentry⟩ := h.listed i hi
      exact ⟨p, hp, hf i p hentry⟩
  have hlen : 2 ≤ (c.leader.next.map f).length := by
    have hi := (hmem i₀).mpr i₀.2
    have hj := (hmem j₀).mpr j₀.2
    generalize c.leader.next.map f = l at hi hj ⊢
    rcases l with - | ⟨x, - | ⟨y, l⟩⟩
    · cases hi
    · rw [List.mem_singleton] at hi hj
      exact absurd (Subtype.ext (hi.trans hj.symm)) hne
    · simp
  have hids : Linked (fun p q : ServerInfo => NextUp (c.leader.next.map ServerInfo.id) p.id q.id)
      c.leader.next :=
    Linked.of_map (linked_of_pairwise_lt (List.pairwise_map.mpr h.leader.ascending))
  have hlinked : Linked (fun i j => IsTold kind inbound c₀ c i (some (c₀.peer addr j)) ∧
      NextUp (c.leader.next.map ServerInfo.id) (id i) (id j)) (c.leader.next.map f) := by
    refine (h.linked.and hids).map f ?_
    rintro p q ⟨⟨i, j, hi, hj, htold⟩, hnext⟩
    rw [hf i p hi, hf j q hj]
    rw [hi.peer.id, hj.peer.id] at hnext
    subst hid
    exact ⟨htold (halive i (by simp [hi.fd])) (halive j (by simp [hj.fd])), hnext⟩
  have hring := fun i hi => hlinked.apply_formPerm hnodup hlen ((hmem i).mpr hi)
  have hcycle := hnodup.isCycleOn_formPerm
  rw [show {i | i ∈ c.leader.next.map f} = {i | c.fd i ≠ none} from Set.ext hmem] at hcycle
  refine ⟨(c.leader.next.map f).formPerm.subtypePerm fun i => hcycle.apply_mem_iff,
    hcycle.subtypePerm, fun i => ?_, fun i => (hring i.1 i.2).1⟩
  subst hid
  have hid_mem : ∀ j : c.Member, (c₀.server j).self.id ∈ c.leader.next.map ServerInfo.id := by
    intro j
    obtain ⟨p, hp, hj⟩ := h.listed j.1 j.2
    exact List.mem_map.mpr ⟨p, hp, hj.peer.id⟩
  exact (hring i.1 i.2).2.imp (fun hlt => ⟨hlt.1, fun j => hlt.2 _ (hid_mem j)⟩)
    fun hwrap => ⟨fun j => hwrap.1 _ (hid_mem j), fun j => hwrap.2 _ (hid_mem j)⟩

/-- **When everything is read, the servers know their leader and their successors.** -/
theorem Inv.formed [Nontrivial c.Member] (hrest : c.AtRest) :
    ∃ ring : Equiv.Perm c.Member, ring.IsCycleOn Set.univ ∧
      Ascends ring (fun i => (c.server i).self.id) ∧
      Intact ring (fun i => (c.server i).successorSocket) ⟨fun i => c.server i, fun _ => []⟩ ∧
      ∀ i : c.Member, (c.server i).ltcpSocket = inbound i ∧ ∃ leader rest,
        (c.server i).next = leader :: rest ∧ leader.id = c.leader.self.id := by
  obtain ⟨ring, hcycle, hascends, htold⟩ := h.exists_ring hstart hrest.alive
  have hid : (fun i : c.Member => (c.server i).self.id) = fun i : c.Member =>
      (c₀.server i).self.id := funext fun i => (h.server i).id
  have hguided : ∀ i : c.Member, Guided (c.server i) (inbound i) c₀.leader.self.id
      (some (c₀.peer addr (ring i))) := by
    intro i
    have hi := htold i
    rw [IsTold, hrest.link] at hi
    exact hi.done
  have hlist : ∀ i : c.Member, ∃ leader successor, (c.server i).next = [leader, successor] ∧
      leader.id = c.leader.self.id ∧ successor.id = (c.server (ring i)).self.id ∧
        successor.tcpSocket = (c.server i).successorSocket ∧
          IsValidSocket (c.server i).successorSocket := by
    intro i
    have hnext := (hguided i).next
    generalize (c.server i).next = l at hnext
    cases hnext with
    | ring hleader hsuccessor hne hsocket hvalid =>
        exact ⟨_, _, rfl, hleader.trans h.self.id.symm,
          hsuccessor.id.trans (h.server (ring i)).id.symm, hsocket, hvalid⟩
  refine ⟨ring, hcycle, hid ▸ hascends, ?_, ?_⟩
  · constructor
    · show Injective fun i : c.Member => (c.server i).self.id
      exact hid ▸ hstart.id_injective.comp Subtype.val_injective
    · intro i
      show IsId (c.server i).self.id
      rw [(h.server i).id]
      exact hstart.id i
    · exact fun i => (hguided i).leader
    · exact fun i => (hguided i).participant
    · intro i
      obtain ⟨leader, successor, hnext, -, hsuccessor, hsocket, -⟩ := hlist i
      exact ⟨leader, successor, hnext, hsuccessor, hsocket⟩
    · intro i
      obtain ⟨-, -, -, -, -, -, hvalid⟩ := hlist i
      exact hvalid
    · exact fun i => rfl
  · intro i
    obtain ⟨leader, successor, hnext, hleader, -⟩ := hlist i
    exact ⟨(hguided i).ltcp, leader, [successor], hnext, hleader⟩

end Ring

end Cluster

section Runs
variable {ι : Type*} [DecidableEq ι] [Fintype ι] {kind : ι → Announcement} {addr : ι → Text}
  {inbound : ι → Socket} {c₀ c : Cluster ι}

/-- **The ring forms.**  In whatever order servers announce themselves, read what they are told
and crash: what the protocol does never fails, and at rest the servers that the leader is
connected to know it, and their successors form one ring in the order of their IDs.  It is a ring
on which an election can be held. -/
theorem ring_formed (hstart : Cluster.Start kind addr c₀)
    {h : List (Cluster ι × ClusterAction ι)}
    (run : Run (Cluster.step kind addr inbound) c₀ h c) :
    (∀ a, c.Enabled inbound a → (∀ e, a ≠ .leads e) → (∀ i e, a ≠ .follows i e) →
      (Cluster.step kind addr inbound c a).isSome) ∧
    (c.AtRest → Nontrivial c.Member →
      ∃ ring : Equiv.Perm c.Member, ring.IsCycleOn Set.univ ∧
        Cluster.Ascends ring (fun i => (c.server i).self.id) ∧
        Intact ring (fun i => (c.server i).successorSocket) ⟨fun i => c.server i, fun _ => []⟩ ∧
        ∀ i : c.Member, (c.server i).ltcpSocket = inbound i ∧ ∃ leader rest,
          (c.server i).next = leader :: rest ∧ leader.id = c.leader.self.id) := by
  have hinv := Cluster.inv_of_run hstart run
  exact ⟨fun a ha hleads hfollows => hinv.isSome_step hstart ha hleads hfollows,
    fun hrest _ => hinv.formed hstart hrest⟩

/-- **The ring can always be completed.**  Whatever has happened so far, the living servers are in
one ring after a bounded number of steps: a heartbeat of each, a sweep that removes the crashed
ones, the announcements, and reading what all this leads to. -/
theorem ring_completes (hstart : Cluster.Start kind addr c₀)
    (hinbound : ∀ i, IsValidSocket (inbound i) ∧ inbound i ≠ (c₀.server i).self.tcpSocket)
    {h : List (Cluster ι × ClusterAction ι)}
    (run : Run (Cluster.step kind addr inbound) c₀ h c) :
    ∃ h' d, Run (Cluster.step kind addr inbound) c h' d ∧ h'.length ≤ 4 * Fintype.card ι + 1 ∧
      d.AtRest ∧ (∀ i, d.fd i ≠ none ↔ c.alive i) ∧
        (Nontrivial d.Member → ∃ ring : Equiv.Perm d.Member, ring.IsCycleOn Set.univ ∧
          Cluster.Ascends ring (fun i => (d.server i).self.id) ∧
          Intact ring (fun i => (d.server i).successorSocket)
            ⟨fun i => d.server i, fun _ => []⟩) := by
  obtain ⟨h', d, run', hlen, halive, hrest, hall, hinv⟩ :=
    Cluster.exists_completion hstart hinbound run
  refine ⟨h', d, run', hlen, hrest, fun i => ?_, fun _ => ?_⟩
  · rw [← halive]
    exact ⟨hrest.alive i, hall i⟩
  · obtain ⟨ring, hcycle, hascends, hintact, -⟩ := hinv.formed hstart hrest
    exact ⟨ring, hcycle, hascends, hintact⟩

end Runs

/-! ## Three servers -/

private inductive Entrant
  | twenty | seven | twelve
  deriving DecidableEq

private instance : Fintype Entrant where
  elems := {.twenty, .seven, .twelve}
  complete := by
    intro i
    cases i <;> decide

private instance : Nontrivial Entrant := ⟨.twenty, .seven, by decide⟩

private def joiningId : Entrant → ℤ
  | .twenty => 20
  | .seven => 7
  | .twelve => 12

/-- Servers 20 and 12 have just started, and server 7 lost an election. -/
private def joiningKind : Entrant → Announcement
  | .seven => .whoIsLeader
  | _ => .discovery

private def joiningAddr (_ : Entrant) : Text := text "10.0.0.2"

/-- The leader has the ID 5. -/
private def joining : Cluster Entrant where
  leader := startLeader 0 5 (text "10.0.0.1") 4041 20000 3 4
  server i := { startLeader 0 (joiningId i) (text "127.0.0.1") 4041 20000 3 4 with
    self := createServer 0 (joiningId i) (text "127.0.0.1") 4041
      (match joiningKind i with | .discovery => 1 | .whoIsLeader => 0) 3 }
  alive _ := true
  fd _ := none
  link _ := []

/-- The leader connects on descriptor 7, and its reply is read at once. -/
private def promptly : Schedule :=
  ⟨[.ready (Cluster.reliable 8) [(3, .connection 7 (some (text "10.0.0.1")))]],
    Cluster.reliable 8, [], [], []⟩

private def joiningActions : List (ClusterAction Entrant) :=
  [.announce .twenty (Cluster.reliable 10), .announce .seven (Cluster.reliable 11),
    .join .twenty (Cluster.reliable 8) promptly,
    .leads (.readable (Cluster.reliable 9) 10 (padZero (heartbeat 20))),
    .read .twenty (Cluster.reliable 8), .announce .twelve (Cluster.reliable 12),
    .follows .twenty (.accept 9 none), .join .twelve (Cluster.reliable 8) promptly,
    .read .seven (Cluster.reliable 8), .read .seven (Cluster.reliable 9)]

/-- Server 12 crashes; server 7, which it followed, is told of 20. -/
private def leavingActions : List (ClusterAction Entrant) :=
  [.crash .twelve, .hangUp .seven (Cluster.reliable 0),
    .leads (.readable (Cluster.clock 12) 10 (padZero (heartbeat 20))),
    .leads (.readable (Cluster.clock 12) 11 (padZero (heartbeat 7))),
    .sweep (Cluster.clock 12), .read .seven (Cluster.reliable 10)]

private def joiningStep := Cluster.step joiningKind joiningAddr fun _ : Entrant => 7

private def afterCrash : Cluster Entrant :=
  (exec joiningStep joining (joiningActions ++ leavingActions)).get (by decide +kernel)

private theorem isAddress_joining : IsAddress (text "10.0.0.1") ∧ IsAddress (text "10.0.0.2") :=
  ⟨⟨⟨by decide, by decide, by decide, by decide⟩, by decide⟩,
    ⟨by decide, by decide, by decide, by decide⟩, by decide⟩

private theorem start_joining : Cluster.Start joiningKind joiningAddr joining where
  leader := ⟨⟨rfl, by decide⟩, by simp [joining, startLeader], by decide, isAddress_joining.1,
    by decide, by simp [joining, startLeader]⟩
  next := rfl
  asks := fun i => ⟨rfl, rfl, rfl⟩
  id := by decide
  id_injective := by decide
  id_ne := by decide
  member := fun i => ⟨by revert i; decide, isAddress_joining.2, by show text "10.0.0.2" ≠ _; decide,
    by revert i; decide, by revert i; decide⟩
  length := by decide
  fd := by decide
  link := by decide

/-- The servers 7 and 20 remain. -/
theorem ring_formed_three :
    ((afterCrash.server .twenty).next.map ServerInfo.id = [5, 7] ∧
      (afterCrash.server .seven).next.map ServerInfo.id = [5, 20] ∧
        afterCrash.leader.next.map ServerInfo.id = [7, 20]) ∧
      ∃ ring : Equiv.Perm afterCrash.Member, ring.IsCycleOn Set.univ ∧
        Intact ring (fun i => (afterCrash.server i).successorSocket)
          ⟨fun i => afterCrash.server i, fun _ => []⟩ := by
  have run : Run joiningStep joining
      (trace joiningStep joining (joiningActions ++ leavingActions)) afterCrash :=
    Run.of_exec (Option.some_get _).symm
  have hrest : afterCrash.AtRest := ⟨by decide +kernel, by decide +kernel⟩
  have hmembers : Nontrivial afterCrash.Member :=
    ⟨⟨.twenty, by decide +kernel⟩, ⟨.seven, by decide +kernel⟩, by simp⟩
  obtain ⟨-, hformed⟩ := ring_formed start_joining run
  obtain ⟨ring, hcycle, -, hintact, -⟩ := hformed hrest hmembers
  exact ⟨by decide +kernel, ring, hcycle, hintact⟩

/-- Only server 20 has joined. -/
private def halfJoined : Cluster Entrant :=
  (exec joiningStep joining (joiningActions.take 3)).get (by decide +kernel)

theorem ring_completes_three :
    ∃ h' d, Run joiningStep halfJoined h' d ∧ h'.length ≤ 13 ∧ ∀ i, d.link i = [] := by
  have run : Run joiningStep joining (trace joiningStep joining (joiningActions.take 3))
      halfJoined := Run.of_exec (Option.some_get _).symm
  obtain ⟨h', d, run', hlen, hrest, -⟩ := ring_completes start_joining
    (fun i => ⟨by decide, by revert i; decide⟩) run
  exact ⟨h', d, run', hlen, hrest.link⟩

end ChatRing
