import ChatRing.Server.ElectionCost
import ChatRing.Server.Formation

/-!
# The ring after a leader has crashed

The servers of an intact ring elect the one with the largest ID.  The others have asked who the
leader is; it connects to them, they read what they are told, and they are a ring again.

## Main results

* `ring_recovers` — the new ring, in whatever order everything happens.
* `recovery_completes` — how many steps lead to it.
-/

namespace ChatRing
open CText RingElection Function

section Recovery
variable {ι : Type*} {ring : Equiv.Perm ι} {socket inbound : ι → Socket} {addr : ι → Text}
  {top : ι} {x₀ x : Network ι}

/-- The servers can be connected to, and name themselves by an address. -/
structure Reachable (addr : ι → Text) (x : Network ι) : Prop where
  address : ∀ i, IsAddress (addr i)
  length : ∀ i, 8 ≤ (addr i).length
  self : ∀ i, IsAddress (x.server i).self.addr
  port : ∀ i, 1 ≤ (x.server i).self.port ∧ (x.server i).self.port ≤ 65535

/-- The new leader, and the servers that ask for it. -/
def remaining (x : Network ι) (top : ι) : Cluster {i // i ≠ top} where
  leader := x.server top
  server i := x.server i
  alive _ := true
  fd _ := none
  link _ := []

/-- Every server other than the leader has lost an election. -/
abbrev lost : {i // i ≠ top} → Announcement := fun _ => .whoIsLeader

/-- A server that the new leader has not heard of yet. -/
structure Newcomer (kind : Announcement) (addr : Text) (f : Server) : Prop where
  asks : Asks kind f
  id : IsId f.self.id
  member : IsMember { f.self with addr := addr }
  length : 8 ≤ addr.length
  self : IsAddress f.self.addr

/-- The cluster of the new leader: the servers that have lost the election, and newcomers. -/
structure Succeeds {κ : Type*} (addr : ι → Text) (x : Network ι) (top : ι)
    (kind' : κ → Announcement) (addr' : κ → Text) (c : Cluster κ) : Prop where
  leader : c.leader = x.server top
  server : ∀ i, (∃ j ≠ top, kind' i = .whoIsLeader ∧ addr' i = addr j ∧
    c.server i = x.server j) ∨ Newcomer (kind' i) (addr' i) (c.server i)
  id_injective : Injective fun i => (c.server i).self.id
  id_ne : ∀ i, (c.server i).self.id ≠ c.leader.self.id
  fd : ∀ i, c.fd i = none
  link : ∀ i, c.link i = []

section Elected
variable (hintact : Intact ring socket x₀) (haddr : Reachable addr x₀)
  (helected : Elected x₀ x top)

theorem Elected.samePeer (helected : Elected x₀ x top) (i : ι) :
    SamePeer (x.server i).self (x₀.server i).self := by
  obtain ⟨leader, hself⟩ := helected.self i
  rw [hself]
  exact ⟨rfl, rfl, rfl⟩

include hintact haddr helected

/-- **The winner is ready to lead.** -/
theorem leaderList_of_elected : LeaderList (x.server top) := by
  have hnext := helected.next top
  have hself := helected.samePeer top
  refine ⟨leading_of_start helected.leader hnext, by simp [hnext], ?_, ?_, ?_, by simp [hnext]⟩
  · rw [hself.id]
    exact (hintact.id top).isInt
  · rw [hself.addr]
    exact haddr.self top
  · rw [hself.port]
    have hport := haddr.port top
    constructor <;> omega

/-- **The losers are ready to follow it**, and have said so. -/
theorem newcomer_of_elected {i : ι} (hi : i ≠ top) :
    Newcomer .whoIsLeader (addr i) (x.server i) ∧
      Announcement.whoIsLeader.request (x.server i) ∈ multicasts (x.server i).out := by
  have hself := helected.samePeer i
  have hid : IsId (x.server i).self.id := by
    rw [hself.id]
    exact hintact.id i
  have hport : 1 ≤ (x.server i).self.port ∧ (x.server i).self.port ≤ 65535 := by
    rw [hself.port]
    exact haddr.port i
  constructor
  · refine ⟨⟨helected.next i, helected.participant i, helected.follower i hi⟩, hid, ?_,
      haddr.length i, ?_⟩
    · refine ⟨hid.isInt, haddr.address i, ?_, hport.1, hport.2⟩
      intro heq
      have hlen := haddr.length i
      rw [show addr i = text "0.0.0.0" from heq] at hlen
      exact absurd hlen (by decide)
    · rw [hself.addr]
      exact haddr.self i
  · rw [helected.asked i hi, Announcement.request, hself.id, hself.port]
    simp

/-- **After an election a new cluster starts.** -/
theorem start_of_succeeds {κ : Type*} {kind' : κ → Announcement} {addr' : κ → Text}
    {d : Cluster κ} (hd : Succeeds addr x top kind' addr' d) :
    Cluster.Start kind' addr' d ∧ ∀ i, IsAddress (d.server i).self.addr := by
  have hnew : ∀ i, Newcomer (kind' i) (addr' i) (d.server i) := by
    intro i
    rcases hd.server i with ⟨j, hj, hkind, haddr', hserver⟩ | hnew
    · rw [hkind, haddr', hserver]
      exact (newcomer_of_elected hintact haddr helected hj).1
    · exact hnew
  have hleader := leaderList_of_elected hintact haddr helected
  have hnext := helected.next top
  rw [← hd.leader] at hleader hnext
  exact ⟨⟨hleader, hnext, fun i => (hnew i).asks, fun i => (hnew i).id, hd.id_injective, hd.id_ne,
    fun i => (hnew i).member, fun i => (hnew i).length, hd.fd, hd.link⟩, fun i => (hnew i).self⟩

omit haddr in
theorem succeeds_remaining :
    Succeeds addr x top lost (fun i => addr i.1) (remaining x top) := by
  have hinj : ∀ {i j}, (x.server i).self.id = (x.server j).self.id → i = j := by
    intro i j heq
    rw [(helected.samePeer i).id, (helected.samePeer j).id] at heq
    exact hintact.id_injective heq
  exact ⟨rfl, fun i => Or.inl ⟨i.1, i.2, rfl, rfl, rfl⟩, fun i j heq => Subtype.ext (hinj heq),
    fun i heq => i.2 (hinj heq), fun i => rfl, fun i => rfl⟩

end Elected

variable [DecidableEq ι] [Fintype ι] [Nontrivial ι] (hintact : Intact ring socket x₀)
  (hring : ring.IsCycleOn Set.univ)
  (htop : ∀ i, (x₀.server i).self.id ≤ (x₀.server top).self.id) (haddr : Reachable addr x₀)
  {h : List (CrashRing ι × CrashAction ι)} {r : CrashRing ι}

include hintact hring htop haddr

/-- **The ring recovers from the loss of its leader.**  A timer has found the leader overdue and
the frames of the election are gone: then every server but the new leader has asked for it, and in
whatever order it connects to them, they read what they are told, and some crash, the others end
up in a ring around it, in the order of their IDs, on which the next election can be held. -/
theorem ring_recovers (run : Run (CrashRing.step ring socket inbound) x₀.whole h r)
    (hpeace : ∀ z ∈ h, z.2.Peaceful) (hstarted : ∃ z ∈ h, z.1.TimesOut z.2) (hcalm : r.Calm)
    {incoming : {i // i ≠ top} → Socket} {c : Cluster {i // i ≠ top}}
    {h' : List (Cluster {i // i ≠ top} × ClusterAction {i // i ≠ top})}
    (run' : Run (Cluster.step lost (fun i => addr i.1) incoming) (remaining r.toNetwork top) h' c)
    (hrest : c.AtRest) [Nontrivial c.Member] :
    (∀ i ≠ top, Announcement.whoIsLeader.request (r.server i) ∈ multicasts (r.server i).out) ∧
      ∃ ring' : Equiv.Perm c.Member, ring'.IsCycleOn Set.univ ∧
        Cluster.Ascends ring' (fun i => (x₀.server i.1).self.id) ∧
        Intact ring' (fun i => (c.server i).successorSocket) ⟨fun i => c.server i, fun _ => []⟩ ∧
        ∀ i : c.Member, ∃ leader rest, (c.server i).next = leader :: rest ∧
          leader.id = (x₀.server top).self.id := by
  have helected := elected_of_run hintact hring htop run hpeace hstarted hcalm
  have hstart := (start_of_succeeds hintact haddr helected
    (succeeds_remaining hintact helected)).1
  have hasked := fun i hi => (newcomer_of_elected hintact haddr helected (i := i) hi).2
  have hinv := Cluster.inv_of_run hstart run'
  obtain ⟨ring', hcycle, hascends, hready, hleader⟩ := hinv.formed hstart hrest
  have hid : ∀ i, (r.server i).self.id = (x₀.server i).self.id := fun i =>
    (helected.samePeer i).id
  have hids : (fun i : c.Member => (c.server i).self.id) =
      fun i : c.Member => (x₀.server i.1).self.id :=
    funext fun i => (hinv.server i).id.trans (hid i)
  refine ⟨hasked, ring', hcycle, hids ▸ hascends, hready, fun i => ?_⟩
  obtain ⟨-, leader, rest, hnext, heq⟩ := hleader i
  exact ⟨leader, rest, hnext, heq.trans (hinv.self.id.trans (hid top))⟩

/-- **How long the recovery takes.**  Once a timer has found the leader overdue, receiving what is
on the links ends the election, and then the servers that are left are in the new ring after four
steps for each of them and a sweep. -/
theorem recovery_completes [Nontrivial {i // i ≠ top}]
    (run : Run (CrashRing.step ring socket inbound) x₀.whole h r)
    (hpeace : ∀ z ∈ h, z.2.Peaceful) (hstarted : ∃ z ∈ h, z.1.TimesOut z.2) (env : Env)
    {incoming : {i // i ≠ top} → Socket} (hincoming : ∀ i, IsValidSocket (incoming i) ∧
      incoming i ≠ (x₀.server i).self.tcpSocket) :
    ∃ h₁ y h₂ d, Run (CrashRing.step ring socket inbound) r h₁ y ∧
      (∀ z ∈ h₁, ∃ i, z.2 = .deliver i env) ∧
      2 * ∑ i, received h₁ i ≤
        Fintype.card ι * (Fintype.card ι + 1) + 2 * (Fintype.card ι * (timeouts h + 1)) ∧
      Run (Cluster.step lost (fun i => addr i.1) incoming) (remaining y.toNetwork top) h₂ d ∧
      h₂.length ≤ 4 * Fintype.card {i // i ≠ top} + 1 ∧ (∀ i, d.fd i ≠ none) ∧
      ∃ ring' : Equiv.Perm d.Member, ring'.IsCycleOn Set.univ ∧
        Intact ring' (fun i => (d.server i).successorSocket)
          ⟨fun i => d.server i, fun _ => []⟩ := by
  obtain ⟨h₁, y, run₁, hdeliver, hlen₁, -, helected⟩ :=
    election_of_settling hintact hring htop run hpeace hstarted env
  have hstart := (start_of_succeeds hintact haddr helected
    (succeeds_remaining hintact helected)).1
  have hinbound : ∀ i : {i // i ≠ top}, IsValidSocket (incoming i) ∧
      incoming i ≠ ((remaining y.toNetwork top).server i).self.tcpSocket := by
    intro i
    refine ⟨(hincoming i).1, ?_⟩
    show incoming i ≠ (y.server i).self.tcpSocket
    obtain ⟨leader, hself⟩ := helected.self i
    rw [hself]
    exact (hincoming i).2
  obtain ⟨h₂, d, run₂, hlen₂, halive, hrest, hconnected, hinv⟩ :=
    Cluster.exists_completion hstart hinbound Run.nil
  have hall : ∀ i, d.fd i ≠ none := by
    intro i
    refine hconnected i ?_
    rw [halive]
    rfl
  obtain ⟨i, j, hij⟩ := exists_pair_ne {i // i ≠ top}
  have : Nontrivial d.Member :=
    ⟨⟨i, hall i⟩, ⟨j, hall j⟩, fun heq => hij (congrArg Subtype.val heq)⟩
  obtain ⟨ring', hcycle, -, hready, -⟩ := hinv.formed hstart hrest
  exact ⟨h₁, y, h₂, d, run₁, hdeliver, hlen₁, run₂, hlen₂, hall, ring', hcycle, hready⟩

end Recovery

/-! ## Three servers -/

private inductive Member
  | twenty | seven | twelve
  deriving DecidableEq

private instance : Fintype Member where
  elems := {.twenty, .seven, .twelve}
  complete := by
    intro i
    cases i <;> decide

private instance : Nontrivial Member := ⟨.twenty, .seven, by decide⟩

namespace Member

private def id : Member → ℤ
  | .twenty => 20
  | .seven => 7
  | .twelve => 12

private def next : Member → Member
  | .twenty => .seven
  | .seven => .twelve
  | .twelve => .twenty

end Member

private def failingRing : Equiv.Perm Member where
  toFun := Member.next
  invFun i := i.next.next
  left_inv := by decide
  right_inv := by decide

/-- Servers 20, 7 and 12 in a ring; their leader had the ID 15. -/
private def failing : Network Member where
  server i := { startLeader 0 i.id (text "10.0.0.1") 4041 20000 3 4 with
    self := createServer 0 i.id (text "10.0.0.1") 4041 0 3
    next := [createServer 0 15 (text "10.0.0.2") 4041 1 5,
      createServer 0 i.next.id (text "10.0.0.1") 4041 0 6]
    successorSocket := 6 }
  link _ := []

private def failingStep := CrashRing.step failingRing (fun _ => 6) (fun _ => 7)

private theorem failing_intact : Intact failingRing (fun _ => 6) failing :=
  ⟨by decide, by decide, by decide, by decide, fun _ => ⟨_, _, rfl, rfl, rfl⟩, by decide,
    fun _ => rfl⟩

private theorem failing_ring : failingRing.IsCycleOn Set.univ := by
  refine ⟨Set.bijOn_univ.mpr failingRing.bijective, fun x _ y _ => ?_⟩
  have hpow : ∃ n : Fin 3, (failingRing ^ (n : ℕ)) x = y := by
    revert x y
    decide
  obtain ⟨n, hn⟩ := hpow
  exact ⟨(n : ℕ), by rwa [zpow_natCast]⟩

private theorem failing_top :
    ∀ i, (failing.server i).self.id ≤ (failing.server .twenty).self.id := by
  decide

private theorem failing_reachable : Reachable (fun _ => text "10.0.0.1") failing := by
  have haddr : IsAddress (text "10.0.0.1") :=
    ⟨⟨by decide, by decide, by decide, by decide⟩, by decide⟩
  exact ⟨fun _ => haddr, by decide, fun _ => haddr, by decide⟩

/-- Server 7 starts; 12 and then 20 replace its vote, once, and 20 wins. -/
private def failingActions : List (CrashAction Member) :=
  .timer .seven afterTimeout.1 ::
    [.seven, .seven, .twelve, .twenty, .seven, .twelve, .twenty, .seven, .twelve].map
      fun i => .deliver i afterTimeout.1

private theorem failing_peaceful : ∀ a ∈ failingActions, a.Peaceful := by
  refine List.forall_mem_cons.mpr ⟨trivial, ?_⟩
  exact List.forall_mem_map.mpr fun _ _ => trivial

private def elected : CrashRing Member :=
  (exec failingStep failing.whole failingActions).get (by decide +kernel)

private abbrev Loser := {i : Member // i ≠ .twenty}

private def seven : Loser := ⟨.seven, by decide⟩

private def twelve : Loser := ⟨.twelve, by decide⟩

private instance : Nontrivial Loser := ⟨seven, twelve, by decide⟩

/-- Server 12 asks first; what it is told after the other has asked is read last. -/
private def joiningAgain : List (ClusterAction Loser) :=
  [.announce twelve (Cluster.reliable 10), .announce seven (Cluster.reliable 11),
    .read seven (Cluster.reliable 8), .read twelve (Cluster.reliable 8),
    .read twelve (Cluster.reliable 8)]

private def incomingAgain (_ : Loser) : Socket := 9

private def joiningAgainStep := Cluster.step lost (fun _ => text "10.0.0.1") incomingAgain

private def recovered : Cluster Loser :=
  (exec joiningAgainStep (remaining elected.toNetwork .twenty) joiningAgain).get
    (by decide +kernel)

theorem ring_recovers_three :
    ∃ ring' : Equiv.Perm recovered.Member, ring'.IsCycleOn Set.univ ∧
      Intact ring' (fun i => (recovered.server i).successorSocket)
        ⟨fun i => recovered.server i, fun _ => []⟩ := by
  have run : Run failingStep failing.whole (trace failingStep failing.whole failingActions)
      elected := Run.of_exec (Option.some_get _).symm
  have hstarted : ∃ z ∈ trace failingStep failing.whole failingActions, z.1.TimesOut z.2 :=
    ⟨(failing.whole, .timer .seven afterTimeout.1), head_mem_trace (by decide +kernel) _,
      by decide +kernel⟩
  have run' : Run joiningAgainStep (remaining elected.toNetwork .twenty)
      (trace joiningAgainStep (remaining elected.toNetwork .twenty) joiningAgain) recovered :=
    Run.of_exec (Option.some_get _).symm
  have hrest : recovered.AtRest := ⟨by decide +kernel, by decide +kernel⟩
  have : Nontrivial recovered.Member :=
    ⟨⟨seven, by decide +kernel⟩, ⟨twelve, by decide +kernel⟩, by decide +kernel⟩
  obtain ⟨-, ring', hcycle, -, hready, -⟩ := ring_recovers failing_intact failing_ring failing_top
    failing_reachable run (fun z hz => failing_peaceful z.2 (mem_of_mem_trace hz)) hstarted
    (by decide +kernel) run' hrest
  exact ⟨ring', hcycle, hready⟩

/-- Right after the first timer. -/
private def started : CrashRing Member :=
  (exec failingStep failing.whole (failingActions.take 1)).get (by decide +kernel)

theorem recovery_completes_three :
    ∃ h₁ y h₂ d, Run failingStep started h₁ y ∧ 2 * ∑ i, received h₁ i ≤ 24 ∧
      Run joiningAgainStep (remaining y.toNetwork .twenty) h₂ d ∧ h₂.length ≤ 9 := by
  have run : Run failingStep failing.whole
      (trace failingStep failing.whole (failingActions.take 1)) started :=
    Run.of_exec (Option.some_get _).symm
  have hstarted : ∃ z ∈ trace failingStep failing.whole (failingActions.take 1),
      z.1.TimesOut z.2 :=
    ⟨(failing.whole, .timer .seven afterTimeout.1), head_mem_trace (by decide +kernel) _,
      by decide +kernel⟩
  have hcount : timeouts (trace failingStep failing.whole (failingActions.take 1)) = 1 := by
    decide +kernel
  have hincoming : ∀ i : Loser, IsValidSocket (incomingAgain i) ∧
      incomingAgain i ≠ (failing.server i).self.tcpSocket := by decide
  obtain ⟨h₁, y, h₂, d, run₁, -, hlen₁, run₂, hlen₂, -⟩ := recovery_completes failing_intact
    failing_ring failing_top failing_reachable run (fun z hz => failing_peaceful z.2
      (List.mem_of_mem_take (mem_of_mem_trace hz))) hstarted afterTimeout.1 hincoming
  rw [hcount] at hlen₁
  exact ⟨h₁, y, h₂, d, run₁, hlen₁, run₂, hlen₂⟩

end ChatRing
