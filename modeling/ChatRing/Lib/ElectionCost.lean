import ChatRing.Lib.RingElection
import Mathlib.Algebra.BigOperators.Group.Finset.Basic
import Mathlib.Algebra.BigOperators.Group.Finset.Piecewise
import Mathlib.Algebra.BigOperators.Intervals
import Mathlib.Algebra.Order.BigOperators.Group.Finset
import Mathlib.GroupTheory.Perm.Finite

/-!
# What an election on a ring costs

A vote is passed on until it meets an identifier that is not smaller, and the announcement
until it is back.  How many deliveries that takes is read off the ring: `stepsTo` counts the
steps from a node to the next one with a property.  `Config.potential` adds up what the tokens
on the links, and those that idle nodes may still send, can cost; every delivery lowers it.

## Main definitions

* `stepsTo` — the steps to the next node with a property.
* `Config.potential` — a bound for the deliveries still to come.

## Main results

* `Inv.potential_step` — a delivery lowers the potential, a start does not raise it, and a vote
  sent once more raises it by at most one round.
* `potential_start_le` — at the start it is at most `n (n + 1) / 2 + n`.
* `deliveries_le`, `exists_settling` — the bound for a run, and that the rest of an election
  can always be delivered.
-/

namespace RingElection
open Function Finset

/-! ## The next node with a property -/

section Steps
variable {ι : Type*} (ring : Equiv.Perm ι) (P : ι → Prop) (i : ι)

/-- The number of steps from `i` to the next node with `P`, at least one. -/
noncomputable def stepsTo : ℕ := sInf {k | 0 < k ∧ P ((ring ^ k) i)}

variable {ring P i} [Finite ι] (hring : ring.IsCycleOn Set.univ) (hP : ∃ j, P j)

include hring hP

theorem stepsTo_spec : 0 < stepsTo ring P i ∧ P ((ring ^ stepsTo ring P i) i) := by
  apply Nat.sInf_mem (s := {k | 0 < k ∧ P ((ring ^ k) i)})
  obtain ⟨j, hj⟩ := hP
  obtain ⟨k, hpos, -, hk⟩ := (hring.2 (Set.mem_univ i) (Set.mem_univ j)).exists_pow_eq''
  exact ⟨k, hpos, by rwa [hk]⟩

theorem stepsTo_pos : 0 < stepsTo ring P i := (stepsTo_spec hring hP).1

omit [Finite ι] hring hP in
theorem not_of_lt_stepsTo {k : ℕ} (hpos : 0 < k) (hk : k < stepsTo ring P i) :
    ¬ P ((ring ^ k) i) :=
  fun h => Nat.notMem_of_lt_sInf hk ⟨hpos, h⟩

omit [Finite ι] hring hP in
theorem stepsTo_le {k : ℕ} (hpos : 0 < k) (hk : P ((ring ^ k) i)) : stepsTo ring P i ≤ k :=
  Nat.sInf_le ⟨hpos, hk⟩

/-- A node without `P` is passed. -/
theorem stepsTo_next (h : ¬ P (ring i)) : stepsTo ring P i = stepsTo ring P (ring i) + 1 := by
  obtain ⟨hpos, hmeet⟩ := stepsTo_spec (i := ring i) hring hP
  obtain ⟨hpos', hmeet'⟩ := stepsTo_spec (i := i) hring hP
  apply Nat.le_antisymm
  · apply stepsTo_le (Nat.succ_pos _)
    rwa [pow_succ, Equiv.Perm.mul_apply]
  · obtain ⟨k, hk⟩ := Nat.exists_eq_add_of_lt hpos'
    rw [zero_add] at hk
    rw [hk, pow_succ, Equiv.Perm.mul_apply] at hmeet'
    have hk0 : 0 < k := by
      by_contra hzero
      obtain rfl : k = 0 := by omega
      exact h hmeet'
    have hle := stepsTo_le hk0 hmeet'
    omega

/-- The nodes on the way are distinct. -/
theorem stepsTo_le_card [Fintype ι] [DecidablePred P] :
    stepsTo ring P i ≤ #{j | ¬ P j} + 1 := by
  have hmeet := (stepsTo_spec (i := i) hring hP).2
  generalize hn : stepsTo ring P i = n at hmeet
  have hmaps : ∀ k ∈ Ico 1 n, (ring ^ k) i ∈ ({j | ¬ P j} : Finset ι) := by
    intro k hk
    rw [mem_Ico] at hk
    simpa using not_of_lt_stepsTo (by omega) (by omega)
  have hinj : ∀ k ∈ Ico 1 n, ∀ l ∈ Ico 1 n, k < l → (ring ^ k) i ≠ (ring ^ l) i := by
    intro k hk l hl hkl heq
    rw [mem_Ico] at hk hl
    -- the way from the first visit to the end is also one from the second
    have hshort : P ((ring ^ (n - l + k)) i) := by
      rw [pow_add, Equiv.Perm.mul_apply, heq, ← Equiv.Perm.mul_apply, ← pow_add,
        Nat.sub_add_cancel hl.2.le]
      exact hmeet
    have hle := stepsTo_le (by omega) hshort
    omega
  have hcard : #(Ico 1 n) ≤ #({j | ¬ P j} : Finset ι) := by
    apply card_le_card_of_injOn (fun k => (ring ^ k) i)
    · exact fun k hk => hmaps k hk
    · intro k hk l hl heq
      rcases Nat.lt_trichotomy k l with hlt | hkl | hlt
      · exact absurd heq (hinj k hk l hl hlt)
      · exact hkl
      · exact absurd heq.symm (hinj l hl k hk hlt)
  rw [Nat.card_Ico] at hcard
  omega

end Steps

/-! ## What a history counts -/

section Counts
variable {ι α : Type*}

@[simp] def Action.isDeliver : Action ι → Bool
  | .deliver _ => true
  | _ => false

@[simp] def Action.isResend : Action ι → Bool
  | .resend _ => true
  | _ => false

/-- The number of deliveries of a history. -/
def deliveries (h : List (Config ι α × Action ι)) : ℕ := h.countP fun x => x.2.isDeliver

/-- The number of votes in a history that were sent once more. -/
def resends (h : List (Config ι α × Action ι)) : ℕ := h.countP fun x => x.2.isResend

theorem deliveries_eq (h : List (Config ι α × Action ι)) :
    deliveries h = (h.map Prod.snd).countP Action.isDeliver := by
  rw [deliveries, List.countP_map]
  rfl

theorem resends_eq (h : List (Config ι α × Action ι)) :
    resends h = (h.map Prod.snd).countP Action.isResend := by
  rw [resends, List.countP_map]
  rfl

theorem deliveries_append (h₁ h₂ : List (Config ι α × Action ι)) :
    deliveries (h₁ ++ h₂) = deliveries h₁ + deliveries h₂ := List.countP_append ..

theorem resends_append (h₁ h₂ : List (Config ι α × Action ι)) :
    resends (h₁ ++ h₂) = resends h₁ + resends h₂ := List.countP_append ..

end Counts

/-! ## The potential -/

section Potential
variable {ι α : Type*} [LinearOrder α] (ring : Equiv.Perm ι) (id : ι → α) (top : ι)

/-- The deliveries that a token on the link of `i` can still take. -/
noncomputable def Token.cost (i : ι) : Token α → ℕ
  | .vote q => stepsTo ring (fun j => q ≤ id j) i
  | .leader q => stepsTo ring (fun j => id j = q) i

variable [Fintype ι] [DecidableEq ι]

/-- What a node may still send of its own: its vote when it is idle, and the announcement
of the node that is to be elected. -/
noncomputable def Node.cost (i : ι) (n : Node) : ℕ :=
  (if n = .idle then Token.cost ring id i (.vote (id i)) else 0) +
    if i = top ∧ (n = .idle ∨ n = .candidate) then Fintype.card ι else 0

/-- What is on a link, and what its node may still send. -/
noncomputable def Config.costAt (c : Config ι α) (i : ι) : ℕ :=
  ((c.link i).map (Token.cost ring id i)).sum + Node.cost ring id top i (c.node i)

/-- The deliveries that may still come. -/
noncomputable def Config.potential (c : Config ι α) : ℕ := ∑ i, c.costAt ring id top i

variable {ring id top} {c c' : Config ι α} {i j : ι} {rest : List (Token α)} {u : Token α}

omit [LinearOrder α] in
/-- Two sums that differ at one node. -/
theorem sum_of_agree {f g : ι → ℕ} (h : ∀ i ≠ j, f i = g i) :
    ∑ i, f i + g j = ∑ i, g i + f j := by
  have hf := add_sum_erase univ f (mem_univ j)
  have hg := add_sum_erase univ g (mem_univ j)
  have hrest : ∑ i ∈ univ.erase j, f i = ∑ i ∈ univ.erase j, g i :=
    sum_congr rfl fun i hi => h i (mem_erase.mp hi).1
  omega

variable (ring id top) in
/-- A token that leaves a link takes its cost with it. -/
theorem potential_pop (hlink : c.link i = u :: rest) :
    (c.pop i rest).potential ring id top + Token.cost ring id i u = c.potential ring id top := by
  have hsame : ∀ j ≠ i, (c.pop i rest).costAt ring id top j = c.costAt ring id top j := by
    intro j hj
    simp [Config.costAt, hj]
  have hi : (c.pop i rest).costAt ring id top i + Token.cost ring id i u =
      c.costAt ring id top i := by
    simp only [Config.costAt, pop_link, update_self, pop_node, hlink, List.map_cons, List.sum_cons]
    omega
  have hsum := sum_of_agree hsame
  simp only [Config.potential]
  omega

variable (ring id top c j) in
/-- A node that moves changes its own cost, and adds that of the token it sends. -/
theorem potential_put (r : Node × Option (Token α)) :
    (c.put j r).potential ring id top + Node.cost ring id top j (c.node j) =
      c.potential ring id top + Node.cost ring id top j r.1 +
        (r.2.toList.map (Token.cost ring id j)).sum := by
  have hsame : ∀ i ≠ j, (c.put j r).costAt ring id top i = c.costAt ring id top i := by
    intro i hi
    simp [Config.costAt, hi]
  have hj : (c.put j r).costAt ring id top j + Node.cost ring id top j (c.node j) =
      c.costAt ring id top j + Node.cost ring id top j r.1 +
        (r.2.toList.map (Token.cost ring id j)).sum := by
    simp only [Config.costAt, put_link, put_node, update_self, List.map_append, List.sum_append]
    omega
  have hsum := sum_of_agree hsame
  simp only [Config.potential]
  omega

/-! ## What a step costs -/

section Cost
variable (hring : ring.IsCycleOn Set.univ) {o : ι}

include hring

omit [Fintype ι] [DecidableEq ι] in
/-- A vote that is passed on costs one delivery less. -/
theorem Token.cost_vote_next [Finite ι] (h : id (ring i) < id o) :
    Token.cost ring id i (.vote (id o)) = Token.cost ring id (ring i) (.vote (id o)) + 1 :=
  stepsTo_next (P := fun j => id o ≤ id j) hring ⟨o, le_rfl⟩ h.not_ge

omit [Fintype ι] [DecidableEq ι] in
theorem Token.cost_leader_next [Finite ι] (h : id o ≠ id (ring i)) :
    Token.cost ring id i (.leader (id o)) = Token.cost ring id (ring i) (.leader (id o)) + 1 :=
  stepsTo_next (P := fun j => id j = id o) hring ⟨o, rfl⟩ (Ne.symm h)

omit [Fintype ι] [DecidableEq ι] in
theorem Token.cost_pos [Finite ι] (hu : u = .vote (id o) ∨ u = .leader (id o)) :
    0 < Token.cost ring id i u := by
  rcases hu with rfl | rfl
  · exact stepsTo_pos (P := fun j => id o ≤ id j) hring ⟨o, le_rfl⟩
  · exact stepsTo_pos (P := fun j => id j = id o) hring ⟨o, rfl⟩

omit [DecidableEq ι] in
/-- The announcement goes round once. -/
theorem Token.cost_leader_le :
    Token.cost ring id i (.leader (id o)) ≤ Fintype.card ι := by
  classical
  have hle := stepsTo_le_card (i := i) (P := fun j => id j = id o) hring ⟨o, rfl⟩
  have hone : #({j | ¬ id j = id o} : Finset ι) < Fintype.card ι := by
    apply card_lt_univ_of_notMem (x := o)
    simp
  simp only [Token.cost]
  omega

omit [DecidableEq ι] in
/-- So does a vote, at most. -/
theorem Token.cost_vote_le :
    Token.cost ring id i (.vote (id o)) ≤ Fintype.card ι := by
  classical
  have hle := stepsTo_le_card (i := i) (P := fun j => id o ≤ id j) hring ⟨o, le_rfl⟩
  have hone : #({j | ¬ id o ≤ id j} : Finset ι) < Fintype.card ι := by
    apply card_lt_univ_of_notMem (x := o)
    simp
  simp only [Token.cost]
  omega

omit [DecidableEq ι] in
/-- A vote passes the nodes with smaller identifiers. -/
theorem Token.cost_own_le :
    Token.cost ring id o (.vote (id o)) ≤ #({j | id j < id o} : Finset ι) + 1 := by
  have hle := stepsTo_le_card (i := o) (P := fun j => id o ≤ id j) hring ⟨o, le_rfl⟩
  simpa [Token.cost] using hle

/-- **What a delivery costs the receiver**: the token pays for what is sent in turn, and
for itself. -/
theorem receive_cost {n : Node} {me : ι} (hme : me = ring i)
    (hu : u = .vote (id o) ∧ (id o = id me → me = top) ∨
      u = .leader (id o) ∧ (id o = id me → ¬ n.Active)) :
    Node.cost ring id top me (receive (id me) n u).1 +
        ((receive (id me) n u).2.toList.map (Token.cost ring id me)).sum + 1 ≤
      Node.cost ring id top me n + Token.cost ring id i u := by
  have hpos : 0 < Token.cost ring id i u :=
    Token.cost_pos hring (hu.imp And.left And.left)
  subst hme
  by_cases hn : n.Active
  · rcases hu with ⟨rfl, hown⟩ | ⟨rfl, hown⟩
    · by_cases heq : id o = id (ring i)
      · -- the own vote pays with the announcement that was put aside
        have htop := hown heq
        have hcard : Token.cost ring id (ring i) (.leader (id (ring i))) ≤ Fintype.card ι :=
          Token.cost_leader_le hring
        rw [heq] at hpos ⊢
        rw [receive_own hn]
        rcases hn with rfl | rfl
        all_goals
          simp [Node.cost, htop] at hcard hpos ⊢
          omega
      · rcases receive_vote hn heq with ⟨hlt, hr⟩ | ⟨hlt, rfl, hr⟩ | ⟨hlt, rfl, hr⟩
        · have hnext := Token.cost_vote_next hring hlt
          simp [hr]
          omega
        · simp [hr, Node.cost]
          omega
        · simp [hr]
          omega
    · have heq : id o ≠ id (ring i) := fun h => hown h hn
      have hnext := Token.cost_leader_next hring heq
      rw [receive_leader hn heq]
      simp [Node.cost]
      omega
  · have hkeep : (receive (id (ring i)) n u).2 = none := receive_of_not_active hn
    have hpassive : ¬ (receive (id (ring i)) n u).1.Active := by
      cases n with
      | idle => exact absurd (Or.inl rfl) hn
      | candidate => exact absurd (Or.inr rfl) hn
      | leading =>
          cases u with
          | vote q => simp [receive, Node.Active]
          | leader q =>
              rw [receive]
              split_ifs <;> simp [Node.Active]
      | crowned => cases u <;> simp [receive, Node.Active]
      | follower => simp [receive, Node.Active]
    have hfree : ∀ m : Node, ¬ m.Active → Node.cost ring id top (ring i) m = 0 := by
      intro m hm
      simp only [Node.Active, not_or] at hm
      simp [Node.cost, hm]
    simp only [hkeep, hfree _ hn, hfree _ hpassive, Option.toList_none, List.map_nil, List.sum_nil]
    omega

end Cost

/-! ## Runs -/

/-- The tokens on the links. -/
def Config.inFlight (c : Config ι α) : ℕ := ∑ i, (c.link i).length

variable (hring : ring.IsCycleOn Set.univ) (hid : Injective id)

include hring hid

omit [DecidableEq ι] in
/-- A token on a link can be paid for, and comes to a node that it is for only at the end. -/
theorem Inv.token (h : Inv ring id top c) (hlink : c.link i = u :: rest) :
    ∃ o, u = .vote (id o) ∧ (id o = id (ring i) → ring i = top) ∨
      u = .leader (id o) ∧ (id o = id (ring i) → ¬ (c.node (ring i)).Active) := by
  cases u with
  | vote q =>
      have htravel := h.travelling (i := i) (q := q) (by simp [hlink])
      have hvote := htravel
      obtain ⟨o, ho, -⟩ := hvote
      obtain rfl := Token.vote.inj ho
      refine ⟨o, Or.inl ⟨rfl, ?_⟩⟩
      intro heq
      rw [heq] at htravel
      exact htravel.eq_top hring hid
  | leader q =>
      obtain rfl := h.leader_eq (i := i) (q := q) (by simp [hlink])
      refine ⟨top, Or.inr ⟨rfl, ?_⟩⟩
      intro heq
      rw [← hid heq]
      rcases h with ⟨h, -⟩ | ⟨s, h⟩ | h
      · obtain ⟨o, ho, -⟩ := h.link i _ (by rw [hlink]; exact List.mem_cons_self)
        cases ho
      · simp [h.node_top, Node.Active]
      · simp [h.node_top, Node.Active]

omit hring hid in
/-- A vote sent once more goes round at most once. -/
theorem potential_resend (hring : ring.IsCycleOn Set.univ) (hcandidate : c.node i = .candidate) :
    (c.put i (.candidate, some (.vote (id i)))).potential ring id top ≤
      c.potential ring id top + Fintype.card ι := by
  have hput := potential_put ring id top c i (.candidate, some (.vote (id i)))
  have hcost : Token.cost ring id i (.vote (id i)) ≤ Fintype.card ι := Token.cost_vote_le hring
  simp only [hcandidate, Option.toList_some, List.map_cons, List.map_nil, List.sum_cons,
    List.sum_nil] at hput
  omega

/-- **A delivery lowers the potential, a start does not raise it, and a vote sent once more
raises it by at most one round.** -/
theorem Inv.potential_step (h : Inv ring id top c) {a : Action ι}
    (hstep : RingElection.step ring id c a = some c') :
    c'.potential ring id top + deliveries [(c, a)] ≤
      c.potential ring id top + Fintype.card ι * resends [(c, a)] := by
  cases a with
  | timeout i =>
      rw [RingElection.step] at hstep
      split at hstep
      · rename_i hidle
        obtain rfl := Option.some.inj hstep
        have hput := potential_put ring id top c i (.candidate, some (.vote (id i)))
        simp [hidle, Node.cost] at hput
        simp [deliveries, resends]
        omega
      · obtain rfl := Option.some.inj hstep
        simp [deliveries, resends]
      · cases hstep
  | resend i =>
      rw [RingElection.step] at hstep
      split at hstep
      · rename_i hcandidate
        obtain rfl := Option.some.inj hstep
        have hle : (c.put i _).potential ring id top ≤ _ := potential_resend hring hcandidate
        simpa [deliveries, resends] using hle
      · cases hstep
  | deliver i =>
      rw [RingElection.step] at hstep
      split at hstep
      · cases hstep
      · rename_i u rest hlink
        obtain rfl := Option.some.inj hstep
        obtain ⟨o, ho⟩ := h.token hring hid hlink
        have hpop := potential_pop ring id top hlink
        have hput := potential_put ring id top (c.pop i rest) (ring i)
          (RingElection.receive (id (ring i)) (c.node (ring i)) u)
        have hcost : Node.cost ring id top (ring i) _ + _ + 1 ≤ _ := receive_cost hring rfl ho
        simp only [pop_node] at hput
        simp [deliveries, resends]
        omega

omit [DecidableEq ι] hring in
/-- Every pair of nodes is counted once. -/
theorem two_mul_sum_smaller :
    2 * ∑ o, (#({j | id j < id o} : Finset ι) + 1) = Fintype.card ι * (Fintype.card ι + 1) := by
  classical
  have hsplit : ∀ o, #({j | id j < id o} : Finset ι) + #({j | id o < id j} : Finset ι) + 1 =
      Fintype.card ι := by
    intro o
    have hdisjoint : Disjoint ({j | id j < id o} : Finset ι) ({j | id o < id j} : Finset ι) :=
      disjoint_filter.mpr fun j _ hlt => hlt.not_gt
    have hunion : ({j | id j < id o} : Finset ι) ∪ ({j | id o < id j} : Finset ι) =
        univ.erase o := by
      ext j
      have hne : j ≠ o ↔ id j ≠ id o := hid.ne_iff.symm
      simp [hne, lt_or_lt_iff_ne]
    have hcard : 0 < Fintype.card ι := Fintype.card_pos_iff.mpr ⟨o⟩
    rw [← card_union_of_disjoint hdisjoint, hunion, card_erase_of_mem (mem_univ o), card_univ]
    omega
  have hswap : ∑ o, #({j | id o < id j} : Finset ι) = ∑ o, #({j | id j < id o} : Finset ι) := by
    simp only [card_filter]
    exact sum_comm
  have hsum : ∑ o, (#({j | id j < id o} : Finset ι) + #({j | id o < id j} : Finset ι) + 1) =
      Fintype.card ι * Fintype.card ι := by
    rw [sum_congr rfl fun o _ => hsplit o]
    simp
  simp only [sum_add_distrib, sum_const, card_univ, smul_eq_mul, mul_one, mul_add] at hsum ⊢
  omega

variable (top) in
/-- **What an election can cost**: every vote passes the nodes with smaller identifiers, and
the announcement goes round. -/
theorem potential_start_le : 2 * (start : Config ι α).potential ring id top ≤
    Fintype.card ι * (Fintype.card ι + 1) + 2 * Fintype.card ι := by
  have hpotential : (start : Config ι α).potential ring id top =
      ∑ o, Token.cost ring id o (.vote (id o)) + Fintype.card ι := by
    simp [Config.potential, Config.costAt, start, Node.cost, sum_add_distrib]
  have hle : ∑ o, Token.cost ring id o (.vote (id o)) ≤
      ∑ o, (#({j | id j < id o} : Finset ι) + 1) :=
    sum_le_sum fun o _ => Token.cost_own_le hring
  have htotal := two_mul_sum_smaller hid
  omega

omit hid in
/-- A token on a link has a delivery left. -/
theorem Inv.inFlight_le (h : Inv ring id top c) : c.inFlight ≤ c.potential ring id top := by
  apply sum_le_sum
  intro i _
  have hpos : ∀ u ∈ c.link i, 1 ≤ Token.cost ring id i u := by
    intro u hu
    cases u with
    | vote q =>
        obtain ⟨o, ho, -⟩ := h.travelling hu
        exact Token.cost_pos hring (Or.inl ho)
    | leader q =>
        obtain rfl := h.leader_eq hu
        exact Token.cost_pos hring (Or.inr rfl)
  have hsum : (c.link i).length ≤ ((c.link i).map (Token.cost ring id i)).sum := by
    have hle := List.length_le_sum_of_one_le ((c.link i).map (Token.cost ring id i)) (by simpa)
    simpa using hle
  simp only [Config.costAt]
  omega

variable [Nontrivial ι] (htop : ∀ i, id i ≤ id top) {h : List (Config ι α × Action ι)}

include htop

/-- **The deliveries of a run, and those still to come, are at most what the start can cost,
and a round for each vote sent once more.** -/
theorem deliveries_le (run : Run (RingElection.step ring id) start h c) :
    deliveries h + c.potential ring id top ≤
      (start : Config ι α).potential ring id top + Fintype.card ι * resends h := by
  induction run with
  | nil => simp [deliveries, resends]
  | @snoc h c c' a run hstep ih =>
      have hinv : Inv ring id top c := inv_of_run hring hid htop run
      have hcost := hinv.potential_step hring hid hstep
      simp only [deliveries, resends, List.countP_append, mul_add] at ih hcost ⊢
      omega

/-- **Whatever has happened, the tokens on the links can be delivered one after another
until none is left.** -/
theorem Inv.exists_settling (hinv : Inv ring id top c) :
    ∃ (h' : List (Config ι α × Action ι)) (c' : Config ι α),
      Run (RingElection.step ring id) c h' c' ∧
        (∀ x ∈ h', ∃ i, x.2 = .deliver i) ∧ ∀ i, c'.link i = [] := by
  induction hn : c.potential ring id top using Nat.strong_induction_on generalizing c with
  | _ n ih =>
      by_cases hlink : ∀ i, c.link i = []
      · exact ⟨[], c, Run.nil, by simp, hlink⟩
      · push Not at hlink
        obtain ⟨i, hi⟩ := hlink
        obtain ⟨u, rest, hlink⟩ := List.exists_cons_of_ne_nil hi
        have hstep : RingElection.step ring id c (.deliver i) = some ((c.pop i rest).put (ring i)
            (RingElection.receive (id (ring i)) (c.node (ring i)) u)) := by
          simp [RingElection.step, hlink]
        have hcost := hinv.potential_step hring hid hstep
        simp only [deliveries, resends, List.countP_singleton] at hcost
        obtain ⟨h', c', run', hdeliver, hdone⟩ :=
          ih _ (by simp at hcost; omega) (hinv.step hring hid htop hstep) rfl
        refine ⟨(c, .deliver i) :: h', c', run'.cons hstep, ?_, hdone⟩
        simpa using hdeliver

end Potential

end RingElection
