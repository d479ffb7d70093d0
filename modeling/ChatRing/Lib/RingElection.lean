import ChatRing.Lib.Run
import Mathlib.GroupTheory.Perm.Cycle.Basic

/-!
# Election of a leader on a ring

Nodes with distinct identifiers stand on a ring and send to the next one over a link
that keeps the order.  A node that starts sends a vote for itself.  A vote for a larger
identifier is passed on, a smaller one is replaced by the receiver's own, once, and the
node whose own vote comes back announces itself.  A node that takes part may send its vote
again.  The announcement goes round once; a node that has passed it on takes no further part.

A run has three phases.  While votes travel, none is beyond the node `top` with the
largest identifier, unless it is its own.  Then the announcement travels, with no token
behind it.  In the end every other node follows `top`.

## Main definitions

* `Node`, `Token`, `receive`, `step` — the protocol.
* `Voting`, `Announcing`, `Settled` — the three phases.

## Main results

* `Inv.step` — every step stays in a phase or enters the next one.
* `Inv.eq_top`, `Inv.settled` — only `top` is elected, and once a run has started and no
  token is left, the election is over.
-/

namespace RingElection
open Function

/-! ## Distances around a ring -/

section Distance
variable {ι : Type*} {ring : Equiv.Perm ι} {top x y s : ι}

/-- The number of steps that lead from `top` to `x`. -/
noncomputable def dist (ring : Equiv.Perm ι) (top x : ι) : ℕ := sInf {k | (ring ^ k) top = x}

theorem dist_le {k : ℕ} (h : (ring ^ k) top = x) : dist ring top x ≤ k := Nat.sInf_le h

@[simp] theorem dist_top : dist ring top top = 0 := Nat.le_zero.mp (dist_le rfl)

variable [Finite ι] (hring : ring.IsCycleOn Set.univ)

include hring

theorem pow_dist : (ring ^ dist ring top x) top = x := by
  have hsame := hring.2 (Set.mem_univ top) (Set.mem_univ x)
  exact Nat.sInf_mem (s := {k | (ring ^ k) top = x}) hsame.exists_nat_pow_eq

theorem dist_injective (h : dist ring top x = dist ring top y) : x = y := by
  rw [← pow_dist hring (x := x), h, pow_dist hring]

theorem eq_top_of_dist (h : dist ring top x ≤ 0) : x = top := by
  have hdist : dist ring top x = dist ring top top := by
    rw [dist_top]
    omega
  exact dist_injective hring hdist

theorem dist_next (h : ring x ≠ top) : dist ring top (ring x) = dist ring top x + 1 := by
  apply Nat.le_antisymm
  · apply dist_le
    rw [pow_succ', Equiv.Perm.mul_apply, pow_dist hring]
  · cases hk : dist ring top (ring x) with
    | zero => exact absurd (eq_top_of_dist hring hk.le) h
    | succ k =>
        have hpow : (ring ^ dist ring top (ring x)) top = ring x := pow_dist hring
        rw [hk, pow_succ', Equiv.Perm.mul_apply] at hpow
        have hle := dist_le (ring.injective hpow)
        omega

/-- The node before `top` is the farthest. -/
theorem dist_le_of_next_eq (h : ring s = top) : dist ring top x ≤ dist ring top s := by
  by_contra hlt
  obtain ⟨d, hd⟩ := Nat.exists_eq_add_of_lt (not_le.mp hlt)
  have hround : (ring ^ (dist ring top s + 1)) top = top := by
    rw [pow_succ', Equiv.Perm.mul_apply, pow_dist hring, h]
  have hle : dist ring top x ≤ d := by
    apply dist_le
    have hx : (ring ^ dist ring top x) top = x := pow_dist hring
    rwa [hd, show dist ring top s + d + 1 = d + (dist ring top s + 1) by omega, pow_add,
      Equiv.Perm.mul_apply, hround] at hx
  omega

omit [Finite ι] in
theorem next_ne [Nontrivial ι] : ring x ≠ x := hring.apply_ne Set.nontrivial_univ (Set.mem_univ x)

end Distance

/-! ## The protocol -/

/-- What travels on a link. -/
inductive Token (α : Type*)
  | vote (a : α)
  | leader (a : α)
  deriving DecidableEq

inductive Node
  /-- takes no part yet -/
  | idle
  /-- has sent a vote for itself -/
  | candidate
  /-- has announced itself -/
  | leading
  /-- its announcement has come back -/
  | crowned
  /-- has passed an announcement on -/
  | follower
  deriving DecidableEq

/-- What a node does with a token, and the token it sends. -/
def receive {α : Type*} [LinearOrder α] (me : α) : Node → Token α → Node × Option (Token α)
  | .idle, .vote q =>
      if me < q then (.idle, some (.vote q))
      else if q < me then (.candidate, some (.vote me))
      else (.leading, some (.leader me))
  | .candidate, .vote q =>
      if me < q then (.candidate, some (.vote q))
      else if q < me then (.candidate, none)
      else (.leading, some (.leader me))
  | .leading, .vote _ => (.leading, none)
  | .crowned, .vote _ => (.crowned, none)
  | .follower, _ => (.follower, none)
  | .leading, .leader q => if q = me then (.crowned, none) else (.leading, none)
  | .crowned, .leader _ => (.crowned, none)
  | _, .leader q => if q = me then (.idle, none) else (.follower, some (.leader q))

/-- The nodes, and for each node what it sent that the next one has not received. -/
structure Config (ι α : Type*) where
  node : ι → Node
  link : ι → List (Token α)

inductive Action (ι : Type*)
  /-- Node `i` starts. -/
  | timeout (i : ι)
  /-- A candidate sends its vote once more. -/
  | resend (i : ι)
  /-- The first token on the link of `i` reaches the next node. -/
  | deliver (i : ι)

section Protocol
variable {ι α : Type*} [DecidableEq ι] {c : Config ι α} {i j : ι} {rest : List (Token α)}

/-- Every node idle, and nothing on the links. -/
def start : Config ι α := ⟨fun _ => .idle, fun _ => []⟩

/-- A token leaves a link. -/
def Config.pop (c : Config ι α) (i : ι) (rest : List (Token α)) : Config ι α :=
  { c with link := update c.link i rest }

/-- The new state of a node, and the token it sends. -/
def Config.put (c : Config ι α) (i : ι) (r : Node × Option (Token α)) : Config ι α where
  node := update c.node i r.1
  link := update c.link i (c.link i ++ r.2.toList)

def step [LinearOrder α] (ring : Equiv.Perm ι) (id : ι → α) (c : Config ι α) :
    Action ι → Option (Config ι α)
  | .timeout i =>
      match c.node i with
      | .idle => some (c.put i (.candidate, some (.vote (id i))))
      | .candidate => some c
      | _ => none
  | .resend i =>
      match c.node i with
      | .candidate => some (c.put i (.candidate, some (.vote (id i))))
      | _ => none
  | .deliver i =>
      match c.link i with
      | [] => none
      | t :: rest =>
          some ((c.pop i rest).put (ring i) (receive (id (ring i)) (c.node (ring i)) t))

@[simp] theorem pop_node : (c.pop i rest).node = c.node := rfl

@[simp] theorem pop_link : (c.pop i rest).link = update c.link i rest := rfl

@[simp] theorem put_node {r : Node × Option (Token α)} :
    (c.put i r).node = update c.node i r.1 := rfl

@[simp] theorem put_link {r : Node × Option (Token α)} :
    (c.put i r).link = update c.link i (c.link i ++ r.2.toList) := rfl

theorem put_self : c.put i (c.node i, none) = c := by
  simp [Config.put]

theorem mem_link_of_pop {u t : Token α} (hlink : c.link i = u :: rest)
    (h : t ∈ (c.pop i rest).link j) : t ∈ c.link j := by
  by_cases hj : j = i
  · subst hj
    rw [pop_link, update_self] at h
    rw [hlink]
    exact List.mem_cons_of_mem _ h
  · rwa [pop_link, update_of_ne hj] at h

theorem mem_link_pop {u t : Token α} (hlink : c.link i = u :: rest) (hne : t ≠ u)
    (h : t ∈ c.link j) : t ∈ (c.pop i rest).link j := by
  by_cases hj : j = i
  · subst hj
    rw [pop_link, update_self]
    rw [hlink] at h
    exact List.mem_of_ne_of_mem hne h
  · rwa [pop_link, update_of_ne hj]

theorem mem_link_put {r : Node × Option (Token α)} {t : Token α} :
    t ∈ (c.put i r).link j ↔ t ∈ c.link j ∨ j = i ∧ r.2 = some t := by
  by_cases hj : j = i
  · subst hj
    simp
  · simp [hj]

end Protocol

/-! ## The phases -/

/-- The node still takes part. -/
def Node.Active (n : Node) : Prop := n = .idle ∨ n = .candidate

section Phases
variable {ι α : Type*} [DecidableEq ι] (ring : Equiv.Perm ι) (id : ι → α) (top : ι)

/-- A vote on the link of `i` is for a node between `top` and `i`. -/
def Travelling (i : ι) (t : Token α) : Prop :=
  ∃ o, t = .vote (id o) ∧ dist ring top o ≤ dist ring top i

/-- Votes travel. -/
structure Voting (c : Config ι α) : Prop where
  node : ∀ i, (c.node i).Active
  link : ∀ i, ∀ t ∈ c.link i, Travelling ring id top i t

/-- For every candidate a vote travels that is not for a smaller identifier. -/
def Backed [LE α] (c : Config ι α) : Prop :=
  ∀ p, c.node p = .candidate → ∃ i q, Token.vote q ∈ c.link i ∧ id p ≤ q

/-- The announcement is the last token on the link of `s`. -/
structure Announcing (s : ι) (c : Config ι α) : Prop where
  node_top : c.node top = .leading
  behind : ∀ i, dist ring top i < dist ring top s → c.link i = []
  link : ∀ i ≠ s, ∀ t ∈ c.link i, Travelling ring id top i t
  last : ∃ votes, c.link s = votes ++ [.leader (id top)] ∧
    ∀ t ∈ votes, Travelling ring id top s t
  passed : ∀ i ≠ top, dist ring top i ≤ dist ring top s → c.node i = .follower
  ahead : ∀ i, dist ring top s < dist ring top i → (c.node i).Active

/-- The election is over. -/
structure Settled (c : Config ι α) : Prop where
  node_top : c.node top = .crowned
  rest : ∀ i ≠ top, c.node i = .follower
  link : ∀ i, c.link i = []

def Inv [LE α] (c : Config ι α) : Prop :=
  (Voting ring id top c ∧ Backed id c) ∨ (∃ s, Announcing ring id top s c) ∨ Settled top c

/-- Some node has started. -/
def Started (c : Config ι α) : Prop := ∃ i, c.node i ≠ .idle

end Phases

section Steps
variable {ι α : Type*} [DecidableEq ι] {ring : Equiv.Perm ι} {id : ι → α} {top s i t : ι}
  {c c' : Config ι α} {rest : List (Token α)} {q : α}

theorem Voting.pop {u : Token α} (h : Voting ring id top c) (hlink : c.link i = u :: rest) :
    Voting ring id top (c.pop i rest) where
  node := h.node
  link := fun j t ht => h.link j t (mem_link_of_pop hlink ht)

theorem Voting.put {r : Node × Option (Token α)} (h : Voting ring id top c) (hr : r.1.Active)
    (hout : ∀ t ∈ r.2, Travelling ring id top i t) : Voting ring id top (c.put i r) where
  node := by
    intro j
    by_cases hj : j = i
    · subst hj
      simpa using hr
    · simpa [hj] using h.node j
  link := by
    intro j t ht
    rcases mem_link_put.mp ht with hold | ⟨rfl, hnew⟩
    · exact h.link j t hold
    · exact hout t hnew

theorem Announcing.pop_vote (h : Announcing ring id top s c)
    (hlink : c.link i = .vote q :: rest) : Announcing ring id top s (c.pop i rest) := by
  refine ⟨h.node_top, ?_, ?_, ?_, h.passed, h.ahead⟩
  · intro j hj
    have hnil := h.behind j hj
    have hij : j ≠ i := by
      rintro rfl
      rw [hnil] at hlink
      cases hlink
    rwa [pop_link, update_of_ne hij]
  · intro j hj t ht
    exact h.link j hj t (mem_link_of_pop hlink ht)
  · obtain ⟨votes, hlast, hvotes⟩ := h.last
    by_cases hs : s = i
    · subst hs
      rw [hlink] at hlast
      cases votes with
      | nil => cases hlast
      | cons u votes =>
          obtain ⟨rfl, hrest⟩ := List.cons.inj hlast
          refine ⟨votes, by simpa using hrest, ?_⟩
          intro t ht
          exact hvotes t (List.mem_cons_of_mem _ ht)
    · exact ⟨votes, by rwa [pop_link, update_of_ne hs], hvotes⟩

/-- A node in front of the announcement may send a vote. -/
theorem Announcing.put {r : Node × Option (Token α)} (h : Announcing ring id top s c)
    (hi : dist ring top s < dist ring top i) (hr : r.1.Active)
    (hout : ∀ t ∈ r.2, Travelling ring id top i t) : Announcing ring id top s (c.put i r) := by
  have his : s ≠ i := by
    rintro rfl
    exact lt_irrefl _ hi
  have htop : top ≠ i := by
    rintro rfl
    rw [dist_top] at hi
    omega
  refine ⟨?_, ?_, ?_, ?_, ?_, ?_⟩
  · rw [put_node, update_of_ne htop]
    exact h.node_top
  · intro j hj
    have hji : j ≠ i := by
      rintro rfl
      omega
    rw [put_link, update_of_ne hji]
    exact h.behind j hj
  · intro j hj t ht
    rcases mem_link_put.mp ht with hold | ⟨rfl, hnew⟩
    · exact h.link j hj t hold
    · exact hout t hnew
  · rw [put_link, update_of_ne his]
    exact h.last
  · intro j hj hle
    have hji : j ≠ i := by
      rintro rfl
      omega
    rw [put_node, update_of_ne hji]
    exact h.passed j hj hle
  · intro j hj
    by_cases hji : j = i
    · subst hji
      simpa using hr
    · rw [put_node, update_of_ne hji]
      exact h.ahead j hj

/-- When the announcement arrives, nothing else is left on its link. -/
theorem Announcing.link_eq (h : Announcing ring id top s c) {a : α}
    (hlink : c.link i = .leader a :: rest) : i = s ∧ a = id top ∧ rest = [] := by
  have his : i = s := by
    by_contra hne
    obtain ⟨o, ho, -⟩ := h.link i hne (.leader a) (by simp [hlink])
    cases ho
  subst his
  obtain ⟨votes, hlast, hvotes⟩ := h.last
  rw [hlink] at hlast
  cases votes with
  | nil =>
      obtain ⟨ha, hrest⟩ := List.cons.inj hlast
      cases ha
      exact ⟨rfl, rfl, hrest⟩
  | cons u votes =>
      obtain ⟨rfl, -⟩ := List.cons.inj hlast
      obtain ⟨o, ho, -⟩ := hvotes _ List.mem_cons_self
      cases ho

/-! ### From one phase to the next -/

variable [Finite ι] (hring : ring.IsCycleOn Set.univ)

include hring

theorem Voting.elect (h : Voting ring id top c) :
    Announcing ring id top top (c.put top (.leading, some (.leader (id top)))) := by
  refine ⟨by simp, ?_, ?_, ?_, ?_, ?_⟩
  · intro j hj
    rw [dist_top] at hj
    omega
  · intro j hj t ht
    rw [put_link, update_of_ne hj] at ht
    exact h.link j t ht
  · exact ⟨c.link top, by simp, h.link top⟩
  · intro j hj hle
    rw [dist_top] at hle
    exact absurd (eq_top_of_dist hring hle) hj
  · intro j hj
    have hne : j ≠ top := by
      rintro rfl
      exact lt_irrefl _ hj
    rw [put_node, update_of_ne hne]
    exact h.node j

theorem Announcing.forward [Nontrivial ι] (h : Announcing ring id top s c)
    (hs : ring s ≠ top) : Announcing ring id top (ring s)
      ((c.pop s []).put (ring s) (.follower, some (.leader (id top)))) := by
  have hdist : dist ring top (ring s) = dist ring top s + 1 := dist_next hring hs
  have hne : s ≠ ring s := (next_ne hring).symm
  refine ⟨?_, ?_, ?_, ?_, ?_, ?_⟩
  · rw [put_node, update_of_ne hs.symm]
    exact h.node_top
  · intro j hj
    have hji : j ≠ ring s := by
      rintro rfl
      omega
    rw [put_link, update_of_ne hji, pop_link]
    by_cases hjs : j = s
    · rw [hjs, update_self]
    · have hlt : dist ring top j ≠ dist ring top s := fun heq => hjs (dist_injective hring heq)
      rw [update_of_ne hjs]
      apply h.behind
      omega
  · intro j hj t ht
    rw [put_link, update_of_ne hj, pop_link] at ht
    by_cases hjs : j = s
    · rw [hjs, update_self] at ht
      cases ht
    · rw [update_of_ne hjs] at ht
      exact h.link j hjs t ht
  · refine ⟨c.link (ring s), ?_, h.link (ring s) hne.symm⟩
    simp [hne.symm]
  · intro j hj hle
    by_cases hji : j = ring s
    · simp [hji]
    · have hlt : dist ring top j ≠ dist ring top (ring s) :=
        fun heq => hji (dist_injective hring heq)
      rw [put_node, update_of_ne hji]
      apply h.passed j hj
      omega
  · intro j hj
    have hji : j ≠ ring s := by
      rintro rfl
      omega
    rw [put_node, update_of_ne hji]
    apply h.ahead j
    omega

theorem Announcing.settle (h : Announcing ring id top s c)
    (hs : ring s = top) : Settled top ((c.pop s []).put top (.crowned, none)) := by
  refine ⟨by simp, ?_, ?_⟩
  · intro j hj
    rw [put_node, update_of_ne hj]
    exact h.passed j hj (dist_le_of_next_eq hring hs)
  · intro j
    rw [put_link, Option.toList_none, List.append_nil, update_eq_self, pop_link]
    by_cases hjs : j = s
    · rw [hjs, update_self]
    · have hlt : dist ring top j ≠ dist ring top s := fun heq => hjs (dist_injective hring heq)
      have hle : dist ring top j ≤ dist ring top s := dist_le_of_next_eq hring hs
      rw [update_of_ne hjs]
      apply h.behind
      omega

omit hring [Finite ι]

/-- What a node that takes part does with another one's vote. -/
theorem receive_vote [LinearOrder α] {me : α} {n : Node} (hn : n.Active) (hne : q ≠ me) :
    (me < q ∧ receive me n (.vote q) = (n, some (.vote q))) ∨
      (q < me ∧ n = .idle ∧ receive me n (.vote q) = (.candidate, some (.vote me))) ∨
        (q < me ∧ n = .candidate ∧ receive me n (.vote q) = (.candidate, none)) := by
  rcases lt_or_gt_of_ne hne with hlt | hlt
  · rcases hn with rfl | rfl
    · exact Or.inr (Or.inl ⟨hlt, rfl, by simp [receive, hlt, hlt.not_gt]⟩)
    · exact Or.inr (Or.inr ⟨hlt, rfl, by simp [receive, hlt, hlt.not_gt]⟩)
  · left
    rcases hn with rfl | rfl <;> simp [receive, hlt]

theorem receive_own [LinearOrder α] {me : α} {n : Node} (hn : n.Active) :
    receive me n (.vote me) = (.leading, some (.leader me)) := by
  rcases hn with rfl | rfl <;> simp [receive]

theorem receive_leader [LinearOrder α] {me : α} {n : Node} (hn : n.Active) (hne : q ≠ me) :
    receive me n (.leader q) = (.follower, some (.leader q)) := by
  rcases hn with rfl | rfl <;> simp [receive, hne]

theorem Backed.timeout [Preorder α] (h : Backed id c) :
    Backed id (c.put i (.candidate, some (.vote (id i)))) := by
  intro p hp
  by_cases hpi : p = i
  · subst hpi
    exact ⟨p, id p, mem_link_put.mpr (Or.inr ⟨rfl, rfl⟩), le_rfl⟩
  · rw [put_node, update_of_ne hpi] at hp
    obtain ⟨j, a, ha, hle⟩ := h p hp
    exact ⟨j, a, mem_link_put.mpr (Or.inl ha), hle⟩

/-- A vote that is replaced or dropped is smaller than another one on its way. -/
theorem Backed.receive [LinearOrder α] (h : Backed id c) (hlink : c.link i = .vote q :: rest)
    (hn : (c.node t).Active) (hne : q ≠ id t) :
    Backed id ((c.pop i rest).put t (receive (id t) (c.node t) (.vote q))) := by
  have hkeep : ∀ {r : Node × Option (Token α)} {j : ι} {a : α}, a ≠ q → .vote a ∈ c.link j →
      .vote a ∈ ((c.pop i rest).put t r).link j := by
    intro r j a haq ha
    exact mem_link_put.mpr (Or.inl (mem_link_pop hlink (by simpa using haq) ha))
  intro p hp
  rcases receive_vote hn hne with ⟨hlt, heq⟩ | ⟨hlt, -, heq⟩ | ⟨hlt, hcand, heq⟩
  · rw [heq] at hp ⊢
    rw [put_node, pop_node, update_eq_self] at hp
    obtain ⟨j, a, ha, hle⟩ := h p hp
    by_cases haq : a = q
    · exact ⟨t, q, mem_link_put.mpr (Or.inr ⟨rfl, rfl⟩), haq ▸ hle⟩
    · exact ⟨j, a, hkeep haq ha, hle⟩
  · rw [heq] at hp ⊢
    have hown : Token.vote (id t) ∈
        ((c.pop i rest).put t (.candidate, some (.vote (id t)))).link t :=
      mem_link_put.mpr (Or.inr ⟨rfl, rfl⟩)
    by_cases hpt : p = t
    · exact ⟨t, id t, hown, hpt ▸ le_rfl⟩
    · rw [put_node, update_of_ne hpt] at hp
      obtain ⟨j, a, ha, hle⟩ := h p hp
      by_cases haq : a = q
      · exact ⟨t, id t, hown, hle.trans (haq ▸ hlt.le)⟩
      · exact ⟨j, a, hkeep haq ha, hle⟩
  · rw [heq] at hp ⊢
    have hp' : c.node p = .candidate := by
      by_cases hpt : p = t
      · rw [hpt, hcand]
      · simpa [hpt] using hp
    obtain ⟨j, a, ha, hle⟩ := h p hp'
    by_cases haq : a = q
    · obtain ⟨k, b, hb, hle'⟩ := h t hcand
      exact ⟨k, b, hkeep (hlt.trans_le hle').ne' hb, hle.trans ((haq ▸ hlt.le).trans hle')⟩
    · exact ⟨j, a, hkeep haq ha, hle⟩

end Steps

/-! ## The invariant -/

section Invariant
variable {ι α : Type*} {ring : Equiv.Perm ι} {id : ι → α} {top s i : ι} {c c' : Config ι α}
  {rest : List (Token α)} {q : α}

theorem inv_start [LE α] : Inv ring id top (start : Config ι α) := by
  refine Or.inl ⟨⟨fun _ => Or.inl rfl, ?_⟩, ?_⟩
  · intro j t ht
    cases ht
  · intro p hp
    cases hp

theorem Announcing.travelling (h : Announcing ring id top s c) (hq : .vote q ∈ c.link i) :
    Travelling ring id top i (.vote q) := by
  by_cases his : i = s
  · subst his
    obtain ⟨votes, hlast, hvotes⟩ := h.last
    rw [hlast, List.mem_append, List.mem_singleton] at hq
    rcases hq with hq | hq
    · exact hvotes _ hq
    · cases hq
  · exact h.link i his _ hq

/-- Every vote on its way is for a node behind it. -/
theorem Inv.travelling [LE α] (h : Inv ring id top c) (hq : .vote q ∈ c.link i) :
    Travelling ring id top i (.vote q) := by
  rcases h with ⟨h, -⟩ | ⟨s, h⟩ | h
  · exact h.link i _ hq
  · exact h.travelling hq
  · rw [h.link i] at hq
    cases hq

/-- Only `top` is announced. -/
theorem Inv.leader_eq [LE α] (h : Inv ring id top c) (hq : .leader q ∈ c.link i) : q = id top := by
  rcases h with ⟨h, -⟩ | ⟨s, h⟩ | h
  · obtain ⟨o, ho, -⟩ := h.link i _ hq
    cases ho
  · by_cases his : i = s
    · obtain ⟨votes, hlast, hvotes⟩ := h.last
      rw [his, hlast, List.mem_append, List.mem_singleton] at hq
      rcases hq with hq | hq
      · obtain ⟨o, ho, -⟩ := hvotes _ hq
        cases ho
      · exact Token.leader.inj hq
    · obtain ⟨o, ho, -⟩ := h.link i his _ hq
      cases ho
  · rw [h.link i] at hq
    cases hq

/-- The announcement is not ahead of any token. -/
theorem Announcing.dist_le (h : Announcing ring id top s c) (hlink : c.link i ≠ []) :
    dist ring top s ≤ dist ring top i := by
  by_contra hlt
  exact hlink (h.behind i (not_le.mp hlt))

/-- Only `top` is ever elected. -/
theorem Inv.eq_top [LE α] (h : Inv ring id top c) (hi : c.node i = .leading ∨ c.node i = .crowned) :
    i = top := by
  have hactive : ¬ (c.node i).Active := by
    rcases hi with hi | hi <;> simp [Node.Active, hi]
  have hfollower : c.node i ≠ .follower := by
    rcases hi with hi | hi <;> simp [hi]
  rcases h with ⟨h, -⟩ | ⟨s, h⟩ | h
  · exact absurd (h.node i) hactive
  · by_contra hne
    by_cases hle : dist ring top i ≤ dist ring top s
    · exact hfollower (h.passed i hne hle)
    · exact hactive (h.ahead i (not_le.mp hle))
  · by_contra hne
    exact hfollower (h.rest i hne)

/-- Once a run has started and no token is left, the election is over. -/
theorem Inv.settled [LE α] (h : Inv ring id top c) (hstarted : Started c)
    (hlink : ∀ i, c.link i = []) :
    Settled top c := by
  rcases h with ⟨h, hbacked⟩ | ⟨s, h⟩ | h
  · obtain ⟨p, hp⟩ := hstarted
    obtain ⟨i, q, hq, -⟩ := hbacked p ((h.node p).resolve_left hp)
    simp [hlink i] at hq
  · obtain ⟨votes, hlast, -⟩ := h.last
    simp [hlink s] at hlast
  · exact h

/-- Outside the election a node sends nothing. -/
theorem receive_of_not_active [LinearOrder α] {me : α} {n : Node} {u : Token α}
    (hn : ¬ n.Active) : (receive me n u).2 = none := by
  cases n with
  | idle => exact absurd (Or.inl rfl) hn
  | candidate => exact absurd (Or.inr rfl) hn
  | leading =>
      cases u with
      | vote q => rfl
      | leader q =>
          rw [receive]
          split_ifs <;> rfl
  | crowned => cases u <;> rfl
  | follower => cases u <;> rfl

/-- A node that has started is idle again only after its own announcement. -/
theorem receive_ne_idle [LinearOrder α] {me : α} {n : Node} {u : Token α} (hn : n ≠ .idle)
    (hu : u ≠ .leader me) : (receive me n u).1 ≠ .idle := by
  cases n with
  | idle => exact absurd rfl hn
  | candidate =>
      cases u with
      | vote q =>
          rw [receive]
          split_ifs <;> simp
      | leader q =>
          have hq : q ≠ me := fun heq => hu (by rw [heq])
          simp [receive, hq]
  | leading =>
      cases u with
      | vote q => simp [receive]
      | leader q =>
          rw [receive]
          split_ifs <;> simp
  | crowned => cases u <;> simp [receive]
  | follower => simp [receive]

theorem Inv.started [DecidableEq ι] [LinearOrder α] (hid : Injective id) {a : Action ι}
    (h : Inv ring id top c) (hstarted : Started c)
    (hstep : step ring id c a = some c') : Started c' := by
  cases a with
  | timeout i =>
      rw [step] at hstep
      split at hstep
      · obtain rfl := Option.some.inj hstep
        exact ⟨i, by simp⟩
      · obtain rfl := Option.some.inj hstep
        exact hstarted
      · cases hstep
  | resend i =>
      rw [step] at hstep
      split at hstep
      · obtain rfl := Option.some.inj hstep
        exact ⟨i, by simp⟩
      · cases hstep
  | deliver i =>
      rw [step] at hstep
      split at hstep
      · cases hstep
      · rename_i u rest hlink
        obtain rfl := Option.some.inj hstep
        obtain ⟨p, hp⟩ := hstarted
        by_cases hpi : p = ring i
        · subst hpi
          refine ⟨ring i, ?_⟩
          rw [put_node, update_self]
          by_cases hu : u = .leader (id (ring i))
          · subst hu
            rcases h with ⟨h, -⟩ | ⟨s, h⟩ | h
            · obtain ⟨o, ho, -⟩ := h.link i _ (by rw [hlink]; exact List.mem_cons_self)
              cases ho
            · obtain ⟨-, ha, -⟩ := h.link_eq hlink
              rw [hid ha, h.node_top, receive, if_pos rfl]
              simp
            · rw [h.link i] at hlink
              cases hlink
          · exact receive_ne_idle hp hu
        · refine ⟨p, ?_⟩
          rwa [put_node, update_of_ne hpi]

variable [Finite ι] (hring : ring.IsCycleOn Set.univ) (hid : Injective id)

include hring

/-- Only `top` gets its own vote back. -/
theorem Travelling.eq_top (hid : Injective id)
    (h : Travelling ring id top i (.vote (id (ring i)))) : ring i = top := by
  by_contra hne
  obtain ⟨o, ho, hle⟩ := h
  have heq : ring i = o := hid (Token.vote.inj ho)
  rw [← heq, dist_next hring hne] at hle
  omega

/-- A follower does not get its own vote. -/
theorem Inv.ne_own [LE α] (hid : Injective id) (h : Inv ring id top c) (hq : .vote q ∈ c.link i)
    (hi : c.node (ring i) = .follower) : q ≠ id (ring i) := by
  rintro rfl
  have htopi := (h.travelling hq).eq_top hring hid
  rw [htopi] at hi
  rcases h with ⟨h, -⟩ | ⟨s, h⟩ | h
  · have hactive := h.node top
    simp [Node.Active, hi] at hactive
  · rw [h.node_top] at hi
    cases hi
  · rw [h.node_top] at hi
    cases hi

variable [LinearOrder α] (htop : ∀ i, id i ≤ id top)

include htop

/-- A vote that is passed on is not for a node beyond `top`. -/
theorem Travelling.receive (h : Travelling ring id top i (.vote q)) {n : Node} (hn : n.Active)
    (hne : q ≠ id (ring i)) :
    (receive (id (ring i)) n (.vote q)).1.Active ∧
      ∀ t ∈ (receive (id (ring i)) n (.vote q)).2, Travelling ring id top (ring i) t := by
  rcases receive_vote hn hne with ⟨hlt, heq⟩ | ⟨-, -, heq⟩ | ⟨-, -, heq⟩
  · rw [heq]
    refine ⟨hn, ?_⟩
    rintro t ⟨⟩
    obtain ⟨o, ho, hle⟩ := h
    have hnext : ring i ≠ top := by
      intro htopi
      rw [htopi, Token.vote.inj ho] at hlt
      exact absurd (htop o) hlt.not_ge
    refine ⟨o, ho, ?_⟩
    rw [dist_next hring hnext]
    omega
  · rw [heq]
    refine ⟨Or.inr rfl, ?_⟩
    rintro t ⟨⟩
    exact ⟨ring i, rfl, le_rfl⟩
  · rw [heq]
    exact ⟨Or.inr rfl, by rintro t ⟨⟩⟩

variable [DecidableEq ι]

include hid

theorem Voting.deliver {u : Token α} (h : Voting ring id top c) (hbacked : Backed id c)
    (hlink : c.link i = u :: rest) :
    Inv ring id top ((c.pop i rest).put (ring i) (RingElection.receive (id (ring i))
      (c.node (ring i)) u)) := by
  have hu : Travelling ring id top i u := h.link i u (by simp [hlink])
  have hn := h.node (ring i)
  have hvote := hu
  obtain ⟨o, rfl, -⟩ := hvote
  by_cases hown : o = ring i
  · subst hown
    have hring_top := hu.eq_top hring hid
    rw [receive_own hn, hring_top]
    exact Or.inr (Or.inl ⟨top, (h.pop hlink).elect hring⟩)
  · have hne : id o ≠ id (ring i) := fun heq => hown (hid heq)
    obtain ⟨hactive, hout⟩ := hu.receive hring htop hn hne
    exact Or.inl ⟨(h.pop hlink).put hactive hout, hbacked.receive hlink hn hne⟩

theorem Announcing.deliver [Nontrivial ι] {u : Token α} (h : Announcing ring id top s c)
    (hlink : c.link i = u :: rest) :
    Inv ring id top ((c.pop i rest).put (ring i) (RingElection.receive (id (ring i))
      (c.node (ring i)) u)) := by
  cases u with
  | vote q =>
      have hpop := h.pop_vote hlink
      have hle : dist ring top s ≤ dist ring top i := h.dist_le (by simp [hlink])
      have hu : Travelling ring id top i (.vote q) := h.travelling (by simp [hlink])
      refine Or.inr (Or.inl ⟨s, ?_⟩)
      by_cases hi : ring i = top
      · have hself : RingElection.receive (id (ring i)) (c.node (ring i)) (.vote q) =
            ((c.pop i rest).node (ring i), none) := by
          rw [pop_node, hi, h.node_top]
          rfl
        rw [hself, put_self]
        exact hpop
      · have hdist := dist_next hring hi
        have hn : (c.node (ring i)).Active := h.ahead (ring i) (by omega)
        have hne : q ≠ id (ring i) := by
          rintro rfl
          exact hi (hu.eq_top hring hid)
        obtain ⟨hactive, hout⟩ := hu.receive hring htop hn hne
        exact hpop.put (by omega) hactive hout
  | leader a =>
      obtain ⟨rfl, rfl, rfl⟩ := h.link_eq hlink
      by_cases hi : ring i = top
      · rw [hi, h.node_top, RingElection.receive, if_pos rfl]
        exact Or.inr (Or.inr (h.settle hring hi))
      · have hdist := dist_next hring hi
        have hn : (c.node (ring i)).Active := h.ahead (ring i) (by omega)
        rw [receive_leader hn fun heq => hi (hid heq).symm]
        exact Or.inr (Or.inl ⟨ring i, h.forward hring hi⟩)

omit [Finite ι] hring hid htop in
/-- A node that has not passed the announcement on may send its vote. -/
theorem Inv.vote (h : Inv ring id top c) (hn : (c.node i).Active) :
    Inv ring id top (c.put i (.candidate, some (.vote (id i)))) := by
  have hout : ∀ t ∈ some (Token.vote (id i)), Travelling ring id top i t := by
    rintro t ⟨⟩
    exact ⟨i, rfl, le_rfl⟩
  rcases h with ⟨hvoting, hbacked⟩ | ⟨s, h⟩ | h
  · exact Or.inl ⟨hvoting.put (Or.inr rfl) hout, hbacked.timeout⟩
  · have hitop : i ≠ top := by
      rintro rfl
      simp [Node.Active, h.node_top] at hn
    have hlt : dist ring top s < dist ring top i := by
      by_contra hle
      simp [Node.Active, h.passed i hitop (not_lt.mp hle)] at hn
    exact Or.inr (Or.inl ⟨s, h.put hlt (Or.inr rfl) hout⟩)
  · by_cases hitop : i = top
    · simp [Node.Active, hitop, h.node_top] at hn
    · simp [Node.Active, h.rest i hitop] at hn

/-- **Every step stays in a phase or enters the next one.** -/
theorem Inv.step [Nontrivial ι] {a : Action ι} (h : Inv ring id top c)
    (hstep : RingElection.step ring id c a = some c') : Inv ring id top c' := by
  cases a with
  | timeout i =>
      rw [RingElection.step] at hstep
      split at hstep
      · rename_i hidle
        obtain rfl := Option.some.inj hstep
        exact h.vote (Or.inl hidle)
      · obtain rfl := Option.some.inj hstep
        exact h
      · cases hstep
  | resend i =>
      rw [RingElection.step] at hstep
      split at hstep
      · rename_i hcandidate
        obtain rfl := Option.some.inj hstep
        exact h.vote (Or.inr hcandidate)
      · cases hstep
  | deliver i =>
      rw [RingElection.step] at hstep
      split at hstep
      · cases hstep
      · rename_i u rest hlink
        obtain rfl := Option.some.inj hstep
        rcases h with ⟨hvoting, hbacked⟩ | ⟨s, h⟩ | h
        · exact hvoting.deliver hring hid htop hbacked hlink
        · exact h.deliver hring hid htop hlink
        · rw [h.link i] at hlink
          cases hlink

variable [Nontrivial ι] {h : List (Config ι α × Action ι)}

theorem inv_of_run (run : Run (RingElection.step ring id) start h c) : Inv ring id top c :=
  run.invariant inv_start fun _ _ _ hinv hstep => hinv.step hring hid htop hstep

/-- **When a node has started and no token is left, `top` is crowned and every other
node follows.** -/
theorem settled_of_run (run : Run (RingElection.step ring id) start h c)
    (hstart : ∃ x i, (x, .timeout i) ∈ h) (hlink : ∀ i, c.link i = []) : Settled top c := by
  refine (inv_of_run hring hid htop run).settled ?_ hlink
  clear hlink
  induction run with
  | nil => simp at hstart
  | @snoc h c c' a run hstep ih =>
      have hinv : Inv ring id top c := inv_of_run hring hid htop run
      obtain ⟨x, i, hmem⟩ := hstart
      rcases List.mem_append.mp hmem with hmem | hmem
      · exact hinv.started hid (ih ⟨x, i, hmem⟩) hstep
      · obtain ⟨rfl, rfl⟩ := Prod.mk.inj (List.mem_singleton.mp hmem)
        rw [RingElection.step] at hstep
        split at hstep
        · obtain rfl := Option.some.inj hstep
          exact ⟨i, by simp⟩
        · rename_i hcand
          obtain rfl := Option.some.inj hstep
          exact ⟨i, by simp [hcand]⟩
        · cases hstep

end Invariant

end RingElection
