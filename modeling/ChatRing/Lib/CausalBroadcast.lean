import Mathlib.Data.Fintype.Basic
import Mathlib.Data.List.Range
import Mathlib.Logic.Relation
import Mathlib.Order.Lattice

/-!
# Causal broadcast with counting vectors

Processes broadcast messages and deliver each other's.  A message is named by its
sender and its place among the sender's messages.  It carries a vector that counts,
for every other process, the messages its sender had delivered before sending it,
and in its sender's own slot the messages sent before it.

A process may deliver a message as soon as the vector is below its own delivery
counts.  The rule compares with `≤` in every slot, the sender's slot included.  It is
safe because no message is delivered twice: then `Fifo` forces equality in the
sender's slot.

## Main definitions

* `Process` — a process: its delivery log, and the log it had at each of its sends.
* `stamp s m` — the vector of message `m`.
* `Step` — sending, and delivering by the rule.
* `HappensBefore s` — the causal order of messages.

## Main results

* `Inv.step` — the invariant, for every step.
* `Inv.mem_of_happensBefore` — delivery respects the causal order.
-/

namespace CausalBroadcast
variable {ι : Type*} [DecidableEq ι]

/-- A message: its sender and its place among the sender's messages. -/
abbrev Msg (ι : Type*) := ι × ℕ

/-- `past` holds, for each message sent so far, the log at the time of sending. -/
structure Process (ι : Type*) where
  log : List (Msg ι)
  past : List (List (Msg ι))

/-- How many messages of `j` are in the log. -/
def count (l : List (Msg ι)) (j : ι) : ℕ := l.countP (·.1 = j)

@[simp] theorem count_nil (j : ι) : count [] j = 0 := rfl

@[simp] theorem count_append (l₁ l₂ : List (Msg ι)) (j : ι) :
    count (l₁ ++ l₂) j = count l₁ j + count l₂ j := List.countP_append

@[simp] theorem count_singleton (m : Msg ι) (j : ι) :
    count [m] j = if m.1 = j then 1 else 0 := by
  by_cases h : m.1 = j <;> simp [count, h]

/-- The first `d` messages of a process are enough for a count of `d`. -/
theorem le_count_of_forall_mem {l : List (Msg ι)} {j : ι} {d : ℕ} (h : ∀ k < d, (j, k) ∈ l) :
    d ≤ count l j := by
  have hsub : (List.range d).map (Prod.mk j) ⊆ l.filter (·.1 = j) := by
    intro m hm
    obtain ⟨k, hk, rfl⟩ := List.mem_map.mp hm
    simpa using h k (List.mem_range.mp hk)
  have hnodup : ((List.range d).map (Prod.mk j)).Nodup :=
    List.nodup_range.map fun _ _ heq => (Prod.mk.inj heq).2
  have hlen := (List.subperm_of_subset hnodup hsub).length_le
  rwa [List.length_map, List.length_range, ← List.countP_eq_length_filter] at hlen

/-- From every sender the log holds an initial part of its messages, in order. -/
def Fifo (l : List (Msg ι)) : Prop :=
  ∀ j, l.filter (·.1 = j) = (List.range (count l j)).map (Prod.mk j)

@[simp] theorem fifo_nil : Fifo ([] : List (Msg ι)) := by simp [Fifo]

/-- In a FIFO log the counts decide membership. -/
theorem Fifo.mem_iff {l : List (Msg ι)} (h : Fifo l) {m : Msg ι} :
    m ∈ l ↔ m.2 < count l m.1 := by
  have hmem : m ∈ l ↔ m ∈ l.filter (·.1 = m.1) := by simp
  rw [hmem, h m.1]
  constructor
  · intro hm
    obtain ⟨k, hk, heq⟩ := List.mem_map.mp hm
    rw [← heq]
    exact List.mem_range.mp hk
  · intro hm
    exact List.mem_map.mpr ⟨m.2, List.mem_range.mpr hm, rfl⟩

theorem Fifo.append_singleton {l : List (Msg ι)} (h : Fifo l) {m : Msg ι}
    (hm : m.2 = count l m.1) : Fifo (l ++ [m]) := by
  intro j
  by_cases hj : m.1 = j
  · subst hj
    rw [List.filter_append, h m.1, count_append, count_singleton, if_pos rfl, List.range_succ,
      List.map_append, ← hm]
    simp
  · rw [List.filter_append, h j, count_append, count_singleton, if_neg hj]
    simp [hj]

theorem Fifo.of_append {l₁ l₂ : List (Msg ι)} (h : Fifo (l₁ ++ l₂)) : Fifo l₁ := by
  intro j
  have hj := h j
  rw [List.filter_append, count_append, List.range_add, List.map_append] at hj
  have hlen :
      (l₁.filter (·.1 = j)).length = ((List.range (count l₁ j)).map (Prod.mk j)).length := by
    rw [List.length_map, List.length_range, count, List.countP_eq_length_filter]
  exact (List.append_inj hj hlen).1

theorem Fifo.nodup {l : List (Msg ι)} (h : Fifo l) : l.Nodup := by
  rw [List.nodup_iff_count_le_one]
  intro m
  have hcount : List.count m l = List.count m (l.filter (·.1 = m.1)) := by
    rw [List.count_filter (by simp)]
  rw [hcount, h m.1]
  have hnodup : ((List.range (count l m.1)).map (Prod.mk m.1)).Nodup :=
    List.nodup_range.map fun _ _ heq => (Prod.mk.inj heq).2
  exact List.nodup_iff_count_le_one.mp hnodup m

/-! ## The protocol -/

/-- The vector a message carries. -/
def stamp (s : ι → Process ι) (m : Msg ι) : ι → ℕ := fun i =>
  if i = m.1 then m.2 else count ((s m.1).past.getD m.2 []) i

@[simp] theorem stamp_sender (s : ι → Process ι) (m : Msg ι) : stamp s m m.1 = m.2 := by
  simp [stamp]

/-- Broadcast the next message, remembering the log it depends on. -/
def send (s : ι → Process ι) (j : ι) : ι → Process ι :=
  Function.update s j ⟨(s j).log, (s j).past ++ [(s j).log]⟩

/-- Append a message to a delivery log. -/
def deliver (s : ι → Process ι) (i : ι) (m : Msg ι) : ι → Process ι :=
  Function.update s i ⟨(s i).log ++ [m], (s i).past⟩

@[simp] theorem log_send (s : ι → Process ι) (j i : ι) : (send s j i).log = (s i).log := by
  by_cases h : i = j
  · subst h; simp [send]
  · simp [send, h]

@[simp] theorem past_deliver (s : ι → Process ι) (i : ι) (m : Msg ι) (j : ι) :
    (deliver s i m j).past = (s j).past := by
  by_cases h : j = i
  · subst h; simp [deliver]
  · simp [deliver, h]

theorem past_send_self (s : ι → Process ι) (j : ι) :
    (send s j j).past = (s j).past ++ [(s j).log] := by simp [send]

theorem past_send_ne (s : ι → Process ι) {j i : ι} (h : i ≠ j) :
    (send s j i).past = (s i).past := by simp [send, h]

theorem log_deliver_self (s : ι → Process ι) (i : ι) (m : Msg ι) :
    (deliver s i m i).log = (s i).log ++ [m] := by simp [deliver]

theorem log_deliver_ne (s : ι → Process ι) {i j : ι} (m : Msg ι) (h : j ≠ i) :
    (deliver s i m j).log = (s j).log := by simp [deliver, h]

/-- A message that was sent keeps its past when another one is sent. -/
theorem past_send_getElem? (s : ι → Process ι) (j : ι) {m : Msg ι}
    (hm : m.2 < (s m.1).past.length) :
    (send s j m.1).past[m.2]? = (s m.1).past[m.2]? := by
  by_cases h : m.1 = j
  · rw [h, past_send_self, List.getElem?_append_left (by rw [← h]; exact hm)]
  · rw [past_send_ne s h]

theorem stamp_send (s : ι → Process ι) (j : ι) {m : Msg ι} (hm : m.2 < (s m.1).past.length) :
    stamp (send s j) m = stamp s m := by
  funext i
  simp only [stamp, List.getD_eq_getElem?_getD, past_send_getElem? s j hm]

@[simp] theorem stamp_deliver (s : ι → Process ι) (i : ι) (m m' : Msg ι) :
    stamp (deliver s i m) m' = stamp s m' := by
  funext k
  simp [stamp]

/-- The delivery rule, for a message that was sent and is new to the process. -/
structure CanDeliver (s : ι → Process ι) (i : ι) (m : Msg ι) : Prop where
  sent : m.2 < (s m.1).past.length
  fresh : m ∉ (s i).log
  ready : stamp s m ≤ count (s i).log

inductive Step : (ι → Process ι) → (ι → Process ι) → Prop
  | send (s : ι → Process ι) (j : ι) : Step s (send s j)
  | deliver (s : ι → Process ι) (i : ι) (m : Msg ι) (h : CanDeliver s i m) :
      Step s (deliver s i m)

/-! ## The invariant -/

structure Inv (s : ι → Process ι) : Prop where
  fifo : ∀ i, Fifo (s i).log
  sent : ∀ i, ∀ m : Msg ι, m ∈ (s i).log → m.2 < (s m.1).past.length
  /-- What a message counts was delivered before it. -/
  ordered : ∀ i l₁ m l₂, (s i).log = l₁ ++ m :: l₂ → stamp s m ≤ count l₁
  past_fifo : ∀ j, ∀ p ∈ (s j).past, Fifo p
  /-- Before its `k`-th message a process can have delivered only earlier ones of its own. -/
  past_own : ∀ j (k : ℕ) (p : List (Msg ι)), (s j).past[k]? = some p →
    ∀ m ∈ p, m.1 = j → m.2 < k

theorem inv_initial : Inv (fun _ : ι => (⟨[], []⟩ : Process ι)) where
  fifo := by simp
  sent := by simp
  ordered := by simp
  past_fifo := by simp
  past_own := by simp

theorem Inv.send {s : ι → Process ι} (h : Inv s) (j : ι) : Inv (send s j) where
  fifo := by intro i; rw [log_send]; exact h.fifo i
  sent := by
    intro i m hm
    rw [log_send] at hm
    have hlt := h.sent i m hm
    by_cases hj : m.1 = j
    · rw [hj] at hlt ⊢
      rw [past_send_self, List.length_append]
      omega
    · rwa [past_send_ne s hj]
  ordered := by
    intro i l₁ m l₂ hlog
    rw [log_send] at hlog
    have hm : m ∈ (s i).log := by simp [hlog]
    rw [stamp_send s j (h.sent i m hm)]
    exact h.ordered i l₁ m l₂ hlog
  past_fifo := by
    intro i p hp
    by_cases hi : i = j
    · subst hi
      rw [past_send_self, List.mem_append, List.mem_singleton] at hp
      rcases hp with hp | rfl
      · exact h.past_fifo i p hp
      · exact h.fifo i
    · rw [past_send_ne s hi] at hp
      exact h.past_fifo i p hp
  past_own := by
    intro i k p hp m hm hmi
    by_cases hi : i = j
    · subst hi
      rw [past_send_self] at hp
      rcases Nat.lt_or_ge k (s i).past.length with hk | hk
      · rw [List.getElem?_append_left hk] at hp
        exact h.past_own i k p hp m hm hmi
      · -- the new message is the last one, and its past is the current log
        rw [List.getElem?_append_right hk, List.getElem?_singleton] at hp
        split at hp
        · cases hp
          have := h.sent i m hm
          rw [hmi] at this
          omega
        · cases hp
    · rw [past_send_ne s hi] at hp
      exact h.past_own i k p hp m hm hmi

/-- The rule pins the sender's slot: the message is the next one of its sender. -/
theorem Inv.next_of_canDeliver {s : ι → Process ι} (h : Inv s) {i : ι} {m : Msg ι}
    (hc : CanDeliver s i m) : m.2 = count (s i).log m.1 := by
  have hle : m.2 ≤ count (s i).log m.1 := by
    have := hc.ready m.1
    rwa [stamp_sender] at this
  have hge : ¬ m.2 < count (s i).log m.1 := fun hlt => hc.fresh ((h.fifo i).mem_iff.mpr hlt)
  omega

theorem Inv.deliver {s : ι → Process ι} (h : Inv s) {i : ι} {m : Msg ι}
    (hc : CanDeliver s i m) : Inv (deliver s i m) where
  fifo := by
    intro i'
    by_cases hi : i' = i
    · subst hi
      rw [log_deliver_self]
      exact (h.fifo i').append_singleton (h.next_of_canDeliver hc)
    · rw [log_deliver_ne s m hi]
      exact h.fifo i'
  sent := by
    intro i' m' hm'
    rw [past_deliver]
    by_cases hi : i' = i
    · subst hi
      rw [log_deliver_self, List.mem_append, List.mem_singleton] at hm'
      rcases hm' with hm' | rfl
      · exact h.sent i' m' hm'
      · exact hc.sent
    · rw [log_deliver_ne s m hi] at hm'
      exact h.sent i' m' hm'
  ordered := by
    intro i' l₁ m' l₂ hlog
    rw [stamp_deliver]
    by_cases hi : i' = i
    · subst hi
      rw [log_deliver_self] at hlog
      rcases List.eq_nil_or_concat l₂ with rfl | ⟨l₂, x, rfl⟩
      · obtain ⟨rfl, hm⟩ := List.append_inj' hlog rfl
        cases hm
        exact hc.ready
      · have hlog' : (s i').log ++ [m] = (l₁ ++ m' :: l₂) ++ [x] := by simpa using hlog
        exact h.ordered i' l₁ m' l₂ (List.append_inj' hlog' rfl).1
    · rw [log_deliver_ne s m hi] at hlog
      exact h.ordered i' l₁ m' l₂ hlog
  past_fifo := by intro j p hp; rw [past_deliver] at hp; exact h.past_fifo j p hp
  past_own := by intro j k p hp; rw [past_deliver] at hp; exact h.past_own j k p hp

/-- **Every step of the protocol keeps the invariant.** -/
theorem Inv.step {s t : ι → Process ι} (h : Inv s) (hst : Step s t) : Inv t := by
  cases hst with
  | send j => exact h.send j
  | deliver i m hc => exact h.deliver hc

/-- Nobody delivers more messages of a process than it has sent. -/
theorem Inv.count_le {s : ι → Process ι} (h : Inv s) (i j : ι) :
    count (s i).log j ≤ (s j).past.length := by
  rcases Nat.eq_zero_or_pos (count (s i).log j) with hzero | hpos
  · omega
  · have hlast : (j, count (s i).log j - 1) ∈ (s i).log :=
      (h.fifo i).mem_iff.mpr (Nat.sub_lt hpos Nat.one_pos)
    have hsent : count (s i).log j - 1 < (s j).past.length := h.sent i _ hlast
    omega

/-- A delivered message stays deliverable, but for its being in the log. -/
theorem Inv.stamp_le_of_mem {s : ι → Process ι} (h : Inv s) {i : ι} {m : Msg ι}
    (hm : m ∈ (s i).log) : stamp s m ≤ count (s i).log := by
  obtain ⟨l₁, l₂, hlog⟩ := List.append_of_mem hm
  refine le_trans (h.ordered i l₁ m l₂ hlog) ?_
  intro j
  rw [hlog, count_append]
  exact Nat.le_add_right _ _

/-! ## The causal order -/

/-- `m₁` comes before `m₂` because their sender sent it earlier, or because the
sender of `m₂` had delivered it. -/
def DirectlyBefore (s : ι → Process ι) (m₁ m₂ : Msg ι) : Prop :=
  (m₁.1 = m₂.1 ∧ m₁.2 < m₂.2) ∨ m₁ ∈ (s m₂.1).past.getD m₂.2 []

def HappensBefore (s : ι → Process ι) : Msg ι → Msg ι → Prop :=
  Relation.TransGen (DirectlyBefore s)

/-- The vector of a message counts everything directly before it. -/
theorem Inv.lt_stamp {s : ι → Process ι} (h : Inv s) {m₁ m₂ : Msg ι}
    (hd : DirectlyBefore s m₁ m₂) : m₁.2 < stamp s m₂ m₁.1 := by
  rcases hd with ⟨hj, hlt⟩ | hmem
  · rwa [hj, stamp_sender]
  · rw [List.getD_eq_getElem?_getD] at hmem
    cases hp : (s m₂.1).past[m₂.2]? with
    | none => simp [hp] at hmem
    | some p =>
        simp only [hp, Option.getD_some] at hmem
        by_cases hj : m₁.1 = m₂.1
        · rw [hj, stamp_sender]
          exact h.past_own _ _ p hp m₁ hmem hj
        · have hfifo : Fifo p := h.past_fifo _ p (List.mem_of_getElem? hp)
          simp only [stamp, if_neg hj, List.getD_eq_getElem?_getD, hp, Option.getD_some]
          exact hfifo.mem_iff.mp hmem

/-- **Delivery respects the causal order**: whatever happened before a delivered
message was delivered earlier. -/
theorem Inv.mem_of_happensBefore {s : ι → Process ι} (h : Inv s) {i : ι} {m₁ m₂ : Msg ι}
    (hb : HappensBefore s m₁ m₂) {l₁ l₂ : List (Msg ι)} (hlog : (s i).log = l₁ ++ m₂ :: l₂) :
    m₁ ∈ l₁ := by
  have direct : ∀ {a b : Msg ι} {l l' : List (Msg ι)}, DirectlyBefore s a b →
      (s i).log = l ++ b :: l' → a ∈ l := by
    intro a b l l' hd hl
    have hfifo : Fifo l := Fifo.of_append (hl ▸ h.fifo i)
    exact hfifo.mem_iff.mpr (lt_of_lt_of_le (h.lt_stamp hd) (h.ordered i l b l' hl a.1))
  induction hb using Relation.TransGen.head_induction_on with
  | single hd => exact direct hd hlog
  | @head m m' hd _ ih =>
      obtain ⟨a, b, rfl⟩ := List.append_of_mem ih
      have hl : (s i).log = a ++ m' :: (b ++ m₂ :: l₂) := by simpa using hlog
      exact List.mem_append_left _ (direct hd hl)

end CausalBroadcast
