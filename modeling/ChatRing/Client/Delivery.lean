import ChatRing.Client.Receive

/-!
# What `deliver_messages` delivers

`Delivers v d w` is a loop without a queue: the messages `d` are delivered one after
another, each when its dependencies are met, and take `DELIVERED` from `v` to `w`.  The
loop of `deliver_messages` is one on a prefix of the queue.  It advances its cursor first
and then removes by clock index; since the cursor starts at the head, the first node with
the index just delivered is the head itself, and cursor and head stay together.

## Main results

* `Delivers.eq_add_count` — the final vector counts the messages delivered.
* `deliverMessages_delivers` — the queue is split into what is delivered and what is kept.
-/

namespace ChatRing
open CText

/-- The messages of `d` can be delivered in this order. -/
inductive Delivers : Clock → List HoldBackQueue → Clock → Prop
  | nil {v : Clock} : Delivers v [] v
  | cons {v v' w : Clock} {m : HoldBackQueue} {d : List HoldBackQueue} (hready : m.dependency ≤ v)
      (hbump : bump v m.clkIndex = .ok v') (hd : Delivers v' d w) : Delivers v (m :: d) w

/-- How many messages of each index the list holds. -/
def countIndices (d : List HoldBackQueue) : Clock :=
  fun i => ((d.countP fun m => m.clkIndex = ((i : ℕ) : ℤ) : ℕ) : ℤ)

namespace Delivers
variable {v w : Clock} {d : List HoldBackQueue}

/-- **The vector grows by the number of messages delivered of each index.** -/
theorem eq_add_count (h : Delivers v d w) : w = v + countIndices d := by
  induction h with
  | nil =>
      funext i
      simp [countIndices]
  | @cons v v' w m d hready hbump hd ih =>
      funext i
      rw [ih, Pi.add_apply, Pi.add_apply, bump_eq_ok hbump i, countIndices, countIndices,
        List.countP_cons]
      by_cases hi : m.clkIndex = (i : ℕ)
      · simp only [hi, decide_true, if_true, Nat.cast_add, Nat.cast_one]
        omega
      · simp [hi]

/-- The beginning of a delivery is one. -/
theorem take {m : HoldBackQueue} {d₁ d₂ : List HoldBackQueue} (h : Delivers v (d₁ ++ m :: d₂) w) :
    ∃ u, Delivers v d₁ u ∧ m.dependency ≤ u := by
  induction d₁ generalizing v with
  | nil =>
      cases h with
      | cons hready hbump hd => exact ⟨v, nil, hready⟩
  | cons x d₁ ih =>
      cases h with
      | cons hready hbump hd =>
          obtain ⟨u, hu, hm⟩ := ih hd
          exact ⟨u, cons hready hbump hu, hm⟩

/-- Every message is delivered when its dependencies are met. -/
theorem ready (h : Delivers v d w) {m : HoldBackQueue} {d₁ d₂ : List HoldBackQueue}
    (hd : d = d₁ ++ m :: d₂) : m.dependency ≤ v + countIndices d₁ := by
  subst hd
  obtain ⟨u, hu, hm⟩ := h.take
  exact hu.eq_add_count ▸ hm

/-- Delivering a message is seen in the vector. -/
theorem eq_nil (h : Delivers v d v) : d = [] := by
  cases h with
  | nil => rfl
  | @cons _ v' _ m d hready hbump hd =>
      obtain ⟨h₀, hlt⟩ := bump_isOk_iff.mp ⟨v', hbump⟩
      obtain ⟨k, hk⟩ := Int.eq_ofNat_of_zero_le h₀
      have hi : k < maxGroupSize := by omega
      have hone := bump_eq_ok hbump ⟨k, hi⟩
      rw [if_pos hk] at hone
      have hrest := congrFun hd.eq_add_count ⟨k, hi⟩
      simp only [Pi.add_apply, countIndices] at hrest
      omega

end Delivers

/-- Whatever the queue holds, a run of the loop that ends has delivered what it logs. -/
theorem delivers_of_deliverLoop {cursor head : List HoldBackQueue} {v : Clock} {r : Delivery}
    (h : deliverLoop cursor head v = .ok r) :
    Delivers v r.log r.delivered ∧ (r.log = [] → r.head = head) := by
  induction cursor generalizing head v r with
  | nil =>
      cases h
      exact ⟨.nil, fun _ => rfl⟩
  | cons m cursor ih =>
      by_cases hready : m.dependency ≤ v
      · rw [deliverLoop, if_pos ((arrayCompare_le_zero_iff _ _).mpr hready)] at h
        obtain ⟨v', hbump, h⟩ := Except.bind_eq_ok.mp h
        obtain ⟨r', hloop, h⟩ := Except.bind_eq_ok.mp h
        cases h
        exact ⟨.cons hready hbump (ih hloop).1, by simp⟩
      · rw [deliverLoop, if_neg (mt (arrayCompare_le_zero_iff _ _).mp hready)] at h
        cases h
        exact ⟨.nil, fun _ => rfl⟩

/-- With the cursor at the head of a queue, the loop removes what it delivers. -/
theorem deliverLoop_delivers (q : List HoldBackQueue) (hq : ∀ m ∈ q, InRange m.clkIndex)
    (v : Clock) : ∃ d r w, deliverLoop q q v = .ok ⟨r, w, d⟩ ∧ d ++ r = q ∧ Delivers v d w ∧
      ∀ m ∈ r.head?, ¬ m.dependency ≤ w := by
  induction q generalizing v with
  | nil => exact ⟨[], [], v, rfl, rfl, .nil, by simp⟩
  | cons m q ih =>
      by_cases hready : m.dependency ≤ v
      · obtain ⟨v', hbump⟩ := bump_isOk_iff.mpr (hq m List.mem_cons_self)
        obtain ⟨d, r, w, hloop, hsplit, hd, hr⟩ :=
          ih (fun x hx => hq x (List.mem_cons_of_mem m hx)) v'
        refine ⟨m :: d, r, w, ?_, ?_, .cons hready hbump hd, hr⟩
        · rw [deliverLoop, if_pos ((arrayCompare_le_zero_iff _ _).mpr hready), hbump,
            removeFromHoldbackQueue, if_pos rfl, Except.ok_bind, hloop]
          rfl
        · rw [List.cons_append, hsplit]
      · refine ⟨[], m :: q, v, ?_, rfl, .nil, ?_⟩
        · rw [deliverLoop, if_neg (mt (arrayCompare_le_zero_iff _ _).mp hready)]
        · rintro x hx
          cases hx
          exact hready

/-- **`deliver_messages` delivers a prefix of the queue in order and returns the rest of
it**: each message is delivered when its dependencies are met, the first one kept is not
deliverable, and the vector counts the messages delivered. -/
theorem deliverMessages_delivers {q : List HoldBackQueue} (hne : q ≠ [])
    (hq : ∀ m ∈ q, InRange m.clkIndex) (v : Clock) {cleanMessage : Text}
    (hmessage : (scanGroup cleanMessage).isSome) :
    ∃ d r w, deliverMessages q v cleanMessage = .ok ⟨r, w, d⟩ ∧ d ++ r = q ∧
      (∀ d₁ m d₂, d = d₁ ++ m :: d₂ → m.dependency ≤ v + countIndices d₁) ∧
      (∀ m ∈ r.head?, ¬ m.dependency ≤ w) ∧ w = v + countIndices d := by
  obtain ⟨d, r, w, hloop, hsplit, hd, hr⟩ := deliverLoop_delivers q hq v
  refine ⟨d, r, w, ?_, hsplit, fun d₁ m d₂ => hd.ready, hr, hd.eq_add_count⟩
  obtain ⟨f, hf⟩ := Option.isSome_iff_exists.mp hmessage
  obtain ⟨m, q, rfl⟩ := List.exists_cons_of_ne_nil hne
  simp only [deliverMessages, hf]
  exact hloop

/-! ## Two messages of one client and one that waits -/

private def queued : List HoldBackQueue :=
  [⟨100, 0, text "first", 0⟩, ⟨100, 0, text "second", fun i => if i = 0 then 1 else 0⟩,
    ⟨300, 2, text "third", fun i => if i = 1 then 1 else 0⟩]

private def trigger : Text := text
  "\n\tGROUP_ID:0\n\tSENDER_ID:300\n\tSENDER_CLK_INDEX:2\n\tDEPS:0,1,0\n\tMESSAGE:third"

theorem deliverMessages_delivers_queued :
    (deliverMessages queued 0 trigger).map Delivery.log = .ok (queued.take 2) ∧
      ∃ d r w, deliverMessages queued 0 trigger = .ok ⟨r, w, d⟩ ∧ d ++ r = queued ∧
        (∀ d₁ m d₂, d = d₁ ++ m :: d₂ → m.dependency ≤ 0 + countIndices d₁) ∧
        (∀ m ∈ r.head?, ¬ m.dependency ≤ w) ∧ w = 0 + countIndices d :=
  ⟨by decide +kernel, deliverMessages_delivers (by decide) (by decide) 0 (by decide +kernel)⟩

end ChatRing
