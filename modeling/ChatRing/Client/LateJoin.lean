import ChatRing.Client.Arrival

/-!
# Joining a group that has multicast before

A client that joins starts with `DELIVERED` all zero, while the vectors of the others
count from their own beginning.  It delivers a message at once only when the vector of the
message counts no more than the joiner has received since; a vector that counts a multicast
from before the join is never met.

## Main results

* `Group.late_join_iff` — all messages are delivered on receipt iff their vectors count
  only what the joiner received, which without duplicates means nothing from before the
  join.
-/

namespace ChatRing
open CText CausalBroadcast

namespace Group
variable {g₀ g g' x y : Group} {i : Fin maxGroupSize} {m : Msg (Fin maxGroupSize)} {stale : Clock}

/-- Client `i` completes its join: nothing was delivered, queued or received. -/
structure Joins (g₀ : Group) (i : Fin maxGroupSize) : Prop where
  fresh : Fresh (g₀.client i)
  received : g₀.received i = []

/-- Message `m` was multicast after the state `g₀`. -/
def After (g₀ : Group) (m : Msg (Fin maxGroupSize)) : Prop := (g₀.sent m.1).length ≤ m.2

instance (g₀ : Group) (m : Msg (Fin maxGroupSize)) : Decidable (After g₀ m) :=
  inferInstanceAs (Decidable (_ ≤ _))

/-- Client `i` receives `m` as a member that missed nothing since `g₀`: the message is new,
and whatever happened before it since then has been received. -/
structure OnTime (g₀ x : Group) (i : Fin maxGroupSize) (m : Msg (Fin maxGroupSize)) : Prop where
  after : After g₀ m
  first : m ∉ x.received i
  causal : ∀ m', x.HappensBefore m' m → After g₀ m' → m' ∈ x.received i

/-- The call that receives `m` delivers it. -/
def DeliveredAtOnce (x : Group) (i : Fin maxGroupSize) (m : Msg (Fin maxGroupSize))
    (stale : Clock) : Prop :=
  ∃ y n, x.step (.receive i m stale) = some y ∧ x.message m = some n ∧
    (y.client i).log = (x.client i).log ++ [n]

/-- The message has a node, whose vector counts no more than client `i` has received. -/
def CountsReceived (x : Group) (i : Fin maxGroupSize) (m : Msg (Fin maxGroupSize)) : Prop :=
  ∃ n, x.message m = some n ∧ ∀ j, n.dependency j ≤ count (x.received i) j

/-- The message has a node, whose vector counts no message of a client that multicast
before `g₀`. -/
def CountsNewOnly (g₀ x : Group) (m : Msg (Fin maxGroupSize)) : Prop :=
  ∃ n, x.message m = some n ∧ ∀ j, g₀.sent j ≠ [] → n.dependency j = 0

/-! ## Delivery on receipt -/

/-- The joiner holds nothing back, and has delivered what it received. -/
structure UpToDate (x : Group) (i : Fin maxGroupSize) : Prop where
  inv : x.Inv
  bufferHead : (x.client i).bufferHead = []
  delivered : ∀ j, (x.client i).delivered j = count (x.received i) j

theorem UpToDate.dependency_le_iff (h : x.UpToDate i) (n : HoldBackQueue) :
    n.dependency ≤ (x.client i).delivered ↔ ∀ j, n.dependency j ≤ count (x.received i) j := by
  rw [Pi.le_def]
  simp only [h.delivered]

/-- Such a client delivers a message at once when it has received what the vector counts. -/
theorem UpToDate.deliveredAtOnce_iff (h : x.UpToDate i)
    (hstep : x.step (.receive i m stale) = some y) :
    x.DeliveredAtOnce i m stale ↔ x.CountsReceived i m := by
  obtain ⟨buffer, d, hd, hy⟩ := h.inv.step_receive hstep
  have hlog : (y.client i).log = (x.client i).log ++ d.log := by
    rw [hy, client_afterReceive_self]
    rfl
  rw [DeliveredAtOnce, CountsReceived]
  constructor
  · rintro ⟨z, n, hz, hn, hlog'⟩
    rw [hstep] at hz
    cases hz
    rw [hlog, List.append_cancel_left_eq] at hlog'
    refine ⟨n, hn, ?_⟩
    cases hd with
    | rejected hm => cases hlog'
    | hold n' hm hq => cases hlog'
    | deliver n' hm hq hr =>
        cases hlog'
        exact (h.dependency_le_iff n).mp hr
  · rintro ⟨n, hn, hle⟩
    refine ⟨y, n, hstep, hn, ?_⟩
    rw [hlog]
    cases hd with
    | rejected hm => rw [hn] at hm; cases hm
    | deliver n' hm hq hr => rw [hn] at hm; cases hm; rfl
    | hold n' hm hq =>
        rw [hn] at hm
        cases hm
        exact absurd ((h.dependency_le_iff n).mpr hle) (hq h.bufferHead)

/-- Whatever else happens, the queue, the vector and the receipts of client `i` stay. -/
theorem step_other {a : GroupAction} (hstep : x.step a = some y)
    (ha : ∀ m stale, a ≠ .receive i m stale) :
    (y.client i).bufferHead = (x.client i).bufferHead ∧
      (y.client i).delivered = (x.client i).delivered ∧ y.received i = x.received i := by
  cases a with
  | multicast j userInput =>
      obtain ⟨-, -, rfl⟩ := step_multicast hstep
      by_cases hi : i = j
      · subst hi
        simp [afterMulticast, Client.multicast]
      · simp [afterMulticast, hi]
  | receive i' m stale =>
      have hi : i ≠ i' := by
        rintro rfl
        exact ha m stale rfl
      simp only [step] at hstep
      split at hstep
      · cases hstep
      · split at hstep
        · cases hstep
        · cases hstep
          simp [hi]
  | overwrite i' buffer =>
      simp only [step, Option.some.injEq] at hstep
      subst hstep
      by_cases hi : i = i'
      · subst hi
        simp
      · simp [hi]

theorem received_afterReceive_self (x : Group) (i : Fin maxGroupSize) (m : Msg (Fin maxGroupSize))
    (buffer : Text) (d : Delivery) :
    (x.afterReceive i m buffer d).received i = x.received i ++ [m] := by simp [afterReceive]

/-- A message whose vector counts received messages only is delivered. -/
theorem UpToDate.receive (h : x.UpToDate i) (hstep : x.step (.receive i m stale) = some y)
    (hcounts : x.CountsReceived i m) : y.UpToDate i := by
  obtain ⟨n, hn, hle⟩ := hcounts
  obtain ⟨buffer, d, hd, rfl⟩ := h.inv.step_receive hstep
  refine ⟨h.inv.afterReceive hd buffer, ?_, ?_⟩ <;> rw [client_afterReceive_self]
  · cases hd with
    | rejected hm => rw [hn] at hm; cases hm
    | deliver n' hm hq hr => rfl
    | hold n' hm hq =>
        rw [hn] at hm
        cases hm
        exact absurd ((h.dependency_le_iff n).mpr hle) (hq h.bufferHead)
  · intro j
    rw [received_afterReceive_self, count_append, count_singleton]
    cases hd with
    | rejected hm => rw [hn] at hm; cases hm
    | hold n' hm hq =>
        rw [hn] at hm
        cases hm
        exact absurd ((h.dependency_le_iff n).mpr hle) (hq h.bufferHead)
    | deliver n' hm hq hr =>
        show Function.update (x.client i).delivered m.1 ((x.client i).delivered m.1 + 1) j = _
        by_cases hj : j = m.1
        · rw [hj, Function.update_self, if_pos rfl, h.delivered]
          rfl
        · rw [Function.update_of_ne hj, if_neg (Ne.symm hj), h.delivered]
          rfl

/-- **A joiner that received all that the vectors count stays up to date.** -/
theorem UpToDate.step (h : x.UpToDate i) {a : GroupAction} (hstep : x.step a = some y)
    (hcounts : ∀ m stale, a = .receive i m stale → x.CountsReceived i m) : y.UpToDate i := by
  by_cases ha : ∀ m stale, a ≠ .receive i m stale
  · obtain ⟨hbufferHead, hdelivered, hreceived⟩ := step_other hstep ha
    refine ⟨h.inv.step a hstep, hbufferHead.trans h.bufferHead, fun j => ?_⟩
    rw [hdelivered, hreceived, h.delivered]
  · push Not at ha
    obtain ⟨m, stale, rfl⟩ := ha
    exact h.receive hstep (hcounts m stale rfl)

/-! ## What the vectors may count -/

/-- Nothing is received from the clients that multicast before the join. -/
def NothingOld (g₀ x : Group) (i : Fin maxGroupSize) : Prop :=
  ∀ j, g₀.sent j ≠ [] → count (x.received i) j = 0

/-- A message that is delivered comes from a client that multicast nothing before the
join: the first one of any other counts its predecessors, which the joiner never got. -/
theorem NothingOld.sent_eq_nil (h : NothingOld g₀ x i) (hinv : x.Inv) (hafter : After g₀ m)
    (hcounts : x.CountsReceived i m) : g₀.sent m.1 = [] := by
  by_contra hsent
  obtain ⟨n, hn, hle⟩ := hcounts
  have hown := hle m.1
  rw [hinv.stamp m n hn, stamp_sender, h m.1 hsent] at hown
  have hpos : 0 < (g₀.sent m.1).length := List.length_pos_iff.mpr hsent
  simp only [After] at hafter
  omega

theorem NothingOld.step (h : NothingOld g₀ x i) (hinv : x.Inv) {a : GroupAction}
    (hstep : x.step a = some y)
    (hcounts : ∀ m stale, a = .receive i m stale → After g₀ m ∧ x.CountsReceived i m) :
    NothingOld g₀ y i := by
  intro j hj
  by_cases ha : ∀ m stale, a ≠ .receive i m stale
  · rw [(step_other hstep ha).2.2]
    exact h j hj
  · push Not at ha
    obtain ⟨m, stale, rfl⟩ := ha
    obtain ⟨hafter, hc⟩ := hcounts m stale rfl
    obtain ⟨buffer, d, hd, rfl⟩ := hinv.step_receive hstep
    have hne : m.1 ≠ j := by
      rintro rfl
      exact hj (h.sent_eq_nil hinv hafter hc)
    rw [received_afterReceive_self, count_append, count_singleton, if_neg hne, h j hj]

/-- Then the vector of a delivered message is zero at their indices. -/
theorem NothingOld.countsNewOnly (h : NothingOld g₀ x i) (hinv : x.Inv)
    (hcounts : x.CountsReceived i m) : CountsNewOnly g₀ x m := by
  obtain ⟨n, hn, hle⟩ := hcounts
  refine ⟨n, hn, fun j hj => le_antisymm ?_ ?_⟩
  · have hj' := hle j
    rwa [h j hj] at hj'
  · rw [hinv.stamp m n hn j]
    exact Int.natCast_nonneg _

/-- What a client had delivered when it multicast is a message of the group. -/
def SeenSent (x : Group) : Prop :=
  ∀ m r n, x.sentMessage m = some r → n ∈ r.seen → ∃ m', x.message m' = some n

theorem message_eq_of_sent (h : y.sent = x.sent) : y.message = x.message := by
  funext m
  simp only [message, sentMessage, h]

theorem SeenSent.step (h : x.SeenSent) (hinv : x.Inv) {a : GroupAction}
    (hstep : x.step a = some y) : y.SeenSent := by
  have hsame : y.sent = x.sent → y.SeenSent := by
    intro hsent m r n hr hn
    rw [message_eq_of_sent hsent]
    exact h m r n (by simpa only [sentMessage, hsent] using hr) hn
  cases a with
  | multicast j userInput =>
      obtain ⟨-, -, rfl⟩ := step_multicast hstep
      intro m r n hr hn
      rw [sentMessage_afterMulticast] at hr
      split at hr
      · cases hr
        obtain ⟨m', -, hm'⟩ := hinv.log_sent j n hn
        exact ⟨m', message_afterMulticast hm' j userInput⟩
      · obtain ⟨m', hm'⟩ := h m r n hr hn
        exact ⟨m', message_afterMulticast hm' j userInput⟩
  | receive i' m stale =>
      obtain ⟨buffer, d, hd, rfl⟩ := hinv.step_receive hstep
      exact hsame rfl
  | overwrite i' buffer =>
      simp only [Group.step, Option.some.injEq] at hstep
      subst hstep
      exact hsame rfl

/-- Where nothing is delivered twice, a vector counts messages that happened before. -/
theorem happensBefore_of_lt_stamp (hx : x.Faithful) (hseen : x.SeenSent) {n : HoldBackQueue}
    (hn : x.message m = some n) {j : Fin maxGroupSize} {k : ℕ}
    (hk : k < CausalBroadcast.stamp x.abs m j) : x.HappensBefore (j, k) m := by
  refine Relation.TransGen.single ?_
  by_cases hj : j = m.1
  · subst hj
    rw [stamp_sender] at hk
    exact Or.inl ⟨rfl, hk⟩
  · obtain ⟨r, hr, -⟩ := Option.bind_eq_some_iff.mp hn
    have hpast : (x.abs m.1).past[m.2]? = some (r.seen.map msgId) := by
      have hsent : (x.sent m.1)[m.2]? = some r := hr
      rw [abs_past, List.getElem?_map, hsent]
      rfl
    rw [CausalBroadcast.stamp, if_neg hj, List.getD_eq_getElem?_getD, hpast, Option.getD_some] at hk
    have hfifo : Fifo (r.seen.map msgId) := hx.abs_inv.past_fifo m.1 _ (List.mem_of_getElem? hpast)
    obtain ⟨n', hn', hid⟩ := List.mem_map.mp ((hfifo.mem_iff (m := (j, k))).mpr hk)
    obtain ⟨m', hm'⟩ := hseen m r n' hr hn'
    rw [hx.inv.msgId_eq hm'] at hid
    exact Or.inr ⟨r, n', hr, hid ▸ hm', hn'⟩

/-- A member that missed nothing has received all that the vector of a message counts,
when it counts nothing from before the join. -/
theorem OnTime.countsReceived (h : OnTime g₀ x i m) (hx : x.Faithful) (hseen : x.SeenSent)
    (hnew : CountsNewOnly g₀ x m) : x.CountsReceived i m := by
  obtain ⟨n, hn, hzero⟩ := hnew
  refine ⟨n, hn, fun j => ?_⟩
  by_cases hj : g₀.sent j = []
  · rw [hx.inv.stamp m n hn j]
    refine Int.ofNat_le.mpr (le_count_of_forall_mem fun k hk => ?_)
    exact h.causal (j, k) (happensBefore_of_lt_stamp hx hseen hn hk) (by simp [After, hj])
  · rw [hzero j hj]
    exact Int.natCast_nonneg _

/-- What holds of all receipts of client `i`, as a property of steps. -/
private theorem forall_receipts_iff {h : List (Group × GroupAction)}
    {P : Group → Msg (Fin maxGroupSize) → Clock → Prop} :
    (∀ x m stale, (x, .receive i m stale) ∈ h → P x m stale) ↔
      ∀ x a, (x, a) ∈ h → ∀ m stale, a = .receive i m stale → P x m stale := by
  constructor
  · rintro hall x a hmem m stale rfl
    exact hall x m stale hmem
  · intro hall x m stale hmem
    exact hall x _ hmem m stale rfl

/-- **A late joiner delivers everything on receipt exactly when the vectors count only what
it has received.**  Where no client receives a message twice, that means: exactly when no
vector counts a message of a client that multicast before the join. -/
theorem late_join_iff (selfId : Fin maxGroupSize → ℤ) {h₀ h : List (Group × GroupAction)}
    (run₀ : Run step (initial selfId) h₀ g₀) (hjoin : g₀.Joins i) (run : Run step g₀ h g)
    (hontime : ∀ x m stale, (x, .receive i m stale) ∈ h → OnTime g₀ x i m) :
    ((∀ x m stale, (x, .receive i m stale) ∈ h → x.DeliveredAtOnce i m stale) ↔
        ∀ x m stale, (x, .receive i m stale) ∈ h → x.CountsReceived i m) ∧
      ((∀ x a, (x, a) ∈ h₀ ++ h → x.FirstReceipt a) →
        ((∀ x m stale, (x, .receive i m stale) ∈ h → x.DeliveredAtOnce i m stale) ↔
          ∀ x m stale, (x, .receive i m stale) ∈ h → CountsNewOnly g₀ x m)) := by
  have hinv : g₀.Inv := run₀.invariant (inv_initial selfId) fun x a y hx => hx.step a
  have hdate : g₀.UpToDate i := by
    refine ⟨hinv, hjoin.fresh.bufferHead, fun j => ?_⟩
    rw [hjoin.fresh.delivered, hjoin.received]
    rfl
  have hcounts : (∀ x m stale, (x, .receive i m stale) ∈ h → x.DeliveredAtOnce i m stale) ↔
      ∀ x m stale, (x, .receive i m stale) ∈ h → x.CountsReceived i m := by
    rw [forall_receipts_iff, forall_receipts_iff]
    refine run.forall_steps_iff (I := fun x => x.UpToDate i) (B := fun _ _ => True) hdate
      (fun _ _ _ => trivial) ?_ ?_
    · intro x a y hx _ hc hstep
      exact hx.step hstep hc
    · intro x a y hx _ hstep
      refine forall₂_congr fun m stale => forall_congr' fun ha => ?_
      subst ha
      exact hx.deliveredAtOnce_iff hstep
  refine ⟨hcounts, fun hfirst => ?_⟩
  have hstart : g₀.Faithful ∧ g₀.SeenSent := by
    refine run₀.guarded (P := fun x => x.Faithful ∧ x.SeenSent) (C := FirstReceipt)
      ⟨faithful_initial selfId, ?_⟩ ?_ fun x a hmem => hfirst x a (List.mem_append_left _ hmem)
    · intro m r n hr
      simp [sentMessage, initial] at hr
    · rintro x a y ⟨hx, hseen⟩ ha hstep
      exact ⟨hx.step (hx.inv.not_redelivers ha) hstep, hseen.step hx.inv hstep⟩
  rw [hcounts, forall_receipts_iff, forall_receipts_iff]
  refine run.forall_steps_iff
    (I := fun x => (x.Faithful ∧ x.SeenSent) ∧ x.UpToDate i ∧ NothingOld g₀ x i)
    (B := fun x a => x.FirstReceipt a ∧ ∀ m stale, a = .receive i m stale → OnTime g₀ x i m)
    ⟨hstart, hdate, fun j _ => by rw [hjoin.received]; rfl⟩ ?_ ?_ ?_
  · exact fun x a hmem => ⟨hfirst x a (List.mem_append_right _ hmem),
      forall_receipts_iff.mp hontime x a hmem⟩
  · rintro x a y ⟨⟨hx, hseen⟩, hdate, hold⟩ ⟨ha, hon⟩ hnew hstep
    have hc : ∀ m stale, a = .receive i m stale → x.CountsReceived i m :=
      fun m stale heq => (hon m stale heq).countsReceived hx hseen (hnew m stale heq)
    exact ⟨⟨hx.step (hx.inv.not_redelivers ha) hstep, hseen.step hx.inv hstep⟩,
      hdate.step hstep hc,
      hold.step hx.inv hstep fun m stale heq => ⟨(hon m stale heq).after, hc m stale heq⟩⟩
  · rintro x a y ⟨⟨hx, hseen⟩, hdate, hold⟩ ⟨ha, hon⟩ hstep
    refine forall₂_congr fun m stale => forall_congr' fun heq => ?_
    exact ⟨hold.countsNewOnly hx.inv, (hon m stale heq).countsReceived hx hseen⟩

/-! ## One multicast before the join -/

/-- Before a message whose sender had delivered nothing come only its earlier ones. -/
private theorem happensBefore_of_blind {m' : Msg (Fin maxGroupSize)} (hb : x.HappensBefore m' m)
    (hblind : ∀ k ≤ m.2, ((x.sentMessage (m.1, k)).all fun r => r.seen = []) = true) :
    m'.1 = m.1 ∧ m'.2 < m.2 := by
  have hdirect : ∀ {b c : Msg (Fin maxGroupSize)}, x.DirectlyBefore b c →
      ((x.sentMessage c).all fun r => r.seen = []) = true → b.1 = c.1 ∧ b.2 < c.2 := by
    rintro b c (h | ⟨r, n, hr, -, hn⟩) hall
    · exact h
    · simp only [hr, Option.all_some, decide_eq_true_eq] at hall
      rw [hall] at hn
      cases hn
  induction hb with
  | single hd => exact hdirect hd (hblind _ le_rfl)
  | @tail b c _ hd ih =>
      obtain ⟨hsender, hlt⟩ := hdirect hd (hblind _ le_rfl)
      have hprev := ih fun k hk => hsender ▸ hblind k (hk.trans hlt.le)
      exact ⟨hprev.1.trans hsender, hprev.2.trans hlt⟩

private def hello : List GroupAction := [.multicast 0 (text "hi\n")]

private def joined : Group := (exec step (initial 0) hello).get (by decide +kernel)

private theorem run_hello : Run step (initial 0) (trace step (initial 0) hello) joined :=
  Run.of_exec (Option.some_get _).symm

private theorem joins_joined : joined.Joins 1 := by
  have hfields : ((joined.client 1).delivered = 0 ∧ (joined.client 1).bufferHead = [] ∧
      (joined.client 1).log = []) ∧ joined.received 1 = [] := by decide +kernel
  exact ⟨⟨hfields.1.1, hfields.1.2.1, hfields.1.2.2⟩, hfields.2⟩

/-- Client 0 multicasts again, and client 1 receives it. -/
private def again : Group :=
  (step joined (.multicast 0 (text "ho\n"))).get (by decide +kernel)

private def againEnd : Group := (step again (.receive 1 (0, 1) 0)).get (by decide +kernel)

/-- Client 2, which received nothing, multicasts, and client 1 receives it. -/
private def other : Group :=
  (step joined (.multicast 2 (text "yes\n"))).get (by decide +kernel)

private def otherEnd : Group := (step other (.receive 1 (2, 0) 0)).get (by decide +kernel)

private def againSteps : List (Group × GroupAction) :=
  [(joined, .multicast 0 (text "ho\n")), (again, .receive 1 (0, 1) 0)]

private def otherSteps : List (Group × GroupAction) :=
  [(joined, .multicast 2 (text "yes\n")), (other, .receive 1 (2, 0) 0)]

private theorem onTime_again : OnTime joined again 1 (0, 1) := by
  have hstate : (joined.sent 0).length = 1 ∧ (0, 1) ∉ again.received 1 ∧
      ∀ k ≤ 1, ((again.sentMessage (0, k)).all fun r => r.seen = []) = true := by decide +kernel
  obtain ⟨hlen, hfirst, hblind⟩ := hstate
  refine ⟨hlen.le, hfirst, ?_⟩
  intro m' hb hafter
  obtain ⟨hsender, hlt⟩ := happensBefore_of_blind hb hblind
  rw [After, hsender, hlen] at hafter
  omega

private theorem onTime_other : OnTime joined other 1 (2, 0) := by
  have hstate : (joined.sent 2).length = 0 ∧ (2, 0) ∉ other.received 1 ∧
      ∀ k ≤ 0, ((other.sentMessage (2, k)).all fun r => r.seen = []) = true := by decide +kernel
  obtain ⟨hlen, hfirst, hblind⟩ := hstate
  refine ⟨hlen.le, hfirst, ?_⟩
  intro m' hb _
  exact absurd (happensBefore_of_blind hb hblind).2 (Nat.not_lt_zero _)

/-- The second message of client 0 counts the first one, which client 1 never gets: it is
held back. -/
theorem second_message_never_met :
    Run step (initial 0) (trace step (initial 0) hello) joined ∧ joined.Joins 1 ∧
      Run step joined againSteps againEnd ∧ OnTime joined again 1 (0, 1) ∧
        (againEnd.client 1).log = [] ∧
          (againEnd.client 1).bufferHead.length = 1 ∧ ¬ again.DeliveredAtOnce 1 (0, 1) 0 := by
  have hrun : Run step joined againSteps againEnd :=
    .cons (Option.some_get _).symm (.cons (Option.some_get _).symm .nil)
  have hend : (againEnd.client 1).log = [] ∧ (againEnd.client 1).bufferHead.length = 1 := by
    decide +kernel
  refine ⟨run_hello, joins_joined, hrun, onTime_again, hend.1, hend.2, ?_⟩
  rintro ⟨y, n, hy, -, hlog⟩
  obtain rfl : y = againEnd := Option.some.inj (hy.symm.trans (Option.some_get _).symm)
  rw [hend.1] at hlog
  exact absurd hlog.symm (by simp)

/-- What client 2 multicasts counts nothing, and client 1 delivers it. -/
theorem late_join_iff_other :
    (otherEnd.client 1).log.length = 1 ∧
      ((∀ x m stale, (x, .receive 1 m stale) ∈ otherSteps → x.DeliveredAtOnce 1 m stale) ↔
        ∀ x m stale, (x, .receive 1 m stale) ∈ otherSteps → x.CountsReceived 1 m) := by
  refine ⟨by decide +kernel, (late_join_iff 0 run_hello joins_joined
    (.cons (Option.some_get _).symm (.cons (t := otherEnd) (Option.some_get _).symm .nil)) ?_).1⟩
  intro x m stale hmem
  rcases List.mem_cons.mp hmem with h | h
  · cases h
  · cases List.mem_singleton.mp h
    exact onTime_other

end Group
end ChatRing
