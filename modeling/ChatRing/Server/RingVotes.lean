import ChatRing.Server.CrashRing

/-!
# Whose vote can come back

A vote that is on the link of `i` was passed on by every server between its sender and `i`,
and each of them has a smaller ID.  So only the vote for the largest ID of the ring can come
back to its sender, whoever crashes, however often a vote is sent and whether frames are lost
or not: of all the servers of a ring, one can win an election.

The others can become leaders by a timeout that leaves them alone.  When no timeout fires while
an ELECTION frame is on its way, such a leader stands on links that are empty, and they stay so
until it is gone.

## Main results

* `eq_top_of_came` — the server whose own vote comes back has the largest ID.
* `CrashRing.atMostOneLeader` — a ring has at most one leader, as long as no leader timeout
  fires beside a leader or a frame.
-/

namespace ChatRing
open CText RingElection Function

/-! ## The way of a vote -/

section Way
variable {ι : Type*} {ring : Equiv.Perm ι} {id : ι → ℤ} {i top : ι} {q : ℤ}

/-- A vote for `q` has come to the link of `i` past smaller IDs. -/
def Came (ring : Equiv.Perm ι) (id : ι → ℤ) (i : ι) (q : ℤ) : Prop :=
  ∃ o k, q = id o ∧ (ring ^ k) o = i ∧ ∀ j, 0 < j → j ≤ k → id ((ring ^ j) o) < id o

theorem came_own : Came ring id i (id i) := ⟨i, 0, rfl, rfl, fun j hj hk => by omega⟩

/-- A larger ID is passed on. -/
theorem Came.next (h : Came ring id i q) (hlt : id (ring i) < q) : Came ring id (ring i) q := by
  obtain ⟨o, k, rfl, rfl, hsmaller⟩ := h
  have hsucc : (ring ^ (k + 1)) o = ring ((ring ^ k) o) := by
    rw [pow_succ', Equiv.Perm.mul_apply]
  refine ⟨o, k + 1, rfl, hsucc, fun j hj hk => ?_⟩
  by_cases hlast : j = k + 1
  · rw [hlast, hsucc]
    exact hlt
  · exact hsmaller j hj (by omega)

/-- **Whose vote comes back.**  It has passed all the others. -/
theorem eq_top_of_came [Finite ι] (hring : ring.IsCycleOn Set.univ) (hid : Injective id)
    (htop : ∀ j, id j ≤ id top) (h : Came ring id i (id (ring i))) : ring i = top := by
  obtain ⟨o, k, ho, hi, hsmaller⟩ := h
  obtain rfl : ring i = o := hid ho
  by_contra hne
  -- `top` is on the way, which has led round the whole ring
  have hdist : dist ring (ring i) top ≤ k := (dist_le_of_next_eq hring rfl).trans (dist_le hi)
  have hpos : 0 < dist ring (ring i) top := by
    by_contra hzero
    exact hne (eq_top_of_dist hring (not_lt.mp hzero)).symm
  have hless := hsmaller _ hpos hdist
  rw [pow_dist hring] at hless
  exact absurd (htop (ring i)) (by omega)

end Way

namespace CrashRing
variable {ι : Type*} {ring : Equiv.Perm ι} {socket inbound : ι → Socket} {x₀ x y : CrashRing ι}
  {i j top : ι} {s : Server} {b : Text} {frames : List Text}

/-- Server `i` is alive, and the leader of its list. -/
def Leads (x : CrashRing ι) (i : ι) : Prop := x.alive i = true ∧ (x.server i).self.leader = 1

instance (x : CrashRing ι) (i : ι) : Decidable (x.Leads i) :=
  inferInstanceAs (Decidable (_ ∧ _))

def AtMostOneLeader (x : CrashRing ι) : Prop := ∀ i j, x.Leads i → x.Leads j → i = j

/-- The block is a vote that has come to the link of `i`, or an announcement. -/
def Travels (ring : Equiv.Perm ι) (x₀ : CrashRing ι) (i : ι) (b : Text) : Prop :=
  ∃ o, b = frame (.leader (x₀.server o).self.id) ∨ b = frame (.vote (x₀.server o).self.id) ∧
    Came ring (fun i => (x₀.server i).self.id) i (x₀.server o).self.id

/-- A leader beside `top` leads on calm links. -/
structure Inv (ring : Equiv.Perm ι) (x₀ : CrashRing ι) (top : ι) (x : CrashRing ι) : Prop where
  id : ∀ i, (x.server i).self.id = (x₀.server i).self.id
  link : ∀ i, ∀ b ∈ x.link i, IsElection b → Travels ring x₀ i b
  leader : x.AtMostOneLeader
  calm : ∀ i ≠ top, x.Leads i → x.Calm

theorem mem_blocks_of_sentOn {sent : List Output} {fd : Socket} (h : b ∈ sentOn sent fd) :
    b ∈ blocks sent := by
  rw [mem_sentOn] at h
  exact List.mem_filterMap.mpr ⟨_, h, rfl⟩

variable [DecidableEq ι]

theorem leads_put : (x.put ring socket i s).Leads j ↔
    if j = i then x.alive i = true ∧ s.self.leader = 1 else x.Leads j := by
  by_cases hj : j = i
  · subst hj
    simp [Leads]
  · simp [Leads, hj]

/-- The frames of the election that a server sends are the only new ones on the links. -/
theorem elections_put (hsends : Sends (x.server i) s frames)
    (hb : b ∈ (x.put ring socket i s).link j) (helection : IsElection b) :
    b ∈ x.link j ∨ j = i ∧ b ∈ frames := by
  cases halive : x.alive (ring i) with
  | false =>
      rw [put_link_of_dead halive] at hb
      exact Or.inl hb
  | true =>
      rw [put_link_of_alive halive] at hb
      by_cases hj : j = i
      · subst hj
        rw [update_self, List.mem_append] at hb
        refine hb.imp_right fun hb => ⟨rfl, ?_⟩
        rw [← hsends.drop]
        exact List.mem_filter.mpr ⟨mem_blocks_of_sentOn hb, by simpa using helection⟩
      · rw [update_of_ne hj] at hb
        exact Or.inl hb

theorem Calm.put (hcalm : x.Calm) (hsends : Sends (x.server i) s []) :
    (x.put ring socket i s).Calm := by
  intro j
  apply List.filter_eq_nil_iff.mpr
  intro b hb helection
  have helection : IsElection b := by simpa using helection
  rcases elections_put hsends hb helection with hold | ⟨-, hnew⟩
  · have hmem : b ∈ elections (x.link j) := List.mem_filter.mpr ⟨hold, by simpa using helection⟩
    rw [hcalm j] at hmem
    cases hmem
  · cases hnew

/-- A server moves.  A new leader has no other beside it, and is `top` or alone. -/
theorem Inv.put (h : Inv ring x₀ top x) (hid : s.self.id = (x.server i).self.id)
    (hsends : Sends (x.server i) s frames) (hframes : ∀ b ∈ frames, Travels ring x₀ i b)
    (hlead : s.self.leader = 1 → x.Leads i ∨
      (∀ j, x.Leads j → j = i) ∧ (i ≠ top → x.Calm ∧ frames = []))
    (hquiet : ∀ j ≠ top, x.Leads j → frames = []) :
    Inv ring x₀ top (x.put ring socket i s) where
  id := by
    intro j
    by_cases hj : j = i
    · subst hj
      simpa [hid] using h.id j
    · simpa [hj] using h.id j
  link := by
    intro j b hb helection
    rcases elections_put hsends hb helection with hold | ⟨rfl, hnew⟩
    · exact h.link j b hold helection
    · exact hframes b hnew
  leader := by
    have hall : ∀ j k, (x.put ring socket i s).Leads j → (x.put ring socket i s).Leads k →
        k = i → j = k := by
      rintro j k hj hk rfl
      by_cases hjk : j = k
      · exact hjk
      · rw [leads_put, if_neg hjk] at hj
        rw [leads_put, if_pos rfl] at hk
        rcases hlead hk.2 with hold | ⟨hnone, -⟩
        · exact h.leader j k hj hold
        · exact hnone j hj
    intro j k hj hk
    by_cases hki : k = i
    · exact hall j k hj hk hki
    · by_cases hji : j = i
      · exact (hall k j hk hj hji).symm
      · rw [leads_put, if_neg hji] at hj
        rw [leads_put, if_neg hki] at hk
        exact h.leader j k hj hk
  calm := by
    intro j hj hlj
    have hcalm : x.Calm ∧ frames = [] := by
      rw [leads_put] at hlj
      split at hlj
      · rename_i hji
        subst hji
        rcases hlead hlj.2 with hold | ⟨-, halone⟩
        · exact ⟨h.calm j hj hold, hquiet j hj hold⟩
        · exact halone hj
      · exact ⟨h.calm j hj hlj, hquiet j hj hlj⟩
    obtain ⟨hcalm, rfl⟩ := hcalm
    exact hcalm.put hsends

/-- A server moves whose role stays. -/
theorem Inv.put_sameRole (h : Inv ring x₀ top x) (hi : x.alive i = true)
    (hrole : SameRole (x.server i) s) : Inv ring x₀ top (x.put ring socket i s) :=
  h.put hrole.id hrole.sends (by simp) (fun hlead => Or.inl ⟨hi, hrole.leader ▸ hlead⟩)
    fun _ _ _ => rfl

theorem Inv.kill (h : Inv ring x₀ top x) : Inv ring x₀ top (x.kill ring i) := by
  have halive : ∀ j, (x.kill ring i).Leads j → x.Leads j := by
    intro j hj
    by_cases hji : j = i
    · subst hji
      simp [Leads, CrashRing.kill] at hj
    · simpa [Leads, CrashRing.kill, hji] using hj
  have hlink : ∀ j, ∀ b ∈ (x.kill ring i).link j, b ∈ x.link j := by
    intro j b hb
    by_cases hj : j = ring.symm i
    · subst hj
      simp [CrashRing.kill] at hb
    · simpa [CrashRing.kill, hj] using hb
  refine ⟨h.id, fun j b hb => h.link j b (hlink j b hb),
    fun j k hj hk => h.leader j k (halive j hj) (halive k hk), fun j hj hlj k => ?_⟩
  have hcalm := h.calm j hj (halive j hlj) k
  rw [elections, List.filter_eq_nil_iff] at hcalm ⊢
  exact fun b hb => hcalm b (hlink k b hb)

/-- What a handler returned. -/
theorem Inv.after (h : Inv ring x₀ top x) {r : Except Fault Server}
    (hput : ∀ t, r = .ok t → Inv ring x₀ top (x.put ring socket i t)) :
    Inv ring x₀ top (x.after ring socket i r) := by
  cases r with
  | ok t => exact hput t rfl
  | error fault => exact h.kill

/-- A block leaves a link. -/
theorem Inv.pop (h : Inv ring x₀ top x) {rest : List Text} (hlink : x.link i = b :: rest) :
    Inv ring x₀ top { x with link := update x.link i rest } := by
  have hmem : ∀ j, ∀ u ∈ update x.link i rest j, u ∈ x.link j := by
    intro j u hu
    by_cases hj : j = i
    · subst hj
      rw [update_self] at hu
      exact hlink ▸ List.mem_cons_of_mem _ hu
    · rwa [update_of_ne hj] at hu
  refine ⟨h.id, fun j u hu => h.link j u (hmem j u hu), h.leader, fun j hj hlj k => ?_⟩
  have hcalm := h.calm j hj hlj k
  rw [elections, List.filter_eq_nil_iff] at hcalm ⊢
  exact fun u hu => hcalm u (hmem k u hu)

/-- A timer, when no frame is on its way and nobody leads. -/
theorem Inv.timer (h : Inv ring x₀ top x) {env env' : Env} {t : Server} (hi : x.alive i = true)
    (hnow : env'.now = env.now)
    (hcalm : x.TimesOut (.timer i env) → x.Calm ∧ ∀ j, ¬ x.Leads j)
    (ht : onTimer env' (x.server i) = .ok t) : Inv ring x₀ top (x.put ring socket i t) := by
  have hdue : (x.server i).LeaderOverdue env' ↔ (x.server i).LeaderOverdue env := by
    simp [Server.LeaderOverdue, TimedOut, hnow]
  obtain ⟨hid, hlead, votes, hsends, hvotes, hout⟩ := onTimer_role ht
  have hvoting : votes ≠ [] → ∀ j, ¬ x.Leads j := fun hne =>
    (hcalm ⟨(hout hne).1, hdue.mp (hout hne).2.1⟩).2
  refine h.put hid hsends ?_ ?_ ?_
  · intro b hb
    exact ⟨i, Or.inr ⟨by rw [hvotes b hb, h.id i], came_own⟩⟩
  · intro hl
    rcases hlead.mp hl with hold | ⟨hne, halone⟩
    · exact Or.inl ⟨hi, hold⟩
    · obtain ⟨hlinks, hnone⟩ := hcalm ⟨hne, hdue.mp halone.1⟩
      refine Or.inr ⟨fun j hj => absurd hj (hnone j), fun _ => ⟨hlinks, ?_⟩⟩
      by_contra hsome
      exact (hout hsome).2.2 halone
  · intro j hj hlj
    by_contra hsome
    exact hvoting hsome j hlj

variable [Finite ι] (hintact : Intact ring socket x₀.toNetwork)
  (hring : ring.IsCycleOn Set.univ)
  (htop : ∀ i, (x₀.server i).self.id ≤ (x₀.server top).self.id)

include hintact hring htop

/-- A block arrives. -/
theorem Inv.receive (h : Inv ring x₀ top x) {env : Env} {t : Server} {rest : List Text}
    (hi : x.alive (ring i) = true) (hlink : x.link i = b :: rest) (fd : Socket)
    (ht : handleSocketChange env (x.server (ring i)) fd b = .ok t) :
    Inv ring x₀ top
      (CrashRing.put ring socket { x with link := update x.link i rest } (ring i) t) := by
  have hpop := h.pop hlink
  by_cases helection : IsElection b
  · have hquiet : ∀ j ≠ top, ¬ x.Leads j := by
      intro j hj hlj
      have hnil := h.calm j hj hlj i
      simp [hlink, elections, helection] at hnil
    obtain ⟨o, rfl | ⟨rfl, hcame⟩⟩ := h.link i b (by simp [hlink]) helection
    · obtain ⟨hid, hlead, hsends⟩ := handleSocketChange_leader_role (hintact.id o) ht
      have hlead' : t.self.leader = 1 → x.Leads (ring i) := fun hl => ⟨hi, hlead ▸ hl⟩
      rcases hsends with hsends | hsends
      · exact hpop.put hid hsends (by simp) (fun hl => Or.inl (hlead' hl)) fun _ _ _ => rfl
      · refine hpop.put hid hsends (fun b hb => ⟨o, Or.inl (List.mem_singleton.mp hb)⟩)
          (fun hl => Or.inl (hlead' hl)) fun j hj hlj => absurd hlj (hquiet j hj)
    · obtain ⟨hid, ⟨-, hlead, hsends⟩ | ⟨hown, hlead, hsends⟩⟩ :=
        handleSocketChange_vote_role (hintact.id o) ht
      · have hlead' : t.self.leader = 1 → x.Leads (ring i) := fun hl => ⟨hi, hlead ▸ hl⟩
        rcases hsends with hsends | ⟨q, hq, hsends⟩
        · exact hpop.put hid hsends (by simp) (fun hl => Or.inl (hlead' hl)) fun _ _ _ => rfl
        · refine hpop.put hid hsends ?_ (fun hl => Or.inl (hlead' hl))
            fun j hj hlj => absurd hlj (hquiet j hj)
          intro b hb
          obtain rfl := List.mem_singleton.mp hb
          rcases hq with ⟨rfl, hlt⟩ | rfl
          · exact ⟨o, Or.inr ⟨rfl, hcame.next (by simpa [h.id] using hlt)⟩⟩
          · exact ⟨ring i, Or.inr ⟨by rw [h.id], came_own⟩⟩
      · have htopi : ring i = top := by
          refine eq_top_of_came hring hintact.id_injective htop ?_
          rwa [hown, h.id] at hcame
        have hnone : ∀ j, x.Leads j → j = ring i := by
          intro j hj
          by_contra hne
          exact hquiet j (htopi ▸ hne) hj
        rcases hsends with hsends | hsends
        · exact hpop.put hid hsends (by simp)
            (fun _ => Or.inr ⟨hnone, fun hne => absurd htopi hne⟩) fun _ _ _ => rfl
        · refine hpop.put hid hsends ?_ (fun _ => Or.inr ⟨hnone, fun hne => absurd htopi hne⟩)
            fun j hj hlj => absurd hlj (hquiet j hj)
          intro b hb
          exact ⟨ring i, Or.inl (by rw [List.mem_singleton.mp hb, h.id])⟩
  · exact hpop.put_sameRole hi (.of_handleSocketChange helection ht)

/-- **Every step keeps the invariant, unless a leader timeout fires beside a leader or a
frame.** -/
theorem Inv.step (h : Inv ring x₀ top x) {a : CrashAction ι}
    (hcalm : x.TimesOut a → x.Calm ∧ ∀ j, ¬ x.Leads j)
    (hstep : CrashRing.step ring socket inbound x a = some y) : Inv ring x₀ top y := by
  cases a with
  | timer i env =>
      rw [CrashRing.step] at hstep
      split at hstep
      · rename_i hi
        obtain rfl := Option.some.inj hstep
        exact h.after fun t ht => h.timer hi (by rfl) hcalm ht
      · cases hstep
  | deliver i env =>
      rw [CrashRing.step] at hstep
      split at hstep
      · cases hstep
      · rename_i received rest hlink
        split at hstep
        · rename_i hi
          obtain rfl := Option.some.inj hstep
          exact (h.pop hlink).after fun t ht => h.receive hintact hring htop hi hlink _ ht
        · cases hstep
  | crash i =>
      rw [CrashRing.step] at hstep
      split at hstep
      · obtain rfl := Option.some.inj hstep
        exact h.kill
      · cases hstep
  | disconnect i =>
      rw [CrashRing.step] at hstep
      split at hstep
      · rename_i hready
        obtain rfl := Option.some.inj hstep
        have hcut : Inv ring x₀ top { x with cut := update x.cut i true } :=
          ⟨h.id, h.link, h.leader, h.calm⟩
        exact hcut.after fun t ht => hcut.put_sameRole hready.1 (.of_disconnect ht)
      · cases hstep

end CrashRing

end ChatRing
