import ChatRing.Server.Eviction

/-!
# What is left to do

A cluster is at rest when its leader lists servers that are alive and no others, and they have
read what they were told.  Every action of the protocol brings it nearer, and at the end of every
run some actions bring it there.

## Main results

* `Cluster.Inv.left_step` — no action makes more work.
* `Cluster.exists_completion` — how many steps lead to rest.
-/

namespace ChatRing
open CText CyclicList Function

namespace Cluster
variable {ι : Type*} {kind : ι → Announcement} {addr : ι → Text} {inbound : ι → Socket}
  {c₀ c d : Cluster ι} {i k m : ι} {a b : List ServerInfo} {x : ServerInfo} {t : Server}

/-- The leader lists servers that are alive, and they have read everything. -/
structure AtRest (c : Cluster ι) : Prop where
  alive : ∀ i, c.fd i ≠ none → c.alive i
  link : ∀ i, c.link i = []

/-! ## The work -/

/-- What is left to do for server `i`: the messages to read, three steps more when the leader has
not connected to it, and one to remove it when it has crashed.  One counts for being alive. -/
def leftAt (c : Cluster ι) (i : ι) : ℕ :=
  if c.alive i then (c.link i).length + (c.fd i).elim 4 fun _ => 1 else (c.fd i).elim 0 fun _ => 1

theorem leftAt_congr (halive : d.alive i = c.alive i) (hfd : d.fd i = c.fd i)
    (hlink : d.link i = c.link i) : d.leftAt i = c.leftAt i := by
  rw [leftAt, leftAt, halive, hfd, hlink]

/-- One more message. -/
theorem leftAt_le_succ (frame : Text) (halive : d.alive i = c.alive i) (hfd : d.fd i = c.fd i)
    (hlink : d.link i = c.link i ++ [frame]) : d.leftAt i ≤ c.leftAt i + 1 := by
  rw [leftAt, leftAt, halive, hfd, hlink]
  split
  · simp
    omega
  · omega

variable [Fintype ι]

def left (c : Cluster ι) : ℕ := ∑ i, c.leftAt i

/-- How many servers are alive. -/
def living (c : Cluster ι) : ℕ := (Finset.univ.filter fun i => c.alive i = true).card

theorem living_le_left (c : Cluster ι) : c.living ≤ c.left := by
  rw [living, Finset.card_filter, left]
  refine Finset.sum_le_sum fun i _ => ?_
  rw [leftAt]
  split
  · cases c.fd i with
    | none => simp
    | some k => simp
  · simp

theorem left_congr (h : ∀ j, d.leftAt j = c.leftAt j) : d.left = c.left :=
  Finset.sum_congr rfl fun j _ => h j

/-- Work is taken off at one server, and one message comes to another at most. -/
theorem left_le_of {n : ℕ} {B : ι → Prop} (hB : ∀ j k, B j → B k → j = k)
    (hm : d.leftAt m + (n + 1) ≤ c.leftAt m)
    (hother : ∀ j, j ≠ m → d.leftAt j ≤ c.leftAt j ∨ B j ∧ d.leftAt j ≤ c.leftAt j + 1) :
    d.left + n ≤ c.left := by
  classical
  have hsum : ∀ k, (∀ j, j ≠ m → d.leftAt j ≤ c.leftAt j + if j = k then 1 else 0) →
      d.left + n ≤ c.left := by
    intro k hk
    have hall : ∀ j ∈ Finset.univ, d.leftAt j + (if j = m then n + 1 else 0) ≤
        c.leftAt j + if j = k then 1 else 0 := by
      intro j _
      by_cases hjm : j = m
      · subst hjm
        simp only [if_true]
        omega
      · simpa [hjm] using hk j hjm
    have hsum := Finset.sum_le_sum hall
    simp only [Finset.sum_add_distrib, Finset.sum_ite_eq', Finset.mem_univ, if_true] at hsum
    simp only [left]
    omega
  by_cases hex : ∃ k, B k
  · obtain ⟨k, hk⟩ := hex
    refine hsum k fun j hjm => ?_
    rcases hother j hjm with h | ⟨hj, h⟩
    · exact h.trans (Nat.le_add_right _ _)
    · rwa [if_pos (hB j k hj hk)]
  · refine hsum m fun j hjm => ?_
    rcases hother j hjm with h | ⟨hj, -⟩
    · exact h.trans (Nat.le_add_right _ _)
    · exact absurd ⟨j, hj⟩ hex

/-- An announcement leads to two messages: one for the new server, and one for another. -/
theorem Inv.left_announce (h : Inv kind addr inbound c₀ c) (halive : c.alive i)
    (hfd : c.fd i = none) (hadmits : Admits kind addr c₀ c d i a b x) : d.left + 1 ≤ c.left := by
  refine left_le_of (m := i) (B := fun j => ∃ p, gapPred a b = some p ∧ Entry addr c₀ c j p)
    ?_ ?_ ?_
  · rintro j k ⟨p, hp, hj⟩ ⟨q, hq, hk⟩
    obtain rfl := Option.some.inj (hp.symm.trans hq)
    exact h.fd_injective j k p.tcpSocket hj.fd hk.fd
  · simp [leftAt, hadmits.link_new, hadmits.entry_new.fd, hadmits.alive, halive, hfd,
      h.link i hfd]
  · intro j hji
    have hsame := hadmits.fd j hji
    by_cases hj : c.fd j = none
    · left
      refine (leftAt_congr (by rw [hadmits.alive]) hsame ?_).le
      rw [h.link j hj, hadmits.link_none j (by rw [hsame, hj])]
    · obtain ⟨p, hp, hentry⟩ := h.listed j hj
      have hlink := hadmits.link j p hentry hp
      by_cases hgap : gapPred a b = some p
      · rw [if_pos hgap] at hlink
        exact Or.inr ⟨⟨p, hgap, hentry⟩, leftAt_le_succ _ (by rw [hadmits.alive]) hsame hlink⟩
      · rw [if_neg hgap, List.append_nil] at hlink
        exact Or.inl (leftAt_congr (by rw [hadmits.alive]) hsame hlink).le

/-- The removal of a crashed server leads to one message. -/
theorem Inv.left_evict (h : Inv kind addr inbound c₀ c) (hevicts : Evicts addr c₀ c d a b x)
    (hdead : ∀ j, Entry addr c₀ c j x → c.alive j = false) : d.left ≤ c.left := by
  obtain ⟨m, hm⟩ := h.entry x (by simp [hevicts.split])
  have hne : ∀ j, j ≠ m → c.fd j ≠ some x.tcpSocket :=
    fun j hjm hj => hjm (h.fd_injective j m x.tcpSocket hj hm.fd)
  refine left_le_of (n := 0) (m := m) (B := fun j => ∃ r ∈ repair a b, Entry addr c₀ c j r.1)
    ?_ ?_ ?_
  · rintro j k ⟨r, hr, hj⟩ ⟨r', hr', hk⟩
    obtain rfl := Option.some.inj (hr.symm.trans hr')
    exact h.fd_injective j k r.1.tcpSocket hj.fd hk.fd
  · have hgone : d.fd m = none := by
      refine Option.eq_none_iff_forall_ne_some.mpr fun k hk => ?_
      obtain ⟨hfd, hkx⟩ := (hevicts.fd m k).mp hk
      exact hkx (Option.some.inj (hfd.symm.trans hm.fd))
    simp [leftAt, hevicts.alive, hdead m hm, hgone, hm.fd]
  · intro j hjm
    have hsame : d.fd j = c.fd j := by
      refine Option.ext fun k => ?_
      rw [hevicts.fd]
      refine ⟨And.left, fun hj => ⟨hj, ?_⟩⟩
      rintro rfl
      exact hne j hjm hj
    by_cases hj : c.fd j = none
    · left
      refine (leftAt_congr (by rw [hevicts.alive]) hsame ?_).le
      rw [h.link j hj, hevicts.link_none j (by rw [hsame, hj])]
    · obtain ⟨p, hp, hentry⟩ := h.listed j hj
      have hp' : p ∈ a ++ b := by
        have hpx : p ≠ x := by
          rintro rfl
          exact hne j hjm hentry.fd
        rw [hevicts.split] at hp
        simpa [hpx] using hp
      have hlink := hevicts.link j p hentry hp'
      cases hrepair : repair a b with
      | none =>
          rw [hrepair] at hlink
          exact Or.inl (leftAt_congr (by rw [hevicts.alive]) hsame (by simpa using hlink)).le
      | some r =>
          rw [hrepair] at hlink
          by_cases hr : r.1 = p
          · right
            subst hr
            exact ⟨⟨r, rfl, hentry⟩, leftAt_le_succ (repairFrame r.2)
              (by rw [hevicts.alive]) hsame (by simpa using hlink)⟩
          · exact Or.inl (leftAt_congr (by rw [hevicts.alive]) hsame (by simpa [hr] using hlink)).le

theorem Inv.left_still (h : Inv kind addr inbound c₀ c) (hstill : Still c.leader t) :
    (c.lead t c.fd).left = c.left :=
  left_congr fun j => leftAt_congr rfl rfl (by rw [h.link_lead hstill])

variable [DecidableEq ι]

/-- Reading takes a message off. -/
theorem left_follow {frame : Text} {rest : List Text} (halive : c.alive i)
    (hlink : c.link i = frame :: rest) : (c.follow i t rest).left + 1 ≤ c.left := by
  have hi : (c.follow i t rest).leftAt i < c.leftAt i := by
    simp [leftAt, Cluster.follow, halive, hlink]
  refine Finset.sum_lt_sum (fun j _ => ?_) ⟨i, Finset.mem_univ i, hi⟩
  by_cases hji : j = i
  · exact hji ▸ hi.le
  · exact le_of_eq (leftAt_congr rfl rfl (by simp [Cluster.follow, hji]))

theorem left_background : (c.follow i t (c.link i)).left = c.left := by
  refine left_congr fun j => leftAt_congr rfl rfl ?_
  simp [Cluster.follow]

theorem left_crash (c : Cluster ι) (i : ι) :
    ({ c with alive := update c.alive i false } : Cluster ι).left ≤ c.left := by
  refine Finset.sum_le_sum fun j _ => ?_
  by_cases hji : j = i
  · subst hji
    simp only [leftAt, update_self, Bool.false_eq_true, if_false]
    split
    · cases c.fd j with
      | none => simp
      | some k => simp
    · rfl
  · simp [leftAt, hji]

/-- **No action makes more work.** -/
theorem Inv.left_step (hstart : Start kind addr c₀) (h : Inv kind addr inbound c₀ c)
    {action : ClusterAction ι} (hstep : Cluster.step kind addr inbound c action = some d) :
    d.left ≤ c.left := by
  unfold Cluster.step at hstep
  split at hstep
  · rename_i henabled
    cases action with
    | announce i env =>
        obtain ⟨halive, hfd, hconnect, hfresh⟩ := henabled
        obtain ⟨t, a, b, x, ht, hadmits⟩ := h.admits hstart hfd env.2 hconnect hfresh
        simp only [ht] at hstep
        cases hstep
        exact (Nat.le_succ _).trans (h.left_announce halive hfd hadmits)
    | join i env e =>
        obtain ⟨frame, rest, hlink⟩ := List.exists_cons_of_ne_nil henabled.2.2.1
        obtain ⟨t, -, rfl⟩ := Option.map_eq_some_iff.mp hstep
        rw [hlink, List.tail_cons]
        exact (Nat.le_succ _).trans (left_follow henabled.1 hlink)
    | read i env =>
        obtain ⟨frame, rest, hlink⟩ := List.exists_cons_of_ne_nil henabled.2.2.1
        obtain ⟨t, -, rfl⟩ := Option.map_eq_some_iff.mp hstep
        rw [hlink, List.tail_cons]
        exact (Nat.le_succ _).trans (left_follow henabled.1 hlink)
    | leads e =>
        obtain ⟨t, ht, rfl⟩ := Option.map_eq_some_iff.mp hstep
        exact (h.left_still
          (still_of_quiet h.leader henabled.1 (Except.toOption_eq_some.mp ht))).le
    | follows i e =>
        obtain ⟨t, -, rfl⟩ := Option.map_eq_some_iff.mp hstep
        exact left_background.le
    | crash i =>
        cases hstep
        exact left_crash c i
    | hangUp i env =>
        obtain ⟨t, -, rfl⟩ := Option.map_eq_some_iff.mp hstep
        exact left_background.le
    | sweep env =>
        obtain ⟨t, ht, -, -, hleft⟩ := h.sweep hstart env.2 henabled
          (P := fun x => x.left ≤ c.left) (fun t hstill => (h.left_still hstill).le)
          fun _ _ _ _ _ hinv hevicts hdead hle => (hinv.left_evict hevicts hdead).trans hle
        simp only [ht] at hstep
        cases hstep
        exact hleft
  · cases hstep

omit [DecidableEq ι] in
theorem Start.left_le (hstart : Start kind addr c₀) : c₀.left ≤ 4 * Fintype.card ι := by
  have hle : ∀ i ∈ Finset.univ, c₀.leftAt i ≤ 4 := by
    intro i _
    rw [leftAt, hstart.fd, hstart.link]
    split <;> simp
  have hsum := Finset.sum_le_card_nsmul _ _ _ hle
  rwa [Finset.card_univ, smul_eq_mul, Nat.mul_comm] at hsum

/-! ## Announcements and reads -/

/-- Answers of the operating system with the descriptor `fd`. -/
def reliable (fd : Socket) : ReliableEnv :=
  ⟨⟨0, fd, fun _ _ _ => true, true, 0⟩, fun _ _ _ => rfl, rfl⟩

/-- The leader connects in the first round, and its reply is there in the second. -/
def prompt (tcpSocket fd : Socket) : Schedule :=
  ⟨[.ready (reliable 0) [(tcpSocket, .connection fd none)]], reliable 0, [], [], []⟩

omit [DecidableEq ι] [Fintype ι] in
theorem inTime_prompt {tcpSocket fd : Socket} (hfd : IsValidSocket fd) (hne : fd ≠ tcpSocket) :
    (prompt tcpSocket fd).InTime tcpSocket fd := by
  have hpass : exec (Watch.passRound tcpSocket) (Watch.start tcpSocket)
      (prompt tcpSocket fd).before = some ⟨some fd, insert fd {tcpSocket}⟩ := by
    simp [prompt, exec, Watch.passRound, Watch.start, Watch.pass, hfd]
  exact ⟨by simp [prompt], hne, Int.le_refl 0, _, hpass, by simp, _, rfl, rfl⟩

omit [DecidableEq ι] in
/-- A descriptor that the leader does not use for a server. -/
theorem exists_fresh (c : Cluster ι) : ∃ k, IsValidSocket k ∧ ∀ j, c.fd j ≠ some k := by
  obtain ⟨n, hn⟩ := Infinite.exists_notMem_finset
    (Finset.univ.image fun j => ((c.fd j).getD 0).toNat)
  refine ⟨n, Int.natCast_nonneg n, fun j hj => hn ?_⟩
  exact Finset.mem_image.mpr ⟨j, Finset.mem_univ j, by simp [hj]⟩

section Completion
variable (hstart : Start kind addr c₀) (h : Inv kind addr inbound c₀ c)
  (hinbound : ∀ i, IsValidSocket (inbound i) ∧ inbound i ≠ (c₀.server i).self.tcpSocket)

include hstart h hinbound

/-- A message can be read. -/
theorem Inv.exists_read (halive : c.alive i) (hi : c.link i ≠ []) :
    ∃ action d, Cluster.step kind addr inbound c action = some d ∧ d.left + 1 ≤ c.left ∧
      d.alive = c.alive ∧ d.fd = c.fd := by
  obtain ⟨frame, rest, hlink⟩ := List.exists_cons_of_ne_nil hi
  by_cases hleader : (c.server i).self.leader = 1
  · have hin : (prompt (c.server i).self.tcpSocket (inbound i)).InTime
        (c.server i).self.tcpSocket (inbound i) := by
      rw [(h.server i).socket]
      exact inTime_prompt (hinbound i).1 (hinbound i).2
    obtain ⟨t, ht, -⟩ := h.join hstart halive hlink hleader (reliable 0).2.2 hin
    refine ⟨.join i (reliable 0) (prompt (c.server i).self.tcpSocket (inbound i)),
      c.follow i t rest, ?_, left_follow halive hlink, rfl, rfl⟩
    unfold Cluster.step
    rw [if_pos ⟨halive, hleader, hi, hin⟩]
    simp only [hlink, List.headD_cons, List.tail_cons, ht]
    rfl
  · obtain ⟨t, ht, -⟩ : ∃ t,
        handleSocketChange (reliable 0).1 (c.server i) (inbound i) frame = .ok t ∧ _ :=
      h.read hstart halive hlink hleader (Int.le_refl 0)
    refine ⟨.read i (reliable 0), c.follow i t rest, ?_, left_follow halive hlink, rfl, rfl⟩
    unfold Cluster.step
    rw [if_pos ⟨halive, hleader, hi, Int.le_refl 0⟩]
    simp only [hlink, List.headD_cons, List.tail_cons, ht]
    rfl

/-- As long as something is left, there is an action that makes it less. -/
theorem Inv.exists_step (hlisted : ∀ i, c.fd i ≠ none → c.alive i)
    (hleft : ∃ i, c.alive i ∧ (c.fd i = none ∨ c.link i ≠ [])) :
    ∃ action d, Cluster.step kind addr inbound c action = some d ∧ d.left + 1 ≤ c.left ∧
      d.alive = c.alive ∧ ∀ i, d.fd i ≠ none → d.alive i := by
  obtain ⟨i, halive, hfd | hlink⟩ := hleft
  · obtain ⟨k, hk, hfresh⟩ := exists_fresh c
    obtain ⟨t, a, b, x, ht, hadmits⟩ := h.admits hstart hfd (reliable k).2 hk hfresh
    refine ⟨.announce i (reliable k), _, ?_, h.left_announce halive hfd hadmits, rfl, ?_⟩
    · unfold Cluster.step
      rw [if_pos ⟨halive, hfd, hk, hfresh⟩]
      simp only [ht]
      rfl
    · intro j hj
      by_cases hji : j = i
      · exact hji ▸ halive
      · rw [hadmits.fd j hji] at hj
        exact hlisted j hj
  · obtain ⟨action, d, hstep, hless, hsame, hfd⟩ := h.exists_read hstart hinbound halive hlink
    refine ⟨action, d, hstep, hless, hsame, fun j hj => ?_⟩
    rw [hsame]
    exact hlisted j (hfd ▸ hj)

/-- **When all crashed servers are removed**, the rest of the work can be done. -/
theorem Inv.completes (hlisted : ∀ i, c.fd i ≠ none → c.alive i) :
    ∃ h' d, Run (Cluster.step kind addr inbound) c h' d ∧ h'.length + c.living ≤ c.left ∧
      d.alive = c.alive ∧ d.AtRest ∧ ∀ i, d.alive i → d.fd i ≠ none := by
  induction hn : c.left using Nat.strong_induction_on generalizing c with
  | _ n ih =>
      by_cases hleft : ∃ i, c.alive i ∧ (c.fd i = none ∨ c.link i ≠ [])
      · obtain ⟨action, d, hstep, hless, hsame, hlisted'⟩ :=
          h.exists_step hstart hinbound hlisted hleft
        obtain ⟨h', e, run, hlen, halive, hrest⟩ :=
          ih d.left (by omega) (h.step hstart hstep) hlisted' rfl
        have hliving : d.living = c.living := by rw [living, living, hsame]
        refine ⟨(c, action) :: h', e, run.cons hstep, ?_, halive.trans hsame, hrest⟩
        rw [List.length_cons]
        omega
      · push Not at hleft
        have hlink : ∀ i, c.link i = [] := by
          intro i
          by_cases hi : c.fd i = none
          · exact h.link i hi
          · exact (hleft i (hlisted i hi)).2
        refine ⟨[], c, Run.nil, ?_, rfl, ⟨hlisted, hlink⟩, fun i hi => (hleft i hi).1⟩
        have := c.living_le_left
        simp only [List.length_nil]
        omega

end Completion

/-! ## Heartbeats and a sweep -/

/-- Answers of the operating system at time `now`. -/
def clock (now : ℤ) : ReliableEnv :=
  ⟨⟨now, 0, fun _ _ _ => true, true, 0⟩, fun _ _ _ => rfl, rfl⟩

omit [Fintype ι] [DecidableEq ι] in
theorem exists_latest (l : List ServerInfo) : ∃ latest, ∀ r ∈ l, r.lastHeartbeat ≤ latest := by
  induction l with
  | nil => exact ⟨0, by simp⟩
  | cons r l ih =>
      obtain ⟨latest, hlatest⟩ := ih
      refine ⟨max r.lastHeartbeat latest, ?_⟩
      simp only [List.forall_mem_cons]
      exact ⟨le_max_left _ _, fun q hq => (hlatest q hq).trans (le_max_right _ _)⟩

/-- The record `r` has become `p`: the servers with these IDs were heard of at time `now`. -/
structure Beats (now : ℤ) (ids : List ℤ) (r p : ServerInfo) : Prop where
  id : p.id = r.id
  heard : r.id ∈ ids → p.lastHeartbeat = now
  unheard : r.id ∉ ids → p.lastHeartbeat = r.lastHeartbeat

theorem Beats.cons {now id : ℤ} {ids : List ℤ} {r p : ServerInfo}
    (h : Beats now ids (r.beat now id) p) : Beats now (id :: ids) r p := by
  have hlast : (r.beat now id).lastHeartbeat = if r.id = id then now else r.lastHeartbeat := by
    rw [ServerInfo.beat]
    split <;> rfl
  have hheard := h.heard
  have hunheard := h.unheard
  rw [ServerInfo.beat_id] at hheard hunheard
  constructor
  · exact h.id.trans (ServerInfo.beat_id now id r)
  · intro hmem
    by_cases hids : r.id ∈ ids
    · exact hheard hids
    · have hid : r.id = id := by simpa [hids] using hmem
      rw [hunheard hids, hlast, if_pos hid]
  · intro hmem
    simp only [List.mem_cons, not_or] at hmem
    rw [hunheard hmem.2, hlast, if_neg hmem.1]

section Heartbeats
variable (hstart : Start kind addr c₀) (h : Inv kind addr inbound c₀ c)

include hstart h

/-- The heartbeat of a server. -/
theorem Inv.exists_beat (now : ℤ) (hfd : c.fd i ≠ none) :
    ∃ action t, Cluster.step kind addr inbound c action = some (c.lead t c.fd) ∧
      Still c.leader t ∧
      t.next = c.leader.next.map (ServerInfo.beat now (c₀.server i).self.id) := by
  obtain ⟨p, hp, hentry⟩ := h.listed i hfd
  have hread : (Receiver.connection (p.tcpSocket = c.leader.ltcpSocket)).read
      (padZero (heartbeat (c₀.server i).self.id)) = some (.heartbeat (c₀.server i).self.id) :=
    read_heartbeat (hstart.id i).isInt
  have hbeat : c.leader.handle (.readable (clock now) p.tcpSocket
      (padZero (heartbeat (c₀.server i).self.id))) =
        .ok (c.leader.updateHeartbeat (clock now) (c₀.server i).self.id) :=
    handleSocketChange_of_read hread
  obtain ⟨hquiet, hcloses⟩ := quiet_of_heartbeat (clock now).1 hread
  refine ⟨.leads (.readable (clock now) p.tcpSocket (padZero (heartbeat (c₀.server i).self.id))),
    c.leader.updateHeartbeat (clock now) (c₀.server i).self.id, ?_,
    still_updateHeartbeat h.leader (clock now) (c₀.server i).self.id, ?_⟩
  · unfold Cluster.step
    rw [if_pos ⟨hquiet, by simp [hcloses]⟩]
    simp only [hbeat]
    rfl
  · have hid : c.leader.self.id ≠ (c₀.server i).self.id := by
      rw [h.self.id]
      exact (hstart.id_ne i).symm
    rw [Server.updateHeartbeat, if_neg hid]
    exact updateHeartbeatTimeout_eq_map h.leader.ascending

/-- The heartbeats of several servers. -/
theorem Inv.exists_beats (now : ℤ) {l : List ι} (hl : ∀ i ∈ l, c.fd i ≠ none) :
    ∃ h' d, Run (Cluster.step kind addr inbound) c h' d ∧ h'.length = l.length ∧
      d.alive = c.alive ∧ d.fd = c.fd ∧ d.left = c.left ∧
        ∀ p ∈ d.leader.next, ∃ r ∈ c.leader.next,
          Beats now (l.map fun i => (c₀.server i).self.id) r p := by
  induction l generalizing c with
  | nil => exact ⟨[], c, Run.nil, rfl, rfl, rfl, rfl, fun p hp => ⟨p, hp, rfl, by simp, by simp⟩⟩
  | cons i l ih =>
      obtain ⟨action, t, hstep, hstill, hnext⟩ := h.exists_beat hstart now (hl i (by simp))
      obtain ⟨h', d, run, hlen, halive, hfd, hleft, hbeats⟩ :=
        ih (h.quiet hstill) fun j hj => hl j (by simp [hj])
      refine ⟨(c, action) :: h', d, run.cons hstep, by simp [hlen], halive, hfd,
        hleft.trans (h.left_still hstill), fun p hp => ?_⟩
      obtain ⟨r', hr', hbeat⟩ := hbeats p hp
      rw [show (c.lead t c.fd).leader.next = _ from hnext] at hr'
      obtain ⟨r, hr, rfl⟩ := List.mem_map.mp hr'
      exact ⟨r, hr, hbeat.cons⟩

/-- **The living servers send heartbeats, and the leader removes the others.** -/
theorem Inv.exists_sweep : ∃ h' d, Run (Cluster.step kind addr inbound) c h' d ∧
    h'.length ≤ c.living + 1 ∧ d.alive = c.alive ∧ d.left ≤ c.left ∧
      ∀ i, d.fd i ≠ none → d.alive i := by
  obtain ⟨latest, hlatest⟩ := exists_latest c.leader.next
  generalize hnow : latest + 2 * heartbeatTimeout = now
  generalize hl : (Finset.univ.filter fun i => c.alive i = true ∧ c.fd i ≠ none).toList = l
  have hmem : ∀ i, i ∈ l ↔ c.alive i = true ∧ c.fd i ≠ none := by
    intro i
    simp [← hl]
  have hlen : l.length ≤ c.living := by
    rw [← hl, Finset.length_toList, living]
    refine Finset.card_le_card fun i hi => ?_
    simp only [Finset.mem_filter] at hi ⊢
    exact ⟨hi.1, hi.2.1⟩
  obtain ⟨h', d, run, hlen', halive, hfd, hleft, hbeats⟩ :=
    h.exists_beats hstart now fun i hi => ((hmem i).mp hi).2
  have hinv : Inv kind addr inbound c₀ d :=
    run.invariant h fun _ _ _ hx hstep => hx.step hstart hstep
  -- the records of the living servers, and no others, are up to date
  have htimed : ∀ i p, p ∈ d.leader.next → Entry addr c₀ d i p →
      (TimedOut (clock now).1 (2 * heartbeatTimeout) p ↔ c.alive i = false) := by
    intro i p hp hi
    have hids : p.id ∈ l.map (fun i => (c₀.server i).self.id) ↔ c.alive i = true := by
      rw [show p.id = _ from hi.peer.id]
      refine (List.mem_map_of_injective hstart.id_injective).trans ((hmem i).trans ?_)
      refine and_iff_left ?_
      rw [← hfd]
      simp [hi.fd]
    obtain ⟨r, hr, hbeat⟩ := hbeats p hp
    have hlast := hlatest r hr
    rw [hbeat.id] at hids
    show now - p.lastHeartbeat ≥ 2 * heartbeatTimeout ↔ _
    cases hi' : c.alive i with
    | true =>
        rw [hbeat.heard (hids.mpr hi'), Int.sub_self]
        decide
    | false =>
        rw [hbeat.unheard fun hmem => by simp [hids.mp hmem] at hi']
        refine iff_of_true ?_ rfl
        omega
  have hdue : d.Enabled inbound (.sweep (clock now)) := by
    intro p hp hdue
    obtain ⟨i, hi⟩ := hinv.entry p hp
    exact ⟨i, halive ▸ (htimed i p hp hi).mp hdue, hi.fd⟩
  obtain ⟨t, ht, htnext, -⟩ := hinv.sweep hstart (clock now).2 hdue (P := fun _ => True)
    (fun _ _ => trivial) fun _ _ _ _ _ _ _ _ _ => trivial
  have hstep : Cluster.step kind addr inbound d (.sweep (clock now)) =
      some (d.lead t (d.keep t)) := by
    unfold Cluster.step
    rw [if_pos hdue]
    simp only [ht]
    rfl
  refine ⟨_, _, run.snoc hstep, ?_, halive, ?_, ?_⟩
  · simp [hlen', hlen]
  · exact (hinv.left_step hstart hstep).trans hleft.le
  · intro i hi
    obtain ⟨k, hk⟩ := Option.ne_none_iff_exists'.mp hi
    obtain ⟨hik, p, hp, rfl⟩ := keep_eq_some.mp hk
    rw [htnext] at hp
    obtain ⟨hp, halive'⟩ := List.mem_filter.mp hp
    obtain ⟨j, hj⟩ := hinv.entry p hp
    obtain rfl := hinv.fd_injective i j p.tcpSocket hik hj.fd
    have hlive := (htimed i p hp hj).not.mp (by simpa using halive')
    show d.alive i = true
    rw [halive]
    simpa using hlive

end Heartbeats

/-- **What is left takes a bounded number of steps**: a heartbeat of every living server, a sweep,
their announcements, and reading what all this leads to. -/
theorem exists_completion (hstart : Start kind addr c₀)
    (hinbound : ∀ i, IsValidSocket (inbound i) ∧ inbound i ≠ (c₀.server i).self.tcpSocket)
    {h : List (Cluster ι × ClusterAction ι)}
    (run : Run (Cluster.step kind addr inbound) c₀ h c) :
    ∃ h' d, Run (Cluster.step kind addr inbound) c h' d ∧
      h'.length ≤ 4 * Fintype.card ι + 1 ∧ d.alive = c.alive ∧ d.AtRest ∧
        (∀ i, d.alive i → d.fd i ≠ none) ∧ Inv kind addr inbound c₀ d := by
  have hinv := inv_of_run hstart run
  have hleft : c.left ≤ 4 * Fintype.card ι := by
    refine le_trans ?_ hstart.left_le
    refine (run.invariant (P := fun x => Inv kind addr inbound c₀ x ∧ x.left ≤ c₀.left)
      ⟨hstart.inv, le_rfl⟩ ?_).2
    exact fun x a y hx hstep =>
      ⟨hx.1.step hstart hstep, (hx.1.left_step hstart hstep).trans hx.2⟩
  obtain ⟨h₁, d, run₁, hlen₁, halive₁, hleft₁, hlisted⟩ := hinv.exists_sweep hstart
  obtain ⟨h₂, e, run₂, hlen₂, halive₂, hrest, hall⟩ :=
    (inv_of_run hstart (run.append run₁)).completes hstart hinbound hlisted
  have hliving : d.living = c.living := by rw [living, living, halive₁]
  refine ⟨h₁ ++ h₂, e, run₁.append run₂, ?_, halive₂.trans halive₁, hrest, hall,
    inv_of_run hstart (run.append (run₁.append run₂))⟩
  rw [List.length_append]
  omega

end Cluster

end ChatRing
