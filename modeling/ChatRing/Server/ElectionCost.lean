import ChatRing.Lib.ElectionCost
import ChatRing.Server.CrashRing

/-!
# The frames of an election

How many `ELECTION` frames the servers of an intact ring send while none of them crashes,
whoever times out and in whatever order the frames arrive, and that an election always comes to
its end.

A server sends its vote twice when it finds its leader overdue for the first time, and once more
whenever its timer finds the leader overdue again, so that there is no bound in the number of
servers alone.  Each of these timers costs at most one round.

## Main results

* `election_frames_le` — at most `n (n + 1) / 2 + n` frames are sent, and `n` for each time that
  a timer has found the leader overdue.
* `election_ends` — delivering what is on the links elects the leader.
-/

namespace ChatRing
open CText RingElection Function

/-- A ring none of whose servers has crashed. -/
def Network.whole {ι : Type*} (x : Network ι) : CrashRing ι :=
  { x with alive := fun _ => true, cut := fun _ => false }

/-- The election is over: `top` leads, nobody lists a server or takes part, and the others have
asked once who the leader is. -/
structure Elected {ι : Type*} (x₀ x : Network ι) (top : ι) : Prop where
  self : ∀ i, ∃ leader, (x.server i).self = { (x₀.server i).self with leader := leader }
  leader : (x.server top).self.leader = 1
  follower : ∀ i ≠ top, (x.server i).self.leader = 0
  next : ∀ i, (x.server i).next = []
  participant : ∀ i, (x.server i).participant = 0
  asked : ∀ i ≠ top, multicasts (x.server i).out = multicasts (x₀.server i).out ++
    [padX (whoIsLeader (x₀.server i).self.id (x₀.server i).self.port)]

section Accounts
variable {ι : Type*}

/-- The frames of the election that server `i` has sent to its successor since `x₀`. -/
def framesSent (x₀ : Network ι) (socket : ι → Socket) (x : CrashRing ι) (i : ι) : List Text :=
  elections (sentOn ((x.server i).out.drop (x₀.server i).out.length) (socket i))

/-- A frame of the election that server `i` has sent is received. -/
def CrashRing.Receives [DecidableEq ι] (x : CrashRing ι) (i : ι) : CrashAction ι → Bool
  | .deliver j _ => j = i ∧ ∃ b ∈ (x.link j).head?, IsElection b
  | _ => false

/-- How often a frame of the election from server `i` was received. -/
def received [DecidableEq ι] (h : List (CrashRing ι × CrashAction ι)) (i : ι) : ℕ :=
  h.countP fun y => y.1.Receives i y.2

/-- How often the timer of a follower has found its leader overdue. -/
def timeouts (h : List (CrashRing ι × CrashAction ι)) : ℕ := h.countP fun y => y.1.TimesOut y.2

variable [DecidableEq ι]

/-- What server `i` has sent was received or is on its link. -/
structure Accounted (x₀ : Network ι) (socket : ι → Socket)
    (h : List (CrashRing ι × CrashAction ι)) (x : CrashRing ι) (i : ι) : Prop where
  out : (x₀.server i).out <+: (x.server i).out
  sent : (framesSent x₀ socket x i).length = received h i + (elections (x.link i)).length

variable {ring : Equiv.Perm ι} {socket inbound : ι → Socket} {x₀ : Network ι} {x y : CrashRing ι}
  {h : List (CrashRing ι × CrashAction ι)} {i j : ι}

theorem received_append (h₁ h₂ : List (CrashRing ι × CrashAction ι)) :
    received (h₁ ++ h₂) i = received h₁ i + received h₂ i := List.countP_append ..

omit [DecidableEq ι] in
theorem timeouts_append (h₁ h₂ : List (CrashRing ι × CrashAction ι)) :
    timeouts (h₁ ++ h₂) = timeouts h₁ + timeouts h₂ := List.countP_append ..

/-- A server that moves puts on its link what it sends. -/
theorem Accounted.put (hx : ∀ i, Accounted x₀ socket h x i) {s : Server}
    (halive : x.alive (ring j) = true) (hout : (x.server j).out <+: s.out) :
    ∀ i, Accounted x₀ socket h (x.put ring socket j s) i := by
  intro i
  by_cases hi : i = j
  · subst hi
    obtain ⟨sent, hsent⟩ := hout
    obtain ⟨before, hbefore⟩ := (hx i).out
    have hcount := (hx i).sent
    have hput : ((x.put ring socket i s).server i).out = (x₀.server i).out ++ (before ++ sent) := by
      simp [← hsent, ← hbefore]
    have hlink : (x.put ring socket i s).link i = x.link i ++ sentOn sent (socket i) := by
      simp [CrashRing.put_link_of_alive halive, ← hsent]
    rw [framesSent, ← hbefore, List.drop_left] at hcount
    refine ⟨by rw [hput]; exact List.prefix_append _ _, ?_⟩
    rw [framesSent, hput, List.drop_left, hlink, sentOn_append, elections_append,
      elections_append, List.length_append, List.length_append]
    omega
  · refine ⟨by simpa [hi] using (hx i).out, ?_⟩
    simpa [framesSent, CrashRing.put_link_of_alive halive, hi] using (hx i).sent

/-- A frame that leaves a link is received. -/
theorem Accounted.pop (hx : ∀ i, Accounted x₀ socket h x i) (env : Env) {b : Text}
    {rest : List Text} (hlink : x.link j = b :: rest) :
    ∀ i, Accounted x₀ socket (h ++ [(x, .deliver j env)])
      { x with link := update x.link j rest } i := by
  intro i
  refine ⟨(hx i).out, ?_⟩
  have hcount := (hx i).sent
  rw [received_append]
  by_cases hi : i = j
  · subst hi
    by_cases helection : IsElection b
    · simp [framesSent, received, CrashRing.Receives, elections, hlink, helection] at hcount ⊢
      omega
    · simpa [framesSent, received, CrashRing.Receives, elections, hlink, helection] using hcount
  · simpa [framesSent, received, CrashRing.Receives, hi, Ne.symm hi] using hcount

/-- A process that has not ended was not killed. -/
theorem CrashRing.after_eq_put {r : Except Fault Server}
    (halive : (x.after ring socket i r).alive i = true) :
    ∃ t, r = .ok t ∧ x.after ring socket i r = x.put ring socket i t := by
  cases r with
  | ok t => exact ⟨t, rfl, rfl⟩
  | error fault => simp [CrashRing.after, CrashRing.kill] at halive

/-- What a handler sends comes after what was sent before. -/
theorem out_prefix_of_handle {s t : Server} {e : Event} (h : s.handle e = .ok t) :
    s.out <+: t.out := by
  obtain ⟨-, -, frames, sent, hout, -⟩ := Server.handle_role h
  exact hout ▸ List.prefix_append _ _

/-- What an action does to the accounts. -/
theorem Accounted.step (hx : ∀ i, Accounted x₀ socket h x i) {a : CrashAction ι}
    (hpeace : a.Peaceful) (halive : ∀ i, y.alive i = true) (hbefore : y.alive = x.alive)
    (hstep : CrashRing.step ring socket inbound x a = some y) :
    ∀ i, Accounted x₀ socket (h ++ [(x, a)]) y i := by
  cases a with
  | timer i env =>
      rw [CrashRing.step] at hstep
      split at hstep
      · obtain rfl := Option.some.inj hstep
        obtain ⟨t, ht, hput⟩ := CrashRing.after_eq_put (halive i)
        rw [hput]
        intro j
        have hmoved := Accounted.put hx (hbefore ▸ halive (ring i))
          (out_prefix_of_handle (e := .timer _) ht)
        refine ⟨(hmoved j).out, ?_⟩
        rw [(hmoved j).sent, received_append]
        simp [received, CrashRing.Receives]
      · cases hstep
  | deliver i env =>
      rw [CrashRing.step] at hstep
      split at hstep
      · cases hstep
      · rename_i b rest hlink
        split at hstep
        · obtain rfl := Option.some.inj hstep
          obtain ⟨t, ht, hput⟩ := CrashRing.after_eq_put (halive (ring i))
          rw [hput]
          refine Accounted.put (Accounted.pop hx env hlink) ?_
            (out_prefix_of_handle (e := .readable _ _ _) ht)
          have hnext := halive (ring (ring i))
          rwa [hbefore] at hnext
        · cases hstep
  | crash i => exact hpeace.elim
  | disconnect i => exact hpeace.elim

end Accounts

/-! ## The run of the protocol -/

section Protocol
variable {ι : Type*} [DecidableEq ι] {ring : Equiv.Perm ι} {socket inbound : ι → Socket}
  {x₀ : Network ι} {x : CrashRing ι} {c : Config ι ℤ} {i : ι}
  {h : List (CrashRing ι × CrashAction ι)}

omit [DecidableEq ι] in
/-- No frame is lost while nobody crashes. -/
theorem CrashSim.keepsFrames (hsim : CrashSim ring x₀ socket x c) (halive : ∀ i, x.alive i = true)
    {a : CrashAction ι} (hpeace : a.Peaceful) : x.KeepsFrames ring socket a := by
  cases a with
  | timer i env => exact Or.inr (Or.inl (halive (ring i)))
  | deliver i env =>
      exact Or.inr (Or.inr ⟨hsim.cut_of_alive (halive _), Or.inl (halive _)⟩)
  | crash i => exact hpeace.elim
  | disconnect i => exact hpeace.elim

/-- What the actions of the protocol count for an action of the servers. -/
theorem count_erase [Fintype ι] (ring : Equiv.Perm ι) (x : CrashRing ι) (c : Config ι ℤ)
    (a : CrashAction ι) :
    (a.erase ring x c).countP Action.isDeliver = ∑ i, received [(x, a)] i ∧
      (a.erase ring x c).countP Action.isResend ≤ timeouts [(x, a)] := by
  cases a with
  | timer i env =>
      rw [CrashAction.erase]
      split
      · rename_i hvotes
        cases c.node i with
        | idle | candidate => simp [timerActions, received, CrashRing.Receives, timeouts, hvotes.2]
        | leading | crowned | follower => simp [timerActions, received, CrashRing.Receives]
      · simp [received, CrashRing.Receives]
  | deliver i env =>
      by_cases helection : ∃ b, (x.link i).head? = some b ∧ IsElection b
      · simp [CrashAction.erase, received, CrashRing.Receives, helection]
      · simp [CrashAction.erase, received, CrashRing.Receives, helection]
  | crash i => simp [CrashAction.erase, received, CrashRing.Receives]
  | disconnect i => simp [CrashAction.erase, received, CrashRing.Receives]

variable [Fintype ι] [Nontrivial ι] (hintact : Intact ring socket x₀)
  (hring : ring.IsCycleOn Set.univ) {top : ι}
  (htop : ∀ i, (x₀.server i).self.id ≤ (x₀.server top).self.id)

include hintact hring htop

/-- **A run in which nobody crashes is one of the protocol**, and the frames are accounted for. -/
theorem exists_protocol (run : Run (CrashRing.step ring socket inbound) x₀.whole h x)
    (hpeace : ∀ z ∈ h, z.2.Peaceful) :
    ∃ h' c, Run (RingElection.step ring fun i => (x₀.server i).self.id) start h' c ∧
      CrashSim ring x₀ socket x c ∧ (∀ i, x.alive i = true) ∧
        deliveries h' = ∑ i, received h i ∧ resends h' ≤ timeouts h ∧
          (0 < timeouts h → Started c) ∧ ∀ i, Accounted x₀ socket h x i := by
  induction run with
  | nil =>
      have hsim : CrashSim ring x₀.whole.toNetwork socket x₀.whole start :=
        Intact.crashSim hintact fun _ => rfl
      refine ⟨[], start, Run.nil, hsim, fun _ => rfl, by simp [deliveries, received],
        by simp [resends], by simp [timeouts], fun i => ⟨List.prefix_refl _, ?_⟩⟩
      simp [framesSent, received, elections, Network.whole, hintact.link i]
  | @snoc h x y a run hstep ih =>
      obtain ⟨h₁, c, run₁, hsim, halive, hdeliveries, hresends, hstarted, haccounts⟩ :=
        ih fun z hz => hpeace z (List.mem_append_left _ hz)
      have ha : a.Peaceful := hpeace (x, a) (by simp)
      have hinv : Inv ring (fun i => (x₀.server i).self.id) top c :=
        inv_of_run hring hintact.id_injective htop run₁
      obtain ⟨h₂, c', run₂, hactions, hsim', hsame, hstarts⟩ :=
        hsim.step hintact hring htop hinv (hsim.keepsFrames halive ha) hstep
      have halive' : ∀ i, y.alive i = true := by
        rw [hsame ha]
        exact halive
      obtain ⟨hdeliver, hresend⟩ := count_erase ring x c a
      rw [← hactions, ← deliveries_eq] at hdeliver
      rw [← hactions, ← resends_eq] at hresend
      refine ⟨h₁ ++ h₂, c', run₁.append run₂, hsim', halive', ?_, ?_, ?_,
        Accounted.step haccounts ha halive' (hsame ha) hstep⟩
      · simp only [deliveries_append, received_append, Finset.sum_add_distrib, hdeliveries,
          hdeliver]
      · rw [resends_append, timeouts_append]
        omega
      · intro hpos
        by_cases hout : x.TimesOut a
        · exact hstarts hout halive
        · rw [timeouts_append] at hpos
          simp only [timeouts, List.countP_singleton, hout, decide_false] at hpos
          refine run₂.guarded (P := fun d => Inv ring (fun i => (x₀.server i).self.id) top d ∧
            Started d) (C := fun _ _ => True) ⟨hinv, hstarted (by simpa [timeouts] using hpos)⟩
            (fun d b d' hd _ hb => ⟨hd.1.step hring hintact.id_injective htop hb,
              hd.1.started hintact.id_injective hd.2 hb⟩) (fun _ _ _ => trivial) |>.2

/-- **The cost of an election.**  Whoever times out, however often, and in whatever order the
frames arrive, `n` servers send at most `n (n + 1) / 2 + n` frames, and `n` more for each time
that a timer has found the leader overdue. -/
theorem election_frames_le (run : Run (CrashRing.step ring socket inbound) x₀.whole h x)
    (hpeace : ∀ z ∈ h, z.2.Peaceful) :
    2 * ∑ i, (framesSent x₀ socket x i).length ≤
      Fintype.card ι * (Fintype.card ι + 1) + 2 * (Fintype.card ι * (timeouts h + 1)) := by
  obtain ⟨h', c, run', hsim, -, hdeliveries, hresends, -, haccounts⟩ :=
    exists_protocol hintact hring htop run hpeace
  have hinv : Inv ring (fun i => (x₀.server i).self.id) top c :=
    inv_of_run hring hintact.id_injective htop run'
  have hsent : ∑ i, (framesSent x₀ socket x i).length = deliveries h' + c.inFlight := by
    rw [hdeliveries, Config.inFlight, ← Finset.sum_add_distrib]
    refine Finset.sum_congr rfl fun i _ => ?_
    rw [(haccounts i).sent, hsim.link i, List.length_map]
  have hrun := deliveries_le hring hintact.id_injective htop run'
  have hflight := hinv.inFlight_le hring
  have hstart := potential_start_le top hring hintact.id_injective
  have hrounds := Nat.mul_le_mul_left (Fintype.card ι) hresends
  have hsplit := Nat.mul_add_one (Fintype.card ι) (timeouts h)
  omega

/-! ### The end of the election -/

omit htop in
variable (inbound) in
/-- A block that is on a link can be received. -/
theorem CrashSim.exists_receipt (hsim : CrashSim ring x₀ socket x c)
    (hinv : Inv ring (fun i => (x₀.server i).self.id) top c)
    (htop : ∀ i, (x₀.server i).self.id ≤ (x₀.server top).self.id)
    (halive : ∀ i, x.alive i = true) {b : Text} {rest : List Text} (hlink : x.link i = b :: rest)
    (env : Env) :
    ∃ y, CrashRing.step ring socket inbound x (.deliver i env) = some y ∧ y.link i = rest := by
  have hok : ∃ t, handleSocketChange (x.envOf ring socket (ring i) env) (x.server (ring i))
      (inbound (ring i)) b = .ok t := by
    by_cases helection : IsElection b
    · obtain ⟨c', t, -, ht, -⟩ := hsim.deliver hintact hring htop hinv env (halive (ring i))
        hlink helection (hsim.keepsFrames halive trivial) (inbound (ring i))
      exact ⟨t, ht⟩
    · obtain ⟨t, ht, -⟩ := hsim.deliver_heartbeat hintact hring _ (halive (ring i)) hlink
        helection (inbound (ring i))
      exact ⟨t, ht⟩
  obtain ⟨t, ht⟩ := hok
  refine ⟨CrashRing.put ring socket { x with link := update x.link i rest } (ring i) t, ?_, ?_⟩
  · simp [CrashRing.step, CrashRing.after, hlink, halive (ring i), ht]
  · have hnext : CrashRing.alive { x with link := update x.link i rest } (ring (ring i)) = true :=
      halive _
    rw [CrashRing.put_link_of_alive hnext, update_of_ne (next_ne hring).symm]
    exact update_self ..

variable (inbound) in
/-- The blocks up to the first frame of the election are received. -/
theorem CrashSim.deliver_token (hsim : CrashSim ring x₀ socket x c)
    (hinv : Inv ring (fun i => (x₀.server i).self.id) top c) (halive : ∀ i, x.alive i = true)
    {c' : Config ι ℤ}
    (hc : RingElection.step ring (fun i => (x₀.server i).self.id) c (.deliver i) = some c')
    (env : Env) :
    ∃ h y, Run (CrashRing.step ring socket inbound) x h y ∧ CrashSim ring x₀ socket y c' ∧
      (∀ i, y.alive i = true) ∧ ∑ i, received h i = 1 ∧ ∀ z ∈ h, ∃ i, z.2 = .deliver i env := by
  induction hn : (x.link i).length generalizing x with
  | zero =>
      have hnil : c.link i = [] := by
        have hmap := hsim.link i
        rw [List.length_eq_zero_iff.mp hn] at hmap
        simpa [elections] using hmap
      simp [RingElection.step, hnil] at hc
  | succ n ih =>
      obtain ⟨b, rest, hlink⟩ : ∃ b rest, x.link i = b :: rest :=
        List.exists_cons_of_length_eq_add_one hn
      obtain ⟨y, hy, hrest⟩ := hsim.exists_receipt inbound hintact hring hinv htop halive hlink env
      obtain ⟨h', c'', run', hactions, hsim', hsame, -⟩ :=
        hsim.step hintact hring htop hinv (a := .deliver i env) (hsim.keepsFrames halive trivial) hy
      have halive' : ∀ i, y.alive i = true := by
        rw [hsame trivial]
        exact halive
      have hcount := (count_erase ring x c (.deliver i env)).1
      have hexec := run'.exec_eq
      rw [hactions] at hexec
      by_cases helection : IsElection b
      · have herase : CrashAction.erase ring x c (.deliver i env) = [.deliver i] := by
          simp [CrashAction.erase, hlink, helection]
        rw [herase] at hexec hcount
        simp only [exec, hc, Option.bind_some, Option.some.injEq] at hexec
        subst hexec
        exact ⟨_, y, Run.snoc Run.nil hy, hsim', halive', hcount.symm, by simp⟩
      · have herase : CrashAction.erase ring x c (.deliver i env) = [] := by
          simp [CrashAction.erase, hlink, helection]
        rw [herase] at hexec hcount
        simp only [exec, Option.some.injEq] at hexec
        subst hexec
        obtain ⟨h₂, z, run₂, hsim₂, halive₂, hone, hall⟩ :=
          ih hsim' halive' (by rw [hrest]; simpa [hlink] using hn)
        refine ⟨(x, .deliver i env) :: h₂, z, run₂.cons hy, hsim₂, halive₂, ?_, ?_⟩
        · have hsplit : ∀ j, received ((x, .deliver i env) :: h₂) j =
              received [(x, .deliver i env)] j + received h₂ j :=
            fun j => received_append [(x, .deliver i env)] h₂
          simp only [hsplit, Finset.sum_add_distrib, hone, ← hcount]
          rfl
        · simpa using hall

variable (inbound) in
/-- What the protocol delivers, the servers can receive. -/
theorem CrashSim.deliver_all (hsim : CrashSim ring x₀ socket x c)
    (hinv : Inv ring (fun i => (x₀.server i).self.id) top c) (halive : ∀ i, x.alive i = true)
    {c' : Config ι ℤ} {h' : List (Config ι ℤ × Action ι)}
    (run' : Run (RingElection.step ring fun i => (x₀.server i).self.id) c h' c')
    (hdeliver : ∀ z ∈ h', ∃ i, z.2 = .deliver i) (env : Env) :
    ∃ h y, Run (CrashRing.step ring socket inbound) x h y ∧ CrashSim ring x₀ socket y c' ∧
      (∀ i, y.alive i = true) ∧ ∑ i, received h i = h'.length ∧
        ∀ z ∈ h, ∃ i, z.2 = .deliver i env := by
  induction run' with
  | nil => exact ⟨[], x, Run.nil, hsim, halive, by simp [received], by simp⟩
  | @snoc h' c' c'' a run' hstep ih =>
      obtain ⟨h₁, y, run₁, hsim₁, halive₁, hcount₁, hall₁⟩ :=
        ih fun z hz => hdeliver z (List.mem_append_left _ hz)
      have hinv' : Inv ring (fun i => (x₀.server i).self.id) top c' :=
        run'.invariant hinv fun _ _ _ hz hs => hz.step hring hintact.id_injective htop hs
      obtain ⟨i, rfl⟩ : ∃ i, a = .deliver i := hdeliver (c', a) (by simp)
      obtain ⟨h₂, z, run₂, hsim₂, halive₂, hcount₂, hall₂⟩ :=
        hsim₁.deliver_token inbound hintact hring htop hinv' halive₁ hstep env
      refine ⟨h₁ ++ h₂, z, run₁.append run₂, hsim₂, halive₂, ?_, ?_⟩
      · simp only [received_append, Finset.sum_add_distrib, hcount₁, hcount₂, List.length_append,
          List.length_singleton]
      · intro w hw
        exact (List.mem_append.mp hw).elim (hall₁ w) (hall₂ w)

omit [DecidableEq ι] [Fintype ι] [Nontrivial ι] hintact hring htop in
/-- The servers of an election that is over. -/
theorem CrashSim.elected (hsim : CrashSim ring x₀ socket x c) (halive : ∀ i, x.alive i = true)
    (hsettled : Settled top c) : Elected x₀ x.toNetwork top := by
  have hserver : ∀ i, Represents (x₀.server i) (socket i) (c.node i) (x.server i) :=
    fun i => hsim.server i (halive i) (hsim.cut_of_alive (halive _))
  have hnode : ∀ i, c.node i = .crowned ∨ c.node i = .follower := by
    intro i
    by_cases hi : i = top
    · exact Or.inl (hi ▸ hsettled.node_top)
    · exact Or.inr (hsettled.rest i hi)
  refine ⟨fun i => ⟨_, (hserver i).self⟩, ?_, fun i hi => ?_, fun i => ?_, fun i => ?_,
    fun i hi => ?_⟩
  · rw [(hserver top).self, hsettled.node_top]
    rfl
  · rw [(hserver i).self, hsettled.rest i hi]
    rfl
  · apply (hserver i).passive
    rcases hnode i with hn | hn <;> simp [hn, Node.Active]
  · rw [(hserver i).participant]
    rcases hnode i with hn | hn <;> simp [hn, participantOf]
  · rw [(hserver i).multicasts, hsettled.rest i hi]
    rfl

/-- When the frames of an election are gone, it is over. -/
theorem elected_of_run (run : Run (CrashRing.step ring socket inbound) x₀.whole h x)
    (hpeace : ∀ z ∈ h, z.2.Peaceful) (hstarted : ∃ z ∈ h, z.1.TimesOut z.2) (hcalm : x.Calm) :
    Elected x₀ x.toNetwork top := by
  obtain ⟨h', c, run', hsim, halive, -, -, hbegun, -⟩ :=
    exists_protocol hintact hring htop run hpeace
  have hinv : Inv ring (fun i => (x₀.server i).self.id) top c :=
    inv_of_run hring hintact.id_injective htop run'
  have hpos : 0 < timeouts h := List.countP_pos_iff.mpr (by simpa using hstarted)
  exact hsim.elected halive (hinv.settled (hbegun hpos) (hsim.link_eq_nil_iff.mp hcalm))

/-- What is on the links can be received until the election is over. -/
theorem election_of_settling (run : Run (CrashRing.step ring socket inbound) x₀.whole h x)
    (hpeace : ∀ z ∈ h, z.2.Peaceful) (hstarted : ∃ z ∈ h, z.1.TimesOut z.2) (env : Env) :
    ∃ h' y, Run (CrashRing.step ring socket inbound) x h' y ∧
      (∀ z ∈ h', ∃ i, z.2 = .deliver i env) ∧
      2 * ∑ i, received h' i ≤
        Fintype.card ι * (Fintype.card ι + 1) + 2 * (Fintype.card ι * (timeouts h + 1)) ∧
      y.Calm ∧ Elected x₀ y.toNetwork top := by
  obtain ⟨h₁, c, run₁, hsim, halive, -, hresends, hbegun, -⟩ :=
    exists_protocol hintact hring htop run hpeace
  have hinv : Inv ring (fun i => (x₀.server i).self.id) top c :=
    inv_of_run hring hintact.id_injective htop run₁
  have hpos : 0 < timeouts h := List.countP_pos_iff.mpr (by simpa using hstarted)
  obtain ⟨h₂, c', run₂, hdeliver, hdone⟩ := hinv.exists_settling hring hintact.id_injective htop
  obtain ⟨h', y, run', hsim', halive', hcount, hall⟩ :=
    hsim.deliver_all inbound hintact hring htop hinv halive run₂ hdeliver env
  have hover : Inv ring (fun i => (x₀.server i).self.id) top c' ∧ Started c' :=
    run₂.guarded (P := fun d => Inv ring (fun i => (x₀.server i).self.id) top d ∧ Started d)
      (C := fun _ _ => True) ⟨hinv, hbegun hpos⟩
      (fun d b d' hd _ hb => ⟨hd.1.step hring hintact.id_injective htop hb,
        hd.1.started hintact.id_injective hd.2 hb⟩) fun _ _ _ => trivial
  refine ⟨h', y, run', hall, ?_, hsim'.link_eq_nil_iff.mpr hdone,
    hsim'.elected halive' (hover.1.settled hover.2 hdone)⟩
  -- all of `h₂` are deliveries, and the bound is for both parts together
  have hdeliveries : deliveries h₂ = h₂.length := by
    rw [deliveries, List.countP_eq_length]
    intro z hz
    obtain ⟨i, hi⟩ := hdeliver z hz
    simp [hi]
  have hnone : resends h₂ = 0 := by
    rw [resends, List.countP_eq_zero]
    intro z hz
    obtain ⟨i, hi⟩ := hdeliver z hz
    simp [hi]
  have hrun := deliveries_le hring hintact.id_injective htop (run₁.append run₂)
  rw [deliveries_append, resends_append, hnone, Nat.add_zero] at hrun
  have hstart := potential_start_le top hring hintact.id_injective
  have hrounds := Nat.mul_le_mul_left (Fintype.card ι) hresends
  have hsplit := Nat.mul_add_one (Fintype.card ι) (timeouts h)
  omega

/-- **An election comes to its end.**  Once a timer has found the leader overdue, the blocks on
the links can be received one after another until no frame of the election is left, and then the
server with the largest ID is the leader and every other server has asked for it. -/
theorem election_ends (run : Run (CrashRing.step ring socket inbound) x₀.whole h x)
    (hpeace : ∀ z ∈ h, z.2.Peaceful) (hstarted : ∃ z ∈ h, z.1.TimesOut z.2) (env : Env) :
    ∃ h' y, Run (CrashRing.step ring socket inbound) x h' y ∧
      (∀ z ∈ h', ∃ i, z.2 = .deliver i env) ∧
      2 * ∑ i, received h' i ≤
        Fintype.card ι * (Fintype.card ι + 1) + 2 * (Fintype.card ι * (timeouts h + 1)) ∧
      y.Calm ∧ Elected x₀ y.toNetwork top :=
  election_of_settling hintact hring htop run hpeace hstarted env

end Protocol

/-! ## Four servers in descending order -/

private def fourIds : Fin 4 → ℤ := ![40, 30, 20, 10]

/-- Servers 40, 30, 20 and 10 in a ring; their leader had the ID 15. -/
private def fourServers : Network (Fin 4) where
  server i := { startLeader 0 (fourIds i) (text "10.0.0.1") 4041 20000 3 4 with
    self := createServer 0 (fourIds i) (text "10.0.0.1") 4041 0 3
    next := [createServer 0 15 (text "10.0.0.2") 4041 1 5,
      createServer 0 (fourIds (finRotate 4 i)) (text "10.0.0.1") 4041 0 6]
    successorSocket := 6 }
  link _ := []

private def fourStep := CrashRing.step (finRotate 4) (fun _ => 6) (fun _ => 7)

private theorem fourServers_intact : Intact (finRotate 4) (fun _ => 6) fourServers :=
  ⟨by decide, by decide, by decide, by decide, fun _ => ⟨_, _, rfl, rfl, rfl⟩, by decide,
    fun _ => rfl⟩

private theorem fourRing : (finRotate 4).IsCycleOn Set.univ := by
  have hpow : ∀ x y : Fin 4, ((finRotate 4) ^ ((y - x : Fin 4) : ℕ)) x = y := by decide
  refine ⟨Set.bijOn_univ.mpr (finRotate 4).bijective, fun x _ y _ => ⟨((y - x : Fin 4) : ℕ), ?_⟩⟩
  rw [zpow_natCast]
  exact hpow x y

private theorem fourTop : ∀ i, (fourServers.server i).self.id ≤ (fourServers.server 0).self.id := by
  decide

/-- The timers of all servers fire. -/
private def fourTimers : List (CrashAction (Fin 4)) :=
  (List.finRange 4).map fun i => .timer i afterTimeout.1

/-- What is on the links arrives, round after round. -/
private def fourDeliveries : List (CrashAction (Fin 4)) :=
  [0, 0, 1, 1, 2, 2, 3, 3].map fun i => .deliver i afterTimeout.1

private def fourEnd : CrashRing (Fin 4) :=
  (exec fourStep fourServers.whole (fourTimers ++ fourDeliveries)).get (by decide +kernel)

theorem election_frames_le_four :
    ∑ i, (framesSent fourServers (fun _ => 6) fourEnd i).length = 14 ∧
      2 * ∑ i, (framesSent fourServers (fun _ => 6) fourEnd i).length ≤ 60 := by
  have hpeace : ∀ a ∈ fourTimers ++ fourDeliveries, a.Peaceful :=
    List.forall_mem_append.mpr ⟨List.forall_mem_map.mpr fun _ _ => trivial,
      List.forall_mem_map.mpr fun _ _ => trivial⟩
  have run : Run fourStep fourServers.whole
      (trace fourStep fourServers.whole (fourTimers ++ fourDeliveries)) fourEnd :=
    Run.of_exec (Option.some_get _).symm
  have hcount : timeouts (trace fourStep fourServers.whole (fourTimers ++ fourDeliveries)) = 4 := by
    decide +kernel
  have hle := election_frames_le fourServers_intact fourRing fourTop run
    fun z hz => hpeace z.2 (mem_of_mem_trace hz)
  rw [hcount] at hle
  exact ⟨by decide +kernel, hle⟩

private def fourStarted : CrashRing (Fin 4) :=
  (exec fourStep fourServers.whole fourTimers).get (by decide +kernel)

theorem election_ends_four :
    ∃ h' y, Run fourStep fourStarted h' y ∧ 2 * ∑ i, received h' i ≤ 60 ∧
      Elected fourServers y.toNetwork 0 := by
  have hpeace : ∀ a ∈ fourTimers, a.Peaceful := List.forall_mem_map.mpr fun _ _ => trivial
  have run : Run fourStep fourServers.whole (trace fourStep fourServers.whole fourTimers)
      fourStarted := Run.of_exec (Option.some_get _).symm
  have hcount : timeouts (trace fourStep fourServers.whole fourTimers) = 4 := by decide +kernel
  have hstarted : ∃ z ∈ trace fourStep fourServers.whole fourTimers, z.1.TimesOut z.2 :=
    ⟨(fourServers.whole, .timer 0 afterTimeout.1), head_mem_trace (by decide +kernel) _,
      by decide +kernel⟩
  obtain ⟨h', y, run', -, hle, -, helected⟩ := election_ends fourServers_intact fourRing fourTop
    run (fun z hz => hpeace z.2 (mem_of_mem_trace hz)) hstarted afterTimeout.1
  rw [hcount] at hle
  exact ⟨h', y, run', hle, helected⟩

end ChatRing
