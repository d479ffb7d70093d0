import ChatRing.Server.ElectionFrame
import ChatRing.Server.Loop
import Mathlib.Logic.Equiv.Fin.Rotate

/-!
# An election on an intact ring

Servers on a ring whose leader has crashed, and the frames on the links between them.
A step is a leader timeout at one server, or the arrival of a frame.  Links keep the
order, and every send succeeds; the ring is not being rebuilt.  A timeout is a call of
`check_leader_timeout`; what `main` sends around it is added in `CrashRing`.

Every run is a run of the abstract protocol: `Sim` relates a server to its node and a
frame to its token.

## Main results

* `Sim.step` — the servers refine the protocol, and no handler fails.
* `election_on_intact_ring` — who is elected, and what is left when the frames are gone.
-/

namespace ChatRing
open CText RingElection Function

/-- Answers of the operating system under which every send succeeds. -/
abbrev ReliableEnv := {env : Env // env.AllSucceed}

/-- The servers, and for each one the frames that it sent to its successor and that have
not arrived. -/
structure Network (ι : Type*) where
  server : ι → Server
  link : ι → List Text

inductive RingAction (ι : Type*)
  /-- Server `i` calls `check_leader_timeout` and finds the leader overdue. -/
  | timeout (i : ι) (env : ReliableEnv)
  /-- The first frame on the link of `i` is received by the successor of `i`. -/
  | deliver (i : ι) (env : ReliableEnv)

section Model
variable {ι : Type*} [DecidableEq ι] (ring : Equiv.Perm ι) (socket inbound : ι → Socket)

/-- The new state of a server, and the frames it sent on its link. -/
def Network.put (x : Network ι) (i : ι) (s : Server) : Network ι where
  server := update x.server i s
  link := update x.link i
    (x.link i ++ sentOn (s.out.drop (x.server i).out.length) (socket i))

/-- `socket i` is the descriptor on which server `i` reaches its successor, `inbound i`
the one on which its predecessor reaches it. -/
def Network.step (x : Network ι) : RingAction ι → Option (Network ι)
  | .timeout i env =>
      match (x.server i).next with
      | [] => none
      | leader :: _ =>
          if TimedOut env (2 * heartbeatTimeout) leader then
            (checkLeaderTimeout env (x.server i) (2 * heartbeatTimeout)).toOption.map
              (x.put socket i)
          else none
  | .deliver i env =>
      match x.link i with
      | [] => none
      | received :: rest =>
          (handleSocketChange env (x.server (ring i)) (inbound (ring i)) received).toOption.map
            (Network.put socket { x with link := update x.link i rest } (ring i))

/-- The action can be taken: the list is not just the server itself and the leader is
overdue, or a frame is on the link. -/
def RingAction.Enabled (x : Network ι) : RingAction ι → Prop
  | .timeout i env =>
      ∃ leader rest, (x.server i).next = leader :: rest ∧
        TimedOut env (2 * heartbeatTimeout) leader
  | .deliver i _ => x.link i ≠ []

/-- Before the election: the list of every server is `[self, leader, successor]`. -/
structure Intact (x : Network ι) : Prop where
  id_injective : Injective fun i => (x.server i).self.id
  id : ∀ i, IsId (x.server i).self.id
  leader : ∀ i, (x.server i).self.leader = 0
  participant : ∀ i, (x.server i).participant = 0
  next : ∀ i, ∃ leader successor, (x.server i).next = [leader, successor] ∧
    successor.id = (x.server (ring i)).self.id ∧ successor.tcpSocket = socket i
  socket : ∀ i, IsValidSocket (socket i)
  link : ∀ i, x.link i = []

end Model

/-! ## Simulation -/

/-- The servers are in the states of the nodes, and the frames are those of the tokens. -/
structure Sim {ι : Type*} (x₀ : Network ι) (socket : ι → Socket) (x : Network ι)
    (c : Config ι ℤ) : Prop where
  server : ∀ i, Represents (x₀.server i) (socket i) (c.node i) (x.server i)
  link : ∀ i, x.link i = (c.link i).map frame

/-- The action of the protocol. -/
def RingAction.erase {ι : Type*} : RingAction ι → Action ι
  | .timeout i _ => .timeout i
  | .deliver i _ => .deliver i

section Simulation
variable {ι : Type*} [DecidableEq ι] {ring : Equiv.Perm ι} {socket inbound : ι → Socket}
  {x₀ x y : Network ι} {c : Config ι ℤ} {i : ι}

omit [DecidableEq ι] in
theorem Intact.sim (h : Intact ring socket x₀) : Sim x₀ socket x₀ start where
  server := by
    intro i
    obtain ⟨leader, successor, hnext, -, hsocket⟩ := h.next i
    refine ⟨?_, h.participant i, fun _ => ⟨leader, successor, hnext, hsocket⟩,
      fun hn => absurd (Or.inl rfl) hn, (List.append_nil _).symm⟩
    show (x₀.server i).self = { (x₀.server i).self with leader := 0 }
    rw [← h.leader i]
  link := h.link

/-- A server that moves and a node that moves stay related. -/
theorem Sim.put (h : Sim x₀ socket x c) {r : Node × Option (Token ℤ)} {s : Server}
    (hmove : Moves (x₀.server i) (socket i) (x.server i) r s) :
    Sim x₀ socket (x.put socket i s) (c.put i r) where
  server := by
    intro j
    by_cases hj : j = i
    · subst hj
      simpa [Network.put] using hmove.1
    · simpa [Network.put, hj] using h.server j
  link := by
    intro j
    obtain ⟨-, sent, hout, hsent⟩ := hmove
    by_cases hj : j = i
    · subst hj
      simp [Network.put, hout, hsent, h.link j]
    · simpa [Network.put, hj] using h.link j

theorem Sim.pop (h : Sim x₀ socket x c) (rest : List (Token ℤ)) :
    Sim x₀ socket { x with link := update x.link i (rest.map frame) } (c.pop i rest) where
  server := h.server
  link := by
    intro j
    by_cases hj : j = i
    · subst hj
      simp
    · simpa [hj] using h.link j

variable [Finite ι] [Nontrivial ι] (hintact : Intact ring socket x₀)
  (hring : ring.IsCycleOn Set.univ) {top : ι}
  (htop : ∀ i, (x₀.server i).self.id ≤ (x₀.server top).self.id)

include hintact hring htop

omit [DecidableEq ι] [Finite ι] hring in
/-- With two servers the largest ID is not 1. -/
theorem Intact.top_ne_one : (x₀.server top).self.id ≠ 1 := by
  obtain ⟨j, hj⟩ := exists_ne top
  have hne : (x₀.server j).self.id ≠ (x₀.server top).self.id :=
    fun heq => hj (hintact.id_injective heq)
  have hle := htop j
  have hpos := (hintact.id j).1
  omega

omit [DecidableEq ι] in
/-- **The receiver of a frame does what the node does with the token.** -/
theorem handleSocketChange_frame_refines
    (hinv : Inv ring (fun i => (x₀.server i).self.id) top c) {u : Token ℤ} (hu : u ∈ c.link i)
    {s : Server} (h : Represents (x₀.server (ring i)) (socket (ring i)) (c.node (ring i)) s)
    {env : Env} (henv : (c.node (ring i)).Active → env.Reaches (socket (ring i))) (fd : Socket) :
    ∃ t, handleSocketChange env s fd (frame u) = .ok t ∧
      Moves (x₀.server (ring i)) (socket (ring i)) s
        (receive (x₀.server (ring i)).self.id (c.node (ring i)) u) t := by
  cases u with
  | vote q =>
      have htravel := hinv.travelling hu
      have hown : q = (x₀.server (ring i)).self.id →
          c.node (ring i) ≠ .follower ∧ (x₀.server (ring i)).self.id ≠ 1 := by
        rintro rfl
        refine ⟨fun hf => hinv.ne_own hring hintact.id_injective hu hf rfl, ?_⟩
        rw [htravel.eq_top hring hintact.id_injective]
        exact hintact.top_ne_one htop
      obtain ⟨o, ho, -⟩ := htravel
      obtain rfl := Token.vote.inj ho
      exact handleSocketChange_vote_refines h henv (hintact.socket (ring i))
        (hintact.id (ring i)) (hintact.id o) hown fd
  | leader q =>
      obtain rfl := hinv.leader_eq hu
      exact handleSocketChange_leader_refines h henv (hintact.socket (ring i))
        (hintact.id (ring i)) (hintact.id top) fd

/-- **An action that can be taken returns, and is an action of the protocol.** -/
theorem Sim.step (h : Sim x₀ socket x c)
    (hinv : Inv ring (fun i => (x₀.server i).self.id) top c) {a : RingAction ι}
    (ha : a.Enabled x) :
    ∃ y c', Network.step ring socket inbound x a = some y ∧
      RingElection.step ring (fun i => (x₀.server i).self.id) c a.erase = some c' ∧
        Sim x₀ socket y c' := by
  cases a with
  | timeout i env =>
      obtain ⟨leader, rest, hnext, hdue⟩ := ha
      have hserver := h.server i
      have hn : (c.node i).Active := by
        by_contra hn
        simp [hserver.passive hn] at hnext
      obtain ⟨t, ht, hmove⟩ := checkLeaderTimeout_refines hserver (Env.AllSucceed.reaches env.2 _)
        hn (2 * heartbeatTimeout) (by simpa [hnext] using hdue)
      refine ⟨x.put socket i t, _, ?_, ?_, h.put hmove⟩
      · simp only [Network.step, hnext, if_pos hdue, ht]
        rfl
      · rcases hn with hn | hn
        · simp [RingAction.erase, RingElection.step, hn]
        · have hself : c.put i (.candidate, none) = c := by rw [← hn, put_self]
          simp [RingAction.erase, RingElection.step, hn, hself]
  | deliver i env =>
      obtain ⟨u, rest, hlink⟩ := List.exists_cons_of_ne_nil
        (show c.link i ≠ [] from fun hnil => ha (by rw [h.link i, hnil]; rfl))
      have hxlink : x.link i = frame u :: rest.map frame := by rw [h.link i, hlink]; rfl
      have hpop := h.pop (i := i) rest
      have hmem : u ∈ c.link i := by simp [hlink]
      obtain ⟨t, ht, hmove⟩ := handleSocketChange_frame_refines hintact hring htop hinv hmem
        (h.server (ring i)) (fun _ => Env.AllSucceed.reaches env.2 _) (inbound (ring i))
      refine ⟨_, _, ?_, ?_, hpop.put hmove⟩
      · simp only [Network.step, hxlink, ht]
        rfl
      · simp only [RingAction.erase, RingElection.step, hlink]

/-- Every run of the servers is a run of the protocol with the same actions. -/
theorem Sim.run {h : List (Network ι × RingAction ι)}
    (run : Run (Network.step ring socket inbound) x₀ h x) :
    ∃ h' c, Run (RingElection.step ring fun i => (x₀.server i).self.id) start h' c ∧
      h'.map Prod.snd = h.map (RingAction.erase ∘ Prod.snd) ∧ Sim x₀ socket x c := by
  induction run with
  | nil => exact ⟨[], start, Run.nil, rfl, hintact.sim⟩
  | @snoc h x y a run hstep ih =>
      obtain ⟨h', c, run', hactions, hsim⟩ := ih
      have hinv : Inv ring (fun i => (x₀.server i).self.id) top c :=
        inv_of_run hring hintact.id_injective htop run'
      have ha : a.Enabled x := by
        cases a with
        | timeout i env =>
            simp only [Network.step] at hstep
            split at hstep
            · cases hstep
            · rename_i leader rest hnext
              split at hstep
              · rename_i hdue
                exact ⟨leader, rest, hnext, hdue⟩
              · cases hstep
        | deliver i env =>
            simp only [Network.step] at hstep
            split at hstep
            · cases hstep
            · rename_i received rest hlink
              simp [RingAction.Enabled, hlink]
      obtain ⟨y', c', hy, hc, hsim'⟩ := hsim.step hintact hring htop hinv ha
      obtain rfl := Option.some.inj (hy.symm.trans hstep)
      exact ⟨h' ++ [(c, a.erase)], c', Run.snoc run' hc, by simp [hactions], hsim'⟩

/-- **Election on an intact ring.**  Only the server with the largest ID ever becomes
leader.  Once a leader timeout has been taken and no frame is left, it is the leader, no
server knows another one or takes part, and every other server has asked once who the
leader is.  No handler fails on the way. -/
theorem election_on_intact_ring {h : List (Network ι × RingAction ι)}
    (run : Run (Network.step ring socket inbound) x₀ h x) :
    (∀ i ≠ top, (x.server i).self.leader = 0) ∧
      ((∃ y i env, (y, .timeout i env) ∈ h) → (∀ i, x.link i = []) →
        (x.server top).self.leader = 1 ∧
          ∀ i, (x.server i).next = [] ∧ (x.server i).participant = 0 ∧
            (i ≠ top → multicasts (x.server i).out = multicasts (x₀.server i).out ++
              [padX (whoIsLeader (x₀.server i).self.id (x₀.server i).self.port)])) ∧
        ∀ a : RingAction ι, a.Enabled x →
          (Network.step ring socket inbound x a).isSome := by
  obtain ⟨h', c, run', hactions, hsim⟩ := Sim.run hintact hring htop run
  have hinv : Inv ring (fun i => (x₀.server i).self.id) top c :=
    inv_of_run hring hintact.id_injective htop run'
  refine ⟨?_, ?_, ?_⟩
  · intro i hi
    rw [(hsim.server i).self]
    show leaderOf (c.node i) = 0
    have hnot := fun hlead => hi (hinv.eq_top hlead)
    generalize c.node i = n at hnot
    cases n with
    | idle => rfl
    | candidate => rfl
    | leading => exact absurd (Or.inl rfl) hnot
    | crowned => exact absurd (Or.inr rfl) hnot
    | follower => rfl
  · rintro ⟨y, i, env, hmem⟩ hlink
    have hstarted : ∃ y' i, (y', .timeout i) ∈ h' := by
      have haction : Action.timeout i ∈ h'.map Prod.snd := by
        rw [hactions]
        exact List.mem_map_of_mem hmem
      obtain ⟨⟨y', a⟩, hmem', rfl⟩ := List.mem_map.mp haction
      exact ⟨y', i, hmem'⟩
    have hempty : ∀ i, c.link i = [] := by
      intro i
      have hi := hlink i
      rwa [hsim.link i, List.map_eq_nil_iff] at hi
    have hsettled := settled_of_run hring hintact.id_injective htop run' hstarted hempty
    have htopServer := hsim.server top
    rw [hsettled.node_top] at htopServer
    refine ⟨by rw [htopServer.self]; rfl, ?_⟩
    intro i
    by_cases hi : i = top
    · subst hi
      exact ⟨htopServer.passive (by simp [Node.Active]), htopServer.participant,
        fun hne => absurd rfl hne⟩
    · have hserver := hsim.server i
      rw [hsettled.rest i hi] at hserver
      exact ⟨hserver.passive (by simp [Node.Active]), hserver.participant,
        fun _ => hserver.multicasts⟩
  · intro a ha
    obtain ⟨y, c', hy, -, -⟩ := hsim.step hintact hring htop hinv ha
    rw [hy]
    rfl

end Simulation

/-! ## Three servers -/

private def threeIds (i : Fin 3) : ℤ := if i = 0 then 20 else if i = 1 then 7 else 12

/-- Servers 20, 7 and 12 in a ring; their leader had the ID 15. -/
private def threeServers : Network (Fin 3) where
  server i := { startLeader 0 (threeIds i) (text "10.0.0.1") 4041 20000 3 4 with
    self := createServer 0 (threeIds i) (text "10.0.0.1") 4041 0 3
    next := [createServer 0 15 (text "10.0.0.2") 4041 1 5,
      createServer 0 (threeIds (finRotate 3 i)) (text "10.0.0.1") 4041 0 6]
    successorSocket := 6 }
  link _ := []

def afterTimeout : ReliableEnv :=
  ⟨⟨8, errorReturn, fun _ _ _ => true, true, 0⟩, fun _ _ _ => rfl, rfl⟩

/-- Servers 7 and 12 start; the vote of 7 is dropped, that of 12 replaced by one of 20. -/
private def threeActions : List (RingAction (Fin 3)) :=
  [.timeout 1 afterTimeout, .timeout 2 afterTimeout, .deliver 1 afterTimeout,
    .deliver 2 afterTimeout, .deliver 0 afterTimeout, .deliver 1 afterTimeout,
    .deliver 2 afterTimeout, .deliver 0 afterTimeout, .deliver 1 afterTimeout,
    .deliver 2 afterTimeout]

private def threeStep := Network.step (finRotate 3) (fun _ => 6) (fun _ => 7)

private def threeEnd : Network (Fin 3) :=
  (exec threeStep threeServers threeActions).get (by decide +kernel)

theorem election_on_intact_ring_three :
    (threeEnd.server 0).self.leader = 1 ∧
      ∀ i ≠ 0, multicasts (threeEnd.server i).out =
        [padX (whoIsLeader (threeIds i) 4041)] := by
  have hpow : ∀ x y : Fin 3, ((finRotate 3) ^ ((y - x : Fin 3) : ℕ)) x = y := by decide
  have hring : (finRotate 3).IsCycleOn Set.univ := by
    refine ⟨Set.bijOn_univ.mpr (finRotate 3).bijective, fun x _ y _ => ⟨((y - x : Fin 3) : ℕ), ?_⟩⟩
    rw [zpow_natCast]
    exact hpow x y
  have hintact : Intact (finRotate 3) (fun _ => 6) threeServers :=
    ⟨by decide, by decide, by decide, by decide, fun _ => ⟨_, _, rfl, rfl, rfl⟩, by decide,
      fun _ => rfl⟩
  have htop : ∀ i, (threeServers.server i).self.id ≤ (threeServers.server 0).self.id := by decide
  have run : Run (Network.step (finRotate 3) (fun _ => 6) fun _ => 7) threeServers
      (trace threeStep threeServers threeActions) threeEnd := Run.of_exec (Option.some_get _).symm
  have hstarted : (threeServers, .timeout 1 afterTimeout) ∈
      trace threeStep threeServers threeActions := head_mem_trace (by decide +kernel) _
  obtain ⟨hleader, hothers⟩ := (election_on_intact_ring hintact hring htop run).2.1
    ⟨threeServers, 1, afterTimeout, hstarted⟩ (by decide +kernel)
  exact ⟨hleader, fun i hi => (hothers i).2.2 hi⟩

end ChatRing
