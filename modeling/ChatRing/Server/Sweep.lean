import ChatRing.Server.Leader

/-!
# Which peers a heartbeat sweep removes

A sweep names the peer it removes by the number of its socket.  The record of a peer
outlives its connection by up to the timeout, so that another peer may have got the
same number since; the sweep then removes the first of them in the list.

## Main results

* `sweep_iff` — when a sweep removes the peers whose heartbeat is overdue, and no other.
* `sweep_removes_timed_out_iff` — the same for every state a leader reaches.
-/

namespace ChatRing
open CText

variable (env : Env) (timeout : ℤ)

/-- The peers that a sweep should keep. -/
def alive (next : List ServerInfo) : List ServerInfo :=
  next.filter fun p => ¬ TimedOut env timeout p

/-- No peer that is alive stands before a timed-out one with the same socket. -/
def SocketsInOrder (next : List ServerInfo) : Prop :=
  next.Pairwise fun y x =>
    TimedOut env timeout x → ¬ TimedOut env timeout y → y.tcpSocket ≠ x.tcpSocket

instance (next : List ServerInfo) : Decidable (SocketsInOrder env timeout next) :=
  inferInstanceAs (Decidable (List.Pairwise _ _))

/-- The repair messages for the timed-out peers of `rest` can all be sent: each goes to
the kept peer before the gap, around the ring, while two peers or more are left. -/
def RepairsSucceed : List ServerInfo → List ServerInfo → List Output → Prop
  | _, [], _ => True
  | kept, x :: rest, out =>
      if TimedOut env timeout x then
        match repair kept rest with
        | none => RepairsSucceed kept rest out
        | some (pred, successor) =>
            env.sends out pred.tcpSocket (repairFrame successor) = true ∧
              RepairsSucceed kept rest (out ++ [.send pred.tcpSocket (repairFrame successor)])
      else RepairsSucceed (kept ++ [x]) rest out

variable {env timeout} {s t : Server} {kept rest : List ServerInfo} {x : ServerInfo}

/-- Removing a timed-out peer loses only the condition on its own socket. -/
theorem socketsInOrder_remove (hx : TimedOut env timeout x)
    (hkept : ∀ y ∈ kept, ¬ TimedOut env timeout y) :
    SocketsInOrder env timeout (kept ++ x :: rest) ↔
      (∀ y ∈ kept, y.tcpSocket ≠ x.tcpSocket) ∧ SocketsInOrder env timeout (kept ++ rest) := by
  simp only [SocketsInOrder, List.pairwise_append, List.pairwise_cons]
  constructor
  · rintro ⟨h₁, ⟨-, h₂⟩, h₃⟩
    exact ⟨fun y hy => h₃ y hy x (by simp) hx (hkept y hy), h₁, h₂,
      fun y hy z hz => h₃ y hy z (by simp [hz])⟩
  · rintro ⟨hsocket, h₁, h₂, h₃⟩
    refine ⟨h₁, ⟨fun z _ _ halive => absurd hx halive, h₂⟩, ?_⟩
    intro y hy z hz
    rcases List.mem_cons.mp hz with rfl | hz
    · exact fun _ _ => hsocket y hy
    · exact h₃ y hy z hz

/-- A living peer with the socket of a timed-out one behind it is removed in its place. -/
theorem not_sweep_of_shared_socket (hs : Leading s) (hnext : s.next = kept ++ x :: rest)
    {y : ServerInfo} (hy : y ∈ kept) (hsocket : y.tcpSocket = x.tcpSocket)
    {l : List ServerInfo} {u : Server} (hu : ringStatus env s x.tcpSocket = .ok u)
    (h : sweep env timeout l u = .ok t) : ¬ ∀ z ∈ kept, z ∈ t.next := by
  obtain ⟨-, a, z, b, hsplit, hz, hfirst, hunext⟩ := ringStatus_eq_ok hs.ascending hu
  have hasc : Ascending (a ++ z :: b) := hsplit ▸ hs.ascending
  have hsub : t.next.Sublist (a ++ b) := by
    have huasc : Ascending u.next := by
      rw [hunext]
      exact hasc.sublist (List.Sublist.append_left (List.sublist_cons_self z b) a)
    rw [← hunext]
    exact (sweep_sublist huasc h).2
  have hzkept : z ∈ kept := by
    rw [hnext] at hsplit
    rcases List.append_eq_append_iff.mp hsplit with ⟨c, rfl, -⟩ | ⟨c, rfl, hc⟩
    · exact absurd hsocket (hfirst y (List.mem_append_left c hy))
    · cases c with
      | nil => exact absurd hsocket (hfirst y (by simpa using hy))
      | cons w c =>
          cases hc
          simp
  intro hall
  have hmem : z ∈ a ++ b := hsub.subset (hall z hzkept)
  exact hasc.id_ne_of_append z hmem rfl

theorem sweep_cons_of_timedOut (hx : TimedOut env timeout x) :
    sweep env timeout (x :: rest) s = ringStatus env s x.tcpSocket >>= sweep env timeout rest := by
  rw [sweep, if_pos hx]

theorem sweep_cons_of_alive (hx : ¬ TimedOut env timeout x) :
    sweep env timeout (x :: rest) s = sweep env timeout rest s := by
  rw [sweep, if_neg hx]

/-- **When the rest of a sweep goes right.**  The peers looked at so far are `kept`, and
`rest` are those still to come. -/
theorem sweep_iff (hs : Leading s) (hnext : s.next = kept ++ rest)
    (hkept : ∀ y ∈ kept, ¬ TimedOut env timeout y) :
    (∃ t, sweep env timeout rest s = .ok t ∧ t.next = kept ++ alive env timeout rest) ↔
      SocketsInOrder env timeout (kept ++ rest) ∧
        RepairsSucceed env timeout kept rest s.out := by
  induction rest generalizing s kept with
  | nil =>
      have horder : SocketsInOrder env timeout (kept ++ []) := by
        rw [List.append_nil]
        exact List.pairwise_of_forall_mem_list fun y _ x hx htimed => absurd htimed (hkept x hx)
      exact iff_of_true ⟨s, rfl, hnext⟩ ⟨horder, trivial⟩
  | cons x rest ih =>
      by_cases hx : TimedOut env timeout x
      · have halive : alive env timeout (x :: rest) = alive env timeout rest := by
          simp [alive, hx]
        rw [halive, sweep_cons_of_timedOut hx, socketsInOrder_remove hx hkept, RepairsSucceed,
          if_pos hx]
        by_cases hfirst : ∀ y ∈ kept, y.tcpSocket ≠ x.tcpSocket
        · -- the right record goes; what is left to decide is the repair message
          have hid : ∀ y ∈ kept, y.id ≠ x.id := by
            have hasc := hs.ascending
            rw [hnext] at hasc
            exact fun y hy => hasc.id_ne_of_append y (List.mem_append_left rest hy)
          rw [ringStatus_eq hs.leader hnext hfirst hid]
          have hremoved : Leading { s with next := kept ++ rest } := by
            refine hs.of_sublist rfl ?_
            rw [hnext]
            exact List.Sublist.append_left (List.sublist_cons_self x rest) kept
          cases hrepair : repair kept rest with
          | none =>
              simp only [sendRepair, Except.ok_bind]
              rw [ih hremoved rfl hkept, and_iff_right hfirst]
          | some p =>
              obtain ⟨pred, successor⟩ := p
              simp only [sendRepair, updateRing, Server.send]
              by_cases hsend : env.sends s.out pred.tcpSocket (repairFrame successor) = true
              · rw [if_pos hsend]
                simp only [Except.ok_bind]
                have hsent := ih (s := { s with
                  next := kept ++ rest
                  out := s.out ++ [.send pred.tcpSocket (repairFrame successor)] })
                  ⟨hremoved.leader, hremoved.ascending⟩ rfl hkept
                rw [hsent, and_iff_right hfirst, and_iff_right hsend]
              · rw [if_neg hsend]
                refine iff_of_false ?_ fun h => hsend h.2.1
                rintro ⟨t, ht, -⟩
                cases ht
        · refine iff_of_false ?_ fun h => hfirst h.1.1
          push Not at hfirst
          obtain ⟨y, hy, hsocket⟩ := hfirst
          rintro ⟨t, ht, htnext⟩
          obtain ⟨u, hu, ht⟩ := Except.bind_eq_ok.mp ht
          apply not_sweep_of_shared_socket hs hnext hy hsocket hu ht
          intro z hz
          rw [htnext]
          exact List.mem_append_left _ hz
      · have halive : kept ++ alive env timeout (x :: rest) =
            (kept ++ [x]) ++ alive env timeout rest := by simp [alive, hx]
        rw [halive, sweep_cons_of_alive hx, RepairsSucceed, if_neg hx]
        have hkept' : ∀ y ∈ kept ++ [x], ¬ TimedOut env timeout y := by
          intro y hy
          rcases List.mem_append.mp hy with hy | hy
          · exact hkept y hy
          · rw [List.mem_singleton.mp hy]
            exact hx
        have hsplit : kept ++ x :: rest = (kept ++ [x]) ++ rest := by simp
        rw [hsplit]
        exact ih hs (hnext.trans hsplit) hkept'

/-- **The sweep of a leader removes exactly the timed-out peers if and only if** no
living peer stands before a timed-out one with the same socket number, and every
repair message can be sent. -/
theorem sweep_removes_timed_out_iff {s₀ : Server} (hleader : s₀.self.leader = 1)
    (hstart : s₀.next = []) {h : List (Server × LeaderAction)}
    (run : Run Server.leaderStep s₀ h s) (env : Env) (timeout : ℤ) :
    (∃ t, checkHeartbeatTimeout env s timeout = .ok t ∧ t.next = alive env timeout s.next) ↔
      SocketsInOrder env timeout s.next ∧ RepairsSucceed env timeout [] s.next s.out := by
  have hs : Leading s :=
    run.invariant (leading_of_start hleader hstart) fun _ _ _ hx hstep => hx.step hstep
  exact sweep_iff hs (List.nil_append s.next).symm (by simp)

/-! ## A socket number that is used again -/

private def loneLeader : Server := startLeader 0 7 (text "127.0.0.1") 4041 20000 3 4

/-- At time `now` the next descriptor is `fd`, and every send succeeds. -/
private def atTime (now : ℤ) (fd : Socket) : Env := ⟨now, fd, fun _ _ _ => true, true, 0⟩

/-- Peer 20 joins on descriptor 5 and disconnects; peer 10 joins on a descriptor that
is then `fd`. -/
private def rejoin (fd : Socket) : List LeaderAction :=
  [.discovery (atTime 0 5) 20 5000 (text "10.0.0.1"), .disconnect 5,
    .discovery (atTime 5 fd) 10 5000 (text "10.0.0.2")]

private def reusedEnd : Server :=
  (exec Server.leaderStep loneLeader (rejoin 5)).get (by decide +kernel)

private def freshEnd : Server :=
  (exec Server.leaderStep loneLeader (rejoin 6)).get (by decide +kernel)

/-- Peer 10 got the number of peer 20's closed descriptor.  The sweep that finds peer
20 overdue removes peer 10, which was heard of three seconds ago, and keeps peer 20. -/
theorem sweep_removes_living_peer :
    Run Server.leaderStep loneLeader (trace Server.leaderStep loneLeader (rejoin 5)) reusedEnd ∧
      (reusedEnd.next.map fun p => (p.id, p.lastHeartbeat)) = [(10, 5), (20, 0)] ∧
      ((checkHeartbeatTimeout (atTime 8 5) reusedEnd 8).toOption.map
        fun t => t.next.map ServerInfo.id) = some [20] ∧
      ((alive (atTime 8 5) 8 reusedEnd.next).map ServerInfo.id) = [10] :=
  ⟨Run.of_exec (Option.some_get _).symm, by decide +kernel, by decide +kernel,
    by decide +kernel⟩

theorem sweep_removes_timed_out_iff_rejoin :
    (freshEnd.next.map ServerInfo.id) = [10, 20] ∧
      ((∃ t, checkHeartbeatTimeout (atTime 8 5) freshEnd 8 = .ok t ∧
          t.next = alive (atTime 8 5) 8 freshEnd.next) ↔
        SocketsInOrder (atTime 8 5) 8 freshEnd.next ∧
          RepairsSucceed (atTime 8 5) 8 [] freshEnd.next freshEnd.out) :=
  ⟨by decide +kernel,
    sweep_removes_timed_out_iff (show loneLeader.self.leader = 1 from rfl) rfl
      (Run.of_exec (Option.some_get _).symm) (atTime 8 5) 8⟩

end ChatRing
