import ChatRing.Lib.ElectionCost
import ChatRing.Server.IntactRing
import ChatRing.Server.Role
import Mathlib.Data.Fintype.Lattice
import Mathlib.Logic.Equiv.Bool

/-!
# An election among servers that crash

The ring of `IntactRing` under the timers of `main`, whose servers may crash, at any point of
an election.  A timer sends what is in `sendBuf` to the leader and to the successor: a
heartbeat, and once the leader is overdue the own vote, again at every later timer.  What is
on its way to a crashed server is lost, and so is what is sent to it later, whether the send
seems to succeed or not.  The predecessor of a crashed server reads the end of their
connection and drops its successor.

A server that has voted takes part until an announcement reaches it.  While no frame of the
election is lost, a crash cannot be told from a server that is slow, so that every run is one
of the intact protocol, at the end of which nobody takes part.

## Main results

* `CrashSim.step` — a step that loses no frame is some steps of the protocol.
* `not_wedged_of_keepsFrames` — no run without a lost frame wedges.
-/

namespace ChatRing
open CText RingElection Function

/-- The servers of a ring, of which some have crashed. -/
structure CrashRing (ι : Type*) extends Network ι where
  alive : ι → Bool
  /-- The server has read the end of the connection to its successor. -/
  cut : ι → Bool

inductive CrashAction (ι : Type*)
  /-- The timer of server `i` fires. -/
  | timer (i : ι) (env : Env)
  /-- The first frame on the link of `i` is received. -/
  | deliver (i : ι) (env : Env)
  | crash (i : ι)
  /-- Server `i` reads the end of the connection to its successor. -/
  | disconnect (i : ι)

/-- Nobody crashes, and no connection ends. -/
def CrashAction.Peaceful {ι : Type*} : CrashAction ι → Prop
  | .timer .. | .deliver .. => True
  | .crash _ | .disconnect _ => False

namespace CrashRing
variable {ι : Type*} [DecidableEq ι] (ring : Equiv.Perm ι) (socket inbound : ι → Socket)

/-- The environment in which server `i` takes a step: what it sends to a live successor is
taken, and so is what it multicasts. -/
def envOf (x : CrashRing ι) (i : ι) (env : Env) : Env := { env with
  sends := fun out k bytes => (x.alive (ring i) && k = socket i) || env.sends out k bytes
  multicasts := true }

/-- Server `i` is gone, with all that was on its way to it. -/
def kill (x : CrashRing ι) (i : ι) : CrashRing ι :=
  { x with alive := update x.alive i false, link := update x.link (ring.symm i) [] }

/-- Server `i` moves; a frame for a crashed server is lost. -/
def put (x : CrashRing ι) (i : ι) (s : Server) : CrashRing ι :=
  if x.alive (ring i) then { x with toNetwork := x.toNetwork.put socket i s }
  else { x with server := update x.server i s }

/-- What a handler of server `i` returned; a fault is the end of the process. -/
def after (x : CrashRing ι) (i : ι) : Except Fault Server → CrashRing ι
  | .ok s => x.put ring socket i s
  | .error _ => x.kill ring i

def step (x : CrashRing ι) : CrashAction ι → Option (CrashRing ι)
  | .timer i env =>
      if x.alive i then
        some (x.after ring socket i (onTimer (x.envOf ring socket i env) (x.server i)))
      else none
  | .deliver i env =>
      match x.link i with
      | [] => none
      | received :: rest =>
          if x.alive (ring i) then
            some (after ring socket { x with link := update x.link i rest } (ring i)
              (handleSocketChange (x.envOf ring socket (ring i) env) (x.server (ring i))
                (inbound (ring i)) received))
          else none
  | .crash i => if x.alive i then some (x.kill ring i) else none
  | .disconnect i =>
      if x.alive i ∧ ¬ x.cut i ∧ ¬ x.alive (ring i) ∧ (x.server i).successorSocket = socket i then
        some (after ring socket { x with cut := update x.cut i true } i
          (ChatRing.disconnect (x.server i) (socket i)))
      else none

/-- No frame of the election is on its way. -/
def Calm (x : CrashRing ι) : Prop := ∀ i, elections (x.link i) = []

/-- No frame of the election is on its way, and a live server that is not the leader takes
part: as long as it lists a successor, `send_ele_msg` returns without a vote at its timeouts. -/
def Wedged (x : CrashRing ι) : Prop :=
  x.Calm ∧ ∃ j, x.alive j ∧ (x.server j).self.leader ≠ 1 ∧ (x.server j).participant = 1

/-- The timer of a follower finds its leader overdue. -/
def TimesOut (x : CrashRing ι) : CrashAction ι → Prop
  | .timer i env => (x.server i).self.leader ≠ 1 ∧ (x.server i).LeaderOverdue env
  | _ => False

instance [Fintype ι] (x : CrashRing ι) : Decidable x.Calm :=
  inferInstanceAs (Decidable (∀ _, _ = _))

instance (x : CrashRing ι) : (a : CrashAction ι) → Decidable (x.TimesOut a)
  | .timer i env => inferInstanceAs (Decidable (_ ∧ (x.server i).LeaderOverdue env))
  | .deliver .. | .crash _ | .disconnect _ => isFalse id

/-- The first frame on the link of `i` is a vote for a smaller ID than that of its receiver,
which takes part. -/
def Outvoted (x : CrashRing ι) (i : ι) : Prop :=
  (x.server (ring i)).participant = 1 ∧ ∃ q, IsInt q ∧ q < (x.server (ring i)).self.id ∧
    (x.link i).head? = some (frame (.vote q))

/-- The step loses no frame of the election, or only a vote that was sent before.  No server
begins a vote that seems to reach a crashed successor.  A frame is delivered to a server that
has not lost its successor and can send to it, or that is out of the election, or that may drop
the frame.  Nobody dies while a frame is on its way to it. -/
def KeepsFrames (x : CrashRing ι) : CrashAction ι → Prop
  | .timer i env => (x.server i).participant = 1 ∨ x.alive (ring i) = true ∨
      ¬ (x.server i).MayVote (x.envOf ring socket i env)
  | .deliver i _ => (∀ b ∈ (x.link i).head?, ¬ IsElection b) ∨ x.Outvoted ring i ∨
      x.cut (ring i) = false ∧
        (x.alive (ring (ring i)) = true ∨ (x.server (ring i)).next = [])
  | .crash i => elections (x.link (ring.symm i)) = []
  | .disconnect i => (x.server i).next ≠ [] ∨ elections (x.link (ring.symm i)) = []

end CrashRing

/-! ## Recognising a token -/

section Tokens
variable {p q : ℤ}

theorem frameBody_vote (hq : IsInt q) : frameBody ((frame (.vote q)).take bufferSize) =
    some (text "ELECTION:" ++ (text "VOTE" ++ (':' :: intText q))) := by
  rw [frame_vote]
  exact frameBody_election (by decide) (by decide) (by decide) hq

theorem frameBody_leader (hq : IsInt q) : frameBody ((frame (.leader q)).take bufferSize) =
    some (text "ELECTION:" ++ (text "LEADER" ++ (':' :: intText q))) := by
  rw [frame_leader]
  exact frameBody_election (by decide) (by decide) (by decide) hq

theorem parseFrame_vote (hq : IsInt q) :
    parseFrame false (text "ELECTION:" ++ (text "VOTE" ++ (':' :: intText q))) =
      .election (text "VOTE") q :=
  parseFrame_election (by decide) (by decide) (by decide) hq false

theorem parseFrame_leader (hq : IsInt q) :
    parseFrame false (text "ELECTION:" ++ (text "LEADER" ++ (':' :: intText q))) =
      .election (text "LEADER") q :=
  parseFrame_election (by decide) (by decide) (by decide) hq false

/-- The frame of a vote is that of no other token. -/
theorem frame_vote_inj (hp : IsInt p) (hq : IsInt q) (h : frame (.vote p) = frame (.vote q)) :
    p = q := by
  have hbody := congrArg (fun b => frameBody (b.take bufferSize)) h
  simp only [frameBody_vote hp, frameBody_vote hq] at hbody
  have hparse := congrArg (parseFrame false) (Option.some.inj hbody)
  rw [parseFrame_vote hp, parseFrame_vote hq] at hparse
  injection hparse

theorem frame_leader_ne_vote (hp : IsInt p) (hq : IsInt q) :
    frame (.leader p) ≠ frame (.vote q) := by
  intro h
  have hbody := congrArg (fun b => frameBody (b.take bufferSize)) h
  simp only [frameBody_leader hp, frameBody_vote hq] at hbody
  have hparse := congrArg (parseFrame false) (Option.some.inj hbody)
  rw [parseFrame_leader hp, parseFrame_vote hq] at hparse
  injection hparse with hkeyword
  revert hkeyword
  decide

/-- A heartbeat sets a time. -/
theorem handleSocketChange_heartbeat (hq : IsInt q) (env : Env) (s : Server) (fd : Socket) :
    handleSocketChange env s fd (padZero (heartbeat q)) = .ok (s.updateHeartbeat env q) := by
  have hkey : '\x00' ∉ text "HEARTBEAT:" ∧ '\n' ∉ text "HEARTBEAT:" := by decide
  have hbody : frameBody ((padZero (heartbeat q)).take bufferSize) =
      some (text "HEARTBEAT:" ++ intText q) := by
    rw [heartbeat_eq]
    apply frameBody_padZero
    · simp [hkey.1, not_nul_of_mem_intText]
    · simp [hkey.2, not_mem_intText]
    · have hlen := hq.length_le
      have hlength : (text "HEARTBEAT:").length = 10 := rfl
      simp only [List.length_append, hlength, bufferSize]
      omega
  have hhead : text "HEARTBEAT:" ++ intText q = 'H' :: (text "EARTBEAT:" ++ intText q) := rfl
  have hupdate : sscanf (text "HEARTBEAT:" ++ intText q) "UPDATE_FROM_LEADER:%15[^:]:%d:%d" = [] :=
    sscanf_of_head_ne (c := 'U') rfl (by decide) (by decide) _
  have hclient : sscanf (text "HEARTBEAT:" ++ intText q) "CLIENT:%d:%d:%[^\n]" = [] :=
    sscanf_of_head_ne (c := 'C') rfl (by decide) (by decide) _
  have helection : sscanf (text "HEARTBEAT:" ++ intText q) "ELECTION:%7[^:]:%d" = [] :=
    sscanf_of_head_ne (c := 'E') rfl (by decide) (by decide) _
  have hknow : sscanf (text "HEARTBEAT:" ++ intText q)
      "KNOW_NEW_LEADER:%d:%15[^:]:%d:%d:%15[^:]:%d" = [] :=
    sscanf_of_head_ne (c := 'K') rfl (by decide) (by decide) _
  have hformat : format "HEARTBEAT:%d" = lits (text "HEARTBEAT:") ++ [.int] := rfl
  have hscan : sscanf (text "HEARTBEAT:" ++ intText q) "HEARTBEAT:%d" = [.int q] := by
    rw [sscanf, hformat, scan_lits rfl, ← List.append_nil (intText q),
      scan_int hq noDigitHead_nil, scan_nil]
  have hparse : parseFrame (fd = s.ltcpSocket) (text "HEARTBEAT:" ++ intText q) =
      .heartbeat q := by
    unfold parseFrame
    rw [hupdate, hclient, helection, hknow, hscan]
    split
    · contradiction
    · rfl
  rw [handleSocketChange, if_neg (by simp [padZero, heartbeat_eq, emptyLine]), hbody]
  simp only [dispatch]
  rw [hparse]

end Tokens

/-! ## What a server does that reads no frame of the election -/

/-- The blocks that are not frames of the election are heartbeats of the server `q`. -/
def Beats (q : ℤ) (l : List Text) : Prop :=
  ∀ b ∈ l, ¬ IsElection b → b = padZero (heartbeat q)

section Quiet
variable {env : Env} {s s₀ : Server} {q : ℤ} {leader successor : ServerInfo} {socket : Socket}
  {n : Node} {sent : List Output} {l : List (Token ℤ)}

/-- A server that takes part drops a vote for a smaller ID, whatever its list. -/
theorem handleSocketChange_outvoted (hid : s.self.id ≠ 0) (hpart : s.participant = 1)
    (hq : IsInt q) (hlt : q < s.self.id) (fd : Socket) :
    handleSocketChange env s fd (frame (.vote q)) = .ok s := by
  have hdrop : lcrElection env s (text "VOTE") q = .ok (0, s) := by
    rw [lcrElection, if_pos rfl, if_neg (by omega), if_pos hlt, if_pos hpart, ite_self]
    rfl
  rw [handleSocketChange_vote hq, hdrop, Except.ok_bind]
  exact actOnElection_zero hid env

/-- The heartbeat of another server. -/
theorem updateHeartbeat_of_ne (hne : s.self.id ≠ q) (env : Env) :
    s.updateHeartbeat env q = { s with next := updateHeartbeatTimeout env.now s.next q } :=
  if_neg hne

theorem Represents.updateHeartbeat (h : Represents s₀ socket n s) (hne : s₀.self.id ≠ q)
    (env : Env) : Represents s₀ socket n (s.updateHeartbeat env q) := by
  rw [updateHeartbeat_of_ne (by rwa [h.id])]
  refine ⟨h.self, h.participant, fun hn => ?_, fun hn => ?_, h.multicasts⟩
  · obtain ⟨leader, successor, hnext, rfl⟩ := h.active hn
    by_cases hleader : leader.id = q
    · exact ⟨{ leader with lastHeartbeat := env.now }, successor,
        by simp [hnext, updateHeartbeatTimeout, hleader], rfl⟩
    · by_cases hsuccessor : successor.id = q
      · exact ⟨leader, { successor with lastHeartbeat := env.now },
          by simp [hnext, updateHeartbeatTimeout, hleader, hsuccessor], rfl⟩
      · exact ⟨leader, successor,
          by simp [hnext, updateHeartbeatTimeout, hleader, hsuccessor], rfl⟩
  · simp [h.passive hn, updateHeartbeatTimeout]

theorem onTimer_nil (hnext : s.next = []) : onTimer env s = .ok s := by
  rw [onTimer, hnext]
  split <;> rfl

/-- A leader that is overdue, and a successor that is reached: the server takes part. -/
theorem checkLeaderTimeout_reaches (hnext : s.next = [leader, successor])
    (hdue : TimedOut env (2 * heartbeatTimeout) leader)
    (hsends : ∀ out bytes, env.sends out successor.tcpSocket bytes = true) :
    checkLeaderTimeout env s (2 * heartbeatTimeout) = .ok { s with
      participant := 1
      out := s.out ++ if s.participant = 1 then [] else
        [.send successor.tcpSocket (frame (.vote s.self.id))] } := by
  rw [checkLeaderTimeout_due hnext hdue, sendEleMsg_eq hnext]
  by_cases hpart : s.participant = 1
  · have hsame : s = { s with participant := 1 } := by
      cases s
      cases hpart
      rfl
    rw [if_pos hpart, if_pos hpart, List.append_nil, ← hsame]
  · rw [if_neg hpart, if_neg hpart, Server.send, if_pos (hsends _ _)]
    rfl

/-- **An overdue timer on the ring.**  The vote is sent by `send_ele_msg`, unless the server
takes part already, and once more as what is left in `sendBuf`. -/
theorem onTimer_paired (hleader : s.self.leader ≠ 1) (hnext : s.next = [leader, successor])
    (hdue : TimedOut env (2 * heartbeatTimeout) leader)
    (hsends : ∀ out bytes, env.sends out successor.tcpSocket bytes = true) :
    ∃ beat, (beat = [] ∨ beat = [.send leader.tcpSocket (padZero (heartbeat s.self.id))]) ∧
      onTimer env s = .ok { s with
        participant := 1
        out := s.out ++ (beat ++ List.replicate (if s.participant = 1 then 1 else 2)
          (.send successor.tcpSocket (frame (.vote s.self.id)))) } := by
  obtain ⟨beat, hbeat, hsend⟩ := sendIgnored_cases env s leader.tcpSocket
    (padZero (heartbeat s.self.id))
  refine ⟨beat, hbeat, ?_⟩
  have hfirst := checkLeaderTimeout_reaches (s := { s with out := s.out ++ beat }) hnext hdue hsends
  have hbuf : leaderTimeoutBuf env { s with out := s.out ++ beat } (2 * heartbeatTimeout)
      (padZero (heartbeat s.self.id)) = frame (.vote s.self.id) := by
    simp only [leaderTimeoutBuf, hnext]
    exact if_pos hdue
  have hresend : ∀ u : Server, sendIgnored env u successor.tcpSocket (frame (.vote s.self.id)) =
      { u with out := u.out ++ [.send successor.tcpSocket (frame (.vote s.self.id))] } := by
    intro u
    rw [sendIgnored, Server.send, if_pos (hsends _ _)]
    rfl
  have hlast : ∀ out, checkLeaderTimeout env { s with participant := 1, out := out }
      (2 * heartbeatTimeout) = .ok { s with participant := 1, out := out } := by
    intro out
    rw [checkLeaderTimeout_due (s := { s with participant := 1, out := out }) hnext hdue,
      sendEleMsg_eq (s := { s with participant := 1, out := out }) hnext, if_pos rfl]
  rw [onTimer, if_neg hleader]
  conv_lhs => rw [hnext]
  rw [sendHeartbeats, hsend]
  simp only [hfirst, Except.ok_bind, hbuf, sendHeartbeats, hresend]
  rw [hlast, Except.ok_bind]
  by_cases hpart : s.participant = 1
  · simp [hpart]
  · simp [hpart, List.replicate_succ]

theorem mem_sentOn {b : Text} : b ∈ sentOn sent socket ↔ .send socket b ∈ sent := by
  simp only [sentOn, List.mem_filterMap]
  constructor
  · rintro ⟨o, ho, hb⟩
    cases o with
    | send k bytes =>
        simp only [Option.ite_none_right_eq_some, Option.some.injEq] at hb
        obtain ⟨rfl, rfl⟩ := hb
        exact ho
    | multicast bytes => cases hb
    | connect address port k => cases hb
  · exact fun ho => ⟨_, ho, by simp⟩

/-- Heartbeats on a link. -/
theorem elections_sentOn_of_beats (hsent : ∀ o ∈ sent, ∃ k, o = .send k (padZero (heartbeat q)))
    (socket : Socket) : elections (sentOn sent socket) = [] ∧ Beats q (sentOn sent socket) := by
  have hall : ∀ b ∈ sentOn sent socket, b = padZero (heartbeat q) := by
    intro b hb
    obtain ⟨k, hk⟩ := hsent _ (mem_sentOn.mp hb)
    cases hk
    rfl
  refine ⟨List.filter_eq_nil_iff.mpr fun b hb => ?_, fun b hb _ => hall b hb⟩
  simpa [hall b hb] using (other_heartbeat q).padZero

theorem elections_map_frame (l : List (Token ℤ)) : elections (l.map frame) = l.map frame := by
  rw [elections, List.filter_eq_self]
  intro b hb
  obtain ⟨u, -, rfl⟩ := List.mem_map.mp hb
  simpa using isElection_frame u

theorem beats_map_frame (q : ℤ) (l : List (Token ℤ)) : Beats q (l.map frame) := by
  intro b hb hother
  obtain ⟨u, -, rfl⟩ := List.mem_map.mp hb
  exact absurd (isElection_frame u) hother

theorem multicasts_append_sends (out : List Output) (h : ∀ o ∈ sent, ∃ k b, o = .send k b) :
    multicasts (out ++ sent) = multicasts out := by
  have hnil : multicasts sent = [] := by
    apply List.filterMap_eq_nil_iff.mpr
    intro o ho
    obtain ⟨k, b, rfl⟩ := h o ho
    rfl
  rw [multicasts_append, hnil, List.append_nil]

/-- A server that takes part can lose its successor. -/
theorem disconnect_isOk_of_paired {fd : Socket} (hnext : Paired socket s.next)
    (hfd : IsValidSocket fd) : ∃ t, disconnect s fd = .ok t := by
  obtain ⟨leader, successor, hnext, -⟩ := hnext
  have hhandled : ∃ u, handleDisconnection s fd = .ok u := by
    rw [handleDisconnection]
    split_ifs
    · exact ⟨s, rfl⟩
    · exact ⟨s, rfl⟩
    · have hmem : successor ∈ s.next := by simp [hnext]
      obtain ⟨rest, hdelete⟩ := deleteServer_of_mem hmem
      refine ⟨{ s with next := rest }, ?_⟩
      simp only [Server.successor, hnext, Except.ok_bind] at hdelete ⊢
      rw [Server.deleteServer, hnext, hdelete]
      rfl
    · exact ⟨s, rfl⟩
    · exact ⟨_, rfl⟩
  obtain ⟨u, hu⟩ := hhandled
  exact disconnect_isOk_of_handled hu hfd

/-- A leader does not lose its list with a connection. -/
theorem disconnect_next_of_leader {t : Server} {fd : Socket} (hleader : s.self.leader = 1)
    (h : disconnect s fd = .ok t) : t.next = s.next := by
  obtain ⟨u, ltcpSocket, hu, rfl⟩ := disconnect_eq_ok h
  rcases handleDisconnection_eq_ok hu with ⟨-, rfl⟩ | ⟨-, hne, -⟩ | ⟨-, -, -, -, rfl⟩
  · rfl
  · exact absurd hleader hne
  · rfl

end Quiet

/-! ## Simulation -/

/-- The frames of the election are those of the tokens, the other blocks are heartbeats, and every
live server is in the state of its node; of one that has lost its successor only the flag is
known. -/
structure CrashSim {ι : Type*} (ring : Equiv.Perm ι) (x₀ : Network ι) (socket : ι → Socket)
    (x : CrashRing ι) (c : Config ι ℤ) : Prop where
  link : ∀ i, elections (x.link i) = (c.link i).map frame
  beats : ∀ i, Beats (x₀.server i).self.id (x.link i)
  id : ∀ i, x.alive i = true → (x.server i).self.id = (x₀.server i).self.id
  participant : ∀ i, x.alive i = true → (x.server i).participant = participantOf (c.node i)
  server : ∀ i, x.alive i = true → x.cut i = false →
    Represents (x₀.server i) (socket i) (c.node i) (x.server i)
  lead : ∀ i, x.alive i = true → (x.server i).self.leader = 1 → (x.server i).next = []
  dead : ∀ i, x.cut i = true → x.alive (ring i) = false

namespace CrashRing
variable {ι : Type*} [DecidableEq ι] {ring : Equiv.Perm ι} {socket : ι → Socket}
  {x : CrashRing ι} {i : ι} {s : Server}

@[simp] theorem put_alive : (x.put ring socket i s).alive = x.alive := by
  rw [put]
  split <;> rfl

@[simp] theorem put_cut : (x.put ring socket i s).cut = x.cut := by
  rw [put]
  split <;> rfl

@[simp] theorem put_server : (x.put ring socket i s).server = update x.server i s := by
  rw [put]
  split <;> rfl

theorem put_link_of_alive (h : x.alive (ring i) = true) : (x.put ring socket i s).link =
    update x.link i (x.link i ++ sentOn (s.out.drop (x.server i).out.length) (socket i)) := by
  rw [put, if_pos h]
  rfl

theorem put_link_of_dead (h : x.alive (ring i) = false) :
    (x.put ring socket i s).link = x.link := by
  rw [put, if_neg (by simp [h])]

omit [DecidableEq ι] in
theorem envOf_reaches (h : x.alive (ring i) = true) (env : Env) :
    (x.envOf ring socket i env).Reaches (socket i) := ⟨fun _ _ => by simp [envOf, h], rfl⟩

end CrashRing

/-! ## The votes of a timer -/

/-- The votes of an overdue timer, in the protocol. -/
def timerActions {ι : Type*} (i : ι) : Node → List (Action ι)
  | .idle => [.timeout i, .resend i]
  | .candidate => [.resend i]
  | _ => []

theorem run_timerActions {ι : Type*} [DecidableEq ι] (ring : Equiv.Perm ι) (id : ι → ℤ)
    {c : Config ι ℤ} {i : ι} (hn : (c.node i).Active) :
    ∃ h c', Run (RingElection.step ring id) c h c' ∧ h.map Prod.snd = timerActions i (c.node i) ∧
      c'.node = update c.node i .candidate ∧ c'.link = update c.link i
        (c.link i ++ List.replicate (timerActions i (c.node i)).length (.vote (id i))) := by
  have hresend : ∀ d : Config ι ℤ, d.node i = .candidate → RingElection.step ring id d (.resend i) =
      some (d.put i (.candidate, some (.vote (id i)))) := by
    intro d hd
    simp only [RingElection.step, hd]
  rcases hn with hn | hn
  · have hstart : RingElection.step ring id c (.timeout i) =
        some (c.put i (.candidate, some (.vote (id i)))) := by
      simp only [RingElection.step, hn]
    refine ⟨_, _, Run.snoc (Run.snoc Run.nil hstart) (hresend _ (by simp)), ?_⟩
    simp [hn, timerActions, List.replicate_succ]
  · refine ⟨_, _, Run.snoc Run.nil (hresend c hn), ?_⟩
    simp [hn, timerActions]

theorem length_timerActions {ι : Type*} (i : ι) {n : Node} (hn : n.Active) :
    (timerActions i n).length = if participantOf n = 1 then 1 else 2 := by
  rcases hn with rfl | rfl <;> rfl

namespace CrashSim
variable {ι : Type*} [DecidableEq ι] {ring : Equiv.Perm ι} {socket inbound : ι → Socket}
  {x₀ : Network ι} {x y : CrashRing ι} {c c' : Config ι ℤ} {i : ι}

theorem put (h : CrashSim ring x₀ socket x c) {n : Node} {tokens : List (Token ℤ)} {s : Server}
    (hnode : c'.node = update c.node i n)
    (hlink : c'.link = update c.link i (c.link i ++ tokens))
    (hid : s.self.id = (x₀.server i).self.id) (hpart : s.participant = participantOf n)
    (hserver : x.cut i = false → Represents (x₀.server i) (socket i) n s)
    (hlead : s.self.leader = 1 → s.next = [])
    (hsent : x.alive (ring i) = true → ∃ sent, s.out = (x.server i).out ++ sent ∧
      elections (sentOn sent (socket i)) = tokens.map frame ∧
        Beats (x₀.server i).self.id (sentOn sent (socket i)))
    (hlost : x.alive (ring i) = false → tokens = []) :
    CrashSim ring x₀ socket (x.put ring socket i s) c' where
  link := by
    intro j
    cases halive : x.alive (ring i) with
    | false =>
        rw [CrashRing.put_link_of_dead halive, hlink, hlost halive, h.link j]
        by_cases hj : j = i
        · subst hj
          simp
        · simp [hj]
    | true =>
        obtain ⟨sent, hout, hsent, -⟩ := hsent halive
        rw [CrashRing.put_link_of_alive halive, hlink]
        by_cases hj : j = i
        · subst hj
          simp [hout, hsent, h.link j]
        · simpa [hj] using h.link j
  beats := by
    intro j
    cases halive : x.alive (ring i) with
    | false =>
        rw [CrashRing.put_link_of_dead halive]
        exact h.beats j
    | true =>
        obtain ⟨sent, hout, -, hbeats⟩ := hsent halive
        rw [CrashRing.put_link_of_alive halive]
        by_cases hj : j = i
        · subst hj
          intro b hb
          rw [update_self, hout, List.drop_left, List.mem_append] at hb
          exact hb.elim (h.beats j b) (hbeats b)
        · rw [update_of_ne hj]
          exact h.beats j
  id := by
    intro j hj
    by_cases hji : j = i
    · subst hji
      simpa using hid
    · simpa [hji] using h.id j (by simpa using hj)
  participant := by
    intro j hj
    by_cases hji : j = i
    · subst hji
      simpa [hnode] using hpart
    · simpa [hnode, hji] using h.participant j (by simpa using hj)
  server := by
    intro j hj hcut
    by_cases hji : j = i
    · subst hji
      simpa [hnode] using hserver (by simpa using hcut)
    · simpa [hnode, hji] using h.server j (by simpa using hj) (by simpa using hcut)
  lead := by
    intro j hj
    by_cases hji : j = i
    · subst hji
      simpa using hlead
    · simpa [hji] using h.lead j (by simpa using hj)
  dead := by simpa using h.dead

theorem next_of_represents {s₀ s : Server} {fd : Socket} {n : Node}
    (h : Represents s₀ fd n s) (hleader : s.self.leader = 1) : s.next = [] := by
  refine h.passive fun hn => ?_
  have hflag : leaderOf n = 1 := by rwa [h.self] at hleader
  rcases hn with rfl | rfl
  · cases hflag
  · cases hflag

/-- A server that moves with its node. -/
theorem put_moves (h : CrashSim ring x₀ socket x c) {r : Node × Option (Token ℤ)} {s : Server}
    (hmove : Moves (x₀.server i) (socket i) (x.server i) r s)
    (hlost : x.alive (ring i) = false → r.2 = none) :
    CrashSim ring x₀ socket (x.put ring socket i s) (c.put i r) := by
  refine h.put rfl rfl hmove.1.id hmove.1.participant (fun _ => hmove.1)
    (next_of_represents hmove.1) (fun _ => ?_) fun hdead => by rw [hlost hdead]; rfl
  obtain ⟨sent, hout, hsent⟩ := hmove.2
  exact ⟨sent, hout, by rw [hsent, elections_map_frame], hsent ▸ beats_map_frame _ _⟩

/-- A server that keeps its flag and sends no frame of the election. -/
theorem put_quiet (h : CrashSim ring x₀ socket x c) {s : Server} (hi : x.alive i = true)
    (hid : s.self.id = (x.server i).self.id) (hpart : s.participant = (x.server i).participant)
    (hserver : x.cut i = false → Represents (x₀.server i) (socket i) (c.node i) s)
    (hlead : s.self.leader = 1 → s.next = [])
    (hout : x.alive (ring i) = true → ∃ sent, s.out = (x.server i).out ++ sent ∧
      ∀ o ∈ sent, ∃ k, o = .send k (padZero (heartbeat (x₀.server i).self.id))) :
    CrashSim ring x₀ socket (x.put ring socket i s) c := by
  have hlink : c.link = update c.link i (c.link i ++ []) := by simp
  refine h.put (n := c.node i) (by simp) hlink (hid.trans (h.id i hi))
    (hpart.trans (h.participant i hi)) hserver hlead (fun halive => ?_) fun _ => rfl
  obtain ⟨sent, hsent, hbeats⟩ := hout halive
  exact ⟨sent, hsent, elections_sentOn_of_beats hbeats (socket i)⟩

omit [DecidableEq ι] in
theorem active_of_next (h : CrashSim ring x₀ socket x c) (hi : x.alive i = true)
    (hcut : x.cut i = false) (hnext : (x.server i).next ≠ []) : (c.node i).Active := by
  by_contra hn
  exact hnext ((h.server i hi hcut).passive hn)

omit [DecidableEq ι] in
theorem cut_of_alive (h : CrashSim ring x₀ socket x c) (halive : x.alive (ring i) = true) :
    x.cut i = false := by
  by_contra hcut
  simp [h.dead i (by simpa using hcut)] at halive

/-- A frame leaves a link. -/
theorem pop (h : CrashSim ring x₀ socket x c) {received : Text} {rest : List Text}
    {tokens : List (Token ℤ)} (hlink : x.link i = received :: rest)
    (hrest : elections rest = tokens.map frame) :
    CrashSim ring x₀ socket { x with link := update x.link i rest } (c.pop i tokens) where
  link := by
    intro j
    by_cases hj : j = i
    · subst hj
      simpa using hrest
    · simpa [hj] using h.link j
  beats := by
    intro j
    by_cases hj : j = i
    · subst hj
      have hmem : ∀ b ∈ rest, b ∈ x.link j := fun b hb => hlink ▸ List.mem_cons_of_mem _ hb
      simpa [Beats] using fun b hb => h.beats j b (hmem b hb)
    · simpa [hj] using h.beats j
  id := h.id
  participant := h.participant
  server := h.server
  lead := h.lead
  dead := h.dead

/-- A server dies with no frame of the election on its way to it. -/
theorem kill (h : CrashSim ring x₀ socket x c) (hlink : elections (x.link (ring.symm i)) = []) :
    CrashSim ring x₀ socket (x.kill ring i) c := by
  have halive : ∀ j, (x.kill ring i).alive j = true → x.alive j = true := by
    intro j hj
    by_cases hji : j = i
    · subst hji
      simp [CrashRing.kill] at hj
    · simpa [CrashRing.kill, hji] using hj
  refine ⟨?_, ?_, fun j hj => h.id j (halive j hj), fun j hj => h.participant j (halive j hj),
    fun j hj => h.server j (halive j hj), fun j hj => h.lead j (halive j hj), ?_⟩
  · intro j
    rw [← h.link j]
    by_cases hj : j = ring.symm i
    · subst hj
      rw [hlink]
      simp [CrashRing.kill, elections]
    · simp [CrashRing.kill, hj]
  · intro j
    by_cases hj : j = ring.symm i
    · subst hj
      simp [CrashRing.kill, Beats]
    · simpa [CrashRing.kill, hj] using h.beats j
  · intro j hj
    by_contra halive'
    have hcut := h.dead j hj
    simp [halive (ring j) (by simpa using halive')] at hcut

/-! ### Steps -/

/-- **The timer of a follower whose leader is overdue.**  The votes that reach its successor are
those of `timerActions`. -/
theorem timer_votes (h : CrashSim ring x₀ socket x c) (env : Env) (hi : x.alive i = true)
    (halive : x.alive (ring i) = true) (hleader : (x.server i).self.leader ≠ 1)
    (hdue : (x.server i).LeaderOverdue env) (henv : env.Reaches (socket i)) :
    ∃ h' c' t, Run (RingElection.step ring fun i => (x₀.server i).self.id) c h' c' ∧
      h'.map Prod.snd = timerActions i (c.node i) ∧ onTimer env (x.server i) = .ok t ∧
        CrashSim ring x₀ socket (x.put ring socket i t) c' ∧ Started c' := by
  have hcut := h.cut_of_alive halive
  have hserver := h.server i hi hcut
  obtain ⟨overdue, hhead, hdue⟩ := hdue
  have hn : (c.node i).Active := by
    refine h.active_of_next hi hcut fun hnil => ?_
    simp [hnil] at hhead
  obtain ⟨leader, successor, hnext, hsocket⟩ := hserver.active hn
  obtain rfl : leader = overdue := by simpa [hnext] using hhead
  obtain ⟨beat, hbeat, htimer⟩ := onTimer_paired hleader hnext hdue
    (by rw [hsocket]; exact henv.1)
  have hpartOf := hserver.participant
  have hid := hserver.id
  obtain ⟨h', c', run, hactions, hnode, hlink⟩ :=
    run_timerActions ring (fun i => (x₀.server i).self.id) hn
  refine ⟨h', c', _, run, hactions, htimer, ?_, i, by simp [hnode]⟩
  refine h.put hnode hlink hid rfl (fun _ => ⟨?_, rfl, fun _ => ⟨leader, successor, hnext, hsocket⟩,
    fun hn => absurd (Or.inr rfl) hn, ?_⟩) (fun hlead => absurd hlead hleader)
    (fun _ => ⟨_, rfl, ?_⟩) fun hdead => by simp [halive] at hdead
  · rw [hserver.self]
    rcases hn with hn | hn <;> simp [hn, leaderOf]
  · rw [multicasts_append_sends, hserver.multicasts]
    · rcases hn with hn | hn <;> simp [hn, announced]
    · intro o ho
      rcases List.mem_append.mp ho with ho | ho
      · rcases hbeat with rfl | rfl
        · cases ho
        · exact ⟨_, _, List.mem_singleton.mp ho⟩
      · exact ⟨_, _, List.eq_of_mem_replicate ho⟩
  · rw [length_timerActions i hn, ← hpartOf, sentOn_append, hid]
    have hbeats : ∀ o ∈ beat, ∃ k, o = .send k (padZero (heartbeat (x₀.server i).self.id)) := by
      intro o ho
      rcases hbeat with rfl | rfl
      · cases ho
      · exact ⟨_, hid ▸ List.mem_singleton.mp ho⟩
    obtain ⟨hnone, hquiet⟩ := elections_sentOn_of_beats hbeats (socket i)
    have hvotes : ∀ k, sentOn (List.replicate k
        (.send successor.tcpSocket (frame (.vote (x₀.server i).self.id)))) (socket i) =
          (List.replicate k (Token.vote (x₀.server i).self.id)).map frame := by
      intro k
      simp [sentOn, hsocket]
    rw [hvotes, elections_append, hnone, elections_map_frame]
    refine ⟨rfl, fun b hb => ?_⟩
    exact (List.mem_append.mp hb).elim (hquiet b) (beats_map_frame _ _ b)

omit [DecidableEq ι] in
/-- A server that sends something else than datagrams represents the same node. -/
theorem represents_sends {s₀ s : Server} {fd : Socket} {n : Node} {sent : List Output}
    (h : Represents s₀ fd n s) (hsent : ∀ o ∈ sent, ∃ k b, o = .send k b) :
    Represents s₀ fd n { s with out := s.out ++ sent } :=
  ⟨h.self, h.participant, h.active, h.passive, by
    rw [multicasts_append_sends _ hsent, h.multicasts]⟩

/-- **Any other timer.**  A leader of the ring has nobody in its list, and a server that is left
alone has lost its successor. -/
theorem timer_quiet (h : CrashSim ring x₀ socket x c) (env : Env) (hi : x.alive i = true)
    (hquiet : x.alive (ring i) = true → (x.server i).self.leader ≠ 1 →
      ¬ (x.server i).LeaderOverdue env)
    (hkeeps : (x.server i).participant = 1 ∨ x.alive (ring i) = true ∨ ¬ (x.server i).MayVote env) :
    ∃ t, onTimer env (x.server i) = .ok t ∧ CrashSim ring x₀ socket (x.put ring socket i t) c := by
  by_cases hleader : (x.server i).self.leader = 1
  · exact ⟨_, onTimer_nil (h.lead i hi hleader), h.put_quiet hi rfl rfl (h.server i hi)
      (h.lead i hi) fun _ => ⟨[], by simp, by simp⟩⟩
  by_cases halone : (x.server i).LeftAlone env
  · obtain ⟨sent, htimer, hbeats⟩ := onTimer_alone hleader halone
    have hdead : x.alive (ring i) = false := by
      by_contra halive
      exact hquiet (by simpa using halive) hleader halone.1
    have hcut : x.cut i = true := by
      by_contra hcut
      have hcut : x.cut i = false := by simpa using hcut
      obtain ⟨⟨leader, hhead, -⟩, htail⟩ := halone
      have hn : (c.node i).Active := by
        refine h.active_of_next hi hcut fun hnil => ?_
        simp [hnil] at hhead
      obtain ⟨first, second, hnext, -⟩ := (h.server i hi hcut).active hn
      simp [hnext] at htail
    exact ⟨_, htimer, h.put_quiet hi rfl rfl (fun h' => by simp [hcut] at h') (fun _ => rfl)
      fun halive => by simp [hdead] at halive⟩
  · obtain ⟨participant, sent, htimer, hsent, hpart⟩ := onTimer_eq hleader halone
    have hsends : ∀ o ∈ sent, ∃ k b, o = .send k b := by
      intro o ho
      obtain ⟨k, hk | ⟨-, hk⟩⟩ := hsent o ho
      · exact ⟨k, _, hk⟩
      · exact ⟨k, _, hk⟩
    obtain rfl : participant = (x.server i).participant := by
      rcases hpart with hpart | ⟨hone, hmay⟩
      · exact hpart
      · rcases hkeeps with hpart | halive | hnot
        · rw [hone, hpart]
        · exact absurd hmay.1 (hquiet halive hleader)
        · exact absurd hmay hnot
    refine ⟨_, htimer, h.put_quiet hi rfl rfl
      (fun hcut => represents_sends (h.server i hi hcut) hsends)
      (fun hlead => absurd hlead hleader) fun halive => ⟨sent, rfl, fun o ho => ?_⟩⟩
    obtain ⟨k, hk | ⟨hdue, -⟩⟩ := hsent o ho
    · exact ⟨k, h.id i hi ▸ hk⟩
    · exact absurd hdue (hquiet halive hleader)

theorem disconnect (h : CrashSim ring x₀ socket x c) (hi : x.alive i = true)
    (hdead : x.alive (ring i) = false) (hsocket : IsValidSocket (socket i)) (hcut : x.cut i = false)
    (hkeeps : x.KeepsFrames ring socket (.disconnect i)) :
    CrashSim ring x₀ socket (CrashRing.after ring socket { x with cut := update x.cut i true } i
      (ChatRing.disconnect (x.server i) (socket i))) c := by
  have hcuts : CrashSim ring x₀ socket { x with cut := update x.cut i true } c := by
    refine ⟨h.link, h.beats, h.id, h.participant, fun j hj hcutj => h.server j hj ?_, h.lead,
      fun j hcutj => ?_⟩
    · by_cases hji : j = i
      · rw [hji, hcut]
      · simpa [hji] using hcutj
    · by_cases hji : j = i
      · rw [hji]
        exact hdead
      · exact h.dead j (by simpa [hji] using hcutj)
  cases ht : ChatRing.disconnect (x.server i) (socket i) with
  | ok t =>
      have hrole := SameRole.of_disconnect ht
      refine hcuts.put_quiet hi hrole.id hrole.participant (by simp) (fun hleader => ?_)
        (by simp [hdead])
      have hlead : (x.server i).self.leader = 1 := hrole.leader ▸ hleader
      rw [disconnect_next_of_leader hlead ht, h.lead i hi hlead]
  | error fault =>
      refine hcuts.kill (hkeeps.resolve_left fun hnext => ?_)
      obtain ⟨t, ht'⟩ := disconnect_isOk_of_paired
        ((h.server i hi hcut).active (h.active_of_next hi hcut hnext)) hsocket
      rw [ht'] at ht
      cases ht

variable [Finite ι] [Nontrivial ι] (hintact : Intact ring socket x₀)
  (hring : ring.IsCycleOn Set.univ)

include hintact hring

omit [Finite ι] in
/-- A heartbeat arrives. -/
theorem deliver_heartbeat (h : CrashSim ring x₀ socket x c) (env : Env) {received : Text}
    {rest : List Text} (hi : x.alive (ring i) = true) (hlink : x.link i = received :: rest)
    (hother : ¬ IsElection received) (fd : Socket) :
    ∃ t, handleSocketChange env (x.server (ring i)) fd received = .ok t ∧ CrashSim ring x₀ socket
      (CrashRing.put ring socket { x with link := update x.link i rest } (ring i) t) c := by
  obtain rfl := h.beats i received (by simp [hlink]) hother
  have hrest : elections rest = (c.link i).map frame := by
    rw [← h.link i, hlink]
    simp [elections, hother]
  have hpop := h.pop hlink hrest
  have hsame : c.pop i (c.link i) = c := by simp [Config.pop]
  rw [hsame] at hpop
  have hne : (x₀.server (ring i)).self.id ≠ (x₀.server i).self.id :=
    fun heq => next_ne hring (hintact.id_injective heq)
  have hupdate := updateHeartbeat_of_ne (s := x.server (ring i)) (q := (x₀.server i).self.id)
    (by rwa [h.id (ring i) hi]) env
  refine ⟨_, handleSocketChange_heartbeat (hintact.id i).isInt env _ fd,
    hpop.put_quiet hi (by rw [hupdate]) (by rw [hupdate])
      (fun hcut => (h.server (ring i) hi hcut).updateHeartbeat hne env) (fun hleader => ?_)
      fun _ => ⟨[], by simp [hupdate], by simp⟩⟩
  rw [hupdate] at hleader ⊢
  simp [h.lead (ring i) hi hleader, updateHeartbeatTimeout]

variable {top : ι} (htop : ∀ i, (x₀.server i).self.id ≤ (x₀.server top).self.id)

include htop

/-- A frame of the election arrives. -/
theorem deliver (h : CrashSim ring x₀ socket x c)
    (hinv : Inv ring (fun i => (x₀.server i).self.id) top c) (env : Env) {received : Text}
    {rest : List Text} (hi : x.alive (ring i) = true) (hlink : x.link i = received :: rest)
    (helection : IsElection received) (hkeeps : x.KeepsFrames ring socket (.deliver i env))
    (fd : Socket) :
    ∃ c' t, RingElection.step ring (fun i => (x₀.server i).self.id) c (.deliver i) = some c' ∧
      handleSocketChange (x.envOf ring socket (ring i) env) (x.server (ring i)) fd received =
        .ok t ∧ CrashSim ring x₀ socket
          (CrashRing.put ring socket { x with link := update x.link i rest } (ring i) t) c' := by
  have hfirst : received :: elections rest = (c.link i).map frame := by
    rw [← h.link i, hlink]
    simp [elections, helection]
  obtain ⟨u, tokens, hclink, rfl, htokens⟩ := List.map_eq_cons_iff.mp hfirst.symm
  have hmem : u ∈ c.link i := by simp [hclink]
  have hc : RingElection.step ring (fun i => (x₀.server i).self.id) c (.deliver i) =
      some ((c.pop i tokens).put (ring i)
        (receive (x₀.server (ring i)).self.id (c.node (ring i)) u)) := by
    simp only [RingElection.step, hclink]
  have hpop := h.pop hlink htokens.symm
  rcases hkeeps with hother | ⟨hpart, q, hq, hlt, hhead⟩ | ⟨hcut, hreach⟩
  · exact absurd helection (hother (frame u) (by simp [hlink]))
  · have hframe : frame u = frame (.vote q) := by simpa [hlink] using hhead
    have hu : u = .vote q := by
      cases u with
      | vote p =>
          obtain ⟨o, ho, -⟩ := hinv.travelling hmem
          obtain rfl := Token.vote.inj ho
          exact congrArg Token.vote (frame_vote_inj (hintact.id o).isInt hq hframe)
      | leader p =>
          obtain rfl := hinv.leader_eq hmem
          exact absurd hframe (frame_leader_ne_vote (hintact.id top).isInt hq)
    subst hu
    have hid := h.id (ring i) hi
    have hpos := (hintact.id (ring i)).1
    have hquiet : receive (x₀.server (ring i)).self.id (c.node (ring i)) (.vote q) =
        (c.node (ring i), none) := by
      have hnode := h.participant (ring i) hi
      rw [hpart] at hnode
      cases hn : c.node (ring i) with
      | idle => simp [hn, participantOf] at hnode
      | candidate => rw [receive, if_neg (by omega), if_pos (by omega)]
      | leading => rfl
      | crowned => simp [hn, participantOf] at hnode
      | follower => simp [hn, participantOf] at hnode
    have hself : (c.pop i tokens).put (ring i) (c.node (ring i), none) = c.pop i tokens := put_self
    rw [hquiet, hself] at hc
    exact ⟨_, _, hc, handleSocketChange_outvoted (by omega) hpart hq hlt fd,
      hpop.put_quiet hi rfl rfl (h.server (ring i) hi) (h.lead (ring i) hi)
        fun _ => ⟨[], by simp, by simp⟩⟩
  · have hserver := h.server (ring i) hi hcut
    have halive : (c.node (ring i)).Active → x.alive (ring (ring i)) = true := by
      intro hn
      obtain ⟨leader, successor, hnext, -⟩ := hserver.active hn
      exact hreach.resolve_right (by simp [hnext])
    obtain ⟨t, ht, hmove⟩ := handleSocketChange_frame_refines hintact hring htop hinv hmem hserver
      (fun hn => CrashRing.envOf_reaches (halive hn) env) fd
    refine ⟨_, t, hc, ht, hpop.put_moves hmove fun hdead => ?_⟩
    have hn : ¬ (c.node (ring i)).Active := fun hn => by
      have hdead' : x.alive (ring (ring i)) = false := hdead
      simp [halive hn] at hdead'
    exact receive_of_not_active hn

end CrashSim

/-- The actions of the protocol that an action of the servers amounts to. -/
def CrashAction.erase {ι : Type*} (ring : Equiv.Perm ι) (x : CrashRing ι) (c : Config ι ℤ) :
    CrashAction ι → List (Action ι)
  | .timer i env =>
      if x.alive (ring i) ∧ x.TimesOut (.timer i env) then timerActions i (c.node i) else []
  | .deliver i _ => if ∃ b ∈ (x.link i).head?, IsElection b then [.deliver i] else []
  | .crash _ | .disconnect _ => []

namespace CrashSim
variable {ι : Type*} [DecidableEq ι] {ring : Equiv.Perm ι} {socket inbound : ι → Socket}
  {x₀ : Network ι} {x y : CrashRing ι} {c c' : Config ι ℤ} {i : ι}
  [Finite ι] [Nontrivial ι] (hintact : Intact ring socket x₀)
  (hring : ring.IsCycleOn Set.univ) {top : ι}
  (htop : ∀ i, (x₀.server i).self.id ≤ (x₀.server top).self.id)

include hintact hring htop

/-- **A step that loses no frame is some steps of the protocol.** -/
theorem step (h : CrashSim ring x₀ socket x c)
    (hinv : Inv ring (fun i => (x₀.server i).self.id) top c) {a : CrashAction ι}
    (hkeeps : x.KeepsFrames ring socket a)
    (hstep : CrashRing.step ring socket inbound x a = some y) :
    ∃ h' c', Run (RingElection.step ring fun i => (x₀.server i).self.id) c h' c' ∧
      h'.map Prod.snd = a.erase ring x c ∧ CrashSim ring x₀ socket y c' ∧
        (a.Peaceful → y.alive = x.alive) ∧
          (x.TimesOut a → (∀ i, x.alive i = true) → Started c') := by
  cases a with
  | timer i env =>
      rw [CrashRing.step] at hstep
      split at hstep
      · rename_i hi
        obtain rfl := Option.some.inj hstep
        rw [CrashAction.erase]
        split
        · rename_i hvotes
          obtain ⟨halive, hleader, hdue⟩ := hvotes
          obtain ⟨h', c', t, run, hactions, ht, hsim, hstarted⟩ := h.timer_votes
            (x.envOf ring socket i env) hi halive hleader hdue (CrashRing.envOf_reaches halive env)
          rw [ht]
          exact ⟨h', c', run, hactions, hsim, fun _ => CrashRing.put_alive, fun _ _ => hstarted⟩
        · rename_i hvotes
          obtain ⟨t, ht, hsim⟩ := h.timer_quiet (x.envOf ring socket i env) hi
            (fun halive hleader hdue => hvotes ⟨halive, hleader, hdue⟩) hkeeps
          rw [ht]
          exact ⟨[], c, Run.nil, rfl, hsim, fun _ => CrashRing.put_alive,
            fun hout halive => absurd ⟨halive (ring i), hout⟩ hvotes⟩
      · cases hstep
  | deliver i env =>
      rw [CrashRing.step] at hstep
      split at hstep
      · cases hstep
      · rename_i received rest hlink
        split at hstep
        · rename_i hi
          obtain rfl := Option.some.inj hstep
          by_cases helection : IsElection received
          · obtain ⟨c', t, hc, ht, hsim⟩ :=
              h.deliver hintact hring htop hinv env hi hlink helection hkeeps (inbound (ring i))
            rw [ht]
            exact ⟨_, c', Run.snoc Run.nil hc, by simp [CrashAction.erase, hlink, helection], hsim,
              fun _ => CrashRing.put_alive, False.elim⟩
          · obtain ⟨t, ht, hsim⟩ := h.deliver_heartbeat hintact hring
              (x.envOf ring socket (ring i) env) hi hlink helection (inbound (ring i))
            rw [ht]
            exact ⟨[], c, Run.nil, by simp [CrashAction.erase, hlink, helection], hsim,
              fun _ => CrashRing.put_alive, False.elim⟩
        · cases hstep
  | crash i =>
      rw [CrashRing.step] at hstep
      split at hstep
      · obtain rfl := Option.some.inj hstep
        exact ⟨[], c, Run.nil, rfl, h.kill hkeeps, False.elim, False.elim⟩
      · cases hstep
  | disconnect i =>
      rw [CrashRing.step] at hstep
      split at hstep
      · rename_i hready
        obtain ⟨hi, hcut, hdead, -⟩ := hready
        obtain rfl := Option.some.inj hstep
        exact ⟨[], c, Run.nil, rfl,
          h.disconnect hi (by simpa using hdead) (hintact.socket i) (by simpa using hcut) hkeeps,
          False.elim, False.elim⟩
      · cases hstep

omit [DecidableEq ι] [Finite ι] [Nontrivial ι] hintact hring htop in
/-- No frame of the election on the links, no token on those of the protocol. -/
theorem link_eq_nil_iff (h : CrashSim ring x₀ socket x c) :
    (∀ i, elections (x.link i) = []) ↔ ∀ i, c.link i = [] := by
  simp [h.link]

omit [DecidableEq ι] [Finite ι] [Nontrivial ι] hintact hring htop in
/-- At the end of an election, or before its start, nobody takes part. -/
theorem not_wedged (h : CrashSim ring x₀ socket x c)
    (hinv : Inv ring (fun i => (x₀.server i).self.id) top c) : ¬ x.Wedged := by
  rintro ⟨hlink, j, hj, -, hpart⟩
  rw [h.participant j hj] at hpart
  have hempty := h.link_eq_nil_iff.mp hlink
  by_cases hstarted : Started c
  · have hsettled := hinv.settled hstarted hempty
    by_cases hjtop : j = top
    · rw [hjtop, hsettled.node_top] at hpart
      cases hpart
    · rw [hsettled.rest j hjtop] at hpart
      cases hpart
  · have hidle : c.node j = .idle := by
      by_contra hne
      exact hstarted ⟨j, hne⟩
    rw [hidle] at hpart
    cases hpart

end CrashSim

theorem Intact.crashSim {ι : Type*} {ring : Equiv.Perm ι} {socket : ι → Socket} {x₀ : CrashRing ι}
    (hintact : Intact ring socket x₀.toNetwork) (hcut : ∀ i, x₀.cut i = false) :
    CrashSim ring x₀.toNetwork socket x₀ start where
  link i := by simp [hintact.link i, start, elections]
  beats i := by simp [hintact.link i, Beats]
  id _ _ := rfl
  participant i _ := hintact.participant i
  server i _ _ := hintact.sim.server i
  lead i _ := CrashSim.next_of_represents (hintact.sim.server i)
  dead i hi := by simp [hcut i] at hi

/-- **No run without a lost frame wedges.**  Servers may crash at any point of it. -/
theorem not_wedged_of_keepsFrames {ι : Type*} [DecidableEq ι] [Finite ι] [Nontrivial ι]
    {ring : Equiv.Perm ι} {socket inbound : ι → Socket} {x₀ x : CrashRing ι}
    (hintact : Intact ring socket x₀.toNetwork) (hring : ring.IsCycleOn Set.univ)
    (hcut : ∀ i, x₀.cut i = false) {h : List (CrashRing ι × CrashAction ι)}
    (run : Run (CrashRing.step ring socket inbound) x₀ h x)
    (hkeeps : ∀ y a, (y, a) ∈ h → y.KeepsFrames ring socket a) :
    ∀ y ∈ Run.states h x, ¬ y.Wedged := by
  obtain ⟨top, htop⟩ := Finite.exists_max fun i => (x₀.server i).self.id
  have hall := run.guarded_states
    (P := fun y => ∃ c, CrashSim ring x₀.toNetwork socket y c ∧
      Inv ring (fun i => (x₀.server i).self.id) top c)
    ⟨start, hintact.crashSim hcut, inv_start⟩
    (fun y a z hy ha hstep => by
      obtain ⟨c, hsim, hinv⟩ := hy
      obtain ⟨h', c', run', -, hsim', -⟩ := hsim.step hintact hring htop hinv ha hstep
      exact ⟨c', hsim', run'.invariant hinv fun _ _ _ hz hs =>
        hz.step hring hintact.id_injective htop hs⟩)
    hkeeps
  intro y hy
  obtain ⟨c, hsim, hinv⟩ := hall y hy
  exact hsim.not_wedged hinv

/-! ## Two servers -/

private def twoIds (i : Bool) : ℤ := if i then 20 else 7

/-- Servers 20 and 7; their leader, with the ID 15, has crashed. -/
def twoServers : CrashRing Bool where
  server i := { startLeader 0 (twoIds i) (text "10.0.0.1") 4041 20000 3 4 with
    self := createServer 0 (twoIds i) (text "10.0.0.1") 4041 0 3
    next := [createServer 0 15 (text "10.0.0.2") 4041 1 5,
      createServer 0 (twoIds !i) (text "10.0.0.1") 4041 0 6]
    successorSocket := 6 }
  link _ := []
  alive _ := true
  cut _ := false

theorem intact_twoServers : Intact Equiv.boolNot (fun _ => 6) twoServers.toNetwork :=
  ⟨by decide, by decide, by decide, by decide, fun _ => ⟨_, _, rfl, rfl, rfl⟩, by decide,
    fun _ => rfl⟩

theorem isCycleOn_boolNot : Equiv.boolNot.IsCycleOn Set.univ := by
  have hnext : ∀ i j : Bool, i ≠ j → Equiv.boolNot i = j := by decide
  refine ⟨Set.bijOn_univ.mpr Equiv.boolNot.bijective, fun i _ j _ => ?_⟩
  by_cases hij : i = j
  · exact ⟨0, hij⟩
  · exact ⟨1, hnext i j hij⟩

private def crashStep := CrashRing.step Equiv.boolNot (fun _ => 6) (fun _ => 7)

/-- Server 20 has crashed before the election. -/
private def calmCrash : CrashRing Bool :=
  (crashStep twoServers (.crash true)).get (by decide +kernel)

/-- Server 7 has read the end of the connection to it. -/
private def calmCut : CrashRing Bool :=
  (crashStep calmCrash (.disconnect false)).get (by decide +kernel)

/-- Server 7 has found its leader overdue. -/
private def calmEnd : CrashRing Bool :=
  (crashStep calmCut (.timer false afterTimeout.1)).get (by decide +kernel)

theorem not_wedged_of_keepsFrames_two :
    (calmEnd.server false).self.leader = 1 ∧ ¬ calmEnd.Wedged := by
  have run : Run (CrashRing.step Equiv.boolNot (fun _ => 6) fun _ => 7) twoServers
      [(twoServers, .crash true), (calmCrash, .disconnect false),
        (calmCut, .timer false afterTimeout.1)] calmEnd :=
    Run.cons (Option.some_get _).symm (Run.cons (Option.some_get _).symm
      (Run.cons (Option.some_get _).symm Run.nil))
  refine ⟨by decide +kernel, not_wedged_of_keepsFrames intact_twoServers isCycleOn_boolNot
    (fun _ => rfl) run ?_ calmEnd (Run.last_mem_states _ _)⟩
  intro y a hmem
  simp only [List.mem_cons, List.not_mem_nil, or_false, Prod.mk.injEq] at hmem
  rcases hmem with ⟨rfl, rfl⟩ | ⟨rfl, rfl⟩ | ⟨rfl, rfl⟩
  · exact rfl
  · exact Or.inl (by decide +kernel)
  · have hnone : (calmCut.server false).next[1]? = none := by decide +kernel
    refine Or.inr (Or.inr fun hvote => ?_)
    obtain ⟨-, successor, hsuccessor, -⟩ := hvote
    simp [hnone] at hsuccessor

/-- Server 20 sends its vote twice, and server 7 crashes with both on their way to it. -/
private def lostActions : List (CrashAction Bool) := [.timer true afterTimeout.1, .crash false]

private def lostEnd : CrashRing Bool :=
  (exec crashStep twoServers lostActions).get (by decide +kernel)

theorem election_wedges :
    Intact Equiv.boolNot (fun _ => 6) twoServers.toNetwork ∧
      ∃ h x, Run (CrashRing.step Equiv.boolNot (fun _ => 6) fun _ => 7) twoServers h x ∧
        (∀ i, x.link i = []) ∧ x.Wedged := by
  refine ⟨intact_twoServers, trace crashStep twoServers lostActions, lostEnd,
    Run.of_exec (Option.some_get _).symm, ?_, ?_, true, ?_⟩
  · decide +kernel
  · decide +kernel
  · decide +kernel

end ChatRing
