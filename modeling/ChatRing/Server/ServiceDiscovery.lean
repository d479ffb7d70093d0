import ChatRing.Lib.Run
import ChatRing.Server.Decoding

/-!
# Finding the leader

`service_discovery` waits for the leader's reply in at most three rounds of `select`, and
everything else that arrives in the meantime goes through the same loop.  One variable
stands for all connections, so that only data on the connection accepted last is read;
whatever it reads, a failed call and a round in which nothing arrives end the function.

`Watch` is what the loop remembers of the order of arrivals.  The loop goes on exactly
while `Watch.pass` does, and where it stops it returns an error or has read a reply.

## Main results

* `Waits.stop` — what the discovery does at the first arrival that stops it.
* `finds_leader_iff` — it finds the leader iff its reply is the first to be read, and the
  servers it names can be entered and connected.
-/

namespace ChatRing
open CText

/-- The fields of the leader's reply `ID:addr:port:succID`. -/
structure Reply where
  id : ℤ
  addr : Text
  port : ℤ
  successorId : ℤ
  deriving DecidableEq

/-- The reply that a received message is read as. -/
def replyOf (received : Text) : Option Reply :=
  match Receiver.discovery.read received with
  | some (.joinReply id addr port successorId) => some ⟨id, addr, port, successorId⟩
  | _ => none

/-- The address in the reply of a leader that has no other server. -/
def placeholder : Text := text "0.0.0.0"

/-- A message that is no reply: its connection is closed, and the discovery goes on. -/
def IsOther (received : Text) : Prop :=
  (frameBody (received.take bufferSize)).isSome ∧ replyOf received = none

instance (received : Text) : Decidable (IsOther received) := inferInstanceAs (Decidable (_ ∧ _))

/-! ## The order of arrivals -/

/-- The connection accepted last, and the descriptors that are selected on. -/
structure Watch where
  last : Option Socket
  watched : Finset Socket

namespace Watch
variable (tcpSocket : Socket)

/-- One arrival, or nothing where the discovery ends with it. -/
def pass (w : Watch) : Socket × Arrival → Option Watch
  | (i, .connection socket _) =>
      if i ≠ tcpSocket then some w
      else if IsValidSocket socket then some ⟨some socket, insert socket w.watched⟩
      else none
  | (i, .data received) =>
      if i = tcpSocket ∨ w.last ≠ some i then some w
      else if IsOther received then some { w with watched := w.watched.erase i }
      else none

/-- One round, or nothing where the discovery ends in it. -/
def passRound (w : Watch) : Round → Option Watch
  | .failed => none
  | .quiet _ => none
  | .ready _ reads => exec (pass tcpSocket) w (reads.filter fun r => r.1 ∈ w.watched)

/-- Nothing is accepted yet. -/
def start : Watch := ⟨none, {tcpSocket}⟩

end Watch

/-- The reply `r` on connection `fd` is the first to be read, in a round with environment
`env`: every round before it, and every arrival before it in its own round, goes by, and the
connection is then the last one accepted. -/
inductive ReadsFirst (tcpSocket : Socket) (rounds : List Round) (fd : Socket) (r : Reply)
    (env : Env) : Prop
  | intro {before after : List Round} {reads earlier later : List (Socket × Arrival)}
      {w u : Watch} {received : Text} (hrounds : rounds = before ++ .ready env reads :: after)
      (hbefore : exec (Watch.passRound tcpSocket) (Watch.start tcpSocket) before = some w)
      (hreads : reads.filter (fun e => e.1 ∈ w.watched) = earlier ++ (fd, .data received) :: later)
      (hearlier : exec (Watch.pass tcpSocket) w earlier = some u) (hfd : fd ≠ tcpSocket)
      (hlast : u.last = some fd) (hreply : replyOf received = some r)

/-- The reply is readable on the connection `fd`: it is reported in one of the rounds, and
the connection came in an earlier one.  The leader sends no other reply on it. -/
structure Offers (tcpSocket : Socket) (rounds : List Round) (fd : Socket) (r : Reply) :
    Prop where
  valid : IsValidSocket fd
  readable : ∃ before env reads after received env' reads' ip,
    rounds = before ++ .ready env reads :: after ∧ (fd, .data received) ∈ reads ∧
      replyOf received = some r ∧ .ready env' reads' ∈ before ∧
      (tcpSocket, .connection fd ip) ∈ reads'
  only : ∀ env reads received r', .ready env reads ∈ rounds → (fd, .data received) ∈ reads →
    replyOf received = some r' → r' = r

namespace Reply
variable (r : Reply)

/-- The list is the process itself, the leader, and the successor that the reply names. -/
def Listed (head : ServerInfo) (t : Server) : Prop :=
  t.self.id = head.id ∧ ∃ leader : ServerInfo, leader.id = r.id ∧ leader.leader = 1 ∧
    if r.addr = placeholder then t.next = [leader]
    else ∃ successor : ServerInfo, successor.addr = r.addr ∧ successor.port = r.port ∧
      successor.id = r.successorId ∧ t.next = [leader, successor]

/-- The discovery returns the socket of the reply, with the leader and the successor in
the list. -/
def Found (head : ServerInfo) (fd : Socket) (result : Except Fault (Socket × Server)) : Prop :=
  ∃ t, result = .ok (fd, t) ∧ r.Listed head t

/-- The IDs are distinct, and a successor that is named has an address of at least eight
characters and a port of at most five, and accepts the connection. -/
structure Joinable (head : ServerInfo) (env : Env) : Prop where
  leader : r.id ≠ head.id
  successor : r.addr ≠ placeholder → 8 ≤ r.addr.length ∧ PortFits r.port ∧
    IsValidSocket env.connect ∧ r.successorId ≠ head.id ∧ r.successorId ≠ r.id

end Reply

/-! ## Entering the leader and the successor -/

section Joining
variable {env : Env} {s : Server} {fd : Socket} {r : Reply} {addressBuffer : Text}

/-- The state in which the leader is entered. -/
def withLeader (env : Env) (s : Server) (fd : Socket) (addressBuffer : Text) (id : ℤ) : Server :=
  { s with
    self := { s.self with leader := 0 }
    next := appendServer env.now s.self s.next id addressBuffer s.self.port 1 fd }

/-- No connection is made to a server without an address. -/
theorem joinSuccessor_of_lt {successorIP : Text} {mPORT ids : ℤ} (h : successorIP.length < 8) :
    joinSuccessor env s fd successorIP mPORT ids = .ok (fd, s) := by
  rw [joinSuccessor, if_neg (by omega)]
  rfl

/-- Otherwise the port must fit, and the connection succeed. -/
theorem joinSuccessor_eq_ok_iff {successorIP : Text} {mPORT ids : ℤ} {t : Server}
    (hfd : IsValidSocket fd) (h : 8 ≤ successorIP.length) :
    joinSuccessor env s fd successorIP mPORT ids = .ok (fd, t) ↔
      PortFits mPORT ∧ IsValidSocket env.connect ∧
        t = { s with
          opened := insert env.connect s.opened
          out := s.out ++ [.connect successorIP (intText mPORT) env.connect]
          successorSocket := env.connect
          next := appendServer env.now s.self s.next ids successorIP mPORT 0 env.connect } := by
  have hne : fd ≠ errorReturn := by
    rintro rfl
    exact absurd hfd (by decide)
  rw [joinSuccessor, if_pos h]
  by_cases hport : PortFits mPORT
  · rw [portText_of_fits hport, Except.ok_bind]
    by_cases hconnect : IsValidSocket env.connect
    · rw [Server.setupTcpClient, if_pos hconnect]
      simp [hport, hconnect, @eq_comm _ t]
    · have hinvalid : ¬ IsValidSocket errorReturn := by decide
      rw [Server.setupTcpClient, if_neg hconnect]
      simp [hconnect, hinvalid, Ne.symm hne]
  · rw [portText_of_not_fits hport]
    exact iff_of_false (fun heq => Except.ok_ne_error heq.symm) fun hall => hport hall.1

/-- **The leader and the successor are entered exactly when they can be.** -/
theorem found_joinSuccessor_iff (hnext : s.next = []) (hfd : IsValidSocket fd) :
    r.Found s.self fd (joinSuccessor env (withLeader env s fd addressBuffer r.id) fd r.addr r.port
      r.successorId) ↔ r.Joinable s.self env := by
  have hentered : (withLeader env s fd addressBuffer r.id).next =
      if r.id = s.self.id then []
      else [createServer env.now r.id addressBuffer s.self.port 1 fd] := by
    rw [withLeader, hnext]
    exact appendServer_nil
  have hself : (withLeader env s fd addressBuffer r.id).self.id = s.self.id := rfl
  generalize withLeader env s fd addressBuffer r.id = u at hentered hself
  by_cases hlen : 8 ≤ r.addr.length
  · have hnamed : r.addr ≠ placeholder := by
      intro heq
      rw [heq] at hlen
      exact absurd hlen (by decide)
    simp only [Reply.Found, joinSuccessor_eq_ok_iff hfd hlen, Reply.Listed, if_neg hnamed]
    constructor
    · rintro ⟨t, ⟨hport, hconnect, rfl⟩, hid, leader, hleader, -, successor, haddr, hsport, hsid,
        hlist⟩
      simp only [hentered] at hlist
      split at hlist
      · rw [appendServer_nil] at hlist
        split at hlist <;> cases hlist
      · rename_i hne
        rw [appendServer_singleton] at hlist
        split at hlist
        · cases hlist
        · rename_i hids
          rw [hself, createServer, not_or] at hids
          exact ⟨hne, fun _ => ⟨hlen, hport, hconnect, hids⟩⟩
    · rintro ⟨hne, hsuccessor⟩
      obtain ⟨-, hport, hconnect, hids⟩ := hsuccessor hnamed
      refine ⟨_, ⟨hport, hconnect, rfl⟩, hself,
        createServer env.now r.id addressBuffer s.self.port 1 fd, rfl, rfl,
        createServer env.now r.successorId r.addr r.port 0 env.connect, rfl, rfl, rfl, ?_⟩
      simp only [hentered, if_neg hne]
      rw [appendServer_singleton, if_neg]
      rw [hself, createServer, not_or]
      exact hids
  · rw [joinSuccessor_of_lt (by omega)]
    simp only [Reply.Found, Except.ok.injEq, Prod.mk.injEq, true_and, exists_eq_left', Reply.Listed]
    constructor
    · rintro ⟨-, leader, -, -, hlist⟩
      by_cases hid : r.id = s.self.id
      · rw [hentered, if_pos hid] at hlist
        split at hlist
        · cases hlist
        · obtain ⟨successor, -, -, -, hnil⟩ := hlist
          cases hnil
      · refine ⟨hid, fun hnamed => ?_⟩
        rw [hentered, if_neg hid, if_neg hnamed] at hlist
        obtain ⟨successor, -, -, -, hone⟩ := hlist
        cases hone
    · rintro ⟨hne, hsuccessor⟩
      have hunnamed : r.addr = placeholder := by
        by_contra hnamed
        exact hlen (hsuccessor hnamed).1
      refine ⟨hself, createServer env.now r.id addressBuffer s.self.port 1 fd, rfl, rfl, ?_⟩
      rw [if_pos hunnamed, hentered, if_neg hne]

end Joining

/-! ## The loop follows the order of arrivals -/

/-- The discovery has entered nobody, and its locals are those of the watch. -/
structure Waits (s : Server) (d : Discovery) (w : Watch) : Prop where
  self : d.server.self = s.self
  next : d.server.next = []
  last : d.socketClient = w.last
  watched : d.master = w.watched
  valid : ∀ fd, w.last = some fd → IsValidSocket fd

section Following
variable {env : Env} {s : Server} {d : Discovery} {w u : Watch}

/-- A message that is no reply closes its connection. -/
theorem readReply_of_other {i : Socket} {received : Text} (h : IsOther received) :
    readReply env d i received = .ok (.waiting { d with
      server := d.server.closeSocket i
      master := d.master.erase i }) := by
  obtain ⟨hframe, hreply⟩ := h
  obtain ⟨buf, hbody⟩ := Option.isSome_iff_exists.mp hframe
  have hne : received ≠ [] := by
    rintro rfl
    cases hbody
  rw [readReply, if_neg hne, hbody]
  simp only
  split
  · rename_i hscan
    simp [replyOf, Receiver.read, hbody, readJoinReply, hscan] at hreply
  · rfl

/-- What is neither a reply nor another message ends the discovery. -/
theorem readReply_of_stop {i : Socket} {received : Text} (h : ¬ IsOther received)
    (hreply : replyOf received = none) :
    readReply env d i received = .ok (.returned errorReturn d.server) := by
  rw [readReply]
  split
  · rfl
  · cases hbody : frameBody (received.take bufferSize) with
    | none => rfl
    | some buf => exact absurd ⟨by simp [hbody], hreply⟩ h

/-- A reply ends it with the leader entered. -/
theorem readReply_of_reply {i : Socket} {received : Text} {r : Reply}
    (h : replyOf received = some r) :
    readReply env d i received = (joinSuccessor env
      (withLeader env d.server i d.addressBuffer r.id) i r.addr r.port r.successorId).map
        fun p => .returned p.1 p.2 := by
  have hread : Receiver.discovery.read received =
      some (.joinReply r.id r.addr r.port r.successorId) := by
    unfold replyOf at h
    split at h
    · rename_i hread
      cases h
      exact hread
    · cases h
  exact readReply_of_read hread

/-- The arrival goes by. -/
theorem Waits.pass (hd : Waits s d w) (env : Env) {e : Socket × Arrival}
    (h : w.pass s.self.tcpSocket e = some u) :
    ∃ d', onReady env d e.1 e.2 = .ok (.waiting d') ∧ Waits s d' u := by
  obtain ⟨i, arrival⟩ := e
  have htcp : d.server.self.tcpSocket = s.self.tcpSocket := by rw [hd.self]
  by_cases hi : i = s.self.tcpSocket
  · subst hi
    cases arrival with
    | connection socket clientIp =>
        by_cases hsocket : IsValidSocket socket
        · simp only [Watch.pass, ne_eq, not_true_eq_false, if_false, if_pos hsocket,
            Option.some.injEq] at h
          subst h
          refine ⟨_, by rw [onReady, if_pos htcp.symm]; exact if_pos hsocket, ?_⟩
          refine ⟨by simp [hd.self], by simp [hd.next], rfl, by rw [hd.watched], ?_⟩
          rintro fd hfd
          cases hfd
          exact hsocket
        · simp [Watch.pass, hsocket] at h
    | data received =>
        simp only [Watch.pass, true_or, if_true, Option.some.injEq] at h
        subst h
        exact ⟨d, by rw [onReady, if_pos htcp.symm]; rfl, hd⟩
  · have hne : i ≠ d.server.self.tcpSocket := by rwa [htcp]
    cases arrival with
    | connection socket clientIp =>
        simp only [Watch.pass, ne_eq, hi, not_false_eq_true, if_true, Option.some.injEq] at h
        subst h
        refine ⟨d, ?_, hd⟩
        rw [onReady, if_neg hne]
        split <;> rfl
    | data received =>
        by_cases hlast : w.last = some i
        · have hd' : some i = d.socketClient := by rw [hd.last, hlast]
          simp only [Watch.pass, hi, hlast, ne_eq, not_true_eq_false, or_self, if_false] at h
          split at h
          · rename_i hother
            cases h
            refine ⟨_, by rw [onReady, if_neg hne, if_pos hd']; exact readReply_of_other hother, ?_⟩
            exact ⟨hd.self, hd.next, hd.last.trans hlast, by rw [hd.watched],
              fun fd hfd => hd.valid fd (hlast.trans hfd)⟩
          · cases h
        · have hd' : some i ≠ d.socketClient := by
            rw [hd.last]
            exact Ne.symm hlast
          simp only [Watch.pass, ne_eq, hlast, not_false_eq_true, or_true, if_true,
            Option.some.injEq] at h
          subst h
          exact ⟨d, by rw [onReady, if_neg hne, if_neg hd']; rfl, hd⟩

/-- **An arrival that does not go by is a reply on the connection accepted last, or it ends
the discovery with an error.** -/
theorem Waits.stop (hd : Waits s d w) (env : Env) {e : Socket × Arrival}
    (h : w.pass s.self.tcpSocket e = none) :
    (∃ t, onReady env d e.1 e.2 = .ok (.returned errorReturn t)) ∨
      ∃ i received r, e = (i, .data received) ∧ i ≠ s.self.tcpSocket ∧ w.last = some i ∧
        replyOf received = some r ∧ onReady env d e.1 e.2 = (joinSuccessor env
          (withLeader env d.server i d.addressBuffer r.id) i r.addr r.port r.successorId).map
            fun p => .returned p.1 p.2 := by
  obtain ⟨i, arrival⟩ := e
  have htcp : d.server.self.tcpSocket = s.self.tcpSocket := by rw [hd.self]
  cases arrival with
  | connection socket clientIp =>
      have hi : i = s.self.tcpSocket := by
        by_contra hi
        simp [Watch.pass, hi] at h
      have hsocket : ¬ IsValidSocket socket := by
        intro hsocket
        simp [Watch.pass, hi, hsocket] at h
      refine Or.inl ⟨d.server, ?_⟩
      rw [onReady, if_pos (hi.trans htcp.symm)]
      exact if_neg hsocket
  | data received =>
      simp only [Watch.pass] at h
      split at h
      · cases h
      · rename_i hread
        rw [not_or, not_not] at hread
        obtain ⟨hi, hlast⟩ := hread
        have hne : i ≠ d.server.self.tcpSocket := by rwa [htcp]
        have hready : onReady env d i (.data received) = readReply env d i received := by
          rw [onReady, if_neg hne, if_pos (by rw [hd.last, hlast])]
        have hother : ¬ IsOther received := by
          intro hother
          simp [hother] at h
        cases hreply : replyOf received with
        | none => exact Or.inl ⟨d.server, hready.trans (readReply_of_stop hother hreply)⟩
        | some r =>
            exact Or.inr ⟨i, received, r, rfl, hi, hlast, hreply,
              hready.trans (readReply_of_reply hreply)⟩

/-- Arrivals that go by. -/
theorem Waits.pass_all (hd : Waits s d w) (env : Env) {reads : List (Socket × Arrival)}
    (h : exec (Watch.pass s.self.tcpSocket) w reads = some u) :
    ∃ d', Waits s d' u ∧ ∀ rest, onReads env (reads ++ rest) d = onReads env rest d' := by
  induction reads generalizing d w with
  | nil =>
      cases h
      exact ⟨d, hd, fun _ => rfl⟩
  | cons e reads ih =>
      obtain ⟨v, hv, h⟩ := Option.bind_eq_some_iff.mp h
      obtain ⟨d₁, hready, hd₁⟩ := hd.pass env hv
      obtain ⟨d', hd', hrest⟩ := ih hd₁ h
      refine ⟨d', hd', fun rest => ?_⟩
      rw [List.cons_append, onReads, hready]
      exact hrest rest

/-- Rounds that go by. -/
theorem Waits.pass_rounds (hd : Waits s d w) {rounds : List Round}
    (h : exec (Watch.passRound s.self.tcpSocket) w rounds = some u) :
    ∃ d', Waits s d' u ∧ ∀ rest, onRounds (rounds ++ rest) d = onRounds rest d' := by
  induction rounds generalizing d w with
  | nil =>
      cases h
      exact ⟨d, hd, fun _ => rfl⟩
  | cons round rounds ih =>
      obtain ⟨v, hv, hrounds⟩ := Option.bind_eq_some_iff.mp h
      cases round with
      | failed => cases hv
      | quiet env => cases hv
      | ready env reads =>
          obtain ⟨d₁, hd₁, hreads⟩ := hd.pass_all env hv
          obtain ⟨d', hd', hrest⟩ := ih hd₁ hrounds
          refine ⟨d', hd', fun rest => ?_⟩
          have hround :
              onReads env (reads.filter fun r => r.1 ∈ d.master) d = .ok (.waiting d₁) := by
            rw [hd.watched, ← List.append_nil (reads.filter _), hreads]
            rfl
          rw [List.cons_append, onRounds, hround]
          exact hrest rest

end Following

/-! ## The first reply -/

section Finding
variable {env : Env} {s : Server} {d : Discovery} {w u : Watch} {fd : Socket} {r : Reply}
  {rounds : List Round}

/-- An error is no leader. -/
theorem Reply.not_found_error {head : ServerInfo} (hfd : IsValidSocket fd) (t : Server) :
    ¬ r.Found head fd (.ok (errorReturn, t)) := by
  rintro ⟨t', heq, -⟩
  cases heq
  exact absurd hfd (by decide)

/-- The round in which the discovery stops decides what it returns. -/
theorem onRounds_of_returned {reads : List (Socket × Arrival)}
    (result : Except Fault (Socket × Server))
    (h : onReads env (reads.filter fun e => e.1 ∈ d.master) d =
      result.map fun p => .returned p.1 p.2) :
    onRounds (.ready env reads :: rounds) d = result := by
  rw [onRounds, h]
  cases result with
  | error fault => rfl
  | ok p => rfl

/-- The arrival at which the discovery stops decides what the round returns. -/
theorem onReads_of_returned {e : Socket × Arrival} {later : List (Socket × Arrival)}
    (result : Except Fault (Socket × Server))
    (h : onReady env d e.1 e.2 = result.map fun p => .returned p.1 p.2) :
    onReads env (e :: later) d = result.map fun p => .returned p.1 p.2 := by
  rw [onReads, h]
  cases result with
  | error fault => rfl
  | ok p => rfl

/-- **The discovery stops at an error or at the first reply.** -/
theorem Waits.stop_rounds (hd : Waits s d w) {round : Round}
    (h : Watch.passRound s.self.tcpSocket w round = none) :
    (∃ t, onRounds (round :: rounds) d = .ok (errorReturn, t)) ∨
      ∃ env reads earlier i received later r u d', round = .ready env reads ∧
        reads.filter (fun e => e.1 ∈ w.watched) = earlier ++ (i, .data received) :: later ∧
        exec (Watch.pass s.self.tcpSocket) w earlier = some u ∧ i ≠ s.self.tcpSocket ∧
        u.last = some i ∧ replyOf received = some r ∧ Waits s d' u ∧
        onRounds (round :: rounds) d = joinSuccessor env
          (withLeader env d'.server i d'.addressBuffer r.id) i r.addr r.port r.successorId := by
  cases round with
  | failed => exact Or.inl ⟨d.server, rfl⟩
  | quiet env => exact Or.inl ⟨_, rfl⟩
  | ready env reads =>
      obtain ⟨earlier, e, later, u, hreads, hu, hstop⟩ := exists_stop h
      obtain ⟨d', hd', hrest⟩ := hd.pass_all env hu
      rcases hd'.stop env hstop with ⟨t, ht⟩ | ⟨i, received, r, rfl, hi, hlast, hr, hready⟩
      · refine Or.inl ⟨t, onRounds_of_returned (.ok (errorReturn, t)) ?_⟩
        rw [hd.watched, hreads, hrest]
        exact onReads_of_returned (.ok (errorReturn, t)) ht
      · refine Or.inr ⟨env, reads, earlier, i, received, later, r, u, d', rfl, hreads, hu, hi,
          hlast, hr, hd', onRounds_of_returned _ ?_⟩
        rw [hd.watched, hreads, hrest]
        exact onReads_of_returned _ hready

/-- The socket returned is that of the reply, or none. -/
theorem joinSuccessor_socket {i : Socket} {successorIP : Text} {mPORT ids : ℤ} {t : Server}
    (h : joinSuccessor env s i successorIP mPORT ids = .ok (fd, t)) (hfd : IsValidSocket fd) :
    fd = i := by
  rw [joinSuccessor] at h
  split at h
  · obtain ⟨port, -, h⟩ := Except.bind_eq_ok.mp h
    simp only at h
    split at h
    · cases h
      rfl
    · cases h
      exact absurd hfd (by decide)
  · cases h
    rfl

/-- Where the discovery waits, it finds what it is entered as. -/
theorem Waits.found_iff (hd : Waits s d u) (hlast : u.last = some fd) :
    r.Found s.self fd (joinSuccessor env (withLeader env d.server fd d.addressBuffer r.id) fd r.addr
      r.port r.successorId) ↔ r.Joinable s.self env := by
  rw [← hd.self]
  exact found_joinSuccessor_iff hd.next (hd.valid fd hlast)

/-- **The loop finds the leader exactly when its reply is read first and can be entered.** -/
theorem found_onRounds_iff (hd : Waits s d (Watch.start s.self.tcpSocket))
    (hoffers : Offers s.self.tcpSocket rounds fd r) :
    r.Found s.self fd (onRounds rounds d) ↔
      ∃ env, ReadsFirst s.self.tcpSocket rounds fd r env ∧ r.Joinable s.self env := by
  constructor
  · intro hfound
    cases hpass : exec (Watch.passRound s.self.tcpSocket) (Watch.start s.self.tcpSocket) rounds with
    | some u =>
        obtain ⟨d', hd', hrest⟩ := hd.pass_rounds hpass
        rw [← List.append_nil rounds, hrest] at hfound
        exact absurd hfound (Reply.not_found_error hoffers.valid _)
    | none =>
        obtain ⟨before, round, after, w, hrounds, hw, hstop⟩ := exists_stop hpass
        obtain ⟨d₁, hd₁, hrest⟩ := hd.pass_rounds hw
        rw [hrounds, hrest] at hfound
        rcases hd₁.stop_rounds hstop with ⟨t, ht⟩ |
          ⟨env, reads, earlier, i, received, later, r', u, d', rfl, hreads, hu, hi, hlast, hr, hd',
            hresult⟩
        · rw [ht] at hfound
          exact absurd hfound (Reply.not_found_error hoffers.valid t)
        · rw [hresult] at hfound
          obtain ⟨t, ht, -⟩ := id hfound
          obtain rfl := joinSuccessor_socket ht hoffers.valid
          have hmem : (fd, Arrival.data received) ∈ reads.filter fun e => e.1 ∈ w.watched := by
            rw [hreads]
            simp
          obtain rfl := hoffers.only env reads received r' (by rw [hrounds]; simp)
            (List.mem_of_mem_filter hmem) hr
          exact ⟨env, ⟨hrounds, hw, hreads, hu, hi, hlast, hr⟩, (hd'.found_iff hlast).mp hfound⟩
  · rintro ⟨env, hread, hjoin⟩
    obtain ⟨hrounds, hbefore, hreads, hearlier, hfd, hlast, hreply⟩ := hread
    obtain ⟨d₁, hd₁, hrest₁⟩ := hd.pass_rounds hbefore
    obtain ⟨d', hd', hrest'⟩ := hd₁.pass_all env hearlier
    rw [hrounds, hrest₁]
    rw [onRounds_of_returned (joinSuccessor env
      (withLeader env d'.server fd d'.addressBuffer r.id) fd r.addr r.port r.successorId)]
    · exact (hd'.found_iff hlast).mpr hjoin
    · rw [hd₁.watched, hreads, hrest']
      refine onReads_of_returned _ ?_
      rw [← readReply_of_reply hreply, onReady, if_neg (by rwa [hd'.self]),
        if_pos (by rw [hd'.last, hlast])]

/-- When everything goes by, nobody is found. -/
theorem not_found_of_pass (hd : Waits s d w) (hfd : IsValidSocket fd)
    (h : exec (Watch.passRound s.self.tcpSocket) w rounds = some u) :
    ¬ r.Found s.self fd (onRounds rounds d) := by
  obtain ⟨d', hd', hrest⟩ := hd.pass_rounds h
  rw [← List.append_nil rounds, hrest]
  exact Reply.not_found_error hfd _

/-- Once the request is sent, the three rounds decide. -/
theorem serviceDiscovery_eq (h : env.multicasts = true) (hnext : s.next = [])
    (rounds : List Round) :
    ∃ d, Waits s d (Watch.start s.self.tcpSocket) ∧
      serviceDiscovery env rounds s = onRounds (rounds.take 3) d := by
  refine ⟨_, ?_, by rw [serviceDiscovery, if_pos h]⟩
  have hself : (s.doMulticast env (discoveryFrame s)).self = s.self := by
    rw [Server.doMulticast, if_pos h]
  have hlist : (s.doMulticast env (discoveryFrame s)).next = s.next := by
    rw [Server.doMulticast, if_pos h]
  refine ⟨hself, hlist.trans hnext, rfl, rfl, ?_⟩
  rintro fd hfd
  cases hfd

/-- **A leader whose reply is readable is found exactly when the request was sent, the reply
is the first to be read, and the servers that it names can be entered.** -/
theorem finds_leader_iff (hnext : s.next = [])
    (hoffers : Offers s.self.tcpSocket (rounds.take 3) fd r) :
    r.Found s.self fd (serviceDiscovery env rounds s) ↔
      env.multicasts = true ∧ ∃ env', ReadsFirst s.self.tcpSocket (rounds.take 3) fd r env' ∧
        r.Joinable s.self env' := by
  by_cases h : env.multicasts = true
  · obtain ⟨d, hd, heq⟩ := serviceDiscovery_eq h hnext rounds
    rw [heq, found_onRounds_iff hd hoffers]
    exact (and_iff_right h).symm
  · rw [serviceDiscovery, if_neg h]
    exact iff_of_false (Reply.not_found_error hoffers.valid s) fun hall => h hall.1

end Finding

/-! ## Three schedules, and two addresses -/

private def newcomer : Server := startLeader 0 5 (text "127.0.0.1") 4041 20000 3 4

private def connecting : Env := ⟨0, 8, fun _ _ _ => true, true, 0⟩

private def replyFrom (addr : Text) : Text := padX (joinReply 7 addr 4042 9)

/-- The leader connects on descriptor 6. -/
private def leaderConnects : Round :=
  .ready connecting [(3, .connection 6 (some (text "10.0.0.7")))]

private def leaderReplies (addr : Text) : Round := .ready connecting [(6, .data (replyFrom addr))]

/-- The new predecessor connects on descriptor 7 when the reply is there. -/
private def predecessorConnects (addr : Text) : Round :=
  .ready connecting [(3, .connection 7 (some (text "10.0.0.2"))), (6, .data (replyFrom addr))]

private theorem replyOf_replyFrom {addr : Text} (h : IsAddress addr) :
    replyOf (replyFrom addr) = some ⟨7, addr, 4042, 9⟩ := by
  rw [replyOf, replyFrom, read_joinReply (by decide) h (by decide) (by decide)]

/-- A schedule in which descriptor 6 carries nothing but the reply offers it. -/
private theorem offers_of_rounds {addr : Text} (h : IsAddress addr) (before : List Round)
    (hbefore : leaderConnects ∈ before)
    (hsubset : before ⊆ [.quiet connecting, leaderConnects, predecessorConnects addr]) :
    Offers 3 (before ++ [leaderReplies addr]) 6 ⟨7, addr, 4042, 9⟩ where
  valid := by decide
  readable := ⟨before, connecting, [(6, .data (replyFrom addr))], [], replyFrom addr, connecting, _,
    _, rfl, List.mem_cons_self, replyOf_replyFrom h, hbefore, List.mem_cons_self⟩
  only := by
    intro env reads received r' hround hmem hreply
    have honly : received = replyFrom addr := by
      rcases List.mem_append.mp hround with hround | hround
      · have hround' := hsubset hround
        simp only [List.mem_cons, List.not_mem_nil, or_false] at hround'
        rcases hround' with heq | heq | heq
        · cases heq
        · cases heq
          simp at hmem
        · cases heq
          simpa using hmem
      · cases List.mem_singleton.mp hround
        simpa using hmem
    rw [honly, replyOf_replyFrom h] at hreply
    exact (Option.some.inj hreply).symm

private theorem isAddress_eight : IsAddress (text "10.0.0.9") :=
  ⟨⟨by decide, by decide, by decide, by decide⟩, by decide⟩

private theorem isAddress_seven : IsAddress (text "9.9.9.9") :=
  ⟨⟨by decide, by decide, by decide, by decide⟩, by decide⟩

/-- The leader connects after one second in which nobody did. -/
private def lateRounds (addr : Text) : List Round :=
  [.quiet connecting, leaderConnects, leaderReplies addr]

/-- The predecessor connects before the reply is read. -/
private def crowdedRounds (addr : Text) : List Round :=
  [leaderConnects, predecessorConnects addr, leaderReplies addr]

private def calmRounds (addr : Text) : List Round := [leaderConnects, leaderReplies addr]

private theorem offers_calmRounds {addr : Text} (h : IsAddress addr) :
    Offers 3 (calmRounds addr) 6 ⟨7, addr, 4042, 9⟩ :=
  offers_of_rounds h [leaderConnects] (by simp) (by simp)

/-- A timed-out round, a connection between the leader's and its reply, and a successor with
a short address: the leader or its successor is not found, although the reply is readable. -/
theorem leader_not_found :
    (Offers 3 (lateRounds (text "10.0.0.9")) 6 ⟨7, text "10.0.0.9", 4042, 9⟩ ∧
      ¬ Reply.Found ⟨7, text "10.0.0.9", 4042, 9⟩ newcomer.self 6
        (serviceDiscovery connecting (lateRounds (text "10.0.0.9")) newcomer)) ∧
    (Offers 3 (crowdedRounds (text "10.0.0.9")) 6 ⟨7, text "10.0.0.9", 4042, 9⟩ ∧
      ¬ Reply.Found ⟨7, text "10.0.0.9", 4042, 9⟩ newcomer.self 6
        (serviceDiscovery connecting (crowdedRounds (text "10.0.0.9")) newcomer)) ∧
    Offers 3 (calmRounds (text "9.9.9.9")) 6 ⟨7, text "9.9.9.9", 4042, 9⟩ ∧
      ¬ Reply.Found ⟨7, text "9.9.9.9", 4042, 9⟩ newcomer.self 6
        (serviceDiscovery connecting (calmRounds (text "9.9.9.9")) newcomer) := by
  have hvalid : IsValidSocket 6 := by decide
  have hstart : ∀ rounds : List Round, rounds.take 3 = rounds → ∃ d,
      Waits newcomer d (Watch.start 3) ∧
        serviceDiscovery connecting rounds newcomer = onRounds rounds d := by
    intro rounds hrounds
    have hmulticasts : connecting.multicasts = true := rfl
    have hnext : newcomer.next = [] := rfl
    obtain ⟨d, hd, heq⟩ := serviceDiscovery_eq hmulticasts hnext rounds
    exact ⟨d, hd, by rw [heq, hrounds]⟩
  have hcalm := offers_calmRounds isAddress_seven
  refine ⟨⟨offers_of_rounds isAddress_eight [.quiet connecting, leaderConnects] (by simp) (by simp),
      ?_⟩,
    ⟨offers_of_rounds isAddress_eight [leaderConnects, predecessorConnects _] (by simp)
      (by simp), ?_⟩,
    hcalm, ?_⟩
  · obtain ⟨d, hd, heq⟩ := hstart (lateRounds _) rfl
    rw [heq]
    exact Reply.not_found_error hvalid _
  · obtain ⟨d, hd, heq⟩ := hstart (crowdedRounds _) rfl
    rw [heq]
    exact not_found_of_pass hd hvalid rfl
  · obtain ⟨d, hd, heq⟩ := hstart (calmRounds _) rfl
    rw [heq, found_onRounds_iff hd hcalm]
    rintro ⟨env, -, hjoin⟩
    exact absurd (hjoin.successor (by decide)).1 (by decide)

/-- The reply is read in the second round, and its successor connected. -/
theorem finds_leader_iff_calm :
    Offers 3 (calmRounds (text "10.0.0.9")) 6 ⟨7, text "10.0.0.9", 4042, 9⟩ ∧
      Reply.Found ⟨7, text "10.0.0.9", 4042, 9⟩ newcomer.self 6
        (serviceDiscovery connecting (calmRounds (text "10.0.0.9")) newcomer) := by
  have hcalm := offers_calmRounds isAddress_eight
  refine ⟨hcalm, (finds_leader_iff rfl hcalm).mpr ⟨rfl, connecting, ?_, ?_⟩⟩
  · have hbefore : exec (Watch.passRound 3) (Watch.start 3) [leaderConnects] =
        some ⟨some 6, insert 6 {3}⟩ := rfl
    have hearlier : exec (Watch.pass 3) ⟨some 6, insert 6 {3}⟩ [] =
        some ⟨some 6, insert 6 {3}⟩ := rfl
    exact .intro rfl hbefore rfl hearlier (by decide) rfl (replyOf_replyFrom isAddress_eight)
  · exact ⟨by decide, fun _ => ⟨by decide, by decide, by decide, by decide, by decide⟩⟩

end ChatRing
