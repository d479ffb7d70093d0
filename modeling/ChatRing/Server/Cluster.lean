import ChatRing.Server.IntactRing
import ChatRing.Server.Quiet

/-!
# A leader and the servers of its ring

A leader, and servers that look for it: with `LEADER_DISCOVERY` while they start, or with
`WHO_IS_LEADER` after an election.  The leader connects to them one after another, in any
order, and tells them who comes next; they read what they are told whenever they come to it.
Servers crash, and the leader removes them when their heartbeats are overdue.  In between the
leader and the servers handle other events.

The sends of the leader succeed, a server that is alive is never overdue, and a link keeps the
order of the messages.  A server that cannot connect to the successor it is told of exits:
that is a crash.

## Main definitions

* `Cluster`, `Cluster.step` — the processes, and what happens next.
* `Cluster.Inv` — the invariant: the list of the leader, and what everybody is told of last.

## Main results

* `Cluster.Inv.announce`, `Cluster.Inv.read`, `Cluster.Inv.join`, `Cluster.Inv.background`,
  `Cluster.Inv.quiet` — the invariant is kept while nobody leaves.
-/

namespace ChatRing
open CText CyclicList Function

/-! ## The system -/

/-- When the rounds of `service_discovery` reach the message that is read on a connection:
what comes before it, and in which round. -/
structure Schedule where
  before : List Round
  env : Env
  earlier : List (Socket × Arrival)
  later : List (Socket × Arrival)
  after : List Round

namespace Schedule

/-- The rounds, with the message on `fd`. -/
def rounds (d : Schedule) (fd : Socket) (received : Text) : List Round :=
  d.before ++ .ready d.env (d.earlier ++ (fd, .data received) :: d.later) :: d.after

/-- The message is read in one of the three rounds, on the connection accepted last, and
nothing ends the discovery before. -/
def InTime (d : Schedule) (tcpSocket fd : Socket) : Prop :=
  d.before.length < 3 ∧ fd ≠ tcpSocket ∧ IsValidSocket d.env.connect ∧
    ∃ w ∈ exec (Watch.passRound tcpSocket) (Watch.start tcpSocket) d.before, fd ∈ w.watched ∧
      ∃ u ∈ exec (Watch.pass tcpSocket) w (d.earlier.filter fun e => e.1 ∈ w.watched),
        u.last = some fd

instance (d : Schedule) (tcpSocket fd : Socket) : Decidable (d.InTime tcpSocket fd) :=
  inferInstanceAs (Decidable (_ ∧ _))

theorem InTime.readsFirst {d : Schedule} {tcpSocket fd : Socket} (h : d.InTime tcpSocket fd)
    {received : Text} {r : Reply} (hreply : replyOf received = some r) :
    ReadsFirst tcpSocket ((d.rounds fd received).take 3) fd r d.env := by
  obtain ⟨hlen, hfd, -, w, hw, hwatched, u, hu, hlast⟩ := h
  have htake : (d.rounds fd received).take 3 = d.before ++
      .ready d.env (d.earlier ++ (fd, .data received) :: d.later) ::
        d.after.take (2 - d.before.length) := by
    obtain ⟨k, hk⟩ : ∃ k, 3 = d.before.length + (k + 1) := ⟨2 - d.before.length, by omega⟩
    have hk' : 2 - d.before.length = k := by omega
    rw [rounds, hk', hk, List.take_length_add_append, List.take_succ_cons]
  have hreads : (d.earlier ++ (fd, Arrival.data received) :: d.later).filter
      (fun e => e.1 ∈ w.watched) = d.earlier.filter (fun e => e.1 ∈ w.watched) ++
        (fd, .data received) :: d.later.filter (fun e => e.1 ∈ w.watched) := by
    simp [List.filter_append, hwatched]
  exact ⟨htake, hw, hreads, hu, hfd, hlast, hreply⟩

end Schedule

/-- What a server multicasts. -/
def Announcement.request (f : Server) : Announcement → Text
  | .discovery => discoveryFrame f
  | .whoIsLeader => padX (ChatRing.whoIsLeader f.self.id f.self.port)

/-- The leader and the servers; which of them have not crashed; the descriptor that the leader
lists for a server, once it has connected to it; and the messages that the server has not
read. -/
structure Cluster (ι : Type*) where
  leader : Server
  server : ι → Server
  alive : ι → Bool
  fd : ι → Option Socket
  link : ι → List Text

inductive ClusterAction (ι : Type*)
  /-- The leader receives the announcement of server `i`. -/
  | announce (i : ι) (env : ReliableEnv)
  /-- `service_discovery` of server `i` reads the first message on its link. -/
  | join (i : ι) (env : ReliableEnv) (d : Schedule)
  /-- Server `i` reads the first message on its link in its loop. -/
  | read (i : ι) (env : Env)
  /-- The leader handles another event. -/
  | leads (e : Event)
  /-- Server `i` handles another event. -/
  | follows (i : ι) (e : Event)
  /-- Server `i` crashes. -/
  | crash (i : ι)
  /-- Server `i` finds the connection to its successor closed. -/
  | hangUp (i : ι) (env : Env)
  /-- The timer of the leader, when servers are overdue. -/
  | sweep (env : ReliableEnv)

namespace Cluster
variable {ι : Type*} (kind : ι → Announcement) (addr : ι → Text)
  (inbound : ι → Socket)

/-- The leader has become `t`; what it sent to the servers it is connected to is on their
links. -/
def lead (c : Cluster ι) (t : Server) (fd : ι → Option Socket) : Cluster ι where
  leader := t
  server := c.server
  alive := c.alive
  fd := fd
  link i := (fd i).elim [] fun k => c.link i ++ sentOn (t.out.drop c.leader.out.length) k

/-- The descriptors that a leader which has become `t` lists. -/
def keep (c : Cluster ι) (t : Server) (i : ι) : Option Socket :=
  (c.fd i).filter fun k => k ∈ t.next.map ServerInfo.tcpSocket

/-- Server `i` has become `t`, and has the messages `link` to read. -/
def follow [DecidableEq ι] (c : Cluster ι) (i : ι) (t : Server) (link : List Text) : Cluster ι :=
  { c with server := update c.server i t, link := update c.link i link }

/-- Server `i` follows its leader and a server that has crashed. -/
def Bereft (c : Cluster ι) (i : ι) : Prop :=
  ∃ j, c.alive j = false ∧ ((c.server i).next[1]?).map ServerInfo.id = some (c.server j).self.id

/-- The action can be taken.  A server announces itself until it is connected to, and the
descriptor of its connection is not one that the leader lists.  A server that is alive is
reached by the leader, and never overdue. -/
def Enabled (c : Cluster ι) : ClusterAction ι → Prop
  | .announce i env => c.alive i ∧ c.fd i = none ∧ IsValidSocket env.1.connect ∧
      ∀ j, c.fd j ≠ some env.1.connect
  | .join i _ d => c.alive i ∧ (c.server i).self.leader = 1 ∧ c.link i ≠ [] ∧
      d.InTime (c.server i).self.tcpSocket (inbound i)
  | .read i env => c.alive i ∧ (c.server i).self.leader ≠ 1 ∧ c.link i ≠ [] ∧
      IsValidSocket env.connect
  | .leads e => c.leader.Quiet e ∧ ∀ i, c.alive i → ∀ k ∈ e.closes, c.fd i ≠ some k
  | .follows i e => c.alive i ∧ (c.server i).self.leader ≠ 1 ∧ (c.server i).Background e
  | .crash i => c.alive i
  | .hangUp i _ => c.alive i ∧ (c.server i).self.leader ≠ 1 ∧ c.Bereft i ∧
      (c.server i).successorSocket ≠ (c.server i).mcSocket ∧
      (c.server i).successorSocket ≠ (c.server i).ltcpSocket
  | .sweep env => ∀ p ∈ c.leader.next, TimedOut env.1 (2 * heartbeatTimeout) p →
      ∃ i, c.alive i = false ∧ c.fd i = some p.tcpSocket

instance [Fintype ι] (c : Cluster ι) (i : ι) : Decidable (c.Bereft i) :=
  inferInstanceAs (Decidable (∃ _, _ ∧ _))

instance [Fintype ι] (c : Cluster ι) : (a : ClusterAction ι) → Decidable (c.Enabled inbound a)
  | .announce i _ => inferInstanceAs (Decidable (c.alive i ∧ c.fd i = none ∧ _))
  | .join i _ d => inferInstanceAs (Decidable (c.alive i ∧ _ ∧ c.link i ≠ [] ∧ d.InTime _ _))
  | .read i _ => inferInstanceAs (Decidable (c.alive i ∧ _ ∧ c.link i ≠ [] ∧ _))
  | .leads e => inferInstanceAs (Decidable (c.leader.Quiet e ∧ ∀ _, _ → ∀ k ∈ e.closes, _))
  | .follows i e => inferInstanceAs (Decidable (c.alive i ∧ _ ∧ (c.server i).Background e))
  | .crash i => inferInstanceAs (Decidable (c.alive i))
  | .hangUp i _ => inferInstanceAs (Decidable (c.alive i ∧ _ ∧ c.Bereft i ∧ _))
  | .sweep _ => inferInstanceAs (Decidable (∀ p ∈ c.leader.next, _ → _))

/-- What happens next.  `addr i` is the address of server `i`, and `inbound i` the descriptor
on which the leader's connection arrives there. -/
def step [DecidableEq ι] [Fintype ι] (c : Cluster ι) (a : ClusterAction ι) : Option (Cluster ι) :=
  if c.Enabled inbound a then
    match a with
    | .announce i env =>
        (c.leader.handle
          (.datagram env (some ((kind i).request (c.server i))) (addr i))).toOption.map fun t =>
            c.lead t (update c.fd i (some env.1.connect))
    | .join i env d =>
        (startUp env (d.rounds (inbound i) ((c.link i).headD [])) (c.server i)).toOption.map
          fun t => c.follow i t (c.link i).tail
    | .read i env =>
        (handleSocketChange env (c.server i) (inbound i) ((c.link i).headD [])).toOption.map
          fun t => c.follow i t (c.link i).tail
    | .leads e => (c.leader.handle e).toOption.map fun t => c.lead t c.fd
    | .follows i e => ((c.server i).handle e).toOption.map fun t => c.follow i t (c.link i)
    | .crash i => some { c with alive := update c.alive i false }
    | .hangUp i env =>
        (handleSocketChange env (c.server i) (c.server i).successorSocket []).toOption.map
          fun t => c.follow i t (c.link i)
    | .sweep env => (c.leader.handle (.timer env)).toOption.map fun t => c.lead t (c.keep t)
  else none

/-! ## The invariant -/

/-- The record of server `i`. -/
def peer (c : Cluster ι) (i : ι) : ServerInfo := { (c.server i).self with addr := addr i }

/-- Before the first announcement: the leader is alone, and nobody knows anybody. -/
structure Start (c : Cluster ι) : Prop where
  leader : LeaderList c.leader
  next : c.leader.next = []
  asks : ∀ i, Asks (kind i) (c.server i)
  id : ∀ i, IsId (c.server i).self.id
  id_injective : Injective fun i => (c.server i).self.id
  id_ne : ∀ i, (c.server i).self.id ≠ c.leader.self.id
  member : ∀ i, IsMember (c.peer addr i)
  length : ∀ i, 8 ≤ (addr i).length
  fd : ∀ i, c.fd i = none
  link : ∀ i, c.link i = []

/-- The record `p` in the list of the leader is that of server `i`. -/
structure Entry (c₀ c : Cluster ι) (i : ι) (p : ServerInfo) : Prop where
  peer : SamePeer p (c₀.peer addr i)
  fd : c.fd i = some p.tcpSocket

/-- Server `i` has been told of `o` last, when it has read its link. -/
def IsTold (c₀ c : Cluster ι) (i : ι) (o : Option ServerInfo) : Prop :=
  Told (kind i) c₀.leader (inbound i) (c.server i) (c.link i) o

/-- The leader lists the servers that it has connected to, and every one has been told of the
next one last, as long as both are alive. -/
structure Inv (c₀ c : Cluster ι) : Prop where
  leader : LeaderList c.leader
  self : SamePeer c.leader.self c₀.leader.self
  server : ∀ i, SameHead (c.server i).self (c₀.server i).self
  entry : ∀ p ∈ c.leader.next, ∃ i, Entry addr c₀ c i p
  listed : ∀ i, c.fd i ≠ none → ∃ p ∈ c.leader.next, Entry addr c₀ c i p
  fd_injective : ∀ i j k, c.fd i = some k → c.fd j = some k → i = j
  asks : ∀ i, c.alive i → c.fd i = none → Asks (kind i) (c.server i)
  link : ∀ i, c.fd i = none → c.link i = []
  told : ∀ i, c.alive i → c.fd i ≠ none → ∃ o, IsTold kind inbound c₀ c i o
  linked : Linked (fun p q => ∃ i j, Entry addr c₀ c i p ∧ Entry addr c₀ c j q ∧
    (c.alive i → c.alive j → IsTold kind inbound c₀ c i (some (c₀.peer addr j)))) c.leader.next

/-! ## An announcement -/

section Announce
variable {kind addr inbound} {c₀ c : Cluster ι} {i j : ι} {env : Env} {a b : List ServerInfo}
  {t : Server} {p q : ServerInfo}

theorem admit_of_request {s f : Server} {kind : Announcement} {addr : Text} (hs : LeaderList s)
    (hid : IsInt f.self.id) (hport : IsInt f.self.port) (env : Env) :
    handleMcastReceive env s (some (kind.request f)) addr =
      kind.admission env s f.self.id f.self.port addr := by
  cases kind with
  | discovery => exact handleMcastReceive_of_read hs.leader addr (read_leaderDiscovery hid hport)
  | whoIsLeader => exact handleMcastReceive_of_read hs.leader addr (read_whoIsLeader hid hport)

/-- What the leader sends on connection `k` when it admits the server on `connect`. -/
def tellings (connect : Socket) (reply toPredecessor : Text) (predecessor : Option ServerInfo)
    (k : Socket) : List Text :=
  (if k = connect then [padX reply] else []) ++
    (predecessor.toList.filter fun p => p.tcpSocket = k).map fun _ => padX toPredecessor

/-- **The leader lists a server that announces itself**, and tells it and the one before it. -/
theorem handle_request {s f : Server} {kind : Announcement} {addr : Text} (hs : LeaderList s)
    (hmember : IsMember { f.self with addr := addr }) (henv : env.AllSucceed)
    (hconnect : IsValidSocket env.connect) (hnew : ¬ serverInfoExist f.self.id s.self s.next) :
    ∃ a b t, s.next = a ++ b ∧ s.handle (.datagram env (some (kind.request f)) addr) = .ok t ∧
      t.self = s.self ∧
      t.next = a ++ createServer env.now f.self.id addr f.self.port 0 env.connect :: b ∧
      LeaderList t ∧ sentOn (t.out.drop s.out.length) = tellings env.connect
        (kind.reply s (gapSucc a b)) (kind.toPredecessor s f.self.id f.self.port addr)
        (gapPred a b) := by
  have hrecord : IsMember (createServer env.now f.self.id addr f.self.port 0 env.connect) :=
    hmember.congr rfl rfl rfl
  obtain ⟨a, b, t, hab, ht, hself, hnext, hasc, hout⟩ := admitPeer_eq addr
    (kind.toPredecessor s f.self.id f.self.port addr) (kind.reply s) henv.1 hmember.port_pos
    hmember.port_le hconnect hnew hs.ascending
  have hregister : register (admitPeer env s f.self.id f.self.port addr (kind.reply s)
      (kind.toPredecessor s f.self.id f.self.port addr)) =
        .ok (registerPeer t env.connect) := by
    rw [register, ht]
    rfl
  have hleading : Leading (registerPeer t env.connect) :=
    ⟨by rw [registerPeer_self, hself]; exact hs.leader, by rw [registerPeer_next]; exact hasc⟩
  refine ⟨a, b, registerPeer t env.connect, hab, ?_, by simp [hself], by simp [hnext],
    hs.of_register hleading hrecord hregister, ?_⟩
  · rw [Server.handle, admit_of_request hs hmember.id hmember.isInt_port, kind.admission_eq]
    exact hregister
  · funext k
    rw [registerPeer_out, hout, List.drop_left, tellings]
    have hconnected : sentOn [.send env.connect (padX (kind.reply s (gapSucc a b)))] k =
        if k = env.connect then [padX (kind.reply s (gapSucc a b))] else [] := by
      by_cases hk : k = env.connect
      · simp [sentOn, hk]
      · simp [sentOn, hk, Ne.symm hk]
    rw [sentOn_connect, ← List.singleton_append, sentOn_append, hconnected]
    congr 1
    cases gapPred a b with
    | none => rfl
    | some p =>
        by_cases hp : p.tcpSocket = k
        · simp [sentOn, hp]
        · simp [sentOn, hp]

theorem reply_congr {s s' : Server} (kind : Announcement) (hself : SamePeer s.self s'.self)
    (hleader : s.self.leader = s'.self.leader) (hq : SamePeer p q) :
    kind.reply s (some p) = kind.reply s' (some q) ∧ kind.reply s none = kind.reply s' none := by
  cases kind with
  | discovery => simp [Announcement.reply, hself.id, hleader, hq.id, hq.addr, hq.port]
  | whoIsLeader =>
      simp [Announcement.reply, hself.id, hself.addr, hself.port, hq.id, hq.addr, hq.port]

/-- The message to the server before the new one. -/
theorem guides_toPredecessor {s : Server} (kind : Announcement)
    (hself : SamePeer s.self c₀.leader.self)
    (hserver : SameHead (c.server i).self (c₀.server i).self) :
    Guides c₀.leader.self (c₀.peer addr i) (padX (kind.toPredecessor s (c.server i).self.id
      (c.server i).self.port (addr i))) := by
  cases kind with
  | discovery =>
      left
      simp [Announcement.toPredecessor, peer, hserver.id, hserver.port]
  | whoIsLeader =>
      right
      simp [Announcement.toPredecessor, peer, hserver.id, hserver.port, hself.id, hself.addr,
        hself.port]

variable (hstart : Start kind addr c₀) (h : Inv kind addr inbound c₀ c)

include hstart in
/-- Every server can follow every other one. -/
theorem Start.canFollow (hij : i ≠ j) (hserver : SameHead (c.server i).self (c₀.server i).self) :
    CanFollow c₀.leader.self.id (c.server i).self.id (c₀.peer addr j) where
  member := hstart.member j
  ne_self := by
    rw [hserver.id]
    exact fun heq => hij (hstart.id_injective heq.symm)
  ne_leader := hstart.id_ne j

include h in
/-- A server has at most one record. -/
theorem Inv.entry_unique (hp : Entry addr c₀ c i p) (hq : Entry addr c₀ c i q)
    (hp' : p ∈ c.leader.next) (hq' : q ∈ c.leader.next) : p = q := by
  have hnodup : (c.leader.next.map ServerInfo.id).Nodup :=
    List.pairwise_map.mpr (h.leader.ascending.imp ne_of_lt)
  exact List.inj_on_of_nodup_map hnodup hp' hq' (hp.peer.id.trans hq.peer.id.symm)

include hstart h in
theorem Inv.not_exist (hfd : c.fd i = none) :
    ¬ serverInfoExist (c.server i).self.id c.leader.self c.leader.next := by
  rintro ⟨p, hp, hid⟩
  rw [(h.server i).id] at hid
  rcases List.mem_cons.mp hp with rfl | hp
  · rw [h.self.id] at hid
    exact hstart.id_ne i hid.symm
  · obtain ⟨j, hj⟩ := h.entry p hp
    have hij : j = i := hstart.id_injective (hj.peer.id.symm.trans hid)
    have hsome := hj.fd
    rw [hij, hfd] at hsome
    cases hsome

/-- Nothing but the descriptor of the new server changes. -/
theorem Entry.of_announce [DecidableEq ι] (hentry : Entry addr c₀ c j p) (hfd : c.fd i = none)
    (fd : Socket) : j ≠ i ∧ Entry addr c₀ (c.lead t (update c.fd i (some fd))) j p := by
  have hji : j ≠ i := by
    rintro rfl
    have hsome := hentry.fd
    rw [hfd] at hsome
    cases hsome
  refine ⟨hji, hentry.peer, ?_⟩
  show update c.fd i (some fd) j = _
  rw [update_of_ne hji, hentry.fd]

/-- What the leader tells a server that it has connected to before. -/
theorem tellings_of_ne {connect k : Socket} {reply toPredecessor : Text}
    {predecessor : Option ServerInfo} (hk : k ≠ connect) :
    tellings connect reply toPredecessor predecessor k =
      (predecessor.toList.filter fun p => p.tcpSocket = k).map fun _ => padX toPredecessor := by
  rw [tellings, if_neg hk, List.nil_append]

/-- The leader has put the record `x` of server `i` between `a` and `b`. -/
structure Admits (kind : ι → Announcement) (addr : ι → Text) (c₀ c d : Cluster ι) (i : ι)
    (a b : List ServerInfo) (x : ServerInfo) : Prop where
  split : c.leader.next = a ++ b
  next : d.leader.next = a ++ x :: b
  leader : LeaderList d.leader
  self : d.leader.self = c.leader.self
  server : d.server = c.server
  alive : d.alive = c.alive
  entry_new : Entry addr c₀ d i x
  entry : ∀ j p, Entry addr c₀ c j p → j ≠ i ∧ Entry addr c₀ d j p
  fd : ∀ j, j ≠ i → d.fd j = c.fd j
  fd_new : ∀ j, d.fd j = d.fd i → j = i
  link_new : d.link i = c.link i ++ [padX ((kind i).reply c.leader (gapSucc a b))]
  link : ∀ j p, Entry addr c₀ c j p → p ∈ c.leader.next → d.link j = c.link j ++
    if gapPred a b = some p then [padX ((kind i).toPredecessor c.leader (c.server i).self.id
      (c.server i).self.port (addr i))] else []
  link_none : ∀ j, d.fd j = none → d.link j = []

include hstart h in
/-- **An announcement.**  The leader lists the new server, and tells it and the one before it
who comes next. -/
theorem Inv.admits [DecidableEq ι] (hfd : c.fd i = none) (henv : env.AllSucceed)
    (hconnect : IsValidSocket env.connect) (hfresh : ∀ j, c.fd j ≠ some env.connect) :
    ∃ t a b x,
      c.leader.handle (.datagram env (some ((kind i).request (c.server i))) (addr i)) = .ok t ∧
        Admits kind addr c₀ c (c.lead t (update c.fd i (some env.connect))) i a b x := by
  have hmember : IsMember { (c.server i).self with addr := addr i } :=
    (hstart.member i).congr (h.server i).id rfl (h.server i).port
  obtain ⟨a, b, t, hab, ht, hself, hnext, hlist, hsent⟩ := handle_request h.leader hmember henv
    hconnect (h.not_exist hstart hfd)
  have hne : ∀ p ∈ a ++ b, p.tcpSocket ≠ env.connect := by
    intro p hp heq
    obtain ⟨j, hj⟩ := h.entry p (by rwa [hab])
    exact hfresh j (by rw [hj.fd, heq])
  refine ⟨t, a, b, createServer env.now (c.server i).self.id (addr i) (c.server i).self.port 0
    env.connect, ht, ?_⟩
  constructor
  · exact hab
  · exact hnext
  · exact hlist
  · exact hself
  · rfl
  · rfl
  · exact ⟨⟨(h.server i).id, rfl, (h.server i).port⟩, update_self i _ c.fd⟩
  · exact fun j p hj => hj.of_announce hfd env.connect
  · exact fun j hji => update_of_ne hji _ c.fd
  · intro j hj
    by_contra hji
    simp only [lead, update_self, update_of_ne hji] at hj
    exact hfresh j hj
  · simp only [lead, update_self, Option.elim_some, hsent, tellings, if_true]
    congr 1
    rw [List.filter_eq_nil_iff.mpr, List.map_nil, List.append_nil]
    intro p hp
    simpa using hne p (gapPred_mem (Option.mem_toList.mp hp))
  · intro j p hj hp
    have hji := (hj.of_announce (t := t) hfd env.connect).1
    simp only [lead, update_of_ne hji, hj.fd, Option.elim_some, hsent]
    rw [tellings_of_ne (hne p (by rwa [← hab]))]
    congr 1
    cases hgap : gapPred a b with
    | none => simp
    | some r =>
        have hr : r ∈ c.leader.next := by
          rw [hab]
          exact gapPred_mem hgap
        obtain ⟨k, hk⟩ := h.entry r hr
        by_cases hrp : r = p
        · simp [hrp]
        · have hsocket : r.tcpSocket ≠ p.tcpSocket := by
            intro heq
            have hkj : k = j := h.fd_injective k j r.tcpSocket hk.fd (by rw [hj.fd, heq])
            subst hkj
            exact hrp (h.entry_unique hk hj hr hp)
          simp [hrp, hsocket]
  · intro j hj
    simp only [lead] at hj ⊢
    rw [hj, Option.elim_none]

section Admits
variable {d : Cluster ι} {x : ServerInfo} (hadmits : Admits kind addr c₀ c d i a b x)

include hstart h hadmits

/-- The new server is told of the one after it. -/
theorem Admits.told_new (halive : c.alive i) (hfd : c.fd i = none) {o : Option ServerInfo}
    (ho : ∀ q ∈ gapSucc a b, ∃ k, Entry addr c₀ c k q ∧ o = some (c₀.peer addr k))
    (hnone : gapSucc a b = none → o = none) : IsTold kind inbound c₀ d i o := by
  have hasks := h.asks i halive hfd
  have hleader : c.leader.self.leader = c₀.leader.self.leader := by
    rw [h.leader.leader, hstart.leader.leader]
  have hcongr : ∀ {p q : ServerInfo}, SamePeer p q →
      (kind i).reply c.leader (some p) = (kind i).reply c₀.leader (some q) ∧
        (kind i).reply c.leader none = (kind i).reply c₀.leader none :=
    fun hq => reply_congr (kind i) h.self hleader hq
  have hreply : (kind i).reply c.leader (gapSucc a b) = (kind i).reply c₀.leader o ∧
      ∀ q ∈ o, CanFollow c₀.leader.self.id (c.server i).self.id q ∧ 8 ≤ q.addr.length := by
    cases hgap : gapSucc a b with
    | none =>
        rw [hnone hgap]
        exact ⟨(hcongr (SamePeer.refl x)).2, by simp⟩
    | some q =>
        obtain ⟨k, hk, rfl⟩ := ho q hgap
        refine ⟨(hcongr hk.peer).1, ?_⟩
        intro q' hq'
        obtain rfl := Option.some.inj hq'
        exact ⟨hstart.canFollow (Ne.symm (hadmits.entry k q hk).1) (h.server i), hstart.length k⟩
  rw [IsTold, hadmits.server, hadmits.link_new, h.link i hfd, hreply.1, List.nil_append]
  exact .asked hasks hreply.2 .nil

/-- The server before it is told of the new one, and the others of nobody. -/
theorem Admits.told (hj : Entry addr c₀ c j p) (hp : p ∈ c.leader.next) {o : Option ServerInfo}
    (ho : IsTold kind inbound c₀ c j o) : IsTold kind inbound c₀ d j
      (if gapPred a b = some p then some (c₀.peer addr i) else o) := by
  rw [IsTold, hadmits.server, hadmits.link j p hj hp]
  split
  · exact Told.concat ho (guides_toPredecessor (kind i) h.self (h.server i))
      (hstart.canFollow (hadmits.entry j p hj).1 (h.server j))
  · rw [List.append_nil]
    exact ho

/-- **An announcement keeps the invariant.** -/
theorem Inv.announce (halive : c.alive i) (hfd : c.fd i = none) : Inv kind addr inbound c₀ d := by
  have hmem : ∀ p, p ∈ a ++ b ↔ p ∈ c.leader.next := by
    intro p
    rw [hadmits.split]
  have hnew : ∀ j, d.fd j = none → j ≠ i := by
    rintro j hj rfl
    rw [hadmits.entry_new.fd] at hj
    cases hj
  have htold_new : ∃ o, IsTold kind inbound c₀ d i o ∧
      ∀ q ∈ gapSucc a b, ∃ k, Entry addr c₀ c k q ∧ o = some (c₀.peer addr k) := by
    cases hgap : gapSucc a b with
    | none =>
        exact ⟨none, hadmits.told_new hstart h halive hfd (by simp [hgap]) fun _ => rfl, by simp⟩
    | some q =>
        obtain ⟨k, hk⟩ := h.entry q ((hmem q).mp (gapSucc_mem hgap))
        have hq : ∀ q' ∈ some q, ∃ k', Entry addr c₀ c k' q' ∧
            some (c₀.peer addr k) = some (c₀.peer addr k') := by
          intro q' hq'
          obtain rfl := Option.some.inj hq'
          exact ⟨k, hk, rfl⟩
        exact ⟨_, hadmits.told_new hstart h halive hfd (by rwa [hgap]) (by simp [hgap]), hq⟩
  refine ⟨hadmits.leader, hadmits.self ▸ h.self, hadmits.server ▸ h.server, ?_, ?_, ?_, ?_,
    hadmits.link_none, ?_, ?_⟩
  · intro p hp
    rw [hadmits.next, List.mem_append, List.mem_cons, or_left_comm, ← List.mem_append, hmem] at hp
    rcases hp with rfl | hp
    · exact ⟨i, hadmits.entry_new⟩
    · obtain ⟨j, hj⟩ := h.entry p hp
      exact ⟨j, (hadmits.entry j p hj).2⟩
  · intro j hj
    by_cases hji : j = i
    · subst hji
      exact ⟨x, by simp [hadmits.next], hadmits.entry_new⟩
    · obtain ⟨p, hp, hentry⟩ := h.listed j (by rwa [← hadmits.fd j hji])
      have hp' : p ∈ a ++ b := (hmem p).mpr hp
      exact ⟨p, by simpa [hadmits.next, or_left_comm] using Or.inr (List.mem_append.mp hp'),
        (hadmits.entry j p hentry).2⟩
  · intro j l k hj hl
    by_cases hji : j = i
    · exact hji.trans (hadmits.fd_new l (by rw [hl, ← hj, hji])).symm
    · by_cases hli : l = i
      · exact absurd (hadmits.fd_new j (by rw [hj, ← hl, hli])) hji
      · rw [hadmits.fd j hji] at hj
        rw [hadmits.fd l hli] at hl
        exact h.fd_injective j l k hj hl
  · intro j hj hfd'
    rw [hadmits.alive] at hj
    have hji := hnew j hfd'
    rw [hadmits.fd j hji] at hfd'
    rw [hadmits.server]
    exact h.asks j hj hfd'
  · intro j hj hfd'
    rw [hadmits.alive] at hj
    by_cases hji : j = i
    · subst hji
      exact ⟨_, htold_new.choose_spec.1⟩
    · rw [hadmits.fd j hji] at hfd'
      obtain ⟨p, hp, hentry⟩ := h.listed j hfd'
      obtain ⟨o, ho⟩ := h.told j hj hfd'
      exact ⟨_, hadmits.told hstart h hentry hp ho⟩
  · rw [hadmits.next, hadmits.alive]
    have hnodup : (a ++ b).Nodup := by
      rw [← hadmits.split]
      exact h.leader.ascending.imp fun hlt heq => by simp [heq] at hlt
    refine Linked.insert hnodup (hadmits.split ▸ h.linked) ?_ ?_ ?_
    · rintro p hp hgap q ⟨j, k, hj, hk, htold⟩
      refine ⟨j, k, (hadmits.entry j p hj).2, (hadmits.entry k q hk).2, fun hjalive hkalive => ?_⟩
      have hkeep := hadmits.told hstart h hj ((hmem p).mp hp) (htold hjalive hkalive)
      rwa [if_neg hgap] at hkeep
    · intro p hgap
      have hp := (hmem p).mp (gapPred_mem hgap)
      obtain ⟨j, hj⟩ := h.entry p hp
      refine ⟨j, i, (hadmits.entry j p hj).2, hadmits.entry_new, fun hjalive _ => ?_⟩
      obtain ⟨o, ho⟩ := h.told j hjalive (by simp [hj.fd])
      have hkeep := hadmits.told hstart h hj hp ho
      rwa [if_pos hgap] at hkeep
    · intro q hgap
      obtain ⟨o, ho, hq⟩ := htold_new
      obtain ⟨k, hk, rfl⟩ := hq q hgap
      exact ⟨i, k, hadmits.entry_new, (hadmits.entry k q hk).2, fun _ _ => ho⟩

end Admits

end Announce

/-! ## Every other action -/

section Actions
variable {kind addr inbound} {c₀ c : Cluster ι} {i : ι} {env : Env} {t : Server} {e : Event}
  {link rest : List Text} {frame : Text}

/-- A server moves: of whomever it was told last, as long as that one is alive, it is told last
after the move. -/
theorem Inv.follow [DecidableEq ι] (h : Inv kind addr inbound c₀ c)
    (hself : SameHead t.self (c.server i).self)
    (hasks : c.alive i → c.fd i = none → Asks (kind i) t) (hlink : c.fd i = none → link = [])
    (htold : ∀ o, IsTold kind inbound c₀ c i o →
      ∃ o', Told (kind i) c₀.leader (inbound i) t link o')
    (hlast : ∀ j, c.alive j → IsTold kind inbound c₀ c i (some (c₀.peer addr j)) →
      Told (kind i) c₀.leader (inbound i) t link (some (c₀.peer addr j))) :
    Inv kind addr inbound c₀ (c.follow i t link) := by
  constructor
  · exact h.leader
  · exact h.self
  · intro j
    by_cases hji : j = i
    · subst hji
      simpa [Cluster.follow] using hself.trans (h.server j)
    · simpa [Cluster.follow, hji] using h.server j
  · intro p hp
    obtain ⟨j, hj⟩ := h.entry p hp
    exact ⟨j, hj.peer, hj.fd⟩
  · intro j hj
    obtain ⟨p, hp, hentry⟩ := h.listed j hj
    exact ⟨p, hp, hentry.peer, hentry.fd⟩
  · exact h.fd_injective
  · intro j hj hfd
    by_cases hji : j = i
    · subst hji
      simpa [Cluster.follow] using hasks hj hfd
    · simpa [Cluster.follow, hji] using h.asks j hj hfd
  · intro j hfd
    by_cases hji : j = i
    · subst hji
      simpa [Cluster.follow] using hlink hfd
    · simpa [Cluster.follow, hji] using h.link j hfd
  · intro j hj hfd
    obtain ⟨o, ho⟩ := h.told j hj hfd
    by_cases hji : j = i
    · subst hji
      simpa [IsTold, Cluster.follow] using htold o ho
    · exact ⟨o, by simpa [IsTold, Cluster.follow, hji] using ho⟩
  · rintro u p v q w hl hnext
    obtain ⟨j, k, hj, hk, ho⟩ := h.linked u p v q w hl hnext
    refine ⟨j, k, ⟨hj.peer, hj.fd⟩, ⟨hk.peer, hk.fd⟩, fun hjalive hkalive => ?_⟩
    have hlast' := ho hjalive hkalive
    by_cases hji : j = i
    · subst hji
      simpa [IsTold, Cluster.follow] using hlast k hkalive hlast'
    · simpa [IsTold, Cluster.follow, hji] using hlast'

variable (hstart : Start kind addr c₀) (h : Inv kind addr inbound c₀ c)

include hstart h

/-- **Reading a message in the loop.** -/
theorem Inv.read [DecidableEq ι] (halive : c.alive i) (hlink : c.link i = frame :: rest)
    (hleader : (c.server i).self.leader ≠ 1) (hconnect : IsValidSocket env.connect) :
    ∃ t, handleSocketChange env (c.server i) (inbound i) frame = .ok t ∧
      Inv kind addr inbound c₀ (c.follow i t rest) := by
  have hfd : c.fd i ≠ none := by
    intro hnone
    have hempty := h.link i hnone
    rw [hlink] at hempty
    cases hempty
  have hid : c₀.leader.self.id ≠ (c.server i).self.id := by
    rw [(h.server i).id]
    exact (hstart.id_ne i).symm
  have hread : ∀ o, IsTold kind inbound c₀ c i o → ∃ t,
      handleSocketChange env (c.server i) (inbound i) frame = .ok t ∧ t.self = (c.server i).self ∧
        Told (kind i) c₀.leader (inbound i) t rest o := by
    intro o ho
    rw [IsTold, hlink] at ho
    exact ho.read hstart.leader hid hleader hconnect
  obtain ⟨o, ho⟩ := h.told i halive hfd
  obtain ⟨t, ht, hself, -⟩ := hread o ho
  have hlast : ∀ o', IsTold kind inbound c₀ c i o' →
      Told (kind i) c₀.leader (inbound i) t rest o' := by
    intro o' ho'
    obtain ⟨t', ht', -, htold⟩ := hread o' ho'
    rwa [Except.ok.inj (ht.symm.trans ht')]
  exact ⟨t, ht, h.follow (hself ▸ .refl _) (fun _ hnone => absurd hnone hfd)
    (absurd · hfd) (fun o' ho' => ⟨o', hlast o' ho'⟩) fun _ _ ho' => hlast _ ho'⟩

/-- **Reading the reply in `service_discovery`.** -/
theorem Inv.join [DecidableEq ι] {d : Schedule} (halive : c.alive i)
    (hlink : c.link i = frame :: rest)
    (hleader : (c.server i).self.leader = 1) (hmulticast : env.multicasts = true)
    (hin : d.InTime (c.server i).self.tcpSocket (inbound i)) :
    ∃ t, startUp env (d.rounds (inbound i) frame) (c.server i) = .ok t ∧
      Inv kind addr inbound c₀ (c.follow i t rest) := by
  have hfd : c.fd i ≠ none := by
    intro hnone
    have hempty := h.link i hnone
    rw [hlink] at hempty
    cases hempty
  have hid : c₀.leader.self.id ≠ (c.server i).self.id := by
    rw [(h.server i).id]
    exact (hstart.id_ne i).symm
  have hread : ∀ o, IsTold kind inbound c₀ c i o → ∃ t,
      startUp env (d.rounds (inbound i) frame) (c.server i) = .ok t ∧
        SameHead t.self (c.server i).self ∧
          Told (kind i) c₀.leader (inbound i) t rest o := by
    intro o ho
    rw [IsTold, hlink] at ho
    exact ho.join hstart.leader hid hleader hmulticast (fun r hr => hin.readsFirst hr) hin.2.2.1
  obtain ⟨o, ho⟩ := h.told i halive hfd
  obtain ⟨t, ht, hself, -⟩ := hread o ho
  have hlast : ∀ o', IsTold kind inbound c₀ c i o' →
      Told (kind i) c₀.leader (inbound i) t rest o' := by
    intro o' ho'
    obtain ⟨t', ht', -, htold⟩ := hread o' ho'
    rwa [Except.ok.inj (ht.symm.trans ht')]
  exact ⟨t, ht, h.follow hself (fun _ hnone => absurd hnone hfd)
    (absurd · hfd) (fun o' ho' => ⟨o', hlast o' ho'⟩) fun _ _ ho' => hlast _ ho'⟩

omit hstart in
/-- What else happens at a server. -/
theorem Inv.background [DecidableEq ι] (hleader : (c.server i).self.leader ≠ 1)
    (hback : (c.server i).Background e) (ht : (c.server i).handle e = .ok t) :
    Inv kind addr inbound c₀ (c.follow i t (c.link i)) := by
  have hsame := undisturbed_of_background hleader hback ht
  exact h.follow hsame.self (fun halive hnone => (h.asks i halive hnone).undisturbed hsame)
    (h.link i) (fun o ho => ⟨o, ho.undisturbed hsame⟩) fun _ _ ho => ho.undisturbed hsame

omit hstart in
/-- Nothing new is on the links. -/
theorem Inv.link_lead (hstill : Still c.leader t) : (c.lead t c.fd).link = c.link := by
  funext j
  simp only [lead]
  by_cases hfd : c.fd j = none
  · rw [hfd, Option.elim_none, h.link j hfd]
  · obtain ⟨p, hp, hentry⟩ := h.listed j hfd
    rw [hentry.fd, Option.elim_some, hstill.sent p hp, List.append_nil]

omit hstart in
/-- What else happens at the leader. -/
theorem Inv.quiet (hstill : Still c.leader t) : Inv kind addr inbound c₀ (c.lead t c.fd) := by
  have hlink := h.link_lead hstill
  obtain ⟨hself, hleader, ⟨g, hg, hnext⟩, -⟩ := hstill
  have hentry : ∀ j p, Entry addr c₀ c j p → Entry addr c₀ (c.lead t c.fd) j (g p) := by
    intro j p hj
    obtain ⟨now, hp⟩ := hg p
    rw [hp]
    exact ⟨⟨hj.peer.id, hj.peer.addr, hj.peer.port⟩, hj.fd⟩
  have htold : ∀ j o, IsTold kind inbound c₀ c j o →
      IsTold kind inbound c₀ (c.lead t c.fd) j o := by
    intro j o ho
    rwa [IsTold, hlink]
  refine ⟨hleader, hself.trans h.self, h.server, ?_, ?_, h.fd_injective, h.asks, ?_, ?_, ?_⟩
  · intro p hp
    rw [show (c.lead t c.fd).leader.next = c.leader.next.map g from hnext] at hp
    obtain ⟨r, hr, rfl⟩ := List.mem_map.mp hp
    obtain ⟨j, hj⟩ := h.entry r hr
    exact ⟨j, hentry j r hj⟩
  · intro j hj
    obtain ⟨p, hp, hp'⟩ := h.listed j hj
    refine ⟨g p, ?_, hentry j p hp'⟩
    rw [show (c.lead t c.fd).leader.next = c.leader.next.map g from hnext]
    exact List.mem_map_of_mem hp
  · rw [hlink]
    exact h.link
  · intro j hj hfd
    obtain ⟨o, ho⟩ := h.told j hj hfd
    exact ⟨o, htold j o ho⟩
  · rw [show (c.lead t c.fd).leader.next = c.leader.next.map g from hnext]
    refine h.linked.map g ?_
    rintro p q ⟨j, k, hj, hk, ho⟩
    exact ⟨j, k, hentry j p hj, hentry k q hk, fun hjalive hkalive =>
      htold j _ (ho hjalive hkalive)⟩

end Actions

end Cluster

end ChatRing
