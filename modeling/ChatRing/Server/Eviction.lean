import ChatRing.Server.Cluster
import ChatRing.Server.Repair

/-!
# Servers that leave the ring

A server crashes; the one before it finds its connection closed; and when the heartbeats of the
crashed server are overdue the leader removes its record and tells the one before it who comes
next.

## Main results

* `Cluster.Evicts.inv` — the removal of a crashed server keeps the invariant.
* `Cluster.Inv.sweep` — so does a sweep, however many servers it removes.
* `Cluster.Inv.step`, `Cluster.inv_of_run` — so does every action, and every run.
* `Cluster.Inv.isSome_step` — what the protocol does never fails.
-/

namespace ChatRing
open CText CyclicList Function

namespace Cluster
variable {ι : Type*} {kind : ι → Announcement} {addr : ι → Text} {inbound : ι → Socket}
  {c₀ c d : Cluster ι} {i j : ι} {env : Env} {s t u : Server} {a b kept rest : List ServerInfo}
  {x p : ServerInfo}

/-! ## Crashes -/

/-- Of a crashed server nothing is asked. -/
theorem Inv.crash [DecidableEq ι] (h : Inv kind addr inbound c₀ c) (i : ι) :
    Inv kind addr inbound c₀ { c with alive := update c.alive i false } := by
  have halive : ∀ j, update c.alive i false j = true → c.alive j = true := by
    intro j hj
    by_cases hji : j = i
    · simp [hji] at hj
    · simpa [hji] using hj
  constructor
  · exact h.leader
  · exact h.self
  · exact h.server
  · intro p hp
    obtain ⟨j, hj⟩ := h.entry p hp
    exact ⟨j, hj.peer, hj.fd⟩
  · intro j hj
    obtain ⟨p, hp, hentry⟩ := h.listed j hj
    exact ⟨p, hp, hentry.peer, hentry.fd⟩
  · exact h.fd_injective
  · exact fun j hj hfd => h.asks j (halive j hj) hfd
  · exact h.link
  · exact fun j hj hfd => h.told j (halive j hj) hfd
  · rintro u p v q w hl hnext
    obtain ⟨j, k, hj, hk, ho⟩ := h.linked u p v q w hl hnext
    exact ⟨j, k, ⟨hj.peer, hj.fd⟩, ⟨hk.peer, hk.fd⟩,
      fun hjalive hkalive => ho (halive j hjalive) (halive k hkalive)⟩

/-- **The successor of a server has crashed.**  Of the next one that is alive it will be told. -/
theorem Inv.hangUp [DecidableEq ι] (hstart : Start kind addr c₀)
    (h : Inv kind addr inbound c₀ c) (halive : c.alive i) (hbereft : c.Bereft i)
    (hmc : (c.server i).successorSocket ≠ (c.server i).mcSocket)
    (hltcp : (c.server i).successorSocket ≠ (c.server i).ltcpSocket) (env : Env) :
    ∃ t, handleSocketChange env (c.server i) (c.server i).successorSocket [] = .ok t ∧
      Inv kind addr inbound c₀ (c.follow i t (c.link i)) := by
  obtain ⟨k, hk, hid⟩ := hbereft
  obtain ⟨successor, hnext, hid⟩ := Option.map_eq_some_iff.mp hid
  have hfd : c.fd i ≠ none := by
    intro hnone
    rw [(h.asks i halive hnone).next] at hnext
    cases hnext
  obtain ⟨o, ho⟩ := h.told i halive hfd
  obtain ⟨t, ht, hself, htold, -⟩ := Told.hangUp ho hnext hmc hltcp env
  refine ⟨t, ht, h.follow (hself ▸ .refl _) (fun _ hnone => absurd hnone hfd)
    (absurd · hfd) (fun _ _ => htold) ?_⟩
  intro j hj ho'
  obtain ⟨t', ht', -, -, hlast⟩ := Told.hangUp ho' hnext hmc hltcp env
  obtain rfl := Except.ok.inj (ht.symm.trans ht')
  refine hlast ?_ (by simp)
  intro q hq heq
  obtain rfl := Option.some.inj hq
  rw [hid, (h.server k).id] at heq
  have hjk : j = k := hstart.id_injective heq
  rw [hjk, hk] at hj
  cases hj

/-! ## One removal -/

theorem sendRepair_of_allSucceed (henv : env.AllSucceed) (s : Server)
    (r : Option (ServerInfo × ServerInfo)) : sendRepair env s r =
      .ok { s with
        out := s.out ++ r.toList.map fun r => .send r.1.tcpSocket (repairFrame r.2) } := by
  cases r with
  | none => simp [sendRepair]
  | some r => simp [sendRepair, updateRing, send_of_allSucceed henv]

theorem sentOn_map_send (l : List (ServerInfo × ServerInfo)) (k : Socket) :
    sentOn (l.map fun r => .send r.1.tcpSocket (repairFrame r.2)) k =
      (l.filter fun r => r.1.tcpSocket = k).map fun r => repairFrame r.2 := by
  induction l with
  | nil => rfl
  | cons r l ih =>
      by_cases hr : r.1.tcpSocket = k
      · simp_all [sentOn]
      · simp_all [sentOn]

theorem keep_eq_some {k : Socket} :
    c.keep t i = some k ↔ c.fd i = some k ∧ ∃ p ∈ t.next, p.tcpSocket = k := by
  simp [keep, Option.filter_eq_some_iff]

/-- The leader has removed the record `x` between `a` and `b`, and told the one before the gap
who comes after it. -/
structure Evicts (addr : ι → Text) (c₀ c d : Cluster ι) (a b : List ServerInfo) (x : ServerInfo) :
    Prop where
  split : c.leader.next = a ++ x :: b
  next : d.leader.next = a ++ b
  leader : LeaderList d.leader
  self : d.leader.self = c.leader.self
  server : d.server = c.server
  alive : d.alive = c.alive
  fd : ∀ j k, d.fd j = some k ↔ c.fd j = some k ∧ k ≠ x.tcpSocket
  link : ∀ j p, Entry addr c₀ c j p → p ∈ a ++ b → d.link j = c.link j ++
    ((repair a b).toList.filter fun r => r.1 = p).map fun r => repairFrame r.2
  link_none : ∀ j, d.fd j = none → d.link j = []

/-- The records of a leader have different sockets. -/
theorem Inv.socket_injective (h : Inv kind addr inbound c₀ c) {p q : ServerInfo}
    (hp : p ∈ c.leader.next) (hq : q ∈ c.leader.next) (hsocket : p.tcpSocket = q.tcpSocket) :
    p = q := by
  obtain ⟨i, hi⟩ := h.entry p hp
  obtain ⟨j, hj⟩ := h.entry q hq
  obtain rfl := h.fd_injective i j q.tcpSocket (by rw [hi.fd, hsocket]) hj.fd
  exact h.entry_unique hi hj hp hq

theorem mem_split {α : Type*} {a b : List α} {x p : α} (hp : p ∈ a ++ b) : p ∈ a ++ x :: b := by
  simp only [List.mem_append, List.mem_cons] at hp ⊢
  tauto

theorem Inv.nodup (h : Inv kind addr inbound c₀ c) : c.leader.next.Nodup :=
  h.leader.ascending.imp fun hlt heq => by simp [heq] at hlt

section Evict
variable (hstart : Start kind addr c₀) (h : Inv kind addr inbound c₀ c)
  (hevicts : Evicts addr c₀ c d a b x)

include h hevicts in
theorem Evicts.entry (hj : Entry addr c₀ c j p) (hp : p ∈ a ++ b) : Entry addr c₀ d j p := by
  refine ⟨hj.peer, (hevicts.fd j p.tcpSocket).mpr ⟨hj.fd, fun hsocket => ?_⟩⟩
  have hnodup := h.nodup
  rw [hevicts.split, List.nodup_middle, List.nodup_cons] at hnodup
  have hpx : p = x := by
    refine h.socket_injective ?_ ?_ hsocket
    · rw [hevicts.split]
      exact mem_split hp
    · simp [hevicts.split]
  exact hnodup.1 (hpx ▸ hp)

include hstart h hevicts

/-- The server before the gap is told of the one after it, and the others of nobody. -/
theorem Evicts.told (hj : Entry addr c₀ c j p) (hp : p ∈ a ++ b) {o : Option ServerInfo}
    (ho : IsTold kind inbound c₀ c j o) :
    (∃ o', IsTold kind inbound c₀ d j o') ∧
      (gapPred a b ≠ some p → IsTold kind inbound c₀ d j o) ∧
      ∀ q k, 2 ≤ (a ++ b).length → gapPred a b = some p → gapSucc a b = some q →
        Entry addr c₀ c k q → IsTold kind inbound c₀ d j (some (c₀.peer addr k)) := by
  have hlink := hevicts.link j p hj hp
  have hmem : ∀ q, q ∈ a ++ b → q ∈ c.leader.next := by
    intro q hq
    rw [hevicts.split]
    exact mem_split hq
  have hnodup : (a ++ b).Nodup := by
    have hnodup := h.nodup
    rw [hevicts.split, List.nodup_middle, List.nodup_cons] at hnodup
    exact hnodup.2
  rcases repair_eq (a := a) (b := b) with ⟨hrepair, hlen⟩ | ⟨p', q', hrepair, hlen, hp', hq'⟩
  · rw [hrepair] at hlink
    have hsame : IsTold kind inbound c₀ d j o := by
      rw [IsTold, hevicts.server, hlink]
      simpa [IsTold] using ho
    exact ⟨⟨o, hsame⟩, fun _ => hsame, fun q k hlen' => absurd hlen (by omega)⟩
  · rw [hrepair] at hlink
    by_cases hpp : p' = p
    · subst hpp
      obtain ⟨k', hk'⟩ := h.entry q' (hmem q' (gapSucc_mem hq'))
      have hne : j ≠ k' := by
        rintro rfl
        exact gapPred_ne_gapSucc hnodup hlen hp' hq'
          (h.entry_unique hj hk' (hmem p' hp) (hmem q' (gapSucc_mem hq')))
      have hlast : IsTold kind inbound c₀ d j (some (c₀.peer addr k')) := by
        have hrepairFrame : ((some (p', q')).toList.filter fun r => r.1 = p').map
            (fun r => repairFrame r.2) = [repairFrame q'] := by simp
        rw [IsTold, hevicts.server, hlink, hrepairFrame]
        refine Told.concat ho ?_ (hstart.canFollow hne (h.server j))
        left
        simp [repairFrame, hk'.peer.id, hk'.peer.addr, hk'.peer.port]
      refine ⟨⟨_, hlast⟩, fun hgap => absurd hp' hgap, fun q k _ _ hq hk => ?_⟩
      obtain rfl := Option.some.inj (hq'.symm.trans hq)
      obtain rfl := h.fd_injective k k' q'.tcpSocket hk.fd hk'.fd
      exact hlast
    · have hsame : IsTold kind inbound c₀ d j o := by
        rw [IsTold, hevicts.server, hlink]
        simpa [IsTold, hpp] using ho
      refine ⟨⟨o, hsame⟩, fun _ => hsame, fun q k _ hp'' => ?_⟩
      exact absurd (Option.some.inj (hp'.symm.trans hp'')) hpp

/-- **The removal of a crashed server keeps the invariant.** -/
theorem Evicts.inv (hdead : ∀ j, Entry addr c₀ c j x → c.alive j = false) :
    Inv kind addr inbound c₀ d := by
  have hmem : ∀ q, q ∈ a ++ b → q ∈ c.leader.next := by
    intro q hq
    rw [hevicts.split]
    exact mem_split hq
  have hx : x ∈ c.leader.next := by simp [hevicts.split]
  have hlisted : ∀ j, d.fd j ≠ none → ∃ p ∈ a ++ b, Entry addr c₀ c j p := by
    intro j hj
    obtain ⟨k, hk⟩ := Option.ne_none_iff_exists'.mp hj
    obtain ⟨hfd, hne⟩ := (hevicts.fd j k).mp hk
    obtain ⟨p, hp, hentry⟩ := h.listed j (by simp [hfd])
    have hpx : p ≠ x := by
      rintro rfl
      exact hne (Option.some.inj (hfd.symm.trans hentry.fd))
    rw [hevicts.split] at hp
    refine ⟨p, ?_, hentry⟩
    simpa [hpx] using hp
  -- a server that is alive has not lost its record
  have hkeep : ∀ j, c.alive j → d.fd j = none → c.fd j = none := by
    intro j hj hnone
    by_contra hfd
    obtain ⟨p, hp, hentry⟩ := h.listed j hfd
    have hpx : p.tcpSocket ≠ x.tcpSocket := by
      intro hsocket
      obtain rfl := h.socket_injective hp hx hsocket
      rw [hdead j hentry] at hj
      cases hj
    have hsome := (hevicts.fd j p.tcpSocket).mpr ⟨hentry.fd, hpx⟩
    rw [hnone] at hsome
    cases hsome
  refine ⟨hevicts.leader, hevicts.self ▸ h.self, hevicts.server ▸ h.server, ?_, ?_, ?_, ?_,
    hevicts.link_none, ?_, ?_⟩
  · intro p hp
    rw [hevicts.next] at hp
    obtain ⟨j, hj⟩ := h.entry p (hmem p hp)
    exact ⟨j, hevicts.entry h hj hp⟩
  · intro j hj
    obtain ⟨p, hp, hentry⟩ := hlisted j hj
    exact ⟨p, by rwa [hevicts.next], hevicts.entry h hentry hp⟩
  · intro j l k hj hl
    exact h.fd_injective j l k ((hevicts.fd j k).mp hj).1 ((hevicts.fd l k).mp hl).1
  · intro j hj hnone
    rw [hevicts.alive] at hj
    rw [hevicts.server]
    exact h.asks j hj (hkeep j hj hnone)
  · intro j hj hfd
    rw [hevicts.alive] at hj
    obtain ⟨p, hp, hentry⟩ := hlisted j hfd
    obtain ⟨o, ho⟩ := h.told j hj (by simp [hentry.fd])
    exact (hevicts.told hstart h hentry hp ho).1
  · rw [hevicts.next, hevicts.alive]
    have hnodup : (a ++ b).Nodup := by
      have hnodup := h.nodup
      rw [hevicts.split, List.nodup_middle, List.nodup_cons] at hnodup
      exact hnodup.2
    have hlinked : Linked (fun p q => ∃ j k, Entry addr c₀ c j p ∧ Entry addr c₀ c k q ∧
        (c.alive j → c.alive k → IsTold kind inbound c₀ d j (some (c₀.peer addr k)))) (a ++ b) := by
      refine Linked.remove hnodup (hevicts.split ▸ h.linked) ?_ ?_
      · rintro p hp hgap q ⟨j, k, hj, hk, htold⟩
        exact ⟨j, k, hj, hk, fun hjalive hkalive =>
          (hevicts.told hstart h hj hp (htold hjalive hkalive)).2.1 hgap⟩
      · intro p q hlen hp hq
        obtain ⟨j, hj⟩ := h.entry p (hmem p (gapPred_mem hp))
        obtain ⟨k, hk⟩ := h.entry q (hmem q (gapSucc_mem hq))
        refine ⟨j, k, hj, hk, fun hjalive _ => ?_⟩
        obtain ⟨o, ho⟩ := h.told j hjalive (by simp [hj.fd])
        exact (hevicts.told hstart h hj (gapPred_mem hp) ho).2.2 q k hlen hp hq hk
    refine hlinked.mono ?_
    rintro p hp q hq ⟨j, k, hj, hk, htold⟩
    exact ⟨j, k, hevicts.entry h hj hp, hevicts.entry h hk hq, htold⟩

end Evict

/-- **The leader removes a record.** -/
theorem Inv.ringStatus (h : Inv kind addr inbound c₀ c) (henv : env.AllSucceed)
    (hnext : c.leader.next = a ++ x :: b) :
    ∃ u, ChatRing.ringStatus env c.leader x.tcpSocket = .ok u ∧ c.leader.out <+: u.out ∧
      Evicts addr c₀ c (c.lead u (c.keep u)) a b x := by
  have hnodup := h.nodup
  rw [hnext, List.nodup_middle, List.nodup_cons] at hnodup
  have hmem : ∀ p, p ∈ a ++ b → p ∈ c.leader.next := by
    intro p hp
    rw [hnext]
    exact mem_split hp
  have hsocket : ∀ p ∈ a ++ b, p.tcpSocket ≠ x.tcpSocket := by
    intro p hp heq
    obtain rfl := h.socket_injective (hmem p hp) (by simp [hnext]) heq
    exact hnodup.1 hp
  have hid : ∀ y ∈ a, y.id ≠ x.id := by
    have hasc := h.leader.ascending
    rw [hnext] at hasc
    exact fun y hy => hasc.id_ne_of_append y (List.mem_append_left b hy)
  have hsent := sendRepair_of_allSucceed henv { c.leader with next := a ++ b } (repair a b)
  rw [← ringStatus_eq h.leader.leader hnext
    (fun y hy => hsocket y (List.mem_append_left b hy)) hid] at hsent
  refine ⟨_, hsent, List.prefix_append .., ?_⟩
  have hsub : (a ++ b).Sublist c.leader.next := by
    rw [hnext]
    exact List.Sublist.append_left (List.sublist_cons_self x b) a
  constructor
  · exact hnext
  · rfl
  · exact h.leader.of_sublist (h.leader.toLeading.of_sublist rfl hsub) rfl hsub
  · rfl
  · rfl
  · rfl
  · intro j k
    simp only [lead, keep_eq_some]
    refine and_congr_right fun hj => ?_
    obtain ⟨p, hp, hentry⟩ := h.listed j (by simp [hj])
    obtain rfl := Option.some.inj (hj.symm.trans hentry.fd)
    constructor
    · rintro ⟨q, hq, heq⟩ hx
      exact hsocket q hq (heq.trans hx)
    · intro hx
      have hpx : p ≠ x := by
        rintro rfl
        exact hx rfl
      rw [hnext] at hp
      exact ⟨p, by simpa [hpx] using hp, rfl⟩
  · intro j p hj hp
    have hfd : c.keep { c.leader with next := a ++ b } j = some p.tcpSocket :=
      keep_eq_some.mpr ⟨hj.fd, p, hp, rfl⟩
    have hfilter : ∀ r ∈ (repair a b).toList, r.1.tcpSocket = p.tcpSocket ↔ r.1 = p := by
      intro r hr
      refine ⟨fun heq => ?_, congrArg ServerInfo.tcpSocket⟩
      rcases repair_eq (a := a) (b := b) with ⟨hnone, -⟩ | ⟨p', q', hsome, -, hp', -⟩
      · simp [hnone] at hr
      · rw [hsome, Option.toList_some, List.mem_singleton] at hr
        obtain rfl := hr
        exact h.socket_injective (hmem p' (gapPred_mem hp')) (hmem p hp) heq
    show (c.keep { c.leader with next := a ++ b } j).elim [] _ = _
    rw [hfd, Option.elim_some, List.drop_left, sentOn_map_send]
    congr 2
    exact List.filter_congr fun r hr => by simpa using hfilter r hr
  · intro j hj
    simp only [lead] at hj ⊢
    rw [hj, Option.elim_none]

/-! ## A sweep -/

theorem Inv.keep_of_next (h : Inv kind addr inbound c₀ c) (hnext : t.next = c.leader.next) :
    c.keep t = c.fd := by
  funext j
  cases hfd : c.fd j with
  | none => simp [keep, hfd]
  | some k =>
      obtain ⟨p, hp, hentry⟩ := h.listed j (by simp [hfd])
      exact keep_eq_some.mpr ⟨hfd, p, hnext ▸ hp, Option.some.inj (hentry.fd.symm.trans hfd)⟩

theorem Inv.lead_leader (h : Inv kind addr inbound c₀ c) : c.lead c.leader c.fd = c := by
  have hlink : (c.lead c.leader c.fd).link = c.link := by
    funext j
    cases hfd : c.fd j with
    | none => simp [lead, hfd, h.link j hfd]
    | some k => simp [lead, hfd]
  cases c
  simp only [lead] at hlink ⊢
  rw [hlink]

/-- What the leader does in one go is what it does step by step. -/
theorem lead_lead (hsub : ∀ p ∈ t.next, p ∈ u.next) (hout : c.leader.out <+: u.out)
    (hout' : u.out <+: t.out) :
    (c.lead u (c.keep u)).lead t ((c.lead u (c.keep u)).keep t) = c.lead t (c.keep t) := by
  have hkeep : (c.lead u (c.keep u)).keep t = c.keep t := by
    funext j
    refine Option.ext fun k => ?_
    rw [keep_eq_some, keep_eq_some]
    simp only [lead, keep_eq_some]
    constructor
    · rintro ⟨⟨hj, -⟩, hk⟩
      exact ⟨hj, hk⟩
    · rintro ⟨hj, p, hp, hk⟩
      exact ⟨⟨hj, p, hsub p hp, hk⟩, p, hp, hk⟩
  have hdrop : t.out.drop c.leader.out.length =
      u.out.drop c.leader.out.length ++ t.out.drop u.out.length := by
    obtain ⟨v, hv⟩ := hout'
    obtain ⟨w, hw⟩ := hout
    rw [← hv, ← hw]
    simp
  rw [hkeep]
  simp only [lead, Cluster.mk.injEq, true_and]
  funext j
  cases hj : c.keep t j with
  | none => rfl
  | some k =>
      obtain ⟨hfd, p, hp, hk⟩ := keep_eq_some.mp hj
      have hu : c.keep u j = some k := keep_eq_some.mpr ⟨hfd, p, hsub p hp, hk⟩
      simp only [Option.elim_some, hu]
      rw [hdrop, sentOn_append, List.append_assoc]

/-- **A sweep removes one crashed server after another.**  What every removal preserves holds
after the sweep. -/
theorem Inv.sweep_induct (hstart : Start kind addr c₀) (h : Inv kind addr inbound c₀ c)
    (henv : env.AllSucceed) {timeout : ℤ} (hnext : c.leader.next = kept ++ rest)
    (hdead : ∀ p ∈ rest, TimedOut env timeout p → ∀ j, Entry addr c₀ c j p → c.alive j = false)
    {P : Cluster ι → Prop} (hP : ∀ c d a b x, Inv kind addr inbound c₀ c →
      Evicts addr c₀ c d a b x → (∀ j, Entry addr c₀ c j x → c.alive j = false) → P c → P d)
    (hc : P c) :
    ∃ t, ChatRing.sweep env timeout rest c.leader = .ok t ∧ c.leader.out <+: t.out ∧
      t.next = kept ++ ChatRing.alive env timeout rest ∧
        Inv kind addr inbound c₀ (c.lead t (c.keep t)) ∧ P (c.lead t (c.keep t)) := by
  induction rest generalizing c kept with
  | nil =>
      refine ⟨c.leader, rfl, List.prefix_rfl, by simpa [ChatRing.alive] using hnext, ?_⟩
      rw [h.keep_of_next rfl, h.lead_leader]
      exact ⟨h, hc⟩
  | cons x rest ih =>
      by_cases hx : TimedOut env timeout x
      · have hdead_x := hdead x (by simp) hx
        obtain ⟨u, hu, hout, hevicts⟩ := h.ringStatus henv hnext
        have hinv := hevicts.inv hstart h hdead_x
        have hdead' : ∀ p ∈ rest, TimedOut env timeout p →
            ∀ j, Entry addr c₀ (c.lead u (c.keep u)) j p → c.alive j = false := by
          intro p hp hdue j hj
          exact hdead p (by simp [hp]) hdue j ⟨hj.peer, (keep_eq_some.mp hj.fd).1⟩
        obtain ⟨t, ht, hout', htnext, hinv', hPt⟩ := ih hinv hevicts.next hdead'
          (hP c _ _ _ x h hevicts hdead_x hc)
        have hsub : ∀ p ∈ t.next, p ∈ u.next := by
          intro p hp
          rw [show u.next = kept ++ rest from hevicts.next]
          rw [htnext] at hp
          rcases List.mem_append.mp hp with hp | hp
          · exact List.mem_append_left rest hp
          · exact List.mem_append_right kept (List.mem_of_mem_filter hp)
        rw [lead_lead hsub hout hout'] at hinv' hPt
        refine ⟨t, ?_, hout.trans hout', ?_, hinv', hPt⟩
        · rw [sweep_cons_of_timedOut hx, hu]
          exact ht
        · simpa [ChatRing.alive, hx] using htnext
      · have hsplit : c.leader.next = (kept ++ [x]) ++ rest := by simp [hnext]
        obtain ⟨t, ht, hout, htnext, hinv, hPt⟩ := ih h hsplit
          (fun p hp => hdead p (by simp [hp])) hc
        refine ⟨t, ?_, hout, ?_, hinv, hPt⟩
        · rw [sweep_cons_of_alive hx]
          exact ht
        · simpa [ChatRing.alive, hx] using htnext

/-- **The timer of the leader.**  It multicasts its heartbeat, and removes the servers that are
overdue. -/
theorem Inv.sweep (hstart : Start kind addr c₀) (h : Inv kind addr inbound c₀ c)
    (henv : env.AllSucceed)
    (hdue : ∀ p ∈ c.leader.next, TimedOut env (2 * heartbeatTimeout) p →
      ∃ i, c.alive i = false ∧ c.fd i = some p.tcpSocket)
    {P : Cluster ι → Prop} (hstill : ∀ t, Still c.leader t → P (c.lead t c.fd))
    (hP : ∀ c d a b x, Inv kind addr inbound c₀ c → Evicts addr c₀ c d a b x →
      (∀ j, Entry addr c₀ c j x → c.alive j = false) → P c → P d) :
    ∃ t, c.leader.handle (.timer env) = .ok t ∧
      t.next = ChatRing.alive env (2 * heartbeatTimeout) c.leader.next ∧
        Inv kind addr inbound c₀ (c.lead t (c.keep t)) ∧ P (c.lead t (c.keep t)) := by
  rw [Server.handle, onTimer, if_pos h.leader.leader]
  by_cases hnil : c.leader.next = []
  · rw [if_pos hnil]
    refine ⟨c.leader, rfl, by simp [hnil, ChatRing.alive], ?_⟩
    have hself : Still c.leader c.leader := .of_fields h.leader rfl rfl (by simp)
    have hsame := hstill _ hself
    rw [h.keep_of_next rfl]
    rw [h.lead_leader] at hsame ⊢
    exact ⟨h, hsame⟩
  · rw [if_neg hnil]
    generalize hs : c.leader.doMulticast env (padZero (heartbeat c.leader.self.id)) = s
    obtain ⟨sent, hout, hsent⟩ :=
      doMulticast_sent env c.leader (padZero (heartbeat c.leader.self.id))
    rw [hs] at hout
    have hnext : s.next = c.leader.next := by
      rw [← hs]
      exact doMulticast_next _
    have hself : Still c.leader s := by
      refine .of_fields h.leader (by rw [← hs]; exact doMulticast_self _) hnext fun p _ => ?_
      rw [hout, List.drop_left, hsent]
    have hkeep := h.keep_of_next hnext
    have hdead : ∀ p ∈ (c.lead s c.fd).leader.next, TimedOut env (2 * heartbeatTimeout) p →
        ∀ j, Entry addr c₀ (c.lead s c.fd) j p → c.alive j = false := by
      intro p hp htimed j hj
      obtain ⟨i, hi, hfd⟩ := hdue p (hnext ▸ hp) htimed
      obtain rfl := h.fd_injective i j p.tcpSocket hfd hj.fd
      exact hi
    obtain ⟨t, ht, hout', htnext, hinv, hPt⟩ := (h.quiet hself).sweep_induct hstart henv
      (List.nil_append _).symm hdead hP (hstill s hself)
    have hsub : ∀ p ∈ t.next, p ∈ s.next := by
      intro p hp
      rw [htnext] at hp
      exact List.mem_of_mem_filter hp
    rw [← hkeep, lead_lead hsub (by rw [hout]; exact List.prefix_append ..) hout'] at hinv hPt
    rw [← hnext]
    exact ⟨t, ht, by simpa [lead] using htnext, hinv, hPt⟩

/-! ## Every action -/

variable [DecidableEq ι] [Fintype ι] {action : ClusterAction ι}

/-- **Every action keeps the invariant.** -/
theorem Inv.step (hstart : Start kind addr c₀) (h : Inv kind addr inbound c₀ c)
    (hstep : Cluster.step kind addr inbound c action = some d) : Inv kind addr inbound c₀ d := by
  unfold Cluster.step at hstep
  split at hstep
  · rename_i henabled
    cases action with
    | announce i env =>
        obtain ⟨halive, hfd, hconnect, hfresh⟩ := henabled
        obtain ⟨t, a, b, x, ht, hadmits⟩ := h.admits hstart hfd env.2 hconnect hfresh
        simp only [ht] at hstep
        cases hstep
        exact h.announce hstart hadmits halive hfd
    | join i env d =>
        obtain ⟨halive, hleader, hlink, hin⟩ := henabled
        obtain ⟨frame, rest, hlink⟩ := List.exists_cons_of_ne_nil hlink
        obtain ⟨t, ht, hinv⟩ := h.join hstart halive hlink hleader env.2.2 hin
        simp only [hlink, List.headD_cons, ht] at hstep
        cases hstep
        exact hinv
    | read i env =>
        obtain ⟨halive, hleader, hlink, hconnect⟩ := henabled
        obtain ⟨frame, rest, hlink⟩ := List.exists_cons_of_ne_nil hlink
        obtain ⟨t, ht, hinv⟩ := h.read hstart halive hlink hleader hconnect
        simp only [hlink, List.headD_cons, ht] at hstep
        cases hstep
        exact hinv
    | leads e =>
        obtain ⟨t, ht, rfl⟩ := Option.map_eq_some_iff.mp hstep
        exact h.quiet (still_of_quiet h.leader henabled.1 (Except.toOption_eq_some.mp ht))
    | follows i e =>
        obtain ⟨t, ht, rfl⟩ := Option.map_eq_some_iff.mp hstep
        exact h.background henabled.2.1 henabled.2.2 (Except.toOption_eq_some.mp ht)
    | crash i =>
        cases hstep
        exact h.crash i
    | hangUp i env =>
        obtain ⟨halive, -, hbereft, hmc, hltcp⟩ := henabled
        obtain ⟨t, ht, hinv⟩ := h.hangUp hstart halive hbereft hmc hltcp env
        simp only [ht] at hstep
        cases hstep
        exact hinv
    | sweep env =>
        obtain ⟨t, ht, -, hinv, -⟩ := h.sweep hstart env.2 henabled (P := fun _ => True)
          (fun _ _ => trivial) fun _ _ _ _ _ _ _ _ _ => trivial
        simp only [ht] at hstep
        cases hstep
        exact hinv
  · cases hstep

/-- Every action of the protocol returns. -/
theorem Inv.isSome_step (hstart : Start kind addr c₀) (h : Inv kind addr inbound c₀ c)
    (henabled : c.Enabled inbound action) (hleads : ∀ e, action ≠ .leads e)
    (hfollows : ∀ i e, action ≠ .follows i e) :
    (Cluster.step kind addr inbound c action).isSome := by
  unfold Cluster.step
  rw [if_pos henabled]
  cases action with
  | announce i env =>
      obtain ⟨-, hfd, hconnect, hfresh⟩ := henabled
      obtain ⟨t, a, b, x, ht, -⟩ := h.admits hstart hfd env.2 hconnect hfresh
      simp [ht, Except.toOption]
  | join i env d =>
      obtain ⟨halive, hleader, hlink, hin⟩ := henabled
      obtain ⟨frame, rest, hlink⟩ := List.exists_cons_of_ne_nil hlink
      obtain ⟨t, ht, -⟩ := h.join hstart halive hlink hleader env.2.2 hin
      simp [hlink, ht, Except.toOption]
  | read i env =>
      obtain ⟨halive, hleader, hlink, hconnect⟩ := henabled
      obtain ⟨frame, rest, hlink⟩ := List.exists_cons_of_ne_nil hlink
      obtain ⟨t, ht, -⟩ := h.read hstart halive hlink hleader hconnect
      simp [hlink, ht, Except.toOption]
  | leads e => exact absurd rfl (hleads e)
  | follows i e => exact absurd rfl (hfollows i e)
  | crash i => rfl
  | hangUp i env =>
      obtain ⟨halive, -, hbereft, hmc, hltcp⟩ := henabled
      obtain ⟨t, ht, -⟩ := h.hangUp hstart halive hbereft hmc hltcp env
      simp [ht, Except.toOption]
  | sweep env =>
      obtain ⟨t, ht, -⟩ := h.sweep hstart env.2 henabled (P := fun _ => True)
        (fun _ _ => trivial) fun _ _ _ _ _ _ _ _ _ => trivial
      simp [ht, Except.toOption]

omit [DecidableEq ι] [Fintype ι] in
theorem Start.inv (hstart : Start kind addr c₀) : Inv kind addr inbound c₀ c₀ where
  leader := hstart.leader
  self := .refl _
  server := fun i => .refl _
  entry := by simp [hstart.next]
  listed := fun i hi => absurd (hstart.fd i) hi
  fd_injective := by
    intro i j k hi
    rw [hstart.fd i] at hi
    cases hi
  asks := fun i _ _ => hstart.asks i
  link := fun i _ => hstart.link i
  told := fun i _ hi => absurd (hstart.fd i) hi
  linked := by
    rw [hstart.next]
    exact linked_nil

/-- **Every run keeps the invariant.** -/
theorem inv_of_run (hstart : Start kind addr c₀) {h : List (Cluster ι × ClusterAction ι)}
    (run : Run (Cluster.step kind addr inbound) c₀ h c) : Inv kind addr inbound c₀ c :=
  run.invariant hstart.inv fun _ _ _ hx hstep => hx.step hstart hstep

end Cluster

end ChatRing
