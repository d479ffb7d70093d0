import ChatRing.Server.ClientTable
import ChatRing.Server.ServiceDiscovery

/-!
# The descriptors that a server starts with

`service_discovery` accepts connections before the loop begins, and enters them in the client
table like any other.  It closes a connection in two places and leaves its entry behind: a message
that is no reply ends the connection it came on, and a successor that cannot be connected to ends
that of the leader.

The kernel gives a new descriptor the lowest number that is free.  The discovery closes no
connection but the last, so that its number is that of the next one, and when the leader is found
every connection of the table is open.

## Main definitions

* `visits` — the descriptors that the discovery looks at, each with the state before.
* `Visit.Closes` — the two places.

## Main results

* `startUp_onlyOpen` — the loop begins with descriptors that are open.
* `startUp_exact_iff` — it begins with an exact table iff the discovery has closed no connection.
-/

namespace ChatRing
open CText

/-! ## What the discovery looks at -/

/-- A descriptor that is ready. -/
structure Visit where
  env : Env
  fd : Socket
  arrival : Arrival

/-- The discovery goes on after a visit. -/
def discover (d : Discovery) (v : Visit) : Option Discovery :=
  if v.fd ∈ d.master then
    match onReady v.env d v.fd v.arrival with
    | .ok (.waiting d) => some d
    | _ => none
  else none

/-- The descriptors of one round, as far as they are looked at. -/
def readVisits (env : Env) : List (Socket × Arrival) → Discovery → List (Discovery × Visit)
  | [], _ => []
  | (i, arrival) :: reads, d => (d, ⟨env, i, arrival⟩) ::
      match onReady env d i arrival with
      | .ok (.waiting d) => readVisits env reads d
      | _ => []

/-- Those of all rounds. -/
def visits : List Round → Discovery → List (Discovery × Visit)
  | .ready env reads :: rounds, d =>
      readVisits env (reads.filter fun r => r.1 ∈ d.master) d ++
        match onReads env (reads.filter fun r => r.1 ∈ d.master) d with
        | .ok (.waiting d) => visits rounds d
        | _ => []
  | _, _ => []

/-- `select` reports a descriptor once. -/
def Round.Once : Round → Prop
  | .ready _ reads => (reads.map Prod.fst).Nodup
  | .failed | .quiet _ => True

/-- The connection that is accepted, with its address. -/
def Visit.accepted (v : Visit) (d : Discovery) : Option (Socket × Option Text) :=
  match v.arrival with
  | .connection socket clientIp =>
      if v.fd = d.server.self.tcpSocket ∧ IsValidSocket socket then some (socket, clientIp)
      else none
  | .data _ => none

/-- The last connection is closed: it brings a message that is no reply, or the server that its
reply names cannot be connected to. -/
def Visit.Closes (v : Visit) (d : Discovery) : Prop :=
  v.fd ≠ d.server.self.tcpSocket ∧ v.fd ∈ d.socketClient ∧ ∃ received, v.arrival = .data received ∧
    (IsOther received ∨ ∃ r ∈ replyOf received, 8 ≤ r.addr.length ∧ ¬ IsValidSocket v.env.connect)

section Visits
variable {d d' : Discovery} {v : Visit} {env : Env} {reads : List (Socket × Arrival)}
  {rounds : List Round} {socket : Socket} {t : Server} {p : Progress}

theorem onReady_of_discover (h : discover d v = some d') :
    onReady v.env d v.fd v.arrival = .ok (.waiting d') := by
  rw [discover] at h
  split at h
  · split at h
    · rename_i hready
      cases h
      exact hready
    · cases h
  · cases h

/-- Data lets the discovery go on only when it is another message. -/
theorem readReply_waiting {i : Socket} {received : Text}
    (h : readReply env d i received = .ok (.waiting d')) : IsOther received ∧
      d' = { d with server := d.server.closeSocket i, master := d.master.erase i } := by
  by_cases hother : IsOther received
  · cases (readReply_of_other hother).symm.trans h
    exact ⟨hother, rfl⟩
  · cases hreply : replyOf received with
    | none => cases (readReply_of_stop hother hreply).symm.trans h
    | some r =>
        obtain ⟨p, -, hp⟩ := Except.map_eq_ok.mp ((readReply_of_reply hreply).symm.trans h)
        cases hp

/-- **What one visit does**, when the discovery goes on. -/
theorem discover_cases (h : discover d v = some d') :
    (∃ socket clientIp, v.accepted d = some (socket, clientIp) ∧ d' = {
        server := assignClientInfo
          { d.server with opened := insert socket d.server.opened } socket clientIp
        master := insert socket d.master
        socketClient := some socket
        addressBuffer := clientIp.getD d.addressBuffer }) ∨
      v.accepted d = none ∧ (v.Closes d ∧ d' = { d with
          server := d.server.closeSocket v.fd
          master := d.master.erase v.fd } ∨
        ¬ v.Closes d ∧ d' = d) := by
  have hready := onReady_of_discover h
  obtain ⟨env, i, arrival⟩ := v
  by_cases hi : i = d.server.self.tcpSocket
  · simp only [onReady, if_pos hi] at hready
    cases arrival with
    | connection socket clientIp =>
        dsimp only at hready
        split at hready
        · rename_i hvalid
          cases hready
          exact Or.inl ⟨socket, clientIp, if_pos ⟨hi, hvalid⟩, rfl⟩
        · cases hready
    | data received =>
        cases hready
        exact Or.inr ⟨rfl, Or.inr ⟨fun hcloses => hcloses.1 hi, rfl⟩⟩
  · simp only [onReady, if_neg hi] at hready
    cases arrival with
    | connection socket clientIp =>
        have hsame : d' = d := by
          split at hready
          · cases hready
            rfl
          · cases hready
            rfl
        refine Or.inr ⟨if_neg fun hall => hi hall.1, Or.inr ⟨?_, hsame⟩⟩
        rintro ⟨-, -, received, hdata, -⟩
        cases hdata
    | data received =>
        refine Or.inr ⟨rfl, ?_⟩
        split at hready
        · rename_i hlast
          obtain ⟨hother, rfl⟩ := readReply_waiting hready
          exact Or.inl ⟨⟨hi, hlast.symm, received, rfl, Or.inl hother⟩, rfl⟩
        · rename_i hlast
          cases hready
          exact Or.inr ⟨fun hcloses => hlast hcloses.2.1.symm, rfl⟩

/-- **What the last visit does**: it reads a reply, or nothing has changed. -/
theorem onReady_returned (h : onReady v.env d v.fd v.arrival = .ok (.returned socket t)) :
    (socket = errorReturn ∧ t = d.server ∧ v.accepted d = none ∧ ¬ v.Closes d) ∨
      ∃ received r, v.fd ∈ d.socketClient ∧ v.fd ≠ d.server.self.tcpSocket ∧
        v.arrival = .data received ∧ r ∈ replyOf received ∧
        joinSuccessor v.env (withLeader v.env d.server v.fd d.addressBuffer r.id) v.fd r.addr r.port
          r.successorId = .ok (socket, t) := by
  obtain ⟨env, i, arrival⟩ := v
  by_cases hi : i = d.server.self.tcpSocket
  · simp only [onReady, if_pos hi] at h
    cases arrival with
    | connection fd clientIp =>
        dsimp only at h
        split at h
        · cases h
        · rename_i hinvalid
          cases h
          refine Or.inl ⟨rfl, rfl, if_neg fun hall => hinvalid hall.2, fun hcloses => ?_⟩
          exact hcloses.1 hi
    | data received => cases h
  · simp only [onReady, if_neg hi] at h
    by_cases hlast : some i = d.socketClient
    · rw [if_pos hlast] at h
      cases arrival with
      | connection fd clientIp => cases h
      | data received =>
          by_cases hother : IsOther received
          · cases (readReply_of_other hother).symm.trans h
          · cases hreply : replyOf received with
            | none =>
                cases (readReply_of_stop hother hreply).symm.trans h
                refine Or.inl ⟨rfl, rfl, rfl, ?_⟩
                rintro ⟨-, -, received', hdata, hcloses⟩
                cases hdata
                rcases hcloses with hcloses | ⟨r, hr, -⟩
                · exact hother hcloses
                · rw [hreply] at hr
                  cases hr
            | some r =>
                obtain ⟨q, hq, hret⟩ :=
                  Except.map_eq_ok.mp ((readReply_of_reply hreply).symm.trans h)
                cases hret
                exact Or.inr ⟨received, r, hlast.symm, hi, rfl, hreply, hq⟩
    · rw [if_neg hlast] at h
      cases h

theorem discover_self (h : discover d v = some d') :
    d'.server.self = d.server.self := by
  rcases discover_cases h with ⟨fd, clientIp, -, rfl⟩ | ⟨-, ⟨-, rfl⟩ | ⟨-, rfl⟩⟩
  · simp
  · rfl
  · rfl

/-- A descriptor stays selected unless it is the one that is looked at. -/
theorem mem_master_of_discover {fd : Socket} (h : discover d v = some d') (hfd : fd ∈ d.master)
    (hne : fd ≠ v.fd) : fd ∈ d'.master := by
  rcases discover_cases h with ⟨socket, clientIp, -, rfl⟩ | ⟨-, ⟨-, rfl⟩ | ⟨-, rfl⟩⟩
  · exact Finset.mem_insert_of_mem hfd
  · exact Finset.mem_erase.mpr ⟨hne, hfd⟩
  · exact hfd

theorem discover_of_waiting {i : Socket} {arrival : Arrival} (hi : i ∈ d.master)
    (h : onReady env d i arrival = .ok (.waiting d')) :
    discover d ⟨env, i, arrival⟩ = some d' := by
  rw [discover, if_pos hi]
  simp [h]

/-- How the discovery comes to its end, after the visits of `h`. -/
def Ends (d : Discovery) (h : List (Discovery × Visit)) (socket : Socket) (t : Server) : Prop :=
  (∃ d' out, Run discover d h d' ∧ socket = errorReturn ∧ t = { d'.server with out := out }) ∨
    ∃ h' d' v, h = h' ++ [(d', v)] ∧ Run discover d h' d' ∧ v.fd ∈ d'.master ∧
      onReady v.env d' v.fd v.arrival = .ok (.returned socket t)

theorem Ends.cons {h : List (Discovery × Visit)} (hstep : discover d v = some d')
    (hends : Ends d' h socket t) : Ends d ((d, v) :: h) socket t := by
  rcases hends with ⟨d₁, out, run, hsocket, ht⟩ | ⟨h', d₁, w, rfl, run, hw, hready⟩
  · exact Or.inl ⟨d₁, out, run.cons hstep, hsocket, ht⟩
  · exact Or.inr ⟨(d, v) :: h', d₁, w, rfl, run.cons hstep, hw, hready⟩

/-- One round is a part of a run. -/
theorem onReads_cases (honce : (reads.map Prod.fst).Nodup) (hmaster : ∀ r ∈ reads, r.1 ∈ d.master)
    (h : onReads env reads d = .ok p) :
    (∃ d', p = .waiting d' ∧ Run discover d (readVisits env reads d) d') ∨
      ∃ socket t, p = .returned socket t ∧ Ends d (readVisits env reads d) socket t := by
  induction reads generalizing d with
  | nil =>
      cases h
      exact Or.inl ⟨d, rfl, .nil⟩
  | cons r reads ih =>
      obtain ⟨i, arrival⟩ := r
      have hi : i ∈ d.master := hmaster _ List.mem_cons_self
      obtain ⟨hnot, honce⟩ := List.nodup_cons.mp honce
      obtain ⟨q, hready, h⟩ := Except.bind_eq_ok.mp h
      cases q with
      | returned socket t =>
          cases h
          refine Or.inr ⟨socket, t, rfl, Or.inr ⟨[], d, ⟨env, i, arrival⟩, ?_, .nil, hi, hready⟩⟩
          simp [readVisits, hready]
      | waiting d₁ =>
          have hstep := discover_of_waiting hi hready
          have hvisits : readVisits env ((i, arrival) :: reads) d =
              (d, ⟨env, i, arrival⟩) :: readVisits env reads d₁ := by
            simp [readVisits, hready]
          have hmaster₁ : ∀ r ∈ reads, r.1 ∈ d₁.master := by
            intro r hr
            refine mem_master_of_discover hstep (hmaster r (List.mem_cons_of_mem _ hr)) ?_
            rintro rfl
            exact hnot (List.mem_map.mpr ⟨r, hr, rfl⟩)
          rw [hvisits]
          rcases ih honce hmaster₁ h with ⟨d', rfl, run⟩ | ⟨socket, t, rfl, hends⟩
          · exact Or.inl ⟨d', rfl, run.cons hstep⟩
          · exact Or.inr ⟨socket, t, rfl, Ends.cons hstep hends⟩

theorem Ends.append {h h' : List (Discovery × Visit)} (run : Run discover d h d')
    (hends : Ends d' h' socket t) : Ends d (h ++ h') socket t := by
  rcases hends with ⟨d₁, out, run', hsocket, ht⟩ | ⟨h₁, d₁, w, rfl, run', hw, hready⟩
  · exact Or.inl ⟨d₁, out, run.append run', hsocket, ht⟩
  · exact Or.inr ⟨h ++ h₁, d₁, w, by simp, run.append run', hw, hready⟩

theorem doMulticast_out (env : Env) (s : Server) (bytes : Text) :
    ∃ out, s.doMulticast env bytes = { s with out := out } := by
  rw [Server.doMulticast]
  split
  · exact ⟨_, rfl⟩
  · exact ⟨s.out, rfl⟩

/-- **The discovery is a run of visits, up to the last one.** -/
theorem onRounds_ends (honce : ∀ r ∈ rounds, r.Once) (h : onRounds rounds d = .ok (socket, t)) :
    Ends d (visits rounds d) socket t := by
  induction rounds generalizing d with
  | nil =>
      cases h
      exact Or.inl ⟨d, d.server.out, .nil, rfl, rfl⟩
  | cons round rounds ih =>
      cases round with
      | failed =>
          cases h
          exact Or.inl ⟨d, d.server.out, .nil, rfl, rfl⟩
      | quiet env =>
          cases h
          obtain ⟨out, hout⟩ := doMulticast_out env d.server (discoveryFrame d.server)
          exact Or.inl ⟨d, out, .nil, rfl, hout⟩
      | ready env reads =>
          have hreads : (reads.map Prod.fst).Nodup := honce _ List.mem_cons_self
          obtain ⟨q, hq, h⟩ := Except.bind_eq_ok.mp h
          rcases onReads_cases (hreads.sublist (List.filter_sublist.map Prod.fst))
            (fun r hr => of_decide_eq_true (List.mem_filter.mp hr).2) hq with
            ⟨d₁, rfl, run⟩ | ⟨socket', t', rfl, hends⟩
          · rw [visits, hq]
            exact Ends.append run (ih (fun r hr => honce r (List.mem_cons_of_mem _ hr)) h)
          · cases h
            rw [visits, hq, List.append_nil]
            exact hends

end Visits

/-! ## The connections that are accepted -/

/-- The connections, in their order. -/
def accepts (h : List (Discovery × Visit)) : List (Socket × Option Text) :=
  h.filterMap fun x => x.2.accepted x.1

/-- Every connection gets the lowest number that no open descriptor has. -/
def LowestFree (h : List (Discovery × Visit)) : Prop :=
  ∀ x ∈ h, ∀ c ∈ x.2.accepted x.1, c.1 ∉ x.1.server.opened ∧
    ∀ k, 0 ≤ k → k < c.1 → k ∈ x.1.server.opened

section Accepts
variable {d d' : Discovery} {v : Visit} {env : Env} {reads : List (Socket × Arrival)}
  {rounds : List Round} {h : List (Discovery × Visit)}

theorem accepts_append (h h' : List (Discovery × Visit)) :
    accepts (h ++ h') = accepts h ++ accepts h' := List.filterMap_append

theorem accepts_snoc_none (h : List (Discovery × Visit)) (hv : v.accepted d = none) :
    accepts (h ++ [(d, v)]) = accepts h := by
  simp [accepts, hv]

theorem accepts_snoc_some (h : List (Discovery × Visit)) {c : Socket × Option Text}
    (hv : v.accepted d = some c) : accepts (h ++ [(d, v)]) = accepts h ++ [c] := by
  simp [accepts, hv]

/-- Only the listening socket accepts. -/
theorem fd_of_accepted {c : Socket × Option Text} (h : v.accepted d = some c) :
    v.fd = d.server.self.tcpSocket ∧ IsValidSocket c.1 := by
  rw [Visit.accepted] at h
  split at h
  · split at h
    · rename_i hall
      cases h
      exact hall
    · cases h
  · cases h

theorem length_accepts_readVisits (env : Env) (reads : List (Socket × Arrival)) (d : Discovery)
    (hmaster : ∀ r ∈ reads, r.1 ∈ d.master) (honce : (reads.map Prod.fst).Nodup) :
    (accepts (readVisits env reads d)).length ≤
      (reads.map Prod.fst).count d.server.self.tcpSocket := by
  induction reads generalizing d with
  | nil => simp [readVisits, accepts]
  | cons r reads ih =>
      obtain ⟨i, arrival⟩ := r
      obtain ⟨hnot, honce⟩ := List.nodup_cons.mp honce
      -- the visit counts one when it is at the listening socket
      have hfirst : (accepts [(d, ⟨env, i, arrival⟩)]).length ≤
          if i = d.server.self.tcpSocket then 1 else 0 := by
        cases haccepted : Visit.accepted ⟨env, i, arrival⟩ d with
        | none => simp [accepts, haccepted]
        | some c =>
            have hi : i = d.server.self.tcpSocket := (fd_of_accepted haccepted).1
            rw [if_pos hi]
            simp [accepts, haccepted]
      have hrest : (accepts (match onReady env d i arrival with
          | .ok (.waiting d₁) => readVisits env reads d₁
          | _ => [])).length ≤ (reads.map Prod.fst).count d.server.self.tcpSocket := by
        split
        · rename_i d₁ hready
          have hstep := discover_of_waiting (hmaster _ List.mem_cons_self) hready
          rw [← discover_self hstep]
          refine ih d₁ (fun r hr => ?_) honce
          refine mem_master_of_discover hstep (hmaster r (List.mem_cons_of_mem _ hr)) ?_
          rintro rfl
          exact hnot (List.mem_map.mpr ⟨r, hr, rfl⟩)
        · exact Nat.zero_le _
      rw [readVisits, ← List.singleton_append, accepts_append, List.length_append, List.map_cons,
        List.count_cons]
      simp only [beq_iff_eq]
      omega

/-- One connection is accepted in a round. -/
theorem length_accepts_visits (honce : ∀ r ∈ rounds, r.Once) :
    (accepts (visits rounds d)).length ≤ rounds.length := by
  induction rounds generalizing d with
  | nil => simp [visits, accepts]
  | cons round rounds ih =>
      cases round with
      | failed => simp [visits, accepts]
      | quiet env => simp [visits, accepts]
      | ready env reads =>
          have hreads : ((reads.filter fun r => r.1 ∈ d.master).map Prod.fst).Nodup :=
            (honce (.ready env reads) List.mem_cons_self).sublist (List.filter_sublist.map Prod.fst)
          have hround := length_accepts_readVisits env (reads.filter fun r => r.1 ∈ d.master) d
            (fun r hr => of_decide_eq_true (List.mem_filter.mp hr).2) hreads
          have hone := List.nodup_iff_count_le_one.mp hreads d.server.self.tcpSocket
          have hrest : (accepts (match onReads env (reads.filter fun r => r.1 ∈ d.master) d with
              | .ok (.waiting d₁) => visits rounds d₁
              | _ => [])).length ≤ rounds.length := by
            split
            · exact ih fun r hr => honce r (List.mem_cons_of_mem _ hr)
            · exact Nat.zero_le _
          rw [visits, accepts_append, List.length_append, List.length_cons]
          omega

end Accepts

/-! ## Open descriptors -/

/-- The discovery began in `s`, and made the visits `h`. -/
structure Tables (s : Server) (h : List (Discovery × Visit)) (d : Discovery) : Prop where
  selfId : d.server.self.id = s.self.id
  master : d.server.master = s.master
  successor : d.server.successorSocket = s.successorSocket
  opened : s.opened ⊆ d.server.opened
  watched : d.master ⊆ d.server.opened
  /-- Below the last connection no number is free. -/
  last : ∀ fd ∈ d.socketClient, fd ∉ s.opened ∧ ∀ k, 0 ≤ k → k < fd → k ∈ d.server.opened
  /-- The connections before the last one are open. -/
  rest : ∀ fd ∈ d.server.tableSockets, fd ∉ d.socketClient → fd ∈ d.server.opened
  valid : ∀ fd ∈ d.server.tableSockets, 0 ≤ fd
  length : d.server.tableSockets.length ≤ (accepts h).length

section Open
variable {s t : Server} {d d' : Discovery} {v : Visit} {h : List (Discovery × Visit)}
  {socket fd : Socket} {env : Env} {rounds : List Round}

/-- `socket` has been accepted, and has its entry when its address is known. -/
structure Accepted (d d' : Discovery) (socket : Socket) (clientIp : Option Text) : Prop where
  selfId : d'.server.self.id = d.server.self.id
  loop : d'.server.master = d.server.master
  successor : d'.server.successorSocket = d.server.successorSocket
  opened : d'.server.opened = insert socket d.server.opened
  master : d'.master = insert socket d.master
  last : d'.socketClient = some socket
  table : d'.server.tableSockets = d.server.tableSockets ++ clientIp.toList.map fun _ => socket

theorem accepted_of_lt (hlen : d.server.tableSockets.length < maxConnection) (socket : Socket)
    (clientIp : Option Text) : Accepted d {
      server := assignClientInfo
        { d.server with opened := insert socket d.server.opened } socket clientIp
      master := insert socket d.master
      socketClient := some socket
      addressBuffer := clientIp.getD d.addressBuffer } socket clientIp := by
  cases clientIp with
  | none => exact ⟨rfl, rfl, rfl, rfl, rfl, rfl, (List.append_nil _).symm⟩
  | some ip =>
      have hroom : ¬ d.server.clientArray.length = maxConnection := by
        rw [Server.tableSockets, List.length_map] at hlen
        omega
      rw [assignClientInfo, if_neg hroom]
      exact ⟨rfl, rfl, rfl, rfl, rfl, rfl, List.map_append⟩

/-- The number of a connection that was closed is used again before any larger one. -/
theorem Tables.eq_of_lowest (hd : Tables s h d) (hfree : socket ∉ d.server.opened)
    (hlowest : ∀ k, 0 ≤ k → k < socket → k ∈ d.server.opened) (hsocket : 0 ≤ socket)
    (hfd : fd ∈ d.server.tableSockets) (hclosed : fd ∉ d.server.opened) : fd = socket := by
  by_contra hne
  have hlast : fd ∈ d.socketClient := by
    by_contra hnot
    exact hclosed (hd.rest fd hfd hnot)
  rcases lt_or_gt_of_ne hne with hlt | hgt
  · exact hclosed (hlowest fd (hd.valid fd hfd) hlt)
  · exact hfree ((hd.last fd hlast).2 socket hsocket hgt)

theorem Tables.discover (hd : Tables s h d) (hstep : discover d v = some d')
    (hlowest : LowestFree (h ++ [(d, v)]))
    (hlen : (accepts (h ++ [(d, v)])).length ≤ maxConnection) : Tables s (h ++ [(d, v)]) d' := by
  have hgrows := hd.length
  rcases discover_cases hstep with ⟨socket, clientIp, hv, hd'⟩ | ⟨hv, ⟨hcloses, rfl⟩ | ⟨-, rfl⟩⟩
  · obtain ⟨hfree, hbelow⟩ := hlowest (d, v) (by simp) _ hv
    have hvalid : 0 ≤ socket := (fd_of_accepted hv).2
    rw [accepts_snoc_some h hv, List.length_append, List.length_singleton] at hlen
    have hacc : Accepted d d' socket clientIp := hd' ▸ accepted_of_lt (by omega) socket clientIp
    have htable : ∀ fd ∈ d'.server.tableSockets, fd ∈ d.server.tableSockets ∨ fd = socket := by
      intro fd hfd
      rw [hacc.table, List.mem_append] at hfd
      refine hfd.imp_right fun hnew => ?_
      obtain ⟨ip, -, heq⟩ := List.mem_map.mp hnew
      exact heq.symm
    refine ⟨hacc.selfId.trans hd.selfId, hacc.loop.trans hd.master,
      hacc.successor.trans hd.successor, ?_, ?_, ?_, ?_, ?_, ?_⟩
    · rw [hacc.opened]
      exact hd.opened.trans (Finset.subset_insert _ _)
    · rw [hacc.master, hacc.opened]
      exact Finset.insert_subset_insert _ hd.watched
    · rw [hacc.last, hacc.opened]
      rintro fd hfd
      obtain rfl := Option.some.inj hfd
      exact ⟨fun hopen => hfree (hd.opened hopen), fun k hk hlt =>
        Finset.mem_insert_of_mem (hbelow k hk hlt)⟩
    · rw [hacc.last, hacc.opened]
      intro fd hfd hnot
      have hne : fd ≠ socket := fun heq => hnot (by rw [heq]; rfl)
      refine Finset.mem_insert_of_mem ?_
      by_contra hclosed
      exact hne (hd.eq_of_lowest hfree hbelow hvalid ((htable fd hfd).resolve_right hne) hclosed)
    · intro fd hfd
      rcases htable fd hfd with hold | rfl
      · exact hd.valid fd hold
      · exact hvalid
    · have hone : clientIp.toList.length ≤ 1 := by cases clientIp <;> simp
      rw [hacc.table, accepts_snoc_some h hv, List.length_append, List.length_append,
        List.length_map, List.length_singleton]
      exact Nat.add_le_add hgrows hone
  · obtain ⟨-, hlast, -⟩ := hcloses
    obtain ⟨hnew, hbelow⟩ := hd.last v.fd hlast
    have hkeeps : ∀ {k}, k ≠ v.fd → k ∈ d.server.opened → k ∈ d.server.opened.erase v.fd :=
      fun hne hk => Finset.mem_erase.mpr ⟨hne, hk⟩
    refine ⟨hd.selfId, hd.master, hd.successor, fun k hk => hkeeps ?_ (hd.opened hk),
      Finset.erase_subset_erase _ hd.watched, ?_, ?_, hd.valid, ?_⟩
    · rintro rfl
      exact hnew hk
    · intro fd hfd
      obtain rfl : v.fd = fd := Option.mem_unique hlast hfd
      exact ⟨hnew, fun k hk hlt => hkeeps hlt.ne (hbelow k hk hlt)⟩
    · intro fd hfd hnot
      refine hkeeps ?_ (hd.rest fd hfd hnot)
      rintro rfl
      exact hnot hlast
    · rw [accepts_snoc_none h hv]
      exact hgrows
  · refine { hd with length := ?_ }
    rw [accepts_snoc_none h hv]
    exact hgrows

/-- **What the discovery has opened**, as long as it goes on. -/
theorem tables_of_run {d₀ : Discovery} (h₀ : Tables s [] d₀) (run : Run ChatRing.discover d₀ h d)
    (hlowest : LowestFree h) (hlen : (accepts h).length ≤ maxConnection) : Tables s h d := by
  induction run with
  | nil => exact h₀
  | snoc run hstep ih =>
      refine (ih (fun x hx => hlowest x (List.mem_append_left _ hx)) ?_).discover hstep hlowest hlen
      rw [accepts_append, List.length_append] at hlen
      omega

/-- What the end of the discovery adds to the tables. -/
theorem joinSuccessor_cases {i : Socket} {successorIP : Text} {mPORT ids : ℤ}
    (h : joinSuccessor env s i successorIP mPORT ids = .ok (socket, t)) :
    t.self = s.self ∧ t.master = s.master ∧ t.clientArray = s.clientArray ∧
      (8 ≤ successorIP.length ∧ ¬ IsValidSocket env.connect ∧ socket = errorReturn ∧
          t.opened = s.opened.erase i ∨
        ¬ (8 ≤ successorIP.length ∧ ¬ IsValidSocket env.connect) ∧ socket = i ∧
          s.opened ⊆ t.opened ∧
          (t.successorSocket = s.successorSocket ∨ t.successorSocket ∈ t.opened)) := by
  by_cases hlen : 8 ≤ successorIP.length
  · rw [joinSuccessor, if_pos hlen] at h
    obtain ⟨port, -, h⟩ := Except.bind_eq_ok.mp h
    by_cases hconnect : IsValidSocket env.connect
    · rw [Server.setupTcpClient, if_pos hconnect] at h
      simp only [if_pos hconnect] at h
      cases h
      refine ⟨rfl, rfl, rfl, Or.inr ⟨fun hall => hall.2 hconnect, rfl, ?_, Or.inr ?_⟩⟩
      · exact Finset.subset_insert _ _
      · exact Finset.mem_insert_self _ _
    · rw [Server.setupTcpClient, if_neg hconnect] at h
      have hinvalid : ¬ IsValidSocket errorReturn := by decide
      simp only [if_neg hinvalid] at h
      cases h
      exact ⟨rfl, rfl, rfl, Or.inl ⟨hlen, hconnect, rfl, rfl⟩⟩
  · rw [joinSuccessor_of_lt (by omega)] at h
    cases h
    exact ⟨rfl, rfl, rfl, Or.inr ⟨fun hall => hlen hall.1, rfl, Finset.Subset.refl _, Or.inl rfl⟩⟩

/-- What the discovery leaves behind: when it has found the leader, every connection in the table
is open. -/
structure Discovered (s t : Server) (socket : Socket) : Prop where
  selfId : t.self.id = s.self.id
  master : t.master = s.master
  opened : s.opened ⊆ t.opened
  found : socket ≠ errorReturn → socket ∈ t.opened ∧
    (t.successorSocket = s.successorSocket ∨ t.successorSocket ∈ t.opened) ∧
    ∀ fd ∈ t.tableSockets, fd ∈ t.opened

theorem discovered_of_ends {d₀ : Discovery} (h₀ : Tables s [] d₀) (hends : Ends d₀ h socket t)
    (hlowest : LowestFree h) (hlen : (accepts h).length ≤ maxConnection) :
    Discovered s t socket := by
  rcases hends with ⟨d, out, run, hsocket, rfl⟩ | ⟨h, d, v, rfl, run, hselected, hready⟩
  · have hd := tables_of_run h₀ run hlowest hlen
    exact ⟨hd.selfId, hd.master, hd.opened, fun hne => absurd hsocket hne⟩
  · have hd : Tables s h d := by
      refine tables_of_run h₀ run (fun x hx => hlowest x (List.mem_append_left _ hx)) ?_
      rw [accepts_append, List.length_append] at hlen
      omega
    rcases onReady_returned hready with ⟨hsocket, rfl, -⟩ | ⟨received, r, hlast, -, -, -, hjoin⟩
    · exact ⟨hd.selfId, hd.master, hd.opened, fun hne => absurd hsocket hne⟩
    · obtain ⟨hself, hmaster, hclients, hcases⟩ := joinSuccessor_cases hjoin
      have hid : t.self.id = s.self.id := by
        rw [hself]
        exact hd.selfId
      have htable : t.tableSockets = d.server.tableSockets := by
        rw [Server.tableSockets, hclients]
        rfl
      rcases hcases with ⟨-, -, hsocket, hopened⟩ | ⟨-, hsocket, hopened, hsuccessor⟩
      · refine ⟨hid, hmaster.trans hd.master, ?_, fun hne => absurd hsocket hne⟩
        rw [hopened]
        intro k hk
        refine Finset.mem_erase.mpr ⟨?_, hd.opened hk⟩
        rintro rfl
        exact (hd.last _ hlast).1 hk
      · have hopen : v.fd ∈ d.server.opened := hd.watched hselected
        refine ⟨hid, hmaster.trans hd.master, hd.opened.trans hopened, fun _ => ⟨?_, ?_, ?_⟩⟩
        · rw [hsocket]
          exact hopened hopen
        · exact hsuccessor.imp_left fun heq => heq.trans hd.successor
        · intro fd hfd
          rw [htable] at hfd
          by_cases hfd' : fd ∈ d.socketClient
          · obtain rfl : v.fd = fd := Option.mem_unique hlast hfd'
            exact hopened hopen
          · exact hopened (hd.rest fd hfd hfd')

/-! ### Entries -/

/-- The table when every address is found: an entry for each connection, those that were closed
included. -/
structure Entered (h : List (Discovery × Visit)) (d : Discovery) : Prop where
  table : d.server.tableSockets = (accepts h).map Prod.fst
  last : ∀ fd ∈ d.socketClient, fd ∈ d.server.tableSockets
  clean : (∀ x ∈ h, ¬ x.2.Closes x.1) →
    d.server.tableSockets.Nodup ∧ ∀ fd ∈ d.server.tableSockets, fd ∈ d.server.opened
  /-- A closed connection is the last one, or its number has been used again. -/
  spoilt : (∃ x ∈ h, x.2.Closes x.1) →
    ¬ d.server.tableSockets.Nodup ∨ ∃ fd ∈ d.socketClient, fd ∉ d.server.opened

theorem Entered.discover (hd : Entered h d) (htables : Tables s h d)
    (hstep : discover d v = some d') (hlowest : LowestFree (h ++ [(d, v)]))
    (hlen : (accepts (h ++ [(d, v)])).length ≤ maxConnection)
    (hnamed : ∀ c ∈ accepts (h ++ [(d, v)]), c.2.isSome) : Entered (h ++ [(d, v)]) d' := by
  have hgrows := htables.length
  have hexists : (∃ x ∈ h ++ [(d, v)], x.2.Closes x.1) ↔
      (∃ x ∈ h, x.2.Closes x.1) ∨ v.Closes d := by
    simp [or_and_right, exists_or]
  rcases discover_cases hstep with ⟨socket, clientIp, hv, hd'⟩ | ⟨hv, ⟨hcloses, rfl⟩ | ⟨hnot, rfl⟩⟩
  · obtain ⟨hfree, hbelow⟩ := hlowest (d, v) (by simp) _ hv
    have hvalid : 0 ≤ socket := (fd_of_accepted hv).2
    have hkeeps : ¬ v.Closes d := fun hcloses => hcloses.1 (fd_of_accepted hv).1
    rw [accepts_snoc_some h hv] at hlen hnamed
    rw [List.length_append, List.length_singleton] at hlen
    have hacc : Accepted d d' socket clientIp := hd' ▸ accepted_of_lt (by omega) socket clientIp
    have htable : d'.server.tableSockets = d.server.tableSockets ++ [socket] := by
      obtain ⟨ip, rfl⟩ : ∃ ip, clientIp = some ip :=
        Option.isSome_iff_exists.mp (hnamed (socket, clientIp) (by simp))
      exact hacc.table
    refine ⟨?_, ?_, ?_, ?_⟩
    · rw [htable, accepts_snoc_some h hv, List.map_append, ← hd.table]
      rfl
    · rw [hacc.last, htable]
      rintro fd hfd
      obtain rfl := Option.some.inj hfd
      exact List.mem_append_right _ (List.mem_singleton_self _)
    · intro hnone
      obtain ⟨hnodup, hopen⟩ := hd.clean fun x hx => hnone x (List.mem_append_left _ hx)
      rw [htable, hacc.opened]
      refine ⟨?_, fun fd hfd => ?_⟩
      · rw [← List.concat_eq_append]
        exact hnodup.concat fun hmem => hfree (hopen _ hmem)
      · rcases List.mem_append.mp hfd with hfd | hfd
        · exact Finset.mem_insert_of_mem (hopen fd hfd)
        · rw [List.mem_singleton.mp hfd]
          exact Finset.mem_insert_self _ _
    · intro hsome
      refine Or.inl ?_
      rw [htable]
      rcases hd.spoilt ((hexists.mp hsome).resolve_right hkeeps) with hdouble | ⟨fd, hfd, hclosed⟩
      · exact fun hnodup => hdouble hnodup.of_append_left
      · -- the number of the closed connection is used again
        have hmem := hd.last fd hfd
        obtain rfl := htables.eq_of_lowest hfree hbelow hvalid hmem hclosed
        intro hnodup
        exact List.disjoint_of_nodup_append hnodup hmem (List.mem_singleton_self _)
  · refine ⟨?_, hd.last, fun hnone => ?_, fun _ => Or.inr ⟨v.fd, hcloses.2.1, ?_⟩⟩
    · rw [accepts_snoc_none h hv]
      exact hd.table
    · exact absurd hcloses (hnone (d, v) (by simp))
    · exact Finset.notMem_erase _ _
  · refine ⟨?_, hd.last, fun hnone => ?_, fun hsome => ?_⟩
    · rw [accepts_snoc_none h hv]
      exact hd.table
    · exact hd.clean fun x hx => hnone x (List.mem_append_left _ hx)
    · exact hd.spoilt ((hexists.mp hsome).resolve_right hnot)

theorem entered_of_run {d₀ : Discovery} (h₀ : Tables s [] d₀) (hentered : Entered [] d₀)
    (run : Run ChatRing.discover d₀ h d) (hlowest : LowestFree h)
    (hlen : (accepts h).length ≤ maxConnection) (hnamed : ∀ c ∈ accepts h, c.2.isSome) :
    Entered h d := by
  induction run with
  | nil => exact hentered
  | @snoc h d d' v run hstep ih =>
      have hlowest' : LowestFree h := fun x hx => hlowest x (List.mem_append_left _ hx)
      have hlen' : (accepts h).length ≤ maxConnection := by
        rw [accepts_append, List.length_append] at hlen
        omega
      have hd : Entered h d := by
        refine ih hlowest' hlen' fun c hc => hnamed c ?_
        rw [accepts_append]
        exact List.mem_append_left _ hc
      exact hd.discover (tables_of_run h₀ run hlowest' hlen') hstep hlowest hlen hnamed

theorem Entered.open_iff (hd : Entered h d) :
    (d.server.tableSockets.Nodup ∧ ∀ fd ∈ d.server.tableSockets, fd ∈ d.server.opened) ↔
      ∀ x ∈ h, ¬ x.2.Closes x.1 := by
  refine ⟨fun ⟨hnodup, hopen⟩ x hx hcloses => ?_, hd.clean⟩
  rcases hd.spoilt ⟨x, hx, hcloses⟩ with hdouble | ⟨fd, hfd, hclosed⟩
  · exact hdouble hnodup
  · exact hclosed (hopen fd (hd.last fd hfd))

/-- **The entries that the discovery leaves**: one for each connection, and each of them open,
unless the discovery has closed one. -/
theorem entered_of_ends {d₀ : Discovery} (h₀ : Tables s [] d₀) (hentered : Entered [] d₀)
    (hends : Ends d₀ h socket t) (hlowest : LowestFree h)
    (hlen : (accepts h).length ≤ maxConnection) (hnamed : ∀ c ∈ accepts h, c.2.isSome) :
    t.tableSockets = (accepts h).map Prod.fst ∧
      ((t.tableSockets.Nodup ∧ ∀ fd ∈ t.tableSockets, fd ∈ t.opened) ↔
        ∀ x ∈ h, ¬ x.2.Closes x.1) := by
  rcases hends with ⟨d, out, run, -, rfl⟩ | ⟨h, d, v, rfl, run, hselected, hready⟩
  · have hd := entered_of_run h₀ hentered run hlowest hlen hnamed
    exact ⟨hd.table, hd.open_iff⟩
  · have hall : (∀ x ∈ h ++ [(d, v)], ¬ x.2.Closes x.1) ↔
        (∀ x ∈ h, ¬ x.2.Closes x.1) ∧ ¬ v.Closes d := by
      simp [or_imp, forall_and]
    have hnone : v.accepted d = none := by
      rcases onReady_returned hready with ⟨-, -, hnone, -⟩ | ⟨received, r, -, -, hdata, -⟩
      · exact hnone
      · rw [Visit.accepted, hdata]
    rw [accepts_snoc_none h hnone] at hlen hnamed ⊢
    have hlowest' : LowestFree h := fun x hx => hlowest x (List.mem_append_left _ hx)
    have hd := entered_of_run h₀ hentered run hlowest' hlen hnamed
    rw [hall]
    rcases onReady_returned hready with ⟨-, rfl, -, hkeeps⟩ |
      ⟨received, r, hlast, hne, hdata, hr, hjoin⟩
    · exact ⟨hd.table, by rw [hd.open_iff, and_iff_left hkeeps]⟩
    · obtain ⟨-, -, hclients, hcases⟩ := joinSuccessor_cases hjoin
      have htable : t.tableSockets = d.server.tableSockets := by
        rw [Server.tableSockets, hclients]
        rfl
      rw [htable]
      refine ⟨hd.table, ?_⟩
      rcases hcases with ⟨hlong, hconnect, -, hopened⟩ | ⟨hconnects, -, hopened, -⟩
      · refine iff_of_false (fun hopen => ?_) fun hnot => hnot.2 ?_
        · have hmem := hopen.2 v.fd (hd.last v.fd hlast)
          rw [hopened] at hmem
          exact Finset.notMem_erase _ _ hmem
        · exact ⟨hne, hlast, received, hdata, Or.inr ⟨r, hr, hlong, hconnect⟩⟩
      · have hkeeps : ¬ v.Closes d := by
          rintro ⟨-, -, received', hdata', hcloses⟩
          obtain rfl : received = received' := Arrival.data.inj (hdata.symm.trans hdata')
          rcases hcloses with hother | ⟨r', hr', hlong⟩
          · exact absurd (hother.2.symm.trans hr) (by simp)
          · obtain rfl := Option.mem_unique hr hr'
            exact hconnects hlong
        rw [and_iff_left hkeeps, ← hd.open_iff]
        refine and_congr_right fun _ =>
          ⟨fun _ => ?_, fun hopen fd hfd => hopened (hopen fd hfd)⟩
        -- the last connection is open, so that a closed one would be there twice
        have htables := tables_of_run h₀ run hlowest' hlen
        intro fd hfd
        by_cases hfd' : fd ∈ d.socketClient
        · obtain rfl : v.fd = fd := Option.mem_unique hlast hfd'
          exact htables.watched hselected
        · exact htables.rest fd hfd hfd'

end Open

/-! ## The loop begins -/

/-- The discovery of a server that has multicast its request. -/
def Discovery.start (env : Env) (s : Server) : Discovery where
  server := s.doMulticast env (discoveryFrame s)
  master := {s.self.tcpSocket}
  socketClient := none
  addressBuffer := []

/-- What `service_discovery` looks at. -/
def startVisits (env : Env) (rounds : List Round) (s : Server) : List (Discovery × Visit) :=
  if env.multicasts then visits (rounds.take 3) (.start env s) else []

section Start
variable {env : Env} {rounds : List Round} {s t : Server} {socket : Socket} {serverIp : Text}
  {port : ℤ} {socketListen mcSocket : Socket}

theorem serviceDiscovery_ends (honce : ∀ r ∈ rounds, r.Once)
    (h : serviceDiscovery env rounds s = .ok (socket, t)) :
    Ends (.start env s) (startVisits env rounds s) socket t := by
  rw [serviceDiscovery] at h
  rw [startVisits]
  split at h
  · rename_i hmulticasts
    rw [if_pos hmulticasts]
    exact onRounds_ends (fun r hr => honce r (List.mem_of_mem_take hr)) h
  · rename_i hmulticasts
    cases h
    rw [if_neg hmulticasts]
    refine Or.inl ⟨.start env s, s.out, .nil, rfl, ?_⟩
    rw [Discovery.start, Server.doMulticast, if_neg hmulticasts]

theorem length_accepts_startVisits (honce : ∀ r ∈ rounds, r.Once) :
    (accepts (startVisits env rounds s)).length ≤ maxConnection := by
  rw [startVisits]
  split
  · refine (length_accepts_visits fun r hr => honce r (List.mem_of_mem_take hr)).trans ?_
    rw [List.length_take]
    exact (Nat.min_le_left _ _).trans (by decide)
  · exact Nat.zero_le _

theorem startUp_eq_ok (h : startUp env rounds s = .ok t) :
    ∃ socket u, serviceDiscovery env rounds s = .ok (socket, u) ∧ t.self.id = u.self.id ∧
      t.clientArray = u.clientArray ∧ t.opened = u.opened ∧
      t.master = u.master ∪ if IsValidSocket socket then
        (foundSockets { u with ltcpSocket := socket }).toFinset else ∅ := by
  obtain ⟨⟨socket, u⟩, hu, h⟩ := Except.bind_eq_ok.mp h
  dsimp only at h
  split at h
  · rename_i hvalid
    cases h
    exact ⟨socket, u, hu, rfl, rfl, rfl, by rw [if_pos hvalid]⟩
  · rename_i hinvalid
    cases h
    exact ⟨socket, u, hu, rfl, rfl, rfl, by rw [if_neg hinvalid, Finset.union_empty]⟩

/-- The connections that the discovery has accepted, as far as they are open. -/
def Tracked.ofStart (env : Env) (rounds : List Round) (s t : Server) : Tracked where
  server := t
  accepted := ((accepts (startVisits env rounds s)).map Prod.fst).toFinset ∩ t.opened

section SetUp
variable (hs : s = setUp env serverIp port socketListen mcSocket) (honce : ∀ r ∈ rounds, r.Once)
  (hlowest : LowestFree (startVisits env rounds s))

include hs

/-- Nothing is accepted yet. -/
theorem tableSockets_start : (Discovery.start env s).server.tableSockets = [] := by
  have hsame : SameSockets s (Discovery.start env s).server := .of_doMulticast env s _
  rw [Server.tableSockets, hsame.clientArray, hs]
  rfl

theorem tables_start : Tables s [] (.start env s) := by
  have hsame : SameSockets s (Discovery.start env s).server := .of_doMulticast env s _
  have hnone : (Discovery.start env s).server.tableSockets = [] := tableSockets_start hs
  exact {
    selfId := by rw [Discovery.start, doMulticast_self]
    master := hsame.master
    successor := hsame.successorSocket
    opened := hsame.opened.ge
    watched := by
      refine Finset.Subset.trans ?_ hsame.opened.ge
      simp [Discovery.start, hs, setUp, startLeader, createServer]
    last := fun fd hfd => by cases hfd
    rest := fun fd hfd => by simp [hnone] at hfd
    valid := fun fd hfd => by simp [hnone] at hfd
    length := by simp [hnone] }

theorem entered_start : Entered [] (.start env s) := by
  have hnone : (Discovery.start env s).server.tableSockets = [] := tableSockets_start hs
  refine ⟨hnone, ?_, ?_, ?_⟩
  · rintro fd hfd
    cases hfd
  · intro hall
    simp [hnone]
  · rintro ⟨x, hx, -⟩
    cases hx

include honce hlowest

/-- **The loop begins with descriptors that are open**, whatever the discovery has met with. -/
theorem startUp_onlyOpen (h : startUp env rounds s = .ok t) : t.OnlyOpen := by
  obtain ⟨socket, u, hu, -, -, hopened, hmaster⟩ := startUp_eq_ok h
  have hfound := discovered_of_ends (tables_start hs) (serviceDiscovery_ends honce hu) hlowest
    (length_accepts_startVisits honce)
  rw [Server.OnlyOpen, hmaster, hopened]
  refine Finset.union_subset ?_ ?_
  · rw [hfound.master]
    refine Finset.Subset.trans ?_ hfound.opened
    intro fd hfd
    simp only [hs, setUp, startLeader, Finset.mem_insert, Finset.mem_singleton] at hfd ⊢
    tauto
  · split
    · rename_i hvalid
      have hne : socket ≠ errorReturn := by
        rintro rfl
        exact absurd hvalid (by decide)
      obtain ⟨hsocket, hsuccessor, htable⟩ := hfound.found hne
      intro fd hfd
      simp only [foundSockets, List.toFinset_append, Finset.mem_union, List.mem_toFinset] at hfd
      rcases hfd with (hfd | hfd) | hfd
      · rw [List.mem_singleton.mp hfd]
        exact hsocket
      · split at hfd
        · rename_i hnamed
          rw [List.mem_singleton.mp hfd]
          refine hsuccessor.resolve_left fun heq => hnamed ?_
          rw [heq, hs]
          rfl
        · cases hfd
      · obtain ⟨hfd, -⟩ := Option.mem_filter_iff.mp (Option.mem_toList.mp hfd)
        obtain ⟨c, hc, rfl⟩ := Option.mem_map.mp hfd
        exact htable _ (List.mem_map_of_mem (List.mem_of_getElem? hc))
    · exact Finset.empty_subset _

/-- **The loop begins with an exact table exactly when the discovery has closed no connection**,
where every address is found. -/
theorem startUp_exact_iff (hnamed : ∀ c ∈ accepts (startVisits env rounds s), c.2.isSome)
    (h : startUp env rounds s = .ok t) :
    (Tracked.ofStart env rounds s t).Inv ∧ ((Tracked.ofStart env rounds s t).Exact ↔
      ∀ x ∈ startVisits env rounds s, ¬ x.2.Closes x.1) := by
  obtain ⟨socket, u, hu, hid, hclients, hopened, -⟩ := startUp_eq_ok h
  have hends := serviceDiscovery_ends honce hu
  have hlen : (accepts (startVisits env rounds s)).length ≤ maxConnection :=
    length_accepts_startVisits honce
  have hfound := discovered_of_ends (tables_start hs) hends hlowest hlen
  obtain ⟨htable, hiff⟩ := entered_of_ends (tables_start hs) (entered_start hs) hends hlowest hlen
    hnamed
  have hsame : t.tableSockets = u.tableSockets := by
    rw [Server.tableSockets, hclients]
    rfl
  refine ⟨⟨?_, Finset.inter_subset_right⟩, ?_⟩
  · show 1 ≤ t.self.id
    rw [hid, hfound.selfId, hs]
    exact (System.isId_getRadomId env).1
  · rw [← hiff]
    show t.tableSockets.Nodup ∧ (∀ fd, fd ∈ t.tableSockets ↔
      fd ∈ ((accepts (startVisits env rounds s)).map Prod.fst).toFinset ∩ t.opened) ↔ _
    rw [hsame, hopened, ← htable]
    refine and_congr_right fun _ => forall_congr' fun fd => ?_
    simp

end SetUp

end Start

/-! ## The two places -/

private def connects (fd : Socket) : Env := ⟨0, fd, fun _ _ _ => true, true, 8⟩

/-- Connection 5 is accepted, and brings the message. -/
private def startWith (fd : Socket) (message : Text) : Except Fault Server :=
  startUp (connects fd) [.ready (connects fd) [(3, .connection 5 (some (text "10.0.0.1")))],
    .ready (connects fd) [(5, .data (padX message))]]
    (setUp (connects fd) (text "10.0.0.2") 4041 3 4)

/-- A heartbeat is no reply. -/
example : (startWith 6 (heartbeat 7)).toOption.map
    (fun t => (t.tableSockets, decide (5 ∈ t.opened))) = some ([5], false) := by
  decide +kernel

/-- The successor that the reply names does not answer. -/
example : (startWith errorReturn (joinReply 7 (text "10.0.0.9") 4041 9)).toOption.map
    (fun t => (t.tableSockets, decide (5 ∈ t.opened))) = some ([5], false) := by
  decide +kernel

end ChatRing
