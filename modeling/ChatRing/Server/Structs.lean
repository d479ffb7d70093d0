import ChatRing.Wire
import Mathlib.Data.List.Sort

/-!
# The list of known servers

`server_struct.c`.  `connected_peers` is never NULL once `main` has created the
record of the process itself, so a list is given by its head and the list of the
records after it, `next`.  A function that returns a pointer to a record for the sake
of its `next` field returns the position of that record in `head :: next` instead.

`display_server` only prints, and the `TcpClient` list of this file is never used.
-/

namespace ChatRing
open CText

/-- A SOCKET; `error_return` stands for none. -/
abbrev Socket := ℤ

def errorReturn : Socket := -1

/-- `ISVALIDSOCKET(s)` -/
def IsValidSocket (s : Socket) : Prop := 0 ≤ s

instance (s : Socket) : Decidable (IsValidSocket s) := inferInstanceAs (Decidable (_ ≤ _))

structure ServerInfo where
  id : ℤ
  addr : Text
  port : ℤ
  leader : ℤ
  tcpSocket : Socket
  lastHeartbeat : ℤ
  deriving DecidableEq

/-- `create_server` at time `now`. -/
def createServer (now id : ℤ) (address : Text) (port leader : ℤ) (tcpSocket : Socket) :
    ServerInfo := ⟨id, address, port, leader, tcpSocket, now⟩

def serverInfoExist (id : ℤ) (head : ServerInfo) (next : List ServerInfo) : Prop :=
  ∃ s ∈ head :: next, s.id = id

instance (id : ℤ) (head : ServerInfo) (next : List ServerInfo) :
    Decidable (serverInfoExist id head next) :=
  inferInstanceAs (Decidable (∃ s ∈ head :: next, s.id = id))

/-- `append_server`: a known ID is ignored. -/
def appendServer (now : ℤ) (head : ServerInfo) (next : List ServerInfo) (id : ℤ) (address : Text)
    (port leader : ℤ) (tcpSocket : Socket) : List ServerInfo :=
  if serverInfoExist id head next then next
  else next ++ [createServer now id address port leader tcpSocket]

/-- `delete_server`: drop the first record after the head that has the ID.  The loop
looks at `current->next->ID` before it knows that there is a next record, so an ID
that is not in the list makes it read through NULL.  It returns 1 when it returns. -/
def deleteServer : List ServerInfo → ℤ → Except Fault (List ServerInfo)
  | [], _ => .error .nullDeref
  | s :: next, id => if s.id = id then .ok next else (deleteServer next id).map (s :: ·)

/-- The loop of `append_server_sorted`: the new record goes before the first one
with a larger ID, or to the end.  The store after the loop repeats the one in it. -/
def insertSorted (new : ServerInfo) : List ServerInfo → List ServerInfo
  | [] => [new]
  | s :: next => if s.id > new.id then new :: s :: next else s :: insertSorted new next

/-- `append_server_sorted`: a known ID is ignored, and the head takes no part in
the order. -/
def appendServerSorted (now : ℤ) (head : ServerInfo) (next : List ServerInfo) (id : ℤ)
    (address : Text) (port leader : ℤ) (tcpSocket : Socket) : List ServerInfo :=
  if serverInfoExist id head next then next
  else insertSorted (createServer now id address port leader tcpSocket) next

/-- `ist_peer_server`: the record before the first one with this socket. -/
def istPeerServer (sockfd : Socket) (head : ServerInfo) (next : List ServerInfo) : Option ℕ :=
  if head.leader ≠ 1 then none else next.findIdx? fun s => s.tcpSocket = sockfd

/-- `get_successor`: the first record with a larger ID, else the first record. -/
def getSuccessor (id : ℤ) (next : List ServerInfo) : Option ServerInfo :=
  (next.find? fun s => s.id > id).or next.head?

/-- `get_predecessor`: the record before the first one with this ID. -/
def getPredecessor (id : ℤ) (next : List ServerInfo) : Option ℕ :=
  next.findIdx? fun s => s.id = id

/-- `get_last_server` -/
def getLastServer (head : ServerInfo) (next : List ServerInfo) : ServerInfo :=
  next.getLastD head

/-- `update_heartbeat_timeout`: the first record with this ID is alive now. -/
def updateHeartbeatTimeout (now : ℤ) : List ServerInfo → ℤ → List ServerInfo
  | [], _ => []
  | s :: next, id =>
      if s.id = id then { s with lastHeartbeat := now } :: next
      else s :: updateHeartbeatTimeout now next id

/-- The position of the first record with a property. -/
theorem findIdx?_append_cons {a b : List ServerInfo} {x : ServerInfo} {p : ServerInfo → Bool}
    (ha : ∀ y ∈ a, p y = false) (hx : p x = true) :
    (a ++ x :: b).findIdx? p = some a.length := by
  induction a with
  | nil => simp [List.findIdx?_cons, hx]
  | cons y a ih =>
      rw [List.cons_append, List.findIdx?_cons, ha y (by simp), ih fun z hz => ha z (by simp [hz])]
      rfl

theorem findIdx?_eq_some {l : List ServerInfo} {p : ServerInfo → Bool} {k : ℕ}
    (h : l.findIdx? p = some k) :
    ∃ a x b, l = a ++ x :: b ∧ a.length = k ∧ p x = true ∧ ∀ y ∈ a, p y = false := by
  induction l generalizing k with
  | nil => cases h
  | cons y l ih =>
      rw [List.findIdx?_cons] at h
      split at h
      · rename_i hy
        cases h
        exact ⟨[], y, l, rfl, rfl, hy, by simp⟩
      · rename_i hy
        obtain ⟨k', hk', rfl⟩ := Option.map_eq_some_iff.mp h
        obtain ⟨a, x, b, rfl, rfl, hx, ha⟩ := ih hk'
        refine ⟨y :: a, x, b, rfl, rfl, hx, ?_⟩
        intro z hz
        rcases List.mem_cons.mp hz with rfl | hz
        · exact Bool.eq_false_of_not_eq_true hy
        · exact ha z hz

/-- The record before position `a.length`: the last one of `a`. -/
theorem getD_cons_append {a : List ServerInfo} (ha : a ≠ []) (head d : ServerInfo)
    (b : List ServerInfo) : (head :: (a ++ b)).getD a.length d = a.getLastD d := by
  obtain ⟨l, y, rfl⟩ := List.eq_nil_or_concat a |>.resolve_left ha
  simp

/-! ## Entering a record -/

theorem appendServer_nil {now id port leader : ℤ} {head : ServerInfo} {address : Text}
    {tcpSocket : Socket} : appendServer now head [] id address port leader tcpSocket =
      if id = head.id then [] else [createServer now id address port leader tcpSocket] := by
  have hexist : serverInfoExist id head [] ↔ id = head.id := by
    simp [serverInfoExist, eq_comm]
  rw [appendServer]
  simp only [hexist]
  rfl

theorem appendServer_singleton {now id port leader : ℤ} {head x : ServerInfo} {address : Text}
    {tcpSocket : Socket} : appendServer now head [x] id address port leader tcpSocket =
      if id = head.id ∨ id = x.id then [x]
      else [x, createServer now id address port leader tcpSocket] := by
  have hexist : serverInfoExist id head [x] ↔ id = head.id ∨ id = x.id := by
    simp [serverInfoExist, eq_comm]
  rw [appendServer]
  simp only [hexist]
  rfl

/-! ## Removing a record -/

theorem deleteServer_append {a b : List ServerInfo} {s : ServerInfo}
    (h : ∀ t ∈ a, t.id ≠ s.id) : deleteServer (a ++ s :: b) s.id = .ok (a ++ b) := by
  induction a with
  | nil => simp [deleteServer]
  | cons t a ih =>
      have ht : t.id ≠ s.id := h t (by simp)
      rw [List.cons_append, deleteServer, if_neg ht, ih fun u hu => h u (by simp [hu])]
      rfl

/-- The function returns exactly when the ID is in the list. -/
theorem deleteServer_eq_ok {next rest : List ServerInfo} {id : ℤ}
    (h : deleteServer next id = .ok rest) :
    ∃ a s b, next = a ++ s :: b ∧ rest = a ++ b ∧ s.id = id ∧ ∀ t ∈ a, t.id ≠ id := by
  induction next generalizing rest with
  | nil => cases h
  | cons t next ih =>
      rw [deleteServer] at h
      split at h
      · rename_i ht
        cases h
        exact ⟨[], t, next, rfl, rfl, ht, by simp⟩
      · rename_i ht
        cases hd : deleteServer next id with
        | error e => rw [hd] at h; cases h
        | ok r =>
            rw [hd] at h
            cases h
            obtain ⟨a, s, b, rfl, rfl, hs, ha⟩ := ih hd
            refine ⟨t :: a, s, b, rfl, rfl, hs, ?_⟩
            intro u hu
            rcases List.mem_cons.mp hu with rfl | hu
            · exact ht
            · exact ha u hu

theorem deleteServer_head (s : ServerInfo) (next : List ServerInfo) :
    deleteServer (s :: next) s.id = .ok next := by simp [deleteServer]

/-- The ID of a record of the list is found. -/
theorem deleteServer_of_mem {next : List ServerInfo} {x : ServerInfo} (h : x ∈ next) :
    ∃ rest, deleteServer next x.id = .ok rest := by
  induction next with
  | nil => cases h
  | cons y next ih =>
      rw [deleteServer]
      split
      · exact ⟨next, rfl⟩
      · rename_i hne
        obtain rfl | h := List.mem_cons.mp h
        · exact absurd rfl hne
        · obtain ⟨rest, hrest⟩ := ih h
          exact ⟨y :: rest, by rw [hrest]; rfl⟩

/-- An ID that no record has makes the function read through NULL. -/
theorem deleteServer_of_forall_ne {next : List ServerInfo} {id : ℤ} (h : ∀ s ∈ next, s.id ≠ id) :
    deleteServer next id = .error .nullDeref := by
  induction next with
  | nil => rfl
  | cons t next ih =>
      rw [deleteServer, if_neg (h t List.mem_cons_self),
        ih fun s hs => h s (List.mem_cons_of_mem t hs)]
      rfl

/-- `delete_server`, with the value it returns, for the records from `current` on. -/
def deleteServerFrom : List ServerInfo → ℤ → Except Fault (ℤ × List ServerInfo)
  | [], _ => .ok (0, [])
  | [_], _ => .error .nullDeref
  | current :: next :: rest, id =>
      if next.id = id then .ok (1, current :: rest)
      else (deleteServerFrom (next :: rest) id).map fun r => (r.1, current :: r.2)

/-- The head stays, and the only value returned is 1. -/
theorem deleteServerFrom_cons (head : ServerInfo) (next : List ServerInfo) (id : ℤ) :
    deleteServerFrom (head :: next) id =
      (deleteServer next id).map fun rest => (1, head :: rest) := by
  induction next generalizing head with
  | nil => rfl
  | cons t next ih =>
      rw [deleteServerFrom, deleteServer]
      split
      · rfl
      · rw [ih]
        cases deleteServer next id <;> rfl

/-- What `delete_server` is for: the first record after the head that has the ID goes, and
1 is returned; without such a record the list stays, and 0 is returned. -/
def Deletes (head : ServerInfo) (next : List ServerInfo) (id : ℤ) : Prop :=
  ∃ value rest, deleteServerFrom (head :: next) id = .ok (value, head :: rest) ∧
    ((∃ a s b, next = a ++ s :: b ∧ s.id = id ∧ (∀ t ∈ a, t.id ≠ id) ∧ rest = a ++ b ∧ value = 1) ∨
      (∀ s ∈ next, s.id ≠ id) ∧ rest = next ∧ value = 0)

/-- **`delete_server` does what it is for if and only if the ID is there.** -/
theorem deletes_iff (head : ServerInfo) (next : List ServerInfo) (id : ℤ) :
    Deletes head next id ↔ ∃ s ∈ next, s.id = id := by
  rw [Deletes, deleteServerFrom_cons]
  constructor
  · rintro ⟨value, rest, hdelete, -⟩
    by_contra hnone
    push Not at hnone
    rw [deleteServer_of_forall_ne hnone] at hdelete
    cases hdelete
  · rintro ⟨s, hs, rfl⟩
    obtain ⟨rest, hrest⟩ := deleteServer_of_mem hs
    obtain ⟨a, t, b, hnext, heq, ht, ha⟩ := deleteServer_eq_ok hrest
    refine ⟨1, rest, by rw [hrest]; rfl, Or.inl ⟨a, t, b, hnext, ht, ha, heq, rfl⟩⟩

/-- The leader 7 knows no other server; `handle_udp_recieve` deletes ID 0. -/
theorem delete_absent_reads_null :
    deleteServerFrom [⟨7, text "127.0.0.1", 4041, 1, 3, 0⟩] 0 = .error .nullDeref ∧
      ¬ Deletes ⟨7, text "127.0.0.1", 4041, 1, 3, 0⟩ [] 0 := by
  refine ⟨rfl, ?_⟩
  rintro ⟨value, rest, hdelete, -⟩
  cases hdelete

/-! ## Ascending lists -/

/-- The records stand in strictly ascending order of their IDs. -/
def Ascending (next : List ServerInfo) : Prop := next.Pairwise fun s t => s.id < t.id

instance (next : List ServerInfo) : Decidable (Ascending next) :=
  inferInstanceAs (Decidable (List.Pairwise _ _))

@[simp] theorem mem_insertSorted {new s : ServerInfo} {next : List ServerInfo} :
    s ∈ insertSorted new next ↔ s = new ∨ s ∈ next := by
  induction next with
  | nil => simp [insertSorted]
  | cons t next ih =>
      rw [insertSorted]
      split
      · simp
      · simp only [List.mem_cons, ih]
        exact or_left_comm

/-- The records before the place of the ID. -/
def smaller (id : ℤ) (next : List ServerInfo) : List ServerInfo :=
  next.takeWhile fun s => s.id < id

/-- The records from the place of the ID on. -/
def larger (id : ℤ) (next : List ServerInfo) : List ServerInfo :=
  next.dropWhile fun s => s.id < id

theorem smaller_append_larger (id : ℤ) (next : List ServerInfo) :
    smaller id next ++ larger id next = next := List.takeWhile_append_dropWhile

theorem lt_of_mem_smaller {id : ℤ} {next : List ServerInfo} :
    ∀ s ∈ smaller id next, s.id < id := by
  intro s hs
  simpa using List.mem_takeWhile_imp hs

theorem le_head_larger {id : ℤ} {next : List ServerInfo} :
    ∀ s ∈ (larger id next).head?, id ≤ s.id := by
  intro s hs
  have hnot := List.head?_dropWhile_not (fun s : ServerInfo => s.id < id) next
  rw [Option.mem_def, larger] at hs
  rw [hs] at hnot
  simpa using hnot

/-- **The insertion splits the list at the place of a new ID.** -/
theorem insertSorted_of_new {new : ServerInfo} {next : List ServerInfo}
    (hnew : ∀ s ∈ next, s.id ≠ new.id) :
    insertSorted new next = smaller new.id next ++ new :: larger new.id next := by
  induction next with
  | nil => rfl
  | cons t next ih =>
      have hne : t.id ≠ new.id := hnew t (by simp)
      rw [insertSorted, smaller, larger, List.takeWhile_cons, List.dropWhile_cons]
      by_cases hgt : t.id > new.id
      · have hnot : ¬ t.id < new.id := by omega
        simp [hgt, hnot]
      · have hlt : t.id < new.id := by omega
        rw [if_neg hgt, ih fun s hs => hnew s (by simp [hs])]
        simp [hlt, smaller, larger]

theorem Ascending.lt_of_mem_larger {id : ℤ} {next : List ServerInfo} (h : Ascending next)
    (hnew : ∀ s ∈ next, s.id ≠ id) : ∀ s ∈ larger id next, id < s.id := by
  have hlarger : Ascending (larger id next) := h.sublist (List.dropWhile_sublist _)
  have hsub : ∀ s ∈ larger id next, s ∈ next := (List.dropWhile_sublist _).subset
  have hhead : ∀ s ∈ (larger id next).head?, id ≤ s.id := le_head_larger
  cases hl : larger id next with
  | nil => simp
  | cons t rest =>
      rw [hl] at hlarger hsub hhead
      have ht : id < t.id :=
        lt_of_le_of_ne (hhead t rfl) (Ne.symm (hnew t (hsub t List.mem_cons_self)))
      intro s hs
      rcases List.mem_cons.mp hs with rfl | hs
      · exact ht
      · exact ht.trans ((List.pairwise_cons.mp hlarger).1 s hs)

theorem ascending_split {a b : List ServerInfo} {new : ServerInfo} (h : Ascending (a ++ b))
    (ha : ∀ s ∈ a, s.id < new.id) (hb : ∀ s ∈ b, new.id < s.id) :
    Ascending (a ++ new :: b) := by
  obtain ⟨hpa, hpb, hab⟩ := List.pairwise_append.mp h
  refine List.pairwise_append.mpr ⟨hpa, List.pairwise_cons.mpr ⟨hb, hpb⟩, ?_⟩
  intro s hs t ht
  rcases List.mem_cons.mp ht with rfl | ht
  · exact ha s hs
  · exact hab s hs t ht

/-- No two records of an ascending list share an ID. -/
theorem Ascending.id_ne_of_append {a b : List ServerInfo} {s : ServerInfo}
    (h : Ascending (a ++ s :: b)) : ∀ t ∈ a ++ b, t.id ≠ s.id := by
  intro t ht
  obtain ⟨-, hsb, hab⟩ := List.pairwise_append.mp h
  rcases List.mem_append.mp ht with ht | ht
  · exact (hab t ht s (by simp)).ne
  · exact ((List.pairwise_cons.mp hsb).1 t ht).ne'

/-- The record with its heartbeat set to `now`, when it has the ID. -/
def ServerInfo.beat (now id : ℤ) (s : ServerInfo) : ServerInfo :=
  if s.id = id then { s with lastHeartbeat := now } else s

@[simp] theorem ServerInfo.beat_id (now id : ℤ) (s : ServerInfo) : (s.beat now id).id = s.id := by
  rw [ServerInfo.beat]
  split <;> rfl

@[simp] theorem ServerInfo.beat_addr (now id : ℤ) (s : ServerInfo) :
    (s.beat now id).addr = s.addr := by
  rw [ServerInfo.beat]
  split <;> rfl

@[simp] theorem ServerInfo.beat_port (now id : ℤ) (s : ServerInfo) :
    (s.beat now id).port = s.port := by
  rw [ServerInfo.beat]
  split <;> rfl

@[simp] theorem ServerInfo.beat_tcpSocket (now id : ℤ) (s : ServerInfo) :
    (s.beat now id).tcpSocket = s.tcpSocket := by
  rw [ServerInfo.beat]
  split <;> rfl

/-- In an ascending list a heartbeat changes the one record with the ID. -/
theorem updateHeartbeatTimeout_eq_map {now id : ℤ} {next : List ServerInfo} (h : Ascending next) :
    updateHeartbeatTimeout now next id = next.map (ServerInfo.beat now id) := by
  induction next with
  | nil => rfl
  | cons s next ih =>
      obtain ⟨hs, hnext⟩ := List.pairwise_cons.mp h
      rw [updateHeartbeatTimeout, List.map_cons]
      by_cases hid : s.id = id
      · have hrest : next.map (ServerInfo.beat now id) = next := by
          refine (List.map_congr_left ?_).trans (List.map_id next)
          intro t ht
          have hne : t.id ≠ id := by
            have := hs t ht
            omega
          rw [ServerInfo.beat, if_neg hne]
          rfl
        rw [if_pos hid, hrest, ServerInfo.beat, if_pos hid]
      · rw [if_neg hid, ih hnext, ServerInfo.beat, if_neg hid]

theorem Ascending.map_beat {now id : ℤ} {next : List ServerInfo} (h : Ascending next) :
    Ascending (next.map (ServerInfo.beat now id)) := by
  rw [Ascending, List.pairwise_map]
  simpa [Ascending] using h

end ChatRing
