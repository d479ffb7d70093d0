import ChatRing.Client.Dependencies

/-!
# The node of an accepted message

`append_to_holdback_queue` on the arrays it fills: the `sender_dep_str` and `content` that
`sscanf` stores to, the `sender_dep` that `get_deps_int` stores to and that nothing has
cleared before, and the `content` of the node.

## Main results

* `getDepsInt_eq_foldlM` — the stores of `get_deps_int`, one for each field of the text.
* `exists_getDepsInt_iff` — when the array holds nothing of what it held before.
* `yieldsNode_iff` — the accepted texts that yield a well-formed node.
-/

namespace ChatRing
open CText

/-! ## The stores of `get_deps_int` -/

section Stores
variable {n : ℕ} {strArray : Text}

/-- The subscripts and the numbers that `get_deps_int` stores, in order. -/
def depsStores (strArray : Text) : List (ℕ × ℤ) :=
  (tokens ',' strArray).zipIdx.map fun (token, i) => (i, atoi token)

/-- `int_array[i] = entry` -/
def storeEntry (intArray : Fin n → ℤ) (entry : ℕ × ℤ) : Except Fault (Fin n → ℤ) :=
  if h : entry.1 < n then .ok (Function.update intArray ⟨entry.1, h⟩ entry.2)
  else .error .outOfBounds

theorem storeDeps_eq_foldlM (ts : List Text) (i : ℕ) (intArray : Fin n → ℤ) :
    storeDeps i ts intArray =
      ((ts.zipIdx i).map fun (token, i) => (i, atoi token)).foldlM storeEntry intArray := by
  induction ts generalizing i intArray with
  | nil => rfl
  | cons token ts ih =>
      rw [storeDeps, List.zipIdx_cons, List.map_cons, List.foldlM_cons, storeEntry]
      split
      · rw [ih]
        rfl
      · rfl

/-- `get_deps_int` makes these stores and no others. -/
theorem getDepsInt_eq_foldlM (strArray : Text) (intArray : Fin n → ℤ) :
    getDepsInt strArray intArray = (depsStores strArray).foldlM storeEntry intArray :=
  storeDeps_eq_foldlM _ 0 intArray

/-- The subscripts count up from 0. -/
theorem subscripts_depsStores (strArray : Text) :
    (depsStores strArray).map Prod.fst = List.range (tokens ',' strArray).length := by
  rw [depsStores, List.map_map, List.range_eq_range', ← List.zipIdx_map_snd 0]
  rfl

theorem subscripts_depsStores_eq_range_iff :
    (depsStores strArray).map Prod.fst = List.range n ↔ (tokens ',' strArray).length = n := by
  rw [subscripts_depsStores]
  exact ⟨fun h => by simpa using congrArg List.length h, fun h => by rw [h]⟩

/-- **The array holds nothing of what it held before** exactly when there is a field for every
entry, and none too many. -/
theorem exists_getDepsInt_iff :
    (∃ v : Fin n → ℤ, ∀ stale, getDepsInt strArray stale = .ok v) ↔
      (tokens ',' strArray).length = n := by
  simp only [getDepsInt_eq]
  constructor
  · rintro ⟨v, hv⟩
    have hle : (tokens ',' strArray).length ≤ n := by
      by_contra hle
      have := hv v
      rw [if_neg hle] at this
      cases this
    by_contra hne
    -- the first entry without a field keeps a number that `v` does not have there
    have hlt : (tokens ',' strArray).length < n := lt_of_le_of_ne hle hne
    have hentry := hv fun j => v j + 1
    rw [if_pos hle] at hentry
    have hj := congrFun (Except.ok.inj hentry) ⟨_, hlt⟩
    simp at hj
  · intro h
    refine ⟨fun j => atoi ((tokens ',' strArray).get (j.cast h.symm)), fun stale => ?_⟩
    rw [if_pos h.le]
    congr 1
    ext j
    simp [h]

end Stores

/-! ## The arrays of `append_to_holdback_queue` -/

/-- A field, or the whole text, stored with its NUL into an array of that size. -/
def storeField (size : ℕ) (field : Text) : Except Fault Unit :=
  if field.length < size then .ok () else .error .outOfBounds

/-- `append_to_holdback_queue`, on the arrays: `sscanf` stores to `sender_dep_str` and to
`content`, and `memcpy` to the `content` of the node. -/
def appendToHoldbackQueueIn (stale : Clock) (head : List HoldBackQueue) (cleanMessage : Text) :
    Except Fault (List HoldBackQueue) := do
  forM (scannedDeps cleanMessage) (storeField (DepsReader.size .appendToHoldbackQueue))
  forM (scanGroup cleanMessage) fun f => do
    storeField bufferSize f.message
    storeField bufferSize cleanMessage
  appendToHoldbackQueue stale head cleanMessage

/-- An accepted text yields a well-formed node. -/
structure YieldsNode (cleanMessage : Text) : Prop where
  /-- `get_deps_int` stores to every entry of `sender_dep`, and nowhere else. -/
  stores : ∀ f, scanGroup cleanMessage = some f →
    (depsStores f.deps).map Prod.fst = List.range maxGroupSize
  /-- The same node goes to the end of every queue, whatever `sender_dep` held. -/
  node : ∃ m : HoldBackQueue, InRange m.clkIndex ∧
    ∀ stale head, appendToHoldbackQueueIn stale head cleanMessage = .ok (head ++ [m])

section Accepted
variable {cleanMessage : Text} {f : GroupFields} {stale : Clock} {head : List HoldBackQueue}

theorem sscanf_of_scanGroup (h : scanGroup cleanMessage = some f) :
    sscanf cleanMessage groupFormat =
      [.int f.groupId, .int f.senderId, .int f.senderClkIndex, .str f.deps, .str f.message] := by
  rw [scanGroup] at h
  split at h
  · rename_i hscan
    cases h
    exact hscan
  · cases h

theorem scannedDeps_of_scanGroup (h : scanGroup cleanMessage = some f) :
    scannedDeps cleanMessage = some f.deps := by
  rw [scannedDeps, sscanf_of_scanGroup h]

/-- The word of the line is a part of the text. -/
theorem length_message_le_of_scanGroup (h : scanGroup cleanMessage = some f) :
    f.message.length ≤ cleanMessage.length := by
  have hmem : .str f.message ∈ scan (format groupFormat) cleanMessage := by
    rw [← sscanf, sscanf_of_scanGroup h]
    simp
  exact (infix_of_mem_scan hmem).length_le

theorem storeField_eq_ok_iff {size : ℕ} {field : Text} {u : Unit} :
    storeField size field = .ok u ↔ field.length < size := by
  rw [storeField]
  split
  · rename_i hlt
    exact iff_of_true rfl hlt
  · rename_i hle
    exact iff_of_false (fun h => Except.ok_ne_error h.symm) hle

theorem storeField_of_lt {size : ℕ} {field : Text} (h : field.length < size) :
    storeField size field = .ok () := storeField_eq_ok_iff.mpr h

/-- An accepted text is appended when it fits the arrays and so do its fields. -/
theorem appendToHoldbackQueueIn_eq_ok_iff (h : scanGroup cleanMessage = some f)
    {q : List HoldBackQueue} :
    appendToHoldbackQueueIn stale head cleanMessage = .ok q ↔
      f.deps.length < DepsReader.size .appendToHoldbackQueue ∧
        cleanMessage.length < bufferSize ∧
          appendToHoldbackQueue stale head cleanMessage = .ok q := by
  have hword := length_message_le_of_scanGroup h
  rw [appendToHoldbackQueueIn, scannedDeps_of_scanGroup h, h]
  constructor
  · intro hq
    obtain ⟨u, hdeps, hq⟩ := Except.bind_eq_ok.mp hq
    obtain ⟨u', hcontent, hq⟩ := Except.bind_eq_ok.mp hq
    obtain ⟨u'', -, hclean⟩ := Except.bind_eq_ok.mp hcontent
    exact ⟨storeField_eq_ok_iff.mp hdeps, storeField_eq_ok_iff.mp hclean, hq⟩
  · rintro ⟨hdeps, hclean, hq⟩
    simp only [Option.forM_some, storeField_of_lt hdeps, storeField_of_lt hclean,
      storeField_of_lt (hword.trans_lt hclean), Except.ok_bind]
    exact hq

theorem appendToHoldbackQueue_of_scanGroup (h : scanGroup cleanMessage = some f) :
    appendToHoldbackQueue stale head cleanMessage =
      (getDepsInt f.deps stale).map fun senderDep =>
        head ++ [⟨f.senderId, f.senderClkIndex, cleanMessage, senderDep⟩] := by
  rw [appendToHoldbackQueue, h]
  rfl

/-- **The accepted texts that yield a well-formed node**: those whose clock index is in range
and whose vector has ten fields, as long as the vector and the text fit their arrays. -/
theorem yieldsNode_iff (h : scanGroup cleanMessage = some f) :
    YieldsNode cleanMessage ↔
      InRange f.senderClkIndex ∧ (tokens ',' f.deps).length = maxGroupSize ∧
        f.deps.length < DepsReader.size .appendToHoldbackQueue ∧
          cleanMessage.length < bufferSize := by
  constructor
  · rintro ⟨hstores, m, hclk, hm⟩
    obtain ⟨hdeps, hclean, happend⟩ := (appendToHoldbackQueueIn_eq_ok_iff h).mp (hm 0 [])
    rw [appendToHoldbackQueue_of_scanGroup h] at happend
    obtain ⟨senderDep, -, hnode⟩ := Except.map_eq_ok.mp happend
    obtain rfl : (⟨f.senderId, f.senderClkIndex, cleanMessage, senderDep⟩ : HoldBackQueue) = m := by
      simpa using hnode
    exact ⟨hclk, subscripts_depsStores_eq_range_iff.mp (hstores f h), hdeps, hclean⟩
  · rintro ⟨hclk, hfields, hdeps, hclean⟩
    obtain ⟨v, hv⟩ := exists_getDepsInt_iff.mpr hfields
    refine ⟨fun f' hf' => ?_, ⟨f.senderId, f.senderClkIndex, cleanMessage, v⟩, hclk,
      fun stale head => ?_⟩
    · obtain rfl := Option.some.inj (h.symm.trans hf')
      exact subscripts_depsStores_eq_range_iff.mpr hfields
    · refine (appendToHoldbackQueueIn_eq_ok_iff h).mpr ⟨hdeps, hclean, ?_⟩
      rw [appendToHoldbackQueue_of_scanGroup h, hv]
      rfl

end Accepted

/-- What a member with clock index 3 sends first. -/
private def firstMessage : Text := text
  "\n\tGROUP_ID:0\n\tSENDER_ID:7\n\tSENDER_CLK_INDEX:3\n\tDEPS:0,0,0,0,0,0,0,0,0,0\n\tMESSAGE:hi"

theorem firstMessage_yieldsNode : YieldsNode firstMessage :=
  (yieldsNode_iff (f := ⟨0, 7, 3, text "0,0,0,0,0,0,0,0,0,0", text "hi"⟩) (by decide +kernel)).mpr
    (by decide +kernel)

/-- A clock index outside the arrays, and a vector of one field. -/
private def shortMessage : Text := text
  "\n\tGROUP_ID:0\n\tSENDER_ID:7\n\tSENDER_CLK_INDEX:99\n\tDEPS:1\n\tMESSAGE:hi"

/-- It is accepted, and nine entries of the node are what `sender_dep` held. -/
theorem shortMessage_not_yieldsNode :
    scanGroup shortMessage = some ⟨0, 7, 99, text "1", text "hi"⟩ ∧
      (∀ stale, appendToHoldbackQueueIn stale [] shortMessage =
        .ok [⟨7, 99, shortMessage, Function.update stale 0 1⟩]) ∧ ¬ YieldsNode shortMessage := by
  have hscan : scanGroup shortMessage = some ⟨0, 7, 99, text "1", text "hi"⟩ := by decide +kernel
  refine ⟨hscan, fun stale => ?_, fun hyields => absurd (hyields.stores _ hscan) (by decide)⟩
  refine (appendToHoldbackQueueIn_eq_ok_iff hscan).mpr ⟨by decide, by decide +kernel, ?_⟩
  rw [appendToHoldbackQueue_of_scanGroup hscan]
  have hdeps : getDepsInt (text "1") stale = .ok (Function.update stale 0 1) := rfl
  rw [hdeps]
  rfl

end ChatRing
