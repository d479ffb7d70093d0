import ChatRing.Client.Group
import ChatRing.Lib.CArray
import Mathlib.Algebra.BigOperators.Fin

/-!
# The buffers of a dependency vector

`get_deps_str` on the array it writes, and the arrays that its text passes through: the
sender prints it into `DEPENDENCY_STR` and into `message`, and three functions of a receiver
scan it with `%s`, each into a `sender_dep_str` of its own.

## Main results

* `getDepsStrIn_isSome_iff` — `get_deps_str` stays in its array exactly when the text fits
  with its last comma.
* `deps_round_trip` — `get_deps_int` reads back what `get_deps_str` wrote.
* `Client.deps_never_fit` — which of the arrays are large enough, and that never all of them are.
-/

namespace ChatRing
open CText CArray

section Array
variable {n : ℕ}

/-- The loop of `get_deps_str`: `buf[12]` takes an entry and its comma. -/
def appendDeps : List ℤ → Text → Option Text
  | [], strArray => some strArray
  | entry :: rest, strArray => do
      let buf ← sprintfInto 12 (sprintf "%d," [.int entry])
      let strArray ← strcat strArray buf
      appendDeps rest strArray

/-- `get_deps_str`, on the array. -/
def getDepsStrIn (intArray : Fin n → ℤ) (strArray : Text) : Option Text := do
  let strArray ← appendDeps (List.ofFn intArray) strArray
  store strArray ((cstr strArray).length - 1) '\x00'

/-- The text before the last comma is removed. -/
def printedDeps (l : List ℤ) : Text := l.flatMap fun entry => intText entry ++ [',']

@[simp] theorem printedDeps_nil : printedDeps [] = [] := rfl

@[simp] theorem printedDeps_cons (entry : ℤ) (l : List ℤ) :
    printedDeps (entry :: l) = intText entry ++ [','] ++ printedDeps l := rfl

theorem getDepsStr_eq_dropLast (v : Fin n → ℤ) :
    getDepsStr v = (printedDeps (List.ofFn v)).dropLast := by
  have hfold : ∀ (l : List (Fin n)) (s : Text),
      l.foldl (fun str i => str ++ (intText (v i) ++ [','])) s = s ++ printedDeps (l.map v) := by
    intro l
    induction l with
    | nil => simp
    | cons i l ih =>
        intro s
        rw [List.foldl_cons, ih, List.map_cons, printedDeps_cons, List.append_assoc]
  rw [getDepsStr, hfold, List.nil_append, List.ofFn_eq_map]

theorem length_printedDeps (v : Fin n → ℤ) :
    (printedDeps (List.ofFn v)).length = ∑ i, ((intText (v i)).length + 1) := by
  simp [printedDeps, List.length_flatMap, List.map_ofFn, List.sum_ofFn, Function.comp_def]

/-- Every entry has a digit and a comma. -/
theorem le_length_printedDeps (l : List ℤ) : 2 * l.length ≤ (printedDeps l).length := by
  induction l with
  | nil => simp
  | cons entry l ih =>
      have hpos := List.length_pos_iff.mpr (intText_ne_nil entry)
      simp only [printedDeps_cons, List.length_append, List.length_cons, List.length_nil]
      omega

theorem length_getDepsStr (hn : 0 < n) (v : Fin n → ℤ) :
    (getDepsStr v).length + 1 = (printedDeps (List.ofFn v)).length := by
  have hle := le_length_printedDeps (List.ofFn v)
  rw [List.length_ofFn] at hle
  rw [getDepsStr_eq_dropLast, List.length_dropLast]
  omega

theorem sprintf_entry (entry : ℤ) : sprintf "%d," [.int entry] = intText entry ++ [','] := by
  have hformat : format "%d," = [.int, .lit ','] := rfl
  rw [sprintf, hformat, print_int]
  rfl

variable {a s : Text} {l : List ℤ}

/-- The loop writes within the array as long as the text fits with its NUL. -/
theorem appendDeps_of_lt (h : Holds a s) (hl : ∀ entry ∈ l, (intText entry).length ≤ 10)
    (hlen : s.length + (printedDeps l).length < a.length) :
    ∃ b, appendDeps l a = some b ∧ Holds b (s ++ printedDeps l) ∧ b.length = a.length := by
  induction l generalizing a s with
  | nil => exact ⟨a, rfl, by simpa using h, rfl⟩
  | cons entry l ih =>
      have hentry := hl entry List.mem_cons_self
      have hbuf : sprintfInto 12 (sprintf "%d," [.int entry]) = some (intText entry ++ [',']) := by
        rw [sprintf_entry, sprintfInto, if_pos]
        simp only [List.length_append, List.length_cons, List.length_nil]
        omega
      rw [printedDeps_cons, List.length_append] at hlen
      have hnul : '\x00' ∉ intText entry ++ [','] := by simp [not_nul_of_mem_intText]
      obtain ⟨b, hb, hholds, hblen⟩ := h.strcat hnul (by omega)
      rw [← hblen] at hlen
      obtain ⟨b', hb', hholds', hblen'⟩ := ih hholds
        (fun x hx => hl x (List.mem_cons_of_mem entry hx))
        (by rw [List.length_append]; omega)
      refine ⟨b', ?_, by simpa using hholds', hblen'.trans hblen⟩
      rw [appendDeps, hbuf, Option.bind_eq_bind, Option.bind_some, hb]
      exact hb'

/-- Otherwise some `strcat` leaves it. -/
theorem appendDeps_of_le (h : Holds a s) (hlen : a.length ≤ s.length + (printedDeps l).length) :
    appendDeps l a = none := by
  induction l generalizing a s with
  | nil =>
      have := h.2
      simp only [printedDeps_nil, List.length_nil] at hlen
      omega
  | cons entry l ih =>
      rw [appendDeps, sprintf_entry, sprintfInto]
      split
      · rw [Option.bind_eq_bind, Option.bind_some]
        rw [printedDeps_cons, List.length_append] at hlen
        have hnul : '\x00' ∉ intText entry ++ [','] := by simp [not_nul_of_mem_intText]
        by_cases hfits : s.length + (intText entry ++ [',']).length < a.length
        · obtain ⟨b, hb, hholds, hblen⟩ := h.strcat hnul hfits
          rw [hb, Option.bind_some]
          refine ih hholds ?_
          rw [hblen, List.length_append]
          omega
        · rw [h.strcat_eq_none (by omega)]
          rfl
      · rfl

/-- A vector whose text fits, into an array that holds the empty string. -/
theorem getDepsStrIn_of_lt (hn : 0 < n) {v : Fin n → ℤ} (hv : ∀ i, (intText (v i)).length ≤ 10)
    (h : Holds a []) (hlen : (printedDeps (List.ofFn v)).length < a.length) :
    ∃ b, getDepsStrIn v a = some b ∧ Holds b (getDepsStr v) ∧ b.length = a.length := by
  have hentries : ∀ entry ∈ List.ofFn v, (intText entry).length ≤ 10 := by
    intro entry hentry
    obtain ⟨i, rfl⟩ := (List.mem_ofFn' v entry).mp hentry
    exact hv i
  obtain ⟨b, hb, hholds, hblen⟩ := appendDeps_of_lt h hentries (by simpa using hlen)
  rw [List.nil_append] at hholds
  have hne : printedDeps (List.ofFn v) ≠ [] := by
    rw [← List.length_pos_iff, ← length_getDepsStr hn]
    omega
  obtain ⟨b', hb', hholds', hblen'⟩ := hholds.store_last hne
  refine ⟨b', ?_, getDepsStr_eq_dropLast v ▸ hholds', hblen'.trans hblen⟩
  rw [getDepsStrIn, hb, Option.bind_eq_bind, Option.bind_some, hholds.1]
  exact hb'

/-- **`get_deps_str` stays in its array exactly when the text fits**, with the last comma and
the NUL. -/
theorem getDepsStrIn_isSome_iff (hn : 0 < n) {v : Fin n → ℤ}
    (hv : ∀ i, (intText (v i)).length ≤ 10) (h : Holds a []) :
    (getDepsStrIn v a).isSome ↔ (getDepsStr v).length + 1 < a.length := by
  rw [length_getDepsStr hn]
  constructor
  · intro hsome
    by_contra hlen
    rw [getDepsStrIn, appendDeps_of_le h (by simpa using hlen)] at hsome
    cases hsome
  · intro hlen
    obtain ⟨b, hb, -⟩ := getDepsStrIn_of_lt hn hv h hlen
    rw [hb]
    rfl

/-- **Round trip of a vector.**  `get_deps_int` reads back every entry that `get_deps_str`
wrote into an empty string, and nothing behind the last one. -/
theorem deps_round_trip {m : ℕ} (hn : 1 ≤ n) (hm : n ≤ m) {v : Fin n → ℤ}
    (hv : ∀ i, 0 ≤ v i ∧ v i ≤ 2 ^ 31 - 1) {strArray : Text} (hempty : strArray.head? = some '\x00')
    (hlarge : ∑ i, ((intText (v i)).length + 1) < strArray.length) (intArray : Fin m → ℤ) :
    ∃ str, getDepsStrIn v strArray = some str ∧
      getDepsInt (cstr str) intArray =
        .ok fun j => if h : (j : ℕ) < n then v ⟨j, h⟩ else intArray j := by
  have hint : ∀ i, IsInt (v i) := by
    intro i
    obtain ⟨h₁, h₂⟩ := hv i
    constructor <;> omega
  rw [← length_printedDeps] at hlarge
  obtain ⟨str, hstr, hholds, -⟩ := getDepsStrIn_of_lt hn
    (fun i => (hint i).length_le_of_nonneg (hv i).1) (holds_nil hempty) hlarge
  refine ⟨str, hstr, ?_⟩
  rw [hholds.1]
  exact getDepsInt_getDepsStr_of_le hn hm hint intArray

/-- Ten entries, the last of which is the largest `int`. -/
private def tenEntries : Fin 10 → ℤ := fun i => if i = 9 then 2 ^ 31 - 1 else i

theorem deps_round_trip_ten :
    ∃ str, getDepsStrIn tenEntries (List.replicate 31 '\x00') = some str ∧
      getDepsInt (cstr str) (fun _ : Fin 12 => 7) =
        .ok fun j => if h : (j : ℕ) < 10 then tenEntries ⟨j, h⟩ else 7 :=
  deps_round_trip (by decide) (by decide) (by decide) rfl (by decide +kernel) _

end Array

/-! ## The arrays of the sender and of a receiver -/

/-- `sizeof(DEPENDENCY_STR)` -/
def dependencyStrSize : ℕ := maxGroupSize * 5

/-- The functions that scan a message with `DEPS:%s`. -/
inductive DepsReader
  | handleGroupReceive
  | appendToHoldbackQueue
  | deliverMessages
  deriving DecidableEq

/-- `sizeof(sender_dep_str)` -/
def DepsReader.size : DepsReader → ℕ
  | .handleGroupReceive => maxGroupSize + 1
  | .appendToHoldbackQueue => maxGroupSize * 5
  | .deliverMessages => maxGroupSize + 1

/-- What `sscanf` stores for `DEPS:%s`, when it gets that far. -/
def scannedDeps (cleanMessage : Text) : Option Text :=
  match sscanf cleanMessage groupFormat with
  | .int _ :: .int _ :: .int _ :: .str deps :: _ => some deps
  | _ => none

namespace Client

/-- `get_deps_str` stays in the zeroed `DEPENDENCY_STR`. -/
def StoresDeps (c : Client) : Prop :=
  (getDepsStrIn c.dependency (List.replicate dependencyStrSize '\x00')).isSome

/-- Every line the prompt accepts gives a message that fits `message[BUFFER_SIZE]`. -/
def PrintsMessage (c : Client) : Prop :=
  ∀ userInput, PromptLine userInput → (c.message userInput).length < bufferSize

/-- What a receiver of a message of this client scans fits the array of that function. -/
def ScansDeps (c : Client) (r : DepsReader) : Prop :=
  ∀ userInput buffer cleanMessage deps, PromptLine userInput →
    clearMessage (recvfrom buffer (c.datagram userInput)) = some cleanMessage →
      scannedDeps cleanMessage = some deps → deps.length < r.size

/-- The dependency text fits every array it passes through. -/
structure DepsFit (c : Client) : Prop where
  stores : c.StoresDeps
  prints : c.PrintsMessage
  scans : ∀ r, c.ScansDeps r

variable {c : Client}

theorem length_message (userInput : Text) : (c.message userInput).length =
    63 + (intText c.selfId).length + (getDepsStr c.dependency).length + userInput.length := by
  have hclk : ∀ i : Fin maxGroupSize, (intText ((i : ℕ) : ℤ)).length = 1 := by decide +kernel
  have hlabels : (text "\n\tGROUP_ID:").length = 11 ∧ (text "\n\tSENDER_ID:").length = 12 ∧
      (text "\n\tSENDER_CLK_INDEX:").length = 19 ∧ (text "\n\tDEPS:").length = 7 ∧
      (text "\n\tMESSAGE:").length = 10 ∧ (intText 0).length = 1 ∧ emptyLine.length = 2 := by
    decide +kernel
  obtain ⟨h₁, h₂, h₃, h₄, h₅, h₆, h₇⟩ := hlabels
  rw [message, groupMessage_eq]
  simp only [groupHeader, List.length_append, hclk, h₁, h₂, h₃, h₄, h₅, h₆, h₇]
  omega

/-- The longest line has 128 characters. -/
theorem printsMessage_iff : c.PrintsMessage ↔
    (intText c.selfId).length + (getDepsStr c.dependency).length ≤ 64 := by
  have hsize : bufferSize = 256 := rfl
  constructor
  · intro h
    have hline : PromptLine (List.replicate 128 'a') := by decide +kernel
    have hlt := h _ hline
    rw [length_message, List.length_replicate] at hlt
    omega
  · intro h userInput hline
    have hlen := hline.length_le
    rw [length_message]
    omega

/-- The scan of a message finds the text that was printed. -/
theorem scannedDeps_cleanMessage (hid : IsInt c.selfId) (userInput : Text) :
    scannedDeps (c.cleanMessage userInput) = some (getDepsStr c.dependency) := by
  rw [scannedDeps, cleanMessage,
    sscanf_groupHeader isInt_zero hid (isInt_clkIndex c.clkIndex)]

/-- An `int` counter that is not negative. -/
def IsCount (k : ℤ) : Prop := 0 ≤ k ∧ k < 2 ^ 31

instance (k : ℤ) : Decidable (IsCount k) := inferInstanceAs (Decidable (_ ∧ _))

theorem IsCount.isInt {k : ℤ} (h : IsCount k) : IsInt k := by
  obtain ⟨h₁, h₂⟩ := h
  constructor <;> omega

theorem isCount_dependency (hseq : IsCount c.sendSeq) (hdelivered : ∀ i, IsCount (c.delivered i))
    (i : Fin maxGroupSize) : IsCount (c.dependency i) := by
  by_cases hi : i = c.clkIndex
  · rwa [dependency, hi, Function.update_self]
  · rw [dependency, Function.update_of_ne hi]
    exact hdelivered i

/-- A function that scans the message takes the whole text. -/
theorem scansDeps_iff (hid : IsInt c.selfId) (hseq : IsCount c.sendSeq)
    (hdelivered : ∀ i, IsCount (c.delivered i)) (hprints : c.PrintsMessage) (r : DepsReader) :
    c.ScansDeps r ↔ (getDepsStr c.dependency).length < r.size := by
  have hfits : ∀ userInput, PromptLine userInput → c.Fits userInput := fun userInput hline =>
    ⟨hid, hseq.isInt, fun i => (hdelivered i).isInt, hprints userInput hline⟩
  constructor
  · intro h
    have hline : PromptLine (text "hi\n") := by decide
    exact h _ [] _ _ hline (clearMessage_datagram (hfits _ hline) hline [])
      (scannedDeps_cleanMessage hid _)
  · intro h userInput buffer cleanMessage deps hline hclear hdeps
    rw [clearMessage_datagram (hfits _ hline) hline] at hclear
    obtain rfl := Option.some.inj hclear
    rw [scannedDeps_cleanMessage hid] at hdeps
    obtain rfl := Option.some.inj hdeps
    exact h

theorem storesDeps_iff (hseq : IsCount c.sendSeq) (hdelivered : ∀ i, IsCount (c.delivered i)) :
    c.StoresDeps ↔ (getDepsStr c.dependency).length + 1 < dependencyStrSize := by
  have hentry : ∀ i, (intText (c.dependency i)).length ≤ 10 := by
    intro i
    have hcount := isCount_dependency hseq hdelivered i
    exact hcount.isInt.length_le_of_nonneg hcount.1
  rw [StoresDeps, getDepsStrIn_isSome_iff (by decide) hentry (holds_nil rfl),
    List.length_replicate]

/-- Ten digits and nine commas. -/
theorem le_length_getDepsStr (v : Clock) : 19 ≤ (getDepsStr v).length := by
  have hle := le_length_printedDeps (List.ofFn v)
  rw [← length_getDepsStr (by decide), List.length_ofFn] at hle
  have hmax : maxGroupSize = 10 := rfl
  omega

theorem not_scansDeps (hid : IsInt c.selfId) (hseq : IsCount c.sendSeq)
    (hdelivered : ∀ i, IsCount (c.delivered i)) (hprints : c.PrintsMessage) :
    ¬ c.ScansDeps .deliverMessages := by
  rw [scansDeps_iff hid hseq hdelivered hprints]
  have hle := le_length_getDepsStr c.dependency
  have hsize : DepsReader.size .deliverMessages = 11 := rfl
  omega

/-- **The arrays of the dependency text.**  Those of the sender suffice for small counters.
A receiver needs 20 bytes at least, of which `append_to_holdback_queue` has 50 and the other
two functions have 11. -/
theorem deps_never_fit (hid : IsInt c.selfId) (hseq : IsCount c.sendSeq)
    (hdelivered : ∀ i, IsCount (c.delivered i)) :
    (c.StoresDeps ↔ (getDepsStr c.dependency).length + 1 < dependencyStrSize) ∧
      (c.PrintsMessage ↔
        (intText c.selfId).length + (getDepsStr c.dependency).length ≤ 64) ∧
      (c.PrintsMessage → ∀ r, c.ScansDeps r ↔ (getDepsStr c.dependency).length < r.size) ∧
      19 ≤ (getDepsStr c.dependency).length ∧ ¬ c.DepsFit :=
  ⟨storesDeps_iff hseq hdelivered, printsMessage_iff, scansDeps_iff hid hseq hdelivered,
    le_length_getDepsStr c.dependency,
    fun h => not_scansDeps hid hseq hdelivered h.prints (h.scans .deliverMessages)⟩

/-- A client that has joined and sent nothing yet. -/
private def newcomer : Client := (Group.initial fun _ => 100).client 0

/-- Its first message is scanned into the arrays of 11 bytes. -/
theorem first_message_overflows :
    scannedDeps (newcomer.cleanMessage (text "hi\n")) = some (text "0,0,0,0,0,0,0,0,0,0") ∧
      (text "0,0,0,0,0,0,0,0,0,0").length = 19 ∧ DepsReader.size .deliverMessages = 11 ∧
        ¬ newcomer.DepsFit := by
  have hdeps : getDepsStr newcomer.dependency = text "0,0,0,0,0,0,0,0,0,0" := by decide +kernel
  refine ⟨?_, rfl, rfl, fun h => ?_⟩
  · rw [scannedDeps_cleanMessage (by decide), hdeps]
  · exact not_scansDeps (by decide) (by decide) (by decide) h.prints (h.scans .deliverMessages)

theorem deps_never_fit_newcomer :
    newcomer.StoresDeps ∧ newcomer.PrintsMessage ∧ ¬ newcomer.DepsFit := by
  obtain ⟨hstores, hprints, -, -, hfit⟩ := deps_never_fit (c := newcomer) (by decide) (by decide)
    (by decide)
  exact ⟨hstores.mpr (by decide +kernel), hprints.mpr (by decide +kernel), hfit⟩

end Client
end ChatRing
