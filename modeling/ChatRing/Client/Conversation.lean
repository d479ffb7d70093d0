import ChatRing.Client.Causality
import ChatRing.Client.Session

/-!
# A conversation

Ten users type, and their clients run the loop of `main`: each reads its keyboard, the
datagrams of the group and its server in any order.  The network of the group is the list of
everything that was multicast, as in `Group`.

A conversation refines the group: an event multicasts a line, delivers a datagram or
overwrites the buffer, or the group does not see it.  What is delivered is then the input of
the users, through both `fgets` and `handle_group_receive`.  What is scanned from a datagram is
taken to fit its arrays, as in `handleGroupReceive`; a line whose texts would overrun those of the
sender is not sent.

## Main results

* `Chat.toGroup_step` — a conversation refines the group.
* `Chat.delivers_typed_lines` — every client has delivered of each user the first lines that this
  user typed for the group, in the order in which they were typed, and has sent its own server
  the other lines.
-/

namespace ChatRing
open CText CausalBroadcast

/-- The sessions, and which datagrams each client has received. -/
structure Chat where
  session : Fin maxGroupSize → Session
  received : Fin maxGroupSize → List (Msg (Fin maxGroupSize))

inductive ChatAction
  | keyboard (i : Fin maxGroupSize)
  | fromServer (i : Fin maxGroupSize) (received : Text)
  /-- Client `i` receives a message; `stale` is what its stack held. -/
  | fromGroup (i : Fin maxGroupSize) (m : Msg (Fin maxGroupSize)) (stale : Clock)

namespace Chat

/-- The group that the clients form. -/
def toGroup (c : Chat) : Group where
  client i := (c.session i).client
  sent i := (c.session i).sent .multicast
  received := c.received

/-- Whose event it is, and which. -/
def event (c : Chat) : ChatAction → Option (Fin maxGroupSize × ClientEvent)
  | .keyboard i => some (i, .keyboard)
  | .fromServer i received => some (i, .fromServer received)
  | .fromGroup i m stale =>
      (c.toGroup.sentMessage m).map fun r => (i, .fromGroup stale (.datagram r.datagram))

def receivedAfter (c : Chat) : ChatAction → Fin maxGroupSize → List (Msg (Fin maxGroupSize))
  | .fromGroup i m _ => Function.update c.received i (c.received i ++ [m])
  | .keyboard _ => c.received
  | .fromServer _ _ => c.received

def step (c : Chat) (a : ChatAction) : Option Chat :=
  (c.event a).bind fun x => ((c.session x.1).step x.2).map fun s =>
    ⟨Function.update c.session x.1 s, c.receivedAfter a⟩

/-- Nobody has sent anything; the inputs are all that the users will type. -/
def initial (selfId : Fin maxGroupSize → ℤ) (buffer stdin : Fin maxGroupSize → Text) : Chat where
  session i := .start (selfId i) i (buffer i) (stdin i)
  received _ := []

/-- The client has not received this message before. -/
def FirstReceipt (c : Chat) : ChatAction → Prop
  | .fromGroup i m _ => m ∉ c.received i
  | _ => True

instance (c : Chat) : (a : ChatAction) → Decidable (c.FirstReceipt a)
  | .fromGroup i m _ => inferInstanceAs (Decidable (m ∉ c.received i))
  | .keyboard _ => isTrue trivial
  | .fromServer _ _ => isTrue trivial

variable {c c' : Chat} {a : ChatAction} {i j : Fin maxGroupSize}

/-! ## A conversation refines the group -/

theorem step_eq_some (h : c.step a = some c') :
    ∃ i e s, c.event a = some (i, e) ∧ (c.session i).step e = some s ∧
      c' = ⟨Function.update c.session i s, c.receivedAfter a⟩ := by
  obtain ⟨⟨i, e⟩, hevent, h⟩ := Option.bind_eq_some_iff.mp h
  obtain ⟨s, hs, rfl⟩ := Option.map_eq_some_iff.mp h
  exact ⟨i, e, s, hevent, hs, rfl⟩

/-- Only a datagram of the group is recorded as received. -/
theorem receivedAfter_of_ne {e : ClientEvent} (h : c.event a = some (i, e))
    (hne : ∀ stale received, e ≠ .fromGroup stale received) :
    c.receivedAfter a = c.received := by
  cases a with
  | keyboard i => rfl
  | fromServer i received => rfl
  | fromGroup i m stale =>
      obtain ⟨r, -, hr⟩ := Option.map_eq_some_iff.mp h
      cases hr
      exact absurd rfl (hne stale _)

/-- The group after one session has moved. -/
theorem toGroup_update (c : Chat) (i : Fin maxGroupSize) (s : Session)
    (received : Fin maxGroupSize → List (Msg (Fin maxGroupSize))) :
    toGroup ⟨Function.update c.session i s, received⟩ =
      ⟨Function.update c.toGroup.client i s.client,
        Function.update c.toGroup.sent i (s.sent .multicast), received⟩ := by
  simp only [toGroup, Group.mk.injEq, and_true]
  constructor
  · exact Function.comp_update Session.client c.session i s
  · exact Function.comp_update (fun s => s.sent .multicast) c.session i s

/-- A move that multicasts nothing leaves the list of the group. -/
theorem toGroup_update_of_sent_eq {s : Session}
    (hsent : s.sent .multicast = (c.session i).sent .multicast)
    (received : Fin maxGroupSize → List (Msg (Fin maxGroupSize))) :
    toGroup ⟨Function.update c.session i s, received⟩ =
      ⟨Function.update c.toGroup.client i s.client, c.toGroup.sent, received⟩ := by
  rw [toGroup_update, hsent]
  simp [toGroup]

theorem toGroup_update_self {s : Session} (hclient : s.client = (c.session i).client)
    (hsent : s.sent .multicast = (c.session i).sent .multicast) :
    toGroup ⟨Function.update c.session i s, c.received⟩ = c.toGroup := by
  rw [toGroup_update_of_sent_eq hsent, hclient]
  simp [toGroup]

/-- Another line is sent in a mode. -/
theorem sent_append (s : Session) (x : Said) (mode : Mode) :
    ((s.said ++ [x]).filter fun y => y.mode = mode).map Said.sent =
      s.sent mode ++ if x.mode = mode then [x.sent] else [] := by
  rw [List.filter_append, List.map_append, Session.sent]
  by_cases h : x.mode = mode <;> simp [h]

/-- **A conversation refines the group.** -/
theorem toGroup_step (h : c.step a = some c') :
    c'.toGroup = c.toGroup ∨ ∃ b, c.toGroup.step b = some c'.toGroup ∧
      (c.FirstReceipt a → c.toGroup.FirstReceipt b) := by
  obtain ⟨i, e, s, hevent, hs, rfl⟩ := step_eq_some h
  obtain ⟨hrunning, hmoves⟩ := Session.moves_of_step hs
  have hreceived := receivedAfter_of_ne hevent
  cases hmoves with
  | eof hread =>
      rw [hreceived (by simp)]
      exact Or.inl (toGroup_update_self rfl rfl)
  | quit userInput stdin hread hentry =>
      rw [hreceived (by simp)]
      exact Or.inl (toGroup_update_self rfl rfl)
  | switch userInput stdin hread hentry =>
      rw [hreceived (by simp)]
      exact Or.inl (toGroup_update_self rfl rfl)
  | unicast userInput stdin line hread hentry hmode buffer =>
      refine Or.inr ⟨.overwrite i buffer, ?_, fun _ => trivial⟩
      rw [hreceived (by simp), toGroup_update_of_sent_eq]
      · rfl
      · simp [Session.sent, hmode]
  | multicast userInput stdin line hread hentry hmode hfits =>
      refine Or.inr ⟨.multicast i line, ?_, fun _ => trivial⟩
      have hline : PromptLine line := by
        have hread' := readLine_of_fgets hread hentry
        rw [hmode] at hread'
        exact hread'.promptLine
      rw [hreceived (by simp), toGroup_update, Session.sent, sent_append, if_pos hmode]
      exact if_pos ⟨hline, hfits⟩
  | closed buffer =>
      refine Or.inr ⟨.overwrite i buffer, ?_, fun _ => trivial⟩
      rw [hreceived (by simp), toGroup_update_of_sent_eq]
      · rfl
      · rfl
  | heard received buffer clean =>
      refine Or.inr ⟨.overwrite i buffer, ?_, fun _ => trivial⟩
      rw [hreceived (by simp), toGroup_update_of_sent_eq]
      · rfl
      · rfl
  | received stale received client hreceive =>
      cases a with
      | keyboard i => cases hevent
      | fromServer i received => cases hevent
      | fromGroup i' m stale' =>
          obtain ⟨r, hr, heq⟩ := Option.map_eq_some_iff.mp hevent
          cases heq
          refine Or.inr ⟨.receive i m stale, ?_, id⟩
          have hclient : (c.toGroup.client i).receive stale (.datagram r.datagram) =
            .ok client := hreceive
          rw [toGroup_update_of_sent_eq]
          · simp only [Group.step, hr, hclient]
            rfl
          · rfl

/-! ## What is typed, and what is delivered -/

/-- The node that a line of a client becomes at a receiver.  The header is the client's, and
the text is that of the line, without its newline. -/
structure Carries (selfId : ℤ) (j : Fin maxGroupSize) (line : Text) (n : HoldBackQueue) :
    Prop where
  id : n.id = selfId
  clkIndex : n.clkIndex = ((j : ℕ) : ℤ)
  content : n.content =
    groupHeader 0 selfId ((j : ℕ) : ℤ) (getDepsStr n.dependency) ++ typedText line
  visible : Visible line

/-- Both levels keep their invariants, and every session follows its user. -/
structure Sound (c : Chat) (selfId : Fin maxGroupSize → ℤ) (stdin : Fin maxGroupSize → Text) :
    Prop where
  faithful : c.toGroup.Faithful
  follows : ∀ i, (c.session i).Follows (selfId i) i (entered .unicast (stdin i))

variable {selfId : Fin maxGroupSize → ℤ} {buffer stdin : Fin maxGroupSize → Text}

theorem inv_initial (selfId : Fin maxGroupSize → ℤ) (buffer stdin : Fin maxGroupSize → Text) :
    (initial selfId buffer stdin).toGroup.Inv where
  clkIndex i := rfl
  sendSeq i := rfl
  delivered i j := rfl
  uniform m r h := by simp [Group.sentMessage, toGroup, initial, Session.sent, Session.start] at h
  clk m n h := by
    simp [Group.message, Group.sentMessage, toGroup, initial, Session.sent, Session.start] at h
  stamp m n h := by
    simp [Group.message, Group.sentMessage, toGroup, initial, Session.sent, Session.start] at h
  log_sent i n h := by simp [toGroup, initial, Session.start] at h
  blocked i := blocked_nil _

theorem sound_initial (selfId : Fin maxGroupSize → ℤ) (buffer stdin : Fin maxGroupSize → Text) :
    (initial selfId buffer stdin).Sound selfId stdin where
  faithful := ⟨inv_initial selfId buffer stdin, Group.inv_abs_initial selfId⟩
  follows i := Session.follows_start (selfId i) i (buffer i) (stdin i)

theorem Sound.step (h : c.Sound selfId stdin) (hfirst : c.FirstReceipt a)
    (hstep : c.step a = some c') : c'.Sound selfId stdin := by
  constructor
  · rcases toGroup_step hstep with heq | ⟨b, hb, hfresh⟩
    · exact heq ▸ h.faithful
    · exact h.faithful.step (h.faithful.inv.not_redelivers (hfresh hfirst)) hb
  · obtain ⟨i, e, s, -, hs, rfl⟩ := step_eq_some hstep
    intro k
    by_cases hk : k = i
    · subst hk
      simpa using (h.follows k).step hs
    · simpa [hk] using h.follows k

theorem linesOf_transcript (s : Session) (mode : Mode) :
    linesOf mode s.transcript = (s.said.filter fun x => x.mode = mode).map Said.userInput := by
  rw [linesOf, Session.transcript, List.filter_map, List.map_map]
  rfl

theorem linesOf_mono {l l' : List (Mode × Text)} (h : l <+: l') (mode : Mode) :
    linesOf mode l <+: linesOf mode l' := (h.filter _).map _

theorem map_getElem?_range {α : Type*} {l : List α} {d : ℕ} (hd : d ≤ l.length) :
    (List.range d).map (fun k => l[k]?) = (l.take d).map some := by
  apply List.ext_getElem
  · simp [hd]
  · intro k hk hk'
    simp

/-- A line that was multicast, and the node that a receiver builds from it. -/
theorem carries_of_nodeOf {x : Said} {selfId : ℤ} {n : HoldBackQueue} (hmode : x.mode = .multicast)
    (hprinted : x.Printed selfId j) (hread : ReadLine x.mode x.userInput)
    (hn : nodeOf x.sent.datagram = some n) : Carries selfId j x.userInput n := by
  simp only [Said.Printed, hmode] at hprinted
  rw [hmode] at hread
  obtain ⟨client, rfl, rfl, hfits, hdatagram⟩ := hprinted
  rw [hdatagram] at hn
  rcases Client.nodeOf_datagram hfits hread.promptLine with ⟨-, hnode⟩ | ⟨hblank, hnode⟩
  · rw [hnode] at hn
    cases hn
  · rw [hnode] at hn
    cases hn
    refine ⟨rfl, rfl, Client.content_node hread.fgets, ?_⟩
    by_contra hvisible
    exact hblank ((Client.blank_iff hread.fgets).mpr hvisible)

/-- **The deliveries from a client are the lines that its user typed for the group.** -/
theorem Sound.delivered (h : c.Sound selfId stdin) (i j : Fin maxGroupSize) :
    ∃ d : ℕ, (c.session i).client.delivered j = d ∧
      d ≤ (linesOf .multicast (entered .unicast (stdin j))).length ∧
      List.Forall₂ (Carries (selfId j) j)
        ((linesOf .multicast (entered .unicast (stdin j))).take d)
        (c.toGroup.deliveredFrom i j) := by
  let cast := (c.session j).said.filter fun x => x.mode = .multicast
  let d := count (c.toGroup.abs i).log j
  have hd : d ≤ cast.length := by
    have hle := h.faithful.abs_inv.count_le i j
    simpa [Group.abs_past, toGroup, Session.sent, cast, d] using hle
  have hbegin : cast.map Said.userInput <+: linesOf .multicast (entered .unicast (stdin j)) := by
    rw [← linesOf_transcript]
    exact linesOf_mono (h.follows j).transcript.1 .multicast
  have hlines : (linesOf .multicast (entered .unicast (stdin j))).take d =
      (cast.take d).map Said.userInput := by
    obtain ⟨rest, hrest⟩ := hbegin
    rw [← hrest, List.take_append_of_le_length (by simpa using hd), List.map_take]
  refine ⟨d, h.faithful.inv.delivered i j, hd.trans (by simpa using hbegin.length_le), ?_⟩
  have hnodes : (cast.take d).map (fun x => nodeOf x.sent.datagram) =
      (c.toGroup.deliveredFrom i j).map some := by
    have hmessage : ∀ k, c.toGroup.message (j, k) =
        cast[k]?.bind fun x => nodeOf x.sent.datagram := by
      intro k
      have hsent : c.toGroup.sentMessage (j, k) = cast[k]?.map Said.sent := List.getElem?_map
      rw [Group.message, hsent, Option.bind_map]
      rfl
    have hcomp : (fun k => c.toGroup.message (j, k)) =
        (fun o => o.bind fun x : Said => nodeOf x.sent.datagram) ∘ fun k => cast[k]? :=
      funext hmessage
    rw [h.faithful.deliveredFrom_eq i j, hcomp, ← List.map_map, map_getElem?_range hd, List.map_map]
    rfl
  have hall : List.Forall₂ (fun x n => nodeOf x.sent.datagram = some n) (cast.take d)
      (c.toGroup.deliveredFrom i j) := by
    rw [← List.forall₂_eq_eq_eq, List.forall₂_map_left_iff, List.forall₂_map_right_iff] at hnodes
    exact hnodes
  rw [hlines, List.forall₂_map_left_iff]
  have hcast : ∀ x ∈ cast.take d, x ∈ (c.session j).said ∧ x.mode = .multicast := by
    intro x hx
    simpa [cast] using List.mem_of_mem_take hx
  refine ((List.forall₂_and_left _ _).mpr ⟨hcast, hall⟩).imp ?_
  intro x n hx
  obtain ⟨⟨hsaid, hmode⟩, hn⟩ := hx
  exact carries_of_nodeOf hmode ((h.follows j).printed x hsaid) ((h.follows j).read x hsaid) hn

/-- What was sent to the server. -/
theorem datagrams_unicast {s : Session} {selfId : ℤ} {lines : List (Mode × Text)}
    (h : s.Follows selfId j lines) :
    (s.sent .unicast).map Sent.datagram =
      (linesOf .unicast s.transcript).map fun line => (Sending.unicast selfId line).bytes := by
  rw [linesOf_transcript, Session.sent, List.map_map, List.map_map]
  apply List.map_congr_left
  intro x hx
  have hmem : x ∈ s.said ∧ x.mode = .unicast := by simpa using hx
  have hprinted := h.printed x hmem.1
  simp only [Said.Printed, hmem.2] at hprinted
  exact hprinted

/-- **A conversation.**  Whatever the clients do in which order, as long as none receives a
datagram twice: client `i` has delivered, of every user `j`, the first `DELIVERED[j]` lines
that `j` typed for the group, in the order of typing; and it has handed to `send`, in order, the
lines that its own user typed for the server, all of them when the user ended the session. -/
theorem delivers_typed_lines (selfId : Fin maxGroupSize → ℤ)
    (buffer stdin : Fin maxGroupSize → Text) {h : List (Chat × ChatAction)}
    (run : Run step (initial selfId buffer stdin) h c)
    (hfirst : ∀ x a, (x, a) ∈ h → x.FirstReceipt a) (i : Fin maxGroupSize) :
    (∀ j, ∃ d : ℕ, (c.session i).client.delivered j = d ∧
      d ≤ (linesOf .multicast (entered .unicast (stdin j))).length ∧
      List.Forall₂ (Carries (selfId j) j)
        ((linesOf .multicast (entered .unicast (stdin j))).take d)
        (c.toGroup.deliveredFrom i j)) ∧
    ((c.session i).sent .unicast).map Sent.datagram <+:
      (linesOf .unicast (entered .unicast (stdin i))).map
        (fun line => (Sending.unicast (selfId i) line).bytes) ∧
    ((c.session i).status = .quit → (c.session i).transcript = entered .unicast (stdin i)) := by
  have hc : c.Sound selfId stdin := by
    refine run.guarded (P := fun x => x.Sound selfId stdin) (sound_initial selfId buffer stdin) ?_
      hfirst
    intro x a y hx ha hstep
    exact hx.step ha hstep
  obtain ⟨hbegin, hquit⟩ := (hc.follows i).transcript
  refine ⟨hc.delivered i, ?_, hquit⟩
  rw [datagrams_unicast (hc.follows i)]
  exact (linesOf_mono hbegin .unicast).map _

/-- User 0 greets the group, then writes to client 101, and leaves. -/
private def inputs : Fin maxGroupSize → Text :=
  fun i => if i = 0 then text "1\nhi\n0\n101:yo\n\n" else []

private def opening : Chat := initial (fun i => 100 + (i : ℕ)) (fun _ => []) inputs

private def events : List ChatAction :=
  [.keyboard 0, .keyboard 0, .keyboard 0, .fromGroup 1 (0, 0) 0, .keyboard 0, .fromGroup 0 (0, 0) 0,
    .keyboard 0]

private def closing : Chat := (exec step opening events).get (by decide +kernel)

/-- Client 1 has delivered the greeting, and client 0 has ended its session. -/
theorem delivers_typed_lines_greeting :
    ((closing.toGroup.deliveredFrom 1 0).length = 1 ∧ (closing.session 0).status = .quit) ∧
      ∃ d : ℕ, (closing.session 1).client.delivered 0 = d ∧
        d ≤ (linesOf .multicast (entered .unicast (inputs 0))).length ∧
        List.Forall₂ (Carries 100 0) ((linesOf .multicast (entered .unicast (inputs 0))).take d)
          (closing.toGroup.deliveredFrom 1 0) := by
  have hfirst : ∀ p ∈ trace step opening events, p.1.FirstReceipt p.2 := by decide +kernel
  have run : Run step opening (trace step opening events) closing :=
    Run.of_exec (Option.some_get _).symm
  exact ⟨by decide +kernel,
    (delivers_typed_lines _ _ inputs run (fun x a hmem => hfirst (x, a) hmem) 1).1 0⟩

end Chat
end ChatRing
