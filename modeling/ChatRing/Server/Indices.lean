import ChatRing.Client.Join
import ChatRing.Server.ClientTable

/-!
# Vector indices

`clk_index` counts the `GET_INDEX` requests that a server has handled, and each reply
hands out the count.  It never goes down, and no index is taken back when a client leaves;
the vectors of the clients have `MAX_GROUP_SIZE` entries.

## Main results

* `Server.handle_table` — what one event does to the client table and the counter.
* `Indexing.valid_iff` — the indices handed out are good subscripts throughout a run iff no
  reply is sent after ten requests.
-/

namespace ChatRing
open CText

namespace Server

/-- The event is a request for an index: its connection, and the ID that it claims. -/
def indexRequested (s : Server) : Event → Option (Socket × ℤ)
  | .readable _ i received =>
      match frameBody (received.take bufferSize) with
      | none => none
      | some read =>
          match parseFrame (i = s.ltcpSocket) read with
          | .client senderId _ message => if message = getIndex then some (i, senderId) else none
          | _ => none
  | _ => none

/-- The reply that the event sends: its connection, and the index in it. -/
def indexReplied (s : Server) : Event → Option (Socket × ℤ)
  | .readable env i received =>
      if (s.indexRequested (.readable env i received)).isSome ∧
          env.sends s.out i s.indexFrame = true
      then some (i, s.clkIndex) else none
  | _ => none

/-- What one event does to the table, the counter and the ID of the group. -/
inductive TableStep (s : Server) : Event → Server → Prop
  | same {e : Event} {t : Server} (hrequest : s.indexRequested e = none) (h : SameClients s t) :
      TableStep s e t
  | entered {socket : Socket} {ip : Text} {t : Server}
      (h : SameClients { s with clientArray := s.clientArray ++ [⟨0, socket, ip⟩] } t) :
      TableStep s (.accept socket (some ip)) t
  | removed {env : Env} {i : Socket} {t : Server} (hkeeps : ¬ s.KeepsEntry i)
      (h : SameClients (removeClientFromList s i) t) : TableStep s (.readable env i []) t
  | indexed {env : Env} {i : Socket} {received : Text} {senderId : ℤ} {t : Server}
      (hrequest : s.indexRequested (.readable env i received) = some (i, senderId))
      (h : SameClients (s.indexed senderId i) t)
      (hout : env.sends s.out i s.indexFrame = true → t.out = s.out ++ [.send i s.indexFrame]) :
      TableStep s (.readable env i received) t

section Step
variable {s t : Server} {e : Event}

theorem indexRequested_of_parse {env : Env} {i : Socket} {received read : Text}
    (hread : frameBody (received.take bufferSize) = some read) :
    s.indexRequested (.readable env i received) =
      match parseFrame (i = s.ltcpSocket) read with
      | .client senderId _ message => if message = getIndex then some (i, senderId) else none
      | _ => none := by
  simp only [indexRequested, hread]

theorem handle_table (h : s.handle e = .ok t) : TableStep s e t := by
  cases handled h with
  | timer ht => exact .same rfl (.of_listOnly (.of_onTimer ht))
  | @accept socket clientIp =>
      rw [acceptNewClient]
      split
      · cases clientIp with
        | none => exact .same rfl ⟨rfl, rfl, rfl⟩
        | some ip =>
            rw [assignClientInfo]
            split
            · exact .same rfl ⟨rfl, rfl, rfl⟩
            · exact .entered ⟨rfl, rfl, rfl⟩
      · exact .same rfl (SameClients.refl s)
  | @datagram env received senderAddr fd u ht =>
      obtain ⟨master, hregister⟩ := registerPeer_eq u fd
      have hsame := SameClients.of_handleMcastReceive ht
      rw [hregister]
      exact .same rfl ⟨hsame.clientArray, hsame.clkIndex, hsame.groupId⟩
  | disconnect ht =>
      rcases disconnect_clients ht with ⟨-, hsame⟩ | ⟨hkeeps, hsame⟩
      · exact .same rfl hsame
      · exact .removed hkeeps hsame
  | unfinished hne hread => exact .same (by simp only [indexRequested, hread]) (SameClients.refl s)
  | updateFromLeader hne hread hframe ht =>
      exact .same (by rw [indexRequested_of_parse hread, hframe]) (.of_newSuccessor ht)
  | @client env i received read message senderId destId r t hne hread hframe ht =>
      by_cases hmessage : message = getIndex
      · have hrequest : s.indexRequested (.readable env i received) = some (i, senderId) := by
          rw [indexRequested_of_parse hread, hframe]
          exact if_pos hmessage
        rw [show message = CText.text "GET_INDEX" from hmessage, handleClientMessage_getIndex] at ht
        split at ht
        · cases ht
          exact .indexed hrequest ⟨rfl, rfl, rfl⟩ fun _ => rfl
        · rename_i hfails
          cases ht
          exact .indexed hrequest ⟨rfl, rfl, rfl⟩ fun hsends => absurd hsends hfails
      · obtain ⟨sent, -, rfl⟩ := handleClientMessage_forward hmessage ht
        refine .same ?_ ⟨rfl, rfl, rfl⟩
        rw [indexRequested_of_parse hread, hframe]
        exact if_neg hmessage
  | election hne hread hframe ht =>
      exact .same (by rw [indexRequested_of_parse hread, hframe]) (.of_handleElection ht)
  | knowNewLeader hne hread hframe ht =>
      exact .same (by rw [indexRequested_of_parse hread, hframe]) (.of_handleKnowNewLeader ht)
  | heartbeat hne hread hframe =>
      exact .same (by rw [indexRequested_of_parse hread, hframe]) (.of_updateHeartbeat _ _ _)
  | unknown hne hread hframe =>
      exact .same (by rw [indexRequested_of_parse hread, hframe]) (SameClients.refl s)

/-- **The counter never goes down, and passes every index that it hands out.** -/
theorem handle_clkIndex (h : s.handle e = .ok t) : s.clkIndex ≤ t.clkIndex ∧
    ∀ i k, s.indexReplied e = some (i, k) → k = s.clkIndex ∧ k < t.clkIndex ∧
      t.out = s.out ++ [.send i s.indexFrame] := by
  cases handle_table h with
  | same hrequest hsame =>
      refine ⟨hsame.clkIndex.ge, fun i k hreplied => ?_⟩
      cases e with
      | readable env j received => simp [indexReplied, hrequest] at hreplied
      | timer | accept | datagram => cases hreplied
  | entered hsame => exact ⟨hsame.clkIndex.ge, fun i k hreplied => by cases hreplied⟩
  | removed hkeeps hsame =>
      refine ⟨hsame.clkIndex.ge, fun i k hreplied => ?_⟩
      cases hreplied
  | indexed hrequest hsame hout =>
      have hclk : t.clkIndex = s.clkIndex + 1 := hsame.clkIndex
      refine ⟨by omega, fun i k hreplied => ?_⟩
      simp only [indexReplied, hrequest, Option.isSome_some, true_and] at hreplied
      split at hreplied
      · rename_i hsends
        cases hreplied
        exact ⟨rfl, by omega, hout hsends⟩
      · cases hreplied

end Step
end Server

/-! ## Indices handed out -/

/-- A server, and the replies that it has sent: their connection, and the index in them. -/
structure Indexing where
  server : Server
  replies : List (Socket × ℤ)

namespace Indexing

def step (x : Indexing) (e : Event) : Option Indexing :=
  (x.server.step e).map fun t => ⟨t, x.replies ++ (x.server.indexReplied e).toList⟩

def indices (x : Indexing) : List ℤ := x.replies.map Prod.snd

/-- All indices differ, every client reads its own, and no client that stores under it
leaves its array. -/
structure Valid (x : Indexing) : Prop where
  distinct : x.indices.Nodup
  inRange : ∀ k ∈ x.indices, InRange k
  read : ∀ k ∈ x.indices, readIndexReply (padX (indexReply multicastIp randomPort k)) =
    some ⟨multicastIp, randomPort, k⟩
  dependency : ∀ k ∈ x.indices, ∀ delivered sendSeq,
    ∃ dependency, storeDependency delivered k sendSeq = .ok dependency
  delivered : ∀ k ∈ x.indices, ∀ delivered, ∃ delivered', bump delivered k = .ok delivered'

/-- The event sends a reply, and the vectors have no entry left for it. -/
def Exhausted (x : Indexing) (e : Event) : Prop :=
  (x.server.indexReplied e).isSome ∧ maxGroupSize ≤ x.server.clkIndex

/-- The indices handed out are numbers below the counter, which the vectors have. -/
structure Inv (x : Indexing) : Prop where
  clkIndex : 0 ≤ x.server.clkIndex
  distinct : x.indices.Nodup
  below : ∀ k ∈ x.indices, k < x.server.clkIndex
  inRange : ∀ k ∈ x.indices, InRange k

variable {x y : Indexing} {e : Event}

theorem Inv.valid (h : x.Inv) : x.Valid where
  distinct := h.distinct
  inRange := h.inRange
  read := by
    intro k hk
    obtain ⟨h₁, h₂⟩ := h.inRange k hk
    have h₃ : k < 10 := h₂
    exact readIndexReply_padX isAddress_multicastIp (by decide) ⟨by omega, by omega⟩
  dependency k hk _ _ := storeDependency_isOk_iff.mpr (h.inRange k hk)
  delivered k hk _ := bump_isOk_iff.mpr (h.inRange k hk)

/-- The indices after one event. -/
theorem indices_step (hstep : step x e = some y) :
    ∃ t, x.server.handle e = .ok t ∧ y.server = t ∧
      y.indices = x.indices ++ ((x.server.indexReplied e).map Prod.snd).toList := by
  obtain ⟨t, ht, rfl⟩ := Option.map_eq_some_iff.mp hstep
  refine ⟨t, (Server.step_eq_some ht).2, rfl, ?_⟩
  rw [indices, List.map_append, indices]
  cases x.server.indexReplied e <;> rfl

/-- **A reply within the vectors keeps the invariant.** -/
theorem Inv.step (h : x.Inv) (he : ¬ x.Exhausted e) (hstep : step x e = some y) : y.Inv := by
  obtain ⟨t, ht, rfl, hindices⟩ := indices_step hstep
  obtain ⟨hle, hreplied⟩ := Server.handle_clkIndex ht
  have hclk : 0 ≤ y.server.clkIndex := h.clkIndex.trans hle
  rcases hr : x.server.indexReplied e with _ | ⟨i, k⟩
  · have hsame : y.indices = x.indices := by rw [hindices, hr]; exact List.append_nil _
    exact ⟨hclk, hsame ▸ h.distinct, fun k hk => (h.below k (hsame ▸ hk)).trans_le hle,
      fun k hk => h.inRange k (hsame ▸ hk)⟩
  · obtain ⟨rfl, hlt, -⟩ := hreplied i k hr
    have hnew : y.indices = x.indices ++ [x.server.clkIndex] := by rw [hindices, hr]; rfl
    have hrange : InRange x.server.clkIndex := by
      refine ⟨h.clkIndex, lt_of_not_ge fun hge => he ⟨?_, hge⟩⟩
      rw [hr]
      rfl
    refine ⟨hclk, ?_, ?_, ?_⟩
    · rw [hnew, ← List.concat_eq_append]
      exact h.distinct.concat fun hmem => lt_irrefl _ (h.below _ hmem)
    · intro k hk
      rw [hnew, List.mem_append, List.mem_singleton] at hk
      rcases hk with hk | rfl
      · exact (h.below k hk).trans_le hle
      · exact hlt
    · intro k hk
      rw [hnew, List.mem_append, List.mem_singleton] at hk
      rcases hk with hk | rfl
      · exact h.inRange k hk
      · exact hrange

/-- **The indices handed out are valid in every state of a run exactly when no event of the
run sends a reply after ten requests.** -/
theorem valid_iff {x₀ : Indexing} {h : List (Indexing × Event)} (hclk : x₀.server.clkIndex = 0)
    (hreplies : x₀.replies = []) (run : Run step x₀ h x) :
    (∀ y ∈ Run.states h x, y.Valid) ↔ ∀ y e, (y, e) ∈ h → ¬ y.Exhausted e := by
  have hindices : x₀.indices = [] := by rw [indices, hreplies]; rfl
  have h₀ : x₀.Inv := by
    refine ⟨hclk.ge, ?_, ?_, ?_⟩
    · rw [hindices]
      exact List.nodup_nil
    · simp [hindices]
    · simp [hindices]
  refine run.forall_states_iff h₀ (fun _ hy => hy.valid) (fun _ _ _ hy he => hy.step he) ?_
  rintro y e z - he hstep hvalid
  obtain ⟨hreplied, hge⟩ := not_not.mp he
  obtain ⟨⟨i, k⟩, hr⟩ := Option.isSome_iff_exists.mp hreplied
  obtain ⟨t, ht, -, hindices⟩ := indices_step hstep
  obtain ⟨rfl, -, -⟩ := (Server.handle_clkIndex ht).2 i k hr
  have hmem : y.server.clkIndex ∈ z.indices := by simp [hindices, hr]
  exact absurd (hvalid.inRange _ hmem).2 (not_lt.mpr hge)

/-! ## Eleven clients, one after another -/

private def answering : Env := ⟨0, errorReturn, fun _ _ _ => true, true, 8⟩

private def firstState : Indexing := ⟨startLeader 0 7 (text "10.0.0.1") 4041 20000 3 4, []⟩

/-- A client connects and gets its index. -/
private def joins : List Event :=
  [.accept 5 (some (text "10.0.0.8")),
    .readable answering 5 (padX (text "CLIENT:100:0:GET_INDEX\n\n"))]

/-- Ten clients come and go before it. -/
private def visits : List Event :=
  (List.replicate 10 (joins ++ [.readable answering 5 []])).flatten ++ joins

private def eleventh : Indexing := (exec step firstState visits).get (by decide +kernel)

private def second : Indexing :=
  (exec step firstState (joins ++ [.readable answering 5 []] ++ joins)).get (by decide +kernel)

theorem valid_iff_second :
    second.replies = [(5, 0), (5, 1)] ∧
      ((∀ y ∈ Run.states (trace step firstState (joins ++ [.readable answering 5 []] ++ joins))
          second, y.Valid) ↔
        ∀ y e, (y, e) ∈ trace step firstState (joins ++ [.readable answering 5 []] ++ joins) →
          ¬ y.Exhausted e) :=
  ⟨by decide +kernel, valid_iff rfl rfl (Run.of_exec (Option.some_get _).symm)⟩

/-- One client at a time is connected, and the eleventh gets the index 10. -/
theorem eleventh_out_of_range :
    Run step firstState (trace step firstState visits) eleventh ∧
      eleventh.server.tableSockets = [5] ∧ eleventh.replies.getLast? = some (5, 10) ∧
        (∀ delivered, bump delivered 10 = .error .outOfBounds) ∧ ¬ eleventh.Valid := by
  have hend : eleventh.server.tableSockets = [5] ∧ eleventh.replies.getLast? = some (5, 10) ∧
      10 ∈ eleventh.indices := by
    decide +kernel
  obtain ⟨htable, hlast, hmem⟩ := hend
  refine ⟨Run.of_exec (Option.some_get _).symm, htable, hlast, fun _ => rfl, fun hvalid => ?_⟩
  exact absurd (hvalid.inRange 10 hmem) (by decide)

end Indexing
end ChatRing
