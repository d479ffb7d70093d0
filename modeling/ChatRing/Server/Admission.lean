import ChatRing.Server.Messages
import ChatRing.Server.State

/-!
# Admitting servers and clients

`multicast.c`: what a server does with a multicast datagram.  A leader admits a
server that announces itself: it connects to the server, inserts it into the sorted
list, tells it its successor, and tells its predecessor about it.  `new_server` and
`ring_reconstruction` do so with different messages.
-/

namespace ChatRing
open CText

/-- The body `new_server` and `ring_reconstruction` share.  `reply` is the text for
the new peer, given its successor when the list was not empty before, and
`toPredecessor` the text for its predecessor.  The result is the new socket, or
`error_return`. -/
def admitPeer (env : Env) (s : Server) (newPeerId newPeerPort : ℤ) (senderAddr : Text)
    (reply : Option ServerInfo → Text) (toPredecessor : Text) :
    Except Fault (Socket × Server) := do
  let port ← portText newPeerPort
  let (ctcpSocket, s) := s.setupTcpClient env senderAddr port
  if IsValidSocket ctcpSocket then
    let next :=
      appendServerSorted env.now s.self s.next newPeerId senderAddr newPeerPort 0 ctcpSocket
    let message := reply (if s.next = [] then none else getSuccessor newPeerId next)
    match { s with next := next }.send env ctcpSocket (padX message) with
    | none => return (errorReturn, { s with next := next })
    | some s =>
        match next with
        | [] => .error .nullDeref
        | [_] => return (ctcpSocket, s)
        | _ :: _ :: _ =>
            match getPredecessor newPeerId next with
            | none => .error .nullDeref
            | some k =>
                let predecessor :=
                  if k = 0 then getLastServer s.self next else (s.self :: next).getD k s.self
                match s.send env predecessor.tcpSocket (padX toPredecessor) with
                | none => return (errorReturn, s)
                | some s => return (ctcpSocket, s)
  else return (errorReturn, s)

/-- `new_server`.  The port sent to the first peer is the character `'0'`. -/
def newServer (env : Env) (s : Server) (newPeerId newPeerPort : ℤ) (senderAddr : Text) :
    Except Fault (Socket × Server) :=
  admitPeer env s newPeerId newPeerPort senderAddr
    (fun
      | some successor => joinReply s.self.id successor.addr successor.port successor.id
      | none => joinReply s.self.id (text "0.0.0.0") 48 s.self.leader)
    (updateFromLeader senderAddr newPeerId newPeerPort)

/-- `ring_reconstruction` -/
def ringReconstruction (env : Env) (s : Server) (newPeerId newPeerPort : ℤ) (senderAddr : Text) :
    Except Fault (Socket × Server) :=
  admitPeer env s newPeerId newPeerPort senderAddr
    (fun
      | some successor =>
          knowNewLeader s.self.id s.self.addr s.self.port successor.id successor.addr successor.port
      | none => knowNewLeader s.self.id s.self.addr s.self.port 0 (text "0.0.0.0") 0)
    (knowNewLeader s.self.id s.self.addr s.self.port newPeerId senderAddr newPeerPort)

/-- `new_client`.  After a failed send the connection stays open. -/
def newClient (env : Env) (s : Server) (newClientTcpPort : ℤ) (senderAddr : Text) :
    Except Fault (Socket × Server) := do
  let port ← portText newClientTcpPort
  let (tcpSocketToClient, s) := s.setupTcpClient env senderAddr port
  if IsValidSocket tcpSocketToClient then
    let message := clientReply (getRadomId env 100 1000) s.self.addr s.self.port
    match s.send env tcpSocketToClient (padX message) with
    | none => return (errorReturn, s)
    | some s => return (errorReturn, s.closeSocket tcpSocketToClient)
  else return (errorReturn, s)

/-- `peer_mcast_receive`.  A `SERVER_HEARTBEAT` and an unknown text are only printed. -/
def peerMcastReceive (env : Env) (s : Server) (buf senderAddr : Text) :
    Except Fault (Socket × Server) :=
  match sscanf buf "LEADER_DISCOVERY:%d:%d" with
  | [.int newPeerId, .int newPeerPort] => newServer env s newPeerId newPeerPort senderAddr
  | _ =>
      match sscanf buf "WHO_IS_LEADER:%d:%d" with
      | [.int newPeerId, .int newPeerPort] =>
          ringReconstruction env s newPeerId newPeerPort senderAddr
      | _ =>
          match sscanf buf "NEW_CLIENT:%d" with
          | [.int newClientTcpPort] => newClient env s newClientTcpPort senderAddr
          | _ => .ok (errorReturn, s)

/-- `handle_mcast_receive`; nothing is received when `recvfrom` returns -1.  The last
byte of the datagram is overwritten by a NUL, and an empty datagram has none. -/
def handleMcastReceive (env : Env) (s : Server) (received : Option Text) (senderAddr : Text) :
    Except Fault (Socket × Server) :=
  match received with
  | none => .ok (errorReturn, s)
  | some [] => .error .outOfBounds
  | some bytes =>
      match frameBody (bytes.take bufferSize).dropLast with
      | none => .ok (errorReturn, s)
      | some buf =>
          if s.self.leader = 1 then peerMcastReceive env s buf senderAddr
          else
            match sscanf buf "HEARTBEAT:%d" with
            | [.int receivedId] =>
                match s.next with
                | [] => .error .nullDeref
                | leader :: rest =>
                    if receivedId = leader.id then
                      .ok (errorReturn,
                        { s with next := { leader with lastHeartbeat := env.now } :: rest })
                    else .ok (errorReturn, s)
            | _ => .ok (errorReturn, s)

/-! ## What a datagram changes -/

section Changes
variable {env : Env} {s t : Server} {id port : ℤ} {fd : Socket} {addr : Text}

/-- Without a connection nothing changes.  With one the record is entered, and at most the two
messages are sent. -/
theorem admitPeer_eq_ok {toPredecessor : Text} {reply : Option ServerInfo → Text}
    (h : admitPeer env s id port addr reply toPredecessor = .ok (fd, t)) :
    (¬ IsValidSocket env.connect ∧ fd = errorReturn ∧ t = s) ∨
      (IsValidSocket env.connect ∧ (fd = errorReturn ∨ fd = env.connect) ∧ ∃ sent,
        (∀ k bytes, Output.send k bytes ∈ sent →
          (∃ o, bytes = padX (reply o)) ∨ bytes = padX toPredecessor) ∧
        t = { s with
          next := appendServerSorted env.now s.self s.next id addr port 0 env.connect
          opened := insert env.connect s.opened
          out := s.out ++ sent }) := by
  obtain ⟨portStr, -, h⟩ := Except.bind_eq_ok.mp h
  simp only [Server.setupTcpClient] at h
  by_cases hc : IsValidSocket env.connect
  · refine Or.inr ⟨hc, ?_⟩
    simp only [hc, if_true] at h
    generalize appendServerSorted env.now s.self s.next id addr port 0 env.connect = next at h ⊢
    generalize (if s.next = [] then none else getSuccessor id next) = o at h
    split at h
    · cases h
      exact ⟨Or.inl rfl, [.connect addr portStr env.connect], by simp, rfl⟩
    · rename_i u hu
      obtain ⟨sent, hsent, rfl⟩ : ∃ sent, (∀ k bytes, Output.send k bytes ∈ sent →
          (∃ o, bytes = padX (reply o)) ∨ bytes = padX toPredecessor) ∧
          u = { s with
            next := next, opened := insert env.connect s.opened, out := s.out ++ sent } := by
        refine ⟨[.connect addr portStr env.connect, .send env.connect (padX (reply o))], ?_, ?_⟩
        · intro k bytes hmem
          simp only [List.mem_cons, List.not_mem_nil, or_false, reduceCtorEq, false_or,
            Output.send.injEq] at hmem
          exact Or.inl ⟨o, hmem.2⟩
        · rw [Server.send_eq_some hu, List.append_assoc]
          rfl
      split at h
      · cases h
      · cases h
        exact ⟨Or.inr rfl, sent, hsent, rfl⟩
      · split at h
        · cases h
        · split at h
          · cases h
            exact ⟨Or.inl rfl, sent, hsent, rfl⟩
          · rename_i v hv
            obtain ⟨predecessor, hpredecessor⟩ : ∃ k, Server.send env _ k _ = some v := ⟨_, hv⟩
            cases h
            refine ⟨Or.inr rfl, sent ++ [.send predecessor (padX toPredecessor)], ?_, ?_⟩
            · intro k bytes hmem
              rcases List.mem_append.mp hmem with hmem | hmem
              · exact hsent k bytes hmem
              · cases List.mem_singleton.mp hmem
                exact Or.inr rfl
            · rw [Server.send_eq_some hpredecessor, List.append_assoc]
  · simp only [hc, if_false] at h
    cases h
    exact Or.inl ⟨hc, rfl, rfl⟩

/-- A connection to a client is not selected on.  It is closed once the reply is sent. -/
theorem newClient_eq_ok (h : newClient env s port addr = .ok (fd, t)) :
    fd = errorReturn ∧ (t = s ∨ IsValidSocket env.connect ∧ ∃ opened sent,
      (opened = insert env.connect s.opened ∨
        opened = (insert env.connect s.opened).erase env.connect) ∧
      (∀ k bytes, Output.send k bytes ∈ sent →
        ∃ clientId, bytes = padX (clientReply clientId s.self.addr s.self.port)) ∧
      t = { s with opened := opened, out := s.out ++ sent }) := by
  obtain ⟨portStr, -, h⟩ := Except.bind_eq_ok.mp h
  simp only [Server.setupTcpClient] at h
  by_cases hc : IsValidSocket env.connect
  · simp only [hc, if_true] at h
    split at h
    · cases h
      exact ⟨rfl, Or.inr ⟨hc, _, [.connect addr portStr env.connect], Or.inl rfl, by simp, rfl⟩⟩
    · rename_i u hu
      cases h
      refine ⟨rfl, Or.inr ⟨hc, _, [.connect addr portStr env.connect, .send env.connect
        (padX (clientReply (getRadomId env 100 1000) s.self.addr s.self.port))],
        Or.inr rfl, ?_, ?_⟩⟩
      · intro k bytes hmem
        simp only [List.mem_cons, List.not_mem_nil, or_false, reduceCtorEq, false_or,
          Output.send.injEq] at hmem
        exact ⟨_, hmem.2⟩
      · rw [Server.send_eq_some hu, List.append_assoc]
        rfl
  · simp only [hc, if_false] at h
    cases h
    exact ⟨rfl, Or.inl rfl⟩

/-- A leader admits servers and clients.  A follower takes note of its leader's heartbeat. -/
theorem handleMcastReceive_eq_ok {received : Option Text}
    (h : handleMcastReceive env s received addr = .ok (fd, t)) :
    (fd = errorReturn ∧ t = s) ∨
      (s.self.leader = 1 ∧ ((∃ id port, newServer env s id port addr = .ok (fd, t)) ∨
        (∃ id port, ringReconstruction env s id port addr = .ok (fd, t)) ∨
          ∃ port, newClient env s port addr = .ok (fd, t))) ∨
      (s.self.leader ≠ 1 ∧ fd = errorReturn ∧ ∃ leader rest, s.next = leader :: rest ∧
        t = { s with next := { leader with lastHeartbeat := env.now } :: rest }) := by
  simp only [handleMcastReceive] at h
  split at h
  · cases h
    exact Or.inl ⟨rfl, rfl⟩
  · cases h
  · split at h
    · cases h
      exact Or.inl ⟨rfl, rfl⟩
    · split at h
      · rename_i hleader
        simp only [peerMcastReceive] at h
        split at h
        · exact Or.inr (Or.inl ⟨hleader, Or.inl ⟨_, _, h⟩⟩)
        · split at h
          · exact Or.inr (Or.inl ⟨hleader, Or.inr (Or.inl ⟨_, _, h⟩)⟩)
          · split at h
            · exact Or.inr (Or.inl ⟨hleader, Or.inr (Or.inr ⟨_, h⟩)⟩)
            · cases h
              exact Or.inl ⟨rfl, rfl⟩
      · rename_i hleader
        split at h
        · split at h
          · cases h
          · rename_i leader rest hnext
            split at h
            · cases h
              exact Or.inr (Or.inr ⟨hleader, rfl, leader, rest, hnext, rfl⟩)
            · cases h
              exact Or.inl ⟨rfl, rfl⟩
        · cases h
          exact Or.inl ⟨rfl, rfl⟩

end Changes

end ChatRing
