import ChatRing.Wire

/-!
# The messages between servers, and to clients

The texts that the servers print, one definition for each `sprintf` of the source,
under the keyword of the message.  Each ends with the empty line.
-/

namespace ChatRing
open CText

/-- `MULTICAST_IP` -/
def multicastIp : Text := text "239.255.255.250"

/-- The reply of `new_server` to a server that looks for the leader. -/
def joinReply (id : ℤ) (addr : Text) (port successorId : ℤ) : Text :=
  sprintf "%d:%s:%d:%d\n\n" [.int id, .str addr, .int port, .int successorId]

def updateFromLeader (addr : Text) (id port : ℤ) : Text :=
  sprintf "UPDATE_FROM_LEADER:%s:%d:%d\n\n" [.str addr, .int id, .int port]

def knowNewLeader (id : ℤ) (addr : Text) (port : ℤ) (successorId : ℤ) (successorAddr : Text)
    (successorPort : ℤ) : Text :=
  sprintf "KNOW_NEW_LEADER:%d:%s:%d:%d:%s:%d\n\n"
    [.int id, .str addr, .int port, .int successorId, .str successorAddr, .int successorPort]

def electionVote (id : ℤ) : Text := sprintf "ELECTION:VOTE:%d\n\n" [.int id]

def electionLeader (id : ℤ) : Text := sprintf "ELECTION:LEADER:%d\n\n" [.int id]

def heartbeat (id : ℤ) : Text := sprintf "HEARTBEAT:%d\n\n" [.int id]

def leaderDiscovery (id port : ℤ) : Text :=
  sprintf "LEADER_DISCOVERY:%d:%d\n\n" [.int id, .int port]

def whoIsLeader (id port : ℤ) : Text := sprintf "WHO_IS_LEADER:%d:%d\n\n" [.int id, .int port]

/-- The reply of `new_client`. -/
def clientReply (clientId : ℤ) (addr : Text) (port : ℤ) : Text :=
  sprintf "LEADER:YOUR_ID:%d:SERVER_IP:%s:SERVER_PORT:%d\n\n"
    [.int clientId, .str addr, .int port]

/-- The reply to `GET_INDEX`. -/
def indexReply (ip : Text) (port index : ℤ) : Text :=
  sprintf "GROUP_IP:%s:GROUP_PORT:%d:INDEX:%d\n\n" [.str ip, .int port, .int index]

/-- A chat message forwarded to one client. -/
def forwarded (senderId : ℤ) (message : Text) : Text :=
  sprintf "[SENDER]: %d\n\t[MESSAGE]: %s\n\n" [.int senderId, .str message]

/-- A chat message forwarded to the group. -/
def forwardedToGroup (senderId groupId : ℤ) (message : Text) : Text :=
  sprintf "[SENDER]: %d\n\t[GROUP]: %d\n\t[MESSAGE]: %s\n\n"
    [.int senderId, .int groupId, .str message]

/-- A text that `%15[^:]` takes in full. -/
structure IsField (addr : Text) : Prop where
  ne_nil : addr ≠ []
  length_le : addr.length ≤ 15
  not_colon : ':' ∉ addr
  not_nul : '\x00' ∉ addr

/-- An address also has no empty line. -/
structure IsAddress (addr : Text) : Prop extends IsField addr where
  not_emptyLine : ¬ emptyLine <:+: addr

theorem isField_multicastIp : IsField multicastIp :=
  ⟨by decide, by decide, by decide, by decide⟩

theorem isAddress_multicastIp : IsAddress multicastIp := ⟨isField_multicastIp, by decide⟩

/-! ## What is printed -/

theorem updateFromLeader_eq (addr : Text) (id port : ℤ) : updateFromLeader addr id port =
    text "UPDATE_FROM_LEADER:" ++ addr ++ [':'] ++ intText id ++ [':'] ++ intText port ++
      emptyLine := by
  have hformat : format "UPDATE_FROM_LEADER:%s:%d:%d\n\n" = lits (text "UPDATE_FROM_LEADER:") ++
      (.str :: (lits [':'] ++ (.int :: (lits [':'] ++ (.int :: lits emptyLine))))) := rfl
  simp only [updateFromLeader, sprintf, hformat, print_lits, print_lits_nil, print_str, print_int,
    List.append_assoc]

theorem knowNewLeader_eq (id : ℤ) (addr : Text) (port successorId : ℤ) (successorAddr : Text)
    (successorPort : ℤ) :
    knowNewLeader id addr port successorId successorAddr successorPort =
      text "KNOW_NEW_LEADER:" ++ intText id ++ [':'] ++ addr ++ [':'] ++ intText port ++ [':'] ++
        intText successorId ++ [':'] ++ successorAddr ++ [':'] ++ intText successorPort ++
          emptyLine := by
  have hformat : format "KNOW_NEW_LEADER:%d:%s:%d:%d:%s:%d\n\n" =
      lits (text "KNOW_NEW_LEADER:") ++ (.int :: (lits [':'] ++ (.str :: (lits [':'] ++
        (.int :: (lits [':'] ++ (.int :: (lits [':'] ++ (.str :: (lits [':'] ++
          (.int :: lits emptyLine))))))))))) := rfl
  simp only [knowNewLeader, sprintf, hformat, print_lits, print_lits_nil, print_str, print_int,
    List.append_assoc]

theorem indexReply_eq (ip : Text) (port index : ℤ) : indexReply ip port index =
    text "GROUP_IP:" ++ ip ++ text ":GROUP_PORT:" ++ intText port ++ text ":INDEX:" ++
      intText index ++ emptyLine := by
  have hformat : format "GROUP_IP:%s:GROUP_PORT:%d:INDEX:%d\n\n" = lits (text "GROUP_IP:") ++
      (.str :: (lits (text ":GROUP_PORT:") ++ (.int :: (lits (text ":INDEX:") ++
        (.int :: lits emptyLine))))) := rfl
  simp only [indexReply, sprintf, hformat, print_lits, print_lits_nil, print_str, print_int,
    List.append_assoc]

theorem electionVote_eq (id : ℤ) :
    electionVote id = text "ELECTION:VOTE:" ++ intText id ++ emptyLine := by
  have hformat : format "ELECTION:VOTE:%d\n\n" =
      lits (text "ELECTION:VOTE:") ++ (.int :: lits emptyLine) := rfl
  simp only [electionVote, sprintf, hformat, print_lits, print_lits_nil, print_int,
    List.append_assoc]

theorem electionLeader_eq (id : ℤ) :
    electionLeader id = text "ELECTION:LEADER:" ++ intText id ++ emptyLine := by
  have hformat : format "ELECTION:LEADER:%d\n\n" =
      lits (text "ELECTION:LEADER:") ++ (.int :: lits emptyLine) := rfl
  simp only [electionLeader, sprintf, hformat, print_lits, print_lits_nil, print_int,
    List.append_assoc]

theorem heartbeat_eq (id : ℤ) : heartbeat id = text "HEARTBEAT:" ++ intText id ++ emptyLine := by
  have hformat : format "HEARTBEAT:%d\n\n" =
      lits (text "HEARTBEAT:") ++ (.int :: lits emptyLine) := rfl
  simp only [heartbeat, sprintf, hformat, print_lits, print_lits_nil, print_int,
    List.append_assoc]

end ChatRing
