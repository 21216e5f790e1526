import BridgeIM.Client.Objects

namespace BridgeIM.Client.Requests

open CString Db Model.UserModel Server Objects

/-- The parts of a string before and after its first colon. -/
def splitColon (str : String) : Option (String × String) :=
  match str.toList.dropWhile (· ≠ ':') with
  | [] => none
  | _ :: rest => some (String.ofList (str.toList.takeWhile (· ≠ ':')), String.ofList rest)

def account (type : EnMsgType) (name pwd : String) : Json :=
  .mkObj [("msgid", type.json), ("name", .str (cstring name)), ("password", .str (cstring pwd))]

def login (name pwd : String) : Json := account .loginMsg name pwd

def reg (name pwd : String) : Json := account .regMsg name pwd

section Commands

variable (g_currentUser : User) (currentTime str : String)

def addfriend : Json :=
  .mkObj [("msgid", EnMsgType.addFriendRequest.json), ("userid", .int g_currentUser.id), ("friendid", .int (atoi str))]

def handleFriend (action : String) : Json :=
  .mkObj [("msgid", EnMsgType.addFriendHandle.json), ("userid", .int (atoi str)), ("friendid", .int g_currentUser.id),
    ("action", .str action)]

def acceptaddfriend : Json := handleFriend g_currentUser str "accept"

def rejectaddfriend : Json := handleFriend g_currentUser str "refuse"

def chat : Option Json :=
  (splitColon str).map fun (friendid, message) =>
    .mkObj [("msgid", EnMsgType.oneChatMsg.json), ("userid", .int g_currentUser.id), ("name", .str g_currentUser.name),
      ("to", .int (atoi friendid)), ("msg", .str message), ("time", .str currentTime)]

def creategroup : Option Json :=
  (splitColon str).map fun (name, desc) =>
    .mkObj [("msgid", EnMsgType.createGroupMsg.json), ("userid", .int g_currentUser.id), ("groupname", .str name),
      ("groupdesc", .str desc)]

def addgroup : Json :=
  .mkObj [("msgid", EnMsgType.addGroupMsg.json), ("userid", .int g_currentUser.id), ("groupid", .int (atoi str))]

def handleGroup (action : String) : Option Json :=
  (splitColon str).map fun (userid, groupid) =>
    .mkObj [("msgid", EnMsgType.addGroupHandle.json), ("userid", .int (atoi userid)), ("groupid", .int (atoi groupid)),
      ("action", .str action)]

def acceptaddgroup : Option Json := handleGroup str "accept"

def rejectaddgroup : Option Json := handleGroup str "reject"

def groupchat : Option Json :=
  (splitColon str).map fun (groupid, message) =>
    .mkObj [("msgid", EnMsgType.groupChatMsg.json), ("userid", .int g_currentUser.id), ("name", .str g_currentUser.name),
      ("groupid", .int (atoi groupid)), ("msg", .str message), ("time", .str currentTime)]

def loginout : Json := .mkObj [("msgid", EnMsgType.loginoutMsg.json), ("userid", .int g_currentUser.id)]

/-- The handler that `commandHandlerMap` has for a command. An invalid command
sends nothing. -/
def commandHandler (command : String) : Option Json :=
  if command = "chat" then chat g_currentUser currentTime str
  else if command = "addfriend" then some (addfriend g_currentUser str)
  else if command = "acceptfriend" then some (acceptaddfriend g_currentUser str)
  else if command = "rejectfriend" then some (rejectaddfriend g_currentUser str)
  else if command = "creategroup" then creategroup g_currentUser str
  else if command = "addgroup" then some (addgroup g_currentUser str)
  else if command = "acceptaddgroup" then acceptaddgroup str
  else if command = "rejectaddgroup" then rejectaddgroup str
  else if command = "groupchat" then groupchat g_currentUser currentTime str
  else if command = "loginout" then some (loginout g_currentUser)
  else none

/-- What `mainMenu` sends for a line of input. -/
def mainMenu (commandbuf : String) : Option Json :=
  match splitColon commandbuf with
  | some (command, str) => commandHandler g_currentUser currentTime str command
  | none => commandHandler g_currentUser currentTime commandbuf commandbuf

end Commands

/-- A request that the client makes. -/
inductive Shipped : Json → Prop
  | login (name pwd : String) : Shipped (login name pwd)
  | reg (name pwd : String) : Shipped (reg name pwd)
  | command {g_currentUser : User} (h : IsInt g_currentUser.id) (currentTime commandbuf : String) {js : Json}
      (hs : mainMenu g_currentUser currentTime commandbuf = some js) : Shipped js

inductive Fields : EnMsgType → List (String × Json) → Prop
  | account {type : EnMsgType} (ht : type = .loginMsg ∨ type = .regMsg) (name pwd : String) :
      Fields type [("name", .str name), ("password", .str pwd)]
  | addFriend {userid friendid : Int} (hu : IsInt userid) (hf : IsInt friendid) :
      Fields .addFriendRequest [("userid", .int userid), ("friendid", .int friendid)]
  | handleFriend {userid friendid : Int} (hu : IsInt userid) (hf : IsInt friendid) (action : String) :
      Fields .addFriendHandle [("userid", .int userid), ("friendid", .int friendid), ("action", .str action)]
  | chat {userid toid : Int} (hu : IsInt userid) (ht : IsInt toid) (name msg time : String) :
      Fields .oneChatMsg [("userid", .int userid), ("name", .str name), ("to", .int toid), ("msg", .str msg),
        ("time", .str time)]
  | createGroup {userid : Int} (hu : IsInt userid) (groupname groupdesc : String) :
      Fields .createGroupMsg [("userid", .int userid), ("groupname", .str groupname), ("groupdesc", .str groupdesc)]
  | addGroup {userid groupid : Int} (hu : IsInt userid) (hg : IsInt groupid) :
      Fields .addGroupMsg [("userid", .int userid), ("groupid", .int groupid)]
  | handleGroup {userid groupid : Int} (hu : IsInt userid) (hg : IsInt groupid) (action : String) :
      Fields .addGroupHandle [("userid", .int userid), ("groupid", .int groupid), ("action", .str action)]
  | groupChat {userid groupid : Int} (hu : IsInt userid) (hg : IsInt groupid) (name msg time : String) :
      Fields .groupChatMsg [("userid", .int userid), ("name", .str name), ("groupid", .int groupid), ("msg", .str msg),
        ("time", .str time)]
  | loginout {userid : Int} (hu : IsInt userid) : Fields .loginoutMsg [("userid", .int userid)]

theorem isInt_atoi (str : String) : IsInt (atoi str) := by
  unfold IsInt atoi
  omega

theorem fields_of_shipped {js : Json} (h : Shipped js) :
    ∃ type fields, js = .mkObj (("msgid", type.json) :: fields) ∧ Fields type fields := by
  cases h with
  | login name pwd => exact ⟨_, _, rfl, .account (Or.inl rfl) _ _⟩
  | reg name pwd => exact ⟨_, _, rfl, .account (Or.inr rfl) _ _⟩
  | @command user hu time commandbuf _ hs =>
    obtain ⟨command, str, hs⟩ : ∃ command str, commandHandler user time str command = some js := by
      unfold mainMenu at hs
      split at hs
      · exact ⟨_, _, hs⟩
      · exact ⟨_, _, hs⟩
    unfold commandHandler at hs
    split at hs
    · obtain ⟨parts, -, rfl⟩ := Option.map_eq_some_iff.mp hs
      exact ⟨_, _, rfl, .chat hu (isInt_atoi _) _ _ _⟩
    split at hs
    · cases hs
      exact ⟨_, _, rfl, .addFriend hu (isInt_atoi _)⟩
    split at hs
    · cases hs
      exact ⟨_, _, rfl, .handleFriend (isInt_atoi _) hu _⟩
    split at hs
    · cases hs
      exact ⟨_, _, rfl, .handleFriend (isInt_atoi _) hu _⟩
    split at hs
    · obtain ⟨parts, -, rfl⟩ := Option.map_eq_some_iff.mp hs
      exact ⟨_, _, rfl, .createGroup hu _ _⟩
    split at hs
    · cases hs
      exact ⟨_, _, rfl, .addGroup hu (isInt_atoi _)⟩
    split at hs
    · obtain ⟨parts, -, rfl⟩ := Option.map_eq_some_iff.mp hs
      exact ⟨_, _, rfl, .handleGroup (isInt_atoi _) (isInt_atoi _) _⟩
    split at hs
    · obtain ⟨parts, -, rfl⟩ := Option.map_eq_some_iff.mp hs
      exact ⟨_, _, rfl, .handleGroup (isInt_atoi _) (isInt_atoi _) _⟩
    split at hs
    · obtain ⟨parts, -, rfl⟩ := Option.map_eq_some_iff.mp hs
      exact ⟨_, _, rfl, .groupChat hu (isInt_atoi _) _ _ _⟩
    split at hs
    · cases hs
      exact ⟨_, _, rfl, .loginout hu⟩
    · cases hs

theorem leaf_of_fields {type : EnMsgType} {fields : List (String × Json)} (h : Fields type fields) :
    ∀ f ∈ ("msgid", type.json) :: fields, Leaf f.2 := by
  have hm : Leaf type.json := .int (isInt_code type)
  cases h <;> simp only [List.forall_mem_cons, List.not_mem_nil, false_implies, implies_true, and_true,
    Leaf.str, Leaf.int, *]

theorem flat_of_shipped {js : Json} (h : Shipped js) : Flat js := by
  obtain ⟨type, fields, rfl, hf⟩ := fields_of_shipped h
  exact flat_mkObj (leaf_of_fields hf)

end BridgeIM.Client.Requests
