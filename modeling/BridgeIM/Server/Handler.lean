import BridgeIM.Json
import BridgeIM.Model.FriendModel
import BridgeIM.Model.GroupModel

namespace BridgeIM.Server

open Db Model.UserModel Model.GroupModel

inductive EnMsgType
  | loginMsg | logMsgAck | loginoutMsg | regMsg | regMsgAck | oneChatMsg | oneChatMsgAck
  | addFriendRequest | addFriendHandle | addFriendResponse
  | createGroupMsg | createGroupMsgAck | addGroupMsg | addGroupHandle | addGroupResponse | groupChatMsg
  deriving DecidableEq, Repr

namespace EnMsgType

def code : EnMsgType → Int
  | loginMsg => 1
  | logMsgAck => 2
  | loginoutMsg => 3
  | regMsg => 4
  | regMsgAck => 5
  | oneChatMsg => 6
  | oneChatMsgAck => 7
  | addFriendRequest => 8
  | addFriendHandle => 9
  | addFriendResponse => 10
  | createGroupMsg => 11
  | createGroupMsgAck => 12
  | addGroupMsg => 13
  | addGroupHandle => 14
  | addGroupResponse => 15
  | groupChatMsg => 16

def json (t : EnMsgType) : Json := .int t.code

end EnMsgType

theorem code_injective {t t' : EnMsgType} (h : t.code = t'.code) : t = t' := by
  cases t <;> cases t' <;> first | rfl | exact absurd h (by decide)

theorem isInt_code (type : EnMsgType) : IsInt type.code := by cases type <;> decide

theorem isInt_wrap (n : Int) : IsInt (Json.wrap n) := by
  unfold IsInt Json.wrap
  omega

theorem isInt_truncate (x : Decimal) : IsInt (Json.truncate x) := by
  unfold Json.truncate
  split
  · assumption
  · decide

theorem wrap_of_isInt {n : Int} (h : IsInt n) : Json.wrap n = n := by
  unfold IsInt at h
  unfold Json.wrap
  omega

theorem toInt?_int {n : Int} (h : IsInt n) : (Json.int n).toInt? = some n := by rw [Json.toInt?, wrap_of_isInt h]

structure Conn (N : Type) where
  node : N
  id : Nat
  deriving DecidableEq, Repr

/-- What a thread has been started for. A `deliver` task is the `deliverMessage`
call that ends a handler of a friend or group request. -/
inductive Task (N : Type)
  | frame (conn : Conn N) (js : Json)
  | close (conn : Conn N)
  | deliver (node : N) (targetId : Int) (js : Json)
  | subscribed (node : N) (userid : Int) (msg : String) (call : Nat)
  | reset (node : N)

/-- The atomic effects of the handlers, with the values they read. -/
inductive Effect (N : Type)
  | queryName (name : String) (user : User)
  | queryId (userid : Int) (user : User)
  | insertUser (user : User) (id : Option Int)
  | updateState (userid : Int) (state : State)
  | resetState
  | insertConn (userid : Int) (conn : Conn N)
  | eraseConn (userid : Int)
  | scanConn (conn : Conn N) (found : Option Int)
  | findConn (userid : Int) (found : Option (Conn N))
  | subscribe (userid : Int)
  | unsubscribe (userid : Int)
  | publish (channel : Int) (message : String)
  | queryOffline (userid : Int) (msgs : List String)
  | removeOffline (userid : Int) (msgs : List String)
  | insertOffline (userid : Int) (msg : String)
  | queryFriends (userid : Int) (friends : List User)
  | isFriend (userid friendid : Int) (found : Bool)
  | queryGroup (userid : Int) (groups : List Group)
  | queryMembers (groupid : Int) (users : List GroupUser)
  | sendJson (conn : Conn N) (js : Json)
  | sendPayload (conn : Conn N) (payload : String)

structure Login (N : Type) where
  conn : Conn N
  user : User
  offlineMsgs : List String := []
  friends : List User := []
  groups : List Group := []

/-- Where a handler stands: its next effect and its local variables. -/
inductive Pc (N : Type)
  | queryName (conn : Conn N) (name password : String)
  | updateOnline (l : Login N)
  | insertConn (l : Login N)
  | subscribe (l : Login N)
  | queryOffline (l : Login N)
  | removeOffline (l : Login N)
  | queryFriends (l : Login N)
  | queryGroup (l : Login N)
  | queryMembers (l : Login N) (group : Group) (todo : List Group)
  | sendAck (l : Login N)
  | eraseConn (userid : Int)
  | unsubscribe (userid : Int)
  | updateOffline (userid : Int)
  | insertUser (conn : Conn N) (user : User)
  | scanConn (conn : Conn N)
  | isFriend (conn : Conn N) (userid toid : Int) (payload : String)
  | findConn (targetId : Int) (payload : String)
  | queryState (targetId : Int) (payload : String)
  | publish (targetId : Int) (payload : String)
  | findSubscribed (userid : Int) (msg : String)
  | insertOffline (userid : Int) (msg : String)
  | sendPayload (conn : Conn N) (payload : String)
  | sendJson (conn : Conn N) (js : Json)
  | resetState
  | done

variable {N : Type}

def loginError (errno : Int) (errmsg : String) : Json :=
  .mkObj [("msgid", EnMsgType.logMsgAck.json), ("errno", .int errno), ("errmsg", .str errmsg)]

def checkLogin (conn : Conn N) (password : String) (user : User) : Pc N :=
  if user.name = "" then .sendJson conn (loginError 3 "User does not exist. Please register first.\n")
  else if user.password ≠ password then
    .sendJson conn (loginError 2 "Incorrect password. Please try again.\n")
  else if user.state = "online" then
    .sendJson conn (loginError 1 "this account is using, input another!\n")
  else .updateOnline { conn := conn, user := { user with state := "online" } }

def friendJson (u : User) : Json :=
  .mkObj [("id", .int u.id), ("name", .str u.name), ("state", .str u.state)]

def memberJson (u : GroupUser) : Json :=
  .mkObj [("id", .int u.id), ("name", .str u.name), ("state", .str u.state), ("role", .str u.role)]

def groupJson (g : Group) : Json :=
  .mkObj [("id", .int g.id), ("name", .str g.name), ("desc", .str g.desc),
    ("users", .strs (g.users.map (fun u => (memberJson u).dump)))]

def loginAck (l : Login N) : Json :=
  let response := Json.mkObj [("msgid", EnMsgType.logMsgAck.json), ("errno", .int 0), ("id", .int l.user.id),
    ("name", .str l.user.name), ("errmsg", .str "登陆成功！\n")]
  let response := if l.offlineMsgs = [] then response
    else response.set "offlinemsg" (.strs l.offlineMsgs)
  let response := if l.friends = [] then response
    else response.set "friends" (.strs (l.friends.map (fun u => (friendJson u).dump)))
  if l.groups = [] then response
  else response.set "groups" (.strs (l.groups.map (fun g => (groupJson g).dump)))

def regAck (id : Option Int) : Json :=
  match id with
  | some id => .mkObj [("msgid", EnMsgType.regMsgAck.json), ("errno", .int 0), ("id", .int id)]
  | none => .mkObj [("msgid", EnMsgType.regMsgAck.json), ("errno", .int 1)]

def notFriends : Json :=
  .mkObj [("errno", .int 1), ("msgid", EnMsgType.oneChatMsgAck.json),
    ("errmsg", .str "You are not friends with this user. Message cannot be sent!")]

def nextGroup (l : Login N) : List Group → Pc N
  | [] => .sendAck l
  | g :: todo => .queryMembers l g todo

def login (conn : Conn N) (js : Json) : Pc N :=
  match (js.get? "name").bind Json.toStr?, (js.get? "password").bind Json.toStr? with
  | some name, some password => .queryName conn name password
  | _, _ => .done

def loginout (js : Json) : Pc N :=
  match (js.get? "userid").bind Json.toInt? with
  | some userid => .eraseConn userid
  | none => .done

def reg (conn : Conn N) (js : Json) : Pc N :=
  match (js.get? "name").bind Json.toStr?, (js.get? "password").bind Json.toStr? with
  | some name, some password => .insertUser conn { name := name, password := password }
  | _, _ => .done

def oneChat (conn : Conn N) (js : Json) : Pc N :=
  match (js.get? "userid").bind Json.toInt?, (js.get? "to").bind Json.toInt? with
  | some userid, some toid => .isFriend conn userid toid js.dump
  | _, _ => .done

/-- The handlers that write the users, `_userConnMap` and the subscriptions, or that
deliver a chat message. Those of friends and groups, with their tables and their
answers, are in `ChatService.getHandler`; here a thread for such a frame ends at
once, and their `deliverMessage` calls are tasks of their own. -/
def getHandler (msgid : Int) (conn : Conn N) (js : Json) : Pc N :=
  if msgid = EnMsgType.loginMsg.code then login conn js
  else if msgid = EnMsgType.loginoutMsg.code then loginout js
  else if msgid = EnMsgType.regMsg.code then reg conn js
  else if msgid = EnMsgType.oneChatMsg.code then oneChat conn js
  else .done

def Task.start : Task N → Pc N
  | .frame conn js =>
    match (js.get? "msgid").bind Json.toInt? with
    | some msgid => getHandler msgid conn js
    | none => .done
  | .close conn => .scanConn conn
  | .deliver _ targetId js => .findConn targetId js.dump
  | .subscribed _ userid msg _ => .findSubscribed userid msg
  | .reset _ => .resetState

def Task.node : Task N → N
  | .frame conn _ | .close conn => conn.node
  | .deliver node .. | .subscribed node .. | .reset node => node

end BridgeIM.Server
