import BridgeIM.Server.Cluster
import BridgeIM.Server.Framing
import BridgeIM.Server.RequestHandlers

namespace BridgeIM.Server.ChatService

open Db Lib Model Model.UserModel Model.GroupModel Redis Services

variable {N : Type}

/-- What a handler calls on its own node: `_userConnMap` and the Redis object. -/
inductive LocalCall (N : Type)
  | insertConn (userid : Int) (conn : Conn N)
  | eraseConn (userid : Int)
  | scanConn (conn : Conn N)
  | findConn (userid : Int)
  | subscribe (userid : Int)
  | unsubscribe (userid : Int)
  | listen (l : Listen)
  deriving DecidableEq

@[reducible] def LocalCall.Value : LocalCall N → Type
  | scanConn _ => Option Int
  | findConn _ => Option (Conn N)
  | listen _ => Option (Int × String)
  | _ => Unit

/-- What the handlers of `ChatService` call. -/
inductive ServiceCall (N : Type)
  | friend (c : FriendCall)
  | group (c : GroupCall)
  | offline (c : OfflineMessageCall)
  | queryName (name : String)
  | queryUser (id : Int)
  | insertUser (user : User)
  | updateState (userid : Int) (state : State)
  | resetState
  | queryGroup (userid : Int)
  | queryMembers (groupid : Int)
  | queryGroupName (groupid : Int)
  | queryGroupUsers (userid groupid : Int)
  | atNode (node : N) (c : LocalCall N)
  | publish (channel : Int) (message : String)
  | send (conn : Conn N) (text : String)
  deriving DecidableEq

@[reducible] def ServiceCall.Value : ServiceCall N → Type
  | friend c => c.Value
  | group c => c.Value
  | offline c => c.Value
  | queryName _ | queryUser _ => User
  | insertUser _ => Option Int
  | queryGroup _ => List Group
  | queryMembers _ => List GroupUser
  | queryGroupName _ => String
  | queryGroupUsers .. => List Int
  | atNode _ c => c.Value
  | updateState .. | resetState | publish .. | send .. => Unit

/-- What happens to a call, and the key that `clientCloseException` finds first. -/
structure Chance extends Outcome where
  pick : Option Int := none

/-- The stores that the nodes share, the nodes, and what has been written to the connections. -/
structure System (N : Type) where
  db : Database.Tables
  offline : OfflineMsgModel.Table := []
  node : N → Node N := fun _ => {}
  sent : List (Conn N × String) := []

section

variable [DecidableEq N]

def scan (pick : Option Int) (conn : Conn N) (m : ConnMap N) : Option Int :=
  match pick.filter fun userid => m.lookup userid = some conn with
  | some userid => some userid
  | none => (m.entries.find? fun e => e.2 = conn).map fun e => e.1

def LocalCall.exec (pick : Option Int) : (c : LocalCall N) → Node N → c.Value × Node N
  | insertConn userid conn, s => ((), { s with userConnMap := s.userConnMap.insertNew userid conn })
  | eraseConn userid, s => ((), { s with userConnMap := s.userConnMap.erase userid })
  | scanConn conn, s =>
    let found := scan pick conn s.userConnMap
    (found, { s with userConnMap := found.elim s.userConnMap fun userid => s.userConnMap.erase userid })
  | findConn userid, s => (s.userConnMap.lookup userid, s)
  | subscribe userid, s => ((), { s with redis := s.redis.subscribe userid })
  | unsubscribe userid, s => ((), { s with redis := s.redis.unsubscribe userid })
  | listen .swapCommands, s => (none, { s with redis := s.redis.swapCommands.getD s.redis })
  | listen .nextCommand, s => (none, { s with redis := s.redis.nextCommand.getD s.redis })
  | listen .serve, s => (none, { s with redis := s.redis.serve.getD s.redis })
  | listen .nextReply, s =>
    match s.redis.nextReply with
    | some (redis, message) => (message.map fun m => (m.1, m.2.1), { s with redis := redis })
    | none => (none, s)

def read (o : Chance) : Bool := o.borrows && o.executes && o.reported

def ServiceCall.serve (E : RequestHandlers.Engines) : (op : ServiceCall N) → Chance → System N → op.Value × System N
  | friend c, o, w => ((c.exec E.db o.toOutcome w.db).1, { w with db := (c.exec E.db o.toOutcome w.db).2 })
  | group c, o, w => ((c.exec E.db o.toOutcome w.db).1, { w with db := (c.exec E.db o.toOutcome w.db).2 })
  | offline c, o, w =>
    ((c.exec E.offline o.toOutcome w.offline).1, { w with offline := (c.exec E.offline o.toOutcome w.offline).2 })
  | queryName name, o, w => (if read o then UserModel.queryName E.users name w.db.users else {}, w)
  | queryUser id, o, w => (if read o then UserModel.queryId E.users id w.db.users else {}, w)
  | insertUser user, o, w =>
    if o.borrows && o.executes then
      match UserModel.insert E.users user w.db.users with
      | some (id, users) => (if o.reported then some id else none, { w with db := { w.db with users := users } })
      | none => (none, w)
    else (none, w)
  | updateState userid state, o, w =>
    ((), if o.borrows && o.executes then
      { w with db := { w.db with
        users := UserModel.updateState E.users { id := userid, state := state.text } w.db.users } } else w)
  | resetState, o, w =>
    ((), if o.borrows && o.executes then
      { w with db := { w.db with users := UserModel.resetState E.users w.db.users } } else w)
  | queryGroup userid, o, w => (if read o then GroupModel.queryGroup userid w.db.group else [], w)
  | queryMembers groupid, o, w => (if read o then GroupModel.queryMembers groupid w.db.group w.db.users else [], w)
  | queryGroupName groupid, o, w => (if read o then GroupModel.queryGroupName groupid w.db.group else "", w)
  | queryGroupUsers userid groupid, o, w =>
    (if read o then GroupModel.queryGroupUsers userid groupid w.db.group else [], w)
  | atNode n c, o, w =>
    ((c.exec o.pick (w.node n)).1, { w with node := Function.update w.node n (c.exec o.pick (w.node n)).2 })
  | publish channel message, o, w =>
    ((), if o.executes then { w with node := fun n => { w.node n with
      redis := (w.node n).redis.push (CString.decimal channel) (CString.cstring message) 0 } } else w)
  | send conn text, _, w => ((), { w with sent := w.sent ++ [(conn, text)] })

/-- The ids of what a call returns, in variables of type `int`. -/
def ServiceCall.toInts : (op : ServiceCall N) → op.Value → op.Value
  | friend (.queryFriends _), friends => friends.map fun u => { u with id := Json.wrap u.id }
  | group (.createGroup ..), id => id.map Json.wrap
  | group (.queryGroupOwnerId _), owner => { owner with value := Json.wrap owner.value }
  | queryName _, user => { user with id := Json.wrap user.id }
  | queryUser _, user => { user with id := Json.wrap user.id }
  | insertUser _, id => id.map Json.wrap
  | queryGroup _, groups => groups.map fun g => { g with id := Json.wrap g.id }
  | queryMembers _, users => users.map fun u => { u with id := Json.wrap u.id }
  | queryGroupUsers .., ids => ids.map Json.wrap
  | _, a => a

def ServiceCall.exec (E : RequestHandlers.Engines) (op : ServiceCall N) (o : Chance) (w : System N) :
    op.Value × System N :=
  (op.toInts (op.serve E o w).1, (op.serve E o w).2)

end

/-- How a handler ends: it returns, or it throws because a field that it reads
is missing or of another type. -/
inductive Ending
  | returned
  | thrown
  deriving DecidableEq, Repr

abbrev Service (N : Type) := Program (ServiceCall N) ServiceCall.Value Ending

def sendPayload (conn : Conn N) (payload : String) : Service N :=
  .call (.send conn (payload ++ "\n")) fun _ => .ret .returned

def sendJson (conn : Conn N) (response : Json) : Service N := sendPayload conn response.dump

def deliverMessage (node : N) (targetId : Int) (payload : String) : Service N :=
  .call (.atNode node (.findConn targetId)) fun
    | some connection => sendPayload connection payload
    | none => .call (.queryUser targetId) fun user =>
      if user.state = "online" then .call (.publish targetId payload) fun _ => .ret .returned
      else .call (.offline (.insert targetId payload)) fun _ => .ret .returned

/-- A handler of a friend or group request that came on a connection. The
parameter `found` is what `findLocalConnection` has returned last. -/
def onConn (conn : Conn N) (found : Option (Conn N)) : RequestHandlers.Handler → Service N
  | .ret (.sendJson response) => sendJson conn response
  | .ret .thrown => .ret .thrown
  | .ret _ => .ret .returned
  | .call (.friend c) next => .call (.friend c) fun a => onConn conn found (next a)
  | .call (.group c) next => .call (.group c) fun a => onConn conn found (next a)
  | .call (.findLocalConnection userid) next =>
    .call (.atNode conn.node (.findConn userid)) fun a => onConn conn a (next a.isSome)
  | .call (.sendPayload _ payload) next =>
    match found with
    | some connection => .call (.send connection (payload ++ "\n")) fun _ => onConn conn found (next ())
    | none => onConn conn found (next ())
  | .call (.queryUser id) next => .call (.queryUser id) fun a => onConn conn found (next a)
  | .call (.publish channel message) next =>
    .call (.publish channel message) fun _ => onConn conn found (next ())
  | .call (.insertOffline userid msg) next =>
    .call (.offline (.insert userid msg)) fun a => onConn conn found (next a)

theorem onConn_deliverMessage (conn : Conn N) (found : Option (Conn N)) (targetId : Int) (payload : String) :
    onConn conn found (RequestHandlers.deliverMessage targetId payload) = deliverMessage conn.node targetId payload := by
  rw [RequestHandlers.deliverMessage, onConn, deliverMessage]
  congr 1
  funext a
  cases a with
  | some connection => rfl
  | none =>
    refine congrArg (Program.call _) (funext fun user => ?_)
    dsimp only
    split <;> rfl

def markUserOffline (node : N) (userid : Int) : Service N :=
  .call (.atNode node (.unsubscribe userid)) fun _ => .call (.updateState userid .offline) fun _ => .ret .returned

def queryMembers : List Group → Program (ServiceCall N) ServiceCall.Value (List Group)
  | [] => .ret []
  | group :: groups => .call (.queryMembers group.id) fun users =>
    (queryMembers groups).bind fun rest => .ret ({ group with users := users } :: rest)

def acknowledge (conn : Conn N) (user : User) (offlineMsgs : List String) : Service N :=
  .call (.friend (.queryFriends user.id)) fun friends => .call (.queryGroup user.id) fun groups =>
    (queryMembers groups).bind fun groups =>
      sendJson conn (loginAck { conn := conn, user := user, offlineMsgs := offlineMsgs, friends := friends, groups := groups })

def accept (conn : Conn N) (user : User) : Service N :=
  .call (.updateState user.id .online) fun _ => .call (.atNode conn.node (.insertConn user.id conn)) fun _ =>
    .call (.atNode conn.node (.subscribe user.id)) fun _ => .call (.offline (.query user.id)) fun offlineMsgs =>
      if offlineMsgs = [] then acknowledge conn user []
      else .call (.offline (.remove user.id)) fun _ => acknowledge conn user offlineMsgs

def login (conn : Conn N) (js : Json) : Service N :=
  match (js.get? "name").bind Json.toStr?, (js.get? "password").bind Json.toStr? with
  | some name, some password => .call (.queryName name) fun user =>
    if user.name = "" then sendJson conn (loginError 3 "User does not exist. Please register first.\n")
    else if user.password ≠ password then sendJson conn (loginError 2 "Incorrect password. Please try again.\n")
    else if user.state = "online" then sendJson conn (loginError 1 "this account is using, input another!\n")
    else accept conn { user with state := "online" }
  | _, _ => .ret .thrown

def loginout (conn : Conn N) (js : Json) : Service N :=
  match (js.get? "userid").bind Json.toInt? with
  | some userid => .call (.atNode conn.node (.eraseConn userid)) fun _ => markUserOffline conn.node userid
  | none => .ret .thrown

def reg (conn : Conn N) (js : Json) : Service N :=
  match (js.get? "name").bind Json.toStr?, (js.get? "password").bind Json.toStr? with
  | some name, some password => .call (.insertUser { name := name, password := password }) fun id =>
    sendJson conn (regAck id)
  | _, _ => .ret .thrown

def clientCloseException (conn : Conn N) : Service N :=
  .call (.atNode conn.node (.scanConn conn)) fun
    | some userid => if userid ≠ -1 then markUserOffline conn.node userid else .ret .returned
    | none => .ret .returned

def oneChat (conn : Conn N) (js : Json) : Service N :=
  match (js.get? "userid").bind Json.toInt?, (js.get? "to").bind Json.toInt? with
  | some userid, some toid => .call (.friend (.isFriend userid toid)) fun isFriend =>
    if !isFriend then sendJson conn notFriends else deliverMessage conn.node toid js.dump
  | _, _ => .ret .thrown

def deliverAll (node : N) (payload : String) : List Int → Service N
  | [] => .ret .returned
  | id :: ids => (deliverMessage node id payload).bind fun _ => deliverAll node payload ids

def groupChat (conn : Conn N) (js : Json) : Service N :=
  match (js.get? "userid").bind Json.toInt?, (js.get? "groupid").bind Json.toInt? with
  | some userid, some groupid => .call (.queryGroupName groupid) fun groupname =>
    .call (.queryGroupUsers userid groupid) fun ids =>
      deliverAll conn.node (js.set "groupname" (.str groupname)).dump ids
  | _, _ => .ret .thrown

def handleRedisSubscribeMessage (node : N) (userid : Int) (msg : String) : Service N :=
  .call (.atNode node (.findConn userid)) fun
    | some connection => sendPayload connection msg
    | none => .call (.offline (.insert userid msg)) fun _ => .ret .returned

/-- The handler that `getHandler` selects. A request whose fields are missing
or of another type throws. -/
def getHandler (msgid : Int) (conn : Conn N) (js : Json) : Service N :=
  if msgid = EnMsgType.loginMsg.code then login conn js
  else if msgid = EnMsgType.loginoutMsg.code then loginout conn js
  else if msgid = EnMsgType.regMsg.code then reg conn js
  else if msgid = EnMsgType.oneChatMsg.code then oneChat conn js
  else if msgid = EnMsgType.addFriendRequest.code then onConn conn none (RequestHandlers.addFriend js)
  else if msgid = EnMsgType.addFriendHandle.code then onConn conn none (RequestHandlers.addFriendHandle js)
  else if msgid = EnMsgType.createGroupMsg.code then onConn conn none (RequestHandlers.createGroup js)
  else if msgid = EnMsgType.addGroupMsg.code then onConn conn none (RequestHandlers.addGroup js)
  else if msgid = EnMsgType.addGroupHandle.code then onConn conn none (RequestHandlers.addGroupHandle js)
  else if msgid = EnMsgType.groupChatMsg.code then groupChat conn js
  else .ret .returned

/-- What a thread is started for: a frame whose task the business pool takes or
refuses, a connection that closes, a turn of the Redis side of a node, or the reset of a server that stops. -/
inductive Arrival (N : Type)
  | frame (conn : Conn N) (js : Json)
  | refused (conn : Conn N) (js : Json)
  | closed (conn : Conn N)
  | listen (node : N) (l : Listen)
  | reset

def Arrival.program : Arrival N → Service N
  | frame conn js =>
    match (js.get? "msgid").bind Json.toInt? with
    | some msgid => getHandler msgid conn js
    | none => .ret .returned
  | refused conn js =>
    match (js.get? "msgid").bind Json.toInt? with
    | some _ => sendJson conn Framing.serverBusy
    | none => .ret .returned
  | closed conn => clientCloseException conn
  | listen node l => .call (.atNode node (.listen l)) fun
    | some (userid, msg) => handleRedisSubscribeMessage node userid msg
    | none => .ret .returned
  | reset => .call .resetState fun _ => .ret .returned

abbrev Run (N : Type) := Threads (ServiceCall N) ServiceCall.Value Ending (System N)

def fresh (db : Database.Tables) : Run N := ⟨{ db := db }, []⟩

/-- The nodes, with the handlers of all that arrives at them side by side. -/
def service [DecidableEq N] (E : RequestHandlers.Engines) : Machine (Run N) (ThreadMove (Arrival N) Chance) :=
  Threads.interleave Arrival.program (ServiceCall.exec E)

end BridgeIM.Server.ChatService
