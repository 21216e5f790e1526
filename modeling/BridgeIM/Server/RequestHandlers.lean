import BridgeIM.Lib.Program
import BridgeIM.Server.Handler
import BridgeIM.Services.Effects

namespace BridgeIM.Server.RequestHandlers

open CString Db Lib Model Model.UserModel Services

/-- What the handlers of friend and group requests call. A user is reached over
his connection to this server, over Redis or by an offline message. -/
inductive Call
  | friend (c : FriendCall)
  | group (c : GroupCall)
  | findLocalConnection (userid : Int)
  | sendPayload (userid : Int) (payload : String)
  | queryUser (id : Int)
  | publish (channel : Int) (message : String)
  | insertOffline (userid : Int) (msg : String)
  deriving DecidableEq

@[reducible] def Call.Value : Call → Type
  | friend c => c.Value
  | group c => c.Value
  | findLocalConnection _ | insertOffline .. => Bool
  | queryUser _ => User
  | sendPayload .. | publish .. => Unit

structure Engines where
  db : Mysql Database.Tables
  users : Mysql UserModel.Table
  offline : Mysql OfflineMsgModel.Table

structure Engines.Rules (same : String → String → Bool) (E : Engines) : Prop where
  db : Database.Rules same E.db
  users : UserModel.Rules same E.users
  offline : OfflineMsgModel.Rules E.offline

def Engines.strict (same : String → String → Bool) : Engines :=
  ⟨Database.strictMysql same, UserModel.strictMysql same, OfflineMsgModel.strictMysql⟩

theorem Engines.strict_rules (same : String → String → Bool) : (Engines.strict same).Rules same :=
  ⟨Database.strictMysql_rules same, UserModel.strictMysql_rules same, OfflineMsgModel.strictMysql_rules⟩

/-- The database, the users with a connection to this server, and what has been
sent and published. -/
structure Setting where
  db : Database.Tables
  offline : OfflineMsgModel.Table := []
  connections : Int → Bool := fun _ => false
  sent : List (Int × String) := []
  published : List (Int × String) := []

def Setting.put (d : Database.Tables) (w : Setting) : Setting := { w with db := d }

def Call.exec (E : Engines) : (op : Call) → Outcome → Setting → op.Value × Setting
  | friend c, o, w => ((c.exec E.db o w.db).1, w.put (c.exec E.db o w.db).2)
  | group c, o, w => ((c.exec E.db o w.db).1, w.put (c.exec E.db o w.db).2)
  | findLocalConnection userid, _, w => (w.connections userid, w)
  | sendPayload userid payload, _, w => ((), { w with sent := w.sent ++ [(userid, payload)] })
  | queryUser id, o, w =>
    (if o.borrows && o.executes && o.reported then UserModel.queryId E.users id w.db.users else {}, w)
  | publish channel message, o, w =>
    ((), if o.executes then { w with published := w.published ++ [(channel, message)] } else w)
  | insertOffline userid msg, o, w =>
    let c := OfflineMessageCall.insert userid msg
    ((c.exec E.offline o w.offline).1, { w with offline := (c.exec E.offline o w.offline).2 })

def Call.Intended : Call → Prop
  | group c => c.Intended
  | _ => True

instance (op : Call) : Decidable op.Intended := by
  cases op with
  | group c => exact inferInstanceAs (Decidable c.Intended)
  | _ => exact isTrue trivial

/-- The value and the effect of a call in which nothing fails. -/
def Call.effect (same : String → String → Bool) (E : Engines) : (op : Call) → Outcome → Setting → op.Value × Setting
  | friend c, o, w => ((c.effect o.now w.db).1, w.put (c.effect o.now w.db).2)
  | group c, o, w => ((c.effect same E.db o.now w.db).1, w.put (c.effect same E.db o.now w.db).2)
  | op, o, w => op.exec E o w

theorem Call.exec_of_ok {same : String → String → Bool} {E : Engines} {o : Outcome} {op : Call} (hE : E.Rules same)
    (ho : o.Ok) (hc : op.Intended) (w : Setting) : op.exec E o w = op.effect same E o w := by
  cases op with
  | friend c => rw [exec, c.exec_of_ok hE.db ho, effect]
  | group c => rw [exec, c.exec_of_ok hE.db ho hc, effect]
  | _ => rfl

theorem Call.exec_eq {same : String → String → Bool} {E : Engines} (hE : E.Rules same) : Call.exec E =
    fun op o w => if o.Ok ∧ op.Intended then op.effect same E o w else op.exec E o w := by
  funext op o w
  split
  · rename_i h
    exact Call.exec_of_ok hE h.1 h.2 w
  · rfl

/-- How a handler ends: with a response on the connection of the request, after
`deliverMessage`, in the branch that logs an invalid status, or by an exception. -/
inductive Answer
  | sendJson (response : Json)
  | delivered
  | invalidStatus
  | thrown

abbrev Handler := Program Call Call.Value Answer

def reply (type : EnMsgType) (errno : Int) (errmsg : String) : Json :=
  .mkObj [("msgid", type.json), ("errno", .int errno), ("errmsg", .str errmsg)]

def answer (type : EnMsgType) (errno : Int) (errmsg : String) : Handler := .ret (.sendJson (reply type errno errmsg))

def busy : String := "System busy, please try again later."

def deliverMessage (targetId : Int) (payload : String) : Handler :=
  .call (.findLocalConnection targetId) fun found =>
    if found then .call (.sendPayload targetId payload) fun _ => .ret .delivered
    else .call (.queryUser targetId) fun user =>
      if user.state = "online" then .call (.publish targetId payload) fun _ => .ret .delivered
      else .call (.insertOffline targetId payload) fun _ => .ret .delivered

def requestFriend (userid friendid : Int) (payload : String) (result : RequestStatusResult) : Handler :=
  match result.status with
  | .dbError => answer .addFriendResponse 2 busy
  | .notFound => .call (.friend (.addFriendRequest userid friendid)) fun ok =>
    if !ok then answer .addFriendResponse 5 busy else deliverMessage friendid payload
  | .ok =>
    if result.value = "pending" then answer .addFriendResponse 2 "The request has been sent!"
    else if result.value = "rejected" then .call (.friend (.updateRequestStatus userid friendid "pending")) fun ok =>
      if !ok then answer .addFriendResponse 5 busy else deliverMessage friendid payload
    else .ret .invalidStatus

def addFriend (js : Json) : Handler :=
  match (js.get? "userid").bind Json.toInt?, (js.get? "friendid").bind Json.toInt? with
  | some userid, some friendid =>
    if userid = friendid then answer .addFriendResponse 1 "You cannot add yourself!"
    else .call (.friend (.isUserExist friendid)) fun found =>
      if !found then answer .addFriendResponse 1 "User does not exist!"
      else .call (.friend (.isFriend userid friendid)) fun isFriend =>
        if isFriend then answer .addFriendResponse 2 "This user is already your friend!"
        else .call (.friend (.queryRequestStatus userid friendid)) (requestFriend userid friendid js.dump)
  | _, _ => .ret .thrown

def acceptFriendResponse : Json :=
  reply .addFriendResponse 0 "The user has accepted your friend request. You can now chat!"

def rejectFriendResponse : Json :=
  reply .addFriendResponse 3 "The user has declined your friend request."

def befriend (userid friendid : Int) : Handler :=
  .call (.friend (.insertFriend userid friendid)) fun _ => .call (.friend (.insertFriend friendid userid)) fun _ =>
    deliverMessage userid acceptFriendResponse.dump

def acceptFriend (userid friendid : Int) : Handler :=
  .call (.friend (.updateRequestStatus userid friendid "accepted")) fun ok =>
    if !ok then answer .addFriendResponse 5 busy else befriend userid friendid

def rejectFriend (userid friendid : Int) : Handler :=
  .call (.friend (.updateRequestStatus userid friendid "rejected")) fun _ =>
    deliverMessage userid rejectFriendResponse.dump

def answerFriend (userid friendid : Int) (action : String) : Handler :=
  .call (.friend (.isPendingRequest userid friendid)) fun result =>
    match result.status with
    | .dbError => answer .addFriendResponse 2 busy
    | .notFound => answer .addFriendResponse 4 "The user has not sent a friend request to you!"
    | .ok => if action = "accept" then acceptFriend userid friendid else rejectFriend userid friendid

def addFriendHandle (js : Json) : Handler :=
  match (js.get? "userid").bind Json.toInt?, (js.get? "friendid").bind Json.toInt?,
    (js.get? "action").bind Json.toStr? with
  | some userid, some friendid, some action => answerFriend userid friendid action
  | _, _, _ => .ret .thrown

def createGroup (js : Json) : Handler :=
  match (js.get? "userid").bind Json.toInt?, (js.get? "groupname").bind Json.toStr?,
    (js.get? "groupdesc").bind Json.toStr? with
  | some userid, some name, some groupdesc =>
    .call (.group (.isGroupExistName name)) fun result =>
      match result.status with
      | .dbError => answer .createGroupMsgAck 2 busy
      | .notFound => .call (.group (.createGroup name groupdesc)) fun
        | some id => .call (.group (.addGroup userid id "creator")) fun _ =>
          answer .createGroupMsgAck 0 ("Create group success! Your groupid is " ++ decimal id)
        | none => answer .createGroupMsgAck 1 "Create group failed!"
      | .ok => answer .createGroupMsgAck 2 "Group name exists!"
  | _, _, _ => .ret .thrown

def forwardToOwner (groupid : Int) (payload : String) : Handler :=
  .call (.group (.queryGroupOwnerId groupid)) fun owner =>
    match owner.status with
    | .dbError => answer .addGroupResponse 3 busy
    | .notFound => answer .addGroupResponse 1 "The group owner does not exist."
    | .ok => deliverMessage owner.value payload

def requestGroup (userid groupid : Int) (payload : String) (result : RequestStatusResult) : Handler :=
  match result.status with
  | .dbError => answer .addGroupResponse 1 busy
  | .notFound => .call (.group (.addGroupRequest userid groupid)) fun ok =>
    if !ok then answer .addGroupResponse 3 busy else forwardToOwner groupid payload
  | .ok =>
    if result.value = "pending" then answer .addGroupResponse 1 "The request has been sent, please wait for approval!"
    else if result.value = "rejected" then .call (.group (.updateRequestStatus userid groupid "pending")) fun ok =>
      if !ok then answer .addGroupResponse 3 busy else forwardToOwner groupid payload
    else .ret .invalidStatus

def addGroup (js : Json) : Handler :=
  match (js.get? "userid").bind Json.toInt?, (js.get? "groupid").bind Json.toInt? with
  | some userid, some groupid =>
    .call (.group (.isUserInGroup userid groupid)) fun inGroup =>
      match inGroup.status with
      | .dbError => answer .addGroupResponse 2 busy
      | .ok => answer .addGroupResponse 1 "You are already in this group!"
      | .notFound => .call (.group (.isGroupExist groupid)) fun groupExist =>
        match groupExist.status with
        | .dbError => answer .addGroupResponse 1 busy
        | .notFound => answer .addGroupResponse 1 "The group is not exist"
        | .ok => .call (.group (.queryRequestStatus userid groupid)) (requestGroup userid groupid js.dump)
  | _, _ => .ret .thrown

def acceptGroupResponse : Json :=
  reply .addGroupResponse 0 "Your request to join the group has been accepted. You can now chat!"

def rejectGroupResponse : Json :=
  reply .addGroupResponse 1 "Your request to join the group has been rejected. You can not chat!"

def join (userid groupid : Int) : Handler :=
  .call (.group (.addGroup userid groupid "normal")) fun _ => deliverMessage userid acceptGroupResponse.dump

def acceptGroup (userid groupid : Int) : Handler :=
  .call (.group (.updateRequestStatus userid groupid "accepted")) fun _ => join userid groupid

def rejectGroup (userid groupid : Int) : Handler :=
  .call (.group (.updateRequestStatus userid groupid "rejected")) fun _ =>
    deliverMessage userid rejectGroupResponse.dump

def addGroupHandle (js : Json) : Handler :=
  match (js.get? "userid").bind Json.toInt?, (js.get? "groupid").bind Json.toInt? with
  | some userid, some groupid =>
    .call (.group (.isPendingRequest userid groupid)) fun pending =>
      if pending then
        match (js.get? "action").bind Json.toStr? with
        | some action => if action = "accept" then acceptGroup userid groupid else rejectGroup userid groupid
        | none => .ret .thrown
      else answer .addGroupResponse 2 "You have no request to join the group!"
  | _, _ => .ret .thrown

end BridgeIM.Server.RequestHandlers
