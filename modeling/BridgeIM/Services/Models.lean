import BridgeIM.Db.DbSession
import BridgeIM.Model.OfflineMsgModel
import BridgeIM.Model.Requests
import BridgeIM.Model.UserModel

namespace BridgeIM.Services

open CString Db Model.Requests Model.UserModel

inductive QueryStatus
  | ok | notFound | dbError
  deriving DecidableEq, Repr

structure RequestStatusResult where
  status : QueryStatus
  value : String
  deriving DecidableEq, Repr

structure BoolQueryResult where
  status : QueryStatus
  value : Bool
  deriving DecidableEq, Repr

structure IntQueryResult where
  status : QueryStatus
  value : Int
  deriving DecidableEq, Repr

variable {D : Type} (session : DbSession D)

namespace FriendModel

def isUserExistSql (friendid : Int) : String := "select * from User where id = " ++ decimal friendid

def isFriendSql (userid friendid : Int) : String :=
  "select * from Friend where userid = " ++ decimal userid ++ " and friendid = " ++ decimal friendid

def insertSql (id friendid : Int) : String :=
  "insert into Friend value ('" ++ decimal id ++ "','" ++ decimal friendid ++ "')"

def querySql (userid : Int) : String :=
  "select User.id,User.name,User.state from User inner join " ++
    "Friend on User.id = Friend.friendid where Friend.userid = " ++ decimal userid

def isUserExist (friendid : Int) (d : D) : Bool :=
  let result := session.query (isUserExistSql friendid) d
  result.valid && result.next

def isFriend (userid friendid : Int) (d : D) : Bool :=
  let result := session.query (isFriendSql userid friendid) d
  result.valid && result.next

def insert (id friendid : Int) (d : D) : D := (session.update (insertSql id friendid) d).2

def query (userid : Int) (d : D) : List User :=
  (session.query (querySql userid) d).rows.map fun row =>
    { id := getInt row 0, name := getString row 1, state := getString row 2 }

end FriendModel

/-! What `FriendRequestModel` and `GroupRequestModel` have in common. -/

namespace RequestModel

variable (c : Kind)

def statusSql (userid other : Int) : String :=
  "select status from " ++ c.table ++ " where requester_id = " ++ decimal userid ++ (" and " ++ c.column ++ " = ") ++
    decimal other ++ ";"

/-- The statement of `updateRequestStatus`, which refuses an unknown status. -/
def updateSql (userid other : Int) (result : String) : Option String :=
  if result = "accepted" ∨ result = "rejected" then
    some ("update " ++ c.table ++ " set status = '" ++ result ++ "', handled_at = now() where requester_id = " ++
      decimal userid ++ (" and " ++ c.column ++ " = ") ++ decimal other ++ ";")
  else if result = "pending" then
    some ("update " ++ c.table ++ " set status = '" ++ result ++ "', handled_at = null where requester_id = " ++
      decimal userid ++ (" and " ++ c.column ++ " = ") ++ decimal other ++ ";")
  else none

def pending (r : QueryResult) : Bool := r.next && getString r.currentRow 0 = "pending"

def updateRequestStatus (userid other : Int) (result : String) (d : D) : Bool × D :=
  match updateSql c userid other result with
  | some sql => session.update sql d
  | none => (false, d)

def queryRequestStatus (userid other : Int) (d : D) : RequestStatusResult :=
  let result := session.query (statusSql c userid other) d
  if !result.valid then ⟨.dbError, ""⟩
  else if !result.next then ⟨.notFound, ""⟩
  else ⟨.ok, getString result.currentRow 0⟩

end RequestModel

namespace FriendRequestModel

def addFriendRequestSql (userid targetid : Int) : String :=
  "insert into FriendRequest (requester_id, target_id,status) values (" ++ decimal userid ++ "," ++
    decimal targetid ++ ",'pending');"

def statusSql (userid targetid : Int) : String := RequestModel.statusSql .friend userid targetid

def updateSql (userid targetid : Int) (result : String) : Option String :=
  RequestModel.updateSql .friend userid targetid result

def addFriendRequest (userid targetid : Int) (d : D) : Bool × D :=
  session.update (addFriendRequestSql userid targetid) d

def isPendingRequest (userid targetid : Int) (d : D) : BoolQueryResult :=
  let result := session.query (statusSql userid targetid) d
  if !result.valid then ⟨.dbError, false⟩
  else if RequestModel.pending result then ⟨.ok, true⟩
  else ⟨.notFound, false⟩

def updateRequestStatus (userid targetid : Int) (result : String) (d : D) : Bool × D :=
  RequestModel.updateRequestStatus session .friend userid targetid result d

def queryRequestStatus (userid targetid : Int) (d : D) : RequestStatusResult :=
  RequestModel.queryRequestStatus session .friend userid targetid d

end FriendRequestModel

namespace GroupRequestModel

def addGroupRequestSql (userid groupid : Int) : String :=
  "insert into GroupRequest (requester_id, group_id, status) values (" ++ decimal userid ++ "," ++
    decimal groupid ++ ", 'pending');"

def addGroupRequest (userid groupid : Int) (d : D) : Bool × D :=
  session.update (addGroupRequestSql userid groupid) d

/-- Unlike the one of `FriendRequestModel` it answers a failed query with false. -/
def isPendingRequest (userid groupid : Int) (d : D) : Bool :=
  let result := session.query (RequestModel.statusSql .group userid groupid) d
  if !result.valid then false else RequestModel.pending result

def updateRequestStatus (userid groupid : Int) (result : String) (d : D) : Bool × D :=
  RequestModel.updateRequestStatus session .group userid groupid result d

def queryRequestStatus (userid groupid : Int) (d : D) : RequestStatusResult :=
  RequestModel.queryRequestStatus session .group userid groupid d

end GroupRequestModel

namespace GroupModel

def isGroupExistNameSql (name : String) : String := "select * from AllGroup where groupname = '" ++ name ++ "'"

def isGroupExistSql (groupid : Int) : String := "select id from AllGroup where id = " ++ decimal groupid

def createGroupSql (name desc : String) : String :=
  "insert into AllGroup (groupname , groupdesc) value ('" ++ name ++ "','" ++ desc ++ "')"

def addGroupSql (userid groupid : Int) (role : String) : String :=
  "insert into GroupUser value (" ++ decimal groupid ++ "," ++ decimal userid ++ (",'" ++ role ++ "')")

def isUserInGroupSql (userid groupid : Int) : String :=
  "select * from GroupUser where userid = '" ++ decimal userid ++ "' and groupid = '" ++ decimal groupid ++ "'"

def queryGroupOwnerIdSql (groupid : Int) : String :=
  "select userid from GroupUser where groupid = " ++ decimal groupid ++ " and grouprole = 'creator'"

def found (result : QueryResult) : BoolQueryResult :=
  if !result.valid then ⟨.dbError, false⟩ else if result.next then ⟨.ok, true⟩ else ⟨.notFound, false⟩

def isGroupExistName (name : String) (d : D) : BoolQueryResult := found (session.query (isGroupExistNameSql name) d)

def isGroupExist (groupid : Int) (d : D) : BoolQueryResult := found (session.query (isGroupExistSql groupid) d)

def createGroup (name desc : String) (d : D) : Option Int × D :=
  match session.update (createGroupSql name desc) d with
  | (true, d') => (some (session.lastInsertId (createGroupSql name desc) d), d')
  | (false, d') => (none, d')

def addGroup (userid groupid : Int) (role : String) (d : D) : D :=
  (session.update (addGroupSql userid groupid role) d).2

def isUserInGroup (userid groupid : Int) (d : D) : BoolQueryResult :=
  found (session.query (isUserInGroupSql userid groupid) d)

def queryGroupOwnerId (groupid : Int) (d : D) : IntQueryResult :=
  let result := session.query (queryGroupOwnerIdSql groupid) d
  if !result.valid then ⟨.dbError, -1⟩
  else if !result.next then ⟨.notFound, -1⟩
  else ⟨.ok, getInt result.currentRow 0⟩

end GroupModel

namespace OfflineMsgModel

open Model.OfflineMsgModel

def insert (userid : Int) (msg : String) (d : D) : D := (session.update (insertSql userid msg) d).2

def remove (userid : Int) (d : D) : D := (session.update (removeSql userid) d).2

def query (userid : Int) (d : D) : List String :=
  (session.query (querySql userid) d).rows.map fun row => getString row 0

variable (m : Mysql Model.OfflineMsgModel.Table) (userid : Int) (t : Model.OfflineMsgModel.Table)

/-- With a connection the model functions are the ones of the offline messages. -/
theorem insert_connected (msg : String) : insert { conn := some m } userid msg t =
    Model.OfflineMsgModel.insert m userid msg t := by
  rw [insert, Model.OfflineMsgModel.insert, DbSession.update, Option.bind_some]
  cases m.execUpdate (insertSql userid msg) t <;> rfl

theorem remove_connected : remove { conn := some m } userid t = Model.OfflineMsgModel.remove m userid t := by
  rw [remove, Model.OfflineMsgModel.remove, DbSession.update, Option.bind_some]
  cases m.execUpdate (removeSql userid) t <;> rfl

theorem query_connected : query { conn := some m } userid t = Model.OfflineMsgModel.query m userid t := by
  rw [query, Model.OfflineMsgModel.query, DbSession.query, Option.bind_some]
  cases m.execQuery (querySql userid) t <;> rfl

end OfflineMsgModel

end BridgeIM.Services
