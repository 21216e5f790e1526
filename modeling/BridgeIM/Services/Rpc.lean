import BridgeIM.Services.Models

namespace BridgeIM.Services

open Db Model.UserModel

namespace Proto

inductive QueryStatus
  | ok | notFound | dbError
  deriving DecidableEq, Repr

structure ResultCode where
  errcode : Int
  errmsg : String
  deriving DecidableEq, Repr

structure BoolQueryResult where
  status : QueryStatus
  value : Bool
  deriving DecidableEq, Repr

structure RequestStatusResult where
  status : QueryStatus
  value : String
  deriving DecidableEq, Repr

structure FriendInfo where
  id : Int
  name : String
  state : String
  deriving DecidableEq, Repr

structure QueryFriendsResponse where
  code : ResultCode
  friends : List FriendInfo
  deriving DecidableEq, Repr

structure OfflineMessageQueryResponse where
  code : ResultCode
  messages : List String
  deriving DecidableEq, Repr

end Proto

def toProtoQueryStatus : QueryStatus → Proto.QueryStatus
  | .ok => .ok
  | .notFound => .notFound
  | .dbError => .dbError

def fromProtoQueryStatus : Proto.QueryStatus → QueryStatus
  | .ok => .ok
  | .notFound => .notFound
  | .dbError => .dbError

variable {D : Type} (session : DbSession D)

namespace OfflineMessageServiceImpl

def insert (userid : Int) (msg : String) (d : D) : Proto.ResultCode × D :=
  (⟨0, ""⟩, OfflineMsgModel.insert session userid msg d)

def query (userid : Int) (d : D) : Proto.OfflineMessageQueryResponse :=
  ⟨⟨0, ""⟩, OfflineMsgModel.query session userid d⟩

def remove (userid : Int) (d : D) : Proto.ResultCode × D :=
  (⟨0, ""⟩, OfflineMsgModel.remove session userid d)

end OfflineMessageServiceImpl

namespace FriendServiceImpl

def resultCode (method : String) (ok : Bool) : Proto.ResultCode :=
  ⟨if ok then 0 else 1, if ok then "" else method ++ " failed"⟩

def isUserExist (friendid : Int) (d : D) : Proto.BoolQueryResult :=
  ⟨.ok, FriendModel.isUserExist session friendid d⟩

def isFriend (userid friendid : Int) (d : D) : Proto.BoolQueryResult :=
  ⟨.ok, FriendModel.isFriend session userid friendid d⟩

def insertFriend (userid friendid : Int) (d : D) : Proto.ResultCode × D :=
  (⟨0, ""⟩, FriendModel.insert session userid friendid d)

def queryFriends (userid : Int) (d : D) : Proto.QueryFriendsResponse :=
  ⟨⟨0, ""⟩, (FriendModel.query session userid d).map fun user => ⟨user.id, user.name, user.state⟩⟩

def addFriendRequest (userid targetid : Int) (d : D) : Proto.ResultCode × D :=
  let (ok, d') := FriendRequestModel.addFriendRequest session userid targetid d
  (resultCode "addFriendRequest" ok, d')

def isPendingRequest (userid targetid : Int) (d : D) : Proto.BoolQueryResult :=
  let result := FriendRequestModel.isPendingRequest session userid targetid d
  ⟨toProtoQueryStatus result.status, result.value⟩

def updateRequestStatus (userid targetid : Int) (status : String) (d : D) : Proto.ResultCode × D :=
  let (ok, d') := FriendRequestModel.updateRequestStatus session userid targetid status d
  (resultCode "updateRequestStatus" ok, d')

def queryRequestStatus (userid targetid : Int) (d : D) : Proto.RequestStatusResult :=
  let result := FriendRequestModel.queryRequestStatus session userid targetid d
  ⟨toProtoQueryStatus result.status, result.value⟩

end FriendServiceImpl

inductive OfflineMessageCall
  | insert (userid : Int) (msg : String)
  | query (userid : Int)
  | remove (userid : Int)
  deriving DecidableEq, Repr

inductive FriendCall
  | isUserExist (friendid : Int)
  | isFriend (userid friendid : Int)
  | insertFriend (userid friendid : Int)
  | queryFriends (userid : Int)
  | addFriendRequest (userid targetid : Int)
  | isPendingRequest (userid targetid : Int)
  | updateRequestStatus (userid targetid : Int) (status : String)
  | queryRequestStatus (userid targetid : Int)
  deriving DecidableEq, Repr

namespace OfflineMessageCall

@[reducible] def Response : OfflineMessageCall → Type
  | insert .. | remove _ => Proto.ResultCode
  | query _ => Proto.OfflineMessageQueryResponse

@[reducible] def Value : OfflineMessageCall → Type
  | insert .. | remove _ => Bool
  | query _ => List String

def serve : (c : OfflineMessageCall) → D → c.Response × D
  | insert userid msg, d => OfflineMessageServiceImpl.insert session userid msg d
  | query userid, d => (OfflineMessageServiceImpl.query session userid d, d)
  | remove userid, d => OfflineMessageServiceImpl.remove session userid d

end OfflineMessageCall

namespace FriendCall

@[reducible] def Response : FriendCall → Type
  | isUserExist _ | isFriend .. | isPendingRequest .. => Proto.BoolQueryResult
  | insertFriend .. | addFriendRequest .. | updateRequestStatus .. => Proto.ResultCode
  | queryFriends _ => Proto.QueryFriendsResponse
  | queryRequestStatus .. => Proto.RequestStatusResult

@[reducible] def Value : FriendCall → Type
  | isUserExist _ | isFriend .. | addFriendRequest .. | updateRequestStatus .. => Bool
  | insertFriend .. => Unit
  | queryFriends _ => List User
  | isPendingRequest .. => BoolQueryResult
  | queryRequestStatus .. => RequestStatusResult

def serve : (c : FriendCall) → D → c.Response × D
  | isUserExist friendid, d => (FriendServiceImpl.isUserExist session friendid d, d)
  | isFriend userid friendid, d => (FriendServiceImpl.isFriend session userid friendid d, d)
  | insertFriend userid friendid, d => FriendServiceImpl.insertFriend session userid friendid d
  | queryFriends userid, d => (FriendServiceImpl.queryFriends session userid d, d)
  | addFriendRequest userid targetid, d => FriendServiceImpl.addFriendRequest session userid targetid d
  | isPendingRequest userid targetid, d => (FriendServiceImpl.isPendingRequest session userid targetid d, d)
  | updateRequestStatus userid targetid status, d =>
    FriendServiceImpl.updateRequestStatus session userid targetid status d
  | queryRequestStatus userid targetid, d => (FriendServiceImpl.queryRequestStatus session userid targetid d, d)

end FriendCall

/-! The wrappers of `ChatService`. They get no response when the RPC has failed. -/

/-- `insertOfflineMessageByRpc`, and the wrappers that differ in the request only. -/
def codeByRpc (response : Option Proto.ResultCode) : Bool :=
  match response with
  | none => false
  | some code => code.errcode = 0

def queryOfflineMessagesByRpc (response : Option Proto.OfflineMessageQueryResponse) : List String :=
  match response with
  | none => []
  | some response => response.messages

def boolByRpc (response : Option Proto.BoolQueryResult) : Bool :=
  match response with
  | none => false
  | some result => result.status = .ok && result.value

def queryFriendsByRpc (response : Option Proto.QueryFriendsResponse) : List User :=
  match response with
  | none => []
  | some response => response.friends.map fun info => { id := info.id, name := info.name, password := "", state := info.state }

def isPendingRequestByRpc (response : Option Proto.BoolQueryResult) : BoolQueryResult :=
  match response with
  | none => ⟨.dbError, false⟩
  | some result => ⟨fromProtoQueryStatus result.status, result.value⟩

def queryRequestStatusByRpc (response : Option Proto.RequestStatusResult) : RequestStatusResult :=
  match response with
  | none => ⟨.dbError, ""⟩
  | some result => ⟨fromProtoQueryStatus result.status, result.value⟩

def OfflineMessageCall.byRpc : (c : OfflineMessageCall) → Option c.Response → c.Value
  | insert .., r | remove _, r => codeByRpc r
  | query _, r => queryOfflineMessagesByRpc r

def FriendCall.byRpc : (c : FriendCall) → Option c.Response → c.Value
  | isUserExist _, r | isFriend .., r => boolByRpc r
  | insertFriend .., _ => ()
  | queryFriends _, r => queryFriendsByRpc r
  | addFriendRequest .., r | updateRequestStatus .., r => codeByRpc r
  | isPendingRequest .., r => isPendingRequestByRpc r
  | queryRequestStatus .., r => queryRequestStatusByRpc r

end BridgeIM.Services
