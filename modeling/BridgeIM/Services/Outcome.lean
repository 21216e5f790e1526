import BridgeIM.Model.Database
import BridgeIM.Services.Rpc

namespace BridgeIM.Services

open Db Lib.SqlText Model Model.Requests

/-- What happens to a call: the time at the database, whether the request
arrives at the service, a connection can be borrowed, MySQL executes the
statement, its result is reported and the response arrives. -/
structure Outcome where
  now : Int := 0
  arrives : Bool := true
  borrows : Bool := true
  executes : Bool := true
  reported : Bool := true
  answers : Bool := true
  deriving DecidableEq, Repr

variable {D : Type}

def refusing : Mysql D where
  update _ _ := none
  query _ _ := none

namespace Outcome

def session (m : Mysql D) (o : Outcome) : DbSession D where
  conn := if o.borrows then some (if o.executes then m else refusing) else none
  lost := !o.reported

def applied (o : Outcome) : Bool := o.arrives && (o.borrows && o.executes)

def succeeds (o : Outcome) : Bool := o.applied && (o.reported && o.answers)

/-- Nothing fails. -/
def Ok (o : Outcome) : Prop := o.succeeds = true

instance (o : Outcome) : Decidable o.Ok := inferInstanceAs (Decidable (_ = _))

theorem applied_of_ok {o : Outcome} (h : o.Ok) : o.applied = true := by
  simp only [Ok, succeeds, Bool.and_eq_true] at h
  exact h.1

variable {m : Mysql D} {sql : String} {ts : List Token}

theorem session_update (o : Outcome) (hs : sent sql = some ts) (d : D) : (o.session m).update sql d =
    if o.borrows && o.executes then (m.update ts d).elim (false, d) fun d' => (o.reported, d') else (false, d) := by
  cases hb : o.borrows <;> cases he : o.executes <;>
    simp [DbSession.update, session, hb, he, Mysql.execUpdate, hs, refusing]
  cases m.update ts d <;> rfl

theorem session_query (o : Outcome) (hs : sent sql = some ts) (d : D) : (o.session m).query sql d =
    if o.borrows && o.executes && o.reported then (m.query ts d).elim ⟨[], false⟩ fun rows => ⟨rows, true⟩
    else ⟨[], false⟩ := by
  cases hb : o.borrows <;> cases he : o.executes <;> cases hr : o.reported <;>
    simp [DbSession.query, session, hb, he, hr, Mysql.execQuery, hs, refusing]
  all_goals cases m.query ts d <;> rfl

end Outcome

open Database

def FriendCall.exec (m : Mysql Tables) (c : FriendCall) (o : Outcome) (d : Tables) : c.Value × Tables :=
  let d := d.tick o.now
  if o.arrives then
    let (response, d') := c.serve (o.session m) d
    (c.byRpc (if o.answers then some response else none), d')
  else (c.byRpc none, d)

def OfflineMessageCall.exec (m : Mysql OfflineMsgModel.Table) (c : OfflineMessageCall) (o : Outcome)
    (d : OfflineMsgModel.Table) : c.Value × OfflineMsgModel.Table :=
  if o.arrives then
    let (response, d') := c.serve (o.session m) d
    (c.byRpc (if o.answers then some response else none), d')
  else (c.byRpc none, d)

theorem exec_insertOffline (m : Mysql OfflineMsgModel.Table) (o : Outcome) (u : Int) (p : String)
    (t : OfflineMsgModel.Table) : ((OfflineMessageCall.insert u p).exec m o t).2 =
      if o.applied then Model.OfflineMsgModel.insert m u p t else t := by
  have hr : (refusing : Mysql OfflineMsgModel.Table).execUpdate (Model.OfflineMsgModel.insertSql u p) t = none := by
    rw [Mysql.execUpdate]
    cases sent (Model.OfflineMsgModel.insertSql u p) <;> rfl
  obtain ⟨now, arrives, borrows, executes, reported, answers⟩ := o
  cases arrives <;> cases borrows <;> cases executes <;>
    simp [OfflineMessageCall.exec, OfflineMessageCall.serve, OfflineMessageServiceImpl.insert,
      Services.OfflineMsgModel.insert, Model.OfflineMsgModel.insert, DbSession.update, Outcome.session,
      Outcome.applied, hr]
  cases m.execUpdate (Model.OfflineMsgModel.insertSql u p) t <;> rfl

def foundStatus (b : Bool) : BoolQueryResult := if b then ⟨.ok, true⟩ else ⟨.notFound, false⟩

theorem isEmpty_filter {α : Type} (l : List α) (p : α → Bool) : (l.filter p).isEmpty = !l.any p := by
  induction l with
  | nil => rfl
  | cons a l ih => cases h : p a <;> simp [h, ih]

theorem getString_status (s : Option Status) : getString [s.map Status.text] 0 = (s.map Status.text).getD "" := by
  cases s with
  | none => rfl
  | some s => cases s <;> decide

theorem text_eq_pending {s : Option Status} : (s.map Status.text).getD "" = "pending" ↔ s = some .pending := by
  cases s with
  | none => decide
  | some s => cases s <;> decide

variable {same : String → String → Bool} {m : Mysql Tables} {o : Outcome}

theorem query_eq (hm : Rules same m) {sql : String} {q : Query} (hs : sent sql = some q.tokens) (d : Tables) :
    (o.session m).query sql d = if o.borrows && o.executes && o.reported then ⟨q.rows same d, true⟩ else ⟨[], false⟩ := by
  rw [Outcome.session_query o hs, hm.query]
  rfl

theorem update_eq (hm : Rules same m) {sql : String} {u : Update} (hs : sent sql = some u.tokens) (d : Tables) :
    (o.session m).update sql d = if o.borrows && o.executes then
      (u.apply same (m.insertId u.tokens d) d).elim (false, d) fun d' => (o.reported, d') else (false, d) := by
  rw [Outcome.session_update o hs, hm.update]

theorem exec_isUserExist (hm : Rules same m) (id : Int) (d : Tables) :
    (FriendCall.isUserExist id).exec m o d =
      (o.succeeds && d.users.rows.any fun r => r.id = id, d.tick o.now) := by
  simp only [FriendCall.exec, FriendCall.serve, FriendServiceImpl.isUserExist, Services.FriendModel.isUserExist,
    query_eq hm (sent_isUserExistSql id), FriendCall.byRpc, Outcome.succeeds, Outcome.applied]
  obtain ⟨now, arrives, borrows, executes, reported, answers⟩ := o
  cases arrives <;> cases borrows <;> cases executes <;> cases reported <;> cases answers <;>
    simp [boolByRpc, Query.rows, isEmpty_filter, QueryResult.next]

theorem exec_isFriend (hm : Rules same m) (a b : Int) (d : Tables) :
    (FriendCall.isFriend a b).exec m o d = (o.succeeds && decide ((a, b) ∈ d.friends), d.tick o.now) := by
  simp only [FriendCall.exec, FriendCall.serve, FriendServiceImpl.isFriend, Services.FriendModel.isFriend,
    query_eq hm (sent_isFriendSql a b), FriendCall.byRpc, Outcome.succeeds, Outcome.applied]
  obtain ⟨now, arrives, borrows, executes, reported, answers⟩ := o
  cases arrives <;> cases borrows <;> cases executes <;> cases reported <;> cases answers <;>
    simp [boolByRpc, Query.rows, isEmpty_filter, QueryResult.next, List.any_eq]

theorem exec_queryFriends (hm : Rules same m) (a : Int) (d : Tables) :
    (FriendCall.queryFriends a).exec m o d = (if o.succeeds then d.friendsOf a else [], d.tick o.now) := by
  simp only [FriendCall.exec, FriendCall.serve, FriendServiceImpl.queryFriends, Services.FriendModel.query,
    query_eq hm (sent_querySql a), FriendCall.byRpc, Outcome.succeeds, Outcome.applied]
  obtain ⟨now, arrives, borrows, executes, reported, answers⟩ := o
  cases arrives <;> cases borrows <;> cases executes <;> cases reported <;> cases answers <;>
    simp [queryFriendsByRpc, Query.rows, Tables.friendsOf, List.map_flatMap, getInt, getString, CString.leadingInt_decimal,
      UserModel.Record.row, Function.comp_def]

theorem exec_insertFriend (hm : Rules same m) (a b : Int) (d : Tables) :
    (FriendCall.insertFriend a b).exec m o d = ((), if o.applied then (d.tick o.now).addFriend (a, b) else d.tick o.now) := by
  simp only [FriendCall.exec, FriendCall.serve, FriendServiceImpl.insertFriend, Services.FriendModel.insert,
    update_eq hm (sent_insertSql a b), FriendCall.byRpc, Outcome.applied]
  obtain ⟨now, arrives, borrows, executes, reported, answers⟩ := o
  cases arrives <;> cases borrows <;> cases executes <;> simp [Update.apply, Tables.addFriend]
  cases Tables.insertFriend (a, b) (d.tick now) <;> rfl

theorem exec_addFriendRequest (hm : Rules same m) (a b : Int) (d : Tables) :
    (FriendCall.addFriendRequest a b).exec m o d = (o.succeeds && ((d.requests .friend).insertPending (a, b)).isSome,
      if o.applied then (d.tick o.now).addRequest .friend (a, b) else d.tick o.now) := by
  simp only [FriendCall.exec, FriendCall.serve, FriendServiceImpl.addFriendRequest,
    Services.FriendRequestModel.addFriendRequest, update_eq hm (sent_addFriendRequestSql a b), FriendCall.byRpc,
    Outcome.applied, Outcome.succeeds, Update.apply, Tables.addRequest, Tables.tick_requests]
  obtain ⟨now, arrives, borrows, executes, reported, answers⟩ := o
  cases (d.requests .friend).insertPending (a, b) <;> cases arrives <;> cases borrows <;> cases executes <;>
    cases reported <;> cases answers <;> simp [codeByRpc, FriendServiceImpl.resultCode]

theorem updateRequestStatus_eq (hm : Rules same m) (c : Kind) (a b : Int) (s : Status) (d : Tables) :
    RequestModel.updateRequestStatus (o.session m) c a b s.text d = if o.borrows && o.executes then
      (o.reported, d.setRequests c ((d.requests c).setStatus (a, b) s d.now)) else (false, d) := by
  obtain ⟨sql, hsql, hs⟩ := sent_updateSql c a b s
  rw [RequestModel.updateRequestStatus, hsql]
  exact update_eq hm hs d

theorem exec_updateRequestStatus (hm : Rules same m) (a b : Int) {text : String} {s : Status} (hs : text = s.text)
    (d : Tables) : (FriendCall.updateRequestStatus a b text).exec m o d = (o.succeeds, if o.applied then
      Tables.setRequests .friend ((d.requests .friend).setStatus (a, b) s o.now) (d.tick o.now)
      else d.tick o.now) := by
  subst hs
  simp only [FriendCall.exec, FriendCall.serve, FriendServiceImpl.updateRequestStatus,
    Services.FriendRequestModel.updateRequestStatus, updateRequestStatus_eq hm, FriendCall.byRpc,
    Outcome.applied, Outcome.succeeds]
  obtain ⟨now, arrives, borrows, executes, reported, answers⟩ := o
  cases arrives <;> cases borrows <;> cases executes <;> cases reported <;> cases answers <;>
    simp [codeByRpc, FriendServiceImpl.resultCode]

theorem fromProto_toProto (q : QueryStatus) : fromProtoQueryStatus (toProtoQueryStatus q) = q := by cases q <;> rfl

theorem pending_status (c : Kind) (k : Int × Int) (d : Tables) :
    RequestModel.pending ⟨(Query.status c k).rows same d, true⟩ =
      decide ((d.requests c).status k = some (some .pending)) := by
  rw [RequestModel.pending, Query.rows, Requests.Table.status]
  cases (d.requests c).lookup k with
  | none => rfl
  | some r =>
    have h : getString [r.status.map Status.text] 0 = "pending" ↔ r.status = some .pending := by
      rw [getString_status, text_eq_pending]
    simp [QueryResult.next, QueryResult.currentRow, h]

theorem isPendingRequest_eq (hm : Rules same m) (a b : Int) (d : Tables) :
    Services.FriendRequestModel.isPendingRequest (o.session m) a b d = if o.borrows && o.executes && o.reported then
      foundStatus (decide ((d.requests .friend).status (a, b) = some (some .pending))) else ⟨.dbError, false⟩ := by
  rw [Services.FriendRequestModel.isPendingRequest, Services.FriendRequestModel.statusSql,
    query_eq hm (sent_statusSql .friend a b)]
  cases o.borrows && o.executes && o.reported with
  | false => rfl
  | true => simp [pending_status, foundStatus]

theorem exec_isPendingRequest (hm : Rules same m) (a b : Int) (d : Tables) :
    (FriendCall.isPendingRequest a b).exec m o d = (if o.succeeds then
      foundStatus (decide ((d.requests .friend).status (a, b) = some (some .pending))) else ⟨.dbError, false⟩,
      d.tick o.now) := by
  simp only [FriendCall.exec, FriendCall.serve, FriendServiceImpl.isPendingRequest, isPendingRequest_eq hm,
    FriendCall.byRpc, Outcome.applied, Outcome.succeeds]
  obtain ⟨now, arrives, borrows, executes, reported, answers⟩ := o
  cases arrives <;> cases borrows <;> cases executes <;> cases reported <;> cases answers <;>
    simp [isPendingRequestByRpc, fromProto_toProto]
  rfl

theorem queryRequestStatus_eq (hm : Rules same m) (c : Kind) (a b : Int) (d : Tables) :
    RequestModel.queryRequestStatus (o.session m) c a b d = if o.borrows && o.executes && o.reported then
      ((d.requests c).lookup (a, b)).elim ⟨.notFound, ""⟩ fun r => ⟨.ok, (r.status.map Status.text).getD ""⟩
      else ⟨.dbError, ""⟩ := by
  rw [RequestModel.queryRequestStatus, query_eq hm (sent_statusSql c a b), Query.rows]
  cases o.borrows && o.executes && o.reported with
  | false => rfl
  | true =>
    cases (d.requests c).lookup (a, b) with
    | none => rfl
    | some r => simp [QueryResult.next, QueryResult.currentRow, getString_status]

theorem exec_queryRequestStatus (hm : Rules same m) (a b : Int) (d : Tables) :
    (FriendCall.queryRequestStatus a b).exec m o d = (if o.succeeds then
      ((d.requests .friend).lookup (a, b)).elim ⟨.notFound, ""⟩ fun r => ⟨.ok, (r.status.map Status.text).getD ""⟩
      else ⟨.dbError, ""⟩, d.tick o.now) := by
  simp only [FriendCall.exec, FriendCall.serve, FriendServiceImpl.queryRequestStatus,
    Services.FriendRequestModel.queryRequestStatus, queryRequestStatus_eq hm, FriendCall.byRpc, Outcome.applied,
    Outcome.succeeds]
  obtain ⟨now, arrives, borrows, executes, reported, answers⟩ := o
  cases arrives <;> cases borrows <;> cases executes <;> cases reported <;> cases answers <;>
    simp [queryRequestStatusByRpc, fromProto_toProto]

/-! The group models are called by `ChatService` itself. -/

/-- A call of `GroupModel` or `GroupRequestModel`. -/
inductive GroupCall
  | isGroupExistName (name : String)
  | isGroupExist (groupid : Int)
  | createGroup (name desc : String)
  | addGroup (userid groupid : Int) (role : String)
  | isUserInGroup (userid groupid : Int)
  | queryGroupOwnerId (groupid : Int)
  | isPendingRequest (userid groupid : Int)
  | addGroupRequest (userid groupid : Int)
  | updateRequestStatus (userid groupid : Int) (status : String)
  | queryRequestStatus (userid groupid : Int)
  deriving DecidableEq, Repr

namespace GroupCall

@[reducible] def Value : GroupCall → Type
  | isGroupExistName _ | isGroupExist _ | isUserInGroup .. => BoolQueryResult
  | createGroup .. => Option Int
  | addGroup .. => Unit
  | queryGroupOwnerId _ => IntQueryResult
  | isPendingRequest .. | addGroupRequest .. | updateRequestStatus .. => Bool
  | queryRequestStatus .. => RequestStatusResult

def serve (session : DbSession D) : (c : GroupCall) → D → c.Value × D
  | isGroupExistName name, d => (GroupModel.isGroupExistName session name d, d)
  | isGroupExist groupid, d => (GroupModel.isGroupExist session groupid d, d)
  | createGroup name desc, d => GroupModel.createGroup session name desc d
  | addGroup userid groupid role, d => ((), GroupModel.addGroup session userid groupid role d)
  | isUserInGroup userid groupid, d => (GroupModel.isUserInGroup session userid groupid d, d)
  | queryGroupOwnerId groupid, d => (GroupModel.queryGroupOwnerId session groupid d, d)
  | isPendingRequest userid groupid, d => (GroupRequestModel.isPendingRequest session userid groupid d, d)
  | addGroupRequest userid groupid, d => GroupRequestModel.addGroupRequest session userid groupid d
  | updateRequestStatus userid groupid status, d =>
    GroupRequestModel.updateRequestStatus session userid groupid status d
  | queryRequestStatus userid groupid, d => (GroupRequestModel.queryRequestStatus session userid groupid d, d)

def exec (m : Mysql Tables) (c : GroupCall) (o : Outcome) (d : Tables) : c.Value × Tables :=
  c.serve (o.session m) (d.tick o.now)

end GroupCall

end BridgeIM.Services
