import BridgeIM.Services.Rpc

namespace BridgeIM.Services.Reporting

open Db Lib.SqlText

inductive Statement
  | update (sql : String)
  | query (sql : String)

variable {D : Type} {session : DbSession D} {d : D}

/-- A connection could be borrowed, and the server has executed the statement. -/
def Statement.Succeeds (session : DbSession D) (d : D) : Statement → Prop
  | update sql => session.Updates sql d
  | query sql => session.Queries sql d

def offlineStatement : OfflineMessageCall → Statement
  | .insert userid msg => .update (Model.OfflineMsgModel.insertSql userid msg)
  | .query userid => .query (Model.OfflineMsgModel.querySql userid)
  | .remove userid => .update (Model.OfflineMsgModel.removeSql userid)

def friendStatement : FriendCall → Option Statement
  | .isUserExist friendid => some (.query (FriendModel.isUserExistSql friendid))
  | .isFriend userid friendid => some (.query (FriendModel.isFriendSql userid friendid))
  | .insertFriend userid friendid => some (.update (FriendModel.insertSql userid friendid))
  | .queryFriends userid => some (.query (FriendModel.querySql userid))
  | .addFriendRequest userid targetid => some (.update (FriendRequestModel.addFriendRequestSql userid targetid))
  | .isPendingRequest userid targetid | .queryRequestStatus userid targetid =>
    some (.query (FriendRequestModel.statusSql userid targetid))
  | .updateRequestStatus userid targetid status => (FriendRequestModel.updateSql userid targetid status).map .update

def OfflineSignals : (c : OfflineMessageCall) → c.Response → Prop
  | .insert .., code | .remove _, code => code.errcode ≠ 0
  | .query _, response => response.code.errcode ≠ 0

def FriendSignals : (c : FriendCall) → c.Response → Prop
  | .isUserExist _, result | .isFriend .., result | .isPendingRequest .., result => result.status = .dbError
  | .insertFriend .., code | .addFriendRequest .., code | .updateRequestStatus .., code => code.errcode ≠ 0
  | .queryFriends _, response => response.code.errcode ≠ 0
  | .queryRequestStatus .., result => result.status = .dbError

def offlineFailure : (c : OfflineMessageCall) → c.Value
  | .insert .. | .remove _ => false
  | .query _ => []

def friendFailure : (c : FriendCall) → c.Value
  | .isUserExist _ | .isFriend .. | .addFriendRequest .. | .updateRequestStatus .. => false
  | .insertFriend .. => ()
  | .queryFriends _ => []
  | .isPendingRequest .. => ⟨.dbError, false⟩
  | .queryRequestStatus .. => ⟨.dbError, ""⟩

/-- The response signals an error exactly when the statement has failed, and the
wrapper then returns its failure value. -/
def OfflineReported (session : DbSession D) (c : OfflineMessageCall) (d : D) : Prop :=
  (OfflineSignals c (c.serve session d).1 ↔ ¬ (offlineStatement c).Succeeds session d) ∧
    (¬ (offlineStatement c).Succeeds session d → c.byRpc (some (c.serve session d).1) = offlineFailure c)

def FriendReported (session : DbSession D) (c : FriendCall) (d : D) : Prop :=
  ∀ st ∈ friendStatement c, (FriendSignals c (c.serve session d).1 ↔ ¬ st.Succeeds session d) ∧
    (¬ st.Succeeds session d → c.byRpc (some (c.serve session d).1) = friendFailure c)

/-- The methods that pass the outcome of their statement on. -/
def passesOn : FriendCall → Bool
  | .addFriendRequest .. | .isPendingRequest .. | .updateRequestStatus .. | .queryRequestStatus .. => true
  | .isUserExist _ | .isFriend .. | .insertFriend .. | .queryFriends _ => false

theorem resultCode_errcode (method : String) (ok : Bool) :
    (FriendServiceImpl.resultCode method ok).errcode ≠ 0 ↔ ¬ ok = true := by
  cases ok <;> simp [FriendServiceImpl.resultCode]

theorem codeByRpc_resultCode (method : String) (ok : Bool) :
    codeByRpc (some (FriendServiceImpl.resultCode method ok)) = ok := by
  cases ok <;> simp [FriendServiceImpl.resultCode, codeByRpc]

theorem not_offlineSignals (session : DbSession D) (c : OfflineMessageCall) (d : D) :
    ¬ OfflineSignals c (c.serve session d).1 := by
  cases c <;> exact fun h => h rfl

theorem not_friendSignals (session : DbSession D) {c : FriendCall} (hc : passesOn c = false) (d : D) :
    ¬ FriendSignals c (c.serve session d).1 := by
  cases c with
  | isUserExist | isFriend => exact nofun
  | insertFriend | queryFriends => exact fun h => h rfl
  | _ => cases hc

theorem toProtoQueryStatus_dbError {q : QueryStatus} : toProtoQueryStatus q = .dbError ↔ q = .dbError := by
  cases q <;> simp [toProtoQueryStatus]

theorem isPendingRequest_dbError (session : DbSession D) (userid targetid : Int) (d : D) :
    (FriendRequestModel.isPendingRequest session userid targetid d).status = .dbError ↔
      ¬ session.Queries (FriendRequestModel.statusSql userid targetid) d := by
  rw [← session.query_valid, FriendRequestModel.isPendingRequest]
  cases (session.query (FriendRequestModel.statusSql userid targetid) d).valid with
  | false => simp
  | true =>
    simp only [Bool.not_true, Bool.false_eq_true, if_false, not_true_eq_false, iff_false]
    split <;> exact nofun

theorem queryRequestStatus_dbError (session : DbSession D) (userid targetid : Int) (d : D) :
    (FriendRequestModel.queryRequestStatus session userid targetid d).status = .dbError ↔
      ¬ session.Queries (FriendRequestModel.statusSql userid targetid) d := by
  rw [← session.query_valid, FriendRequestModel.queryRequestStatus, RequestModel.queryRequestStatus,
    FriendRequestModel.statusSql]
  cases (session.query (RequestModel.statusSql .friend userid targetid) d).valid with
  | false => simp
  | true =>
    simp only [Bool.not_true, Bool.false_eq_true, if_false, not_true_eq_false, iff_false]
    split <;> exact nofun

theorem isPendingRequest_of_not {userid targetid : Int}
    (h : ¬ session.Queries (FriendRequestModel.statusSql userid targetid) d) :
    FriendRequestModel.isPendingRequest session userid targetid d = ⟨.dbError, false⟩ := by
  rw [FriendRequestModel.isPendingRequest, DbSession.query_of_not h]
  rfl

theorem queryRequestStatus_of_not {userid targetid : Int}
    (h : ¬ session.Queries (FriendRequestModel.statusSql userid targetid) d) :
    FriendRequestModel.queryRequestStatus session userid targetid d = ⟨.dbError, ""⟩ := by
  have h' : session.query (RequestModel.statusSql .friend userid targetid) d = ⟨[], false⟩ := DbSession.query_of_not h
  rw [FriendRequestModel.queryRequestStatus, RequestModel.queryRequestStatus, h']
  rfl

theorem code_reported (session : DbSession D) (method sql : String) (d : D) :
    ((FriendServiceImpl.resultCode method (session.update sql d).1).errcode ≠ 0 ↔ ¬ session.Updates sql d) ∧
      (¬ session.Updates sql d →
        codeByRpc (some (FriendServiceImpl.resultCode method (session.update sql d).1)) = false) := by
  rw [resultCode_errcode, codeByRpc_resultCode, ← session.update_fst]
  exact ⟨Iff.rfl, Bool.eq_false_iff.mpr⟩

theorem reported_of_passesOn (session : DbSession D) {c : FriendCall} (hc : passesOn c = true) (d : D) :
    FriendReported session c d := by
  cases c with
  | addFriendRequest userid targetid =>
    intro st hst
    cases hst
    exact code_reported session "addFriendRequest" (FriendRequestModel.addFriendRequestSql userid targetid) d
  | updateRequestStatus userid targetid status =>
    intro st hst
    obtain ⟨sql, hsql, rfl⟩ := Option.map_eq_some_iff.mp hst
    have he : FriendRequestModel.updateRequestStatus session userid targetid status d = session.update sql d := by
      have hsql' : RequestModel.updateSql .friend userid targetid status = some sql := hsql
      rw [FriendRequestModel.updateRequestStatus, RequestModel.updateRequestStatus, hsql']
    simp only [FriendSignals, FriendCall.serve, FriendServiceImpl.updateRequestStatus, FriendCall.byRpc, he]
    exact code_reported session "updateRequestStatus" sql d
  | isPendingRequest userid targetid =>
    intro st hst
    cases hst
    refine ⟨toProtoQueryStatus_dbError.trans (isPendingRequest_dbError session userid targetid d), fun hn => ?_⟩
    simp only [FriendCall.byRpc, FriendCall.serve, FriendServiceImpl.isPendingRequest, isPendingRequest_of_not hn]
    rfl
  | queryRequestStatus userid targetid =>
    intro st hst
    cases hst
    refine ⟨toProtoQueryStatus_dbError.trans (queryRequestStatus_dbError session userid targetid d), fun hn => ?_⟩
    simp only [FriendCall.byRpc, FriendCall.serve, FriendServiceImpl.queryRequestStatus, queryRequestStatus_of_not hn]
    rfl
  | _ => cases hc

/-- A call whose response never signals an error is reported when its statement
has succeeded, and only then. -/
theorem reported_of_silent {signals succeeds failure : Prop} (hs : ¬ signals) :
    ((signals ↔ ¬ succeeds) ∧ (¬ succeeds → failure)) ↔ succeeds := by
  refine ⟨fun h => ?_, fun h => ⟨⟨fun hc => absurd hc hs, fun hn => absurd h hn⟩, fun hn => absurd h hn⟩⟩
  by_contra hn
  exact hs (h.1.mpr hn)

/-- Errors are reported by the four methods that pass the outcome of their
statement on, and by every other method only when its statement succeeds. -/
theorem errors_reported_iff (session : DbSession D) (d : D) :
    (∀ c : OfflineMessageCall, OfflineReported session c d ↔ (offlineStatement c).Succeeds session d) ∧
      ∀ c : FriendCall, FriendReported session c d ↔
        passesOn c = true ∨ ∀ st ∈ friendStatement c, st.Succeeds session d := by
  refine ⟨fun c => reported_of_silent (not_offlineSignals session c d), fun c => ?_⟩
  cases hc : passesOn c with
  | true => exact iff_of_true (reported_of_passesOn session hc d) (Or.inl rfl)
  | false =>
    have h (st : Statement) : (FriendSignals c (c.serve session d).1 ↔ ¬ st.Succeeds session d) ∧
        (¬ st.Succeeds session d → c.byRpc (some (c.serve session d).1) = friendFailure c) ↔ st.Succeeds session d :=
      reported_of_silent (not_friendSignals session hc d)
    simp only [FriendReported, h, Bool.false_eq_true, false_or]

/-- The message "it's" for user 7. The apostrophe ends its literal, so that MySQL
refuses the statement. -/
def apostrophe : OfflineMessageCall := .insert 7 "it's"

/-- No row is stored, and `insertOfflineMessageByRpc` returns true. -/
theorem apostrophe_unreported :
    let session : DbSession Model.OfflineMsgModel.Table := { conn := some Model.OfflineMsgModel.strictMysql }
    (apostrophe.serve session []).2 = [] ∧ apostrophe.byRpc (some (apostrophe.serve session []).1) = true ∧
      ¬ OfflineReported session apostrophe [] := by
  intro session
  have hsent : sent (Model.OfflineMsgModel.insertSql 7 "it's") = none := by
    rw [Model.OfflineMsgModel.sent_insertSql 7 (by decide)]
    decide +kernel
  have hu : (session.conn.bind fun m => m.execUpdate (Model.OfflineMsgModel.insertSql 7 "it's") []) = none := by
    rw [Option.bind_some, Mysql.execUpdate, hsent, Option.bind_none]
  have hn : ¬ (offlineStatement apostrophe).Succeeds session [] := by
    rintro ⟨hs, _⟩
    rw [hu] at hs
    cases hs
  have hd : session.update (Model.OfflineMsgModel.insertSql 7 "it's") [] = (false, []) := by
    rw [DbSession.update, hu]
  exact ⟨congrArg Prod.snd hd, rfl, fun h => not_offlineSignals session apostrophe [] (h.1.mpr hn)⟩

end BridgeIM.Services.Reporting
