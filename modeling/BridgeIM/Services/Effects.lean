import BridgeIM.Services.Outcome

namespace BridgeIM.Services

open Db Lib.SqlText Model Model.Requests Model.Database

variable {same : String → String → Bool} {m : Mysql Tables} {o : Outcome}

def rowStatus (r : Option Request) : RequestStatusResult :=
  r.elim ⟨.notFound, ""⟩ fun r => ⟨.ok, (r.status.map Status.text).getD ""⟩

def setText (c : Kind) (k : Int × Int) (text : String) (d : Tables) : Bool × Tables :=
  (Status.ofText text).elim (false, d) fun s => (true, d.setRequests c ((d.requests c).setStatus k s d.now))

theorem setText_eq {c : Kind} {k : Int × Int} {text : String} {s : Status} (hs : text = s.text) (d : Tables) :
    setText c k text d = (true, d.setRequests c ((d.requests c).setStatus k s d.now)) := by
  rw [setText, hs, Status.ofText_text, Option.elim_some]

/-- The value and the effect of a call in which nothing fails. -/
def FriendCall.effect : (c : FriendCall) → Int → Tables → c.Value × Tables
  | isUserExist id, now, d => (d.users.rows.any fun r => r.id = id, d.tick now)
  | isFriend a b, now, d => (d.areFriends (a, b), d.tick now)
  | insertFriend a b, now, d => ((), (d.tick now).addFriend (a, b))
  | queryFriends a, now, d => (d.friendsOf a, d.tick now)
  | addFriendRequest a b, now, d =>
    (((d.requests .friend).insertPending (a, b)).isSome, (d.tick now).addRequest .friend (a, b))
  | isPendingRequest a b, now, d =>
    (foundStatus (decide ((d.requests .friend).status (a, b) = some (some .pending))), d.tick now)
  | updateRequestStatus a b text, now, d => setText .friend (a, b) text (d.tick now)
  | queryRequestStatus a b, now, d => (rowStatus ((d.requests .friend).lookup (a, b)), d.tick now)

theorem Status.ofText_cases (text : String) : (∃ s : Status, text = s.text) ∨
    Status.ofText text = none ∧ ∀ c a b, RequestModel.updateSql c a b text = none := by
  by_cases hp : text = "pending"
  · exact Or.inl ⟨.pending, hp⟩
  by_cases ha : text = "accepted"
  · exact Or.inl ⟨.accepted, ha⟩
  by_cases hr : text = "rejected"
  · exact Or.inl ⟨.rejected, hr⟩
  · exact Or.inr ⟨by simp [Status.ofText, hp, ha, hr], fun c a b => by simp [RequestModel.updateSql, hp, ha, hr]⟩

theorem FriendCall.exec_of_ok (hm : Rules same m) (ho : o.Ok) (c : FriendCall) (d : Tables) :
    c.exec m o d = c.effect o.now d := by
  have hs : o.succeeds = true := ho
  have ha := Outcome.applied_of_ok ho
  cases c with
  | isUserExist id => rw [exec_isUserExist hm, hs, Bool.true_and, effect]
  | isFriend a b => rw [exec_isFriend hm, hs, Bool.true_and, effect, Tables.areFriends]
  | insertFriend a b => rw [exec_insertFriend hm, if_pos ha, effect]
  | queryFriends a => rw [exec_queryFriends hm, if_pos hs, effect]
  | addFriendRequest a b => rw [exec_addFriendRequest hm, hs, Bool.true_and, if_pos ha, effect]
  | isPendingRequest a b => rw [exec_isPendingRequest hm, if_pos hs, effect]
  | queryRequestStatus a b => rw [exec_queryRequestStatus hm, if_pos hs, effect, rowStatus]
  | updateRequestStatus a b text =>
    obtain ⟨s, rfl⟩ | ⟨hn, hsql⟩ := Status.ofText_cases text
    · rw [exec_updateRequestStatus hm a b rfl, hs, if_pos ha, effect, setText, Status.ofText_text, Option.elim_some]
      rfl
    · simp only [exec, serve, FriendServiceImpl.updateRequestStatus, Services.FriendRequestModel.updateRequestStatus,
        RequestModel.updateRequestStatus, hsql, byRpc, effect, setText, hn]
      cases o.arrives <;> cases o.answers <;> rfl

theorem session_of_ok {D : Type} {m : Mysql D} (ho : o.Ok) : o.session m = { conn := some m } := by
  obtain ⟨now, arrives, borrows, executes, reported, answers⟩ := o
  simp only [Outcome.Ok, Outcome.succeeds, Outcome.applied, Bool.and_eq_true] at ho
  obtain ⟨⟨-, rfl, rfl⟩, rfl, -⟩ := ho
  rfl

theorem ok_session (ho : o.Ok) : (o.borrows && o.executes) = true ∧ o.reported = true := by
  simp only [Outcome.Ok, Outcome.succeeds, Outcome.applied, Bool.and_eq_true] at ho
  exact ⟨by simpa using ho.1.2, ho.2.1⟩

theorem query_of_ok (hm : Rules same m) (ho : o.Ok) {sql : String} {q : Query} (hs : sent sql = some q.tokens)
    (d : Tables) : (o.session m).query sql d = ⟨q.rows same d, true⟩ := by
  rw [query_eq hm hs, (ok_session ho).1, (ok_session ho).2]
  rfl

theorem update_of_ok (hm : Rules same m) (ho : o.Ok) {sql : String} {u : Update} (hs : sent sql = some u.tokens)
    (d : Tables) : (o.session m).update sql d =
      (u.apply same (m.insertId u.tokens d) d).elim (false, d) fun d' => (true, d') := by
  rw [update_eq hm hs, (ok_session ho).1, (ok_session ho).2]
  rfl

theorem found_filter {α : Type} (l : List α) (p : α → Bool) (f : α → Row) :
    GroupModel.found ⟨(l.filter p).map f, true⟩ = foundStatus (l.any p) := by
  have h : QueryResult.next ⟨(l.filter p).map f, true⟩ = l.any p := by
    rw [QueryResult.next, List.isEmpty_map, isEmpty_filter, Bool.not_not]
  rw [GroupModel.found, h]
  rfl

/-- The group models have no RPC, and what they are given may be more than one
literal of a statement. -/
def GroupCall.Intended : GroupCall → Prop
  | isGroupExistName name => Plain name
  | createGroup name desc => Plain name ∧ Plain desc
  | addGroup _ _ role => ∃ r : Role, role = r.text
  | _ => True

instance (c : GroupCall) : Decidable c.Intended := by
  cases c with
  | isGroupExistName name => exact inferInstanceAs (Decidable (Plain name))
  | createGroup name desc => exact inferInstanceAs (Decidable (Plain name ∧ Plain desc))
  | addGroup userid groupid role =>
    exact decidable_of_iff (role = "creator" ∨ role = "normal")
      ⟨fun h => h.elim (fun h => ⟨.creator, h⟩) fun h => ⟨.normal, h⟩,
        fun ⟨r, h⟩ => by cases r with
          | creator => exact Or.inl h
          | normal => exact Or.inr h⟩
  | _ => exact isTrue trivial

def creatorOf (groupid : Int) (d : Tables) : Option Int :=
  (d.group.members.find? fun b => b.groupid = groupid && b.grouprole = some "creator").map fun b => b.userid

variable (same m) in
def GroupCall.effect : (c : GroupCall) → Int → Tables → c.Value × Tables
  | isGroupExistName name, now, d => (foundStatus (d.group.groups.any fun g => same g.groupname name), d.tick now)
  | isGroupExist groupid, now, d => (foundStatus (d.group.groups.any fun g => g.id = groupid), d.tick now)
  | createGroup name desc, now, d =>
    let id := m.insertId (Update.insertGroup name desc).tokens (d.tick now)
    ((d.tick now).insertGroup same id name desc).elim (none, d.tick now) fun d' => (some id, d')
  | addGroup userid groupid role, now, d =>
    ((), (Role.ofText role).elim (d.tick now) fun r => (d.tick now).addMember groupid userid r)
  | isUserInGroup userid groupid, now, d =>
    (foundStatus (d.group.members.any fun b => b.groupid = groupid && b.userid = userid), d.tick now)
  | queryGroupOwnerId groupid, now, d => ((creatorOf groupid d).elim ⟨.notFound, -1⟩ fun u => ⟨.ok, u⟩, d.tick now)
  | isPendingRequest userid groupid, now, d =>
    (decide ((d.requests .group).status (userid, groupid) = some (some .pending)), d.tick now)
  | addGroupRequest userid groupid, now, d =>
    (((d.requests .group).insertPending (userid, groupid)).isSome, (d.tick now).addRequest .group (userid, groupid))
  | updateRequestStatus userid groupid text, now, d => setText .group (userid, groupid) text (d.tick now)
  | queryRequestStatus userid groupid, now, d => (rowStatus ((d.requests .group).lookup (userid, groupid)), d.tick now)

theorem GroupCall.exec_of_ok (hm : Rules same m) (ho : o.Ok) (c : GroupCall) (hc : c.Intended) (d : Tables) :
    c.exec m o d = c.effect same m o.now d := by
  rw [exec]
  cases c with
  | isGroupExistName name =>
    rw [serve, GroupModel.isGroupExistName, query_of_ok hm ho (sent_isGroupExistNameSql hc), Query.rows, found_filter,
      effect, Tables.tick_group]
  | isGroupExist groupid =>
    rw [serve, GroupModel.isGroupExist, query_of_ok hm ho (sent_isGroupExistSql groupid), Query.rows, found_filter,
      effect, Tables.tick_group]
  | createGroup name desc =>
    have hs := sent_createGroupSql hc.1 hc.2
    have hid : (o.session m).lastInsertId (GroupModel.createGroupSql name desc) (d.tick o.now) =
        m.insertId (Update.insertGroup name desc).tokens (d.tick o.now) := by
      rw [session_of_ok ho, DbSession.lastInsertId, Option.elim_some, Mysql.lastInsertId, hs, Option.elim_some]
    rw [serve, GroupModel.createGroup, update_of_ok hm ho hs, effect, Update.apply, hid]
    cases (d.tick o.now).insertGroup same _ name desc <;> rfl
  | addGroup userid groupid role =>
    obtain ⟨r, rfl⟩ := hc
    rw [serve, GroupModel.addGroup, update_of_ok hm ho (sent_addGroupSql userid groupid r), effect, Role.ofText_text,
      Option.elim_some, Update.apply, Tables.addMember]
    cases (d.tick o.now).insertMember groupid userid r <;> rfl
  | isUserInGroup userid groupid =>
    rw [serve, GroupModel.isUserInGroup, query_of_ok hm ho (sent_isUserInGroupSql userid groupid), Query.rows,
      found_filter, effect, Tables.tick_group]
  | queryGroupOwnerId groupid =>
    rw [serve, GroupModel.queryGroupOwnerId, query_of_ok hm ho (sent_queryGroupOwnerIdSql groupid), Query.rows, effect,
      creatorOf, Tables.tick_group]
    cases hl : d.group.members.filter fun b => b.groupid = groupid && b.grouprole = some "creator" with
    | nil =>
      rw [← List.head?_filter, hl]
      rfl
    | cons b l =>
      rw [← List.head?_filter, hl]
      simp [QueryResult.next, QueryResult.currentRow, getInt, CString.leadingInt_decimal]
  | isPendingRequest userid groupid =>
    rw [serve, Services.GroupRequestModel.isPendingRequest, query_of_ok hm ho (sent_statusSql .group userid groupid),
      pending_status, effect]
    rfl
  | addGroupRequest userid groupid =>
    rw [serve, Services.GroupRequestModel.addGroupRequest, update_of_ok hm ho (sent_addGroupRequestSql userid groupid), effect,
      Update.apply, Tables.tick_requests, Tables.addRequest, Tables.tick_requests]
    cases (d.requests .group).insertPending (userid, groupid) <;> rfl
  | updateRequestStatus userid groupid text =>
    rw [serve, Services.GroupRequestModel.updateRequestStatus, effect]
    obtain ⟨s, rfl⟩ | ⟨hn, hsql⟩ := Status.ofText_cases text
    · rw [updateRequestStatus_eq hm, setText_eq rfl, (ok_session ho).1, (ok_session ho).2]
      rfl
    · rw [RequestModel.updateRequestStatus, hsql, setText, hn]
      rfl
  | queryRequestStatus userid groupid =>
    rw [serve, Services.GroupRequestModel.queryRequestStatus, queryRequestStatus_eq hm, (ok_session ho).1,
      (ok_session ho).2, effect, Tables.tick_requests]
    rfl

end BridgeIM.Services
