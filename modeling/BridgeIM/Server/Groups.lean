import BridgeIM.Server.Friendship

namespace BridgeIM.Services

open Db Lib.SqlText Model Model.Requests Model.Database

variable {same : String → String → Bool} {m : Mysql Tables} {o : Outcome}

/-- MySQL executes the statement of a call that needs no service. -/
def Outcome.runs (o : Outcome) : Bool := o.borrows && o.executes

/-! The calls of the group models, whatever happens to their statements. -/

theorem exec_isGroupExistName (hm : Rules same m) {name : String} (hn : Plain name) (d : Tables) :
    (GroupCall.isGroupExistName name).exec m o d = (if o.runs && o.reported then
      foundStatus (d.group.groups.any fun g => same g.groupname name) else ⟨.dbError, false⟩, d.tick o.now) := by
  rw [GroupCall.exec, GroupCall.serve, GroupModel.isGroupExistName, query_eq hm (sent_isGroupExistNameSql hn), Outcome.runs]
  cases o.borrows && o.executes && o.reported with
  | false => rfl
  | true => rw [if_pos rfl, Query.rows, found_filter, if_pos rfl, Tables.tick_group]

theorem exec_createGroup (hm : Rules same m) {name desc : String} (hn : Plain name) (hd : Plain desc) (d : Tables) :
    (GroupCall.createGroup name desc).exec m o d = if o.runs then
      ((d.tick o.now).insertGroup same (m.insertId (Update.insertGroup name desc).tokens (d.tick o.now)) name desc).elim
        (none, d.tick o.now) fun d' =>
          (if o.reported then some (m.insertId (Update.insertGroup name desc).tokens (d.tick o.now)) else none, d')
      else (none, d.tick o.now) := by
  have hs := sent_createGroupSql hn hd
  rw [GroupCall.exec, GroupCall.serve, GroupModel.createGroup, update_eq hm hs, Outcome.runs, Update.apply]
  cases hr : o.borrows && o.executes with
  | false => rfl
  | true =>
    obtain ⟨hb, he⟩ := Bool.and_eq_true_iff.mp hr
    have hid : (o.session m).lastInsertId (GroupModel.createGroupSql name desc) (d.tick o.now) =
        m.insertId (Update.insertGroup name desc).tokens (d.tick o.now) := by
      rw [Outcome.session, hb, he, DbSession.lastInsertId, if_pos rfl, if_pos rfl, Option.elim_some, Mysql.lastInsertId, hs,
        Option.elim_some]
    rw [if_pos rfl, if_pos rfl, hid]
    cases (d.tick o.now).insertGroup same _ name desc with
    | none => rfl
    | some d' => cases o.reported <;> rfl

theorem exec_addGroup (hm : Rules same m) (userid groupid : Int) {text : String} {role : Role} (hr : text = role.text)
    (d : Tables) : (GroupCall.addGroup userid groupid text).exec m o d =
      ((), if o.runs then (d.tick o.now).addMember groupid userid role else d.tick o.now) := by
  subst hr
  rw [GroupCall.exec, GroupCall.serve, GroupModel.addGroup, update_eq hm (sent_addGroupSql userid groupid role),
    Outcome.runs, Update.apply, Tables.addMember]
  cases o.borrows && o.executes with
  | false => rfl
  | true => cases (d.tick o.now).insertMember groupid userid role <;> rfl

theorem exec_isPendingGroup (hm : Rules same m) (userid groupid : Int) (d : Tables) :
    (GroupCall.isPendingRequest userid groupid).exec m o d = (o.runs && o.reported &&
      decide ((d.requests .group).status (userid, groupid) = some (some .pending)), d.tick o.now) := by
  rw [GroupCall.exec, GroupCall.serve, Services.GroupRequestModel.isPendingRequest,
    query_eq hm (sent_statusSql .group userid groupid), Outcome.runs]
  cases o.borrows && o.executes && o.reported with
  | false => rfl
  | true =>
    rw [if_pos rfl, Bool.true_and]
    exact congrArg (·, d.tick o.now) (pending_status .group (userid, groupid) (d.tick o.now))

theorem exec_updateGroupStatus (hm : Rules same m) (userid groupid : Int) {text : String} {s : Status} (hs : text = s.text)
    (d : Tables) : (GroupCall.updateRequestStatus userid groupid text).exec m o d = if o.runs then (o.reported,
      Tables.setRequests .group ((d.requests .group).setStatus (userid, groupid) s o.now) (d.tick o.now))
      else (false, d.tick o.now) := by
  subst hs
  rw [GroupCall.exec, GroupCall.serve, Services.GroupRequestModel.updateRequestStatus, updateRequestStatus_eq hm,
    Outcome.runs]
  rfl

end BridgeIM.Services

namespace BridgeIM.Server.Groups

open Db Lib Model Model.Requests Model.Database Services RequestHandlers

variable {same : String → String → Bool} {E : Engines} {os : Nat → Outcome} {w : Setting} {d d' : Tables}

theorem run_group {c : GroupCall} {next : c.Value → Handler} {v : c.Value} (h : c.exec E.db (os 0) w.db = (v, d)) :
    Program.run (Call.exec E) (.call (.group c) next) os w =
      (next v).run (Call.exec E) (fun n => os (n + 1)) (w.put d) := by
  refine Program.run_call ?_
  rw [Call.exec, h]

def hasMember (groupid userid : Int) (d : Tables) : Bool :=
  d.group.members.any fun b => b.groupid = groupid && b.userid = userid

def creators (groupid : Int) (d : Tables) : Nat :=
  d.group.members.countP fun b => b.groupid = groupid && b.grouprole = some "creator"

def NormalMember (userid groupid : Int) (d : Tables) : Prop := ⟨groupid, userid, some "normal"⟩ ∈ d.group.members

theorem insertGroup_some {id : Int} {name desc : String} (h : d.insertGroup same id name desc = some d') :
    IsInt id ∧ d.nextGroupId ≤ id ∧ (∀ g ∈ d.group.groups, same g.groupname name = false) ∧
      d' = { d with
        group := { d.group with groups := d.group.groups ++ [⟨id, name, some desc⟩] }, nextGroupId := id + 1 } := by
  rw [Tables.insertGroup, Option.ite_none_right_eq_some, Option.some.injEq] at h
  obtain ⟨⟨h0, hn, hlt, -, -, hs⟩, rfl⟩ := h
  refine ⟨?_, hn, fun g hg => ?_, rfl⟩
  · unfold IsInt
    omega
  · rw [← Bool.not_eq_true']
    exact List.all_eq_true.mp hs g hg

theorem isSome_insertGroup_tick (now id : Int) (name desc : String) (d : Tables) :
    ((d.tick now).insertGroup same id name desc).isSome = (d.insertGroup same id name desc).isSome := by
  simp only [Tables.insertGroup, apply_ite Option.isSome]
  rfl

def enter (groupid userid : Int) (role : Role) (d : Tables) : Tables :=
  { d with group := { d.group with members := d.group.members ++ [⟨groupid, userid, some role.text⟩] } }

theorem addMember_eq {groupid userid : Int} (hg : IsInt groupid) (hu : IsInt userid) (role : Role) (d : Tables) :
    d.addMember groupid userid role = if hasMember groupid userid d then d else enter groupid userid role d := by
  rw [Tables.addMember, Tables.insertMember, hasMember, List.all_eq_not_any_not]
  simp only [Bool.not_not, hg, hu, true_and, Bool.not_eq_true']
  cases d.group.members.any fun b => b.groupid = groupid && b.userid = userid <;> rfl

variable {groupid userid : Int} {role : Role}

theorem creators_enter (g : Int) : creators g (enter groupid userid role d) =
    creators g d + if groupid = g ∧ role = .creator then 1 else 0 := by
  rw [creators, enter, List.countP_append, creators, List.countP_singleton]
  cases role <;> simp [Role.text]

theorem normal_enter (u g : Int) : NormalMember u g (enter groupid userid role d) ↔
    NormalMember u g d ∨ role = .normal ∧ u = userid ∧ g = groupid := by
  rw [NormalMember, enter, List.mem_append, List.mem_singleton, NormalMember]
  cases role <;> simp [Role.text, and_comm]

theorem addGroup_cases (hE : E.Rules same) (hg : IsInt groupid) (hu : IsInt userid) (text : String)
    (hr : text = role.text) (o : Outcome) (d : Tables) :
    ∃ d', (GroupCall.addGroup userid groupid text).exec E.db o d = ((), d') ∧ d'.requests = d.requests ∧
      d'.users = d.users ∧
      d'.group = if o.runs && !hasMember groupid userid d then (enter groupid userid role d).group else d.group := by
  refine ⟨_, exec_addGroup hE.db userid groupid hr d, ?_⟩
  cases o.runs with
  | false => exact ⟨rfl, rfl, rfl⟩
  | true =>
    rw [if_pos rfl, addMember_eq hg hu, show hasMember groupid userid (d.tick o.now) = hasMember groupid userid d from rfl]
    cases hasMember groupid userid d <;> exact ⟨rfl, rfl, rfl⟩

theorem creators_congr (h : d'.group = d.group) (g : Int) : creators g d' = creators g d := by
  rw [creators, h, creators]

theorem normal_congr (h : d'.group = d.group) (u g : Int) : NormalMember u g d' ↔ NormalMember u g d := by
  rw [NormalMember, h, NormalMember]

theorem hasMember_eq_true {groupid userid : Int} :
    hasMember groupid userid d = true ↔ ∃ b ∈ d.group.members, b.groupid = groupid ∧ b.userid = userid := by
  simp [hasMember]

theorem nodup_enter {groupid userid : Int} {role : Role} (h : (d.group.members.map fun b => (b.groupid, b.userid)).Nodup)
    (hm : hasMember groupid userid d = false) :
    ((enter groupid userid role d).group.members.map fun b => (b.groupid, b.userid)).Nodup := by
  rw [enter, List.map_append, List.map_singleton]
  refine h.append (List.nodup_singleton _) ?_
  rw [List.disjoint_singleton, List.mem_map]
  rintro ⟨b, hb, he⟩
  rw [Bool.eq_false_iff, Ne, hasMember_eq_true] at hm
  exact hm ⟨b, hb, (Prod.mk.inj he).1, (Prod.mk.inj he).2⟩

theorem hasMember_of_normal (h : NormalMember userid groupid d) : hasMember groupid userid d = true :=
  List.any_eq_true.mpr ⟨_, h, by simp⟩

end BridgeIM.Server.Groups
