import BridgeIM.Server.GroupAnswers

namespace BridgeIM.Services

open Db Lib.SqlText Model Model.Requests Model.Database

variable {same : String → String → Bool} {m : Mysql Tables} {o : Outcome}

/-- The statement succeeds, or it fails and changes nothing. -/
def Outcome.Clean (o : Outcome) : Prop := o.runs = true → o.reported = true

instance (o : Outcome) : Decidable o.Clean := inferInstanceAs (Decidable (_ → _))

def GroupCall.failure : (c : GroupCall) → c.Value
  | isGroupExistName _ | isGroupExist _ | isUserInGroup .. => ⟨.dbError, false⟩
  | createGroup .. => none
  | addGroup .. => ()
  | queryGroupOwnerId _ => ⟨.dbError, -1⟩
  | isPendingRequest .. | addGroupRequest .. | updateRequestStatus .. => false
  | queryRequestStatus .. => ⟨.dbError, ""⟩

theorem GroupCall.exec_of_runs (hm : Rules same m) (ho : o.runs = true) (hc : o.Clean) (c : GroupCall)
    (hi : c.Intended) (d : Tables) : c.exec m o d = c.effect same m o.now d := by
  have hok : Outcome.Ok { o with arrives := true, answers := true } := by
    simp only [Outcome.Ok, Outcome.succeeds, Outcome.applied, Bool.true_and, Bool.and_true]
    rw [hc ho, Bool.and_true]
    exact ho
  exact c.exec_of_ok hm hok hi d

theorem session_query_of_not (ho : o.runs = false) (sql : String) (d : Tables) : (o.session m).query sql d = ⟨[], false⟩ := by
  refine DbSession.query_of_not fun hq => ?_
  obtain ⟨now, arrives, borrows, executes, reported, answers⟩ := o
  have hr : (refusing : Mysql Tables).execQuery sql d = none := by
    rw [Mysql.execQuery]
    cases sent sql <;> rfl
  cases borrows <;> cases executes <;> simp_all [Outcome.session, Outcome.runs, DbSession.Queries]

theorem session_update_of_not (ho : o.runs = false) (sql : String) (d : Tables) :
    (o.session m).update sql d = (false, d) := by
  obtain ⟨now, arrives, borrows, executes, reported, answers⟩ := o
  have hr : (refusing : Mysql Tables).execUpdate sql d = none := by
    rw [Mysql.execUpdate]
    cases sent sql <;> rfl
  cases borrows <;> cases executes <;> simp_all [Outcome.session, Outcome.runs, DbSession.update]

theorem GroupCall.exec_of_not_runs (ho : o.runs = false) (c : GroupCall) (d : Tables) :
    c.exec m o d = (c.failure, d.tick o.now) := by
  cases c with
  | isGroupExistName name => rw [exec, serve, GroupModel.isGroupExistName, session_query_of_not ho]; rfl
  | isGroupExist groupid => rw [exec, serve, GroupModel.isGroupExist, session_query_of_not ho]; rfl
  | createGroup name desc => rw [exec, serve, GroupModel.createGroup, session_update_of_not ho]; rfl
  | addGroup userid groupid role => rw [exec, serve, GroupModel.addGroup, session_update_of_not ho]
  | isUserInGroup userid groupid => rw [exec, serve, GroupModel.isUserInGroup, session_query_of_not ho]; rfl
  | queryGroupOwnerId groupid => rw [exec, serve, GroupModel.queryGroupOwnerId, session_query_of_not ho]; rfl
  | isPendingRequest userid groupid =>
    rw [exec, serve, Services.GroupRequestModel.isPendingRequest, session_query_of_not ho]
    rfl
  | addGroupRequest userid groupid =>
    rw [exec, serve, Services.GroupRequestModel.addGroupRequest, session_update_of_not ho]
    rfl
  | updateRequestStatus userid groupid status =>
    rw [exec, serve, Services.GroupRequestModel.updateRequestStatus, RequestModel.updateRequestStatus]
    cases RequestModel.updateSql .group userid groupid status with
    | none => rfl
    | some sql => exact session_update_of_not ho sql (d.tick o.now)
  | queryRequestStatus userid groupid =>
    rw [exec, serve, Services.GroupRequestModel.queryRequestStatus, RequestModel.queryRequestStatus,
      session_query_of_not ho]
    rfl

end BridgeIM.Services

namespace BridgeIM.Server.JoinFailure

open CString Db Lib Lib.SqlText Model Model.Requests Model.Database Services RequestHandlers Friendship Groups

variable {same : String → String → Bool} {E : Engines} {os : Nat → Outcome} {w : Setting} {userid groupid : Int}

/-- The requester is answered that his request has failed. -/
def Refused : Answer → Prop
  | .sendJson response => response.get? "msgid" = some EnMsgType.addGroupResponse.json ∧
    ∃ errno, response.get? "errno" = some (.int errno) ∧ errno ≠ 0
  | _ => False

def row (userid groupid : Int) (d : Tables) : Option (Option Status) := (d.requests .group).status (userid, groupid)

/-- A request that fails leaves its row as it was. -/
def NoTrace (userid groupid : Int) (w : Setting) (x : Answer × Setting) : Prop :=
  Refused x.1 → row userid groupid x.2.db = row userid groupid w.db

def OwnerFound (groupid : Int) (w : Setting) (o : Outcome) : Prop :=
  o.runs = true ∧ (creatorOf groupid w.db).isSome = true

/-- When the row is written, the owner of the group is found. -/
def Forwards (userid groupid : Int) (w : Setting) (os : Nat → Outcome) : Prop :=
  (os 0).runs = true → hasMember groupid userid w.db = false →
  (os 1).runs = true → (w.db.group.groups.any fun g => g.id = groupid) = true →
  (os 2).runs = true → row userid groupid w.db = none ∨ row userid groupid w.db = some (some .rejected) →
  (os 3).runs = true → OwnerFound groupid w (os 4)

theorem refused_answer {errno : Int} (h : errno ≠ 0) (errmsg : String) :
    Refused (.sendJson (reply .addGroupResponse errno errmsg)) :=
  ⟨by simp [reply, Json.mkObj], errno, GroupAnswers.errno_reply _ _ _, h⟩

theorem noTrace_of_row {x : Answer × Setting} (h : row userid groupid x.2.db = row userid groupid w.db) :
    NoTrace userid groupid w x := fun _ => h

theorem forwardToOwner_refused (hE : E.Rules same) (hc : (os 0).Clean) (payload : String) :
    Refused ((forwardToOwner groupid payload).run (Call.exec E) os w).1 ↔ ¬ OwnerFound groupid w (os 0) := by
  rw [OwnerFound]
  cases hr : (os 0).runs with
  | false =>
    have h := GroupCall.exec_of_not_runs (m := E.db) hr (.queryGroupOwnerId groupid) w.db
    rw [forwardToOwner, run_group h]
    exact iff_of_true (refused_answer (by decide) _) fun h => Bool.false_ne_true h.1
  | true =>
    have h := GroupCall.exec_of_runs hE.db hr hc (.queryGroupOwnerId groupid) trivial w.db
    rw [forwardToOwner, run_group h]
    cases hf : creatorOf groupid w.db with
    | none => exact iff_of_true (refused_answer (by decide) _) fun h => Bool.false_ne_true h.2
    | some owner =>
      have ha : ((deliverMessage owner payload).run (Call.exec E) (fun n => os (n + 1)) (w.put (w.db.tick (os 0).now))).1 =
          .delivered := Program.run_returns (deliverMessage_delivered owner payload) _ _
      refine iff_of_false (fun hx => ?_) (not_not_intro ⟨rfl, rfl⟩)
      exact (ha ▸ hx : Refused .delivered)

theorem forwardToOwner_row (hE : E.Rules same) (hc : (os 0).Clean) (payload : String) :
    row userid groupid ((forwardToOwner groupid payload).run (Call.exec E) os w).2.db = row userid groupid w.db := by
  cases hr : (os 0).runs with
  | false =>
    have h := GroupCall.exec_of_not_runs (m := E.db) hr (.queryGroupOwnerId groupid) w.db
    rw [forwardToOwner, run_group h]
    rfl
  | true =>
    have h := GroupCall.exec_of_runs hE.db hr hc (.queryGroupOwnerId groupid) trivial w.db
    rw [forwardToOwner, run_group h]
    cases creatorOf groupid w.db with
    | none => rfl
    | some owner => exact (congrArg (row userid groupid) (run_deliverMessage E owner payload _ _)).trans rfl

theorem forwardToOwner_iff (hE : E.Rules same) (hc : (os 0).Clean) (payload : String) {d : Tables}
    (hd : d.group = w.db.group) (hw : row userid groupid d ≠ row userid groupid w.db) :
    NoTrace userid groupid w ((forwardToOwner groupid payload).run (Call.exec E) os (w.put d)) ↔
      OwnerFound groupid w (os 0) := by
  have ho : OwnerFound groupid (w.put d) (os 0) ↔ OwnerFound groupid w (os 0) := by
    rw [OwnerFound, OwnerFound, creatorOf, creatorOf, Setting.put, hd]
  rw [NoTrace, forwardToOwner_refused hE hc payload, forwardToOwner_row hE hc payload, ho]
  exact ⟨fun h => by_contra fun hn => hw (h hn), fun h hn => absurd h hn⟩

theorem requestGroup_iff (hE : E.Rules same) (hc : ∀ n, (os n).Clean) (hu : IsInt userid) (hg : IsInt groupid)
    (payload : String) {d : Tables} (hd : d.group = w.db.group) (hq : d.requests .group = w.db.requests .group) :
    NoTrace userid groupid w (Program.run (Call.exec E)
      (.call (.group (.queryRequestStatus userid groupid)) (requestGroup userid groupid payload)) os (w.put d)) ↔
    ((os 0).runs = true → row userid groupid w.db = none ∨ row userid groupid w.db = some (some .rejected) →
      (os 1).runs = true → OwnerFound groupid w (os 2)) := by
  have hrow (now : Int) : row userid groupid (d.tick now) = row userid groupid w.db := by
    rw [row, Tables.tick_requests, hq, row]
  cases hr : (os 0).runs with
  | false =>
    have h := GroupCall.exec_of_not_runs (m := E.db) hr (.queryRequestStatus userid groupid) d
    rw [run_group (w := w.put d) h]
    exact iff_of_true (noTrace_of_row (hrow _)) fun h => absurd h Bool.false_ne_true
  | true =>
    have h := GroupCall.exec_of_runs hE.db hr (hc 0) (.queryRequestStatus userid groupid) trivial d
    rw [run_group (w := w.put d) h, imp_iff_right rfl, hq]
    cases hl : (w.db.requests .group).lookup (userid, groupid) with
    | none =>
      have hnone : row userid groupid w.db = none := Requests.Table.status_eq_none.mpr hl
      rw [imp_iff_right (Or.inl hnone)]
      cases hr₁ : (os 1).runs with
      | false =>
        have h₁ := GroupCall.exec_of_not_runs (m := E.db) hr₁ (.addGroupRequest userid groupid) (d.tick (os 0).now)
        refine (congrArg (NoTrace userid groupid w) (run_group (w := w.put (d.tick (os 0).now)) h₁)).to_iff.trans ?_
        exact iff_of_true (noTrace_of_row (hrow _)) fun h => absurd h Bool.false_ne_true
      | true =>
        have h₁ := GroupCall.exec_of_runs hE.db hr₁ (hc 1) (.addGroupRequest userid groupid) trivial (d.tick (os 0).now)
        obtain ⟨t, ht⟩ : ∃ t, (d.requests .group).insertPending (userid, groupid) = some t :=
          ⟨_, Requests.Table.insertPending_eq_some.mpr ⟨⟨hu, hg, hq ▸ hl⟩, rfl⟩⟩
        have hs := Requests.Table.status_insertPending_self ht
        rw [GroupCall.effect, Tables.tick_requests, ht,
          Tables.addRequest_of_some (d := (d.tick (os 0).now).tick (os 1).now) ht] at h₁
        refine (congrArg (NoTrace userid groupid w) (run_group (w := w.put (d.tick (os 0).now)) h₁)).to_iff.trans ?_
        rw [imp_iff_right rfl]
        refine forwardToOwner_iff hE (hc 2) payload (by exact hd) ?_
        rw [row, Tables.setRequests_self, hs, hnone]
        exact Option.some_ne_none _
    | some r =>
      obtain ⟨status, handledAt⟩ := r
      have hs : row userid groupid w.db = some status := by rw [row, Requests.Table.status, hl, Option.map_some]
      rw [rowStatus, Option.elim_some, hs]
      cases status with
      | none => exact iff_of_true (noTrace_of_row (hrow _)) fun h => by simp at h
      | some s =>
        cases s with
        | accepted => exact iff_of_true (noTrace_of_row (hrow _)) fun h => by simp at h
        | pending => exact iff_of_true (noTrace_of_row (hrow _)) fun h => by simp at h
        | rejected =>
          rw [imp_iff_right (Or.inr rfl)]
          cases hr₁ : (os 1).runs with
          | false =>
            have h₁ := GroupCall.exec_of_not_runs (m := E.db) hr₁ (.updateRequestStatus userid groupid "pending")
              (d.tick (os 0).now)
            refine (congrArg (NoTrace userid groupid w) (run_group (w := w.put (d.tick (os 0).now)) h₁)).to_iff.trans ?_
            exact iff_of_true (noTrace_of_row (hrow _)) fun h => absurd h Bool.false_ne_true
          | true =>
            have h₁ := (GroupCall.exec_of_runs hE.db hr₁ (hc 1) (.updateRequestStatus userid groupid "pending") trivial
              (d.tick (os 0).now)).trans (setText_eq (s := .pending) rfl _)
            refine (congrArg (NoTrace userid groupid w) (run_group (w := w.put (d.tick (os 0).now)) h₁)).to_iff.trans ?_
            rw [imp_iff_right rfl]
            refine forwardToOwner_iff hE (hc 2) payload (by exact hd) ?_
            have hne : (w.db.requests .group).status (userid, groupid) ≠ none := by
              change row userid groupid w.db ≠ none
              rw [hs]
              exact Option.some_ne_none _
            rw [row, Tables.setRequests_self, Tables.tick_requests, Tables.tick_requests, hq,
              Requests.Table.status_setStatus_self hne, hs]
            decide

section

variable {js : Json} (hu : (js.get? "userid").bind Json.toInt? = some userid)
  (hg : (js.get? "groupid").bind Json.toInt? = some groupid) (hE : E.Rules same) (hc : ∀ n, (os n).Clean)

include hu hg hE hc

theorem addGroup_reaches (h₀ : (os 0).runs = true) (hm : hasMember groupid userid w.db = false) (h₁ : (os 1).runs = true)
    (hx : (w.db.group.groups.any fun g => g.id = groupid) = true) :
    NoTrace userid groupid w ((addGroup js).run (Call.exec E) os w) ↔
      ((os 2).runs = true → row userid groupid w.db = none ∨ row userid groupid w.db = some (some .rejected) →
        (os 3).runs = true → OwnerFound groupid w (os 4)) := by
  have he₀ : (GroupCall.isUserInGroup userid groupid).exec E.db (os 0) w.db =
      (foundStatus (hasMember groupid userid w.db), w.db.tick (os 0).now) :=
    GroupCall.exec_of_runs hE.db h₀ (hc 0) (.isUserInGroup userid groupid) trivial w.db
  have he₁ : (GroupCall.isGroupExist groupid).exec E.db (os 1) (w.db.tick (os 0).now) =
      (foundStatus (w.db.group.groups.any fun g => g.id = groupid), (w.db.tick (os 0).now).tick (os 1).now) :=
    GroupCall.exec_of_runs hE.db h₁ (hc 1) (.isGroupExist groupid) trivial (w.db.tick (os 0).now)
  rw [hm] at he₀
  rw [hx] at he₁
  rw [addGroup, hu, hg]
  dsimp only
  rw [run_group he₀]
  refine (congrArg (NoTrace userid groupid w) (run_group (w := w.put (w.db.tick (os 0).now)) he₁)).to_iff.trans ?_
  exact requestGroup_iff hE (fun n => hc (n + 2)) (isInt_of_field hu) (isInt_of_field hg) js.dump rfl rfl

theorem addGroup_stops (h : ¬ ((os 0).runs = true ∧ hasMember groupid userid w.db = false ∧ (os 1).runs = true ∧
    (w.db.group.groups.any fun g => g.id = groupid) = true)) :
    NoTrace userid groupid w ((addGroup js).run (Call.exec E) os w) := by
  rw [addGroup, hu, hg]
  dsimp only
  cases h₀ : (os 0).runs with
  | false =>
    rw [run_group (GroupCall.exec_of_not_runs h₀ _ w.db)]
    exact noTrace_of_row rfl
  | true =>
    have he₀ : (GroupCall.isUserInGroup userid groupid).exec E.db (os 0) w.db =
        (foundStatus (hasMember groupid userid w.db), w.db.tick (os 0).now) :=
      GroupCall.exec_of_runs hE.db h₀ (hc 0) (.isUserInGroup userid groupid) trivial w.db
    rw [run_group he₀]
    cases hm : hasMember groupid userid w.db with
    | true => exact noTrace_of_row rfl
    | false =>
      cases h₁ : (os 1).runs with
      | false =>
        have he₁ := GroupCall.exec_of_not_runs (m := E.db) h₁ (.isGroupExist groupid) (w.db.tick (os 0).now)
        refine (congrArg (NoTrace userid groupid w) (run_group (w := w.put (w.db.tick (os 0).now)) he₁)).mpr ?_
        exact noTrace_of_row rfl
      | true =>
        have he₁ : (GroupCall.isGroupExist groupid).exec E.db (os 1) (w.db.tick (os 0).now) =
            (foundStatus (w.db.group.groups.any fun g => g.id = groupid), (w.db.tick (os 0).now).tick (os 1).now) :=
          GroupCall.exec_of_runs hE.db h₁ (hc 1) (.isGroupExist groupid) trivial (w.db.tick (os 0).now)
        refine (congrArg (NoTrace userid groupid w) (run_group (w := w.put (w.db.tick (os 0).now)) he₁)).mpr ?_
        cases hx : w.db.group.groups.any fun g => g.id = groupid with
        | false => exact noTrace_of_row rfl
        | true => exact absurd ⟨h₀, hm, h₁, hx⟩ h

end

/-- A failed request to join a group leaves no trace exactly when the owner of
the group is found whenever the row has been written. -/
theorem addGroup_no_trace (hE : E.Rules same) {js : Json} (hu : (js.get? "userid").bind Json.toInt? = some userid)
    (hg : (js.get? "groupid").bind Json.toInt? = some groupid) (hc : ∀ n, (os n).Clean) :
    NoTrace userid groupid w ((addGroup js).run (Call.exec E) os w) ↔ Forwards userid groupid w os := by
  rw [Forwards]
  by_cases h : (os 0).runs = true ∧ hasMember groupid userid w.db = false ∧ (os 1).runs = true ∧
      (w.db.group.groups.any fun g => g.id = groupid) = true
  · obtain ⟨h₀, hm, h₁, hx⟩ := h
    rw [addGroup_reaches hu hg hE hc h₀ hm h₁ hx, imp_iff_right h₀, imp_iff_right hm, imp_iff_right h₁, imp_iff_right hx]
  · refine iff_of_true (addGroup_stops hu hg hE hc h) fun h₀ hm h₁ hx => absurd ⟨h₀, hm, h₁, hx⟩ h

open Friendship.Persons

def club : Setting :=
  world.put { world.db with group := { groups := [⟨1, "g", none⟩], members := [⟨1, 2, some "creator"⟩] } }

def joining : Json := .obj [("groupid", .int 1), ("msgid", EnMsgType.addGroupMsg.json), ("userid", .int 1)]

def ownerLost (n : Nat) : Outcome := { executes := n ≠ 4 }

theorem addGroup_no_trace_joining : NoTrace 1 1 club ((addGroup joining).run (Call.exec engines) (fun _ => {}) club) :=
  (addGroup_no_trace engines_rules rfl rfl fun _ _ => rfl).mpr fun _ _ _ _ _ _ _ => ⟨rfl, rfl⟩

theorem addGroup_traced : ¬ ∀ (same : String → String → Bool) (E : Engines), E.Rules same →
    ∀ (js : Json) (userid groupid : Int), (js.get? "userid").bind Json.toInt? = some userid →
    (js.get? "groupid").bind Json.toInt? = some groupid → ∀ (w : Setting) (os : Nat → Outcome), (∀ n, (os n).Clean) →
      NoTrace userid groupid w ((addGroup js).run (Call.exec E) os w) := by
  intro h
  have hc : ∀ n, (ownerLost n).Clean := fun _ _ => rfl
  have hn := h _ engines engines_rules joining 1 1 rfl rfl club ownerLost hc
  have ho := (addGroup_reaches rfl rfl engines_rules hc rfl rfl rfl rfl).mp hn rfl (Or.inl rfl) rfl
  exact absurd ho.1 (by decide)

end BridgeIM.Server.JoinFailure
