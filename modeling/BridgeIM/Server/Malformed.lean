import BridgeIM.Server.ChatService

namespace BridgeIM.Server.Malformed

open Db Lib Model Services ChatService
open RequestHandlers (Answer Handler Engines)

variable {N : Type} {E : Engines} {conn : Conn N} {js : Json}

/-- A handler calls nothing that writes before it throws. -/
def Careful (p : Service N) : Prop :=
  p.QuietUntil (fun op => ∃ userid groupid, op = .group (.isPendingRequest userid groupid)) (· = .thrown)

def Returning (p : Service N) : Prop := p.Returns (· ≠ .thrown)

theorem Returning.careful {p : Service N} (h : Returning p) : Careful p := Program.QuietUntil.of_returns h

theorem sendJson_returning (conn : Conn N) (response : Json) : Returning (sendJson conn response) :=
  fun _ => Ending.noConfusion

theorem deliverMessage_returning (node : N) (targetId : Int) (payload : String) :
    Returning (deliverMessage node targetId payload) := by
  intro found
  cases found with
  | some connection => exact fun _ => Ending.noConfusion
  | none =>
    intro user
    dsimp only
    split <;> exact fun _ => Ending.noConfusion

theorem deliverAll_returning (node : N) (payload : String) (ids : List Int) : Returning (deliverAll node payload ids) := by
  induction ids with
  | nil => exact Ending.noConfusion
  | cons id ids ih => exact (deliverMessage_returning node id payload).bind fun _ _ => ih

theorem markUserOffline_returning (node : N) (userid : Int) : Returning (markUserOffline node userid) :=
  fun _ _ => Ending.noConfusion

theorem acknowledge_returning (conn : Conn N) (user : UserModel.User) (offlineMsgs : List String) :
    Returning (acknowledge conn user offlineMsgs) := by
  intro friends groups
  have h : (queryMembers (N := N) groups).Returns fun _ => True := by
    generalize (groups : List GroupModel.Group) = groups
    induction groups with
    | nil => trivial
    | cons group groups ih => exact fun _ => ih.bind fun _ _ => trivial
  exact h.bind fun _ _ => sendJson_returning conn _

theorem accept_returning (conn : Conn N) (user : UserModel.User) : Returning (accept conn user) := by
  intro _ _ _ offlineMsgs
  dsimp only
  split
  · exact acknowledge_returning conn user []
  · exact fun _ => acknowledge_returning conn user offlineMsgs

theorem login_careful : Careful (ChatService.login conn js) := by
  unfold ChatService.login
  split
  · refine Returning.careful fun user => ?_
    dsimp only
    repeat' split
    all_goals first
      | exact sendJson_returning conn _
      | exact accept_returning conn _
  · trivial

theorem loginout_careful : Careful (ChatService.loginout conn js) := by
  unfold ChatService.loginout
  split
  · exact Returning.careful fun _ => markUserOffline_returning conn.node _
  · trivial

theorem reg_careful : Careful (ChatService.reg conn js) := by
  unfold ChatService.reg
  split
  · exact Returning.careful fun _ => sendJson_returning conn _
  · trivial

theorem oneChat_careful : Careful (ChatService.oneChat conn js) := by
  unfold ChatService.oneChat
  split
  · refine Returning.careful fun isFriend => ?_
    dsimp only
    split
    · exact sendJson_returning conn _
    · exact deliverMessage_returning conn.node _ _
  · trivial

theorem groupChat_careful : Careful (groupChat conn js) := by
  unfold groupChat
  split
  · exact Returning.careful fun _ _ => deliverAll_returning conn.node _ _
  · trivial

theorem onConn_returning {p : Handler} (hp : p.Returns (· ≠ .thrown)) (conn : Conn N) (found : Option (Conn N)) :
    Returning (onConn conn found p) := by
  induction p generalizing found with
  | ret r =>
    cases r with
    | sendJson response => exact sendJson_returning conn response
    | thrown => exact absurd rfl hp
    | _ => exact Ending.noConfusion
  | call op next ih =>
    cases op with
    | sendPayload userid payload =>
      cases found with
      | some connection => exact fun _ => ih () (hp ()) (some connection)
      | none => exact ih () (hp ()) none
    | findLocalConnection userid => exact fun a => ih a.isSome (hp _) a
    | publish channel message => exact fun _ => ih () (hp ()) found
    | _ => exact fun a => ih a (hp a) found

def Ends (p : Handler) : Prop := p.Returns (· ≠ .thrown)

theorem ends_deliverMessage (targetId : Int) (payload : String) : Ends (RequestHandlers.deliverMessage targetId payload) := by
  intro found
  cases found with
  | true => exact fun _ => Answer.noConfusion
  | false =>
    intro user
    dsimp only
    split <;> exact fun _ => Answer.noConfusion

theorem ends_answer (type : EnMsgType) (errno : Int) (errmsg : String) :
    Ends (RequestHandlers.answer type errno errmsg) := Answer.noConfusion

theorem ends_requestFriend (userid friendid : Int) (payload : String) (result : RequestStatusResult) :
    Ends (RequestHandlers.requestFriend userid friendid payload result) := by
  have hsend (ok : Bool) : Ends (if !ok then RequestHandlers.answer .addFriendResponse 5 RequestHandlers.busy
      else RequestHandlers.deliverMessage friendid payload) := by
    split
    · exact ends_answer _ _ _
    · exact ends_deliverMessage friendid payload
  unfold RequestHandlers.requestFriend
  repeat' split
  · exact ends_answer _ _ _
  · exact hsend
  · exact ends_answer _ _ _
  · exact hsend
  · exact Answer.noConfusion

theorem addFriend_careful : Careful (onConn conn none (RequestHandlers.addFriend js)) := by
  unfold RequestHandlers.addFriend
  split
  · rename_i userid friendid _ _
    refine (onConn_returning ?_ conn none).careful
    show Ends _
    split
    · exact ends_answer _ _ _
    · intro found
      dsimp only
      split
      · exact ends_answer _ _ _
      · intro isFriend
        dsimp only
        split
        · exact ends_answer _ _ _
        · exact ends_requestFriend userid friendid js.dump
  · trivial

theorem addFriendHandle_careful : Careful (onConn conn none (RequestHandlers.addFriendHandle js)) := by
  unfold RequestHandlers.addFriendHandle
  split
  · rename_i userid friendid action _ _ _
    refine (onConn_returning ?_ conn none).careful
    intro result
    show Ends _
    dsimp only
    split
    · exact ends_answer _ _ _
    · exact ends_answer _ _ _
    · split
      · intro ok
        dsimp only
        split
        · exact ends_answer _ _ _
        · exact fun _ _ => ends_deliverMessage userid _
      · exact fun _ => ends_deliverMessage userid _
  · trivial

theorem createGroup_careful : Careful (onConn conn none (RequestHandlers.createGroup js)) := by
  unfold RequestHandlers.createGroup
  split
  · refine (onConn_returning ?_ conn none).careful
    intro result
    show Ends _
    dsimp only
    split
    · exact ends_answer _ _ _
    · intro id
      cases id with
      | some id => exact fun _ => ends_answer _ _ _
      | none => exact ends_answer _ _ _
    · exact ends_answer _ _ _
  · trivial

theorem ends_forwardToOwner (groupid : Int) (payload : String) : Ends (RequestHandlers.forwardToOwner groupid payload) := by
  intro owner
  dsimp only
  split
  · exact ends_answer _ _ _
  · exact ends_answer _ _ _
  · exact ends_deliverMessage _ payload

theorem ends_requestGroup (userid groupid : Int) (payload : String) (result : RequestStatusResult) :
    Ends (RequestHandlers.requestGroup userid groupid payload result) := by
  have hsend (ok : Bool) : Ends (if !ok then RequestHandlers.answer .addGroupResponse 3 RequestHandlers.busy
      else RequestHandlers.forwardToOwner groupid payload) := by
    split
    · exact ends_answer _ _ _
    · exact ends_forwardToOwner groupid payload
  unfold RequestHandlers.requestGroup
  repeat' split
  · exact ends_answer _ _ _
  · exact hsend
  · exact ends_answer _ _ _
  · exact hsend
  · exact Answer.noConfusion

theorem addGroup_careful : Careful (onConn conn none (RequestHandlers.addGroup js)) := by
  unfold RequestHandlers.addGroup
  split
  · rename_i userid groupid _ _
    refine (onConn_returning ?_ conn none).careful
    intro inGroup
    show Ends _
    dsimp only
    split
    · exact ends_answer _ _ _
    · exact ends_answer _ _ _
    · intro groupExist
      dsimp only
      split
      · exact ends_answer _ _ _
      · exact ends_answer _ _ _
      · exact ends_requestGroup userid groupid js.dump
  · trivial

theorem ends_settle (userid groupid : Int) (action : String) :
    Ends (if action = "accept" then RequestHandlers.acceptGroup userid groupid
      else RequestHandlers.rejectGroup userid groupid) := by
  split
  · exact fun _ _ => ends_deliverMessage userid _
  · exact fun _ => ends_deliverMessage userid _

theorem addGroupHandle_careful : Careful (onConn conn none (RequestHandlers.addGroupHandle js)) := by
  unfold RequestHandlers.addGroupHandle
  split
  · rename_i userid groupid _ _
    refine ⟨Or.inl ⟨userid, groupid, rfl⟩, fun pending => ?_⟩
    dsimp only
    split
    · cases (js.get? "action").bind Json.toStr? with
      | none => trivial
      | some action => exact (onConn_returning (ends_settle userid groupid action) conn none).careful
    · exact (onConn_returning (ends_answer _ _ _) conn none).careful
  · trivial

theorem getHandler_careful (msgid : Int) (conn : Conn N) (js : Json) : Careful (ChatService.getHandler msgid conn js) := by
  unfold ChatService.getHandler
  repeat' split
  · exact login_careful
  · exact loginout_careful
  · exact reg_careful
  · exact oneChat_careful
  · exact addFriend_careful
  · exact addFriendHandle_careful
  · exact createGroup_careful
  · exact addGroup_careful
  · exact addGroupHandle_careful
  · exact groupChat_careful
  · trivial

/-- A handler that throws has changed no table, no node and sent nothing. Only the
clock of the database may have moved on. -/
theorem thrown_changes_nothing [DecidableEq N] (E : Engines) (msgid : Int) (conn : Conn N) (js : Json)
    (os : Nat → Chance) (w : System N)
    (h : ((ChatService.getHandler msgid conn js).run (ServiceCall.exec E) os w).1 = .thrown) :
    ∃ now, ((ChatService.getHandler msgid conn js).run (ServiceCall.exec E) os w).2 = { w with db := w.db.tick now } := by
  refine Program.run_quietUntil (I := fun w' => ∃ now, w' = { w with db := w.db.tick now }) ?_
    (getHandler_careful msgid conn js) h ⟨w.db.now, rfl⟩
  rintro _ o _ ⟨userid, groupid, rfl⟩ ⟨now, rfl⟩
  exact ⟨o.now, rfl⟩

def undecided : Json := .obj [("groupid", .int 1), ("msgid", EnMsgType.addGroupHandle.json), ("userid", .int 1)]

def asked : System Unit where
  db :=
    { users := ⟨[], 1, fun _ h => absurd h List.not_mem_nil, List.nodup_nil⟩
      requests := fun _ => AList.singleton (1, 1) ⟨some .pending, none⟩ }

theorem thrown_changes_nothing_undecided :
    ∃ now, ((ChatService.getHandler 14 ⟨(), 0⟩ undecided).run (ServiceCall.exec (Engines.strict fun a b => a = b))
      (fun _ => {}) asked).2 = { asked with db := asked.db.tick now } := by
  refine thrown_changes_nothing _ 14 ⟨(), 0⟩ undecided (fun _ => {}) asked ?_
  decide +kernel

end BridgeIM.Server.Malformed
