import BridgeIM.Client.LoginData
import BridgeIM.Client.Requests
import BridgeIM.Server.Run

namespace BridgeIM.Client.OfflineReplay

open CString Db Lib Server Server.ChatService Server.Framing Server.Sending Objects LoginData Requests

variable {N : Type} {parse : Bytes → Option Json} {js : Json} {payload : String}

/-- A message for another user, with the line that the client shows for it. -/
inductive Message : Json → String → Prop
  | oneChat {js : Json} {line : String} (hm : msgid js = some EnMsgType.oneChatMsg.code) (hl : oneChatLine js = some line) :
      Message js line
  | groupChat {js : Json} {groupid line : String} (hm : msgid js = some EnMsgType.groupChatMsg.code)
      (hi : (readInt js "groupid").map decimal = some groupid) (hd : ((js.get? "groupid").getD .null).dump = groupid)
      (hl : groupChatLine js (some groupid) = some line) : Message js line
  | friendRequest {js : Json} {userid : Int} (hm : msgid js = some EnMsgType.addFriendRequest.code)
      (hu : readInt js "userid" = some userid) : Message js (friendRequest userid)
  | groupRequest {js : Json} {userid groupid : Int} (hm : msgid js = some EnMsgType.addGroupMsg.code)
      (hu : readInt js "userid" = some userid) (hg : readInt js "groupid" = some groupid) :
      Message js (groupRequest userid groupid)
  | friendResponse {js : Json} {errmsg : String} (hm : msgid js = some EnMsgType.addFriendResponse.code)
      (he : readStr js "errmsg" = some errmsg) : Message js ("\n[系统通知] " ++ errmsg ++ "\n")
  | groupResponse {js : Json} {errmsg : String} (hm : msgid js = some EnMsgType.addGroupResponse.code)
      (he : readStr js "errmsg" = some errmsg) : Message js ("\n[系统通知]" ++ errmsg ++ "\n")

/-- A message that is shown when it comes from the offline messages. -/
def Chat (js : Json) : Prop :=
  msgid js = some EnMsgType.oneChatMsg.code ∨ msgid js = some EnMsgType.groupChatMsg.code

theorem dispatch_message {line : String} (h : Message js line) (s : ChatClient) :
    dispatch parse js s = some (s.write line) := by
  have hr : readInt js "msgid" = msgid js := rfl
  unfold dispatch
  cases h with
  | oneChat hm hl => simp [hr, hm, hl, EnMsgType.code]
  | groupChat hm hi hd hl => simp [hr, hm, hi, hl, EnMsgType.code]
  | friendRequest hm hu => simp [hr, hm, hu, EnMsgType.code]
  | groupRequest hm hu hg => simp [hr, hm, hu, hg, EnMsgType.code]
  | friendResponse hm he => simp [hr, hm, he, EnMsgType.code]
  | groupResponse hm he => simp [hr, hm, he, EnMsgType.code]

theorem replay_message {line : String} (h : Message js line) (hp : parse (utf8 js.dump) = some js) :
    Chat js ∧ replay parse js.dump = some [line] ∨ ¬ Chat js ∧ replay parse js.dump = some [] := by
  have hr : readInt js "msgid" = msgid js := rfl
  unfold replay Chat
  rw [hp]
  cases h with
  | oneChat hm hl => simp [hr, hm, hl, EnMsgType.code]
  | groupChat hm hi hd hl => simp [hr, hm, hd, hl, EnMsgType.code]
  | friendRequest hm hu => simp [hr, hm, EnMsgType.code]
  | groupRequest hm hu hg => simp [hr, hm, EnMsgType.code]
  | friendResponse hm he => simp [hr, hm, EnMsgType.code]
  | groupResponse hm he => simp [hr, hm, EnMsgType.code]

theorem msgid_of_fields {type : EnMsgType} {fields : List (String × Json)} (h : Fields type fields) :
    msgid (.mkObj (("msgid", type.json) :: fields)) = some type.code := by
  have hw : Json.wrap type.code = type.code := wrap_of_isInt (isInt_code type)
  unfold msgid
  rw [Json.get?_mkObj]
  cases h <;> simp [EnMsgType.json, Json.toInt?, hw]

theorem msgid_set_groupname (js v : Json) : msgid (js.set "groupname" v) = msgid js := by
  rw [msgid, Json.get?_set_ne (by decide), msgid]

theorem not_chat {type : EnMsgType} (hm : msgid js = some type.code) (h₁ : type ≠ .oneChatMsg) (h₂ : type ≠ .groupChatMsg) :
    ¬ Chat js := by
  rintro (h | h)
  · exact h₁ (code_injective (Option.some.inj (hm.symm.trans h)))
  · exact h₂ (code_injective (Option.some.inj (hm.symm.trans h)))

theorem flat_reply (type : EnMsgType) {errno : Int} (he : IsInt errno) (errmsg : String) :
    Flat (RequestHandlers.reply type errno errmsg) := by
  refine flat_mkObj ?_
  simp only [List.forall_mem_cons, List.not_mem_nil, false_implies, implies_true, and_true, Leaf.str, Leaf.int he]
  exact .int (isInt_code type)

theorem read_reply (type : EnMsgType) (errno : Int) (errmsg : String) :
    msgid (RequestHandlers.reply type errno errmsg) = some type.code ∧
      readStr (RequestHandlers.reply type errno errmsg) "errmsg" = some errmsg := by
  have hw : Json.wrap type.code = type.code := wrap_of_isInt (isInt_code type)
  constructor
  · simp [msgid, RequestHandlers.reply, Json.get?_mkObj, EnMsgType.json, Json.toInt?, hw]
  · simp [readStr, RequestHandlers.reply, Json.get?_mkObj, Json.toStr?]

theorem message_of_reply {type : EnMsgType} (ht : type = .addFriendResponse ∨ type = .addGroupResponse) {errno : Int}
    (he : IsInt errno) (errmsg : String) (hn : ¬ Chat js) : ∃ j, (RequestHandlers.reply type errno errmsg).dump = j.dump ∧
      Flat j ∧ (∃ line, Message j line) ∧ (Chat j ↔ Chat js) := by
  obtain ⟨hm, hs⟩ := read_reply type errno errmsg
  obtain rfl | rfl := ht
  · exact ⟨_, rfl, flat_reply _ he errmsg, ⟨_, .friendResponse hm hs⟩,
      iff_of_false (not_chat hm (by decide) (by decide)) hn⟩
  · exact ⟨_, rfl, flat_reply _ he errmsg, ⟨_, .groupResponse hm hs⟩,
      iff_of_false (not_chat hm (by decide) (by decide)) hn⟩

theorem chat_message (hm : msgid js = some EnMsgType.oneChatMsg.code) (ht : (readStr js "time").isSome)
    (hu : (readInt js "userid").isSome) (hn : (readStr js "name").isSome) (hs : (readStr js "msg").isSome) :
    ∃ line, Message js line := by
  obtain ⟨time, ht⟩ := Option.isSome_iff_exists.mp ht
  obtain ⟨userid, hu⟩ := Option.isSome_iff_exists.mp hu
  obtain ⟨name, hn⟩ := Option.isSome_iff_exists.mp hn
  obtain ⟨msg, hs⟩ := Option.isSome_iff_exists.mp hs
  have hl : oneChatLine js = some (time ++ ":[" ++ decimal userid ++ "]" ++ name ++ "，said:" ++ msg ++ "\n") := by
    simp [oneChatLine, ht, hu, hn, hs]
  exact ⟨_, .oneChat hm hl⟩

theorem groupChat_message (hm : msgid js = some EnMsgType.groupChatMsg.code) {groupid : Int} (hi : IsInt groupid)
    (hg : js.get? "groupid" = some (.int groupid)) (ht : (readStr js "time").isSome)
    (hr : (readStr js "groupname").isSome) (hu : (readInt js "userid").isSome) (hn : (readStr js "name").isSome)
    (hs : (readStr js "msg").isSome) : ∃ line, Message js line := by
  have hd : ((js.get? "groupid").getD .null).dump = decimal groupid := by
    rw [hg, Option.getD_some, Json.dump, Json.text, String.ofList_toList]
  obtain ⟨time, ht⟩ := Option.isSome_iff_exists.mp ht
  obtain ⟨groupname, hr⟩ := Option.isSome_iff_exists.mp hr
  obtain ⟨userid, hu⟩ := Option.isSome_iff_exists.mp hu
  obtain ⟨name, hn⟩ := Option.isSome_iff_exists.mp hn
  obtain ⟨msg, hs⟩ := Option.isSome_iff_exists.mp hs
  have hl : groupChatLine js (some (decimal groupid)) = some (time ++ ":[" ++ decimal groupid ++ "]" ++ groupname ++
      ":[" ++ decimal userid ++ "]" ++ name ++ "，said:" ++ msg ++ "\n") := by
    simp [groupChatLine, ht, hr, hu, hn, hs]
  refine ⟨_, .groupChat hm ?_ hd hl⟩
  rw [readInt, hg, Option.bind_some, Json.toInt?, wrap_of_isInt hi, Option.map_some]

theorem friendRequest_message (hm : msgid js = some EnMsgType.addFriendRequest.code) (hu : (readInt js "userid").isSome) :
    ∃ line, Message js line := by
  obtain ⟨userid, hu⟩ := Option.isSome_iff_exists.mp hu
  exact ⟨_, .friendRequest hm hu⟩

theorem groupRequest_message (hm : msgid js = some EnMsgType.addGroupMsg.code) (hu : (readInt js "userid").isSome)
    (hg : (readInt js "groupid").isSome) : ∃ line, Message js line := by
  obtain ⟨userid, hu⟩ := Option.isSome_iff_exists.mp hu
  obtain ⟨groupid, hg⟩ := Option.isSome_iff_exists.mp hg
  exact ⟨_, .groupRequest hm hu hg⟩

theorem get?_set_mkObj (fields : List (String × Json)) (key k : String) (v : Json) :
    ((Json.mkObj fields).set key v).get? k = if key = k then some v else (Json.mkObj fields).get? k := by
  obtain ⟨fs, he⟩ := Json.mkObj_eq_obj fields
  rw [he, Json.set_obj, Json.get?_setField]

theorem readInt_isSome {key : String} {n : Int} (h : js.get? key = some (.int n)) : (readInt js key).isSome := by
  rw [readInt, h]
  rfl

theorem readStr_isSome {key s : String} (h : js.get? key = some (.str s)) : (readStr js key).isSome := by
  rw [readStr, h]
  rfl

/-- The messages that the handlers make of the client's requests. -/
theorem message_of_forwarded (hs : Shipped js) (hf : Forwarded js payload) :
    ∃ j, payload = j.dump ∧ Flat j ∧ (∃ line, Message j line) ∧ (Chat j ↔ Chat js) := by
  have hflat := flat_of_shipped hs
  cases hf with
  | @request t ht hm =>
    obtain ⟨type, fields, rfl, hfields⟩ := fields_of_shipped hs
    have hcode : type = t := code_injective (Option.some.inj ((msgid_of_fields hfields).symm.trans hm))
    subst hcode
    cases hfields with
    | @chat userid toid _ _ name msg time =>
      exact ⟨_, rfl, hflat, chat_message hm (readStr_isSome (s := time) (by simp [Json.get?_mkObj]))
        (readInt_isSome (n := userid) (by simp [Json.get?_mkObj])) (readStr_isSome (s := name) (by simp [Json.get?_mkObj]))
        (readStr_isSome (s := msg) (by simp [Json.get?_mkObj])), Iff.rfl⟩
    | @addFriend userid friendid _ _ =>
      exact ⟨_, rfl, hflat, friendRequest_message hm (readInt_isSome (n := userid) (by simp [Json.get?_mkObj])), Iff.rfl⟩
    | @addGroup userid groupid _ _ =>
      exact ⟨_, rfl, hflat, groupRequest_message hm (readInt_isSome (n := userid) (by simp [Json.get?_mkObj]))
        (readInt_isSome (n := groupid) (by simp [Json.get?_mkObj])), Iff.rfl⟩
    | account hlog => obtain rfl | rfl := hlog <;> simp at ht
    | _ => simp at ht
  | groupChat hm groupname =>
    obtain ⟨type, fields, rfl, hfields⟩ := fields_of_shipped hs
    have hcode : type = .groupChatMsg := code_injective (Option.some.inj ((msgid_of_fields hfields).symm.trans hm))
    subst hcode
    cases hfields with
    | account ht => simp at ht
    | @groupChat userid groupid _ hg name msg time =>
      have hm' := (msgid_set_groupname _ (.str groupname)).trans hm
      refine ⟨_, rfl, hflat.set (.str groupname), groupChat_message hm' hg (by simp [get?_set_mkObj, Json.get?_mkObj])
        (readStr_isSome (s := time) (by simp [get?_set_mkObj, Json.get?_mkObj]))
        (readStr_isSome (s := groupname) (by simp [get?_set_mkObj]))
        (readInt_isSome (n := userid) (by simp [get?_set_mkObj, Json.get?_mkObj]))
        (readStr_isSome (s := name) (by simp [get?_set_mkObj, Json.get?_mkObj]))
        (readStr_isSome (s := msg) (by simp [get?_set_mkObj, Json.get?_mkObj])), ?_⟩
      rw [Chat, Chat, msgid_set_groupname]
  | friendAccepted hm =>
    exact message_of_reply (Or.inl rfl) (by decide) _ (not_chat hm (by decide) (by decide))
  | friendRejected hm =>
    exact message_of_reply (Or.inl rfl) (by decide) _ (not_chat hm (by decide) (by decide))
  | groupAccepted hm =>
    exact message_of_reply (Or.inr rfl) (by decide) _ (not_chat hm (by decide) (by decide))
  | groupRejected hm =>
    exact message_of_reply (Or.inr rfl) (by decide) _ (not_chat hm (by decide) (by decide))

/-- The client shows a message that comes from the offline messages as it shows
it when it comes live. -/
def Replayed (parse : Bytes → Option Json) (payload : String) : Prop :=
  ∃ lines, replay parse payload = some lines ∧
    ∀ s, onMessage parse (utf8 payload) s = some { s with cout := s.cout ++ lines }

theorem utf8_dump_ne_nil {j : Json} (h : Flat j) : utf8 j.dump ≠ [] := by
  obtain ⟨fs, rfl, -⟩ := h.fields
  rw [utf8_dump, Json.text, List.cons_append, List.flatMap_cons]
  exact List.append_ne_nil_of_left_ne_nil (by decide) _

theorem replayed_iff_chat {j : Json} {line : String} (h : Message j line) (hf : Flat j)
    (hp : parse (utf8 j.dump) = some j) : Replayed parse j.dump ↔ Chat j := by
  have hlive : ∀ s, onMessage parse (utf8 j.dump) s = some { s with cout := s.cout ++ [line] } := by
    intro s
    unfold onMessage
    rw [if_neg (utf8_dump_ne_nil hf), hp]
    exact dispatch_message h s
  obtain ⟨hc, hr⟩ | ⟨hc, hr⟩ := replay_message h hp
  · exact iff_of_true ⟨[line], hr, hlive⟩ hc
  · refine iff_of_false ?_ hc
    rintro ⟨lines, hl, hshown⟩
    have he := hshown {}
    rw [hr] at hl
    cases hl
    rw [hlive] at he
    exact List.cons_ne_nil _ _ (congrArg ChatClient.cout (Option.some.inj he))

theorem replayed_iff (hs : Shipped js) (hf : Forwarded js payload) (hp : ReadsBack parse) :
    Replayed parse payload ↔ Chat js := by
  obtain ⟨j, rfl, hflat, ⟨line, hm⟩, hc⟩ := message_of_forwarded hs hf
  rw [replayed_iff_chat hm hflat (hp j hflat), hc]

variable [DecidableEq N]

/-- What a handler stores or publishes of a request of the client is shown after
a login as it is shown live exactly when the request is a chat message. -/
theorem offline_replayed (E : RequestHandlers.Engines) (db : Model.Database.Tables)
    (as : List (ThreadMove (Arrival N) Chance)) (s : Run N) (hr : (service E).run (fresh db) as = some s) (i : Nat)
    (conn : Conn N) (js : Json) (hq : (started as)[i]? = some (.frame conn js)) (hs : Shipped js) (userid : Int)
    (payload : String)
    (hc : s.nextCall i = some (.publish userid payload) ∨ s.nextCall i = some (.offline (.insert userid payload)))
    (parse : Bytes → Option Json) (hp : ReadsBack parse) : Replayed parse payload ↔ Chat js := by
  have hpass : Passes (fun _ => True) (.frame conn js : Arrival N) payload := by
    obtain hc | hc := hc
    all_goals
      obtain ⟨next, ht⟩ := Threads.nextCall_eq_some hc
      exact (Threads.stage_of_forall₂ (emits_run hr) hq ht).1
  cases hpass with
  | forwarded hf => exact replayed_iff hs hf hp

open Server.Sample

def bob : Model.UserModel.User := { id := 2, name := "bob" }

def engines : RequestHandlers.Engines := .strict fun a b => a = b

def hello : Json :=
  .mkObj [("msgid", EnMsgType.oneChatMsg.json), ("userid", .int 2), ("name", .str "bob"), ("to", .int 1), ("msg", .str "hi"),
    ("time", .str "2026-01-01 10:00:00")]

theorem shipped_hello : Shipped hello := by
  refine .command (show IsInt bob.id by decide) "2026-01-01 10:00:00" "chat:1:hi" ?_
  have h₁ : splitColon "chat:1:hi" = some ("chat", "1:hi") := by decide
  have h₂ : splitColon "1:hi" = some ("1", "hi") := by decide
  have h₃ : atoi "1" = 1 := by decide
  simp only [mainMenu, h₁, commandHandler, if_pos, chat, h₂, Option.map_some, h₃]
  rfl

theorem shipped_addfriend : Shipped (addfriend bob "1") := .command (show IsInt bob.id by decide) "" "addfriend:1" rfl

def writeWhileAway : List (ThreadMove (Arrival Unit) Chance) :=
  .start (.frame ⟨(), 0⟩ hello) :: List.replicate 3 (.step 0 {})

theorem offline_replayed_hello : ∃ s, (service engines).run (fresh { users := accounts, friends := [(2, 1)] })
    writeWhileAway = some s ∧ s.nextCall 0 = some (.offline (.insert 1 hello.dump)) ∧
      (Replayed parseFlat hello.dump ↔ Chat hello) := by
  have h : ((service engines).run (fresh { users := accounts, friends := [(2, 1)] }) writeWhileAway).map
      (fun s => s.nextCall 0) = some (some (.offline (.insert 1 hello.dump))) := by
    decide +kernel
  obtain ⟨s, hs, hc⟩ := Option.map_eq_some_iff.mp h
  exact ⟨s, hs, hc, offline_replayed engines _ writeWhileAway s hs 0 ⟨(), 0⟩ hello rfl shipped_hello 1 hello.dump (Or.inr hc)
    parseFlat readsBack_parseFlat⟩

def requestWhileAway : List (ThreadMove (Arrival Unit) Chance) :=
  .start (.frame ⟨(), 0⟩ (addfriend bob "1")) :: List.replicate 6 (.step 0 {})

theorem request_dropped : ¬ ∀ (E : RequestHandlers.Engines) (db : Model.Database.Tables)
    (as : List (ThreadMove (Arrival Unit) Chance)) (s : Run Unit), (service E).run (fresh db) as = some s →
    ∀ (i : Nat) (conn : Conn Unit) (js : Json), (started as)[i]? = some (.frame conn js) → Shipped js →
    ∀ (userid : Int) (payload : String), s.nextCall i = some (.offline (.insert userid payload)) →
    ∀ parse : Bytes → Option Json, ReadsBack parse → Replayed parse payload := by
  intro h
  have hrun : ((service engines).run (fresh { users := accounts }) requestWhileAway).map (fun s => s.nextCall 0) =
      some (some (.offline (.insert 1 (addfriend bob "1").dump))) := by
    decide +kernel
  obtain ⟨s, hs, hc⟩ := Option.map_eq_some_iff.mp hrun
  have hr := h engines _ requestWhileAway s hs 0 ⟨(), 0⟩ _ rfl shipped_addfriend 1 _ hc parseFlat readsBack_parseFlat
  have hm : msgid (addfriend bob "1") = some EnMsgType.addFriendRequest.code := rfl
  have hf : Forwarded (addfriend bob "1") (addfriend bob "1").dump := .request (Or.inr (Or.inl rfl)) hm
  exact not_chat hm (by decide) (by decide) ((replayed_iff shipped_addfriend hf readsBack_parseFlat).mp hr)

end BridgeIM.Client.OfflineReplay
