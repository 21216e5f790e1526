import BridgeIM.Lib.Knowledge
import BridgeIM.Server.ChatService

namespace BridgeIM.Server.Ids

open Db Lib Model Services ChatService
open RequestHandlers (Call Engines Handler)

variable {N : Type}

/-- Whom a call is about: a user, a pair of users, a group, a user in a group,
or the connection that it writes to. -/
inductive Subject (N : Type)
  | user (userid : Int)
  | pair (userid friendid : Int)
  | group (groupid : Int)
  | member (userid groupid : Int)
  | conn (conn : Conn N)
  deriving DecidableEq

def ofFriend : FriendCall → Subject N
  | .isUserExist id | .queryFriends id => .user id
  | .isFriend a b | .insertFriend a b | .addFriendRequest a b | .isPendingRequest a b | .updateRequestStatus a b _
  | .queryRequestStatus a b => .pair a b

def ofGroup : GroupCall → Option (Subject N)
  | .isGroupExistName _ | .createGroup .. => none
  | .isGroupExist groupid | .queryGroupOwnerId groupid => some (.group groupid)
  | .addGroup userid groupid _ | .isUserInGroup userid groupid | .isPendingRequest userid groupid
  | .addGroupRequest userid groupid | .updateRequestStatus userid groupid _ | .queryRequestStatus userid groupid =>
    some (.member userid groupid)

def ofLocal : LocalCall N → Option (Subject N)
  | .insertConn userid _ | .eraseConn userid | .findConn userid | .subscribe userid | .unsubscribe userid =>
    some (.user userid)
  | .scanConn _ | .listen _ => none

/-- The ids in the statement of a call, the channel of a message and the
connection of a frame. The calls by name have no id. -/
def subject : ServiceCall N → Option (Subject N)
  | .friend c => some (ofFriend c)
  | .group c => ofGroup c
  | .offline (.insert userid _) | .offline (.query userid) | .offline (.remove userid) => some (.user userid)
  | .queryUser userid | .updateState userid _ | .queryGroup userid => some (.user userid)
  | .queryMembers groupid | .queryGroupName groupid => some (.group groupid)
  | .queryGroupUsers userid groupid => some (.member userid groupid)
  | .atNode _ c => ofLocal c
  | .publish channel _ => some (.user channel)
  | .send conn _ => some (.conn conn)
  | .queryName _ | .insertUser _ | .resetState => none

abbrev field (js : Json) (key : String) : Option Int := (js.get? key).bind Json.toInt?

/-- What the database and `_userConnMap` answer: the user of a name, the id of a
new group, the owner, the groups and the members that a query returns, a connection. -/
def tells (js : Json) : (op : ServiceCall N) → op.Value → Subject N → Prop
  | .queryName _, user, x => x = .user user.id
  | .group (.createGroup ..), id, x => ∃ userid groupid, field js "userid" = some userid ∧ id = some groupid ∧
    x = .member userid groupid
  | .group (.queryGroupOwnerId _), owner, x => owner.status = .ok ∧ x = .user owner.value
  | .queryGroup _, groups, x => ∃ group ∈ groups, x = .group group.id
  | .queryGroupUsers .., ids, x => ∃ id ∈ ids, x = .user id
  | .atNode _ (.findConn _), found, x => ∃ conn, found = some conn ∧ x = .conn conn
  | _, _, _ => False

/-- What the handler of a type is given by the ids in the frame. -/
inductive Named (js : Json) : EnMsgType → Subject N → Prop
  | loginout {u : Int} (hu : field js "userid" = some u) : Named js .loginoutMsg (.user u)
  | chat {u t : Int} (hu : field js "userid" = some u) (ht : field js "to" = some t) : Named js .oneChatMsg (.pair u t)
  | chatTo {t : Int} (ht : field js "to" = some t) : Named js .oneChatMsg (.user t)
  | addFriend {u f : Int} (hu : field js "userid" = some u) (hf : field js "friendid" = some f) :
    Named js .addFriendRequest (.pair u f)
  | addFriendTo {f : Int} (hf : field js "friendid" = some f) : Named js .addFriendRequest (.user f)
  | handleFriend {u f : Int} (hu : field js "userid" = some u) (hf : field js "friendid" = some f) :
    Named js .addFriendHandle (.pair u f)
  | handleBack {u f : Int} (hu : field js "userid" = some u) (hf : field js "friendid" = some f) :
    Named js .addFriendHandle (.pair f u)
  | handleTo {u : Int} (hu : field js "userid" = some u) : Named js .addFriendHandle (.user u)
  | addGroup {u g : Int} (hu : field js "userid" = some u) (hg : field js "groupid" = some g) :
    Named js .addGroupMsg (.member u g)
  | addGroupTo {g : Int} (hg : field js "groupid" = some g) : Named js .addGroupMsg (.group g)
  | handleGroup {u g : Int} (hu : field js "userid" = some u) (hg : field js "groupid" = some g) :
    Named js .addGroupHandle (.member u g)
  | handleGroupTo {u : Int} (hu : field js "userid" = some u) : Named js .addGroupHandle (.user u)
  | groupChat {u g : Int} (hu : field js "userid" = some u) (hg : field js "groupid" = some g) :
    Named js .groupChatMsg (.member u g)
  | groupName {g : Int} (hg : field js "groupid" = some g) : Named js .groupChatMsg (.group g)

def handler : EnMsgType → Option (Conn N → Json → Service N)
  | .loginMsg => some ChatService.login
  | .loginoutMsg => some ChatService.loginout
  | .regMsg => some ChatService.reg
  | .oneChatMsg => some ChatService.oneChat
  | .addFriendRequest => some fun conn js => onConn conn none (RequestHandlers.addFriend js)
  | .addFriendHandle => some fun conn js => onConn conn none (RequestHandlers.addFriendHandle js)
  | .createGroupMsg => some fun conn js => onConn conn none (RequestHandlers.createGroup js)
  | .addGroupMsg => some fun conn js => onConn conn none (RequestHandlers.addGroup js)
  | .addGroupHandle => some fun conn js => onConn conn none (RequestHandlers.addGroupHandle js)
  | .groupChatMsg => some ChatService.groupChat
  | .logMsgAck | .regMsgAck | .oneChatMsgAck | .addFriendResponse | .createGroupMsgAck | .addGroupResponse => none

def idFields : EnMsgType → List String
  | .loginoutMsg | .createGroupMsg => ["userid"]
  | .oneChatMsg => ["userid", "to"]
  | .addFriendRequest | .addFriendHandle => ["userid", "friendid"]
  | .addGroupMsg | .addGroupHandle | .groupChatMsg => ["userid", "groupid"]
  | _ => []

theorem getHandler_code {type : EnMsgType} {h : Conn N → Json → Service N} (hh : handler type = some h) (conn : Conn N)
    (js : Json) : ChatService.getHandler type.code conn js = h conn js := by
  cases type <;> cases hh <;> rfl

theorem getHandler_cases (msgid : Int) (conn : Conn N) (js : Json) :
    (∃ type h, handler type = some h ∧ msgid = type.code ∧ ChatService.getHandler msgid conn js = h conn js) ∨
      ChatService.getHandler msgid conn js = .ret .returned := by
  by_cases h : ∃ type f, handler (N := N) type = some f ∧ msgid = type.code
  · obtain ⟨type, f, hf, rfl⟩ := h
    exact Or.inl ⟨type, f, hf, rfl, getHandler_code hf conn js⟩
  · have hne (type : EnMsgType) {f : Conn N → Json → Service N} (hf : handler type = some f) : msgid ≠ type.code :=
      fun he => h ⟨type, f, hf, he⟩
    rw [ChatService.getHandler, if_neg (hne .loginMsg rfl), if_neg (hne .loginoutMsg rfl), if_neg (hne .regMsg rfl),
      if_neg (hne .oneChatMsg rfl), if_neg (hne .addFriendRequest rfl), if_neg (hne .addFriendHandle rfl),
      if_neg (hne .createGroupMsg rfl), if_neg (hne .addGroupMsg rfl), if_neg (hne .addGroupHandle rfl),
      if_neg (hne .groupChatMsg rfl)]
    exact Or.inr rfl

/-- The calls of a handler concern what the frame names and what the answers tell. -/
def Informed (js : Json) (K : Subject N → Prop) (p : Service N) : Prop :=
  p.Informed (fun op x => subject op = some x) (tells js) K

variable {conn : Conn N} {js : Json} {K : Subject N → Prop}

theorem Informed.mono {K' : Subject N → Prop} {p : Service N} (hp : Informed js K p) (h : ∀ x, K x → K' x) :
    Informed js K' p := Program.Informed.mono hp h

theorem informed_call {op : ServiceCall N} {next : op.Value → Service N} (hs : ∀ x, subject op = some x → K x)
    (hn : ∀ a, Informed js (fun x => K x ∨ tells js op a x) (next a)) : Informed js K (.call op next) := ⟨hs, hn⟩

theorem informed_about {op : ServiceCall N} {x : Subject N} (hs : subject op = some x) (hx : K x)
    {next : op.Value → Service N} (hn : ∀ a, Informed js K (next a)) : Informed js K (.call op next) := by
  refine informed_call (fun y hy => ?_) fun a => (hn a).mono fun y => Or.inl
  rw [← Option.some.inj (hs.symm.trans hy)]
  exact hx

theorem informed_sendJson (hc : K (.conn conn)) (response : Json) : Informed js K (sendJson conn response) :=
  informed_about rfl hc fun _ => trivial

theorem informed_deliverMessage {t : Int} (ht : K (.user t)) (node : N) (payload : String) :
    Informed js K (deliverMessage node t payload) := by
  refine informed_call (fun x hx => ?_) fun found => ?_
  · rw [← Option.some.inj hx]
    exact ht
  · cases found with
    | some connection => exact informed_about rfl (Or.inr ⟨connection, rfl, rfl⟩) fun _ => trivial
    | none =>
      refine informed_about rfl (Or.inl ht) fun user => ?_
      split
      · exact informed_about rfl (Or.inl ht) fun _ => trivial
      · exact informed_about rfl (Or.inl ht) fun _ => trivial

theorem informed_deliverAll {ids : List Int} (h : ∀ id ∈ ids, K (.user id)) (node : N) (payload : String) :
    Informed js K (deliverAll node payload ids) := by
  induction ids with
  | nil => trivial
  | cons id ids ih =>
    refine Program.Informed.bind (informed_deliverMessage (h id List.mem_cons_self) node payload) fun _ => ?_
    exact ih fun id' hid => h id' (List.mem_cons_of_mem id hid)

/-! The handlers of friend and group requests, without their connection. -/

def about : Call → Option (Subject N)
  | .friend c => some (ofFriend c)
  | .group c => ofGroup c
  | .findLocalConnection userid | .queryUser userid | .publish userid _ | .insertOffline userid _ => some (.user userid)
  | .sendPayload .. => none

def replies (js : Json) : (op : Call) → op.Value → Subject N → Prop
  | .group c, a, x => tells js (.group c) a x
  | _, _, _ => False

def Asks (js : Json) (K : Subject N → Prop) (p : Handler) : Prop :=
  p.Informed (fun op x => about op = some x) (replies js) K

theorem Asks.mono {K' : Subject N → Prop} {p : Handler} (hp : Asks js K p) (h : ∀ x, K x → K' x) : Asks js K' p :=
  Program.Informed.mono hp h

theorem asks_about {op : Call} {x : Subject N} (hs : about op = some x) (hx : K x) {next : op.Value → Handler}
    (hn : ∀ a, Asks js K (next a)) : Asks js K (.call op next) := by
  refine ⟨fun y hy => ?_, fun a => (hn a).mono fun y => Or.inl⟩
  rw [← Option.some.inj (hs.symm.trans hy)]
  exact hx

theorem informed_onConn {p : Handler} (hp : Asks js K p) (hc : K (.conn conn)) {found : Option (Conn N)}
    (hf : ∀ connection, found = some connection → K (.conn connection)) : Informed js K (onConn conn found p) := by
  induction p generalizing K found with
  | ret r =>
    cases r with
    | sendJson response => exact informed_sendJson hc response
    | _ => trivial
  | call op next ih =>
    cases op with
    | friend c => exact informed_call hp.1 fun a => ih a (hp.2 a) (Or.inl hc) fun c h => Or.inl (hf c h)
    | group c => exact informed_call hp.1 fun a => ih a (hp.2 a) (Or.inl hc) fun c h => Or.inl (hf c h)
    | findLocalConnection userid =>
      refine informed_call hp.1 fun a => ?_
      have hn : Asks js (fun x => K x ∨ tells js (.atNode conn.node (.findConn userid)) a x) (next a.isSome) :=
        Asks.mono (hp.2 a.isSome) fun x hx => hx.imp_right False.elim
      exact ih a.isSome hn (Or.inl hc) fun connection h => Or.inr ⟨connection, h, rfl⟩
    | sendPayload userid payload =>
      have hn : Asks js K (next ()) := Asks.mono (hp.2 ()) fun x hx => hx.resolve_right id
      cases found with
      | some connection => exact informed_about rfl (hf connection rfl) fun _ => ih () hn hc hf
      | none => exact ih () hn hc hf
    | queryUser id => exact informed_call hp.1 fun a => ih a (hp.2 a) (Or.inl hc) fun c h => Or.inl (hf c h)
    | publish channel message => exact informed_call hp.1 fun a => ih () (hp.2 ()) (Or.inl hc) fun c h => Or.inl (hf c h)
    | insertOffline userid msg => exact informed_call hp.1 fun a => ih a (hp.2 a) (Or.inl hc) fun c h => Or.inl (hf c h)

theorem asks_deliverMessage {t : Int} (ht : K (.user t)) (payload : String) :
    Asks js K (RequestHandlers.deliverMessage t payload) := by
  refine asks_about rfl ht fun found => ?_
  cases found with
  | true => exact ⟨fun x hx => (Option.some_ne_none x hx.symm).elim, fun _ => trivial⟩
  | false =>
    refine asks_about rfl ht fun user => ?_
    split
    · exact asks_about rfl ht fun _ => trivial
    · exact asks_about rfl ht fun _ => trivial

theorem asks_requestFriend {u f : Int} (hp : K (.pair u f)) (hf : K (.user f)) (payload : String)
    (result : RequestStatusResult) : Asks js K (RequestHandlers.requestFriend u f payload result) := by
  have hsend (ok : Bool) : Asks js K (if !ok then RequestHandlers.answer .addFriendResponse 5 RequestHandlers.busy
      else RequestHandlers.deliverMessage f payload) := by
    split
    · trivial
    · exact asks_deliverMessage hf payload
  unfold RequestHandlers.requestFriend
  repeat' split
  · trivial
  · exact asks_about rfl hp hsend
  · trivial
  · exact asks_about rfl hp hsend
  · trivial

theorem asks_addFriend (h : ∀ x, Named js .addFriendRequest x → K x) : Asks js K (RequestHandlers.addFriend js) := by
  unfold RequestHandlers.addFriend
  split
  · rename_i u f hu hf
    have hp : K (.pair u f) := h _ (.addFriend hu hf)
    have ht : K (.user f) := h _ (.addFriendTo hf)
    split
    · trivial
    · refine asks_about rfl ht fun found => ?_
      split
      · trivial
      · refine asks_about rfl hp fun isFriend => ?_
        split
        · trivial
        · exact asks_about rfl hp (asks_requestFriend hp ht js.dump)
  · trivial

theorem asks_addFriendHandle (h : ∀ x, Named js .addFriendHandle x → K x) :
    Asks js K (RequestHandlers.addFriendHandle js) := by
  unfold RequestHandlers.addFriendHandle
  split
  · rename_i u f action hu hf _
    have hp : K (.pair u f) := h _ (.handleFriend hu hf)
    have hb : K (.pair f u) := h _ (.handleBack hu hf)
    have ht : K (.user u) := h _ (.handleTo hu)
    refine asks_about rfl hp fun result => ?_
    split
    · trivial
    · trivial
    · split
      · refine asks_about rfl hp fun ok => ?_
        split
        · trivial
        · exact asks_about rfl hp fun _ => asks_about rfl hb fun _ => asks_deliverMessage ht _
      · exact asks_about rfl hp fun _ => asks_deliverMessage ht _
  · trivial

theorem asks_createGroup : Asks js K (RequestHandlers.createGroup js) := by
  unfold RequestHandlers.createGroup
  split
  · rename_i userid name groupdesc hu _ _
    refine ⟨fun x hx => (Option.some_ne_none x hx.symm).elim, fun result => ?_⟩
    show Asks js _ _
    dsimp only
    split
    · trivial
    · refine ⟨fun x hx => (Option.some_ne_none x hx.symm).elim, fun id => ?_⟩
      show Asks js _ _
      cases id with
      | some id => exact asks_about rfl (Or.inr ⟨userid, id, hu, rfl, rfl⟩) fun _ => trivial
      | none => trivial
    · trivial
  · trivial

theorem asks_forwardToOwner {g : Int} (hg : K (.group g)) (payload : String) :
    Asks js K (RequestHandlers.forwardToOwner g payload) := by
  refine ⟨fun x hx => ?_, fun owner => ?_⟩
  · rw [← Option.some.inj hx]
    exact hg
  · show Asks js _ _
    dsimp only
    split
    · trivial
    · trivial
    · exact asks_deliverMessage (Or.inr ⟨‹_›, rfl⟩) payload

theorem asks_requestGroup {u g : Int} (hm : K (.member u g)) (hg : K (.group g)) (payload : String)
    (result : RequestStatusResult) : Asks js K (RequestHandlers.requestGroup u g payload result) := by
  have hsend (ok : Bool) : Asks js K (if !ok then RequestHandlers.answer .addGroupResponse 3 RequestHandlers.busy
      else RequestHandlers.forwardToOwner g payload) := by
    split
    · trivial
    · exact asks_forwardToOwner hg payload
  unfold RequestHandlers.requestGroup
  repeat' split
  · trivial
  · exact asks_about rfl hm hsend
  · trivial
  · exact asks_about rfl hm hsend
  · trivial

theorem asks_addGroup (h : ∀ x, Named js .addGroupMsg x → K x) : Asks js K (RequestHandlers.addGroup js) := by
  unfold RequestHandlers.addGroup
  split
  · rename_i u g hu hi
    have hm : K (.member u g) := h _ (.addGroup hu hi)
    have hg : K (.group g) := h _ (.addGroupTo hi)
    refine asks_about rfl hm fun inGroup => ?_
    split
    · trivial
    · trivial
    · refine asks_about rfl hg fun groupExist => ?_
      split
      · trivial
      · trivial
      · exact asks_about rfl hm (asks_requestGroup hm hg js.dump)
  · trivial

theorem asks_addGroupHandle (h : ∀ x, Named js .addGroupHandle x → K x) :
    Asks js K (RequestHandlers.addGroupHandle js) := by
  unfold RequestHandlers.addGroupHandle
  split
  · rename_i u g hu hi
    have hm : K (.member u g) := h _ (.handleGroup hu hi)
    have ht : K (.user u) := h _ (.handleGroupTo hu)
    refine asks_about rfl hm fun pending => ?_
    split
    · split
      · split
        · exact asks_about rfl hm fun _ => asks_about rfl hm fun _ => asks_deliverMessage ht _
        · exact asks_about rfl hm fun _ => asks_deliverMessage ht _
      · trivial
    · trivial
  · trivial

/-! The other handlers. -/

theorem informed_loginout (h : ∀ x, Named js .loginoutMsg x → K x) : Informed js K (ChatService.loginout conn js) := by
  unfold ChatService.loginout
  split
  · rename_i u hu
    have hx : K (.user u) := h _ (.loginout hu)
    exact informed_about rfl hx fun _ => informed_about rfl hx fun _ => informed_about rfl hx fun _ => trivial
  · trivial

theorem informed_reg (hc : K (.conn conn)) : Informed js K (ChatService.reg conn js) := by
  unfold ChatService.reg
  split
  · refine informed_call (fun x hx => (Option.some_ne_none x hx.symm).elim) fun id => ?_
    exact informed_sendJson (Or.inl hc) _
  · trivial

theorem informed_oneChat (h : ∀ x, Named js .oneChatMsg x → K x) (hc : K (.conn conn)) :
    Informed js K (ChatService.oneChat conn js) := by
  unfold ChatService.oneChat
  split
  · rename_i u t hu ht
    refine informed_about rfl (h _ (.chat hu ht)) fun isFriend => ?_
    split
    · exact informed_sendJson hc _
    · exact informed_deliverMessage (h _ (.chatTo ht)) conn.node js.dump
  · trivial

theorem informed_groupChat (h : ∀ x, Named js .groupChatMsg x → K x) : Informed js K (ChatService.groupChat conn js) := by
  unfold ChatService.groupChat
  split
  · rename_i u g hu hg
    refine informed_about rfl (h _ (.groupName hg)) fun groupname => informed_call (fun x hx => ?_) fun ids => ?_
    · rw [← Option.some.inj hx]
      exact h _ (.groupChat hu hg)
    · exact informed_deliverAll (fun id hid => Or.inr ⟨id, hid, rfl⟩) conn.node _
  · trivial

theorem informed_queryMembers {groups : List GroupModel.Group} (h : ∀ group ∈ groups, K (.group group.id)) :
    (queryMembers (N := N) groups).Informed (fun op x => subject op = some x) (tells js) K := by
  induction groups generalizing K with
  | nil => trivial
  | cons group groups ih =>
    refine ⟨fun x hx => ?_, fun users => (ih fun g hg => Or.inl (h g (List.mem_cons_of_mem group hg))).bind fun _ => trivial⟩
    rw [← Option.some.inj hx]
    exact h group List.mem_cons_self

theorem informed_acknowledge {user : UserModel.User} (hu : K (.user user.id)) (hc : K (.conn conn))
    (offlineMsgs : List String) : Informed js K (acknowledge conn user offlineMsgs) := by
  refine informed_about rfl hu fun friends => informed_call (fun x hx => ?_) fun groups => ?_
  · rw [← Option.some.inj hx]
    exact hu
  · refine Program.Informed.bind (informed_queryMembers fun group hg => Or.inr ⟨group, hg, rfl⟩) fun _ => ?_
    exact informed_sendJson (Or.inl hc) _

theorem informed_accept {user : UserModel.User} (hu : K (.user user.id)) (hc : K (.conn conn)) :
    Informed js K (accept conn user) := by
  refine informed_about rfl hu fun _ => informed_about rfl hu fun _ => informed_about rfl hu fun _ => ?_
  refine informed_about rfl hu fun offlineMsgs => ?_
  split
  · exact informed_acknowledge hu hc []
  · exact informed_about rfl hu fun _ => informed_acknowledge hu hc offlineMsgs

theorem informed_login (hc : K (.conn conn)) : Informed js K (ChatService.login conn js) := by
  unfold ChatService.login
  split
  · refine informed_call (fun x hx => (Option.some_ne_none x hx.symm).elim) fun user => ?_
    have hc' : K (.conn conn) ∨ tells js (.queryName _) user (.conn conn) := Or.inl hc
    split
    · exact informed_sendJson hc' _
    · split
      · exact informed_sendJson hc' _
      · split
        · exact informed_sendJson hc' _
        · exact informed_accept (Or.inr rfl) hc'
  · trivial

theorem informed_handler {type : EnMsgType} {h : Conn N → Json → Service N} (hh : handler type = some h)
    (hK : ∀ x, Named js type x → K x) (hc : K (.conn conn)) : Informed js K (h conn js) := by
  have hf : ∀ connection : Conn N, none = some connection → K (.conn connection) := fun c h => (Option.some_ne_none c h.symm).elim
  cases type <;> cases hh
  · exact informed_login hc
  · exact informed_loginout hK
  · exact informed_reg hc
  · exact informed_oneChat hK hc
  · exact informed_onConn (asks_addFriend hK) hc hf
  · exact informed_onConn (asks_addFriendHandle hK) hc hf
  · exact informed_onConn asks_createGroup hc hf
  · exact informed_onConn (asks_addGroup hK) hc hf
  · exact informed_onConn (asks_addGroupHandle hK) hc hf
  · exact informed_groupChat hK

theorem handler_thrown {type : EnMsgType} {h : Conn N → Json → Service N} (hh : handler type = some h) {key : String}
    (hk : key ∈ idFields type) (hn : field js key = none) : h conn js = .ret .thrown := by
  have hn' : (js.get? key).bind Json.toInt? = none := hn
  by_cases hne : key = "userid"
  · subst hne
    cases type <;> cases hh
    · cases hk
    · rw [ChatService.loginout, hn']
    · cases hk
    · rw [ChatService.oneChat, hn']
    · show onConn conn none (RequestHandlers.addFriend js) = _
      rw [RequestHandlers.addFriend, hn']
      rfl
    · show onConn conn none (RequestHandlers.addFriendHandle js) = _
      rw [RequestHandlers.addFriendHandle, hn']
      rfl
    · show onConn conn none (RequestHandlers.createGroup js) = _
      rw [RequestHandlers.createGroup, hn']
      rfl
    · show onConn conn none (RequestHandlers.addGroup js) = _
      rw [RequestHandlers.addGroup, hn']
      rfl
    · show onConn conn none (RequestHandlers.addGroupHandle js) = _
      rw [RequestHandlers.addGroupHandle, hn']
      rfl
    · rw [ChatService.groupChat, hn']
  · have htail {key' : String} (hk : key ∈ ["userid", key']) : key' = key :=
      (List.mem_singleton.mp ((List.mem_cons.mp hk).resolve_left hne)).symm
    cases type <;> cases hh
    · cases hk
    · exact absurd (List.mem_singleton.mp hk) hne
    · cases hk
    · rw [ChatService.oneChat, htail hk, hn']
      cases (js.get? "userid").bind Json.toInt? <;> rfl
    · show onConn conn none (RequestHandlers.addFriend js) = _
      rw [RequestHandlers.addFriend, htail hk, hn']
      cases (js.get? "userid").bind Json.toInt? <;> rfl
    · show onConn conn none (RequestHandlers.addFriendHandle js) = _
      rw [RequestHandlers.addFriendHandle, htail hk, hn']
      cases (js.get? "userid").bind Json.toInt? <;> rfl
    · exact absurd (List.mem_singleton.mp hk) hne
    · show onConn conn none (RequestHandlers.addGroup js) = _
      rw [RequestHandlers.addGroup, htail hk, hn']
      cases (js.get? "userid").bind Json.toInt? <;> rfl
    · show onConn conn none (RequestHandlers.addGroupHandle js) = _
      rw [RequestHandlers.addGroupHandle, htail hk, hn']
      cases (js.get? "userid").bind Json.toInt? <;> rfl
    · rw [ChatService.groupChat, htail hk, hn']
      cases (js.get? "userid").bind Json.toInt? <;> rfl

def given : Arrival N → Subject N → Prop
  | .frame conn js, x => x = .conn conn ∨ ∃ type, field js "msgid" = some type.code ∧ Named js type x
  | _, _ => True

def frameOf : Arrival N → Json
  | .frame _ js => js
  | _ => .null

theorem informed_true (p : Service N) : Informed js (fun _ => True) p := by
  induction p with
  | ret r => trivial
  | call op next ih => exact informed_call (fun _ _ => trivial) fun a => (ih a).mono fun _ _ => Or.inl trivial

theorem program_informed (q : Arrival N) : Informed (frameOf q) (given q) q.program := by
  cases q with
  | frame conn js =>
    rw [Arrival.program]
    split
    · rename_i msgid hm
      obtain ⟨type, h, hh, rfl, he⟩ | he := getHandler_cases msgid conn js
      · rw [he]
        exact informed_handler hh (fun x hx => Or.inr ⟨type, hm, hx⟩) (Or.inl rfl)
      · rw [he]
        trivial
    · trivial
  | _ => exact informed_true _

theorem program_calls {op : ServiceCall N} {next : op.Value → Service N}
    (h : (Arrival.frame conn js).program = .call op next) : ∃ type h, handler type = some h ∧
      field js "msgid" = some type.code ∧ h conn js = .call op next := by
  rw [Arrival.program] at h
  split at h
  · rename_i msgid hm
    obtain ⟨type, f, hh, rfl, he⟩ | he := getHandler_cases msgid conn js
    · exact ⟨type, f, hh, hm, he.symm.trans h⟩
    · cases he.symm.trans h
  · cases h

theorem calls_of_nextCall [DecidableEq N] {E : Engines} {w : System N} {as : List (ThreadMove (Arrival N) Chance)} {s : Run N}
    (hr : (service E).run ⟨w, []⟩ as = some s) {i : Nat} {q : Arrival N} (hq : (started as)[i]? = some q)
    {op : ServiceCall N} (hc : s.nextCall i = some op) : ∃ op next, q.program = .call op next := by
  have hst : List.Forall₂ (fun (q : Arrival N) p => (∃ op next, q.program = .call op next) ∨ ∃ r, p = .ret r)
      (started as) s.threads := by
    refine Threads.forall₂_run (fun q => ?_) (fun q op next a h => ?_) rfl hr
    · cases hp : q.program with
      | ret r => exact Or.inr ⟨r, rfl⟩
      | call op next => exact Or.inl ⟨op, next, rfl⟩
    · obtain h | ⟨r, h⟩ := h
      · exact Or.inl h
      · cases h
  obtain ⟨next, ht⟩ := Threads.nextCall_eq_some hc
  obtain h | ⟨r, h⟩ := Threads.stage_of_forall₂ hst hq ht
  · exact h
  · cases h

/-- A frame is handled only under the code that its `msgid` is converted to, if all
ids that the handler reads are converted; every call is about these ids, about
what the handler has been answered or about the connection of the frame. -/
theorem frame_ids [DecidableEq N] (E : Engines) (w : System N) (as : List (ThreadMove (Arrival N) Chance)) (s : Run N)
    (hr : (service E).run ⟨w, []⟩ as = some s) (i : Nat) (conn : Conn N) (js : Json)
    (hq : (started as)[i]? = some (.frame conn js)) :
    (∀ key n, js.get? key = some (.int n) → IsInt n → field js key = some n) ∧
    ∀ op, s.nextCall i = some op → ∃ type h, handler type = some h ∧ field js "msgid" = some type.code ∧
      (Arrival.frame conn js).program = h conn js ∧ (∀ key ∈ idFields type, ∃ n, field js key = some n) ∧
      ∀ x, subject op = some x → x = .conn conn ∨ Named js type x ∨
        Threads.Told (tells js) i (Threads.answers Arrival.program (ServiceCall.exec E) ⟨w, []⟩ as) x := by
  refine ⟨fun key n hk hn => ?_, fun op hc => ?_⟩
  · rw [field, hk, Option.bind_some, toInt?_int hn]
  obtain ⟨op', next, hp⟩ := calls_of_nextCall hr hq hc
  obtain ⟨type, h, hh, hm, he⟩ := program_calls hp
  refine ⟨type, h, hh, hm, hp.trans he.symm, fun key hk => ?_, fun x hx => ?_⟩
  · cases hf : field js key with
    | some n => exact ⟨n, rfl⟩
    | none =>
      rw [handler_thrown hh hk hf] at he
      cases he
  · obtain (hx | ⟨type', hm', hx⟩) | hx := Threads.needs_known rfl program_informed hr hq hc hx
    · exact Or.inl hx
    · have ht : type' = type := code_injective (Option.some.inj (hm'.symm.trans hm))
      exact Or.inr (Or.inl (ht ▸ hx))
    · exact Or.inr (Or.inr hx)

def wrappedFrame : Json := .obj [("msgid", .int 4294967299), ("userid", .int 4294967303)]

def handled : List (ThreadMove (Arrival Unit) Chance) := [.start (.frame ⟨(), 0⟩ wrappedFrame)]

def engines : Engines := .strict fun a b => a = b

def carol : System Unit := { db := { users := ⟨[⟨7, "carol", "c", some .online⟩], 8, by decide, by decide⟩ } }

theorem run_handled : ∃ s, (service engines).run ⟨carol, []⟩ handled = some s ∧
    s.nextCall 0 = some (.atNode () (.eraseConn 7)) := ⟨_, rfl, rfl⟩

theorem frame_ids_handled : ∃ s, (service engines).run ⟨carol, []⟩ handled = some s ∧
    ∃ type h, handler (N := Unit) type = some h ∧ field wrappedFrame "msgid" = some type.code := by
  obtain ⟨s, hs, hc⟩ := run_handled
  obtain ⟨type, h, hh, hm, -⟩ := (frame_ids engines carol handled s hs 0 _ _ rfl).2 _ hc
  exact ⟨s, hs, type, h, hh, hm⟩

/-- Neither the code nor the ids need be the numbers in the frame. -/
theorem wrapped_frame :
    (¬ ∀ (E : Engines) (w : System Unit) (as : List (ThreadMove (Arrival Unit) Chance)) (s : Run Unit),
      (service E).run ⟨w, []⟩ as = some s → ∀ i conn js op, (started as)[i]? = some (.frame conn js) →
        s.nextCall i = some op → ∃ type : EnMsgType, js.get? "msgid" = some (.int type.code)) ∧
    ¬ ∀ (E : Engines) (w : System Unit) (as : List (ThreadMove (Arrival Unit) Chance)) (s : Run Unit),
      (service E).run ⟨w, []⟩ as = some s → ∀ i conn js op u, (started as)[i]? = some (.frame conn js) →
        s.nextCall i = some op → subject op = some (.user u) → (∃ key, js.get? key = some (.int u)) ∨
          Threads.Told (tells js) i (Threads.answers Arrival.program (ServiceCall.exec E) ⟨w, []⟩ as) (.user u) := by
  obtain ⟨s, hs, hc⟩ := run_handled
  refine ⟨fun h => ?_, fun h => ?_⟩
  · obtain ⟨type, ht⟩ := h engines _ handled s hs 0 _ wrappedFrame _ rfl hc
    have he : type.code = 4294967299 := by
      rw [show wrappedFrame.get? "msgid" = some (.int 4294967299) from rfl] at ht
      exact (Json.int.inj (Option.some.inj ht)).symm
    cases type <;> exact absurd he (by decide)
  · obtain ⟨key, hk⟩ | ⟨e, he, -⟩ := h engines _ handled s hs 0 _ wrappedFrame _ 7 rfl hc rfl
    · have hm : Json.int 7 ∈ [Json.int 4294967299, Json.int 4294967303] := by
        rw [wrappedFrame, Json.get?] at hk
        obtain ⟨f, hf, hv⟩ := Option.map_eq_some_iff.mp hk
        rw [← hv]
        exact List.mem_map_of_mem (f := Prod.snd) (List.mem_of_find?_eq_some hf)
      simp at hm
    · cases he

end BridgeIM.Server.Ids
