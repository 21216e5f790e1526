import BridgeIM.Server.ChatService

namespace BridgeIM.Server.Sending

open Db Lib Model Model.UserModel Model.GroupModel Model.Requests Services RequestHandlers ChatService

variable {N : Type} {stored : String → Prop} {asked : Kind → Int × Int → Prop}

def msgid (js : Json) : Option Int := (js.get? "msgid").bind Json.toInt?

def userid (js : Json) : Option Int := (js.get? "userid").bind Json.toInt?

def friendid (js : Json) : Option Int := (js.get? "friendid").bind Json.toInt?

def groupid (js : Json) : Option Int := (js.get? "groupid").bind Json.toInt?

def action (js : Json) : Option String := (js.get? "action").bind Json.toStr?

/-- The messages for other users that the handler of a frame makes. -/
inductive Forwarded (js : Json) : String → Prop
  | request {t : EnMsgType} (ht : t = .oneChatMsg ∨ t = .addFriendRequest ∨ t = .addGroupMsg)
      (hm : msgid js = some t.code) : Forwarded js js.dump
  | groupChat (hm : msgid js = some EnMsgType.groupChatMsg.code) (groupname : String) :
      Forwarded js (js.set "groupname" (.str groupname)).dump
  | friendAccepted (hm : msgid js = some EnMsgType.addFriendHandle.code) : Forwarded js acceptFriendResponse.dump
  | friendRejected (hm : msgid js = some EnMsgType.addFriendHandle.code) : Forwarded js rejectFriendResponse.dump
  | groupAccepted (hm : msgid js = some EnMsgType.addGroupHandle.code) : Forwarded js acceptGroupResponse.dump
  | groupRejected (hm : msgid js = some EnMsgType.addGroupHandle.code) : Forwarded js rejectGroupResponse.dump

/-- The values of an accepted login: its ids are ints, and its messages have been stored. -/
structure Recorded (stored : String → Prop) (l : Login N) : Prop where
  user : IsInt l.user.id
  offlineMsgs : ∀ m ∈ l.offlineMsgs, stored m
  friends : ∀ u ∈ l.friends, IsInt u.id
  groups : ∀ g ∈ l.groups, IsInt g.id ∧ ∀ u ∈ g.users, IsInt u.id

/-- The responses that the handler of a frame sends on its connection. -/
inductive Reply (N : Type) (stored : String → Prop) : Int → Json → Prop
  | loginError (errno : Int) (errmsg : String) (h : IsInt errno) (hn : errno ≠ 0) :
      Reply N stored EnMsgType.loginMsg.code (loginError errno errmsg)
  | loginAck (l : Login N) (h : Recorded stored l) : Reply N stored EnMsgType.loginMsg.code (loginAck l)
  | regAck (id : Option Int) (h : ∀ n, id = some n → IsInt n) : Reply N stored EnMsgType.regMsg.code (regAck id)
  | notFriends : Reply N stored EnMsgType.oneChatMsg.code notFriends
  | reply {t t' : EnMsgType} (ht : (t, t') ∈ [(EnMsgType.addFriendRequest, EnMsgType.addFriendResponse),
        (.addFriendHandle, .addFriendResponse), (.createGroupMsg, .createGroupMsgAck), (.addGroupMsg, .addGroupResponse),
        (.addGroupHandle, .addGroupResponse)]) (errno : Int) (errmsg : String) (h : IsInt errno) :
      Reply N stored t.code (RequestHandlers.reply t' errno errmsg)

/-- The payloads that a thread sends on a connection. -/
inductive Sends (stored : String → Prop) : Arrival N → Conn N → String → Prop
  | reply {conn : Conn N} {js : Json} {id : Int} {response : Json} (hm : msgid js = some id)
      (h : Reply N stored id response) : Sends stored (.frame conn js) conn response.dump
  | forwarded {conn : Conn N} {js : Json} (c : Conn N) {payload : String} (h : Forwarded js payload) :
      Sends stored (.frame conn js) c payload
  | busy (conn : Conn N) (js : Json) : Sends stored (.refused conn js) conn Framing.serverBusy.dump
  | received (node : N) (l : Listen) (c : Conn N) {payload : String} (h : stored payload) :
      Sends stored (.listen node l) c payload

/-- The payloads that a thread publishes or stores. -/
inductive Passes (stored : String → Prop) : Arrival N → String → Prop
  | forwarded {conn : Conn N} {js : Json} {payload : String} (h : Forwarded js payload) :
      Passes stored (.frame conn js) payload
  | received (node : N) (l : Listen) {payload : String} (h : stored payload) : Passes stored (.listen node l) payload

/-- A frame that accepts a friend request which has been pending. One of the two
rows of the new friends is inserted. -/
structure Befriends (asked : Kind → Int × Int → Prop) (js : Json) (a b : Int) : Prop where
  msgid : msgid js = some EnMsgType.addFriendHandle.code
  action : action js = some "accept"
  users : ∃ u f, userid js = some u ∧ friendid js = some f ∧ asked .friend (u, f) ∧ ((a, b) = (u, f) ∨ (a, b) = (f, u))

/-- A frame that makes a user a member of a group, the creator of a new group or
one whose request has been pending. -/
inductive Enters (asked : Kind → Int × Int → Prop) (js : Json) (u g : Int) : String → Prop
  | creator (hm : msgid js = some EnMsgType.createGroupMsg.code) (hu : userid js = some u) : Enters asked js u g "creator"
  | normal (hm : msgid js = some EnMsgType.addGroupHandle.code) (ha : action js = some "accept")
      (hu : userid js = some u) (hg : groupid js = some g) (hp : asked .group (u, g)) : Enters asked js u g "normal"

/-- What a thread may call, by what it was started for. -/
def Emitted (stored : String → Prop) (asked : Kind → Int × Int → Prop) (q : Arrival N) : ServiceCall N → Prop
  | .send c text => ∃ payload, text = payload ++ "\n" ∧ Sends stored q c payload
  | .publish _ payload | .offline (.insert _ payload) => Passes stored q payload
  | .friend (.insertFriend a b) => ∃ conn js, q = .frame conn js ∧ Befriends asked js a b
  | .group (.addGroup u g role) => ∃ conn js, q = .frame conn js ∧ Enters asked js u g role
  | .atNode n (.eraseConn u) => ∃ conn js, q = .frame conn js ∧ n = conn.node ∧ userid js = some u
  | .atNode _ (.unsubscribe u) | .updateState u .offline => ∀ conn js, q = .frame conn js → userid js = some u
  | _ => True

def texts : (op : ServiceCall N) → op.Value → List String
  | .offline (.query _), msgs => msgs
  | .atNode _ (.listen _), message => message.toList.map Prod.snd
  | _, _ => []

def Ints : (op : ServiceCall N) → op.Value → Prop
  | .friend (.queryFriends _), friends => ∀ u ∈ friends, IsInt u.id
  | .queryName _, user => IsInt user.id
  | .insertUser _, id => ∀ n, id = some n → IsInt n
  | .queryGroup _, groups => ∀ g ∈ groups, IsInt g.id
  | .queryMembers _, users => ∀ u ∈ users, IsInt u.id
  | _, _ => True

/-- A call says that a request is pending only if it has been asked. -/
def Told (asked : Kind → Int × Int → Prop) : (op : ServiceCall N) → op.Value → Prop
  | .friend (.isPendingRequest u f), result => result.status = .ok → asked .friend (u, f)
  | .group (.isPendingRequest u g), pending => pending = true → asked .group (u, g)
  | _, _ => True

structure Returned (stored : String → Prop) (asked : Kind → Int × Int → Prop) (op : ServiceCall N) (a : op.Value) :
    Prop where
  texts : ∀ m ∈ texts op a, stored m
  ints : Ints op a
  told : Told asked op a

theorem ints_exec [DecidableEq N] (E : Engines) (op : ServiceCall N) (o : Chance) (w : System N) :
    Ints op (op.exec E o w).1 := by
  have hmap {α β : Type} {f : α → β} {p : β → Prop} (l : List α) (h : ∀ x, p (f x)) : ∀ y ∈ l.map f, p y := by
    intro y hy
    obtain ⟨x, -, rfl⟩ := List.mem_map.mp hy
    exact h x
  cases op with
  | friend c =>
    cases c with
    | queryFriends u => exact hmap _ fun _ => isInt_wrap _
    | _ => trivial
  | queryName name => exact isInt_wrap _
  | insertUser user =>
    intro n hn
    obtain ⟨id, -, rfl⟩ := Option.map_eq_some_iff.mp hn
    exact isInt_wrap id
  | queryGroup u => exact hmap _ fun _ => isInt_wrap _
  | queryMembers g => exact hmap _ fun _ => isInt_wrap _
  | _ => trivial

/-! The handlers of friend and group requests. -/

def Act (asked : Kind → Int × Int → Prop) (js : Json) : Call → Prop
  | .sendPayload _ payload | .publish _ payload | .insertOffline _ payload => Forwarded js payload
  | .friend (.insertFriend a b) => Befriends asked js a b
  | .group (.addGroup u g role) => Enters asked js u g role
  | _ => True

def Answered (asked : Kind → Int × Int → Prop) : (op : Call) → op.Value → Prop
  | .friend (.isPendingRequest u f), result => result.status = .ok → asked .friend (u, f)
  | .group (.isPendingRequest u g), pending => pending = true → asked .group (u, g)
  | _, _ => True

def Response (N : Type) (stored : String → Prop) (js : Json) : Answer → Prop
  | .sendJson response => ∃ id, msgid js = some id ∧ Reply N stored id response
  | _ => True

def Lawful (N : Type) (stored : String → Prop) (asked : Kind → Int × Int → Prop) (js : Json) (p : Handler) : Prop :=
  p.Obeys (Answered asked) (Act asked js) (Response N stored js)

variable {conn : Conn N} {js : Json}

theorem lawful_call {op : Call} {next : op.Value → Handler} (h : Act asked js op)
    (hn : ∀ a, Answered asked op a → Lawful N stored asked js (next a)) : Lawful N stored asked js (.call op next) :=
  ⟨h, hn⟩

theorem lawful_answer {t t' : EnMsgType} (hm : msgid js = some t.code)
    (ht : (t, t') ∈ [(EnMsgType.addFriendRequest, EnMsgType.addFriendResponse), (.addFriendHandle, .addFriendResponse),
      (.createGroupMsg, .createGroupMsgAck), (.addGroupMsg, .addGroupResponse), (.addGroupHandle, .addGroupResponse)])
    {errno : Int} (he : IsInt errno) (errmsg : String) : Lawful N stored asked js (answer t' errno errmsg) :=
  ⟨t.code, hm, .reply ht errno errmsg he⟩

theorem lawful_deliver {payload : String} (h : Forwarded js payload) (targetId : Int) :
    Lawful N stored asked js (RequestHandlers.deliverMessage targetId payload) := by
  have hret : Lawful N stored asked js (.ret .delivered) := trivial
  refine lawful_call trivial fun found _ => ?_
  cases found with
  | true => exact lawful_call h fun _ _ => hret
  | false =>
    refine lawful_call trivial fun user _ => ?_
    split
    · exact lawful_call h fun _ _ => hret
    · exact lawful_call h fun _ _ => hret

theorem addFriend_lawful (hm : msgid js = some EnMsgType.addFriendRequest.code) :
    Lawful N stored asked js (RequestHandlers.addFriend js) := by
  have hf : Forwarded js js.dump := .request (by simp) hm
  have hans (errno : Int) (he : IsInt errno) (errmsg : String) :
      Lawful N stored asked js (answer .addFriendResponse errno errmsg) := lawful_answer hm (by simp) he errmsg
  rw [RequestHandlers.addFriend]
  split
  case h_2 => exact trivial
  split
  · exact hans 1 (by decide) _
  refine lawful_call trivial fun found _ => ?_
  split
  · exact hans 1 (by decide) _
  refine lawful_call trivial fun isFriend _ => ?_
  split
  · exact hans 2 (by decide) _
  refine lawful_call trivial fun result _ => ?_
  have hsent (friendid : Int) (ok : Bool) : Lawful N stored asked js
      (if !ok then answer .addFriendResponse 5 busy else RequestHandlers.deliverMessage friendid js.dump) := by
    split
    · exact hans 5 (by decide) _
    · exact lawful_deliver hf _
  rw [requestFriend]
  split
  · exact hans 2 (by decide) _
  · exact lawful_call trivial fun ok _ => hsent _ ok
  · split
    · exact hans 2 (by decide) _
    split
    · exact lawful_call trivial fun ok _ => hsent _ ok
    · exact trivial

theorem addFriendHandle_lawful (hm : msgid js = some EnMsgType.addFriendHandle.code) :
    Lawful N stored asked js (RequestHandlers.addFriendHandle js) := by
  have hans (errno : Int) (he : IsInt errno) (errmsg : String) :
      Lawful N stored asked js (answer .addFriendResponse errno errmsg) := lawful_answer hm (by simp) he errmsg
  rw [RequestHandlers.addFriendHandle]
  split
  case h_2 => exact trivial
  rename_i u f act hu hf ha
  refine lawful_call trivial fun result hasked => ?_
  split
  · exact hans 2 (by decide) _
  · exact hans 4 (by decide) _
  rename_i hok
  split
  · rename_i hact
    subst hact
    refine lawful_call trivial fun ok _ => ?_
    split
    · exact hans 5 (by decide) _
    have h₁ : Befriends asked js u f := ⟨hm, ha, u, f, hu, hf, hasked hok, Or.inl rfl⟩
    have h₂ : Befriends asked js f u := ⟨hm, ha, u, f, hu, hf, hasked hok, Or.inr rfl⟩
    exact lawful_call h₁ fun _ _ => lawful_call h₂ fun _ _ => lawful_deliver (.friendAccepted hm) _
  · exact lawful_call trivial fun _ _ => lawful_deliver (.friendRejected hm) _

theorem createGroup_lawful (hm : msgid js = some EnMsgType.createGroupMsg.code) :
    Lawful N stored asked js (RequestHandlers.createGroup js) := by
  have hans (errno : Int) (he : IsInt errno) (errmsg : String) :
      Lawful N stored asked js (answer .createGroupMsgAck errno errmsg) := lawful_answer hm (by simp) he errmsg
  rw [RequestHandlers.createGroup]
  split
  case h_2 => exact trivial
  rename_i u name desc hu hn hd
  refine lawful_call trivial fun result _ => ?_
  split
  · exact hans 2 (by decide) _
  · refine lawful_call trivial fun groupId _ => ?_
    cases groupId with
    | none => exact hans 1 (by decide) _
    | some id => exact lawful_call (Enters.creator hm hu) fun _ _ => hans 0 (by decide) _
  · exact hans 2 (by decide) _

theorem addGroup_lawful (hm : msgid js = some EnMsgType.addGroupMsg.code) :
    Lawful N stored asked js (RequestHandlers.addGroup js) := by
  have hf : Forwarded js js.dump := .request (by simp) hm
  have hans (errno : Int) (he : IsInt errno) (errmsg : String) :
      Lawful N stored asked js (answer .addGroupResponse errno errmsg) := lawful_answer hm (by simp) he errmsg
  have howner (groupid : Int) : Lawful N stored asked js (forwardToOwner groupid js.dump) := by
    refine lawful_call trivial fun owner _ => ?_
    split
    · exact hans 3 (by decide) _
    · exact hans 1 (by decide) _
    · exact lawful_deliver hf _
  have hsent (groupid : Int) (ok : Bool) : Lawful N stored asked js
      (if !ok then answer .addGroupResponse 3 busy else forwardToOwner groupid js.dump) := by
    split
    · exact hans 3 (by decide) _
    · exact howner groupid
  rw [RequestHandlers.addGroup]
  split
  case h_2 => exact trivial
  refine lawful_call trivial fun inGroup _ => ?_
  split
  · exact hans 2 (by decide) _
  · exact hans 1 (by decide) _
  refine lawful_call trivial fun groupExist _ => ?_
  split
  · exact hans 1 (by decide) _
  · exact hans 1 (by decide) _
  refine lawful_call trivial fun result _ => ?_
  rw [requestGroup]
  split
  · exact hans 1 (by decide) _
  · exact lawful_call trivial fun ok _ => hsent _ ok
  · split
    · exact hans 1 (by decide) _
    split
    · exact lawful_call trivial fun ok _ => hsent _ ok
    · exact trivial

theorem addGroupHandle_lawful (hm : msgid js = some EnMsgType.addGroupHandle.code) :
    Lawful N stored asked js (RequestHandlers.addGroupHandle js) := by
  rw [RequestHandlers.addGroupHandle]
  split
  case h_2 => exact trivial
  rename_i u g hu hg
  refine lawful_call trivial fun pending hasked => ?_
  split
  · rename_i hp
    split
    · rename_i act ha
      split
      · rename_i hact
        subst hact
        exact lawful_call trivial fun _ _ => lawful_call (Enters.normal hm ha hu hg (hasked hp)) fun _ _ =>
          lawful_deliver (.groupAccepted hm) _
      · exact lawful_call trivial fun _ _ => lawful_deliver (.groupRejected hm) _
    · exact trivial
  · exact lawful_answer hm (by simp) (by decide) _

/-! The handlers on a connection. -/

/-- A program that calls what the thread for `q` may call. -/
def Emits (stored : String → Prop) (asked : Kind → Int × Int → Prop) (q : Arrival N) (p : Service N) : Prop :=
  p.Obeys (Returned stored asked) (Emitted stored asked q) fun _ => True

variable {q : Arrival N}

theorem emits_ret {r : Ending} : Emits stored asked q (.ret r) := trivial

theorem emits_call {op : ServiceCall N} {next : op.Value → Service N} (h : Emitted stored asked q op)
    (hn : ∀ a, Returned stored asked op a → Emits stored asked q (next a)) : Emits stored asked q (.call op next) :=
  ⟨h, hn⟩

theorem sendPayload_emits {c : Conn N} {payload : String} (h : Sends stored q c payload) :
    Emits stored asked q (sendPayload c payload) :=
  emits_call ⟨payload, rfl, h⟩ fun _ _ => emits_ret

theorem deliverMessage_emits {payload : String} (h : Forwarded js payload) (node : N) (targetId : Int) :
    Emits stored asked (.frame conn js) (deliverMessage node targetId payload) := by
  refine emits_call trivial fun found _ => ?_
  cases found with
  | some connection => exact sendPayload_emits (.forwarded connection h)
  | none =>
    refine emits_call trivial fun user _ => ?_
    split
    · exact emits_call (Passes.forwarded h) fun _ _ => emits_ret
    · exact emits_call (Passes.forwarded h) fun _ _ => emits_ret

theorem onConn_emits {p : Handler} (h : Lawful N stored asked js p) (found : Option (Conn N)) :
    Emits stored asked (.frame conn js) (onConn conn found p) := by
  induction p generalizing found with
  | ret r =>
    cases r with
    | sendJson response =>
      obtain ⟨id, hm, hr⟩ := h
      exact sendPayload_emits (.reply hm hr)
    | _ => exact emits_ret
  | call op next ih =>
    obtain ⟨hact, hn⟩ := h
    cases op with
    | friend c =>
      refine emits_call ?_ fun a ha => ih a (hn a ?_) found
      · cases c with
        | insertFriend a b => exact ⟨conn, js, rfl, hact⟩
        | _ => trivial
      · cases c with
        | isPendingRequest u f => exact ha.told
        | _ => trivial
    | group c =>
      refine emits_call ?_ fun a ha => ih a (hn a ?_) found
      · cases c with
        | addGroup u g role => exact ⟨conn, js, rfl, hact⟩
        | _ => trivial
      · cases c with
        | isPendingRequest u g => exact ha.told
        | _ => trivial
    | findLocalConnection userid => exact emits_call trivial fun a _ => ih a.isSome (hn _ trivial) a
    | sendPayload userid payload =>
      cases found with
      | some connection =>
        exact emits_call ⟨payload, rfl, .forwarded connection hact⟩ fun _ _ => ih () (hn () trivial) _
      | none => exact ih () (hn () trivial) none
    | queryUser id => exact emits_call trivial fun a _ => ih a (hn a trivial) found
    | publish channel message => exact emits_call (Passes.forwarded hact) fun _ _ => ih () (hn () trivial) found
    | insertOffline userid msg => exact emits_call (Passes.forwarded hact) fun a _ => ih a (hn a trivial) found

theorem markUserOffline_emits {u : Int} (h : ∀ conn js, q = .frame conn js → userid js = some u) (node : N) :
    Emits stored asked q (markUserOffline node u) :=
  emits_call h fun _ _ => emits_call h fun _ _ => emits_ret

theorem queryMembers_obeys {groups : List Group} (hg : ∀ g ∈ groups, IsInt g.id) :
    (queryMembers groups).Obeys (Returned stored asked) (Emitted stored asked q)
      fun gs => ∀ g ∈ gs, IsInt g.id ∧ ∀ u ∈ g.users, IsInt u.id := by
  induction groups with
  | nil => exact fun g hg => absurd hg List.not_mem_nil
  | cons g groups ih =>
    refine ⟨trivial, fun users hu => ?_⟩
    refine Program.Obeys.bind (ih fun g' hg' => hg g' (List.mem_cons_of_mem g hg')) fun rest hrest => ?_
    intro g' hg'
    obtain rfl | hg' := List.mem_cons.mp hg'
    · exact ⟨hg g List.mem_cons_self, hu.ints⟩
    · exact hrest g' hg'

theorem acknowledge_emits (hm : msgid js = some EnMsgType.loginMsg.code) {user : User} (hu : IsInt user.id)
    {offlineMsgs : List String} (ho : ∀ m ∈ offlineMsgs, stored m) :
    Emits stored asked (.frame conn js) (acknowledge conn user offlineMsgs) := by
  refine emits_call trivial fun friends hf => emits_call trivial fun groups hg => ?_
  refine Program.Obeys.bind (queryMembers_obeys hg.ints) fun gs hgs => ?_
  exact sendPayload_emits (.reply hm (.loginAck _ ⟨hu, ho, hf.ints, hgs⟩))

theorem login_emits (hm : msgid js = some EnMsgType.loginMsg.code) :
    Emits stored asked (.frame conn js) (ChatService.login conn js) := by
  have herr (errno : Int) (he : IsInt errno) (hn : errno ≠ 0) (errmsg : String) :
      Emits stored asked (.frame conn js) (sendJson conn (loginError errno errmsg)) :=
    sendPayload_emits (.reply hm (.loginError errno errmsg he hn))
  rw [ChatService.login]
  split
  case h_2 => exact emits_ret
  refine emits_call trivial fun user hu => ?_
  split
  · exact herr 3 (by decide) (by decide) _
  split
  · exact herr 2 (by decide) (by decide) _
  split
  · exact herr 1 (by decide) (by decide) _
  rw [ChatService.accept]
  refine emits_call trivial fun _ _ => emits_call trivial fun _ _ => emits_call trivial fun _ _ => ?_
  refine emits_call trivial fun msgs ho => ?_
  split
  · exact acknowledge_emits hm hu.ints (fun m hm => absurd hm List.not_mem_nil)
  · exact emits_call trivial fun _ _ => acknowledge_emits hm hu.ints ho.texts

theorem loginout_emits (conn : Conn N) (js : Json) : Emits stored asked (.frame conn js) (ChatService.loginout conn js) := by
  rw [ChatService.loginout]
  split
  · rename_i u hu
    refine emits_call ⟨conn, js, rfl, rfl, hu⟩ fun _ _ => markUserOffline_emits (fun conn' js' hq => ?_) _
    cases hq
    exact hu
  · exact emits_ret

theorem reg_emits (hm : msgid js = some EnMsgType.regMsg.code) : Emits stored asked (.frame conn js) (ChatService.reg conn js) := by
  rw [ChatService.reg]
  split
  · exact emits_call trivial fun id hid => sendPayload_emits (.reply hm (.regAck id hid.ints))
  · exact emits_ret

theorem oneChat_emits (hm : msgid js = some EnMsgType.oneChatMsg.code) :
    Emits stored asked (.frame conn js) (ChatService.oneChat conn js) := by
  rw [ChatService.oneChat]
  split
  · refine emits_call trivial fun isFriend _ => ?_
    split
    · exact sendPayload_emits (.reply hm .notFriends)
    · exact deliverMessage_emits (.request (Or.inl rfl) hm) _ _
  · exact emits_ret

theorem deliverAll_emits {payload : String} (h : Forwarded js payload) (node : N) (ids : List Int) :
    Emits stored asked (.frame conn js) (deliverAll node payload ids) := by
  induction ids with
  | nil => exact emits_ret
  | cons id ids ih => exact Program.Obeys.bind (deliverMessage_emits h node id) fun _ _ => ih

theorem groupChat_emits (hm : msgid js = some EnMsgType.groupChatMsg.code) :
    Emits stored asked (.frame conn js) (groupChat conn js) := by
  rw [groupChat]
  split
  · exact emits_call trivial fun groupname _ => emits_call trivial fun ids _ =>
      deliverAll_emits (.groupChat hm groupname) _ ids
  · exact emits_ret

theorem getHandler_emits {id : Int} (hm : msgid js = some id) : Emits stored asked (.frame conn js) (ChatService.getHandler id conn js) := by
  rw [ChatService.getHandler]
  split
  · rename_i h
    exact login_emits (h ▸ hm)
  split
  · exact loginout_emits conn js
  split
  · rename_i h
    exact reg_emits (h ▸ hm)
  split
  · rename_i h
    exact oneChat_emits (h ▸ hm)
  split
  · rename_i h
    exact onConn_emits (addFriend_lawful (h ▸ hm)) none
  split
  · rename_i h
    exact onConn_emits (addFriendHandle_lawful (h ▸ hm)) none
  split
  · rename_i h
    exact onConn_emits (createGroup_lawful (h ▸ hm)) none
  split
  · rename_i h
    exact onConn_emits (addGroup_lawful (h ▸ hm)) none
  split
  · rename_i h
    exact onConn_emits (addGroupHandle_lawful (h ▸ hm)) none
  split
  · rename_i h
    exact groupChat_emits (h ▸ hm)
  · exact emits_ret

theorem program_emits (q : Arrival N) : Emits stored asked q q.program := by
  cases q with
  | frame conn js =>
    rw [Arrival.program]
    split
    · exact getHandler_emits ‹_›
    · exact emits_ret
  | refused conn js =>
    rw [Arrival.program]
    split
    · exact sendPayload_emits (.busy conn js)
    · exact emits_ret
  | closed conn =>
    refine emits_call trivial fun found _ => ?_
    cases found with
    | none => exact emits_ret
    | some u =>
      dsimp only
      split
      · exact markUserOffline_emits (fun _ _ hq => (by cases hq)) _
      · exact emits_ret
  | listen node l =>
    refine emits_call trivial fun message hs => ?_
    cases message with
    | none => exact emits_ret
    | some m =>
      have hm : stored m.2 := hs.texts m.2 (List.mem_singleton.mpr rfl)
      refine emits_call trivial fun found _ => ?_
      cases found with
      | none => exact emits_call (Passes.received node l hm) fun _ _ => emits_ret
      | some connection => exact sendPayload_emits (.received node l connection hm)
  | reset => exact emits_call trivial fun _ _ => emits_ret

/-! The threads of a run. -/

theorem told_trivial (op : ServiceCall N) (a : op.Value) : Told (fun _ _ => True) op a := by
  cases op with
  | friend c =>
    cases c with
    | isPendingRequest u f => exact fun _ => trivial
    | _ => trivial
  | group c =>
    cases c with
    | isPendingRequest u g => exact fun _ => trivial
    | _ => trivial
  | _ => trivial

variable [DecidableEq N] {E : Engines}

theorem emits_step {as : List (ThreadMove (Arrival N) Chance)} {a : ThreadMove (Arrival N) Chance} {s s' : Run N}
    (h : List.Forall₂ (Emits stored asked) (started as) s.threads) (hs : (service E).step s a = some s')
    (ht : ∀ i o op next, a = .step i o → s.threads[i]? = some (.call op next) →
      Returned stored asked op (op.exec E o s.state).1) :
    List.Forall₂ (Emits stored asked) (started (as ++ [a])) s'.threads :=
  Threads.forall₂_step h hs program_emits (fun _ _ => id) fun _ i o op next ha hp hq =>
    hq.2 _ (ht i o op next ha hp)

theorem emits_run {db : Database.Tables} {as : List (ThreadMove (Arrival N) Chance)} {s : Run N}
    (hr : (service E).run (fresh db) as = some s) :
    List.Forall₂ (Emits (fun _ => True) fun _ _ => True) (started as) s.threads :=
  Machine.run_induction (P := fun as s => List.Forall₂ (Emits (fun _ => True) fun _ _ => True) (started as) s.threads)
    .nil (fun _ _ _ _ h _ hs => emits_step h hs fun _ o op _ _ _ =>
      ⟨fun _ _ => trivial, ints_exec E op o _, told_trivial op _⟩) (Machine.meets_true _ _) hr

end BridgeIM.Server.Sending
