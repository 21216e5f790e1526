import BridgeIM.Server.Ids
import BridgeIM.Server.Run
import BridgeIM.Server.Sending

namespace BridgeIM.Server.Privacy

open CString Db Lib Model Model.UserModel Model.GroupModel Redis Services ChatService Sending
open Ids (Asks Named)
open RequestHandlers (Engines Handler)

variable {N : Type} {conn : Conn N} {js : Json} {payload : String} {t : Int}

/-- A row that the database has returned for a name, and the fields of the login
request that it lets in. -/
structure Credentials (js : Json) (name : String) (user : User) : Prop where
  msgid : msgid js = some EnMsgType.loginMsg.code
  name : (js.get? "name").bind Json.toStr? = some name
  password : (js.get? "password").bind Json.toStr? = some user.password
  found : user.name ≠ ""
  offline : user.state ≠ "online"

/-- The responses that a request gets on its connection without being let in. -/
inductive Response (N : Type) (js : Json) : Json → Prop
  | loginError {errno : Int} (errmsg : String) (he : IsInt errno) (hn : errno ≠ 0) :
      Response N js (loginError errno errmsg)
  | handled {id : Int} {response : Json} (hm : msgid js = some id) (hn : id ≠ EnMsgType.loginMsg.code)
      (h : Reply N (fun _ => True) id response) : Response N js response

/-- What a call is about: a user whom a message is to reach, a text for a
connection, or an entry of `_userConnMap`. -/
inductive Item (N : Type)
  | user (t : Int)
  | text (conn : Conn N) (text : String)
  | entry (u : Int) (conn : Conn N)

def needs : ServiceCall N → Item N → Prop
  | .publish t _, x | .offline (.insert t _), x | .atNode _ (.findConn t), x => x = .user t
  | .send conn text, x => x = .text conn text
  | .atNode _ (.insertConn u conn), x => x = .entry u conn
  | _, _ => False

/-- What the stores answer the handler of a frame: who logs in, whom his message
is for, and where that user is connected. -/
def tells : Arrival N → (op : ServiceCall N) → op.Value → Item N → Prop
  | .frame conn js, .queryName name, user, x => Credentials js name user ∧
      (x = .entry user.id conn ∨ ∃ l : Login N, l.user.id = user.id ∧ x = .text conn ((loginAck l).dump ++ "\n"))
  | .frame conn js, .insertUser _, id, x => msgid js = some EnMsgType.regMsg.code ∧
      x = .text conn ((regAck id).dump ++ "\n")
  | .frame _ js, .friend (.isFriend u t), found, x => msgid js = some EnMsgType.oneChatMsg.code ∧
      userid js = some u ∧ Ids.field js "to" = some t ∧ found = true ∧ x = .user t
  | .frame _ js, .group (.queryGroupOwnerId g), owner, x => msgid js = some EnMsgType.addGroupMsg.code ∧
      groupid js = some g ∧ owner.status = .ok ∧ x = .user owner.value
  | .frame _ js, .queryGroupUsers u g, ids, x => msgid js = some EnMsgType.groupChatMsg.code ∧ userid js = some u ∧
      groupid js = some g ∧ ∃ t ∈ ids, x = .user t
  | .frame _ js, .atNode _ (.findConn _), found, x => ∃ conn payload, found = some conn ∧ Forwarded js payload ∧
      x = .text conn (payload ++ "\n")
  | _, _, _, _ => False

/-- The types of the requests that name the user whom their message is for. -/
def naming : List EnMsgType := [.addFriendRequest, .addFriendHandle, .addGroupHandle]

/-- What a thread knows when it is started. The threads of the Redis side are
treated apart. -/
def Known : Arrival N → Item N → Prop
  | .frame _ js, .user t => ∃ type ∈ naming, msgid js = some type.code ∧ Named js type (.user t : Ids.Subject N)
  | .frame conn js, .text c text => c = conn ∧ ∃ response, Response N js response ∧ text = response.dump ++ "\n"
  | .refused conn _, .text c text => c = conn ∧ text = Framing.serverBusy.dump ++ "\n"
  | .listen .., .user _ | .listen .., .text .. => True
  | _, _ => False

variable {K : Item N → Prop}

def Informed (q : Arrival N) (K : Item N → Prop) (p : Service N) : Prop := p.Informed needs (tells q) K

theorem informed_call {q : Arrival N} {op : ServiceCall N} {next : op.Value → Service N} (hs : ∀ x, needs op x → K x)
    (hn : ∀ a, Informed q (fun x => K x ∨ tells q op a x) (next a)) : Informed q K (.call op next) := ⟨hs, hn⟩

theorem informed_quiet {q : Arrival N} {op : ServiceCall N} {next : op.Value → Service N} (hs : ∀ x, needs op x → K x)
    (hn : ∀ a, Informed q K (next a)) : Informed q K (.call op next) :=
  informed_call hs fun a => Program.Informed.mono (hn a) fun _ => Or.inl

theorem informed_sendPayload {q : Arrival N} (h : K (.text conn (payload ++ "\n"))) : Informed q K (sendPayload conn payload) :=
  informed_quiet (fun _ hx => hx ▸ h) fun _ => trivial

theorem informed_markUserOffline {q : Arrival N} (node : N) (u : Int) : Informed q K (markUserOffline node u) :=
  informed_quiet (fun _ => False.elim) fun _ => informed_quiet (fun _ => False.elim) fun _ => trivial

theorem informed_deliverMessage (hk : K (.user t)) (hf : Forwarded js payload) (node : N) :
    Informed (.frame conn js) K (deliverMessage node t payload) := by
  refine informed_call (fun x hx => hx ▸ hk) fun found => ?_
  cases found with
  | some connection => exact informed_sendPayload (Or.inr ⟨connection, payload, rfl, hf, rfl⟩)
  | none =>
    refine informed_quiet (fun _ => False.elim) fun user => ?_
    split
    · exact informed_quiet (fun x hx => Or.inl (hx ▸ hk)) fun _ => trivial
    · exact informed_quiet (fun x hx => Or.inl (hx ▸ hk)) fun _ => trivial

theorem informed_deliverAll {ids : List Int} (hk : ∀ t ∈ ids, K (.user t)) (hf : Forwarded js payload) (node : N) :
    Informed (.frame conn js) K (deliverAll node payload ids) := by
  induction ids with
  | nil => trivial
  | cons t ids ih =>
    refine Program.Informed.bind (informed_deliverMessage (hk t List.mem_cons_self) hf node) fun _ => ?_
    exact ih fun t ht => hk t (List.mem_cons_of_mem _ ht)

/-! The handlers of friend and group requests. -/

theorem answered_true (op : RequestHandlers.Call) (a : op.Value) : Answered (fun _ _ => True) op a := by
  cases op with
  | friend c =>
    cases c with
    | isPendingRequest u f => exact fun _ => trivial
    | _ => trivial
  | group c =>
    cases c with
    | isPendingRequest u g => exact fun _ => trivial
    | _ => trivial
  | _ => trivial

theorem ne_group_of_tells {c : GroupCall} {a : c.Value} {x : Ids.Subject N} (h : Ids.tells js (.group c) a x) (g : Int) :
    x ≠ .group g := by
  cases c with
  | createGroup name desc =>
    obtain ⟨u, g, -, -, rfl⟩ := h
    exact fun h => (by cases h)
  | queryGroupOwnerId g =>
    obtain ⟨-, rfl⟩ := h
    exact fun h => (by cases h)
  | _ => exact h.elim

theorem tells_owner {c : GroupCall} {a : c.Value} (h : Ids.tells (N := N) js (.group c) a (.user t)) :
    ∃ g, c = .queryGroupOwnerId g ∧
      (msgid js = some EnMsgType.addGroupMsg.code ∧ groupid js = some g → tells (.frame conn js) (.group c) a (.user t)) := by
  cases c with
  | createGroup name desc =>
    obtain ⟨u, g, -, -, ht⟩ := h
    cases ht
  | queryGroupOwnerId g =>
    obtain ⟨hok, ht⟩ := h
    cases ht
    exact ⟨g, rfl, fun hg => ⟨hg.1, hg.2, hok, rfl⟩⟩
  | _ => exact h.elim

theorem informed_onConn {K₀ : Ids.Subject N → Prop} {p : Handler} (hl : Lawful N (fun _ => True) (fun _ _ => True) js p)
    (ha : Asks js K₀ p) (hu : ∀ t, K₀ (.user t) → K (.user t))
    (hg : ∀ g, K₀ (.group g) → msgid js = some EnMsgType.addGroupMsg.code ∧ groupid js = some g)
    (hr : ∀ id response, msgid js = some id → Reply N (fun _ => True) id response → K (.text conn (response.dump ++ "\n")))
    {found : Option (Conn N)}
    (hf : ∀ c, found = some c → ∀ payload, Forwarded js payload → K (.text c (payload ++ "\n"))) :
    Informed (.frame conn js) K (onConn conn found p) := by
  induction p generalizing K₀ K found with
  | ret r =>
    cases r with
    | sendJson response =>
      obtain ⟨id, hm, h⟩ := hl
      exact informed_sendPayload (hr id response hm h)
    | _ => trivial
  | call op next ih =>
    obtain ⟨hact, hl⟩ := hl
    obtain ⟨hneed, ha⟩ := ha
    cases op with
    | friend c =>
      refine informed_quiet (fun _ => False.elim) fun (a : c.Value) => ih a (hl a (answered_true (.friend c) a)) (ha a) ?_ ?_ hr hf
      · exact fun t ht => hu t (ht.resolve_right id)
      · exact fun g h => hg g (h.resolve_right id)
    | group c =>
      refine informed_call (fun _ => False.elim) fun (a : c.Value) => ih a (hl a (answered_true (.group c) a)) (ha a) ?_ ?_ ?_ ?_
      · rintro t (ht | ht)
        · exact Or.inl (hu t ht)
        · obtain ⟨g, rfl, ht⟩ := tells_owner ht
          exact Or.inr (ht (hg g (hneed _ rfl)))
      · exact fun g h => hg g (h.resolve_right fun h => ne_group_of_tells h g rfl)
      · exact fun id response hm h => Or.inl (hr id response hm h)
      · exact fun c hc payload h => Or.inl (hf c hc payload h)
    | findLocalConnection userid =>
      refine informed_call (fun x hx => hx ▸ hu userid (hneed _ rfl)) fun a => ih a.isSome (hl _ trivial) (ha _) ?_ ?_ ?_ ?_
      · exact fun t ht => Or.inl (hu t (ht.resolve_right id))
      · exact fun g h => hg g (h.resolve_right id)
      · exact fun id response hm h => Or.inl (hr id response hm h)
      · exact fun c hc payload h => Or.inr ⟨c, payload, hc, h, rfl⟩
    | sendPayload userid payload =>
      have hnext (found : Option (Conn N)) (hf : ∀ c, found = some c → ∀ payload, Forwarded js payload →
          K (.text c (payload ++ "\n"))) : Informed (.frame conn js) K (onConn conn found (next ())) :=
        ih () (hl () trivial) (ha ()) (fun t ht => hu t (ht.resolve_right id)) (fun g h => hg g (h.resolve_right id)) hr hf
      cases found with
      | some connection => exact informed_quiet (fun x hx => hx ▸ hf connection rfl payload hact) fun _ => hnext _ hf
      | none => exact hnext none hf
    | queryUser userid =>
      exact informed_quiet (fun _ => False.elim) fun a => ih a (hl a trivial) (ha a)
        (fun t ht => hu t (ht.resolve_right id)) (fun g h => hg g (h.resolve_right id)) hr hf
    | publish channel message =>
      exact informed_quiet (fun x hx => hx ▸ hu channel (hneed _ rfl)) fun _ => ih () (hl () trivial) (ha ())
        (fun t ht => hu t (ht.resolve_right id)) (fun g h => hg g (h.resolve_right id)) hr hf
    | insertOffline userid msg =>
      exact informed_quiet (fun x hx => hx ▸ hu userid (hneed _ rfl)) fun a => ih a (hl a trivial) (ha a)
        (fun t ht => hu t (ht.resolve_right id)) (fun g h => hg g (h.resolve_right id)) hr hf

/-! The handlers. -/

theorem informed_sendJson {response : Json} (h : Response N js response) :
    Informed (.frame conn js) (Known (.frame conn js)) (sendJson conn response) :=
  informed_sendPayload ⟨rfl, response, h, rfl⟩

theorem informed_queryMembers {q : Arrival N} (groups : List Group) :
    (queryMembers groups).Informed needs (tells q) K := by
  induction groups with
  | nil => trivial
  | cons g groups ih =>
    refine ⟨fun _ => False.elim, fun users => ?_⟩
    have hret (rest : List Group) : (Program.ret ({ g with users := users } :: rest) :
        Program (ServiceCall N) ServiceCall.Value (List Group)).Informed needs (tells q) K := trivial
    exact (Program.Informed.bind ih hret).mono fun _ => Or.inl

theorem informed_acknowledge {q : Arrival N} {user : User}
    (h : ∀ l : Login N, l.user.id = user.id → K (.text conn ((loginAck l).dump ++ "\n"))) (offlineMsgs : List String) :
    Informed q K (acknowledge conn user offlineMsgs) := by
  refine informed_quiet (fun _ => False.elim) fun friends => informed_quiet (fun _ => False.elim) fun groups => ?_
  exact Program.Informed.bind (informed_queryMembers groups) fun gs =>
    informed_sendPayload (h { conn := conn, user := user, offlineMsgs := offlineMsgs, friends := friends, groups := gs } rfl)

theorem informed_login (hm : msgid js = some EnMsgType.loginMsg.code) :
    Informed (.frame conn js) (Known (.frame conn js)) (ChatService.login conn js) := by
  have herr {errno : Int} (he : IsInt errno) (hn : errno ≠ 0) (errmsg : String) {K' : Item N → Prop} :
      Informed (.frame conn js) (fun x => Known (.frame conn js) x ∨ K' x) (sendJson conn (loginError errno errmsg)) :=
    (informed_sendJson (.loginError errmsg he hn)).mono fun _ => Or.inl
  rw [ChatService.login]
  split
  case h_2 => trivial
  rename_i name password hname hpassword
  refine informed_call (fun _ => False.elim) fun user => ?_
  split
  · exact herr (by decide) (by decide) _
  rename_i hfound
  split
  · exact herr (by decide) (by decide) _
  rename_i hp
  split
  · exact herr (by decide) (by decide) _
  rename_i hs
  have hc : Credentials js name user := ⟨hm, hname, by rw [hpassword, not_not.mp hp], hfound, hs⟩
  have hack (msgs : List String) : Informed (.frame conn js) (fun x => Known (.frame conn js) x ∨
      tells (.frame conn js) (.queryName name) user x) (acknowledge conn { user with state := "online" } msgs) :=
    informed_acknowledge (fun l hl => Or.inr ⟨hc, Or.inr ⟨l, hl, rfl⟩⟩) msgs
  rw [accept]
  refine informed_quiet (fun _ => False.elim) fun _ => ?_
  refine informed_quiet (fun _ hx => hx ▸ Or.inr ⟨hc, Or.inl rfl⟩) fun _ => ?_
  refine informed_quiet (fun _ => False.elim) fun _ => informed_quiet (fun _ => False.elim) fun msgs => ?_
  split
  · exact hack []
  · exact informed_quiet (fun _ => False.elim) fun _ => hack msgs

theorem informed_loginout {q : Arrival N} (conn : Conn N) (js : Json) : Informed q K (ChatService.loginout conn js) := by
  rw [ChatService.loginout]
  split
  · exact informed_quiet (fun _ => False.elim) fun _ => informed_markUserOffline _ _
  · trivial

theorem informed_reg (hm : msgid js = some EnMsgType.regMsg.code) :
    Informed (.frame conn js) (Known (.frame conn js)) (ChatService.reg conn js) := by
  rw [ChatService.reg]
  split
  · exact informed_call (fun _ => False.elim) fun id => informed_sendPayload (Or.inr ⟨hm, rfl⟩)
  · trivial

theorem informed_oneChat (hm : msgid js = some EnMsgType.oneChatMsg.code) :
    Informed (.frame conn js) (Known (.frame conn js)) (ChatService.oneChat conn js) := by
  rw [ChatService.oneChat]
  split
  · rename_i u t hu ht
    refine informed_call (fun _ => False.elim) fun found => ?_
    split
    · exact (informed_sendJson (.handled hm (by decide) .notFriends)).mono fun _ => Or.inl
    · rename_i hf
      refine informed_deliverMessage (Or.inr ⟨hm, hu, ht, ?_, rfl⟩) (.request (Or.inl rfl) hm) _
      simpa using hf
  · trivial

theorem informed_groupChat (hm : msgid js = some EnMsgType.groupChatMsg.code) :
    Informed (.frame conn js) K (groupChat conn js) := by
  rw [groupChat]
  split
  · rename_i u g hu hg
    refine informed_quiet (fun _ => False.elim) fun groupname => informed_call (fun _ => False.elim) fun ids => ?_
    exact informed_deliverAll (fun t ht => Or.inr ⟨hm, hu, hg, t, ht, rfl⟩) (.groupChat hm groupname) _
  · trivial

theorem informed_request {type : EnMsgType} {K₀ : Ids.Subject N → Prop} {p : Handler} (hm : msgid js = some type.code)
    (hn : type ≠ .loginMsg) (hl : Lawful N (fun _ => True) (fun _ _ => True) js p) (ha : Asks js K₀ p)
    (hu : ∀ t, K₀ (.user t) → Known (.frame conn js) (.user t))
    (hg : ∀ g, K₀ (.group g) → msgid js = some EnMsgType.addGroupMsg.code ∧ groupid js = some g) :
    Informed (.frame conn js) (Known (.frame conn js)) (onConn conn none p) := by
  refine informed_onConn hl ha hu hg (fun id response hid h => ⟨rfl, response, .handled hid ?_ h, rfl⟩)
    fun c hc => absurd hc.symm (Option.some_ne_none c)
  rintro rfl
  exact hn (code_injective (Option.some.inj (hm.symm.trans hid)))

theorem informed_handler {type : EnMsgType} {h : Conn N → Json → Service N} (hh : Ids.handler type = some h)
    (hm : msgid js = some type.code) : Informed (.frame conn js) (Known (.frame conn js)) (h conn js) := by
  have hnamed (ht : type ∈ naming) (t : Int) (hn : Named js type (.user t : Ids.Subject N)) :
      Known (.frame conn js) (.user t) := ⟨type, ht, hm, hn⟩
  cases type <;> cases hh
  · exact informed_login hm
  · exact informed_loginout conn js
  · exact informed_reg hm
  · exact informed_oneChat hm
  · exact informed_request hm (by decide) (addFriend_lawful hm) (Ids.asks_addFriend fun _ => id)
      (hnamed (by decide)) fun g h => by cases h
  · exact informed_request hm (by decide) (addFriendHandle_lawful hm) (Ids.asks_addFriendHandle fun _ => id)
      (hnamed (by decide)) fun g h => by cases h
  · exact informed_request hm (by decide) (createGroup_lawful hm) (Ids.asks_createGroup (K := fun _ => False))
      (fun _ => False.elim) fun _ => False.elim
  · refine informed_request hm (by decide) (addGroup_lawful hm) (Ids.asks_addGroup fun _ => id)
      (fun t h => by cases h) fun g h => ?_
    cases h
    exact ⟨hm, by assumption⟩
  · exact informed_request hm (by decide) (addGroupHandle_lawful hm) (Ids.asks_addGroupHandle fun _ => id)
      (hnamed (by decide)) fun g h => by cases h
  · exact informed_groupChat hm

/-- Every call needs only what its thread knows. -/
theorem program_informed (q : Arrival N) : Informed q (Known q) q.program := by
  cases q with
  | frame conn js =>
    rw [Arrival.program]
    split
    · rename_i msgid hm
      obtain ⟨type, h, hh, rfl, he⟩ | he := Ids.getHandler_cases msgid conn js
      · rw [he]
        exact informed_handler hh hm
      · rw [he]
        trivial
    · trivial
  | refused conn js =>
    rw [Arrival.program]
    split
    · exact informed_sendPayload ⟨rfl, rfl⟩
    · trivial
  | closed conn =>
    refine informed_quiet (fun _ => False.elim) fun found => ?_
    cases found with
    | none => trivial
    | some u =>
      dsimp only
      split
      · exact informed_markUserOffline _ _
      · trivial
  | listen node l =>
    refine informed_quiet (fun _ => False.elim) fun message => ?_
    cases message with
    | none => trivial
    | some m =>
      refine informed_quiet (fun _ hx => hx ▸ trivial) fun found => ?_
      cases found with
      | none => exact informed_quiet (fun _ hx => hx ▸ trivial) fun _ => trivial
      | some connection => exact informed_sendPayload trivial
  | reset => exact informed_quiet (fun _ => False.elim) fun _ => trivial

/-! The messages of a run. -/

variable [DecidableEq N] {E : Engines} {db : Database.Tables} {as : List (ThreadMove (Arrival N) Chance)} {s : Run N}
  {i : Nat} {u : Int}

/-- A thread has made a call and has got this answer. -/
def Said (E : Engines) (db : Database.Tables) (as : List (ThreadMove (Arrival N) Chance)) (i : Nat) (op : ServiceCall N)
    (a : op.Value) : Prop :=
  (i, ⟨op, a⟩) ∈ Threads.answers Arrival.program (ServiceCall.exec E) (fresh db) as

/-- The user whom the message of a request is for: one that it names, who has to
be a friend of the sender of a chat message, or one that the database has
returned as the owner or as a member of the group that it names. -/
inductive Recipient (E : Engines) (db : Database.Tables) (as : List (ThreadMove (Arrival N) Chance)) (i : Nat) (js : Json) :
    Int → Prop
  | named {type : EnMsgType} {t : Int} (ht : type ∈ naming) (hm : msgid js = some type.code)
      (hn : Named js type (.user t : Ids.Subject N)) : Recipient E db as i js t
  | friend {u t : Int} (hm : msgid js = some EnMsgType.oneChatMsg.code) (hu : userid js = some u)
      (ht : Ids.field js "to" = some t) (hs : Said E db as i (.friend (.isFriend u t)) true) : Recipient E db as i js t
  | owner {g : Int} {owner : IntQueryResult} (hm : msgid js = some EnMsgType.addGroupMsg.code) (hg : groupid js = some g)
      (hs : Said E db as i (.group (.queryGroupOwnerId g)) owner) (ho : owner.status = .ok) :
      Recipient E db as i js owner.value
  | member {u g : Int} {ids : List Int} {t : Int} (hm : msgid js = some EnMsgType.groupChatMsg.code)
      (hu : userid js = some u) (hg : groupid js = some g) (hs : Said E db as i (.queryGroupUsers u g) ids)
      (ht : t ∈ ids) : Recipient E db as i js t

/-- A request has made this message, and the user is one whom it is for. -/
def Origin (E : Engines) (db : Database.Tables) (as : List (ThreadMove (Arrival N) Chance)) (t : Int) (payload : String) :
    Prop :=
  ∃ i conn js, (started as)[i]? = some (.frame conn js) ∧ Forwarded js payload ∧ Recipient E db as i js t

/-- A login request of the connection has read a row of the user with the password that it names. -/
def LoggedIn (E : Engines) (db : Database.Tables) (as : List (ThreadMove (Arrival N) Chance)) (i : Nat) (conn : Conn N)
    (u : Int) : Prop :=
  ∃ js name user, (started as)[i]? = some (.frame conn js) ∧ Said E db as i (.queryName name) user ∧
    Credentials js name user ∧ user.id = u

/-- A login of the user has put the connection into the map of a node. -/
def Entered (E : Engines) (db : Database.Tables) (as : List (ThreadMove (Arrival N) Chance)) (conn : Conn N) (u : Int) :
    Prop :=
  ∃ i node, LoggedIn E db as i conn u ∧ Said E db as i (.atNode node (.insertConn u conn)) ()

/-- The answer that a thread writes to the connection of its request. -/
inductive Answer (E : Engines) (db : Database.Tables) (as : List (ThreadMove (Arrival N) Chance)) (i : Nat) (conn : Conn N) :
    Arrival N → String → Prop
  | response {js response : Json} (h : Response N js response) : Answer E db as i conn (.frame conn js) (response.dump ++ "\n")
  | loginAck {js : Json} (l : Login N) (h : LoggedIn E db as i conn l.user.id) :
      Answer E db as i conn (.frame conn js) ((loginAck l).dump ++ "\n")
  | busy (js : Json) : Answer E db as i conn (.refused conn js) (Framing.serverBusy.dump ++ "\n")

/-- What a thread writes to a connection: an answer, or a message for a user who
has logged in there. -/
inductive Sent (E : Engines) (db : Database.Tables) (as : List (ThreadMove (Arrival N) Chance)) (i : Nat) (conn : Conn N)
    (q : Arrival N) : String → Prop
  | answer {text : String} (h : Answer E db as i conn q text) : Sent E db as i conn q text
  | message {t : Int} {payload : String} (ho : Origin E db as t payload) (he : Entered E db as conn t) :
      Sent E db as i conn q (payload ++ "\n")

theorem item_known (hr : (service E).run (fresh db) as = some s) {q : Arrival N} (hq : (started as)[i]? = some q)
    {op : ServiceCall N} {a : op.Value} (hs : Said E db as i op a) {x : Item N} (hx : needs op x) :
    Known q x ∨ ∃ op a, Said E db as i op a ∧ tells q op a x := by
  obtain h | ⟨⟨j, op, a⟩, he, rfl, h⟩ := Threads.known_of_answer rfl program_informed hr hs hq hx
  · exact Or.inl h
  · exact Or.inr ⟨op, a, he, h⟩

theorem recipient_of_user (hr : (service E).run (fresh db) as = some s) (hq : (started as)[i]? = some (.frame conn js))
    {op : ServiceCall N} {a : op.Value} (hs : Said E db as i op a) (hx : needs op (.user t)) :
    Recipient E db as i js t := by
  obtain ⟨type, ht, hm, hn⟩ | ⟨op, a, hsaid, h⟩ := item_known hr hq hs hx
  · exact .named ht hm hn
  cases op with
  | friend c =>
    cases c with
    | isFriend u v =>
      obtain ⟨hm, hu, ht, rfl, hx⟩ := h
      cases hx
      exact .friend hm hu ht hsaid
    | _ => exact h.elim
  | group c =>
    cases c with
    | queryGroupOwnerId g =>
      obtain ⟨hm, hg, ho, hx⟩ := h
      cases hx
      exact .owner hm hg hsaid ho
    | _ => exact h.elim
  | queryGroupUsers u g =>
    obtain ⟨hm, hu, hg, v, hv, hx⟩ := h
    cases hx
    exact .member hm hu hg hsaid hv
  | queryName name =>
    obtain ⟨-, hx | ⟨l, -, hx⟩⟩ := h <;> cases hx
  | insertUser user => exact absurd h.2 (by simp)
  | atNode n c =>
    cases c with
    | findConn v =>
      obtain ⟨c, payload, -, -, hx⟩ := h
      cases hx
    | _ => exact h.elim
  | _ => exact h.elim

theorem Said.mono {bs : List (ThreadMove (Arrival N) Chance)} {op : ServiceCall N} {a : op.Value}
    (h : Said E db bs i op a) (hr : (service E).run (fresh db) bs = some s) (hb : bs <+: as) : Said E db as i op a :=
  (Threads.answers_mono hr hb).subset h

theorem said_made (hr : (service E).run (fresh db) as = some s) {op : ServiceCall N} {a : op.Value}
    (hs : Said E db as i op a) : ∃ bs w o q, bs <+: as ∧ (service E).run (fresh db) bs = some w ∧
      (started bs)[i]? = some q ∧ w.nextCall i = some op ∧ a = (op.exec E o w.state).1 :=
  Threads.answer_made rfl hr hs

theorem started_of_said (hr : (service E).run (fresh db) as = some s) {op : ServiceCall N} {a : op.Value}
    (hs : Said E db as i op a) : ∃ q, (started as)[i]? = some q := by
  obtain ⟨bs, w, o, q, hb, hw, hq, -, -⟩ := said_made hr hs
  exact ⟨q, Threads.started_mono hb hq⟩

theorem said_step (hr : (service E).run (fresh db) as = some s) {op : ServiceCall N} {next : op.Value → Service N}
    (ht : s.threads[i]? = some (.call op next)) (o : Chance) :
    Said E db (as ++ [.step i o]) i op (op.exec E o s.state).1 :=
  Threads.mem_answers hr ht o

/-! What the nodes hold. -/

theorem node_exec (op : ServiceCall N) (o : Chance) (w : System N) (n : N) :
    (op.exec E o w).2.node n = w.node n ∨
      (∃ c, op = .atNode n c ∧ (op.exec E o w).2.node n = (c.exec o.pick (w.node n)).2) ∨
      ∃ t payload, op = .publish t payload ∧ (op.exec E o w).2.node n =
        { w.node n with redis := (w.node n).redis.push (decimal t) (cstring payload) 0 } := by
  cases op with
  | atNode k c =>
    by_cases hk : n = k
    · subst hk
      exact Or.inr (Or.inl ⟨c, rfl, Function.update_self ..⟩)
    · exact Or.inl (Function.update_of_ne hk ..)
  | publish t payload =>
    rw [ServiceCall.exec, ServiceCall.serve]
    dsimp only
    split
    · exact Or.inr (Or.inr ⟨t, payload, rfl, rfl⟩)
    · exact Or.inl rfl
  | insertUser user =>
    rw [ServiceCall.exec, ServiceCall.serve]
    split
    · split
      · exact Or.inl rfl
      · exact Or.inl rfl
    · exact Or.inl rfl
  | updateState userid state | resetState =>
    rw [ServiceCall.exec, ServiceCall.serve]
    dsimp only
    split
    · exact Or.inl rfl
    · exact Or.inl rfl
  | _ => exact Or.inl rfl

theorem lookup_local {c : LocalCall N} {pick : Option Int} {w : Node N}
    (h : (c.exec pick w).2.userConnMap.lookup u = some conn) :
    w.userConnMap.lookup u = some conn ∨ c = .insertConn u conn := by
  cases c with
  | insertConn v c =>
    obtain h | ⟨rfl, rfl⟩ := ConnMap.lookup_of_insertNew h
    · exact Or.inl h
    · exact Or.inr rfl
  | eraseConn v => exact Or.inl (ConnMap.lookup_of_erase h).2
  | scanConn c =>
    simp only [LocalCall.exec] at h
    cases hs : scan pick c w.userConnMap with
    | none => exact Or.inl (by rwa [hs] at h)
    | some v =>
      rw [hs] at h
      exact Or.inl (ConnMap.lookup_of_erase h).2
  | listen l =>
    cases l with
    | nextReply =>
      simp only [LocalCall.exec] at h
      split at h
      · exact Or.inl h
      · exact Or.inl h
    | _ => exact Or.inl h
  | _ => exact Or.inl h

theorem entries_run (hr : (service E).run (fresh db) as = some s) {n : N}
    (h : (s.state.node n).userConnMap.lookup u = some conn) : ∃ i, Said E db as i (.atNode n (.insertConn u conn)) () := by
  have hstep (w : System N) (op : ServiceCall N) (o : Chance)
      (h : ((op.exec E o w).2.node n).userConnMap.lookup u = some conn) :
      (w.node n).userConnMap.lookup u = some conn ∨ op = .atNode n (.insertConn u conn) := by
    obtain he | ⟨c, rfl, he⟩ | ⟨t, payload, rfl, he⟩ := node_exec (E := E) op o w n
    · exact Or.inl (he ▸ h)
    · rw [show (_ : Node N) = _ from he] at h
      exact (lookup_local h).imp_right fun hc => by rw [hc]
    · rw [show (_ : Node N) = _ from he] at h
      exact Or.inl h
  obtain ⟨i, op, a, ha, rfl⟩ := Threads.answer_of_state (F := fun w : System N => (w.node n).userConnMap.lookup u = some conn)
    (G := fun op _ => op = .atNode n (.insertConn u conn)) (fun h => by cases h) hstep hr h
  exact ⟨i, ha⟩

theorem replies_local {c : LocalCall N} {pick : Option Int} {w : Node N} {channel text : String} {k : Nat}
    (h : .message channel text k ∈ (c.exec pick w).2.redis.replies) : .message channel text k ∈ w.redis.replies := by
  cases c with
  | subscribe v =>
    simp only [LocalCall.exec, Link.subscribe] at h
    split at h
    · exact h
    · exact h
  | unsubscribe v =>
    simp only [LocalCall.exec, Link.unsubscribe] at h
    split at h
    · exact h
    · exact h
  | listen l =>
    cases l with
    | swapCommands =>
      simp only [LocalCall.exec, Link.swapCommands] at h
      split at h
      · exact h
      · exact h
    | nextCommand =>
      simp only [LocalCall.exec, Link.nextCommand] at h
      split at h
      · exact h
      · rename_i command rest _
        obtain ⟨type, v⟩ := command
        cases type with
        | subscribe =>
          simp only [Link.handleCommand, Link.sendSubscribeCommand, Option.getD_some] at h
          split at h
          · exact h
          · exact h
        | _ => exact h
    | serve =>
      simp only [LocalCall.exec, Link.serve] at h
      split at h
      · exact h
      · rw [Option.getD_some, List.mem_append] at h
        exact h.resolve_right (by simp)
    | nextReply =>
      simp only [LocalCall.exec, Link.nextReply] at h
      cases hr : w.redis.replies with
      | nil =>
        rw [hr] at h
        exact absurd (hr ▸ h) List.not_mem_nil
      | cons x rest =>
        rw [hr] at h
        exact List.mem_cons_of_mem x h
  | _ => exact h

theorem published_run (hr : (service E).run (fresh db) as = some s) {n : N} {channel text : String} {k : Nat}
    (h : .message channel text k ∈ (s.state.node n).redis.replies) :
    ∃ i t payload, Said E db as i (.publish t payload) () ∧ channel = decimal t ∧ text = cstring payload := by
  have hstep (w : System N) (op : ServiceCall N) (o : Chance)
      (h : .message channel text k ∈ ((op.exec E o w).2.node n).redis.replies) :
      .message channel text k ∈ (w.node n).redis.replies ∨
        ∃ t payload, op = .publish t payload ∧ channel = decimal t ∧ text = cstring payload := by
    obtain he | ⟨c, rfl, he⟩ | ⟨t, payload, rfl, he⟩ := node_exec (E := E) op o w n
    · exact Or.inl (he ▸ h)
    · rw [show (_ : Node N) = _ from he] at h
      exact Or.inl (replies_local h)
    · rw [show (_ : Node N) = _ from he, Link.push] at h
      split at h
      · refine (List.mem_append.mp h).imp_right fun h => ?_
        cases List.mem_singleton.mp h
        exact ⟨t, payload, rfl, rfl, rfl⟩
      · exact Or.inl h
  obtain ⟨i, op, a, ha, t, payload, rfl, hc⟩ := Threads.answer_of_state
    (F := fun w : System N => .message channel text k ∈ (w.node n).redis.replies)
    (G := fun op _ => ∃ t payload, op = .publish t payload ∧ channel = decimal t ∧ text = cstring payload)
    (fun h => absurd h List.not_mem_nil) hstep hr h
  exact ⟨i, t, payload, ha, hc⟩

theorem heard (hr : (service E).run (fresh db) as = some s) {n : N} {l : Listen}
    (hs : Said E db as i (.atNode n (.listen l)) (some (t, payload))) :
    ∃ j message, Said E db as j (.publish t message) () ∧ payload = cstring message := by
  obtain ⟨bs, w, o, q, hb, hw, -, -, ha⟩ := said_made hr hs
  have hfound : ∃ channel text k, .message channel text k ∈ (w.state.node n).redis.replies ∧ t = leadingInt channel ∧
      payload = cstring text := by
    cases l with
    | nextReply =>
      have ha : some (t, payload) = ((LocalCall.listen .nextReply).exec o.pick (w.state.node n)).1 := ha
      simp only [LocalCall.exec, Link.nextReply] at ha
      cases hrep : (w.state.node n).redis.replies with
      | nil =>
        rw [hrep] at ha
        cases ha
      | cons x rest =>
        rw [hrep] at ha
        cases x with
        | confirm r =>
          simp only [handleRedisReply_confirm] at ha
          cases ha
        | message channel text k =>
          refine ⟨channel, text, k, List.mem_cons_self, ?_⟩
          cases hh : (w.state.node n).redis.messageHandler with
          | true =>
            rw [hh] at ha
            simp only [handleRedisReply_message] at ha
            cases ha
            exact ⟨rfl, rfl⟩
          | false =>
            rw [hh] at ha
            simp [handleRedisReply, Pushed.reply, RedisReply.elementStr] at ha
    | _ => cases ha
  obtain ⟨channel, text, k, hmem, rfl, rfl⟩ := hfound
  obtain ⟨j, v, message, hj, rfl, rfl⟩ := published_run hw hmem
  refine ⟨j, message, ?_, cstring_idem message⟩
  rw [leadingInt_decimal]
  exact hj.mono hw hb

/-! The threads of the Redis side. -/

/-- Where a thread stands that handles a turn of the Redis side. -/
inductive Turn (E : Engines) (db : Database.Tables) (as : List (ThreadMove (Arrival N) Chance)) (i : Nat) (node : N)
    (l : Listen) : Service N → Prop
  | start : Turn E db as i node l (Arrival.program (.listen node l))
  | look {t : Int} {payload : String} (h : Said E db as i (.atNode node (.listen l)) (some (t, payload))) :
      Turn E db as i node l (handleRedisSubscribeMessage node t payload)
  | store {t : Int} {payload : String} (h : Said E db as i (.atNode node (.listen l)) (some (t, payload))) :
      Turn E db as i node l (.call (.offline (.insert t payload)) fun _ => .ret .returned)
  | send {t : Int} {payload : String} {conn : Conn N}
      (h : Said E db as i (.atNode node (.listen l)) (some (t, payload)))
      (hc : Said E db as i (.atNode node (.findConn t)) (some conn)) : Turn E db as i node l (sendPayload conn payload)
  | ended (r : Ending) : Turn E db as i node l (.ret r)

variable {node : N} {l : Listen} {p : Service N}

theorem Turn.mono {bs : List (ThreadMove (Arrival N) Chance)} (h : Turn E db bs i node l p)
    (hr : (service E).run (fresh db) bs = some s) (hb : bs <+: as) : Turn E db as i node l p := by
  cases h with
  | start => exact .start
  | look h => exact .look (h.mono hr hb)
  | store h => exact .store (h.mono hr hb)
  | send h hc => exact .send (h.mono hr hb) (hc.mono hr hb)
  | ended r => exact .ended r

theorem turn_run (hr : (service E).run (fresh db) as = some s) (hq : (started as)[i]? = some (.listen node l)) :
    ∃ p, s.threads[i]? = some p ∧ Turn E db as i node l p := by
  have hall := Threads.each_run (P := fun as i q p => ∀ node l, q = .listen node l → Turn E db as i node l p) rfl ?_ ?_ ?_ hr
  · obtain ⟨p, hp, h⟩ := hall i _ hq
    exact ⟨p, hp, h node l rfl⟩
  · rintro as s _ hr node l rfl
    exact .start
  · exact fun as s a i q p hr h _ node l hq => (h node l hq).mono hr (List.prefix_append as [a])
  · intro as s i o q op next hr ht h node l hq
    have hsaid : Said E db (as ++ [.step i o]) i op (op.exec E o s.state).1 := said_step hr ht o
    have hturn : Turn E db (as ++ [.step i o]) i node l (.call op next) :=
      (h node l hq).mono hr (List.prefix_append as _)
    generalize hp : Program.call op next = p at hturn
    cases hturn with
    | start =>
      cases hp
      generalize (ServiceCall.exec E (.atNode node (.listen l)) o s.state).1 = a at hsaid ⊢
      cases a with
      | none => exact .ended _
      | some m => exact .look hsaid
    | @look t payload hheard =>
      cases hp
      generalize (ServiceCall.exec E (.atNode node (.findConn t)) o s.state).1 = a at hsaid ⊢
      cases a with
      | none => exact .store hheard
      | some connection => exact .send hheard hsaid
    | store h =>
      cases hp
      exact .ended _
    | send h hc =>
      cases hp
      exact .ended _
    | ended r => cases hp

/-- The thread of a turn of the Redis side sends or stores what it has heard. -/
theorem turn_said (hr : (service E).run (fresh db) as = some s) (hq : (started as)[i]? = some (.listen node l))
    {op : ServiceCall N} {a : op.Value} (hs : Said E db as i op a) : (∀ t payload, op ≠ .publish t payload) ∧
      (∀ t payload, op = .offline (.insert t payload) →
        Said E db as i (.atNode node (.listen l)) (some (t, payload))) ∧
      ∀ conn text, op = .send conn text → ∃ t payload, text = payload ++ "\n" ∧
        Said E db as i (.atNode node (.listen l)) (some (t, payload)) ∧
        Said E db as i (.atNode node (.findConn t)) (some conn) := by
  obtain ⟨bs, w, o, q, hb, hw, hq', hc, -⟩ := said_made hr hs
  cases hq.symm.trans (Threads.started_mono hb hq')
  obtain ⟨p, hp, h⟩ := turn_run hw hq'
  obtain ⟨next, ht⟩ := Threads.nextCall_eq_some hc
  cases hp.symm.trans ht
  have hturn := h.mono hw hb
  generalize hp : Program.call op next = p at hturn
  cases hturn with
  | start | look _ =>
    cases hp
    exact ⟨fun _ _ h => (by cases h), fun _ _ h => (by cases h), fun _ _ h => (by cases h)⟩
  | store hheard =>
    cases hp
    refine ⟨fun _ _ h => (by cases h), fun _ _ he => ?_, fun _ _ h => (by cases h)⟩
    cases he
    exact hheard
  | send hheard hfound =>
    cases hp
    refine ⟨fun _ _ h => (by cases h), fun _ _ h => (by cases h), fun _ _ he => ?_⟩
    cases he
    exact ⟨_, _, rfl, hheard, hfound⟩
  | ended r => cases hp

/-! The results. -/

theorem ints_of_said (hr : (service E).run (fresh db) as = some s) {op : ServiceCall N} {a : op.Value}
    (hs : Said E db as i op a) : Ints op a := by
  obtain ⟨bs, w, o, q, -, -, -, -, rfl⟩ := said_made hr hs
  exact ints_exec E op o w.state

theorem emitted_of_said (hr : (service E).run (fresh db) as = some s) {q : Arrival N} (hq : (started as)[i]? = some q)
    {op : ServiceCall N} {a : op.Value} (hs : Said E db as i op a) : Emitted (fun _ => True) (fun _ _ => True) q op := by
  obtain ⟨bs, w, o, q', hb, hw, hq', hc, -⟩ := said_made hr hs
  cases hq.symm.trans (Threads.started_mono hb hq')
  obtain ⟨next, ht⟩ := Threads.nextCall_eq_some hc
  exact (Threads.stage_of_forall₂ (emits_run hw) hq' ht).1

theorem loggedIn_of_insertConn (hr : (service E).run (fresh db) as = some s) {node : N}
    (hs : Said E db as i (.atNode node (.insertConn u conn)) ()) : LoggedIn E db as i conn u := by
  obtain ⟨q, hq⟩ := started_of_said hr hs
  obtain h | ⟨op, a, hsaid, h⟩ := item_known hr hq hs (x := .entry u conn) rfl
  · cases q <;> exact h.elim
  cases q with
  | frame c js =>
    cases op with
    | queryName name =>
      obtain ⟨hc, hx | ⟨l, -, hx⟩⟩ := h
      · cases hx
        exact ⟨js, name, a, hq, hsaid, hc, rfl⟩
      · cases hx
    | friend c => cases c <;> simp [tells] at h
    | group c => cases c <;> simp [tells] at h
    | atNode n c => cases c <;> simp [tells] at h
    | _ => simp [tells] at h
  | _ => exact h.elim

theorem entered_of_findConn (hr : (service E).run (fresh db) as = some s) {node : N}
    (hs : Said E db as i (.atNode node (.findConn t)) (some conn)) : Entered E db as conn t := by
  obtain ⟨bs, w, o, q, hb, hw, -, -, ha⟩ := said_made hr hs
  obtain ⟨j, hj⟩ := entries_run hw ha.symm
  have hj := hj.mono hw hb
  exact ⟨j, node, loggedIn_of_insertConn hr hj, hj⟩

theorem dump_of_forwarded (h : Forwarded js payload) : ∃ message : Json, payload = message.dump := by
  cases h <;> exact ⟨_, rfl⟩

theorem origin_of_passes (hr : (service E).run (fresh db) as = some s) (hq : (started as)[i]? = some (.frame conn js))
    {op : ServiceCall N} {a : op.Value} (hs : Said E db as i op a) (hx : needs op (.user t))
    (hp : Passes (fun _ => True) (.frame conn js) payload) : Origin E db as t payload := by
  cases hp with
  | forwarded hf => exact ⟨i, conn, js, hq, hf, recipient_of_user hr hq hs hx⟩

theorem origin_of_publish (hr : (service E).run (fresh db) as = some s) (hs : Said E db as i (.publish t payload) ()) :
    Origin E db as t payload := by
  obtain ⟨q, hq⟩ := started_of_said hr hs
  have hp := emitted_of_said hr hq hs
  cases q with
  | frame c js => exact origin_of_passes hr hq hs rfl hp
  | listen node l => exact absurd rfl ((turn_said hr hq hs).1 t payload)
  | _ => cases hp

/-- What a listener takes up has its origin in a request. -/
theorem origin_of_heard (hr : (service E).run (fresh db) as = some s) {node : N} {l : Listen}
    (hs : Said E db as i (.atNode node (.listen l)) (some (t, payload))) : Origin E db as t payload := by
  obtain ⟨j, message, hj, rfl⟩ := heard hr hs
  obtain ⟨k, c, js, hq, hf, hrec⟩ := origin_of_publish hr hj
  obtain ⟨m, rfl⟩ := dump_of_forwarded hf
  rw [cstring_of_not_mem (Json.nul_not_mem_dump m)]
  exact ⟨k, c, js, hq, hf, hrec⟩

theorem origin_of_insert (hr : (service E).run (fresh db) as = some s) {a : Bool}
    (hs : Said E db as i (.offline (.insert t payload)) a) : Origin E db as t payload := by
  obtain ⟨q, hq⟩ := started_of_said hr hs
  have hp := emitted_of_said hr hq hs
  cases q with
  | frame c js => exact origin_of_passes hr hq hs rfl hp
  | listen node l => exact origin_of_heard hr ((turn_said hr hq hs).2.1 t payload rfl)
  | _ => cases hp

theorem sent_of_said (hr : (service E).run (fresh db) as = some s) {q : Arrival N} (hq : (started as)[i]? = some q)
    {text : String} (hs : Said E db as i (.send conn text) ()) : Sent E db as i conn q text := by
  cases q with
  | listen node l =>
    obtain ⟨t, payload, rfl, hheard, hc⟩ := (turn_said hr hq hs).2.2 conn text rfl
    exact .message (origin_of_heard hr hheard) (entered_of_findConn hr hc)
  | refused c js =>
    obtain ⟨rfl, rfl⟩ | ⟨op, a, -, h⟩ := item_known hr hq hs (x := .text conn text) rfl
    · exact .answer (.busy js)
    · exact h.elim
  | frame c js =>
    obtain ⟨rfl, response, h, rfl⟩ | ⟨op, a, hsaid, h⟩ := item_known hr hq hs (x := .text conn text) rfl
    · exact .answer (.response h)
    cases op with
    | queryName name =>
      obtain ⟨hc, hx | ⟨l, hl, hx⟩⟩ := h
      · cases hx
      · cases hx
        exact .answer (.loginAck l ⟨js, name, a, hq, hsaid, hc, hl.symm⟩)
    | insertUser user =>
      obtain ⟨hm, hx⟩ := h
      cases hx
      exact .answer (.response (.handled hm (by decide) (.regAck a (ints_of_said hr hsaid))))
    | friend c => cases c <;> simp [tells] at h
    | group c => cases c <;> simp [tells] at h
    | atNode n c =>
      cases c with
      | findConn v =>
        obtain ⟨c', payload, rfl, hf, hx⟩ := h
        cases hx
        exact .message ⟨i, c, js, hq, hf, recipient_of_user hr hq hsaid rfl⟩ (entered_of_findConn hr hsaid)
      | _ => simp [tells] at h
    | _ => simp [tells] at h
  | _ =>
    obtain h | ⟨op, a, -, h⟩ := item_known hr hq hs (x := .text conn text) rfl
    · exact h.elim
    · exact h.elim

/-- The nodes write to a connection only the responses to its requests and the
messages for a user who has logged in there; and what they publish or store for a
user is a message for him. -/
theorem messages_private (E : Engines) (db : Database.Tables) (as : List (ThreadMove (Arrival N) Chance)) (s : Run N)
    (hr : (service E).run (fresh db) as = some s) (i : Nat) (q : Arrival N) (hq : (started as)[i]? = some q) :
    (∀ conn text, Said E db as i (.send conn text) () → Sent E db as i conn q text) ∧
      (∀ t payload, Said E db as i (.publish t payload) () → Origin E db as t payload) ∧
      ∀ t payload a, Said E db as i (.offline (.insert t payload)) a → Origin E db as t payload :=
  ⟨fun _ _ hs => sent_of_said hr hq hs, fun _ _ hs => origin_of_publish hr hs, fun _ _ _ hs => origin_of_insert hr hs⟩

section Across

open Server.Sample

def engines : Engines := .strict fun a b => a = b

def friends : Database.Tables := { users := accounts, friends := [(1, 2)] }

def acts (i k : Nat) (q : Arrival Bool) : List (ThreadMove (Arrival Bool) Chance) :=
  .start q :: List.replicate k (.step i {})

/-- bob logs in on one node, whose listener subscribes for him. alice writes to him
on the other one. -/
def across : List (ThreadMove (Arrival Bool) Chance) :=
  acts 0 8 (.frame ⟨true, 0⟩ (loginFrame "bob" "b")) ++ acts 1 1 (.listen true .swapCommands) ++
    acts 2 1 (.listen true .nextCommand) ++ acts 3 1 (.listen true .serve) ++ acts 4 1 (.listen true .nextReply) ++
    acts 5 4 (.frame ⟨false, 0⟩ (chatFrame 1 2 "hello")) ++ acts 6 3 (.listen true .nextReply)

theorem messages_private_across : ∃ s, (service engines).run (fresh friends) across = some s ∧
    Sent engines friends across 6 ⟨true, 0⟩ (.listen true .nextReply) ((chatFrame 1 2 "hello").dump ++ "\n") ∧
    Origin engines friends across 2 (chatFrame 1 2 "hello").dump := by
  have hs : ((service engines).run (fresh friends) across).isSome = true := by decide +kernel
  have hcalls : ∀ c ∈ [(6, ServiceCall.send ⟨true, 0⟩ ((chatFrame 1 2 "hello").dump ++ "\n")),
      (5, .publish 2 (chatFrame 1 2 "hello").dump)],
      c ∈ Threads.calls Arrival.program (ServiceCall.exec engines) (fresh friends) across := by decide +kernel
  obtain ⟨s, hs⟩ := Option.isSome_iff_exists.mp hs
  obtain ⟨⟨⟩, hsend⟩ := Threads.answer_of_call (hcalls _ List.mem_cons_self)
  obtain ⟨⟨⟩, hpublish⟩ := Threads.answer_of_call (hcalls _ (List.mem_cons_of_mem _ List.mem_cons_self))
  exact ⟨s, hs, (messages_private engines friends across s hs 6 _ rfl).1 _ _ hsend,
    (messages_private engines friends across s hs 5 _ rfl).2.1 2 _ hpublish⟩

end Across

end BridgeIM.Server.Privacy
