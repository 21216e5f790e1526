import BridgeIM.Client.Digest
import BridgeIM.Client.Session
import BridgeIM.Server.Privacy

namespace BridgeIM.Client.Authentic

open Db Lib Model Model.UserModel Server Server.ChatService Server.Framing Server.Sending Server.Privacy Objects LoginData
open Requests Session

variable {N : Type} [DecidableEq N] {E : RequestHandlers.Engines} {db : Database.Tables}
  {as : List (ThreadMove (Arrival N) Chance)} {w : Run N} {parse : Bytes → Option Json} {conn : Conn N} {js : Json}

/-- The values of which the nodes make texts for the connections. -/
inductive Dumped (as : List (ThreadMove (Arrival N) Chance)) : Json → Prop
  | response {conn : Conn N} {js response : Json} (hq : .frame conn js ∈ started as) (h : Response N js response) :
      Dumped as response
  | loginAck (l : Login N) (h : IsInt l.user.id) : Dumped as (loginAck l)
  | request {conn : Conn N} {js : Json} (hq : .frame conn js ∈ started as) : Dumped as js
  | groupChat {conn : Conn N} {js : Json} (hq : .frame conn js ∈ started as) (groupname : String) :
      Dumped as (js.set "groupname" (.str groupname))
  | notice (type : EnMsgType) {errno : Int} (he : IsInt errno) (errmsg : String) :
      Dumped as (RequestHandlers.reply type errno errmsg)
  | busy : Dumped as serverBusy

def passed : List EnMsgType :=
  [.oneChatMsg, .groupChatMsg, .addFriendRequest, .addFriendResponse, .addGroupMsg, .addGroupResponse]

def Passed (js : Json) : Prop := ∃ type ∈ passed, msgid js = some type.code

omit [DecidableEq N] in
theorem passed_of_forwarded (hq : .frame conn js ∈ started as) {payload : String} (hf : Forwarded js payload) :
    ∃ message, payload = message.dump ∧ Dumped as message ∧ Passed message := by
  have hreply {type : EnMsgType} (ht : type ∈ passed) {errno : Int} (he : IsInt errno) (errmsg : String) :
      Dumped as (RequestHandlers.reply type errno errmsg) ∧ Passed (RequestHandlers.reply type errno errmsg) :=
    ⟨.notice type he errmsg, type, ht, (OfflineReplay.read_reply type errno errmsg).1⟩
  cases hf with
  | @request type ht hm =>
    refine ⟨js, rfl, .request hq, type, ?_, hm⟩
    obtain rfl | rfl | rfl := ht <;> decide
  | groupChat hm groupname =>
    exact ⟨_, rfl, .groupChat hq groupname, .groupChatMsg, by decide, (OfflineReplay.msgid_set_groupname js _).trans hm⟩
  | friendAccepted | friendRejected => exact ⟨_, rfl, hreply (by decide) (by decide) _⟩
  | groupAccepted | groupRejected => exact ⟨_, rfl, hreply (by decide) (by decide) _⟩

def Welcome (js : Json) : Prop := readInt js "msgid" = some EnMsgType.logMsgAck.code ∧ readInt js "errno" = some 0

theorem not_welcome {type : EnMsgType} (hm : msgid js = some type.code) (ht : type ≠ .logMsgAck) : ¬ Welcome js := by
  intro hw
  exact ht (code_injective (Option.some.inj (hm.symm.trans hw.1)))

theorem not_welcome_of_passed (hp : Passed js) : ¬ Welcome js := by
  obtain ⟨type, ht, hm⟩ := hp
  refine not_welcome hm ?_
  rintro rfl
  exact absurd ht (by decide)

omit [DecidableEq N] in
theorem not_welcome_of_response {response : Json} (h : Response N js response) : ¬ Welcome response := by
  cases h with
  | @loginError errno errmsg he hn =>
    intro hw
    have herr : readInt (loginError errno errmsg) "errno" = some errno := by
      simp [readInt, loginError, Json.get?_mkObj, Json.toInt?, wrap_of_isInt he]
    exact hn (Option.some.inj (herr.symm.trans hw.2))
  | handled hm hn h =>
    cases h with
    | loginError | loginAck => exact absurd rfl hn
    | regAck id hi => exact not_welcome (Digest.msgid_regAck id) (by decide)
    | notFriends =>
      have hm : msgid Server.notFriends = some EnMsgType.oneChatMsgAck.code := by
        simp [msgid, Server.notFriends, Json.get?_mkObj, Digest.toInt?_code]
      exact not_welcome hm (by decide)
    | @reply t t' ht errno errmsg he =>
      refine not_welcome (OfflineReplay.read_reply t' errno errmsg).1 ?_
      rintro rfl
      simp at ht

/-! The messages of a connection. -/

/-- A login request of the connection has named the password of the row that it
has read for the user. -/
def Verified (E : RequestHandlers.Engines) (db : Database.Tables) (as : List (ThreadMove (Arrival N) Chance)) (conn : Conn N)
    (u : Int) : Prop :=
  ∃ i, LoggedIn E db as i conn u

theorem said_of_sent (hr : (service E).run (fresh db) as = some w) {text : String} (h : (conn, text) ∈ w.state.sent) :
    ∃ i q, (started as)[i]? = some q ∧ Said E db as i (.send conn text) () := by
  rw [Digest.sent_run hr] at h
  obtain ⟨⟨i, op⟩, hc, hs⟩ := List.mem_flatMap.mp h
  cases op with
  | send c t =>
    cases List.mem_singleton.mp hs
    obtain ⟨⟨⟩, ha⟩ := Threads.answer_of_call hc
    obtain ⟨bs, v, o, q, hb, -, hq, -, -⟩ := said_made hr ha
    exact ⟨i, q, Threads.started_mono hb hq, ha⟩
  | _ => exact absurd hs List.not_mem_nil

/-- No message welcomes a client except the response to its own login. -/
theorem accepted_sent (hr : (service E).run (fresh db) as = some w)
    (hp : ∀ js, Dumped as js → parse (utf8 js.dump) = some js) {text : String} (hs : (conn, text ++ "\n") ∈ w.state.sent)
    (ha : Accepted parse (utf8 text) js) : ∃ u, Verified E db as conn u ∧ readInt js "id" = some (Json.wrap u) := by
  obtain ⟨i, q, hq, hsaid⟩ := said_of_sent hr hs
  have hsent := sent_of_said hr hq hsaid
  have hread {j : Json} (hd : Dumped as j) (he : text = j.dump) : j = js :=
    Option.some.inj ((hp j hd).symm.trans (he ▸ ha.parsed))
  have hwelcome : Welcome js := ⟨ha.msgid, ha.errno⟩
  generalize hline : text ++ "\n" = line at hsent
  have hdump {j : Json} (h : text ++ "\n" = j.dump ++ "\n") : text = j.dump := (String.append_left_inj "\n").mp h
  cases hsent with
  | answer h =>
    cases h with
    | response h =>
      obtain rfl := hread (.response (List.mem_of_getElem? hq) h) (hdump hline)
      exact absurd hwelcome (not_welcome_of_response h)
    | loginAck l hl =>
      have hint : IsInt l.user.id := by
        obtain ⟨_, _, user, -, hrow, -, hid⟩ := hl
        exact hid ▸ ints_of_said hr hrow
      obtain rfl := hread (.loginAck l hint) (hdump hline)
      exact ⟨l.user.id, ⟨i, hl⟩, (get?_loginAck l).2.1⟩
    | busy j =>
      obtain rfl := hread .busy (hdump hline)
      exact absurd hwelcome.1 (by simp [readInt, serverBusy, Json.get?_mkObj])
  | message ho =>
    obtain ⟨k, c, j, hj, hf, -⟩ := ho
    obtain ⟨message, rfl, hdumped, hpassed⟩ := passed_of_forwarded (List.mem_of_getElem? hj) hf
    obtain rfl := hread hdumped (hdump hline)
    exact absurd hwelcome (not_welcome_of_passed hpassed)

/-! What the client makes of them. -/

section Client

variable {s t : ChatClient}

theorem dispatch_failed (hd : dispatch parse js s = some t) (hn : ¬ Welcome js) (ht : t.isLoginSuccess = true) :
    s.isLoginSuccess = true := by
  obtain ⟨hm, u, hu, rfl⟩ | ⟨-, cout, posts, rfl⟩ := dispatch_inv hd
  · unfold doLoginResponse at hu
    obtain ⟨errno, herrno, hu⟩ := Option.bind_eq_some_iff.mp hu
    -- a refused login response clears the flag
    rw [if_neg fun he => hn ⟨hm, herrno.trans (congrArg some he)⟩] at hu
    cases hu
    cases ht
  · exact ht

theorem onMessage_failed {message : Bytes} (hm : onMessage parse message s = some t)
    (hn : ∀ js, ¬ Accepted parse message js) (ht : t.isLoginSuccess = true) : s.isLoginSuccess = true := by
  unfold onMessage at hm
  split at hm
  · cases hm
    exact ht
  rename_i hne
  split at hm
  · cases hm
    exact ht
  · rename_i js hj
    exact dispatch_failed hm (fun hw => hn js ⟨hne, hj, hw.1, hw.2⟩) ht

end Client

variable {p q : Process}

/-- The user that the client holds is the one of a response that has let it in. -/
def Admitted (parse : Bytes → Option Json) (bs : List Move) (s : Process) : Prop :=
  s.client.isLoginSuccess = true ∨ s.place = .mainMenu →
    ∃ message js, Move.message message ∈ bs ∧ Accepted parse message js ∧ readInt js "id" = some s.client.currentUser.id

theorem step_place {a : Move} (hs : (process parse).step p a = some q) (hq : q.place = .mainMenu) :
    p.client.isLoginSuccess = true ∨ p.place = .mainMenu := by
  cases a with
  | login name pwd sent | reg name pwd sent =>
    obtain ⟨-, hs⟩ := Option.ite_none_right_eq_some.mp hs
    cases hs
    cases hq
  | loginout sent =>
    obtain ⟨hp, -⟩ := Option.ite_none_right_eq_some.mp hs
    exact Or.inr hp
  | wake =>
    obtain ⟨-, hs⟩ := Option.ite_none_right_eq_some.mp hs
    split at hs
    · cases hs
      by_cases hl : p.client.isLoginSuccess = true
      · exact Or.inl hl
      · rw [if_neg hl] at hq
        cases hq
    · cases hs
      cases hq
    · cases hs
    · cases hs
  | message m =>
    obtain ⟨client, -, rfl⟩ := Option.map_eq_some_iff.mp hs
    exact Or.inr hq

theorem admitted_step {bs : List Move} {a : Move} (hi : Admitted parse bs p) (hs : (process parse).step p a = some q) :
    Admitted parse (bs ++ [a]) q := by
  intro hq
  have hold (hp : p.client.isLoginSuccess = true ∨ p.place = .mainMenu)
      (hu : q.client.currentUser = p.client.currentUser) : ∃ message js, Move.message message ∈ bs ++ [a] ∧
        Accepted parse message js ∧ readInt js "id" = some q.client.currentUser.id := by
    obtain ⟨message, js, hm, ha, hid⟩ := hi hp
    exact ⟨message, js, List.mem_append_left _ hm, ha, hu ▸ hid⟩
  by_cases ha : ∃ message, a = .message message
  · obtain ⟨message, rfl⟩ := ha
    have hm := step_message hs
    obtain ⟨js, haccepted, u, hu, hh⟩ | ⟨hn, hh⟩ := onMessage_cases hm
    · obtain ⟨id, _, _, _, _, _, hid, _, _, _, _, _, hu⟩ := recordLists_cases hu
      have huser : q.client.currentUser.id = id := congrArg User.id (Prod.mk.inj (hh.trans hu)).1
      exact ⟨message, js, List.mem_append_right _ List.mem_cons_self, haccepted, huser ▸ hid⟩
    · refine hold ?_ (Prod.mk.inj hh).1
      obtain hq | hq := hq
      · exact Or.inl (onMessage_failed hm hn hq)
      · exact step_place hs hq
  · have hc := step_client (fun m hm => ha ⟨m, hm⟩) hs
    refine hold ?_ (congrArg ChatClient.currentUser hc)
    obtain hq | hq := hq
    · exact Or.inl (hc ▸ hq)
    · exact step_place hs hq

theorem admitted_run {bs : List Move} (hr : (process parse).run {} bs = some q) : Admitted parse bs q := by
  refine Machine.reached_induction (P := Admitted parse) ?_ (fun _ _ _ _ _ hi hs => admitted_step hi hs) hr
  rintro (hl | hm)
  · cases hl
  · cases hm

def sender (js : Json) : Option Int :=
  if msgid js = some EnMsgType.addFriendHandle.code then friendid js else userid js

theorem sender_mainMenu {g_currentUser : User} (hg : IsInt g_currentUser.id) {currentTime line : String}
    (hm : mainMenu g_currentUser currentTime line = some js) :
    sender js = some g_currentUser.id ∨ msgid js = some EnMsgType.addGroupHandle.code := by
  obtain ⟨command, str, hs⟩ : ∃ command str, commandHandler g_currentUser currentTime str command = some js := by
    unfold mainMenu at hm
    split at hm
    · exact ⟨_, _, hm⟩
    · exact ⟨_, _, hm⟩
  have hid := toInt?_int hg
  unfold commandHandler at hs
  iterate 9
    split at hs
    · first
      | obtain ⟨parts, -, rfl⟩ := Option.map_eq_some_iff.mp hs
      | cases hs
      simp [sender, msgid, userid, friendid, addfriend, acceptaddfriend, rejectaddfriend, handleFriend, addgroup,
        Json.get?_mkObj, Digest.toInt?_code, EnMsgType.code, hid]
  split at hs
  · cases hs
    simp [sender, msgid, userid, Requests.loginout, Json.get?_mkObj, Digest.toInt?_code, EnMsgType.code, hid]
  · cases hs

/-- A client that has got to its chat menu holds a user whose password has been
checked on its own connection. -/
theorem verified_of_menu (hr : (service E).run (fresh db) as = some w)
    (hp : ∀ js, Dumped as js → parse (utf8 js.dump) = some js) {bs : List Move}
    (hb : ∀ message, Move.message message ∈ bs → ∃ text, (conn, text ++ "\n") ∈ w.state.sent ∧ message = utf8 text)
    (hs : (process parse).run {} bs = some p) (hm : p.place = .mainMenu) :
    ∃ u, Verified E db as conn u ∧ p.client.currentUser.id = Json.wrap u := by
  obtain ⟨message, js, hmem, ha, hid⟩ := admitted_run hs (Or.inr hm)
  obtain ⟨text, hw, rfl⟩ := hb message hmem
  obtain ⟨u, hu, hid'⟩ := accepted_sent hr hp hw ha
  exact ⟨u, hu, Option.some.inj (hid.symm.trans hid')⟩

omit [DecidableEq N] in
theorem flat_dumped (hs : ∀ conn js, .frame conn js ∈ started as → Shipped js) (hd : Dumped as js) : Flat js := by
  cases hd with
  | response hq h =>
    cases h with
    | loginError errmsg he hn => exact Digest.flat_loginError he errmsg
    | handled hm hn h => exact Digest.flat_of_reply h
  | loginAck l hl => exact Digest.flat_loginAck hl
  | request hq => exact flat_of_shipped (hs _ _ hq)
  | groupChat hq groupname => exact (flat_of_shipped (hs _ _ hq)).set (.str groupname)
  | notice type he errmsg => exact OfflineReplay.flat_reply type he errmsg
  | busy => exact flat_mkObj (by simp [Leaf.str, Leaf.int (show IsInt 1 by decide)])

end BridgeIM.Client.Authentic
