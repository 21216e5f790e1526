import BridgeIM.Client.OfflineReplay
import BridgeIM.Server.Privacy

namespace BridgeIM.Client.Conversation

open CString Db Lib Model Model.UserModel Server Server.ChatService Server.Framing Server.Sending Server.Privacy Objects
open LoginData Requests
open OfflineReplay hiding engines

variable {N : Type} {parse : Bytes → Option Json} {js : Json} {payload : String}

/-- What the client of `g_currentUser` sends for a line in which he writes to the
user `toid`, with the line that it is to be shown as. -/
inductive Typed : Json → Int → Int → String → Prop
  | chat {g_currentUser : User} (hg : IsInt g_currentUser.id) (currentTime : String)
      {commandbuf str friendid message : String} {js : Json} (hc : splitColon commandbuf = some ("chat", str))
      (hs : splitColon str = some (friendid, message)) (hm : mainMenu g_currentUser currentTime commandbuf = some js) :
      Typed js g_currentUser.id (atoi friendid)
        (currentTime ++ ":[" ++ decimal g_currentUser.id ++ "]" ++ g_currentUser.name ++ "，said:" ++ message ++ "\n")

theorem command_of_to {g_currentUser : User} {currentTime str command : String}
    (hs : commandHandler g_currentUser currentTime str command = some js) (ht : (js.get? "to").isSome) :
    command = "chat" := by
  by_contra hne
  unfold commandHandler at hs
  rw [if_neg hne] at hs
  have hsome {o : Option (String × String)} {f : String × String → Json} (h : o.map f = some js)
      (hf : ∀ x, (f x).get? "to" = none) : False := by
    obtain ⟨x, -, rfl⟩ := Option.map_eq_some_iff.mp h
    rw [hf] at ht
    cases ht
  have hone {j : Json} (h : some j = some js) (hf : j.get? "to" = none) : False := by
    cases h
    rw [hf] at ht
    cases ht
  split at hs
  · exact hone hs (by simp [addfriend, Json.get?_mkObj])
  split at hs
  · exact hone hs (by simp [acceptaddfriend, handleFriend, Json.get?_mkObj])
  split at hs
  · exact hone hs (by simp [rejectaddfriend, handleFriend, Json.get?_mkObj])
  split at hs
  · exact hsome hs fun x => by simp [Json.get?_mkObj]
  split at hs
  · exact hone hs (by simp [addgroup, Json.get?_mkObj])
  split at hs
  · exact hsome hs fun x => by simp [Json.get?_mkObj]
  split at hs
  · exact hsome hs fun x => by simp [Json.get?_mkObj]
  split at hs
  · exact hsome hs fun x => by simp [Json.get?_mkObj]
  split at hs
  · exact hone hs (by simp [Requests.loginout, Json.get?_mkObj])
  · cases hs

theorem typed_of_shipped (h : Shipped js) (ht : (js.get? "to").isSome) : ∃ userid toid line, Typed js userid toid line := by
  cases h with
  | login name pwd | reg name pwd => simp [Requests.login, Requests.reg, account, Json.get?_mkObj] at ht
  | @command g hg time commandbuf _ hm =>
    have hm' := hm
    unfold mainMenu at hm'
    split at hm'
    · rename_i command str hc
      obtain rfl := command_of_to hm' ht
      obtain ⟨⟨friendid, message⟩, hs, -⟩ := Option.map_eq_some_iff.mp hm'
      exact ⟨_, _, _, .chat hg time hc hs hm⟩
    · rename_i hc
      obtain rfl := command_of_to hm' ht
      rw [commandHandler, if_pos rfl, chat, hc] at hm'
      cases hm'

theorem read_typed {userid toid : Int} {line : String} (h : Typed js userid toid line) :
    Shipped js ∧ msgid js = some EnMsgType.oneChatMsg.code ∧ readInt js "userid" = some userid ∧
      readInt js "to" = some toid ∧ oneChatLine js = some line := by
  cases h with
  | @chat g hg time commandbuf str friendid message _ hc hs hm =>
    have hj : js = .mkObj [("msgid", EnMsgType.oneChatMsg.json), ("userid", .int g.id), ("name", .str g.name),
        ("to", .int (atoi friendid)), ("msg", .str message), ("time", .str time)] := by
      simp only [mainMenu, hc, commandHandler, if_pos, chat, hs, Option.map_some, Option.some.injEq] at hm
      exact hm.symm
    have hto := isInt_atoi friendid
    refine ⟨.command hg time commandbuf hm, ?_, ?_, ?_, ?_⟩
    · rw [hj]
      exact msgid_of_fields (.chat hg hto _ _ _)
    · simp [hj, readInt, Json.get?_mkObj, toInt?_int hg]
    · simp [hj, readInt, Json.get?_mkObj, toInt?_int hto]
    · simp [hj, oneChatLine, readInt, readStr, Json.get?_mkObj, toInt?_int hg, Json.toStr?]

theorem onMessage_message {line : String} (hp : ReadsBack parse) (hf : Flat js) (h : Message js line) (s : ChatClient) :
    onMessage parse (utf8 js.dump) s = some (s.write line) := by
  unfold onMessage
  rw [if_neg (utf8_dump_ne_nil hf), hp js hf]
  exact dispatch_message h s

theorem forwarded_chat (hm : msgid js = some EnMsgType.oneChatMsg.code) (hf : Forwarded js payload) : payload = js.dump := by
  have hne {type : EnMsgType} (ht : type ≠ .oneChatMsg) (h : msgid js = some type.code) : False :=
    ht (code_injective (Option.some.inj (h.symm.trans hm)))
  cases hf with
  | request => rfl
  | groupChat h => exact (hne (by decide) h).elim
  | friendAccepted h | friendRejected h => exact (hne (by decide) h).elim
  | groupAccepted h | groupRejected h => exact (hne (by decide) h).elim

variable [DecidableEq N] {E : RequestHandlers.Engines} {db : Database.Tables}
  {as : List (ThreadMove (Arrival N) Chance)} {w : Run N} {i : Nat} {toid : Int}

/-- What a message that is on its way to a user is: a line typed for him whose
sender the database has found among his friends, or the message of another
request that is for him. The client shows its line. -/
inductive Conveyed (E : RequestHandlers.Engines) (db : Database.Tables) (as : List (ThreadMove (Arrival N) Chance))
    (parse : Bytes → Option Json) (toid : Int) : String → Prop
  | chat {i : Nat} {conn : Conn N} {js : Json} {userid : Int} {line : String}
      (hq : (started as)[i]? = some (.frame conn js)) (ht : Typed js userid toid line)
      (hf : Said E db as i (.friend (.isFriend userid toid)) true)
      (shown : ∀ s, onMessage parse (utf8 js.dump) s = some (s.write line)) : Conveyed E db as parse toid js.dump
  | notice {i : Nat} {conn : Conn N} {request js : Json} {line : String}
      (hq : (started as)[i]? = some (.frame conn request)) (hn : msgid request ≠ some EnMsgType.oneChatMsg.code)
      (hf : Forwarded request js.dump) (hr : Recipient E db as i request toid) (hm : Message js line)
      (shown : ∀ s, onMessage parse (utf8 js.dump) s = some (s.write line)) : Conveyed E db as parse toid js.dump

theorem conveyed_of_origin (hs : ∀ conn js, .frame conn js ∈ started as → Shipped js) (hp : ReadsBack parse)
    (ho : Origin E db as toid payload) : Conveyed E db as parse toid payload := by
  obtain ⟨i, conn, js, hq, hf, hr⟩ := ho
  have hshipped := hs conn js (List.mem_of_getElem? hq)
  have hnotice (hn : msgid js ≠ some EnMsgType.oneChatMsg.code) : Conveyed E db as parse toid payload := by
    obtain ⟨j, rfl, hflat, ⟨line, hm⟩, -⟩ := message_of_forwarded hshipped hf
    exact .notice hq hn hf hr hm (onMessage_message hp hflat hm)
  have hne {type : EnMsgType} (hm : msgid js = some type.code) (ht : type ≠ .oneChatMsg) :
      msgid js ≠ some EnMsgType.oneChatMsg.code :=
    fun h => ht (code_injective (Option.some.inj (hm.symm.trans h)))
  cases hr with
  | named ht hm _ =>
    refine hnotice (hne hm ?_)
    rintro rfl
    exact absurd ht (by decide)
  | owner hm => exact hnotice (hne hm (by decide))
  | member hm => exact hnotice (hne hm (by decide))
  | friend hm hu hto hfriend =>
    obtain rfl := forwarded_chat hm hf
    have hsome : (js.get? "to").isSome := by
      cases hg : js.get? "to" with
      | none =>
        rw [Ids.field, hg] at hto
        cases hto
      | some v => rfl
    obtain ⟨userid, toid', line, ht⟩ := typed_of_shipped hshipped hsome
    obtain ⟨-, -, hu', hto', hl⟩ := read_typed ht
    cases hu'.symm.trans hu
    cases hto'.symm.trans hto
    exact .chat hq ht hfriend (onMessage_message hp (flat_of_shipped hshipped) (.oneChat hm hl))

/-- Whatever the nodes send, publish or store for a user is a line that a friend
of his has typed, or a notice, and his client shows it as it was meant. -/
theorem conversation_shown (E : RequestHandlers.Engines) (db : Database.Tables)
    (as : List (ThreadMove (Arrival N) Chance)) (w : Run N) (hr : (service E).run (fresh db) as = some w)
    (hs : ∀ conn js, .frame conn js ∈ started as → Shipped js) (parse : Bytes → Option Json) (hp : ReadsBack parse) (i : Nat)
    (q : Arrival N) (hq : (started as)[i]? = some q) :
    (∀ conn text, Said E db as i (.send conn text) () → Answer E db as i conn q text ∨ ∃ toid payload,
        text = payload ++ "\n" ∧ Conveyed E db as parse toid payload ∧ Entered E db as conn toid) ∧
      (∀ toid payload, Said E db as i (.publish toid payload) () → Conveyed E db as parse toid payload) ∧
      ∀ toid payload a, Said E db as i (.offline (.insert toid payload)) a → Conveyed E db as parse toid payload := by
  refine ⟨fun conn text hsaid => ?_, fun _ _ hsaid => ?_, fun _ _ _ hsaid => ?_⟩
  · cases sent_of_said hr hq hsaid with
    | answer h => exact Or.inl h
    | message ho he => exact Or.inr ⟨_, _, rfl, conveyed_of_origin hs hp ho, he⟩
  · exact conveyed_of_origin hs hp (origin_of_publish hr hsaid)
  · exact conveyed_of_origin hs hp (origin_of_insert hr hsaid)

open Server.Sample

def helloAcross : List (ThreadMove (Arrival Bool) Chance) :=
  acts 0 8 (.frame ⟨true, 0⟩ (Requests.login "alice" "a")) ++ acts 1 1 (.listen true .swapCommands) ++
    acts 2 1 (.listen true .nextCommand) ++ acts 3 1 (.listen true .serve) ++ acts 4 1 (.listen true .nextReply) ++
    acts 5 4 (.frame ⟨false, 0⟩ hello) ++ acts 6 3 (.listen true .nextReply)

def friendsOfBob : Database.Tables := { users := accounts, friends := [(2, 1)] }

theorem shipped_helloAcross (conn : Conn Bool) (js : Json) (h : .frame conn js ∈ started helloAcross) : Shipped js := by
  have hs : started helloAcross = [.frame ⟨true, 0⟩ (Requests.login "alice" "a"), .listen true .swapCommands,
    .listen true .nextCommand, .listen true .serve, .listen true .nextReply, .frame ⟨false, 0⟩ hello,
    .listen true .nextReply] := rfl
  rw [hs] at h
  simp only [List.mem_cons, Arrival.frame.injEq, reduceCtorEq, false_or, List.not_mem_nil, or_false] at h
  obtain ⟨-, rfl⟩ | ⟨-, rfl⟩ := h
  · exact .login "alice" "a"
  · exact shipped_hello

theorem conversation_shown_across : ∃ w, (service engines).run (fresh friendsOfBob) helloAcross = some w ∧
    ∃ toid, Conveyed engines friendsOfBob helloAcross parseFlat toid hello.dump ∧
      Entered engines friendsOfBob helloAcross ⟨true, 0⟩ toid := by
  have hrun : ((service engines).run (fresh friendsOfBob) helloAcross).isSome = true := by decide +kernel
  have hcall : (6, .send ⟨true, 0⟩ (hello.dump ++ "\n")) ∈
      Threads.calls Arrival.program (ServiceCall.exec engines) (fresh friendsOfBob) helloAcross := by decide +kernel
  obtain ⟨w, hw⟩ := Option.isSome_iff_exists.mp hrun
  obtain ⟨⟨⟩, hsaid⟩ := Threads.answer_of_call hcall
  obtain ⟨hsend, -⟩ := conversation_shown engines friendsOfBob helloAcross w hw shipped_helloAcross parseFlat
    readsBack_parseFlat 6 (.listen true .nextReply) rfl
  obtain h | ⟨toid, payload, hline, hc, he⟩ := hsend _ _ hsaid
  · cases h
  · exact ⟨w, hw, toid, (String.append_left_inj "\n").mp hline ▸ hc, he⟩

end BridgeIM.Client.Conversation
