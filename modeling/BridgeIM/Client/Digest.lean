import BridgeIM.Client.OfflineReplay
import BridgeIM.Client.ReadTask
import BridgeIM.Lib.Calls

namespace BridgeIM.Client.Digest

open CString Db Lib Lib.Lines Model.UserModel Model.GroupModel Server Server.ChatService Server.Framing Server.Sending
open Objects LoginData Requests OfflineReplay ReadTask

variable {N : Type} {parse : Bytes → Option Json} {js : Json} {payload : String}

/-- The text of an object that the client takes without an exception. -/
def Digestible (parse : Bytes → Option Json) (payload : String) : Prop :=
  ∃ j, payload = j.dump ∧ Flat j ∧ ∀ s, (dispatch parse j s).isSome

theorem handled_of_digestible (hp : ReadsBack parse) (h : Digestible parse payload) : Handled parse (utf8 payload) := by
  obtain ⟨j, rfl, hf, hd⟩ := h
  intro s
  unfold onMessage
  rw [if_neg (utf8_dump_ne_nil hf), hp j hf]
  exact hd s

theorem digestible_of_forwarded (hs : Shipped js) (hf : Forwarded js payload) : Digestible parse payload := by
  obtain ⟨j, rfl, hflat, ⟨line, hm⟩, -⟩ := message_of_forwarded hs hf
  exact ⟨j, rfl, hflat, fun s => by rw [dispatch_message hm s]; rfl⟩

theorem replay_isSome (hp : ReadsBack parse) (hs : Shipped js) (hf : Forwarded js payload) : (replay parse payload).isSome := by
  obtain ⟨j, rfl, hflat, ⟨line, hm⟩, -⟩ := message_of_forwarded hs hf
  obtain ⟨-, h⟩ | ⟨-, h⟩ := replay_message hm (hp j hflat)
  · rw [h]
    rfl
  · rw [h]
    rfl

/-! The responses to a request. -/

theorem dispatch_errmsg {type : EnMsgType} (ht : type ∈ [EnMsgType.oneChatMsgAck, .addFriendResponse, .createGroupMsgAck,
    .addGroupResponse]) (hm : msgid js = some type.code) (he : (readStr js "errmsg").isSome) (s : ChatClient) :
    (dispatch parse js s).isSome := by
  have hr : readInt js "msgid" = some type.code := hm
  obtain ⟨errmsg, he⟩ := Option.isSome_iff_exists.mp he
  simp only [List.mem_cons, List.not_mem_nil, or_false] at ht
  obtain rfl | rfl | rfl | rfl := ht <;> simp [dispatch, hr, he, EnMsgType.code]

theorem dispatch_logMsgAck (hm : msgid js = some EnMsgType.logMsgAck.code) {s : ChatClient}
    (h : (doLoginResponse parse js s).isSome) : (dispatch parse js s).isSome := by
  have hr : readInt js "msgid" = some EnMsgType.logMsgAck.code := hm
  obtain ⟨t, ht⟩ := Option.isSome_iff_exists.mp h
  simp [dispatch, hr, ht, EnMsgType.code]

theorem dispatch_regMsgAck (hm : msgid js = some EnMsgType.regMsgAck.code) {s : ChatClient}
    (h : (doRegResponse js s).isSome) : (dispatch parse js s).isSome := by
  have hr : readInt js "msgid" = some EnMsgType.regMsgAck.code := hm
  obtain ⟨t, ht⟩ := Option.isSome_iff_exists.mp h
  simp [dispatch, hr, ht, EnMsgType.code]

theorem leaf_msgid (type : EnMsgType) : Leaf type.json := .int (isInt_code type)

theorem toInt?_code (type : EnMsgType) : type.json.toInt? = some type.code := by
  rw [EnMsgType.json, toInt?_int (isInt_code type)]

theorem msgid_loginError (errno : Int) (errmsg : String) :
    msgid (loginError errno errmsg) = some EnMsgType.logMsgAck.code := by
  simp [msgid, loginError, Json.get?_mkObj, toInt?_code]

theorem msgid_loginAck (l : Login N) : msgid (loginAck l) = some EnMsgType.logMsgAck.code := by
  have hset {c : Prop} [Decidable c] (key : String) (hk : key ≠ "msgid") (j v : Json) :
      msgid (if c then j else j.set key v) = msgid j := by
    split
    · rfl
    · rw [msgid, Json.get?_set_ne hk, msgid]
  unfold loginAck
  dsimp only
  rw [hset "groups" (by decide), hset "friends" (by decide), hset "offlinemsg" (by decide)]
  simp [msgid, Json.get?_mkObj, toInt?_code]

theorem msgid_regAck (id : Option Int) : msgid (regAck id) = some EnMsgType.regMsgAck.code := by
  cases id <;> simp [msgid, regAck, Json.get?_mkObj, toInt?_code]

theorem flat_loginError {errno : Int} (h : IsInt errno) (errmsg : String) : Flat (loginError errno errmsg) := by
  refine flat_mkObj ?_
  simp only [List.forall_mem_cons, List.not_mem_nil, false_implies, implies_true, and_true, Leaf.str, Leaf.int h, leaf_msgid]

theorem flat_regAck {id : Option Int} (h : ∀ n, id = some n → IsInt n) : Flat (regAck id) := by
  have hint : ∀ n, n = 0 ∨ n = 1 → Leaf (.int n) := by
    rintro n (rfl | rfl)
    · exact .int (by decide)
    · exact .int (by decide)
  cases id with
  | none =>
    refine flat_mkObj ?_
    simp [leaf_msgid, hint]
  | some n =>
    refine flat_mkObj ?_
    simp [leaf_msgid, hint, Leaf.int (h n rfl)]

theorem flat_notFriends : Flat notFriends := by
  refine flat_mkObj ?_
  simp only [List.forall_mem_cons, List.not_mem_nil, false_implies, implies_true, and_true, Leaf.str, leaf_msgid]
  exact .int (by decide)

theorem flat_friendJson {u : User} (h : IsInt u.id) : Flat (friendJson u) := by
  refine flat_mkObj ?_
  simp only [List.forall_mem_cons, List.not_mem_nil, false_implies, implies_true, and_true, Leaf.str, Leaf.int h]

theorem flat_memberJson {u : GroupUser} (h : IsInt u.id) : Flat (memberJson u) := by
  refine flat_mkObj ?_
  simp only [List.forall_mem_cons, List.not_mem_nil, false_implies, implies_true, and_true, Leaf.str, Leaf.int h]

theorem flat_groupJson {g : Group} (h : IsInt g.id) : Flat (groupJson g) := by
  refine flat_mkObj ?_
  simp only [List.forall_mem_cons, List.not_mem_nil, false_implies, implies_true, and_true, Leaf.str, Leaf.strs, Leaf.int h]

theorem flat_loginAck {l : Login N} (h : IsInt l.user.id) : Flat (loginAck l) := by
  have hset {c : Prop} [Decidable c] {j : Json} (hj : Flat j) (key : String) (xs : List String) :
      Flat (if c then j else j.set key (.strs xs)) := by
    split
    · exact hj
    · exact hj.set (.strs xs)
  unfold loginAck
  refine hset (hset (hset (flat_mkObj ?_) _ _) _ _) _ _
  simp only [List.forall_mem_cons, List.not_mem_nil, false_implies, implies_true, and_true, Leaf.str, Leaf.int h, leaf_msgid,
    true_and]
  exact Leaf.int (by decide)

theorem readFriend_isSome (hp : ReadsBack parse) {u : User} (h : IsInt u.id) :
    (readFriend parse (friendJson u).dump).isSome := by
  have he : friendJson u = friendJson { u with password := "" } := rfl
  have hr : readFriend parse (friendJson { u with password := "" }).dump = some { u with password := "" } :=
    readFriend_friendJson (hp _ (flat_friendJson h)) ⟨h, rfl⟩
  rw [he, hr]
  rfl

theorem readGroup_isSome (hp : ReadsBack parse) {g : Group} (h : IsInt g.id) (hu : ∀ u ∈ g.users, IsInt u.id) :
    (readGroup parse (groupJson g).dump).isSome := by
  have hread : ∀ j ∈ groupJson g :: g.users.map memberJson, parse (utf8 j.dump) = some j := by
    intro j hj
    obtain rfl | hj := List.mem_cons.mp hj
    · exact hp _ (flat_groupJson h)
    · obtain ⟨u, hm, rfl⟩ := List.mem_map.mp hj
      exact hp _ (flat_memberJson (hu u hm))
  obtain ⟨g', he, hi, hsame, hu'⟩ : ∃ g' : Group, groupJson g = groupJson g' ∧ IsInt g'.id ∧
      groupJson g :: g.users.map memberJson = groupJson g' :: g'.users.map memberJson ∧
      ∀ u ∈ g'.users, IsInt u.id ∧ u.password = "" := by
    refine ⟨{ g with users := g.users.map fun u => { u with password := "" } }, ?_, h, ?_, fun u hm => ?_⟩
    · simp only [groupJson, List.map_map]
      rfl
    · simp only [groupJson, List.map_map]
      rfl
    · obtain ⟨v, hv, rfl⟩ := List.mem_map.mp hm
      exact ⟨hu v hv, rfl⟩
  rw [hsame] at hread
  rw [he, readGroup_groupJson hread hi hu']
  rfl

theorem doLoginResponse_loginAck {stored : String → Prop} (hp : ReadsBack parse) {l : Login N} (hl : Recorded stored l)
    (hs : ∀ m, stored m → (replay parse m).isSome) (s : ChatClient) : (doLoginResponse parse (loginAck l) s).isSome := by
  obtain ⟨herrno, hid, hname, hfriends, hgroups, hoffline⟩ := get?_loginAck l
  obtain ⟨friends, hfs⟩ : ∃ ys, (l.friends.map fun u => (friendJson u).dump).mapM (readFriend parse) = some ys := by
    refine mapM_of_isSome fun text ht => ?_
    obtain ⟨u, hu, rfl⟩ := List.mem_map.mp ht
    exact readFriend_isSome hp (hl.friends u hu)
  obtain ⟨groups, hgs⟩ : ∃ ys, (l.groups.map fun g => (groupJson g).dump).mapM (readGroup parse) = some ys := by
    refine mapM_of_isSome fun text ht => ?_
    obtain ⟨g, hg, rfl⟩ := List.mem_map.mp ht
    exact readGroup_isSome hp (hl.groups g hg).1 (hl.groups g hg).2
  obtain ⟨shown, hsh⟩ := mapM_of_isSome fun m hm => hs m (hl.offlineMsgs m hm)
  simp only [doLoginResponse, recordLists, showOffline, herrno, hid, hname, hfriends, hgroups, hoffline, hfs, hgs, hsh,
    Option.bind_eq_bind, Option.bind_some, if_true, Option.isSome_some]

theorem flat_of_reply {stored : String → Prop} {id : Int} {response : Json} (h : Reply N stored id response) :
    Flat response := by
  cases h with
  | loginError errno errmsg he => exact flat_loginError he errmsg
  | loginAck l hl => exact flat_loginAck hl.user
  | regAck id hi => exact flat_regAck hi
  | notFriends => exact flat_notFriends
  | reply ht errno errmsg he => exact flat_reply _ he errmsg

theorem digestible_of_reply {stored : String → Prop} (hp : ReadsBack parse) (hs : ∀ m, stored m → (replay parse m).isSome)
    {id : Int} {response : Json} (h : Reply N stored id response) : Digestible parse response.dump := by
  refine ⟨_, rfl, flat_of_reply h, fun s => ?_⟩
  cases h with
  | loginError errno errmsg he hn =>
    have hr : readInt (loginError errno errmsg) "errno" = some errno := by
      simp [readInt, loginError, Json.get?_mkObj, Json.toInt?, wrap_of_isInt he]
    exact dispatch_logMsgAck (msgid_loginError errno errmsg) (by simp [doLoginResponse, hr, hn])
  | loginAck l hl => exact dispatch_logMsgAck (msgid_loginAck l) (doLoginResponse_loginAck hp hl hs s)
  | regAck id hi =>
    refine dispatch_regMsgAck (msgid_regAck id) ?_
    cases id with
    | none => simp [doRegResponse, readInt, regAck, Json.get?_mkObj, Json.toInt?, Json.wrap]
    | some id => simp [doRegResponse, readInt, regAck, Json.get?_mkObj, Json.toInt?, Json.wrap]
  | notFriends =>
    refine dispatch_errmsg List.mem_cons_self ?_ ?_ s
    · simp [msgid, notFriends, Json.get?_mkObj, toInt?_code]
    · simp [readStr, notFriends, Json.get?_mkObj, Json.toStr?]
  | @reply t t' ht errno errmsg he =>
    obtain ⟨hm, hr⟩ := read_reply t' errno errmsg
    refine dispatch_errmsg ?_ hm (hr ▸ rfl) s
    simp only [List.mem_cons, List.not_mem_nil, or_false, Prod.mk.injEq] at ht ⊢
    grind

/-! The calls of a run. -/

def sends : ServiceCall N → List (Conn N × String)
  | .send conn text => [(conn, text)]
  | _ => []

def Hands (message : String) : ServiceCall N → Prop
  | .publish _ payload | .offline (.insert _ payload) => payload = message
  | _ => False

variable [DecidableEq N] {E : RequestHandlers.Engines} {db : Model.Database.Tables}
  {as : List (ThreadMove (Arrival N) Chance)} {s : Run N}

def calls (E : RequestHandlers.Engines) (db : Model.Database.Tables) (as : List (ThreadMove (Arrival N) Chance)) :
    List (Nat × ServiceCall N) :=
  Threads.calls Arrival.program (ServiceCall.exec E) (fresh db) as

theorem sent_exec (op : ServiceCall N) (o : Chance) (w : System N) : (op.exec E o w).2.sent = w.sent ++ sends op := by
  have hnil : ∀ l : List (Conn N × String), l = l ++ [] := fun l => (List.append_nil l).symm
  cases op with
  | send conn text => rfl
  | insertUser user =>
    rw [ServiceCall.exec, ServiceCall.serve]
    split
    · split
      · exact hnil _
      · exact hnil _
    · exact hnil _
  | updateState userid state | resetState | publish channel message =>
    rw [ServiceCall.exec, ServiceCall.serve]
    dsimp only
    split
    · exact hnil _
    · exact hnil _
  | _ => exact hnil _

theorem sent_run (hr : (service E).run (fresh db) as = some s) :
    s.state.sent = (calls E db as).flatMap fun c => sends c.2 := by
  refine Machine.reached_induction (P := fun as s => s.state.sent = (calls E db as).flatMap fun c => sends c.2) rfl ?_ hr
  intro as s a s' hr h hs
  have hc : calls E db (as ++ [a]) = calls E db as ++ (s.made a).toList := Threads.calls_concat hr a
  rw [hc, List.flatMap_append, ← h]
  obtain ⟨q, rfl, rfl⟩ | ⟨i, o, op, next, rfl, -, ht, rfl⟩ := Threads.step_cases hs
  · exact (List.append_nil _).symm
  · rw [Threads.made_step ht]
    exact (sent_exec op o s.state).trans (congrArg _ (List.append_nil _).symm)

/-- Strings come back from the stores and from Redis as they were handed to them. -/
def Unchanged (E : RequestHandlers.Engines) (db : Model.Database.Tables) (as : List (ThreadMove (Arrival N) Chance)) : Prop :=
  ∀ bs i o s op next, bs ++ [.step i o] <+: as → (service E).run (fresh db) bs = some s →
    s.threads[i]? = some (.call op next) → ∀ m ∈ texts op (op.exec E o s.state).1, ∃ c ∈ calls E db bs, Hands m c.2

/-- The messages that the handlers of the arrived frames may make. -/
def Given (as : List (ThreadMove (Arrival N) Chance)) (payload : String) : Prop :=
  ∃ conn js, .frame conn js ∈ started as ∧ Forwarded js payload

omit [DecidableEq N] in
theorem given_of_hands {q : Arrival N} {op : ServiceCall N} {asked : Model.Requests.Kind → Int × Int → Prop}
    (hq : q ∈ started as) (he : Emitted (Given as) asked q op) (h : Hands payload op) : Given as payload := by
  have hpass (h : Passes (Given as) q payload) : Given as payload := by
    cases h with
    | @forwarded conn js _ hf => exact ⟨conn, js, hq, hf⟩
    | received node l hs => exact hs
  cases op with
  | publish channel message =>
    obtain rfl : message = payload := h
    exact hpass he
  | offline c =>
    cases c with
    | insert u msg =>
      obtain rfl : msg = payload := h
      exact hpass he
    | _ => exact h.elim
  | _ => exact h.elim

/-- What the threads of a run may call, and what they have called. -/
structure Emitting (E : RequestHandlers.Engines) (db : Model.Database.Tables) (as bs : List (ThreadMove (Arrival N) Chance))
    (s : Run N) : Prop where
  threads : List.Forall₂ (Emits (Given as) fun _ _ => True) (started bs) s.threads
  calls : ∀ c ∈ calls E db bs, ∃ q, (started bs)[c.1]? = some q ∧ Emitted (Given as) (fun _ _ => True) q c.2

theorem emitting_run (hu : Unchanged E db as) {bs : List (ThreadMove (Arrival N) Chance)}
    (hr : (service E).run (fresh db) bs = some s) (hb : bs <+: as) : Emitting E db as bs s := by
  refine Machine.reached_induction (P := fun bs s => bs <+: as → Emitting E db as bs s) ?_ ?_ hr hb
  · intro _
    exact ⟨.nil, fun c hc => absurd hc List.not_mem_nil⟩
  intro bs s a s' hr h hs hb
  have hpre : bs <+: as := (List.prefix_append bs [a]).trans hb
  obtain ⟨hthreads, hcalls⟩ := h hpre
  have hc : calls E db (bs ++ [a]) = calls E db bs ++ (s.made a).toList := Threads.calls_concat hr a
  refine ⟨emits_step hthreads hs fun i o op next ha ht => ⟨?_, ints_exec E op o _, told_trivial op _⟩, ?_⟩
  · intro m hm
    obtain ⟨c, hmem, hh⟩ := hu bs i o s op next (ha ▸ hb) hr ht m hm
    obtain ⟨q, hq, he⟩ := hcalls c hmem
    exact given_of_hands ((hpre.filterMap _).subset (List.mem_of_getElem? hq)) he hh
  · rw [hc]
    intro c hmem
    have hgrow : ∀ q, (started bs)[c.1]? = some q → (started (bs ++ [a]))[c.1]? = some q := fun q hq =>
      Threads.started_mono (List.prefix_append bs [a]) hq
    obtain hmem | hmem := List.mem_append.mp hmem
    · obtain ⟨q, hq, he⟩ := hcalls c hmem
      exact ⟨q, hgrow q hq, he⟩
    obtain ⟨q, rfl, rfl⟩ | ⟨i, o, op, next, rfl, -, ht, rfl⟩ := Threads.step_cases hs
    · exact absurd hmem List.not_mem_nil
    rw [Threads.made_step ht, Option.toList_some, List.mem_singleton] at hmem
    subst hmem
    have hi : i < (started bs).length := hthreads.length_eq ▸ (List.getElem?_eq_some_iff.mp ht).1
    have hq : (started bs)[i]? = some (started bs)[i] := List.getElem?_eq_getElem hi
    exact ⟨_, hgrow _ hq, (Threads.stage_of_forall₂ hthreads hq ht).1⟩

/-! What the client takes. -/

def request : Arrival N → Option (Conn N × Json)
  | .frame conn js | .refused conn js => some (conn, js)
  | _ => none

/-- However `recv` cuts what the server has written to a connection, no
exception leaves the loop that reads it. -/
def Digested (parse : Bytes → Option Json) (conn : Conn N) (s : Run N) : Prop :=
  ∀ client blocks, (∀ block ∈ blocks, 1 ≤ block.length ∧ block.length ≤ 1024) → blocks.flatten <+: written conn s.state →
    ((readTaskHandler parse).run { client := client } blocks).isSome

omit [DecidableEq N] in
theorem digestible_of_sends (hn : ∀ conn js, .refused conn js ∉ started as)
    (hs : ∀ q ∈ started as, ∀ conn js, request q = some (conn, js) → Shipped js) (hp : ReadsBack parse) {q : Arrival N}
    (hq : q ∈ started as) {conn : Conn N} (h : Sends (Given as) q conn payload) : Digestible parse payload := by
  have hgiven {m : String} (hm : Given as m) : Digestible parse m ∧ (replay parse m).isSome := by
    obtain ⟨conn, js, hq, hf⟩ := hm
    have hship := hs _ hq conn js rfl
    exact ⟨digestible_of_forwarded hship hf, replay_isSome hp hship hf⟩
  cases h with
  | reply hm hr => exact digestible_of_reply hp (fun m hm => (hgiven hm).2) hr
  | @forwarded conn' js _ _ hf => exact digestible_of_forwarded (hs _ hq conn' js rfl) hf
  | busy conn js => exact absurd hq (hn conn js)
  | received node l c hm => exact (hgiven hm).1

theorem lines_of_forall {α : Type} {f : α → Bytes} {P : Bytes → Prop} {xs : List α}
    (h : ∀ x ∈ xs, ∃ p, f x = p ++ [newline] ∧ P p) :
    ∃ ps : List Bytes, xs.flatMap f = ps.flatMap (· ++ [newline]) ∧ ∀ p ∈ ps, P p := by
  induction xs with
  | nil => exact ⟨[], rfl, fun p hp => absurd hp List.not_mem_nil⟩
  | cons x xs ih =>
    obtain ⟨p, hp, hP⟩ := h x List.mem_cons_self
    obtain ⟨ps, hps, hPs⟩ := ih fun y hy => h y (List.mem_cons_of_mem x hy)
    refine ⟨p :: ps, ?_, List.forall_mem_cons.mpr ⟨hP, hPs⟩⟩
    rw [List.flatMap_cons, hp, hps, List.flatMap_cons]

theorem digested_run (hr : (service E).run (fresh db) as = some s) (hn : ∀ conn js, .refused conn js ∉ started as)
    (hs : ∀ q ∈ started as, ∀ conn js, request q = some (conn, js) → Shipped js) (hu : Unchanged E db as)
    (hp : ReadsBack parse) (conn : Conn N) : Digested parse conn s := by
  have hframe : ∀ f ∈ s.state.sent, ∃ p, utf8 f.2 = p ++ [newline] ∧ newline ∉ p ∧ Handled parse p := by
    intro f hf
    rw [sent_run hr] at hf
    obtain ⟨c, hc, hf⟩ := List.mem_flatMap.mp hf
    obtain ⟨q, hq, he⟩ := (emitting_run hu hr (List.prefix_refl as)).calls c hc
    obtain ⟨i, op⟩ := c
    cases op with
    | send conn' text =>
      obtain rfl := List.mem_singleton.mp hf
      obtain ⟨payload, rfl, hsend⟩ := he
      have hd : Digestible parse payload := digestible_of_sends hn hs hp (List.mem_of_getElem? hq) hsend
      refine ⟨utf8 payload, ?_, ?_, handled_of_digestible hp hd⟩
      · rw [utf8, String.toList_append, List.flatMap_append]
        rfl
      · obtain ⟨j, rfl, -, -⟩ := hd
        exact newline_not_mem_dump j
    | _ => exact absurd hf List.not_mem_nil
  intro client blocks hb hpre
  obtain ⟨ps, hw, hps⟩ := lines_of_forall fun f hf => hframe f (List.mem_of_mem_filter hf)
  rw [written, hw] at hpre
  have hstart : Read [] { client := client } := ⟨rfl, rfl⟩
  obtain ⟨-, t, ht, -⟩ := read_stream (fun p hp => (hps p hp).1) (fun p hp => (hps p hp).2) hb hpre hstart
  rw [ht]
  rfl

/-! What releases a waiting sender. -/

/-- The code of the frame that the sender of a request waits for. -/
def ackOf : EnMsgType → Option EnMsgType
  | .loginMsg => some .logMsgAck
  | .regMsg => some .regMsgAck
  | _ => none

def Acks (conn : Conn N) (ack : EnMsgType) : ServiceCall N → Prop
  | .send c text => c = conn ∧ ∃ response, msgid response = some ack.code ∧ text = response.dump ++ "\n"
  | _ => False

/-- A thread that was started for a login or a registration has sent the ack
when it ends, and its own calls lead to its end. -/
def Answered (E : RequestHandlers.Engines) (db : Model.Database.Tables) (as : List (ThreadMove (Arrival N) Chance))
    (s : Run N) : Prop :=
  ∀ i q conn js type ack, (started as)[i]? = some q → request q = some (conn, js) → msgid js = some type.code →
    ackOf type = some ack →
    (∀ r, s.threads[i]? = some (.ret r) → ∃ op, Acks conn ack op ∧ (i, op) ∈ calls E db as) ∧
    ∀ o, ∃ n t r, (service E).run s (List.replicate n (.step i o)) = some t ∧ t.threads[i]? = some (.ret r)

omit [DecidableEq N] in
theorem sendJson_acks {conn : Conn N} {ack : EnMsgType} {response : Json} (h : msgid response = some ack.code) :
    (sendJson conn response).Surely (Acks conn ack) := Or.inl ⟨rfl, response, h, rfl⟩

omit [DecidableEq N] in
theorem acknowledge_acks (conn : Conn N) (user : User) (msgs : List String) :
    (acknowledge conn user msgs).Surely (Acks conn .logMsgAck) :=
  Or.inr fun _ => Or.inr fun _ => Program.surely_bind _ fun _ => sendJson_acks (msgid_loginAck _)

omit [DecidableEq N] in
theorem login_acks {conn : Conn N} {name password : String} (hn : (js.get? "name").bind Json.toStr? = some name)
    (hp : (js.get? "password").bind Json.toStr? = some password) :
    (ChatService.login conn js).Surely (Acks conn .logMsgAck) := by
  rw [ChatService.login, hn, hp]
  refine Or.inr fun user => ?_
  dsimp only
  split
  · exact sendJson_acks (msgid_loginError _ _)
  split
  · exact sendJson_acks (msgid_loginError _ _)
  split
  · exact sendJson_acks (msgid_loginError _ _)
  refine Or.inr fun _ => Or.inr fun _ => Or.inr fun _ => Or.inr fun msgs => ?_
  dsimp only
  split
  · exact acknowledge_acks _ _ _
  · exact Or.inr fun _ => acknowledge_acks _ _ _

omit [DecidableEq N] in
theorem reg_acks {conn : Conn N} {name password : String} (hn : (js.get? "name").bind Json.toStr? = some name)
    (hp : (js.get? "password").bind Json.toStr? = some password) :
    (ChatService.reg conn js).Surely (Acks conn .regMsgAck) := by
  rw [ChatService.reg, hn, hp]
  exact Or.inr fun id => sendJson_acks (msgid_regAck id)

omit [DecidableEq N] in
theorem frame_acks (conn : Conn N) (hs : Shipped js) {type ack : EnMsgType} (hm : msgid js = some type.code)
    (ha : ackOf type = some ack) : (Arrival.frame conn js).program.Surely (Acks conn ack) := by
  obtain ⟨type', fields, rfl, hf⟩ := fields_of_shipped hs
  have hcode : type' = type := code_injective (Option.some.inj ((msgid_of_fields hf).symm.trans hm))
  subst hcode
  have hget {fields : List (String × Json)} {name pwd : String}
      (hf : fields = [("name", .str name), ("password", .str pwd)]) :
      ((Json.mkObj (("msgid", type'.json) :: fields)).get? "name").bind Json.toStr? = some name ∧
        ((Json.mkObj (("msgid", type'.json) :: fields)).get? "password").bind Json.toStr? = some pwd := by
    subst hf
    constructor <;> simp [Json.get?_mkObj, Json.toStr?]
  have hid : ((Json.mkObj (("msgid", type'.json) :: fields)).get? "msgid").bind Json.toInt? = some type'.code := hm
  rw [Arrival.program, hid]
  cases hf with
  | account ht name pwd =>
    obtain ⟨hn, hp⟩ := hget rfl
    obtain rfl | rfl := ht
    · cases ha
      exact login_acks hn hp
    · cases ha
      exact reg_acks hn hp
  | _ => cases ha

theorem answered_run (hr : (service E).run (fresh db) as = some s) (hn : ∀ conn js, .refused conn js ∉ started as)
    (hs : ∀ q ∈ started as, ∀ conn js, request q = some (conn, js) → Shipped js) : Answered E db as s := by
  intro i q conn js type ack hq hreq hm ha
  obtain ⟨hi, -⟩ := List.getElem?_eq_some_iff.mp hq
  have hmem := List.mem_of_getElem? hq
  have hship := hs q hmem conn js hreq
  have hlen := Threads.length_threads rfl hr
  refine ⟨fun r hret => ?_, fun o => Threads.runs_to_end (List.getElem?_eq_getElem (hlen ▸ hi)) o⟩
  have hframe : q = .frame conn js := by
    cases q with
    | frame conn' js' =>
      cases hreq
      rfl
    | refused conn' js' => exact absurd hmem (hn conn' js')
    | _ => cases hreq
  subst hframe
  obtain ⟨op, hop, hc⟩ | ⟨p, hp, hsure⟩ := Threads.surely_run rfl hr hq (frame_acks conn hship hm ha)
  · exact ⟨op, hop, hc⟩
  · cases hret.symm.trans hp
    exact hsure.elim

/-- As long as the pool refuses no request, the client takes every frame of the
server, and logins and registrations are answered. -/
theorem frames_digested (E : RequestHandlers.Engines) (db : Model.Database.Tables)
    (as : List (ThreadMove (Arrival N) Chance)) (s : Run N) (hr : (service E).run (fresh db) as = some s)
    (hs : ∀ q ∈ started as, ∀ conn js, request q = some (conn, js) → Shipped js) (hu : Unchanged E db as)
    (hn : ∀ conn js, .refused conn js ∉ started as) (parse : Bytes → Option Json) (hp : ReadsBack parse) :
    (∀ conn, Digested parse conn s) ∧ Answered E db as s :=
  ⟨digested_run hr hn hs hu hp, answered_run hr hn hs⟩

def silent (E : RequestHandlers.Engines) (s : Run N) : ThreadMove (Arrival N) Chance → Bool
  | .step i o =>
    match s.threads[i]? with
    | some (.call op _) => (texts op (op.exec E o s.state).1).isEmpty
    | _ => true
  | .start _ => true

theorem unchanged_of_silent (h : (service E).Meets (fun s a => silent E s a = true) (fresh db) as) : Unchanged E db as := by
  rintro bs i o s op next ⟨cs, rfl⟩ hr ht m hm
  have hstep : silent E s (.step i o) = true := ((Machine.meets_append.mp h.prefix).2 s hr).1
  rw [silent, ht] at hstep
  rw [List.isEmpty_iff.mp hstep] at hm
  exact absurd hm List.not_mem_nil

open Server.Sample

def aliceIn : List (ThreadMove (Arrival Unit) Chance) :=
  .start (.frame ⟨(), 0⟩ (login "alice" "a")) :: List.replicate 8 (.step 0 {})

theorem frames_digested_alice : ∃ s, (service engines).run (fresh { users := accounts }) aliceIn = some s ∧
    (∀ conn, Digested parseFlat conn s) ∧ Answered engines { users := accounts } aliceIn s := by
  have h : ((service engines).run (fresh { users := accounts }) aliceIn).isSome ∧
      (service engines).Meets (fun s a => silent engines s a = true) (fresh { users := accounts }) aliceIn := by
    decide +kernel
  obtain ⟨s, hs⟩ := Option.isSome_iff_exists.mp h.1
  have hstart : started aliceIn = [.frame ⟨(), 0⟩ (login "alice" "a")] := rfl
  refine ⟨s, hs, frames_digested engines _ aliceIn s hs ?_ (unchanged_of_silent h.2) ?_ parseFlat readsBack_parseFlat⟩
  · intro q hq conn js hj
    rw [hstart, List.mem_singleton] at hq
    subst hq
    cases hj
    exact .login "alice" "a"
  · intro conn js hq
    rw [hstart, List.mem_singleton] at hq
    cases hq

/-- The login of alice comes when the queue of the pool is full. -/
def aliceRefused : List (ThreadMove (Arrival Unit) Chance) :=
  [.start (.refused ⟨(), 0⟩ (login "alice" "a")), .step 0 {}]

theorem flat_serverBusy : Flat serverBusy := by
  refine flat_mkObj ?_
  simp only [List.forall_mem_cons, List.not_mem_nil, false_implies, implies_true, and_true, Leaf.str]
  exact .int (by decide)

theorem onMessage_serverBusy (hp : ReadsBack parse) (s : ChatClient) : onMessage parse (utf8 serverBusy.dump) s = none := by
  have hr : readInt serverBusy "msgid" = none := by simp [readInt, serverBusy, Json.get?_mkObj]
  unfold onMessage
  rw [if_neg (utf8_dump_ne_nil flat_serverBusy), hp _ flat_serverBusy]
  simp [dispatch, hr]

theorem busy_unread : ¬ ∀ (E : RequestHandlers.Engines) (db : Model.Database.Tables)
    (as : List (ThreadMove (Arrival Unit) Chance)) (s : Run Unit), (service E).run (fresh db) as = some s →
    (∀ q ∈ started as, ∀ conn js, request q = some (conn, js) → Shipped js) → Unchanged E db as →
    ∀ parse : Bytes → Option Json, ReadsBack parse → (∀ conn, Digested parse conn s) ∧ Answered E db as s := by
  intro h
  have hrun : ((service engines).run (fresh { users := accounts }) aliceRefused).map (fun s => s.state.sent) =
      some [(⟨(), 0⟩, serverBusy.dump ++ "\n")] := rfl
  have hu : Unchanged engines { users := accounts } aliceRefused := unchanged_of_silent (by decide +kernel)
  obtain ⟨s, hs, hsent⟩ := Option.map_eq_some_iff.mp hrun
  have hstart : started aliceRefused = [.refused ⟨(), 0⟩ (login "alice" "a")] := rfl
  obtain ⟨hd, -⟩ := h engines _ aliceRefused s hs (fun q hq conn js hj => by
    rw [hstart, List.mem_singleton] at hq
    subst hq
    cases hj
    exact .login "alice" "a") hu parseFlat readsBack_parseFlat
  have hw : written ⟨(), 0⟩ s.state = utf8 serverBusy.dump ++ newline :: [] := by
    rw [written, hsent]
    simp only [utf8, decide_true, List.filter_cons_of_pos, List.filter_nil, List.flatMap_cons, List.flatMap_nil,
      List.append_nil, String.toList_append, List.flatMap_append]
    rfl
  have hread := hd ⟨(), 0⟩ {} [utf8 serverBusy.dump ++ newline :: []] (by decide) (by rw [hw]; simp)
  have hlen : 1 ≤ (utf8 serverBusy.dump ++ newline :: []).length ∧
      (utf8 serverBusy.dump ++ newline :: []).length ≤ 1024 := by
    decide
  rw [Machine.run_cons, step_block hlen, List.nil_append, ReadTask.loop_piece (newline_not_mem_dump _), handle,
    onMessage_serverBusy readsBack_parseFlat] at hread
  cases hread

end BridgeIM.Client.Digest
