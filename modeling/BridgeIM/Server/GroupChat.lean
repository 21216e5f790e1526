import BridgeIM.Lib.Paths
import BridgeIM.Server.ChatService
import BridgeIM.Server.Groups

namespace BridgeIM.Server.GroupChat

open Db Lib Model Model.Database Services ChatService Groups
open RequestHandlers (Engines)

variable {N : Type} {E : Engines} {d d' : Tables} {u g : Int}

/-- What the column types and the primary key of `GroupUser` demand of its rows. -/
structure Keyed (d : Tables) : Prop where
  ints : ∀ b ∈ d.group.members, IsInt b.groupid ∧ IsInt b.userid
  key : (d.group.members.map fun b => (b.groupid, b.userid)).Nodup

/-- The server executes no statement that would violate them. -/
def Enforces (m : Mysql Tables) : Prop := ∀ ts d d', Keyed d → m.update ts d = some d' → Keyed d'

theorem Keyed.congr (h : Keyed d) (hg : d'.group = d.group) : Keyed d' := ⟨hg ▸ h.ints, hg ▸ h.key⟩

theorem Keyed.apply {same : String → String → Bool} {id : Int} {c : Update} (h : Keyed d) (ha : c.apply same id d = some d') :
    Keyed d' := by
  cases c with
  | insertFriend k =>
    rw [Update.apply, Tables.insertFriend, Option.ite_none_right_eq_some, Option.some.injEq] at ha
    obtain ⟨-, rfl⟩ := ha
    exact h.congr rfl
  | insertGroup name desc =>
    rw [Update.apply, Tables.insertGroup, Option.ite_none_right_eq_some, Option.some.injEq] at ha
    obtain ⟨-, rfl⟩ := ha
    exact ⟨h.ints, h.key⟩
  | insertMember groupid userid role =>
    rw [Update.apply, Tables.insertMember, Option.ite_none_right_eq_some, Option.some.injEq] at ha
    obtain ⟨⟨hg, hu, hn⟩, rfl⟩ := ha
    refine ⟨fun b hb => ?_, nodup_enter h.key ?_⟩
    · obtain hb | hb := List.mem_append.mp hb
      · exact h.ints b hb
      · rw [List.mem_singleton.mp hb]
        exact ⟨hg, hu⟩
    · rw [hasMember, ← Bool.not_eq_true', List.not_any_eq_all_not]
      exact hn
  | insertRequest k x =>
    obtain ⟨t, -, rfl⟩ := Option.map_eq_some_iff.mp ha
    exact h.congr rfl
  | setStatus k x s =>
    cases ha
    exact h.congr rfl

theorem strictMysql_enforces (same : String → String → Bool) : Enforces (strictMysql same) := by
  intro ts d d' h hu
  obtain ⟨c, -, hc⟩ := Option.bind_eq_some_iff.mp hu
  exact h.apply hc

theorem keyed_update {m : Mysql Tables} (hm : Enforces m) (o : Outcome) (sql : String) (h : Keyed d) :
    Keyed ((o.session m).update sql d).2 := by
  rw [DbSession.update]
  split
  · rename_i d' hd
    obtain ⟨m', hc, hu⟩ := Option.bind_eq_some_iff.mp hd
    obtain ⟨ts, -, hu⟩ := Option.bind_eq_some_iff.mp hu
    rw [Outcome.session, Option.ite_none_right_eq_some, Option.some.injEq] at hc
    obtain ⟨-, rfl⟩ := hc
    split at hu
    · exact hm ts d d' h hu
    · cases hu
  · exact h

/-! What every statement keeps is kept by every call. -/

theorem request_keeps {D : Type} {I : D → Prop} {session : DbSession D} (hs : ∀ sql d, I d → I (session.update sql d).2)
    (c : Requests.Kind) (a b : Int) (text : String) {d : D} (h : I d) :
    I (RequestModel.updateRequestStatus session c a b text d).2 := by
  rw [RequestModel.updateRequestStatus]
  split
  · exact hs _ d h
  · exact h

theorem friend_keeps {D : Type} {I : D → Prop} {session : DbSession D} (hs : ∀ sql d, I d → I (session.update sql d).2)
    (c : FriendCall) {d : D} (h : I d) : I (c.serve session d).2 := by
  cases c with
  | insertFriend | addFriendRequest => exact hs _ d h
  | updateRequestStatus a b text => exact request_keeps hs .friend a b text h
  | _ => exact h

theorem group_keeps {D : Type} {I : D → Prop} {session : DbSession D} (hs : ∀ sql d, I d → I (session.update sql d).2)
    (c : GroupCall) {d : D} (h : I d) : I (c.serve session d).2 := by
  cases c with
  | addGroup | addGroupRequest => exact hs _ d h
  | createGroup name desc =>
    have hk := hs (Services.GroupModel.createGroupSql name desc) d h
    rw [GroupCall.serve, Services.GroupModel.createGroup]
    split
    · rename_i d' he
      rwa [he] at hk
    · rename_i d' he
      rwa [he] at hk
  | updateRequestStatus a b text => exact request_keeps hs .group a b text h
  | _ => exact h

theorem keyed_exec [DecidableEq N] (hE : Enforces E.db) (op : ServiceCall N) (o : Chance) {w : System N} (h : Keyed w.db) :
    Keyed (op.exec E o w).2.db := by
  have hs : ∀ sql d, Keyed d → Keyed ((o.toOutcome.session E.db).update sql d).2 := fun sql d => keyed_update hE _ sql
  cases op with
  | friend c =>
    show Keyed (c.exec E.db o.toOutcome w.db).2
    rw [FriendCall.exec]
    split
    · exact friend_keeps hs c (h.congr rfl)
    · exact h.congr rfl
  | group c => exact group_keeps hs c (h.congr rfl)
  | insertUser user =>
    rw [ServiceCall.exec, ServiceCall.serve]
    split
    · split
      · exact h.congr rfl
      · exact h
    · exact h
  | updateState userid state | resetState =>
    rw [ServiceCall.exec, ServiceCall.serve]
    dsimp only
    split
    · exact h.congr rfl
    · exact h
  | publish channel message =>
    rw [ServiceCall.exec, ServiceCall.serve]
    dsimp only
    split
    · exact h
    · exact h
  | _ => exact h

theorem keyed_run [DecidableEq N] (hE : Enforces E.db) {w : System N} (hw : Keyed w.db)
    {as : List (ThreadMove (Arrival N) Chance)} {s : Run N} (hr : (service E).run ⟨w, []⟩ as = some s) :
    Keyed s.state.db := by
  refine Machine.run_invariant (I := fun s : Run N => Keyed s.state.db) hw ?_ (Machine.meets_true _ as) hr
  intro s a s' h _ hs
  obtain ⟨q, -, rfl⟩ | ⟨i, o, op, next, -, -, -, rfl⟩ := Threads.step_cases hs
  · exact h
  · exact keyed_exec hE op o h

def delivery : ServiceCall N → Option Int
  | .atNode _ (.findConn userid) => some userid
  | _ => none

def deliveries (es : List (Event (ServiceCall N) Chance (System N))) : List Int := es.filterMap fun e => delivery e.op

/-- Every other member gets the message exactly once and nobody else, if the
sender is a member, and nobody at all if he is not. -/
structure MembersOnly (u g : Int) (d : Tables) (ids : List Int) : Prop where
  member : hasMember g u d = true → ∀ id, ids.count id = if hasMember g id d = true ∧ id ≠ u then 1 else 0
  stranger : hasMember g u d = false → ids = []

theorem mem_queryGroupUsers {id : Int} :
    id ∈ GroupModel.queryGroupUsers u g d.group ↔ hasMember g id d = true ∧ id ≠ u := by
  simp only [GroupModel.queryGroupUsers, hasMember, List.mem_map, List.mem_filter, List.any_eq_true, Bool.and_eq_true,
    decide_eq_true_eq]
  constructor
  · rintro ⟨b, ⟨hb, hg, hu⟩, rfl⟩
    exact ⟨⟨b, hb, hg, rfl⟩, hu⟩
  · rintro ⟨⟨b, hb, hg, rfl⟩, hu⟩
    exact ⟨b, ⟨hb, hg, hu⟩, rfl⟩

theorem Keyed.nodup_queryGroupUsers (h : Keyed d) (u g : Int) : (GroupModel.queryGroupUsers u g d.group).Nodup := by
  rw [GroupModel.queryGroupUsers]
  refine List.Nodup.map_on ?_ (List.Nodup.of_map _ h.key |>.filter _)
  intro b hb b' hb' he
  have hp := (List.mem_filter.mp hb).2
  have hp' := (List.mem_filter.mp hb').2
  rw [Bool.and_eq_true, decide_eq_true_eq] at hp hp'
  exact List.inj_on_of_nodup_map h.key (List.mem_filter.mp hb).1 (List.mem_filter.mp hb').1
    (Prod.ext (hp.1.trans hp'.1.symm) he)

theorem Keyed.wrap_queryGroupUsers (h : Keyed d) (u g : Int) :
    (GroupModel.queryGroupUsers u g d.group).map Json.wrap = GroupModel.queryGroupUsers u g d.group := by
  rw [GroupModel.queryGroupUsers, List.map_map]
  refine List.map_congr_left fun b hb => ?_
  exact wrap_of_isInt (h.ints b (List.mem_filter.mp hb).1).2

theorem membersOnly_nil : MembersOnly u g d [] ↔ (∀ id, hasMember g id d = true → id = u) ∨ hasMember g u d = false := by
  constructor
  · intro h
    by_cases hu : hasMember g u d = true
    · refine Or.inl fun id hid => ?_
      by_contra hne
      have hc := h.member hu id
      rw [if_pos ⟨hid, hne⟩] at hc
      cases hc
    · exact Or.inr (Bool.eq_false_iff.mpr hu)
  · intro h
    refine ⟨fun hu id => ?_, fun _ => rfl⟩
    obtain h | h := h
    · rw [if_neg fun hx => hx.2 (h id hx.1)]
      rfl
    · rw [hu] at h
      cases h

theorem Keyed.membersOnly_query (h : Keyed d) : MembersOnly u g d (GroupModel.queryGroupUsers u g d.group) ↔
    (∀ id, hasMember g id d = true → id = u) ∨ hasMember g u d = true := by
  constructor
  · intro hm
    by_cases hu : hasMember g u d = true
    · exact Or.inr hu
    · refine Or.inl fun id hid => ?_
      by_contra hne
      have hx : id ∈ GroupModel.queryGroupUsers u g d.group := mem_queryGroupUsers.mpr ⟨hid, hne⟩
      rw [hm.stranger (Bool.eq_false_iff.mpr hu)] at hx
      cases hx
  · intro hm
    refine ⟨fun hu id => ?_, fun hu => ?_⟩
    · rw [(h.nodup_queryGroupUsers u g).count]
      simp only [mem_queryGroupUsers]
    · rw [hu] at hm
      refine List.eq_nil_iff_forall_not_mem.mpr fun id hid => ?_
      obtain ⟨hid, hne⟩ := mem_queryGroupUsers.mp hid
      exact hne ((hm.resolve_right Bool.false_ne_true) id hid)

theorem Keyed.membersOnly_iff {w : System N} (h : Keyed w.db) (o : Chance) :
    MembersOnly u g w.db ((if read o then GroupModel.queryGroupUsers u g w.db.group else []).map Json.wrap) ↔
      (∀ id, hasMember g id w.db = true → id = u) ∨ (read o = true ↔ hasMember g u w.db = true) := by
  cases hr : read o with
  | true =>
    rw [if_pos rfl, h.wrap_queryGroupUsers, h.membersOnly_query]
    simp
  | false =>
    rw [if_neg Bool.false_ne_true, List.map_nil, membersOnly_nil]
    simp

variable [DecidableEq N] {es : List (Event (ServiceCall N) Chance (System N))} {node : N} {conn : Conn N} {js : Json} {r : Ending}

theorem deliveries_call {op : ServiceCall N} (ho : delivery op = none) {next : op.Value → Service N}
    (h : Program.Path (ServiceCall.exec E) es (.call op next) (.ret r)) :
    ∃ a es', Program.Path (ServiceCall.exec E) es' (next a) (.ret r) ∧ deliveries es = deliveries es' := by
  obtain ⟨o, w, es', rfl, hn⟩ := Program.path_call h
  exact ⟨_, es', hn, List.filterMap_cons_none ho⟩

theorem deliveries_ret {r' : Ending} (h : Program.Path (ServiceCall.exec E) es (.ret r' : Service N) (.ret r)) :
    deliveries es = [] := by
  rw [Program.path_ret h]
  rfl

theorem deliveries_deliverMessage {t : Int} {payload : String}
    (h : Program.Path (ServiceCall.exec E) es (deliverMessage node t payload) (.ret r)) : deliveries es = [t] := by
  obtain ⟨o, w, es₁, rfl, hn⟩ := Program.path_call h
  have hd : deliveries (⟨.atNode node (.findConn t), o, w⟩ :: es₁ : List (Event (ServiceCall N) Chance (System N))) =
      t :: deliveries es₁ := rfl
  rw [hd]
  refine congrArg (t :: ·) ?_
  split at hn
  · obtain ⟨_, es₂, hn, he⟩ := deliveries_call rfl hn
    rw [he, deliveries_ret hn]
  · obtain ⟨user, es₂, hn, he⟩ := deliveries_call rfl hn
    rw [he]
    split at hn
    · obtain ⟨_, es₃, hn, he⟩ := deliveries_call rfl hn
      rw [he, deliveries_ret hn]
    · obtain ⟨_, es₃, hn, he⟩ := deliveries_call rfl hn
      rw [he, deliveries_ret hn]

theorem deliveries_deliverAll {payload : String} {ids : List Int}
    (h : Program.Path (ServiceCall.exec E) es (deliverAll node payload ids) (.ret r)) : deliveries es = ids := by
  induction ids generalizing es with
  | nil => exact deliveries_ret h
  | cons id ids ih =>
    obtain ⟨es₁, es₂, r', rfl, h₁, h₂⟩ := Program.path_bind h
    rw [deliveries, List.filterMap_append, ← deliveries, ← deliveries, deliveries_deliverMessage h₁, ih h₂]
    rfl

theorem path_groupChat (hu : (js.get? "userid").bind Json.toInt? = some u) (hg : (js.get? "groupid").bind Json.toInt? = some g)
    (h : Program.Path (ServiceCall.exec E) es (ChatService.groupChat conn js) (.ret r)) :
    ∃ e o w es', es = e :: ⟨.queryGroupUsers u g, o, w⟩ :: es' ∧ deliveries es =
      (if read o then GroupModel.queryGroupUsers u g w.db.group else []).map Json.wrap := by
  rw [ChatService.groupChat, hu, hg] at h
  obtain ⟨o', w', es₁, rfl, hn⟩ := Program.path_call h
  obtain ⟨o, w, es₂, rfl, hd⟩ := Program.path_call hn
  refine ⟨_, o, w, es₂, rfl, ?_⟩
  rw [deliveries, List.filterMap_cons_none rfl, List.filterMap_cons_none rfl, ← deliveries]
  exact deliveries_deliverAll hd

/-- In every run, for every frame of a group chat whose handler has ended. -/
theorem groupChat_members_only (hE : Enforces E.db) (w₀ : System N) (h₀ : Keyed w₀.db)
    (as : List (ThreadMove (Arrival N) Chance)) (s : Run N) (hr : (service E).run ⟨w₀, []⟩ as = some s) (i : Nat)
    (conn : Conn N) (js : Json) (u g : Int) (hq : (started as)[i]? = some (.frame conn js))
    (hm : (js.get? "msgid").bind Json.toInt? = some EnMsgType.groupChatMsg.code)
    (hu : (js.get? "userid").bind Json.toInt? = some u) (hg : (js.get? "groupid").bind Json.toInt? = some g) :
    (∃ n t r, (service E).run s (List.replicate n (.step i {})) = some t ∧ t.threads[i]? = some (.ret r)) ∧
    ∀ r, s.threads[i]? = some (.ret r) → ∃ e o w es,
      Threads.events Arrival.program (ServiceCall.exec E) ⟨w₀, []⟩ as i = e :: ⟨.queryGroupUsers u g, o, w⟩ :: es ∧
      (∃ bs t, (service E).run ⟨w₀, []⟩ bs = some t ∧ t.state = w) ∧
      (MembersOnly u g w.db (deliveries (Threads.events Arrival.program (ServiceCall.exec E) ⟨w₀, []⟩ as i)) ↔
        (∀ id, hasMember g id w.db = true → id = u) ∨ (read o = true ↔ hasMember g u w.db = true)) := by
  obtain ⟨p, hi, hp⟩ := Threads.path_run rfl hr hq
  refine ⟨Threads.runs_to_end hi ({} : Chance), fun r hret => ?_⟩
  cases hi.symm.trans hret
  have hprog : (Arrival.frame conn js).program = ChatService.groupChat conn js := by
    rw [Arrival.program, hm]
    rfl
  rw [hprog] at hp
  obtain ⟨e, o, w, es, he, hd⟩ := path_groupChat hu hg hp
  have hmem : (⟨.queryGroupUsers u g, o, w⟩ : Event (ServiceCall N) Chance (System N)) ∈
      Threads.events Arrival.program (ServiceCall.exec E) ⟨w₀, []⟩ as i := by
    rw [he]
    exact List.mem_cons_of_mem _ List.mem_cons_self
  obtain ⟨bs, t, hb, hw⟩ := Threads.reached_of_event hr hmem
  have hk : Keyed w.db := by
    have hk := keyed_run hE h₀ hb
    rwa [hw] at hk
  refine ⟨e, o, w, es, he, ⟨bs, t, hb, hw⟩, ?_⟩
  rw [hd]
  exact hk.membersOnly_iff o

namespace Sample

def engines : Engines := .strict fun a b => a = b

def alice : Conn Unit := ⟨(), 0⟩

def bob : Conn Unit := ⟨(), 1⟩

def group : System Unit where
  db :=
    { users := ⟨[⟨1, "alice", "a", some .online⟩, ⟨2, "bob", "b", some .online⟩, ⟨3, "carl", "c", some .online⟩], 4,
        by decide, by decide⟩
      group := ⟨[⟨1, "g", some "d"⟩], [⟨1, 1, some "creator"⟩, ⟨1, 2, some "normal"⟩]⟩
      nextGroupId := 2
      requests := fun _ => AList.singleton (3, 1) ⟨some .rejected, none⟩ }
  node _ := { userConnMap := (AList.singleton 1 alice).insert 2 bob }

def chatFrame (userid : Int) : Json :=
  .obj [("groupid", .int 1), ("message", .str "hello"), ("msgid", .int 16), ("userid", .int userid)]

def chat (userid : Int) : List (ThreadMove (Arrival Unit) Chance) :=
  .start (.frame ⟨(), 2⟩ (chatFrame userid)) :: List.replicate 6 (.step 0 {})

theorem keyed_group : Keyed group.db := ⟨by decide, by decide⟩

theorem run_chat : ∃ s, (service engines).run ⟨group, []⟩ (chat 3) = some s ∧ s.threads[0]? = some (.ret .returned) ∧
    ∃ e o es, Threads.events Arrival.program (ServiceCall.exec engines) ⟨group, []⟩ (chat 3) 0 =
      e :: ⟨.queryGroupUsers 3 1, o, group⟩ :: es ∧
      deliveries (Threads.events Arrival.program (ServiceCall.exec engines) ⟨group, []⟩ (chat 3) 0) = [1, 2] :=
  ⟨_, rfl, rfl, _, _, _, rfl, rfl⟩

end Sample

open Sample

theorem groupChat_members_only_chat : ∃ s, (service engines).run ⟨group, []⟩ (chat 3) = some s ∧
    ∃ e o w es, Threads.events Arrival.program (ServiceCall.exec engines) ⟨group, []⟩ (chat 3) 0 =
      e :: ⟨.queryGroupUsers 3 1, o, w⟩ :: es ∧
      (MembersOnly 3 1 w.db (deliveries (Threads.events Arrival.program (ServiceCall.exec engines) ⟨group, []⟩ (chat 3) 0)) ↔
        (∀ id, hasMember 1 id w.db = true → id = 3) ∨ (read o = true ↔ hasMember 1 3 w.db = true)) := by
  obtain ⟨s, hs, hret, -⟩ := run_chat
  obtain ⟨e, o, w, es, he, -, h⟩ := (groupChat_members_only (strictMysql_enforces _) group keyed_group (chat 3) s hs 0 _
    (chatFrame 3) 3 1 rfl rfl rfl rfl).2 _ hret
  exact ⟨s, hs, e, o, w, es, he, h⟩

/-- Whoever is not in a group can send a message to it. -/
theorem stranger_heard : ¬ ∀ (E : Engines), Enforces E.db → ∀ w₀ : System Unit, Keyed w₀.db →
    ∀ (as : List (ThreadMove (Arrival Unit) Chance)) (s : Run Unit), (service E).run ⟨w₀, []⟩ as = some s →
    ∀ (i : Nat) (conn : Conn Unit) (js : Json) (u g : Int), (started as)[i]? = some (.frame conn js) →
    (js.get? "msgid").bind Json.toInt? = some EnMsgType.groupChatMsg.code →
    (js.get? "userid").bind Json.toInt? = some u → (js.get? "groupid").bind Json.toInt? = some g →
    ∀ r, s.threads[i]? = some (.ret r) → ∀ e o w es,
    Threads.events Arrival.program (ServiceCall.exec E) ⟨w₀, []⟩ as i = e :: ⟨.queryGroupUsers u g, o, w⟩ :: es →
    MembersOnly u g w.db (deliveries (Threads.events Arrival.program (ServiceCall.exec E) ⟨w₀, []⟩ as i)) := by
  intro h
  obtain ⟨s, hs, hret, e, o, es, he, hd⟩ := run_chat
  have hm := h engines (strictMysql_enforces _) group keyed_group (chat 3) s hs 0 _ (chatFrame 3) 3 1 rfl rfl rfl rfl _ hret
    e o group es he
  rw [hm.stranger (by decide)] at hd
  cases hd

end BridgeIM.Server.GroupChat
