import BridgeIM.Client.Responses
import BridgeIM.Lib.Paths
import BridgeIM.Server.Sending

namespace BridgeIM.Client.LoginData

open Db Lib Model.UserModel Model.GroupModel Server Server.ChatService Server.Framing Server.Sending

variable {N : Type} {parse : Bytes → Option Json}

/-- The objects that `login` puts into its response: their ids are ints, and
the queries for friends and members read no passwords. -/
structure Typed (l : Login N) : Prop where
  user : IsInt l.user.id
  friends : ∀ u ∈ l.friends, IsInt u.id ∧ u.password = ""
  groups : ∀ g ∈ l.groups, IsInt g.id ∧ ∀ u ∈ g.users, IsInt u.id ∧ u.password = ""

def parts (l : Login N) : List Json :=
  l.friends.map friendJson ++ l.groups.flatMap fun g => groupJson g :: g.users.map memberJson

/-- The client holds the user, the friends and the groups of the login. -/
structure Holds (l : Login N) (s : ChatClient) : Prop where
  id : s.currentUser.id = l.user.id
  name : s.currentUser.name = l.user.name
  friends : s.currentUserFriendList = l.friends
  groups : s.currentUserGroupList = l.groups

def Blank : (op : ServiceCall N) → op.Value → Prop
  | .friend (.queryFriends _), friends => ∀ u ∈ friends, u.password = ""
  | .queryMembers _, users => ∀ u ∈ users, u.password = ""
  | _, _ => True

theorem blank_exec [DecidableEq N] (E : RequestHandlers.Engines) (op : ServiceCall N) (o : Chance) (w : System N) :
    Blank op (op.exec E o w).1 := by
  cases op with
  | friend c =>
    cases c with
    | queryFriends userid =>
      have hr : ∀ response, ∀ u ∈ Services.queryFriendsByRpc response, u.password = "" := by
        rintro (_ | response) u hu
        · cases hu
        · obtain ⟨info, -, rfl⟩ := List.mem_map.mp hu
          rfl
      intro u hu
      obtain ⟨v, hv, rfl⟩ := List.mem_map.mp hu
      have hv : v ∈ ((Services.FriendCall.queryFriends userid).exec E.db o.toOutcome w.db).1 := hv
      unfold Services.FriendCall.exec at hv
      dsimp only at hv
      split at hv
      · exact hr _ v hv
      · exact hr none v hv
    | _ => trivial
  | queryMembers groupid =>
    intro u hu
    obtain ⟨v, hv, rfl⟩ := List.mem_map.mp hu
    have hv : v ∈ if read o then Model.GroupModel.queryMembers groupid w.db.group w.db.users else [] := hv
    split at hv
    · obtain ⟨b, -, hv⟩ := List.mem_flatMap.mp hv
      obtain ⟨r, -, rfl⟩ := List.mem_map.mp hv
      rfl
    · cases hv
  | _ => trivial

section Acknowledge

variable [DecidableEq N] {E : RequestHandlers.Engines} {conn : Conn N} {user : User} {msgs : List String}
  {es : List (Event (ServiceCall N) Chance (System N))}

/-- Groups with what the queries for their members have returned. -/
def withMembers (E : RequestHandlers.Engines) : List Group → List (Event (ServiceCall N) Chance (System N)) → List Group
  | group :: groups, e :: es =>
    { group with users := ((ServiceCall.queryMembers group.id).exec E e.outcome e.state).1 } :: withMembers E groups es
  | _, _ => []

def loginOf (E : RequestHandlers.Engines) (conn : Conn N) (user : User) (msgs : List String) :
    List (Event (ServiceCall N) Chance (System N)) → Login N
  | friends :: groups :: es =>
    { conn := conn, user := user, offlineMsgs := msgs,
      friends := ((ServiceCall.friend (.queryFriends user.id)).exec E friends.outcome friends.state).1,
      groups := withMembers E ((ServiceCall.queryGroup user.id).exec E groups.outcome groups.state).1 es }
  | _ => { conn := conn, user := user, offlineMsgs := msgs }

theorem withMembers_append {groups : List Group} (hl : es.length = groups.length)
    (es' : List (Event (ServiceCall N) Chance (System N))) : withMembers E groups (es ++ es') = withMembers E groups es := by
  induction groups generalizing es with
  | nil =>
    rw [List.eq_nil_of_length_eq_zero hl]
    cases es' <;> rfl
  | cons g groups ih =>
    cases es with
    | nil => cases hl
    | cons e es =>
      rw [List.cons_append, withMembers, withMembers, ih (Nat.succ.inj hl)]

theorem path_queryMembers {groups gs : List Group} (hg : ∀ g ∈ groups, IsInt g.id)
    (h : Program.Path (ServiceCall.exec E) es (ChatService.queryMembers groups) (.ret gs)) :
    es.map Event.op = groups.map (fun g => .queryMembers g.id) ∧ gs = withMembers E groups es ∧
      ∀ g ∈ gs, IsInt g.id ∧ ∀ u ∈ g.users, IsInt u.id ∧ u.password = "" := by
  induction groups generalizing es gs with
  | nil =>
    obtain rfl := Program.path_ret h
    cases h
    exact ⟨rfl, rfl, fun g hg => absurd hg List.not_mem_nil⟩
  | cons g groups ih =>
    obtain ⟨o, w, es', rfl, hrest⟩ := Program.path_call h
    obtain ⟨es₁, es₂, rest, rfl, h₁, h₂⟩ := Program.path_bind hrest
    obtain ⟨hops, hgs, htyped⟩ := ih (fun g' hg' => hg g' (List.mem_cons_of_mem g hg')) h₁
    obtain rfl := Program.path_ret h₂
    cases h₂
    have hints := ints_exec E (.queryMembers g.id) o w
    have hblank := blank_exec E (.queryMembers g.id) o w
    rw [List.append_nil]
    refine ⟨congrArg (_ :: ·) hops, by rw [hgs, withMembers], ?_⟩
    intro g' hg'
    obtain rfl | hg' := List.mem_cons.mp hg'
    · exact ⟨hg g List.mem_cons_self, fun u hu => ⟨hints u hu, hblank u hu⟩⟩
    · exact htyped g' hg'

theorem path_acknowledge (hu : IsInt user.id) {r : Ending}
    (h : Program.Path (ServiceCall.exec E) es (acknowledge conn user msgs) (.ret r)) :
    (∃ groups : List Group, es.map Event.op = .friend (.queryFriends user.id) :: .queryGroup user.id ::
      groups.map (fun g => .queryMembers g.id) ++ [.send conn ((loginAck (loginOf E conn user msgs es)).dump ++ "\n")]) ∧
      Typed (loginOf E conn user msgs es) := by
  obtain ⟨o₁, w₁, es', rfl, hrest⟩ := Program.path_call h
  obtain ⟨o₂, w₂, es'', rfl, hmembers⟩ := Program.path_call hrest
  obtain ⟨es₁, es₂, gs, rfl, h₁, h₂⟩ := Program.path_bind hmembers
  obtain ⟨o₃, w₃, es₃, rfl, h₃⟩ := Program.path_call h₂
  obtain rfl := Program.path_ret h₃
  have hfriends := ints_exec E (.friend (.queryFriends user.id)) o₁ w₁
  have hblank := blank_exec E (.friend (.queryFriends user.id)) o₁ w₁
  obtain ⟨hops, hgs, htyped⟩ := path_queryMembers (ints_exec E (.queryGroup user.id) o₂ w₂) h₁
  have hlen : es₁.length = ((ServiceCall.queryGroup user.id).exec E o₂ w₂).1.length := by
    simpa using congrArg List.length hops
  rw [loginOf, withMembers_append hlen, ← hgs]
  refine ⟨⟨((ServiceCall.queryGroup user.id).exec E o₂ w₂).1, ?_⟩, hu, fun u hm => ⟨hfriends u hm, hblank u hm⟩, htyped⟩
  rw [List.map_cons, List.map_cons, List.map_append, hops]
  rfl

end Acknowledge

theorem mapM_map_of_forall {α β : Type} {f : β → Option α} {g : α → β} {xs : List α} (h : ∀ x ∈ xs, f (g x) = some x) :
    (xs.map g).mapM f = some xs := by
  induction xs with
  | nil => rfl
  | cons x xs ih =>
    rw [List.map_cons, List.mapM_cons, h x List.mem_cons_self, ih fun y hy => h y (List.mem_cons_of_mem x hy)]
    rfl

theorem mapM_of_isSome {α β : Type} {f : α → Option β} {xs : List α} (h : ∀ x ∈ xs, (f x).isSome) :
    ∃ ys, xs.mapM f = some ys := by
  induction xs with
  | nil => exact ⟨[], rfl⟩
  | cons x xs ih =>
    obtain ⟨y, hy⟩ := Option.isSome_iff_exists.mp (h x List.mem_cons_self)
    obtain ⟨ys, hys⟩ := ih fun z hz => h z (List.mem_cons_of_mem x hz)
    refine ⟨y :: ys, ?_⟩
    rw [List.mapM_cons, hy, hys]
    rfl

theorem find?_of_nodup {α β : Type} [DecidableEq β] {f : α → β} {xs : List α} (hn : (xs.map f).Nodup) {x : α}
    (hx : x ∈ xs) : xs.find? (fun y => f y = f x) = some x := by
  obtain ⟨y, hy⟩ : ∃ y, xs.find? (fun y => f y = f x) = some y := by
    rw [← Option.isSome_iff_exists, List.find?_isSome]
    exact ⟨x, hx, decide_eq_true rfl⟩
  have hf : f y = f x := by simpa using List.find?_some hy
  rw [hy, List.inj_on_of_nodup_map hn (List.mem_of_find?_eq_some hy) hx hf]

theorem toStrs?_strs (xs : List String) : toStrs? (.strs xs) = some xs :=
  mapM_map_of_forall fun _ _ => rfl

theorem readFriend_friendJson {u : User} (hp : parse (utf8 (friendJson u).dump) = some (friendJson u))
    (hu : IsInt u.id ∧ u.password = "") : readFriend parse (friendJson u).dump = some u := by
  have hw := wrap_of_isInt hu.1
  rw [readFriend, hp]
  obtain ⟨id, name, password, state⟩ := u
  obtain ⟨-, rfl⟩ := hu
  simpa [readInt, readStr, friendJson, Json.get?_mkObj, Json.toInt?, Json.toStr?] using hw

theorem readMember_memberJson {u : GroupUser} (hp : parse (utf8 (memberJson u).dump) = some (memberJson u))
    (hu : IsInt u.id ∧ u.password = "") : readMember parse (memberJson u).dump = some u := by
  have hw := wrap_of_isInt hu.1
  rw [readMember, hp]
  obtain ⟨⟨id, name, password, state⟩, role⟩ := u
  obtain ⟨-, rfl⟩ := hu
  simpa [readInt, readStr, memberJson, Json.get?_mkObj, Json.toInt?, Json.toStr?] using hw

theorem readGroup_groupJson {g : Group} (hp : ∀ j ∈ groupJson g :: g.users.map memberJson, parse (utf8 j.dump) = some j)
    (hi : IsInt g.id) (hu : ∀ u ∈ g.users, IsInt u.id ∧ u.password = "") :
    readGroup parse (groupJson g).dump = some g := by
  have hus : (g.users.map fun u => (memberJson u).dump).mapM (readMember parse) = some g.users :=
    mapM_map_of_forall fun u hm =>
      readMember_memberJson (hp _ (List.mem_cons_of_mem _ (List.mem_map_of_mem hm))) (hu u hm)
  rw [readGroup, hp _ List.mem_cons_self]
  obtain ⟨id, name, desc, users⟩ := g
  simpa [readInt, readStr, groupJson, Json.get?_mkObj, Json.toInt?, Json.toStr?, toStrs?_strs, hus] using wrap_of_isInt hi

theorem get?_loginAck (l : Login N) :
    readInt (loginAck l) "errno" = some 0 ∧ readInt (loginAck l) "id" = some (Json.wrap l.user.id) ∧
      readStr (loginAck l) "name" = some l.user.name ∧
      readStrs (loginAck l) "friends" = some (l.friends.map fun u => (friendJson u).dump) ∧
      readStrs (loginAck l) "groups" = some (l.groups.map fun g => (groupJson g).dump) ∧
      readStrs (loginAck l) "offlinemsg" = some l.offlineMsgs := by
  have hs : ∀ xs, toStrs? (.strs xs) = some xs := toStrs?_strs
  unfold loginAck readInt readStr readStrs
  simp only [Json.mkObj, List.foldl_cons, List.foldl_nil, Json.set_obj]
  by_cases ho : l.offlineMsgs = [] <;> by_cases hf : l.friends = [] <;> by_cases hg : l.groups = [] <;>
    simp [ho, hf, hg, hs, Json.get?, Json.toInt?, Json.toStr?, Json.wrap, Json.find?_setField]

theorem recordLists_loginAck {l : Login N} (hl : Typed l) (hp : ∀ j ∈ parts l, parse (utf8 j.dump) = some j)
    {s : ChatClient} (hf : s.currentUserFriendList = []) (hg : s.currentUserGroupList = []) :
    ∃ t, recordLists parse (loginAck l) s = some t ∧ Holds l t := by
  obtain ⟨-, hid, hname, hfriends, hgroups, -⟩ := get?_loginAck l
  have hfs : (l.friends.map fun u => (friendJson u).dump).mapM (readFriend parse) = some l.friends :=
    mapM_map_of_forall fun u hu =>
      readFriend_friendJson (hp _ (List.mem_append_left _ (List.mem_map_of_mem hu))) (hl.friends u hu)
  have hgs : (l.groups.map fun g => (groupJson g).dump).mapM (readGroup parse) = some l.groups :=
    mapM_map_of_forall fun g hgm => readGroup_groupJson
      (fun j hj => hp j (List.mem_append_right _ (List.mem_flatMap.mpr ⟨g, hgm, hj⟩)))
      (hl.groups g hgm).1 (hl.groups g hgm).2
  rw [wrap_of_isInt hl.user] at hid
  simp only [recordLists, hid, hname, hfriends, hgroups, Option.bind_eq_bind, Option.bind_some, hfs, hgs]
  exact ⟨_, rfl, rfl, rfl, by rw [hf, List.nil_append], by rw [hg, List.nil_append]⟩

/-- A client with empty lists that decodes the response to a login holds its user,
friends and groups with their members; the lists are recorded before the offline
messages are shown. -/
theorem holds_loginAck {l : Login N} (hl : Typed l) (hp : ∀ j ∈ loginAck l :: parts l, parse (utf8 j.dump) = some j)
    {s : ChatClient} (hf : s.currentUserFriendList = []) (hg : s.currentUserGroupList = []) :
    ∃ js t, parse (utf8 (loginAck l).dump) = some js ∧ recordLists parse js s = some t ∧ Holds l t ∧
      ((∀ text ∈ l.offlineMsgs, (replay parse text).isSome) → ∃ u, doLoginResponse parse js s = some u ∧ Holds l u) := by
  obtain ⟨t, ht, hh⟩ := recordLists_loginAck hl (fun j hj => hp j (List.mem_cons_of_mem _ hj)) hf hg
  refine ⟨loginAck l, t, hp _ List.mem_cons_self, ht, hh, fun ho => ?_⟩
  obtain ⟨herrno, -, -, -, -, hoffline⟩ := get?_loginAck l
  obtain ⟨shown, hs⟩ := mapM_of_isSome ho
  refine ⟨{ t.write (showCurrentUesrInfo t) with
    cout := (t.write (showCurrentUesrInfo t)).cout ++ shown.flatten, isLoginSuccess := true }, ?_,
    ⟨hh.id, hh.name, hh.friends, hh.groups⟩⟩
  simp only [doLoginResponse, herrno, showOffline, hoffline, ht, hs, Option.bind_eq_bind, Option.bind_some, if_true]

/-- Whatever the queries of an accepted login return, its response gives a client
with empty lists the user, the friends and the groups with their members. -/
theorem login_data_kept [DecidableEq N] (E : RequestHandlers.Engines) (conn : Conn N) (user : User) (hu : IsInt user.id)
    (msgs : List String) (es : List (Event (ServiceCall N) Chance (System N))) (r : Ending)
    (h : Program.Path (ServiceCall.exec E) es (acknowledge conn user msgs) (.ret r)) :
    (∃ groups : List Group, es.map Event.op = .friend (.queryFriends user.id) :: .queryGroup user.id ::
      groups.map (fun g => .queryMembers g.id) ++ [.send conn ((loginAck (loginOf E conn user msgs es)).dump ++ "\n")]) ∧
    ∀ parse : Bytes → Option Json,
      (∀ j ∈ loginAck (loginOf E conn user msgs es) :: parts (loginOf E conn user msgs es), parse (utf8 j.dump) = some j) →
      ∀ s : ChatClient, s.currentUserFriendList = [] → s.currentUserGroupList = [] →
        ∃ js t, parse (utf8 (loginAck (loginOf E conn user msgs es)).dump) = some js ∧ recordLists parse js s = some t ∧
          Holds (loginOf E conn user msgs es) t ∧ ((∀ text ∈ msgs, (replay parse text).isSome) →
            ∃ u, doLoginResponse parse js s = some u ∧ Holds (loginOf E conn user msgs es) u) := by
  obtain ⟨hops, htyped⟩ := path_acknowledge hu h
  have hmsgs : (loginOf E conn user msgs es).offlineMsgs = msgs := by
    unfold loginOf
    split <;> rfl
  refine ⟨hops, fun parse hp s hf hg => ?_⟩
  obtain ⟨js, t, hj, ht, hh, hshown⟩ := holds_loginAck htyped hp hf hg
  exact ⟨js, t, hj, ht, hh, fun ho => hshown (by rwa [hmsgs])⟩

theorem utf8_dump (j : Json) : utf8 j.dump = j.text.flatMap String.utf8EncodeChar := by
  rw [utf8, Json.dump, String.toList_ofList]

def annaLogin : Login Unit where
  conn := ⟨(), 0⟩
  user := { id := 1, name := "anna", state := "online" }
  friends := [{ id := 2, name := "ben", state := "online" }]
  groups := [{ id := 7, name := "choir", desc := "", users := [{ id := 1, name := "anna", state := "online", role := "normal" },
    { id := 2, name := "ben", state := "online", role := "creator" }] }]

def readAnna (text : Bytes) : Option Json := (loginAck annaLogin :: parts annaLogin).find? fun j => utf8 j.dump = text

theorem readAnna_dump : ∀ j ∈ loginAck annaLogin :: parts annaLogin, readAnna (utf8 j.dump) = some j := by
  have hn : (((loginAck annaLogin :: parts annaLogin).map fun j => utf8 j.dump).map (List.take 24)).Nodup := by
    simp only [utf8_dump]
    decide +kernel
  exact fun j hj => find?_of_nodup (List.Nodup.of_map _ hn) hj

def annaSystem : System Unit where
  db :=
    { users := ⟨[⟨1, "anna", "a", some .online⟩, ⟨2, "ben", "b", some .online⟩], 3, by decide, by decide⟩
      friends := [(1, 2)]
      group := ⟨[⟨7, "choir", some ""⟩], [⟨7, 1, some "normal"⟩, ⟨7, 2, some "creator"⟩]⟩ }

def annaCalls (text : String) : List (Event (ServiceCall Unit) Chance (System Unit)) :=
  [⟨.friend (.queryFriends 1), {}, annaSystem⟩, ⟨.queryGroup 1, {}, annaSystem⟩, ⟨.queryMembers 7, {}, annaSystem⟩,
    ⟨.send ⟨(), 0⟩ text, {}, annaSystem⟩]

def annaEngines : RequestHandlers.Engines := .strict fun a b => a = b

theorem path_anna : ∃ text, Program.Path (ServiceCall.exec annaEngines) (annaCalls text)
    (acknowledge ⟨(), 0⟩ annaLogin.user []) (.ret .returned) := ⟨_, _, rfl, _, rfl, _, rfl, _, rfl, rfl⟩

theorem loginOf_anna (text : String) : loginOf annaEngines ⟨(), 0⟩ annaLogin.user [] (annaCalls text) = annaLogin := by
  have hfriends : ((ServiceCall.friend (.queryFriends 1)).exec annaEngines {} annaSystem).1 = annaLogin.friends := by
    decide +kernel
  have hgroups : withMembers annaEngines ((ServiceCall.queryGroup 1).exec annaEngines {} annaSystem).1
      [⟨.queryMembers 7, {}, annaSystem⟩, ⟨.send ⟨(), 0⟩ text, {}, annaSystem⟩] = annaLogin.groups := by
    have hquery : ((ServiceCall.queryGroup 1).exec annaEngines {} annaSystem).1 = [⟨7, "choir", "", []⟩] := by
      decide +kernel
    have hmembers : ((ServiceCall.queryMembers 7).exec annaEngines {} annaSystem).1 =
        [{ id := 1, name := "anna", state := "online", role := "normal" },
          { id := 2, name := "ben", state := "online", role := "creator" }] := by decide +kernel
    rw [hquery]
    exact congrArg (fun users => [({ id := 7, name := "choir", desc := "", users := users } : Group)]) hmembers
  exact congrArg₂ (fun friends groups => { annaLogin with friends := friends, groups := groups }) hfriends hgroups

theorem login_data_kept_anna : ∃ t, recordLists readAnna (loginAck annaLogin) {} = some t ∧ Holds annaLogin t := by
  obtain ⟨text, hpath⟩ := path_anna
  obtain ⟨-, hdata⟩ := login_data_kept annaEngines ⟨(), 0⟩ annaLogin.user (by decide) [] (annaCalls text) .returned hpath
  rw [loginOf_anna] at hdata
  obtain ⟨js, t, hj, ht, hh, -⟩ := hdata readAnna readAnna_dump {} rfl rfl
  rw [readAnna_dump _ List.mem_cons_self] at hj
  cases hj
  exact ⟨t, ht, hh⟩

end BridgeIM.Client.LoginData
