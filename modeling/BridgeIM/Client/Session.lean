import BridgeIM.Client.Digest

namespace BridgeIM.Client.Session

open Lib Model.UserModel Model.GroupModel Server Server.ChatService Server.Framing LoginData OfflineReplay

/-- Where the main thread stands: at the front menu, in `sem_wait` after a login
or a register request, or in `mainMenu`. -/
inductive Place
  | choice
  | login
  | reg
  | mainMenu
  deriving DecidableEq, Repr

/-- The two threads of a client: `waits` counts the calls of `sem_wait` that have
returned, and `sent` holds the requests that have been sent. -/
structure Process where
  place : Place := .choice
  waits : Nat := 0
  client : ChatClient := {}
  sent : List Json := []

/-- What the user does at the menus, each with what `send` returned; the return
of `sem_wait`; and a message that the receiving thread takes. -/
inductive Move
  | login (name pwd : String) (sent : Bool)
  | reg (name pwd : String) (sent : Bool)
  | loginout (sent : Bool)
  | wake
  | message (message : Bytes)
  deriving DecidableEq, Repr

def Process.send (request : Json) (sent : Bool) (s : Process) : Process :=
  if sent then { s with sent := s.sent ++ [request] } else s

variable (parse : Bytes → Option Json)

def step (s : Process) : Move → Option Process
  | .login name pwd sent =>
    if s.place = .choice then some { s.send (Requests.login name pwd) sent with place := .login } else none
  | .reg name pwd sent =>
    if s.place = .choice then some { s.send (Requests.reg name pwd) sent with place := .reg } else none
  | .loginout sent =>
    if s.place = .mainMenu then
      some { s.send (Requests.loginout s.client.currentUser) sent with place := if sent then .choice else .mainMenu }
    else none
  | .wake =>
    if s.waits < s.client.posts then
      match s.place with
      | .login =>
        some { s with waits := s.waits + 1, place := if s.client.isLoginSuccess then .mainMenu else .choice }
      | .reg => some { s with waits := s.waits + 1, place := .choice }
      | .choice | .mainMenu => none
    else none
  | .message message => (onMessage parse message s.client).map fun client => { s with client := client }

def process : Machine Process Move := ⟨step parse⟩

structure Accepted (message : Bytes) (js : Json) : Prop where
  nonempty : message ≠ []
  parsed : parse message = some js
  msgid : readInt js "msgid" = some EnMsgType.logMsgAck.code
  errno : readInt js "errno" = some 0

def held (s : ChatClient) : User × List User × List Group :=
  (s.currentUser, s.currentUserFriendList, s.currentUserGroupList)

/-- The client holds what a fresh client holds after the response. -/
def Own (js : Json) (s : ChatClient) : Prop := (recordLists parse js {}).map held = some (held s)

def Carrying (message : Bytes) : Prop :=
  ∃ js, Accepted parse message js ∧ (readStrs js "friends" ≠ some [] ∨ readStrs js "groups" ≠ some [])

/-- No login response of the history carried a friend or a group. -/
def Bare (as : List Move) : Prop := ∀ message, .message message ∈ as → ¬ Carrying parse message

variable {parse} {js : Json} {s t : ChatClient}

theorem recordLists_cases (h : recordLists parse js s = some t) : ∃ id name friends groups friends' groups',
    readInt js "id" = some id ∧ readStr js "name" = some name ∧ readStrs js "friends" = some friends ∧
    friends.mapM (readFriend parse) = some friends' ∧ readStrs js "groups" = some groups ∧
    groups.mapM (readGroup parse) = some groups' ∧
    held t = (⟨id, name, s.currentUser.password, s.currentUser.state⟩, s.currentUserFriendList ++ friends',
      s.currentUserGroupList ++ groups') := by
  unfold recordLists at h
  obtain ⟨id, hid, h⟩ := Option.bind_eq_some_iff.mp h
  obtain ⟨name, hname, h⟩ := Option.bind_eq_some_iff.mp h
  obtain ⟨friends, hfriends, h⟩ := Option.bind_eq_some_iff.mp h
  obtain ⟨friends', hfriends', h⟩ := Option.bind_eq_some_iff.mp h
  obtain ⟨groups, hgroups, h⟩ := Option.bind_eq_some_iff.mp h
  obtain ⟨groups', hgroups', h⟩ := Option.bind_eq_some_iff.mp h
  cases h
  exact ⟨id, name, friends, groups, friends', groups', hid, hname, hfriends, hfriends', hgroups, hgroups', rfl⟩

theorem doLoginResponse_cases (h : doLoginResponse parse js s = some t) :
    (readInt js "errno" = some 0 ∧ ∃ u, recordLists parse js s = some u ∧ held t = held u) ∨
    (readInt js "errno" ≠ some 0 ∧ held t = held s) := by
  unfold doLoginResponse at h
  obtain ⟨errno, herrno, h⟩ := Option.bind_eq_some_iff.mp h
  split at h
  · rename_i he
    obtain ⟨u, hu, h⟩ := Option.bind_eq_some_iff.mp h
    obtain ⟨v, hv, h⟩ := Option.bind_eq_some_iff.mp h
    obtain ⟨offlinemsg, -, hv⟩ := Option.bind_eq_some_iff.mp hv
    obtain ⟨shown, -, hv⟩ := Option.bind_eq_some_iff.mp hv
    cases hv
    cases h
    exact Or.inl ⟨he ▸ herrno, u, hu, rfl⟩
  · rename_i he
    cases h
    refine Or.inr ⟨?_, rfl⟩
    rw [herrno]
    exact fun h => he (Option.some.inj h)

/-- A message that is no login response only writes to `std::cout` and may post `rwsem`. -/
theorem dispatch_inv (h : dispatch parse js s = some t) :
    (readInt js "msgid" = some EnMsgType.logMsgAck.code ∧
      ∃ u, doLoginResponse parse js s = some u ∧ t = { u with posts := u.posts + 1 }) ∨
    (readInt js "msgid" ≠ some EnMsgType.logMsgAck.code ∧ ∃ cout posts, t = { s with cout := cout, posts := posts }) := by
  unfold dispatch at h
  obtain ⟨msgid, hmsgid, h⟩ := Option.bind_eq_some_iff.mp h
  rw [hmsgid]
  by_cases hm : msgid = EnMsgType.logMsgAck.code
  · subst hm
    obtain ⟨u, hu, h⟩ := Option.bind_eq_some_iff.mp h
    cases h
    exact Or.inl ⟨rfl, u, hu, rfl⟩
  · refine Or.inr ⟨fun h => hm (Option.some.inj h), ?_⟩
    have hwrite {α : Type} {o : Option α} {f : α → String} (h : (o.bind fun x => some (s.write (f x))) = some t) :
        ∃ cout posts, t = { s with cout := cout, posts := posts } := by
      obtain ⟨x, -, hx⟩ := Option.bind_eq_some_iff.mp h
      cases hx
      exact ⟨_, _, rfl⟩
    split at h
    · exact hwrite h
    split at h
    · exact hwrite h
    split at h
    · exact hwrite h
    split at h
    · exact hwrite h
    split at h
    · exact hwrite h
    split at h
    · obtain ⟨userid, -, h⟩ := Option.bind_eq_some_iff.mp h
      exact hwrite h
    split at h
    · exact hwrite h
    split at h
    · exact hwrite h
    split at h
    · obtain ⟨u, hu, h⟩ := Option.bind_eq_some_iff.mp h
      cases h
      unfold doRegResponse at hu
      obtain ⟨errno, -, hu⟩ := Option.bind_eq_some_iff.mp hu
      split at hu
      · cases hu
        exact ⟨_, _, rfl⟩
      · obtain ⟨id, -, hu⟩ := Option.bind_eq_some_iff.mp hu
        cases hu
        exact ⟨_, _, rfl⟩
    · cases h
      exact ⟨_, _, rfl⟩

/-- Only a login response changes what the client holds. -/
theorem dispatch_cases (h : dispatch parse js s = some t) :
    (readInt js "msgid" = some EnMsgType.logMsgAck.code ∧ readInt js "errno" = some 0 ∧
      ∃ u, recordLists parse js s = some u ∧ held t = held u) ∨
    (¬ (readInt js "msgid" = some EnMsgType.logMsgAck.code ∧ readInt js "errno" = some 0) ∧ held t = held s) := by
  obtain ⟨hm, u, hu, rfl⟩ | ⟨hm, cout, posts, rfl⟩ := dispatch_inv h
  · obtain ⟨he, v, hv, hh⟩ | ⟨he, hh⟩ := doLoginResponse_cases hu
    · exact Or.inl ⟨hm, he, v, hv, hh⟩
    · exact Or.inr ⟨fun h => he h.2, hh⟩
  · exact Or.inr ⟨fun h => hm h.1, rfl⟩

theorem onMessage_cases {message : Bytes} (h : onMessage parse message s = some t) :
    (∃ js, Accepted parse message js ∧ ∃ u, recordLists parse js s = some u ∧ held t = held u) ∨
    ((∀ js, ¬ Accepted parse message js) ∧ held t = held s) := by
  unfold onMessage at h
  split at h
  · rename_i hnil
    cases h
    exact Or.inr ⟨fun js ha => ha.nonempty hnil, rfl⟩
  rename_i hne
  split at h
  · rename_i hp
    cases h
    refine Or.inr ⟨fun js ha => ?_, rfl⟩
    have hj := ha.parsed
    rw [hp] at hj
    cases hj
  · rename_i js hp
    obtain ⟨hm, he, hu⟩ | ⟨hn, hh⟩ := dispatch_cases h
    · exact Or.inl ⟨js, ⟨hne, hp, hm, he⟩, hu⟩
    · refine Or.inr ⟨fun js' ha => hn ?_, hh⟩
      have hj := ha.parsed
      rw [hp] at hj
      cases hj
      exact ⟨ha.msgid, ha.errno⟩

theorem mapM_eq_nil {α β : Type} {f : α → Option β} {xs : List α} {ys : List β} (h : xs.mapM f = some ys) :
    ys = [] ↔ xs = [] := by
  cases xs with
  | nil =>
    rw [List.mapM_nil] at h
    cases h
    exact iff_of_true rfl rfl
  | cons x xs =>
    rw [List.mapM_cons] at h
    obtain ⟨y, -, h⟩ := Option.bind_eq_some_iff.mp h
    obtain ⟨ys', -, h⟩ := Option.bind_eq_some_iff.mp h
    cases h
    exact iff_of_false (List.cons_ne_nil _ _) (List.cons_ne_nil _ _)

def Empty (s : ChatClient) : Prop := s.currentUserFriendList = [] ∧ s.currentUserGroupList = []

theorem empty_of_held (h : held t = held s) : Empty t ↔ Empty s := by
  obtain ⟨-, h⟩ := Prod.mk.inj h
  obtain ⟨hf, hg⟩ := Prod.mk.inj h
  rw [Empty, hf, hg, Empty]

/-- After a login response the lists are empty only if they were before, and the
response carried nothing. -/
theorem empty_iff {message : Bytes} (ha : Accepted parse message js) (h : recordLists parse js s = some t) :
    Empty t ↔ Empty s ∧ ¬ Carrying parse message := by
  obtain ⟨id, name, friends, groups, friends', groups', -, -, hf, hf', hg, hg', hh⟩ := recordLists_cases h
  obtain ⟨-, hh⟩ := Prod.mk.inj hh
  obtain ⟨hfriends, hgroups⟩ := Prod.mk.inj hh
  have hc : Carrying parse message ↔ ¬ (friends = [] ∧ groups = []) := by
    have hp : Carrying parse message ↔ readStrs js "friends" ≠ some [] ∨ readStrs js "groups" ≠ some [] := by
      refine ⟨fun ⟨js', ha', h⟩ => ?_, fun h => ⟨js, ha, h⟩⟩
      cases ha.parsed.symm.trans ha'.parsed
      exact h
    rw [hp, hf, hg, ne_eq, ne_eq, Option.some_inj, Option.some_inj, not_and_or]
  rw [Empty, hfriends, hgroups, List.append_eq_nil_iff, List.append_eq_nil_iff, mapM_eq_nil hf', mapM_eq_nil hg', hc,
    not_not, Empty]
  exact and_and_and_comm

theorem own_iff (hp : s.currentUser.password = "" ∧ s.currentUser.state = "offline")
    (h : recordLists parse js s = some t) : Own parse js t ↔ Empty s := by
  obtain ⟨id, name, friends, groups, friends', groups', hid, hname, hf, hf', hg, hg', hh⟩ := recordLists_cases h
  have hfresh : (recordLists parse js {}).map held = some (⟨id, name, "", "offline"⟩, friends', groups') := by
    simp only [recordLists, hid, hname, hf, hf', hg, hg', Option.bind_eq_bind, Option.bind_some, Option.map_some]
    rfl
  rw [Own, hfresh, hh, hp.1, hp.2, Option.some_inj, Prod.mk.injEq, Prod.mk.injEq, List.self_eq_append_left,
    List.self_eq_append_left, Empty]
  exact and_iff_right rfl

/-- What a history leaves in the client. -/
structure Left (parse : Bytes → Option Json) (as : List Move) (s : Process) : Prop where
  rest : s.client.currentUser.password = "" ∧ s.client.currentUser.state = "offline"
  empty : Empty s.client ↔ Bare parse as

theorem bare_concat {as : List Move} {a : Move} :
    Bare parse (as ++ [a]) ↔ Bare parse as ∧ ∀ message, a = .message message → ¬ Carrying parse message := by
  refine ⟨fun h => ⟨fun m hm => h m (List.mem_append_left _ hm), fun m ha => h m ?_⟩, fun ⟨h, ha⟩ m hm => ?_⟩
  · rw [ha]
    exact List.mem_append_right _ List.mem_cons_self
  · obtain hm | hm := List.mem_append.mp hm
    · exact h m hm
    · exact ha m (List.mem_singleton.mp hm).symm

theorem bare_concat_of_ne {as : List Move} {a : Move} (h : ∀ message, a ≠ .message message) :
    Bare parse (as ++ [a]) ↔ Bare parse as := by
  rw [bare_concat]
  exact and_iff_left fun m ha => absurd ha (h m)

variable {p q : Process}

theorem held_send (request : Json) (sent : Bool) : (p.send request sent).client = p.client := by
  cases sent with
  | true => rfl
  | false => rfl

theorem step_message {message : Bytes} (h : (process parse).step p (.message message) = some q) :
    onMessage parse message p.client = some q.client := by
  obtain ⟨client, hc, rfl⟩ := Option.map_eq_some_iff.mp h
  exact hc

theorem step_client {a : Move} (ha : ∀ message, a ≠ .message message) (h : (process parse).step p a = some q) :
    q.client = p.client := by
  cases a with
  | login name pwd sent | reg name pwd sent | loginout sent =>
    obtain ⟨-, h⟩ := Option.ite_none_right_eq_some.mp h
    cases h
    exact held_send _ sent
  | wake =>
    obtain ⟨-, h⟩ := Option.ite_none_right_eq_some.mp h
    split at h
    · cases h
      rfl
    · cases h
      rfl
    · cases h
    · cases h
  | message m => exact absurd rfl (ha m)

theorem left_step {as : List Move} {a : Move} (hl : Left parse as p) (h : (process parse).step p a = some q) :
    Left parse (as ++ [a]) q := by
  by_cases ha : ∃ message, a = .message message
  · obtain ⟨message, rfl⟩ := ha
    have hb : Bare parse (as ++ [.message message]) ↔ Bare parse as ∧ ¬ Carrying parse message := by
      rw [bare_concat]
      exact and_congr_right fun _ => ⟨fun h => h message rfl, fun h m hm => by cases hm; exact h⟩
    obtain ⟨js, ha, u, hu, hh⟩ | ⟨hn, hh⟩ := onMessage_cases (step_message h)
    · obtain ⟨id, name, _, _, _, _, _, _, _, _, _, _, hu'⟩ := recordLists_cases hu
      refine ⟨?_, ?_⟩
      · rw [(Prod.mk.inj (hh.trans hu')).1]
        exact hl.rest
      · rw [empty_of_held hh, empty_iff ha hu, hl.empty, hb]
    · refine ⟨?_, ?_⟩
      · rw [(Prod.mk.inj hh).1]
        exact hl.rest
      · rw [empty_of_held hh, hl.empty, hb]
        exact (and_iff_left fun ⟨js, ha, _⟩ => hn js ha).symm
  · have hne : ∀ message, a ≠ .message message := fun m hm => ha ⟨m, hm⟩
    have hc := step_client hne h
    refine ⟨?_, ?_⟩
    · rw [hc]
      exact hl.rest
    · rw [hc, bare_concat_of_ne hne]
      exact hl.empty

theorem left_run {as : List Move} (h : (process parse).run {} as = some p) : Left parse as p := by
  refine Machine.reached_induction (P := Left parse) ?_ (fun _ _ _ _ _ hl hs => left_step hl hs) h
  exact ⟨⟨rfl, rfl⟩, ⟨fun _ m hm => absurd hm List.not_mem_nil, fun _ => ⟨rfl, rfl⟩⟩⟩

theorem own_after {as : List Move} {message : Bytes} (ha : Accepted parse message js)
    (h : (process parse).run {} (as ++ [.message message]) = some q) : Own parse js q.client ↔ Bare parse as := by
  rw [Machine.run_append] at h
  obtain ⟨p, hp, h⟩ := Option.bind_eq_some_iff.mp h
  obtain ⟨q', hs, h⟩ := Machine.run_cons_eq_some.mp h
  cases h
  have hl := left_run hp
  obtain ⟨js', ha', u, hu, hh⟩ | ⟨hn, -⟩ := onMessage_cases (step_message hs)
  · cases ha.parsed.symm.trans ha'.parsed
    rw [Own, hh, ← Own, own_iff hl.rest hu]
    exact hl.empty
  · exact absurd ha (hn js)

/-- Two clients that decode one login response hold what it carries, and so the
same, just when no earlier login response of either carried a friend or a group. -/
theorem session_fresh (parse : Bytes → Option Json) (as bs : List Move) (message : Bytes) (js : Json)
    (ha : Accepted parse message js) (p q : Process) (hp : (process parse).run {} (as ++ [.message message]) = some p)
    (hq : (process parse).run {} (bs ++ [.message message]) = some q) :
    (held p.client = held q.client ∧ Own parse js p.client ∧ Own parse js q.client) ↔ Bare parse as ∧ Bare parse bs := by
  rw [← own_after ha hp, ← own_after ha hq]
  exact and_iff_right_of_imp fun ⟨hp, hq⟩ => Option.some.inj (hp.symm.trans hq)

/-! Two logins in one client. -/

theorem accepted_taken {message : Bytes} (ha : Accepted parse message js) {u : ChatClient}
    (hu : recordLists parse js {} = some u) (ho : readStrs js "offlinemsg" = some []) (s : ChatClient) :
    ∃ t, onMessage parse message s = some t ∧ t.isLoginSuccess = true ∧ t.posts = s.posts + 1 := by
  obtain ⟨id, name, friends, groups, friends', groups', hid, hname, hf, hf', hg, hg', -⟩ := recordLists_cases hu
  have hl : ∃ t, doLoginResponse parse js s = some t ∧ t.isLoginSuccess = true ∧ t.posts = s.posts := by
    simp only [doLoginResponse, ha.errno, recordLists, showOffline, hid, hname, hf, hf', hg, hg', ho, List.mapM_nil,
      Option.bind_eq_bind, Option.bind_some, if_true]
    exact ⟨_, rfl, rfl, rfl⟩
  obtain ⟨t, ht, hs, hp⟩ := hl
  refine ⟨{ t with posts := t.posts + 1 }, ?_, hs, congrArg (· + 1) hp⟩
  unfold onMessage
  rw [if_neg ha.nonempty]
  simp [ha.parsed, dispatch, ha.msgid, ht, EnMsgType.code]

theorem login_run {message : Bytes} (hp : p.place = .choice) (name pwd : String)
    (ht : ∃ t, onMessage parse message p.client = some t ∧ t.isLoginSuccess = true ∧ t.posts = p.client.posts + 1) :
    ∃ q, (process parse).run p [.login name pwd true, .message message] = some q ∧ q.place = .login ∧
      q.waits = p.waits ∧ q.client.isLoginSuccess = true ∧ q.client.posts = p.client.posts + 1 := by
  obtain ⟨t, ht, hs, hposts⟩ := ht
  refine ⟨{ p.send (Requests.login name pwd) true with place := .login, client := t }, ?_, rfl, rfl, hs, hposts⟩
  simp [Machine.run, process, step, hp, Process.send, ht]

theorem loginout_run (hp : p.place = .login) (hs : p.client.isLoginSuccess = true) (hw : p.waits < p.client.posts) :
    ∃ q, (process parse).run p [.wake, .loginout true] = some q ∧ q.place = .choice ∧ q.client = p.client := by
  refine ⟨{ ({ p with waits := p.waits + 1 } : Process).send (Requests.loginout p.client.currentUser) true with
    place := .choice }, ?_, rfl, rfl⟩
  simp [Machine.run, process, step, hp, hs, hw, Process.send]

def carlLogin : Login Unit where
  conn := ⟨(), 0⟩
  user := { id := 3, name := "carl", state := "online" }

def readBoth (text : Bytes) : Option Json :=
  (loginAck carlLogin :: loginAck annaLogin :: parts annaLogin).find? fun j => utf8 j.dump = text

theorem readBoth_dump : ∀ j ∈ loginAck carlLogin :: loginAck annaLogin :: parts annaLogin,
    readBoth (utf8 j.dump) = some j := by
  have hn : (((loginAck carlLogin :: loginAck annaLogin :: parts annaLogin).map fun j => utf8 j.dump).map
      (List.take 48)).Nodup := by
    simp only [utf8_dump]
    decide +kernel
  exact fun j hj => find?_of_nodup (List.Nodup.of_map _ hn) hj

theorem accepted_loginAck {l : Login Unit} (hl : Typed l) (hj : loginAck l ∈ [loginAck carlLogin, loginAck annaLogin]) :
    Accepted readBoth (utf8 (loginAck l).dump) (loginAck l) := by
  refine ⟨utf8_dump_ne_nil (Digest.flat_loginAck hl.user), readBoth_dump _ (List.mem_append_left (parts annaLogin) hj),
    Digest.msgid_loginAck l, ?_⟩
  obtain ⟨herrno, -⟩ := get?_loginAck l
  exact herrno

def loginMoves (l : Login Unit) : List Move := [.login l.user.name "pw" true, .message (utf8 (loginAck l).dump)]

theorem taken_loginAck {l : Login Unit} (hl : Typed l) (hj : loginAck l ∈ [loginAck carlLogin, loginAck annaLogin])
    (hp : ∀ j ∈ parts l, readBoth (utf8 j.dump) = some j) (ho : l.offlineMsgs = []) (s : ChatClient) :
    ∃ t, onMessage readBoth (utf8 (loginAck l).dump) s = some t ∧ t.isLoginSuccess = true ∧ t.posts = s.posts + 1 := by
  obtain ⟨u, hu, -⟩ := recordLists_loginAck hl hp (s := {}) rfl rfl
  obtain ⟨-, -, -, -, -, hoffline⟩ := get?_loginAck l
  exact accepted_taken (accepted_loginAck hl hj) hu (hoffline.trans (congrArg some ho)) s

theorem taken_carl (s : ChatClient) : ∃ t, onMessage readBoth (utf8 (loginAck carlLogin).dump) s = some t ∧
    t.isLoginSuccess = true ∧ t.posts = s.posts + 1 :=
  taken_loginAck ⟨by decide, by decide, by decide⟩ List.mem_cons_self (fun _ hj => absurd hj List.not_mem_nil) rfl s

theorem taken_anna (s : ChatClient) : ∃ t, onMessage readBoth (utf8 (loginAck annaLogin).dump) s = some t ∧
    t.isLoginSuccess = true ∧ t.posts = s.posts + 1 :=
  taken_loginAck ⟨by decide, by decide, by decide⟩ (List.mem_cons_of_mem _ List.mem_cons_self)
    (fun j hj => readBoth_dump j (List.mem_cons_of_mem _ (List.mem_cons_of_mem _ hj))) rfl s

def before (l : Login Unit) : List Move := loginMoves l ++ [.wake, .loginout true, .login "carl" "pw" true]

theorem before_run {l : Login Unit} (h : ∀ s, ∃ t, onMessage readBoth (utf8 (loginAck l).dump) s = some t ∧
    t.isLoginSuccess = true ∧ t.posts = s.posts + 1) :
    ∃ q, (process readBoth).run {} (before l ++ [.message (utf8 (loginAck carlLogin).dump)]) = some q := by
  obtain ⟨p, hp, hplace, hwaits, hs, hposts⟩ := login_run (p := {}) rfl l.user.name "pw" (h _)
  have hlt : p.waits < p.client.posts := by
    rw [hwaits, hposts]
    exact Nat.lt_succ_self 0
  obtain ⟨q, hq, hchoice, -⟩ : ∃ q, (process readBoth).run p [.wake, .loginout true] = some q ∧ q.place = .choice ∧
      q.client = p.client := loginout_run hplace hs hlt
  obtain ⟨r, hr, -⟩ := login_run hchoice "carl" "pw" (taken_carl _)
  have hm : before l ++ [.message (utf8 (loginAck carlLogin).dump)] =
      loginMoves l ++ ([.wake, .loginout true] ++ loginMoves carlLogin) := List.append_assoc _ _ _
  refine ⟨r, ?_⟩
  rw [hm, Machine.run_append, loginMoves, hp, Option.bind_some, Machine.run_append, hq]
  exact hr

theorem accepted_carl : Accepted readBoth (utf8 (loginAck carlLogin).dump) (loginAck carlLogin) :=
  accepted_loginAck ⟨by decide, by decide, by decide⟩ List.mem_cons_self

theorem carrying_loginAck {l : Login Unit} (ha : Accepted readBoth (utf8 (loginAck l).dump) (loginAck l)) :
    Carrying readBoth (utf8 (loginAck l).dump) ↔ ¬ (l.friends = [] ∧ l.groups = []) := by
  obtain ⟨-, -, -, hf, hg, -⟩ := get?_loginAck l
  have hc : Carrying readBoth (utf8 (loginAck l).dump) ↔
      readStrs (loginAck l) "friends" ≠ some [] ∨ readStrs (loginAck l) "groups" ≠ some [] := by
    refine ⟨fun ⟨js, ha', h⟩ => ?_, fun h => ⟨_, ha, h⟩⟩
    cases ha.parsed.symm.trans ha'.parsed
    exact h
  rw [hc, hf, hg, ne_eq, ne_eq, Option.some_inj, Option.some_inj, List.map_eq_nil_iff, List.map_eq_nil_iff, not_and_or]

/-- The second login of carl leaves what the first one of another client does. -/
theorem session_fresh_carl : ∃ p q,
    (process readBoth).run {} (before carlLogin ++ [.message (utf8 (loginAck carlLogin).dump)]) = some p ∧
    (process readBoth).run {} ([.login "carl" "pw" true] ++ [.message (utf8 (loginAck carlLogin).dump)]) = some q ∧
    held p.client = held q.client := by
  obtain ⟨p, hp⟩ := before_run taken_carl
  obtain ⟨q, hq, -⟩ := login_run (p := {}) rfl "carl" "pw" (taken_carl _)
  have hn : ¬ Carrying readBoth (utf8 (loginAck carlLogin).dump) :=
    fun h => (carrying_loginAck accepted_carl).mp h ⟨rfl, rfl⟩
  have h := session_fresh readBoth _ [.login "carl" "pw" true] _ _ accepted_carl p q hp hq
  refine ⟨p, q, hp, hq, (h.mpr ⟨fun m hm => ?_, fun m hm => ?_⟩).1⟩
  · simp only [before, loginMoves, List.mem_append, List.mem_cons, List.not_mem_nil, or_false, reduceCtorEq, false_or,
      Move.message.injEq] at hm
    rw [hm]
    exact hn
  · simp only [List.mem_cons, List.not_mem_nil, or_false, reduceCtorEq] at hm

/-- After a session of anna, the client of carl still has her friend and her
group. -/
theorem session_inherited : ¬ ∀ (parse : Bytes → Option Json) (as bs : List Move) (message : Bytes) (js : Json),
    Accepted parse message js → ∀ p q : Process, (process parse).run {} (as ++ [.message message]) = some p →
    (process parse).run {} (bs ++ [.message message]) = some q →
    held p.client = held q.client ∧ Own parse js p.client ∧ Own parse js q.client := by
  intro h
  obtain ⟨p, hp⟩ := before_run taken_anna
  obtain ⟨-, ho, -⟩ := h readBoth _ _ _ _ accepted_carl p p hp hp
  have ha : Accepted readBoth (utf8 (loginAck annaLogin).dump) (loginAck annaLogin) :=
    accepted_loginAck ⟨by decide, by decide, by decide⟩ (List.mem_cons_of_mem _ List.mem_cons_self)
  refine (own_after accepted_carl hp).mp ho _ ?_ ((carrying_loginAck ha).mpr fun h => by cases h.1)
  exact List.mem_append_left _ (List.mem_cons_of_mem _ List.mem_cons_self)

end BridgeIM.Client.Session
