import BridgeIM.Model.FriendModel
import BridgeIM.Model.GroupModel
import BridgeIM.Services.Models

namespace BridgeIM.Model.Database

open CString Lib Lib.SqlText Db UserModel GroupModel Requests Services

/-- The tables of friends and groups with their requests, and the clock of the server. -/
structure Tables where
  users : UserModel.Table
  friends : FriendModel.Table := []
  group : GroupModel.Table := {}
  nextGroupId : Int := 1
  requests : Kind → Requests.Table := fun _ => ∅
  now : Int := 0

/-- The column type `ENUM('creator', 'normal')`. -/
inductive Role
  | creator | normal
  deriving DecidableEq, Repr

def Role.text : Role → String
  | creator => "creator"
  | normal => "normal"

def Role.ofText (s : String) : Option Role :=
  if s = "creator" then some creator else if s = "normal" then some normal else none

@[simp] theorem Role.ofText_text (role : Role) : ofText role.text = some role := by cases role <;> decide

inductive Update
  | insertFriend (k : Int × Int)
  | insertGroup (name desc : String)
  | insertMember (groupid userid : Int) (role : Role)
  | insertRequest (c : Kind) (k : Int × Int)
  | setStatus (c : Kind) (k : Int × Int) (s : Status)
  deriving DecidableEq

inductive Query
  | user (id : Int)
  | friend (k : Int × Int)
  | friends (userid : Int)
  | groupName (name : String)
  | groupId (groupid : Int)
  | member (groupid userid : Int)
  | owner (groupid : Int)
  | status (c : Kind) (k : Int × Int)
  deriving DecidableEq

namespace Tables

def tick (now : Int) (d : Tables) : Tables := { d with now := now }

def insertFriend (k : Int × Int) (d : Tables) : Option Tables :=
  if IsInt k.1 ∧ IsInt k.2 ∧ k ∉ d.friends then some { d with friends := d.friends ++ [k] } else none

/-- A new group with the id `id`. Its name is unique under the collation of the table.
A text that does not fit its column is refused, also one that exceeds it by spaces
at its end, which MySQL cuts off. -/
def insertGroup (same : String → String → Bool) (id : Int) (name desc : String) (d : Tables) : Option Tables :=
  if 0 < id ∧ d.nextGroupId ≤ id ∧ id < 2147483648 ∧ name.length ≤ 50 ∧ desc.length ≤ 200 ∧
      (d.group.groups.all fun g => !same g.groupname name) = true then
    some { d with group := { d.group with groups := d.group.groups ++ [⟨id, name, some desc⟩] }, nextGroupId := id + 1 }
  else none

def insertMember (groupid userid : Int) (role : Role) (d : Tables) : Option Tables :=
  if IsInt groupid ∧ IsInt userid ∧ (d.group.members.all fun b => !(b.groupid = groupid && b.userid = userid)) = true then
    some { d with group := { d.group with members := d.group.members ++ [⟨groupid, userid, some role.text⟩] } }
  else none

def setRequests (c : Kind) (t : Requests.Table) (d : Tables) : Tables :=
  { d with requests := Function.update d.requests c t }

variable (now : Int) (c : Kind) (t : Requests.Table) (k : Int × Int) (d : Tables)

@[simp] theorem tick_users : (d.tick now).users = d.users := rfl
@[simp] theorem tick_friends : (d.tick now).friends = d.friends := rfl
@[simp] theorem tick_group : (d.tick now).group = d.group := rfl
@[simp] theorem tick_requests : (d.tick now).requests = d.requests := rfl
@[simp] theorem tick_now : (d.tick now).now = now := rfl
@[simp] theorem setRequests_users : (d.setRequests c t).users = d.users := rfl
@[simp] theorem setRequests_friends : (d.setRequests c t).friends = d.friends := rfl
@[simp] theorem setRequests_group : (d.setRequests c t).group = d.group := rfl
@[simp] theorem setRequests_self : (d.setRequests c t).requests c = t := Function.update_self ..

theorem setRequests_ne {c c' : Kind} (h : c' ≠ c) : (d.setRequests c t).requests c' = d.requests c' :=
  Function.update_of_ne h ..

def areFriends (k : Int × Int) (d : Tables) : Bool := decide (k ∈ d.friends)

/-- The friends of a user, as the code sees them. -/
def friendsOf (userid : Int) (d : Tables) : List User :=
  (d.friends.filter fun f => f.1 = userid).flatMap fun f =>
    (d.users.rows.filter fun r => r.id = f.2).map fun r =>
      { id := r.id, name := getString r.row 1, state := getString r.row 3 }

def addFriend (k : Int × Int) (d : Tables) : Tables := (d.insertFriend k).getD d

@[simp] theorem addFriend_users : (d.addFriend k).users = d.users := by
  rw [addFriend, insertFriend]
  split <;> rfl

@[simp] theorem addFriend_requests : (d.addFriend k).requests = d.requests := by
  rw [addFriend, insertFriend]
  split <;> rfl

@[simp] theorem addFriend_group : (d.addFriend k).group = d.group := by
  rw [addFriend, insertFriend]
  split <;> rfl

theorem mem_addFriend {k : Int × Int} (h₁ : IsInt k.1) (h₂ : IsInt k.2) (x : Int × Int) :
    x ∈ (d.addFriend k).friends ↔ x ∈ d.friends ∨ x = k := by
  rw [addFriend, insertFriend]
  by_cases hm : k ∈ d.friends
  · rw [if_neg fun h => h.2.2 hm]
    exact ⟨Or.inl, fun h => h.elim id fun he => he ▸ hm⟩
  · rw [if_pos ⟨h₁, h₂, hm⟩, Option.getD_some, List.mem_append, List.mem_singleton]

def addMember (groupid userid : Int) (role : Role) (d : Tables) : Tables :=
  (d.insertMember groupid userid role).getD d

@[simp] theorem addMember_requests (groupid userid : Int) (role : Role) :
    (d.addMember groupid userid role).requests = d.requests := by
  rw [addMember, insertMember]
  split <;> rfl

def addRequest (c : Kind) (k : Int × Int) (d : Tables) : Tables :=
  ((d.requests c).insertPending k).elim d fun t => d.setRequests c t

variable {c k d t} in
theorem addRequest_of_some (h : (d.requests c).insertPending k = some t) : d.addRequest c k = d.setRequests c t := by
  rw [addRequest, h, Option.elim_some]

variable {c k d} in
theorem addRequest_of_none (h : (d.requests c).insertPending k = none) : d.addRequest c k = d := by
  rw [addRequest, h, Option.elim_none]

@[simp] theorem addRequest_users : (d.addRequest c k).users = d.users := by
  rw [addRequest]
  cases (d.requests c).insertPending k <;> rfl

@[simp] theorem addRequest_friends : (d.addRequest c k).friends = d.friends := by
  rw [addRequest]
  cases (d.requests c).insertPending k <;> rfl

@[simp] theorem addRequest_group : (d.addRequest c k).group = d.group := by
  rw [addRequest]
  cases (d.requests c).insertPending k <;> rfl

end Tables

def Update.apply (same : String → String → Bool) (id : Int) : Update → Tables → Option Tables
  | insertFriend k, d => d.insertFriend k
  | insertGroup name desc, d => d.insertGroup same id name desc
  | insertMember groupid userid role, d => d.insertMember groupid userid role
  | insertRequest c k, d => ((d.requests c).insertPending k).map fun t => d.setRequests c t
  | setStatus c k s, d => some (d.setRequests c ((d.requests c).setStatus k s d.now))

def Query.rows (same : String → String → Bool) : Query → Tables → List Row
  | user id, d => (d.users.rows.filter fun r => r.id = id).map Record.row
  | friend k, d => (d.friends.filter fun f => f = k).map fun f => [some (decimal f.1), some (decimal f.2)]
  | friends userid, d => (d.friends.filter fun f => f.1 = userid).flatMap fun f =>
    (d.users.rows.filter fun r => r.id = f.2).map fun r => [some (decimal r.id), some r.name, r.state.map State.text]
  | groupName name, d => (d.group.groups.filter fun g => same g.groupname name).map fun g =>
    [some (decimal g.id), some g.groupname, g.groupdesc]
  | groupId groupid, d => (d.group.groups.filter fun g => g.id = groupid).map fun g => [some (decimal g.id)]
  | member groupid userid, d => (d.group.members.filter fun b => b.groupid = groupid && b.userid = userid).map fun b =>
    [some (decimal b.groupid), some (decimal b.userid), b.grouprole]
  | owner groupid, d =>
    (d.group.members.filter fun b => b.groupid = groupid && b.grouprole = some "creator").map fun b =>
      [some (decimal b.userid)]
  | status c k, d => ((d.requests c).lookup k).toList.map fun r => [r.status.map Status.text]

def insertFriendHead : List Token := [kw "insert", kw "into", kw "Friend", kw "value", .sym '(']

def insertFriendTokens (k : Int × Int) : List Token :=
  insertFriendHead ++ .lit (decimal k.1).toList :: [.sym ','] ++ .lit (decimal k.2).toList :: [.sym ')']

def insertGroupHead : List Token :=
  [kw "insert", kw "into", kw "AllGroup", .sym '(', kw "groupname", .sym ',', kw "groupdesc", .sym ')', kw "value", .sym '(']

def insertGroupTokens (name desc : String) : List Token :=
  insertGroupHead ++ .lit name.toList :: [.sym ','] ++ .lit desc.toList :: [.sym ')']

def insertMemberHead : List Token := [kw "insert", kw "into", kw "GroupUser", kw "value", .sym '(']

def insertMemberTail (role : Role) : List Token := [.sym ',', .lit role.text.toList, .sym ')']

def Update.tokens : Update → List Token
  | insertFriend k => insertFriendTokens k
  | insertGroup name desc => insertGroupTokens name desc
  | insertMember groupid userid role =>
    insertMemberHead ++ intTokens groupid ++ [.sym ','] ++ intTokens userid ++ insertMemberTail role
  | insertRequest c k => c.insertTokens k
  | setStatus c k s => c.setTokens k s

def userHead : List Token := [kw "select", .sym '*', kw "from", kw "User", kw "where", kw "id", .sym '=']

def friendHead : List Token := [kw "select", .sym '*', kw "from", kw "Friend", kw "where", kw "userid", .sym '=']

def andFriend : List Token := [kw "and", kw "friendid", .sym '=']

def friendsHead : List Token :=
  [kw "select", kw "User", .sym '.', kw "id", .sym ',', kw "User", .sym '.', kw "name", .sym ',', kw "User",
    .sym '.', kw "state", kw "from", kw "User", kw "inner", kw "join", kw "Friend", kw "on", kw "User", .sym '.',
    kw "id", .sym '=', kw "Friend", .sym '.', kw "friendid", kw "where", kw "Friend", .sym '.', kw "userid", .sym '=']

def groupNameHead : List Token := [kw "select", .sym '*', kw "from", kw "AllGroup", kw "where", kw "groupname", .sym '=']

def groupIdHead : List Token := [kw "select", kw "id", kw "from", kw "AllGroup", kw "where", kw "id", .sym '=']

def memberHead : List Token := [kw "select", .sym '*', kw "from", kw "GroupUser", kw "where", kw "userid", .sym '=']

def memberTokens (groupid userid : Int) : List Token :=
  memberHead ++ .lit (decimal userid).toList :: [kw "and", kw "groupid", .sym '='] ++ [.lit (decimal groupid).toList]

def ownerHead : List Token := [kw "select", kw "userid", kw "from", kw "GroupUser", kw "where", kw "groupid", .sym '=']

def ownerTail : List Token := [kw "and", kw "grouprole", .sym '=', .lit "creator".toList]

def Query.tokens : Query → List Token
  | user id => userHead ++ intTokens id
  | friend k => friendHead ++ intTokens k.1 ++ andFriend ++ intTokens k.2
  | friends userid => friendsHead ++ intTokens userid
  | groupName name => groupNameHead ++ [.lit name.toList]
  | groupId groupid => groupIdHead ++ intTokens groupid
  | member groupid userid => memberTokens groupid userid
  | owner groupid => ownerHead ++ intTokens groupid ++ ownerTail
  | status c k => c.statusTokens k

/-- What the code relies on: MySQL executes the statements of the models as the
tables say, under the collation `same`. -/
structure Rules (same : String → String → Bool) (m : Mysql Tables) : Prop where
  update : ∀ (u : Update) (d : Tables), m.update u.tokens d = u.apply same (m.insertId u.tokens d) d
  query : ∀ (q : Query) (d : Tables), m.query q.tokens d = some (q.rows same d)

def readKey : List Token → Option (Int × Int)
  | [.lit a, .sym ',', .lit b, .sym ')'] => some (leadingInt (String.ofList a), leadingInt (String.ofList b))
  | _ => none

def readTexts : List Token → Option (String × String)
  | [.lit a, .sym ',', .lit b, .sym ')'] => some (String.ofList a, String.ofList b)
  | _ => none

def readRole (ts : List Token) : Option Role := [Role.creator, .normal].find? fun role => ts = insertMemberTail role

/-- Two numbers with fixed tokens between and after them. -/
def readPair (mid tail ts : List Token) : Option (Int × Int) :=
  (readTwo mid ts).bind fun x => if x.2 = tail then some x.1 else none

def readLast (tail ts : List Token) : Option Int := (readInt ts).bind fun x => if x.2 = tail then some x.1 else none

def setForm (c : Kind) (s : Status) : Form Token Update :=
  ⟨c.setHead s, fun ts => (readPair c.andColumn [.sym ';'] ts).map fun k => .setStatus c k s⟩

def insertForm (c : Kind) : Form Token Update :=
  ⟨c.insertHead, fun ts => (readPair [.sym ','] [.sym ',', .lit "pending".toList, .sym ')', .sym ';'] ts).map
    fun k => .insertRequest c k⟩

def statusForm (c : Kind) : Form Token Query :=
  ⟨c.statusHead, fun ts => (readPair c.andColumn [.sym ';'] ts).map fun k => .status c k⟩

def Update.form : Update → Form Token Update
  | insertFriend _ => ⟨insertFriendHead, fun ts => (readKey ts).map .insertFriend⟩
  | insertGroup .. => ⟨insertGroupHead, fun ts => (readTexts ts).map fun x => .insertGroup x.1 x.2⟩
  | insertMember .. => ⟨insertMemberHead, fun ts => (readTwo [.sym ','] ts).bind fun x =>
    (readRole x.2).map fun role => .insertMember x.1.1 x.1.2 role⟩
  | insertRequest c _ => insertForm c
  | setStatus c _ s => setForm c s

def Update.args : Update → List Token
  | insertFriend k => .lit (decimal k.1).toList :: [.sym ','] ++ .lit (decimal k.2).toList :: [.sym ')']
  | insertGroup name desc => .lit name.toList :: [.sym ','] ++ .lit desc.toList :: [.sym ')']
  | insertMember groupid userid role => intTokens groupid ++ [.sym ','] ++ intTokens userid ++ insertMemberTail role
  | insertRequest _ k =>
    intTokens k.1 ++ [.sym ','] ++ intTokens k.2 ++ [.sym ',', .lit "pending".toList, .sym ')', .sym ';']
  | setStatus c k _ => intTokens k.1 ++ c.andColumn ++ intTokens k.2 ++ [.sym ';']

def updateForms : List (Form Token Update) :=
  [(Update.insertFriend (0, 0)).form, (Update.insertGroup "" "").form, (Update.insertMember 0 0 .normal).form,
    insertForm .friend, insertForm .group, setForm .friend .pending, setForm .friend .accepted,
    setForm .friend .rejected, setForm .group .pending, setForm .group .accepted, setForm .group .rejected]

def readName : List Token → Option String
  | [.lit name] => some (String.ofList name)
  | _ => none

def readMember : List Token → Option (Int × Int)
  | [.lit u, .word _, .word _, .sym '=', .lit g] => some (leadingInt (String.ofList g), leadingInt (String.ofList u))
  | _ => none

def Query.form : Query → Form Token Query
  | user _ => ⟨userHead, fun ts => (readLast [] ts).map .user⟩
  | friend _ => ⟨friendHead, fun ts => (readPair andFriend [] ts).map .friend⟩
  | friends _ => ⟨friendsHead, fun ts => (readLast [] ts).map .friends⟩
  | groupName _ => ⟨groupNameHead, fun ts => (readName ts).map .groupName⟩
  | groupId _ => ⟨groupIdHead, fun ts => (readLast [] ts).map .groupId⟩
  | member .. => ⟨memberHead, fun ts => (readMember ts).map fun k => .member k.1 k.2⟩
  | owner _ => ⟨ownerHead, fun ts => (readLast ownerTail ts).map .owner⟩
  | status c _ => statusForm c

def Query.args : Query → List Token
  | user id => intTokens id ++ []
  | friend k => intTokens k.1 ++ andFriend ++ intTokens k.2 ++ []
  | friends userid => intTokens userid ++ []
  | groupName name => [.lit name.toList]
  | groupId groupid => intTokens groupid ++ []
  | member groupid userid =>
    .lit (decimal userid).toList :: [kw "and", kw "groupid", .sym '='] ++ [.lit (decimal groupid).toList]
  | owner groupid => intTokens groupid ++ ownerTail
  | status c k => intTokens k.1 ++ c.andColumn ++ intTokens k.2 ++ [.sym ';']

def queryForms : List (Form Token Query) :=
  [(Query.user 0).form, (Query.friend (0, 0)).form, (Query.friends 0).form, (Query.groupName "").form,
    (Query.groupId 0).form, (Query.member 0 0).form, (Query.owner 0).form, statusForm .friend, statusForm .group]

/-- An engine that refuses every other statement. -/
def strictMysql (same : String → String → Bool) : Mysql Tables where
  update ts d := (Form.read updateForms ts).bind fun u => u.apply same d.nextGroupId d
  query ts d := (Form.read queryForms ts).map fun q => q.rows same d
  insertId _ d := d.nextGroupId

theorem updateForms_apart : updateForms.Pairwise Form.Apart := by decide

theorem queryForms_apart : queryForms.Pairwise Form.Apart := by decide

theorem readPair_eq (mid tail : List Token) (k : Int × Int) :
    readPair mid tail (intTokens k.1 ++ mid ++ intTokens k.2 ++ tail) = some k := by
  rw [readPair, readTwo_eq, Option.bind_some, if_pos rfl]

theorem readLast_eq (tail : List Token) (n : Int) : readLast tail (intTokens n ++ tail) = some n := by
  rw [readLast, readInt_intTokens, Option.bind_some, if_pos rfl]

theorem Update.form_mem (u : Update) : u.form ∈ updateForms := by
  cases u with
  | insertRequest c k => cases c <;> simp [updateForms, form]
  | setStatus c k s => cases c <;> cases s <;> simp [updateForms, form]
  | _ => simp [updateForms, form]

theorem Query.form_mem (q : Query) : q.form ∈ queryForms := by
  cases q with
  | status c k => cases c <;> simp [queryForms, form]
  | _ => simp [queryForms, form]

theorem Update.tokens_eq (u : Update) : u.tokens = u.form.head ++ u.args := by
  cases u <;>
    simp only [tokens, form, args, insertFriendTokens, insertGroupTokens, Kind.insertTokens, Kind.setTokens, insertForm,
      setForm, List.append_assoc]

theorem Query.tokens_eq (q : Query) : q.tokens = q.form.head ++ q.args := by
  cases q <;>
    simp only [tokens, form, args, memberTokens, Kind.statusTokens, statusForm, List.append_assoc, List.append_nil]

theorem readRole_eq (role : Role) : readRole (insertMemberTail role) = some role := by cases role <;> decide

theorem Update.rest_args (u : Update) : u.form.rest u.args = some u := by
  cases u with
  | insertFriend k => simp [form, args, readKey]
  | insertGroup name desc => simp [form, args, readTexts]
  | insertMember groupid userid role => simp only [form, args, readTwo_eq, Option.bind_some, readRole_eq, Option.map_some]
  | insertRequest c k => simp only [form, insertForm, args, readPair_eq, Option.map_some]
  | setStatus c k s => simp only [form, setForm, args, readPair_eq, Option.map_some]

theorem Query.rest_args (q : Query) : q.form.rest q.args = some q := by
  cases q with
  | user id | friends id | groupId id => simp only [form, args, readLast_eq, Option.map_some]
  | owner id => simp only [form, args, readLast_eq, Option.map_some]
  | friend k => simp only [form, args, readPair_eq, Option.map_some]
  | groupName name => simp [form, args, readName]
  | member groupid userid => simp [form, args, readMember, kw]
  | status c k => simp only [form, statusForm, args, readPair_eq, Option.map_some]

theorem read_update (u : Update) : Form.read updateForms u.tokens = some u := by
  rw [u.tokens_eq]
  exact Form.read_eq updateForms_apart u.form_mem u.rest_args

theorem read_query (q : Query) : Form.read queryForms q.tokens = some q := by
  rw [q.tokens_eq]
  exact Form.read_eq queryForms_apart q.form_mem q.rest_args

theorem strictMysql_rules (same : String → String → Bool) : Rules same (strictMysql same) where
  update u d := by
    simp only [strictMysql, read_update, Option.bind_some]
  query q d := by
    simp only [strictMysql, read_query, Option.map_some]

/-! The statements of the models. -/

theorem sent_isUserExistSql (id : Int) : sent (FriendModel.isUserExistSql id) = some (Query.user id).tokens := by
  have h : Begins "select * from User where id = " userHead := begins_of String.toList_ofList (by decide) (by decide)
  exact h.sent_last id

theorem sent_isFriendSql (a b : Int) : sent (FriendModel.isFriendSql a b) = some (Query.friend (a, b)).tokens := by
  have h : Begins "select * from Friend where userid = " friendHead := begins_of String.toList_ofList (by decide) (by decide)
  have hg : Gap " and friendid = " andFriend := by decide
  exact (h.num a hg).sent_last b

theorem sent_insertSql (a b : Int) : sent (FriendModel.insertSql a b) = some (Update.insertFriend (a, b)).tokens := by
  have h : Opens "insert into Friend value ('" insertFriendHead := opens_of String.toList_ofList (by decide) (by decide)
  exact (h.append (plain_decimal a) between_comma).sent_plain (plain_decimal b) closes_paren

set_option maxRecDepth 1000 in
theorem sent_querySql (a : Int) : sent (FriendModel.querySql a) = some (Query.friends a).tokens := by
  have h : Begins ("select User.id,User.name,User.state from User inner join " ++
      "Friend on User.id = Friend.friendid where Friend.userid = ") friendsHead :=
    begins_of (toList_concat String.toList_ofList String.toList_ofList) (by decide) (by decide)
  exact h.sent_last a

theorem gap_comma : Gap "," [.sym ','] := by decide

theorem gap_column (c : Kind) : Gap (" and " ++ c.column ++ " = ") c.andColumn := by cases c <;> decide

theorem ends_semicolon : Ends ";" [.sym ';'] := by decide

theorem sent_addFriendRequestSql (a b : Int) :
    sent (FriendRequestModel.addFriendRequestSql a b) = some (Update.insertRequest .friend (a, b)).tokens := by
  have h : Begins "insert into FriendRequest (requester_id, target_id,status) values (" Kind.friend.insertHead :=
    begins_of String.toList_ofList (by decide) (by decide)
  have he : Ends ",'pending');" [.sym ',', .lit "pending".toList, .sym ')', .sym ';'] := by decide
  exact (h.num a gap_comma).sent b he

theorem sent_addGroupRequestSql (a b : Int) :
    sent (GroupRequestModel.addGroupRequestSql a b) = some (Update.insertRequest .group (a, b)).tokens := by
  have h : Begins "insert into GroupRequest (requester_id, group_id, status) values (" Kind.group.insertHead :=
    begins_of String.toList_ofList (by decide) (by decide)
  have he : Ends ", 'pending');" [.sym ',', .lit "pending".toList, .sym ')', .sym ';'] := by decide
  exact (h.num a gap_comma).sent b he

theorem sent_statusSql (c : Kind) (a b : Int) :
    sent (RequestModel.statusSql c a b) = some (Query.status c (a, b)).tokens := by
  have h : Begins ("select status from " ++ c.table ++ " where requester_id = ") c.statusHead := by
    cases c with
    | friend | group =>
      exact begins_of (toList_concat (toList_concat String.toList_ofList String.toList_ofList) String.toList_ofList)
        (by decide) (by decide)
  exact (h.num a (gap_column c)).sent b ends_semicolon

theorem sent_updateSql (c : Kind) (a b : Int) (s : Status) : ∃ sql, RequestModel.updateSql c a b s.text = some sql ∧
    sent sql = some (Update.setStatus c (a, b) s).tokens := by
  cases s with
  | pending =>
    have h : Begins ("update " ++ c.table ++ " set status = '" ++ "pending" ++
        "', handled_at = null where requester_id = ") (c.setHead .pending) := by
      cases c with
      | friend | group =>
        exact begins_of (toList_concat (toList_concat (toList_concat (toList_concat String.toList_ofList
          String.toList_ofList) String.toList_ofList) String.toList_ofList) String.toList_ofList) (by decide) (by decide)
    exact ⟨_, rfl, (h.num a (gap_column c)).sent b ends_semicolon⟩
  | accepted =>
    have h : Begins ("update " ++ c.table ++ " set status = '" ++ "accepted" ++
        "', handled_at = now() where requester_id = ") (c.setHead .accepted) := by
      cases c with
      | friend | group =>
        exact begins_of (toList_concat (toList_concat (toList_concat (toList_concat String.toList_ofList
          String.toList_ofList) String.toList_ofList) String.toList_ofList) String.toList_ofList) (by decide) (by decide)
    exact ⟨_, rfl, (h.num a (gap_column c)).sent b ends_semicolon⟩
  | rejected =>
    have h : Begins ("update " ++ c.table ++ " set status = '" ++ "rejected" ++
        "', handled_at = now() where requester_id = ") (c.setHead .rejected) := by
      cases c with
      | friend | group =>
        exact begins_of (toList_concat (toList_concat (toList_concat (toList_concat String.toList_ofList
          String.toList_ofList) String.toList_ofList) String.toList_ofList) String.toList_ofList) (by decide) (by decide)
    exact ⟨_, rfl, (h.num a (gap_column c)).sent b ends_semicolon⟩

theorem sent_isGroupExistSql (g : Int) : sent (GroupModel.isGroupExistSql g) = some (Query.groupId g).tokens := by
  have h : Begins "select id from AllGroup where id = " groupIdHead := begins_of String.toList_ofList (by decide) (by decide)
  exact h.sent_last g

theorem sent_addGroupSql (u g : Int) (role : Role) :
    sent (GroupModel.addGroupSql u g role.text) = some (Update.insertMember g u role).tokens := by
  have h : Begins "insert into GroupUser value (" insertMemberHead := begins_of String.toList_ofList (by decide) (by decide)
  have he : Ends (",'" ++ role.text ++ "')") (insertMemberTail role) := by cases role <;> decide
  exact (h.num g gap_comma).sent u he

theorem sent_isUserInGroupSql (u g : Int) :
    sent (GroupModel.isUserInGroupSql u g) = some (Query.member g u).tokens := by
  have h : Opens "select * from GroupUser where userid = '" memberHead := opens_of String.toList_ofList (by decide) (by decide)
  have hb : Between "' and groupid = '" [kw "and", kw "groupid", .sym '='] := by
    have hs : "' and groupid = '".toList = '\'' :: ' ' :: "and groupid = '".toList := by decide
    exact between_of_foldl hs (by decide) (by decide) (by decide)
  exact (h.append (plain_decimal u) hb).sent_plain (plain_decimal g) closes_quote

theorem sent_queryGroupOwnerIdSql (g : Int) :
    sent (GroupModel.queryGroupOwnerIdSql g) = some (Query.owner g).tokens := by
  have h : Begins "select userid from GroupUser where groupid = " ownerHead := begins_of String.toList_ofList (by decide) (by decide)
  have he : Ends " and grouprole = 'creator'" ownerTail := by decide
  exact h.sent g he

theorem sent_isGroupExistNameSql {name : String} (hn : Plain name) :
    sent (GroupModel.isGroupExistNameSql name) = some (Query.groupName name).tokens := by
  have h : Opens "select * from AllGroup where groupname = '" groupNameHead := opens_of String.toList_ofList (by decide) (by decide)
  exact h.sent_plain hn closes_quote

theorem sent_createGroupSql {name desc : String} (hn : Plain name) (hd : Plain desc) :
    sent (GroupModel.createGroupSql name desc) = some (Update.insertGroup name desc).tokens := by
  have h : Opens "insert into AllGroup (groupname , groupdesc) value ('" insertGroupHead := opens_of String.toList_ofList (by decide) (by decide)
  exact (h.append hn between_comma).sent_plain hd closes_paren

end BridgeIM.Model.Database
