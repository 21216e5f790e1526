import BridgeIM.Db.Session
import Mathlib.Data.List.Nodup

namespace BridgeIM.Model.UserModel

open CString Lib.SqlText Db

/-- The column type `ENUM('online', 'offline')`. -/
inductive State
  | online | offline
  deriving DecidableEq, Repr

def State.text : State → String
  | .online => "online"
  | .offline => "offline"

/-- A row of `User`. The column `state` may be `NULL`. -/
structure Record where
  id : Int
  name : String
  password : String
  state : Option State
  deriving DecidableEq, Repr

/-- The table `User`. Its ids are what `AUTO_INCREMENT` has given out, and `id`
is its primary key. -/
structure Table where
  rows : List Record
  nextId : Int
  ids : ∀ r ∈ rows, 0 < r.id ∧ r.id < nextId
  unique : (rows.map Record.id).Nodup

structure User where
  id : Int := -1
  name : String := ""
  password : String := ""
  state : String := "offline"
  deriving DecidableEq, Repr

def Record.row (r : Record) : Row :=
  [some (decimal r.id), some r.name, some r.password, r.state.map State.text]

def Record.setState (u : Int) (s : State) (r : Record) : Record :=
  if r.id = u then { r with state := some s } else r

def Record.reset (r : Record) : Record :=
  if r.state = some .online then { r with state := some .offline } else r

namespace Table

def modify (f : Record → Record) (hf : ∀ r, (f r).id = r.id) (t : Table) : Table where
  rows := t.rows.map f
  nextId := t.nextId
  ids := by
    intro r hr
    obtain ⟨q, hq, rfl⟩ := List.mem_map.mp hr
    rw [hf]
    exact t.ids q hq
  unique := by
    have h : Record.id ∘ f = Record.id := funext hf
    rw [List.map_map, h]
    exact t.unique

theorem id_setState (u : Int) (s : State) (r : Record) : (r.setState u s).id = r.id := by
  unfold Record.setState
  split <;> rfl

theorem id_reset (r : Record) : r.reset.id = r.id := by
  unfold Record.reset
  split <;> rfl

def updateState (u : Int) (s : State) (t : Table) : Table :=
  t.modify (Record.setState u s) (id_setState u s)

def resetState (t : Table) : Table := t.modify Record.reset id_reset

/-- A new row with the id `id`. The table refuses a name it holds already and
values that do not fit their columns. -/
def insert (same : String → String → Bool) (id : Int) (name password : String) (s : State) (t : Table) :
    Option Table :=
  if h : 0 < id ∧ t.nextId ≤ id ∧ id < 2147483648 ∧ name.length ≤ 50 ∧ password.length ≤ 50 ∧
      t.rows.all (fun r => !same r.name name) then
    some { rows := t.rows ++ [⟨id, name, password, some s⟩]
           nextId := id + 1
           ids := by
            intro r hr
            obtain hr | hr := List.mem_append.mp hr
            · have hb := t.ids r hr
              omega
            · rw [List.mem_singleton.mp hr]
              exact ⟨h.1, Int.lt_succ id⟩
           unique := by
            rw [List.map_append, List.nodup_append]
            refine ⟨t.unique, List.nodup_singleton _, fun i hi j hj => ?_⟩
            obtain ⟨r, hr, rfl⟩ := List.mem_map.mp hi
            have hb := t.ids r hr
            rw [List.map_singleton, List.mem_singleton] at hj
            subst hj
            omega }
  else none

end Table

def insertSql (user : User) : String :=
  "insert into User(name,password,state) values('" ++ user.name ++ "','" ++ user.password ++ "','" ++
    user.state ++ "')"

def queryNameSql (name : String) : String := "select * from User where name = '" ++ name ++ "'"

def queryIdSql (id : Int) : String := "select * from User where id = '" ++ decimal id ++ "'"

def updateStateSql (user : User) : String :=
  "update User set state = '" ++ user.state ++ "' where id = '" ++ decimal user.id ++ "'"

def resetStateSql : String := "update User set state = 'offline' where state = 'online'"

def insert (m : Mysql Table) (user : User) (t : Table) : Option (Int × Table) :=
  (m.execUpdate (insertSql user) t).map (fun t' => (m.lastInsertId (insertSql user) t, t'))

def queryName (m : Mysql Table) (name : String) (t : Table) : User :=
  match m.execQuery (queryNameSql name) t with
  | some (row :: _) =>
    { id := getInt row 0, name := getString row 1, password := getString row 2, state := getString row 3 }
  | _ => {}

def queryId (m : Mysql Table) (id : Int) (t : Table) : User :=
  match m.execQuery (queryIdSql id) t with
  | some (row :: _) => { id := getInt row 0, name := getString row 1, state := getString row 3 }
  | _ => {}

def updateState (m : Mysql Table) (user : User) (t : Table) : Table :=
  (m.execUpdate (updateStateSql user) t).getD t

def resetState (m : Mysql Table) (t : Table) : Table := (m.execUpdate resetStateSql t).getD t

def insertHead : List Token :=
  [kw "insert", kw "into", kw "User", .sym '(', kw "name", .sym ',', kw "password", .sym ',', kw "state",
    .sym ')', kw "values", .sym '(']

def insertTokens (name password state : List Char) : List Token :=
  insertHead ++ .lit name :: [.sym ','] ++ .lit password :: [.sym ','] ++ .lit state :: [.sym ')']

def queryNameHead : List Token :=
  [kw "select", .sym '*', kw "from", kw "User", kw "where", kw "name", .sym '=']

def queryNameTokens (name : List Char) : List Token := queryNameHead ++ [.lit name]

def queryIdHead : List Token :=
  [kw "select", .sym '*', kw "from", kw "User", kw "where", kw "id", .sym '=']

def queryIdTokens (id : List Char) : List Token := queryIdHead ++ [.lit id]

def updateStateHead : List Token := [kw "update", kw "User", kw "set", kw "state", .sym '=']

def updateStateTokens (state id : List Char) : List Token :=
  updateStateHead ++ .lit state :: [kw "where", kw "id", .sym '='] ++ [.lit id]

def resetStateTokens : List Token :=
  updateStateHead ++ .lit State.offline.text.toList :: [kw "where", kw "state", .sym '='] ++
    [.lit State.online.text.toList]

/-- What the code relies on: the effect of its statements on the table, where
`same` compares names by the collation of the column. -/
structure Rules (same : String → String → Bool) (m : Mysql Table) : Prop where
  insert : ∀ (name password : List Char) (s : State) (t : Table),
    m.update (insertTokens name password s.text.toList) t =
      t.insert same (m.insertId (insertTokens name password s.text.toList) t) (String.ofList name)
        (String.ofList password) s
  queryName : ∀ (name : List Char) (t : Table), m.query (queryNameTokens name) t =
    some ((t.rows.filter (fun r => same r.name (String.ofList name))).map Record.row)
  queryId : ∀ (u : Int) (t : Table), m.query (queryIdTokens (decimal u).toList) t =
    some ((t.rows.filter (fun r => r.id = u)).map Record.row)
  updateState : ∀ (s : State) (u : Int) (t : Table),
    m.update (updateStateTokens s.text.toList (decimal u).toList) t = some (t.updateState u s)
  resetState : ∀ t : Table, m.update resetStateTokens t = some t.resetState

variable {same : String → String → Bool} {m : Mysql Table}

theorem sent_insertSql {user : User} (hn : Plain user.name) (hp : Plain user.password)
    (hs : Plain user.state) : sent (insertSql user) =
      some (insertTokens user.name.toList user.password.toList user.state.toList) := by
  have h : Opens "insert into User(name,password,state) values('" insertHead := by decide
  exact ((h.append hn between_comma).append hp between_comma).sent_plain hs closes_paren

theorem opens_queryName : Opens "select * from User where name = '" queryNameHead := by decide

theorem sent_queryNameSql_iff (name : String) :
    sent (queryNameSql name) = some (queryNameTokens name.toList) ↔ Plain name :=
  opens_queryName.sent_eq_iff

theorem sent_queryIdSql (u : Int) : sent (queryIdSql u) = some (queryIdTokens (decimal u).toList) := by
  have h : Opens "select * from User where id = '" queryIdHead := by decide
  exact h.sent_plain (plain_decimal u) closes_quote

theorem between_whereId : Between "' where id = '" [kw "where", kw "id", .sym '='] := by
  have h : "' where id = '".toList =
    ['\'', ' ', 'w', 'h', 'e', 'r', 'e', ' ', 'i', 'd', ' ', '=', ' ', '\''] := rfl
  exact between_of_foldl h (by decide) (by decide) (by decide)

theorem plain_state (s : State) : Plain s.text := by
  cases s <;> decide

theorem sent_updateStateSql {user : User} (hs : Plain user.state) : sent (updateStateSql user) =
    some (updateStateTokens user.state.toList (decimal user.id).toList) := by
  have h : Opens "update User set state = '" updateStateHead := by decide
  exact (h.append hs between_whereId).sent_plain (plain_decimal user.id) closes_quote

theorem sent_resetStateSql : sent resetStateSql = some resetStateTokens := by
  unfold sent
  decide

def Record.user (r : Record) : User where
  id := r.id
  name := cstring r.name
  password := cstring r.password
  state := (r.state.map State.text).getD ""

theorem state_user (r : Record) : r.user.state ≠ "online" ↔ r.state ≠ some .online := by
  obtain ⟨_, _, _, s⟩ := r
  cases s with
  | none => simp [Record.user]
  | some s => cases s <;> simp [Record.user, State.text]

theorem getString_state (s : Option State) (row : Row) (i : Nat) (h : row[i]? = some (s.map State.text)) :
    getString row i = (s.map State.text).getD "" := by
  rw [getString, h]
  cases s with
  | none => rfl
  | some s => exact cstring_of_not_mem (plain_state s).1

theorem getInt_row (r : Record) : getInt r.row 0 = r.id := leadingInt_decimal r.id

theorem getString_row_state (r : Record) : getString r.row 3 = r.user.state :=
  getString_state r.state r.row 3 rfl

theorem queryName_of_sent (hm : Rules same m) {name : String} {x : List Char}
    (hx : sent (queryNameSql name) = some (queryNameTokens x)) (t : Table) :
    queryName m name t =
      ((t.rows.find? (fun r => same r.name (String.ofList x))).map Record.user).getD {} := by
  rw [queryName, Mysql.execQuery, hx, Option.bind_some, hm.queryName, ← List.head?_filter]
  cases t.rows.filter (fun r => same r.name (String.ofList x)) with
  | nil => rfl
  | cons r rs =>
    simp only [List.map_cons, getInt_row, getString_row_state, List.head?_cons, Option.map_some, Option.getD_some]
    rfl

theorem queryName_eq (hm : Rules same m) {name : String} (hn : Plain name) (t : Table) :
    queryName m name t = ((t.rows.find? (fun r => same r.name name)).map Record.user).getD {} := by
  rw [queryName_of_sent hm ((sent_queryNameSql_iff name).mpr hn), String.ofList_toList]

namespace Table

def find (u : Int) (t : Table) : Option Record := t.rows.find? (fun r => r.id = u)

def stateOf (u : Int) (t : Table) : Option State := (t.find u).bind Record.state

theorem id_of_find {u : Int} {t : Table} {r : Record} (h : t.find u = some r) : r.id = u := by
  simpa using List.find?_some h

theorem mem_of_find {u : Int} {t : Table} {r : Record} (h : t.find u = some r) : r ∈ t.rows :=
  List.mem_of_find?_eq_some h

theorem eq_of_id {t : Table} {r q : Record} (hr : r ∈ t.rows) (hq : q ∈ t.rows) (h : r.id = q.id) : r = q :=
  List.inj_on_of_nodup_map t.unique hr hq h

theorem find_of_mem {t : Table} {r : Record} (hr : r ∈ t.rows) : t.find r.id = some r := by
  have hs : (t.find r.id).isSome = true := by
    rw [find, List.find?_isSome]
    exact ⟨r, hr, decide_eq_true rfl⟩
  obtain ⟨q, hq⟩ := Option.isSome_iff_exists.mp hs
  rw [hq, eq_of_id (mem_of_find hq) hr (id_of_find hq)]

theorem find_modify (f : Record → Record) (hf : ∀ r, (f r).id = r.id) (u : Int) (t : Table) :
    (t.modify f hf).find u = (t.find u).map f := by
  rw [find, modify, List.find?_map, find]
  congr 2
  funext r
  rw [Function.comp_apply, hf]

theorem stateOf_updateState (u v : Int) (s : State) (t : Table) :
    (t.updateState u s).stateOf v = if u = v then (t.find v).map (fun _ => s) else t.stateOf v := by
  rw [stateOf, updateState, find_modify, stateOf]
  cases hf : t.find v with
  | none => split <;> rfl
  | some r =>
    have hr := id_of_find hf
    by_cases h : u = v
    · simp [Record.setState, hr, h]
    · have h' : r.id ≠ u := fun he => h (he.symm.trans hr)
      simp [Record.setState, h, h']

theorem stateOf_resetState (u : Int) (t : Table) :
    t.resetState.stateOf u = (t.stateOf u).map (fun _ => .offline) := by
  rw [stateOf, resetState, find_modify, stateOf]
  cases t.find u with
  | none => rfl
  | some r =>
    obtain ⟨_, _, _, s⟩ := r
    cases s with
    | none => rfl
    | some s => cases s <;> rfl

theorem isSome_find_modify (f : Record → Record) (hf : ∀ r, (f r).id = r.id) (u : Int) (t : Table) :
    ((t.modify f hf).find u).isSome = (t.find u).isSome := by
  rw [find_modify, Option.isSome_map]

theorem isSome_find_updateState (u v : Int) (s : State) (t : Table) :
    ((t.updateState u s).find v).isSome = (t.find v).isSome :=
  isSome_find_modify _ _ v t

theorem isSome_find_of_stateOf {t : Table} {u : Int} {s : State} (h : t.stateOf u = some s) :
    (t.find u).isSome = true := by
  obtain ⟨r, hr, _⟩ := Option.bind_eq_some_iff.mp h
  rw [hr]
  rfl

theorem find_insert {id : Int} {name password : String} {s : State} {t t' : Table}
    (h : t.insert same id name password s = some t') (u : Int) :
    t'.find u = if id = u then some ⟨id, name, password, some s⟩ else t.find u := by
  unfold insert at h
  split at h
  · rename_i hc
    cases h
    rw [find, List.find?_append]
    by_cases hu : id = u
    · have hn : t.rows.find? (fun r => r.id = u) = none := by
        rw [List.find?_eq_none]
        intro r hr
        have hb := t.ids r hr
        simp only [decide_eq_true_eq]
        omega
      rw [hn, if_pos hu]
      simp [hu]
    · rw [if_neg hu, find]
      simp [hu]
  · cases h

theorem find_lt_of_insert {id : Int} {name password : String} {s : State} {t t' : Table}
    (h : t.insert same id name password s = some t') : 0 < id ∧ t.find id = none := by
  unfold insert at h
  split at h
  · rename_i hc
    refine ⟨hc.1, ?_⟩
    rw [find, List.find?_eq_none]
    intro r hr
    have hb := t.ids r hr
    simp only [decide_eq_true_eq]
    omega
  · cases h

end Table

theorem queryId_eq (hm : Rules same m) (u : Int) (t : Table) :
    queryId m u t = ((t.find u).map (fun r => { r.user with password := "" })).getD {} := by
  rw [queryId, Mysql.execQuery, sent_queryIdSql, Option.bind_some, hm.queryId, Table.find, ← List.head?_filter]
  cases t.rows.filter (fun r => r.id = u) with
  | nil => rfl
  | cons r rs =>
    simp only [List.map_cons, getInt_row, getString_row_state, List.head?_cons, Option.map_some, Option.getD_some]
    rfl

theorem queryId_online (hm : Rules same m) (u : Int) (t : Table) :
    (queryId m u t).state = "online" ↔ t.stateOf u = some .online := by
  rw [queryId_eq hm, Table.stateOf]
  cases t.find u with
  | none => simp
  | some r => exact not_iff_not.mp (state_user r)

theorem updateState_eq (hm : Rules same m) {user : User} {s : State} (hs : user.state = s.text) (t : Table) :
    updateState m user t = t.updateState user.id s := by
  rw [updateState, Mysql.execUpdate, sent_updateStateSql (hs ▸ plain_state s), Option.bind_some, hs,
    hm.updateState, Option.getD_some]

theorem resetState_eq (hm : Rules same m) (t : Table) : resetState m t = t.resetState := by
  rw [resetState, Mysql.execUpdate, sent_resetStateSql, Option.bind_some, hm.resetState, Option.getD_some]

theorem insert_eq (hm : Rules same m) {user : User} (hn : Plain user.name) (hp : Plain user.password)
    {s : State} (hs : user.state = s.text) (t : Table) : ∃ id, insert m user t =
      (t.insert same id user.name user.password s).map (fun t' => (id, t')) := by
  have hsent := sent_insertSql hn hp (hs ▸ plain_state s)
  refine ⟨m.lastInsertId (insertSql user) t, ?_⟩
  rw [insert, Mysql.execUpdate, Mysql.lastInsertId, hsent, Option.bind_some, Option.elim_some, hs, hm.insert,
    String.ofList_toList, String.ofList_toList]

def stateOfText (cs : List Char) : Option State :=
  if cs = State.online.text.toList then some .online
  else if cs = State.offline.text.toList then some .offline
  else none

theorem stateOfText_text (s : State) : stateOfText s.text.toList = some s := by
  cases s <;> decide

def insertArgs (ts : List Token) : Option (List Char × List Char × State) :=
  match ts with
  | [_, _, _, _, _, _, _, _, _, _, _, _, .lit name, _, .lit password, _, .lit state, _] =>
    (stateOfText state).bind fun s =>
      if ts = insertTokens name password state then some (name, password, s) else none
  | _ => none

def updateArgs (ts : List Token) : Option (State × List Char) :=
  match ts with
  | [_, _, _, _, _, .lit state, _, _, _, .lit id] =>
    (stateOfText state).bind fun s => if ts = updateStateTokens state id then some (s, id) else none
  | _ => none

def queryArg (tokens : List Char → List Token) (ts : List Token) : Option (List Char) :=
  match ts with
  | [_, _, _, _, _, _, _, .lit arg] => if ts = tokens arg then some arg else none
  | _ => none

def strictMysql (same : String → String → Bool) : Mysql Table where
  update ts t :=
    match insertArgs ts, updateArgs ts with
    | some (name, password, s), _ =>
      t.insert same (max 1 t.nextId) (String.ofList name) (String.ofList password) s
    | none, some (s, id) => some (t.updateState (leadingInt (String.ofList id)) s)
    | none, none => if ts = resetStateTokens then some t.resetState else none
  query ts t :=
    match queryArg queryNameTokens ts, queryArg queryIdTokens ts with
    | some name, _ => some ((t.rows.filter (fun r => same r.name (String.ofList name))).map Record.row)
    | none, some id => some ((t.rows.filter (fun r => r.id = leadingInt (String.ofList id))).map Record.row)
    | none, none => none
  insertId _ t := max 1 t.nextId

theorem strictMysql_rules (same : String → String → Bool) : Rules same (strictMysql same) where
  insert name password s t := by
    have h : insertArgs (insertTokens name password s.text.toList) = some (name, password, s) := by
      simp [insertArgs, insertTokens, insertHead, stateOfText_text]
    simp only [strictMysql, h]
  queryName name t := by
    have h : queryArg queryNameTokens (queryNameTokens name) = some name := by
      simp [queryArg, queryNameTokens, queryNameHead]
    simp only [strictMysql, h]
  queryId u t := by
    have h₁ : queryArg queryNameTokens (queryIdTokens (decimal u).toList) = none := by
      simp [queryArg, queryIdTokens, queryIdHead, queryNameTokens, queryNameHead, kw]
    have h₂ : queryArg queryIdTokens (queryIdTokens (decimal u).toList) = some (decimal u).toList := by
      simp [queryArg, queryIdTokens, queryIdHead]
    simp only [strictMysql, h₁, h₂, String.ofList_toList, leadingInt_decimal]
  updateState s u t := by
    have h₁ : insertArgs (updateStateTokens s.text.toList (decimal u).toList) = none := by
      simp [insertArgs, updateStateTokens, updateStateHead]
    have h₂ : updateArgs (updateStateTokens s.text.toList (decimal u).toList) = some (s, (decimal u).toList) := by
      simp [updateArgs, updateStateTokens, updateStateHead, stateOfText_text]
    simp only [strictMysql, h₁, h₂, String.ofList_toList, leadingInt_decimal]
  resetState t := by
    have h₁ : insertArgs resetStateTokens = none := by decide
    have h₂ : updateArgs resetStateTokens = none := by decide
    simp only [strictMysql, h₁, h₂, if_true]

end BridgeIM.Model.UserModel
