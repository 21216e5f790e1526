import BridgeIM.Db.Session
import BridgeIM.Json

namespace BridgeIM.Model.OfflineMsgModel

open CString Lib.SqlText Db

abbrev Table := List (Int × String)

def insertSql (userid : Int) (msg : String) : String :=
  "insert into OfflineMessage value ('" ++ decimal userid ++ "','" ++ msg ++ "')"

def removeSql (userid : Int) : String :=
  "delete from OfflineMessage where userid = '" ++ decimal userid ++ "'"

def querySql (userid : Int) : String :=
  "select message from OfflineMessage where userid = '" ++ decimal userid ++ "'"

def insert (m : Mysql Table) (userid : Int) (msg : String) (t : Table) : Table :=
  (m.execUpdate (insertSql userid msg) t).getD t

def remove (m : Mysql Table) (userid : Int) (t : Table) : Table :=
  (m.execUpdate (removeSql userid) t).getD t

def query (m : Mysql Table) (userid : Int) (t : Table) : List String :=
  match m.execQuery (querySql userid) t with
  | some rows => rows.map (fun row => getString row 0)
  | none => []

def insertHead : List Token :=
  [kw "insert", kw "into", kw "OfflineMessage", kw "value", .sym '(']

def insertPrefix (userid : List Char) : List Token := insertHead ++ .lit userid :: [.sym ',']

def insertTokens (userid msg : List Char) : List Token := insertPrefix userid ++ .lit msg :: [.sym ')']

def removeHead : List Token :=
  [kw "delete", kw "from", kw "OfflineMessage", kw "where", kw "userid", .sym '=']

def removeTokens (userid : List Char) : List Token := removeHead ++ [.lit userid]

def queryHead : List Token :=
  [kw "select", kw "message", kw "from", kw "OfflineMessage", kw "where", kw "userid", .sym '=']

def queryTokens (userid : List Char) : List Token := queryHead ++ [.lit userid]

def messages (u : Int) (t : Table) : List String := (t.filter (fun r => r.1 = u)).map Prod.snd

/-- What the code relies on: MySQL stores the decoded literal when it fits
`VARCHAR(500)` and refuses it otherwise, and it finds rows by `userid`. -/
structure Rules (m : Mysql Table) : Prop where
  insert : ∀ (u : Int) (msg : List Char) (t : Table),
    m.update (insertTokens (decimal u).toList msg) t =
      if IsInt u ∧ msg.length ≤ 500 then some (t ++ [(u, String.ofList msg)]) else none
  remove : ∀ (u : Int) (t : Table),
    m.update (removeTokens (decimal u).toList) t = some (t.filter (fun r => r.1 ≠ u))
  query : ∀ (u : Int) (t : Table), m.query (queryTokens (decimal u).toList) t =
    some ((messages u t).map (fun msg => [some msg]))

/-- Storing a payload and reading it back adds exactly that payload to the
messages of the user, and touches no other user. -/
def Faithful (m : Mysql Table) (p : String) : Prop :=
  ∀ u, IsInt u → ∀ t : Table,
    query m u (insert m u p t) = query m u t ++ [p] ∧
      (insert m u p t).filter (fun r => r.1 ≠ u) = t.filter (fun r => r.1 ≠ u)

/-- No apostrophe, no backslash, and short enough for the column. -/
def Storable (p : String) : Prop :=
  (∀ c ∈ p.toList, c ≠ '\'' ∧ c ≠ '\\') ∧ p.toList.length ≤ 500

instance (p : String) : Decidable (Storable p) :=
  decidable_of_iff (p.toList.all (fun c => c ≠ '\'' && c ≠ '\\') = true ∧ p.toList.length ≤ 500)
    (by simp [Storable])

theorem opens_insert (u : Int) :
    Opens ("insert into OfflineMessage value ('" ++ decimal u ++ "','") (insertPrefix (decimal u).toList) := by
  have h : Opens "insert into OfflineMessage value ('" insertHead := by decide
  exact h.append (plain_decimal u) between_comma

theorem sent_insertSql (u : Int) {p : String} (hp : '\x00' ∉ p.toList) :
    sent (insertSql u p) =
      finish ((p.toList ++ "')".toList).foldl step (insertPrefix (decimal u).toList, .str '\'' [])) :=
  (opens_insert u).sent hp closes_paren.1

theorem sent_removeSql (u : Int) : sent (removeSql u) = some (removeTokens (decimal u).toList) := by
  have h : Opens "delete from OfflineMessage where userid = '" removeHead := by decide
  exact h.sent_plain (plain_decimal u) closes_quote

theorem sent_querySql (u : Int) : sent (querySql u) = some (queryTokens (decimal u).toList) := by
  have h : Opens "select message from OfflineMessage where userid = '" queryHead := by decide
  exact h.sent_plain (plain_decimal u) closes_quote

variable {m : Mysql Table}

theorem remove_eq (hm : Rules m) (u : Int) (t : Table) : remove m u t = t.filter (fun r => r.1 ≠ u) := by
  rw [remove, Mysql.execUpdate, sent_removeSql, Option.bind_some, hm.remove, Option.getD_some]

theorem query_eq (hm : Rules m) (u : Int) (t : Table) : query m u t = (messages u t).map cstring := by
  rw [query, Mysql.execQuery, sent_querySql, Option.bind_some, hm.query]
  exact List.map_map

theorem sent_insertSql_str (u : Int) {p : String} (hp : '\x00' ∉ p.toList) {msg : List Char}
    (h : p.toList.foldl step (insertPrefix (decimal u).toList, .str '\'' []) =
      (insertPrefix (decimal u).toList, .str '\'' msg)) :
    sent (insertSql u p) = some (insertTokens (decimal u).toList msg) := by
  rw [sent_insertSql u hp, List.foldl_append, h, closes_paren.2, insertTokens]

theorem insert_str (hm : Rules m) (u : Int) {p : String} (hp : '\x00' ∉ p.toList) {msg : List Char}
    (h : p.toList.foldl step (insertPrefix (decimal u).toList, .str '\'' []) =
      (insertPrefix (decimal u).toList, .str '\'' msg)) (t : Table) :
    insert m u p t = if IsInt u ∧ msg.length ≤ 500 then t ++ [(u, String.ofList msg)] else t := by
  rw [insert, Mysql.execUpdate, sent_insertSql_str u hp h, Option.bind_some, hm.insert]
  split <;> rfl

theorem insert_storable (hm : Rules m) {u : Int} (hu : IsInt u) {p : String} (hp : '\x00' ∉ p.toList)
    (hs : Storable p) (t : Table) : insert m u p t = t ++ [(u, p)] := by
  have hv : verbatim '\'' p.toList = true := verbatim_of_forall fun c hc => (hs.1 c hc).symm
  rw [insert_str hm u hp (foldl_verbatim hv _ _), List.nil_append, if_pos ⟨hu, hs.2⟩, String.ofList_toList]

theorem insert_of_not_mem (hm : Rules m) (u : Int) {p : String} (hq : '\'' ∉ p.toList) (t : Table) :
    insert m u p t = t ∨ ∃ msg, insert m u p t = t ++ [(u, msg)] := by
  have hrefused (h : sent (insertSql u p) = none) : insert m u p t = t := by
    rw [insert, Mysql.execUpdate, h]
    rfl
  by_cases hp : '\x00' ∈ p.toList
  · left
    apply hrefused
    have hsent := (opens_insert u).sent_cut (s := "')") hp
    have hq' : '\'' ∉ p.toList.takeWhile (· ≠ '\x00') := 
      fun h => hq ((List.takeWhile_prefix _).subset h)
    obtain ⟨msg, hs | he⟩ := foldl_of_not_mem hq' (insertPrefix (decimal u).toList) []
    · exact hsent.trans (congrArg finish hs)
    · exact hsent.trans (congrArg finish he)
  · obtain ⟨msg, hs | he⟩ := foldl_of_not_mem hq (insertPrefix (decimal u).toList) []
    · rw [insert_str hm u hp hs]
      split
      · exact Or.inr ⟨_, rfl⟩
      · exact Or.inl rfl
    · left
      apply hrefused
      rw [sent_insertSql u hp, List.foldl_append, he]
      rfl

theorem messages_append (u : Int) (t t' : Table) : messages u (t ++ t') = messages u t ++ messages u t' := by
  rw [messages, List.filter_append, List.map_append]
  rfl

theorem faithful_of_storable (hm : Rules m) {p : String} (hp : '\x00' ∉ p.toList) (hs : Storable p) :
    Faithful m p := by
  intro u hu t
  rw [insert_storable hm hu hp hs, query_eq hm, query_eq hm, messages_append]
  simp [messages, cstring_of_not_mem hp]

theorem plain_of_verbatim {cs : List Char} (hv : verbatim '\'' cs = true) (he : Json.Escaped cs) :
    ∀ c ∈ cs, c ≠ '\'' ∧ c ≠ '\\' := by
  fun_induction verbatim '\'' cs with
  | case1 => exact fun _ hc => absurd hc List.not_mem_nil
  | case2 => cases hv
  | case3 c cs ih =>
    simp only [Bool.and_eq_true, Bool.or_eq_true, decide_eq_true_eq] at hv
    exact (hv.1.elim he.1.1 he.1.2).elim
  | case4 c cs hn hc ih =>
    have hb := ne_backslash hn hc
    simp only [Bool.and_eq_true, decide_eq_true_eq] at hv
    rw [Json.Escaped.eq_4 c cs (fun h => absurd h hb) (fun _ _ h => absurd h hb)] at he
    exact List.forall_mem_cons.mpr ⟨⟨hv.1, hb⟩, ih hv.2 he⟩

theorem storable_of_query (hm : Rules m) {u : Int} {j : Json} (hv : verbatim '\'' j.dump.toList = true)
    (h : query m u (insert m u j.dump []) ≠ []) : Storable j.dump := by
  have hp := Json.nul_not_mem_dump j
  refine ⟨plain_of_verbatim hv (Json.clean_dump j).escaped, ?_⟩
  by_contra hl
  refine h ?_
  rw [insert_str hm u hp (foldl_verbatim hv _ _), List.nil_append, if_neg fun hc => hl hc.2, query_eq hm]
  rfl

theorem length_le_of_query (hm : Rules m) {u x : Int} {msg : List Char} {p : String}
    (h : query m u [(x, String.ofList msg)] = [p]) : p.toList.length ≤ msg.length := by
  have hp : p ∈ query m u [(x, String.ofList msg)] := by simp [h]
  rw [query_eq hm, messages, List.map_map] at hp
  obtain ⟨r, hr, rfl⟩ := List.mem_map.mp hp
  have hr' : r = (x, String.ofList msg) := List.mem_singleton.mp (List.mem_of_mem_filter hr)
  have hl := length_cstring_le (String.ofList msg)
  rw [String.toList_ofList] at hl
  rw [hr']
  exact hl

theorem lit_inj {a b t msg : List Char} (h : insertPrefix a ++ [.lit t] <+: insertTokens b msg) :
    t = msg := by
  simp only [insertTokens, insertPrefix, insertHead, List.cons_append, List.nil_append,
    List.cons_prefix_cons, Token.lit.injEq] at h
  exact h.2.2.2.2.2.2.2.1

/-- For a payload without an apostrophe every engine decides alike. -/
theorem faithful_iff_storable_of_not_mem (hm : Rules m) {j : Json} (hq : '\'' ∉ j.dump.toList) :
    Faithful m j.dump ↔ Storable j.dump := by
  have hp := Json.nul_not_mem_dump j
  refine ⟨fun hf => ?_, faithful_of_storable hm hp⟩
  have h₀ : query m 0 [] = [] := query_eq hm 0 []
  have h := (hf 0 (by decide) []).1
  rw [h₀, List.nil_append] at h
  refine storable_of_query (u := 0) hm ?_ (by simp [h])
  obtain ⟨msg, hs | he⟩ := foldl_of_not_mem hq (insertPrefix (decimal 0).toList) []
  · by_contra hv
    rw [Bool.not_eq_true] at hv
    have hsent := sent_insertSql_str 0 hp hs
    rw [sent_insertSql 0 hp] at hsent
    obtain ⟨t, ht, hpre⟩ := tokens_not_verbatim hv (by decide) hsent
    rw [lit_inj hpre] at ht
    rw [insert_str hm 0 hp hs, List.nil_append] at h
    split at h
    · have hl := length_le_of_query hm h
      omega
    · rw [h₀] at h
      cases h
  · have hsent : sent (insertSql 0 j.dump) = none := by
      rw [sent_insertSql 0 hp, List.foldl_append, he]
      rfl
    rw [insert, Mysql.execUpdate, hsent, Option.bind_none, Option.getD_none, h₀] at h
    cases h

def insertArgs (ts : List Token) : Option (List Char × List Char) :=
  match ts with
  | [_, _, _, _, _, .lit userid, _, .lit msg, _] =>
    if ts = insertTokens userid msg then some (userid, msg) else none
  | _ => none

def removeArg (ts : List Token) : Option (List Char) :=
  match ts with
  | [_, _, _, _, _, _, .lit userid] => if ts = removeTokens userid then some userid else none
  | _ => none

def queryArg (ts : List Token) : Option (List Char) :=
  match ts with
  | [_, _, _, _, _, _, _, .lit userid] => if ts = queryTokens userid then some userid else none
  | _ => none

/-- An engine that refuses every statement that is not of the intended form. -/
def strictMysql : Mysql Table where
  update ts t :=
    match insertArgs ts, removeArg ts with
    | some (userid, msg), _ =>
      let u := leadingInt (String.ofList userid)
      if IsInt u ∧ msg.length ≤ 500 then some (t ++ [(u, String.ofList msg)]) else none
    | none, some userid => some (t.filter (fun r => r.1 ≠ leadingInt (String.ofList userid)))
    | none, none => none
  query ts t := (queryArg ts).map fun userid =>
    (messages (leadingInt (String.ofList userid)) t).map (fun msg => [some msg])

theorem insertArgs_eq_some {ts : List Token} {userid msg : List Char}
    (h : insertArgs ts = some (userid, msg)) : ts = insertTokens userid msg := by
  unfold insertArgs at h
  split at h
  · split at h
    · cases h
      assumption
    · cases h
  · cases h

theorem strictMysql_rules : Rules strictMysql where
  insert u msg t := by
    have h : insertArgs (insertTokens (decimal u).toList msg) = some ((decimal u).toList, msg) := by
      simp [insertArgs, insertTokens, insertPrefix, insertHead]
    simp [strictMysql, h]
  remove u t := by
    have h₁ : insertArgs (removeTokens (decimal u).toList) = none := by
      simp [insertArgs, removeTokens, removeHead]
    have h₂ : removeArg (removeTokens (decimal u).toList) = some (decimal u).toList := by
      simp [removeArg, removeTokens, removeHead]
    simp [strictMysql, h₁, h₂]
  query u t := by
    have h : queryArg (queryTokens (decimal u).toList) = some (decimal u).toList := by
      simp [queryArg, queryTokens, queryHead]
    simp [strictMysql, h]

theorem strictMysql_insert {u : Int} {p : String} {ts : List Token} (hs : sent (insertSql u p) = some ts) :
    insert strictMysql u p [] = [] ∨
      ∃ x msg, insertArgs ts = some msg ∧ insert strictMysql u p [] = [(x, String.ofList msg.2)] := by
  rw [insert, Mysql.execUpdate, hs, Option.bind_some]
  cases hargs : insertArgs ts with
  | none =>
    cases hr : removeArg ts with
    | none => exact Or.inl (by simp only [strictMysql, hargs, hr, Option.getD_none])
    | some userid =>
      exact Or.inl (by simp only [strictMysql, hargs, hr, Option.getD_some, List.filter_nil])
  | some args =>
    simp only [strictMysql, hargs]
    split
    · exact Or.inr ⟨_, args, rfl, rfl⟩
    · exact Or.inl rfl

theorem verbatim_of_strictMysql {j : Json}
    (h : query strictMysql 0 (insert strictMysql 0 j.dump []) = [j.dump]) :
    verbatim '\'' j.dump.toList = true := by
  have h₀ : query strictMysql 0 [] ≠ [j.dump] := by
    rw [query_eq strictMysql_rules]
    exact nofun
  by_contra hv
  rw [Bool.not_eq_true] at hv
  cases hsent : sent (insertSql 0 j.dump) with
  | none =>
    rw [insert, Mysql.execUpdate, hsent] at h
    exact h₀ h
  | some ts =>
    obtain he | ⟨x, msg, hargs, he⟩ := strictMysql_insert hsent
    · exact h₀ (he ▸ h)
    · rw [he] at h
      rw [sent_insertSql 0 (Json.nul_not_mem_dump j)] at hsent
      obtain ⟨t, ht, hpre⟩ := tokens_not_verbatim hv (by decide) hsent
      rw [insertArgs_eq_some hargs] at hpre
      rw [lit_inj hpre] at ht
      have hl := length_le_of_query strictMysql_rules h
      omega

/-- The payload of a JSON value comes back unchanged, whatever MySQL does with
statements of another form, exactly when it has no apostrophe, no backslash and
at most 500 characters. -/
theorem dump_faithful_iff (j : Json) :
    (∀ m, Rules m → Faithful m j.dump) ↔ Storable j.dump := by
  refine ⟨fun h => ?_, fun hs m hm => faithful_of_storable hm (Json.nul_not_mem_dump j) hs⟩
  have h₀ : query strictMysql 0 [] = [] := query_eq strictMysql_rules 0 []
  have hq := (h strictMysql strictMysql_rules 0 (by decide) []).1
  rw [h₀, List.nil_append] at hq
  exact storable_of_query (u := 0) strictMysql_rules (verbatim_of_strictMysql hq) (by simp [hq])

def quotedChat : Json := .obj [("msg", .str "say \"hi\"")]

theorem quotedChat_unfaithful : ¬ ∀ m, Rules m → ∀ j : Json, Faithful m j.dump := by
  intro h
  have hq : '\'' ∉ quotedChat.dump.toList := by decide
  have hs := (faithful_iff_storable_of_not_mem strictMysql_rules hq).mp (h _ strictMysql_rules _)
  exact absurd hs (by decide)

end BridgeIM.Model.OfflineMsgModel
