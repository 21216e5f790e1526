import BridgeIM.Server.Next

namespace BridgeIM.Server.LoginSound

open CString Db Lib.SqlText Model Model.UserModel

variable {N : Type} [DecidableEq N] {E : Engine} {same : String → String → Bool}

/-- A login that queries the table `t` for the name is answered with success
only for the id of a row with this name and this password that is `offline`. -/
def Sound (same : String → String → Bool) (E : Engine) (t : Table) (conn : Conn N) (name password : String) : Prop :=
  ∀ js h pc c ack i, (Task.frame conn js).start = .queryName conn name password →
    Trace E (.frame conn js) (.queryName name (UserModel.queryName E.users name t) :: h) pc →
    .sendJson c ack ∈ h → IsLoginAck i ack →
      ∃ r ∈ t.rows, r.id = i ∧ same r.name name = true ∧ r.password = password ∧ r.state = some .offline

/-- A row that `login` can accept is one of the given name that is `offline`, with
a password that C strings can hold. -/
def RowSound (same : String → String → Bool) (name : String) (r : Record) : Prop :=
  cstring r.name ≠ "" → r.state ≠ some .online →
    same r.name name = true ∧ '\x00' ∉ r.password.toList ∧ r.state = some .offline

variable {n : N} {pick : Option Int} {w : World N} {pc pc' : Pc N}

theorem next_ne_queryName {e : Effect N} (h : pc.next E n pick w = some (e, pc')) (conn : Conn N)
    (name password : String) : pc' ≠ .queryName conn name password := by
  rintro rfl
  cases pc with
  | scanConn c =>
    obtain ⟨u, _, _, hp⟩ | ⟨_, _, hp⟩ := next_scan h
    · split at hp <;> cases hp
    · cases hp
  | _ => grind [Pc.next, checkLogin, nextGroup.eq_def, Option.elim.eq_def]

theorem next_to_updateOnline {e : Effect N} {l : Login N} (h : pc.next E n pick w = some (e, .updateOnline l)) :
    ∃ conn name password, pc = .queryName conn name password := by
  cases pc with
  | queryName conn name password => exact ⟨conn, name, password, rfl⟩
  | scanConn c =>
    obtain ⟨u, _, _, hp⟩ | ⟨_, _, hp⟩ := next_scan h
    · split at hp <;> cases hp
    · cases hp
  | _ => grind [Pc.next, checkLogin, nextGroup.eq_def, Option.elim.eq_def]

/-- A login past its query goes on for the user it has accepted. -/
structure Accepted (conn : Conn N) (password : String) (user : User) (h : List (Effect N)) (pc : Pc N) : Prop where
  past : ∀ conn name password, pc ≠ .queryName conn name password
  checked : ∀ l, pc = .updateOnline l ∨ pc.session = some l →
    ∃ l', checkLogin conn password user = .updateOnline l' ∧ l'.user.id = l.user.id
  acked : ∀ c ack i, .sendJson c ack ∈ h → IsLoginAck i ack →
    ∃ l', checkLogin conn password user = .updateOnline l' ∧ l'.user.id = i

theorem trace_login {task : Task N} {conn : Conn N} {name password : String} {h : List (Effect N)}
    (hs : task.start = .queryName conn name password) (ht : Trace E task h pc) :
    h = [] ∧ pc = .queryName conn name password ∨
      ∃ user rest, h = .queryName name user :: rest ∧ Accepted conn password user h pc := by
  induction ht with
  | start => exact Or.inl ⟨rfl, hs⟩
  | @step h pc pc' e w pick ht hn ih =>
    right
    obtain ⟨rfl, rfl⟩ | ⟨user, rest, rfl, ha⟩ := ih
    · have hn' := hn
      cases hn
      refine ⟨_, [], rfl, next_ne_queryName hn', fun l hl => ?_, fun c ack i hack => ?_⟩
      · obtain hl | hl := hl
        · exact ⟨l, hl, rfl⟩
        · obtain ⟨l', hl', _⟩ | ⟨hp, _⟩ := next_session hn' hl
          · cases hl'
          · cases hp
      · rw [List.nil_append, List.mem_singleton] at hack
        cases hack
    · refine ⟨user, rest ++ [e], rfl, next_ne_queryName hn, fun l hl => ?_, fun c ack i hack hi => ?_⟩
      · obtain rfl | hl := hl
        · obtain ⟨conn', name', password', hp⟩ := next_to_updateOnline hn
          exact absurd hp (ha.past conn' name' password')
        · obtain ⟨l', hl', hu, _⟩ | ⟨rfl, _⟩ := next_session hn hl
          · rw [← hu]
            exact ha.checked l' (Or.inr hl')
          · exact ha.checked l (Or.inl rfl)
      · rw [List.mem_append, List.mem_singleton] at hack
        obtain hack | rfl := hack
        · exact ha.acked c ack i hack hi
        · obtain ⟨l, hl, rfl, _⟩ := trace_isLoginAck ht hn rfl hi
          exact ha.checked l (Or.inr hl)

omit [DecidableEq N] in
theorem checkLogin_eq {conn : Conn N} {password : String} {user : User} {l : Login N}
    (h : checkLogin conn password user = .updateOnline l) :
    user.name ≠ "" ∧ user.password = password ∧ user.state ≠ "online" ∧ l.user.id = user.id := by
  unfold checkLogin at h
  split at h
  · cases h
  split at h
  · cases h
  split at h
  · cases h
  · rename_i h₁ h₂ h₃
    cases h
    exact ⟨h₁, not_not.mp h₂, h₃, rfl⟩

theorem sound_of_sent (hE : E.Rules same) {t : Table} {conn : Conn N} {name password : String} {x : List Char}
    (hx : sent (queryNameSql name) = some (queryNameTokens x))
    (hr : ∀ r ∈ t.rows.find? (fun r => same r.name (String.ofList x)), RowSound same name r) :
    Sound same E t conn name password := by
  intro js h pc c ack i hs ht hack hi
  obtain ⟨hnil, _⟩ | ⟨user, rest, hcons, ha⟩ := trace_login hs ht
  · cases hnil
  · cases hcons
    obtain ⟨l, hl, rfl⟩ := ha.acked c ack i (List.mem_cons_of_mem _ hack) hi
    obtain ⟨hname, hpass, hstate, hid⟩ := checkLogin_eq hl
    rw [queryName_of_sent hE.users hx] at hname hpass hstate hid
    cases hf : t.rows.find? (fun r => same r.name (String.ofList x)) with
    | none =>
      rw [hf] at hname
      exact absurd rfl hname
    | some r =>
      rw [hf] at hname hpass hstate hid
      obtain ⟨hsame, hnul, hoff⟩ := hr r hf hname ((state_user r).mp hstate)
      exact ⟨r, List.mem_of_find?_eq_some hf, hid.symm, hsame, (cstring_of_not_mem hnul).symm.trans hpass, hoff⟩

theorem sound_of_not_sent {t : Table} {conn : Conn N} {name password : String}
    (hx : sent (queryNameSql name) = none) : Sound same E t conn name password := by
  intro js h pc c ack i hs ht hack hi
  obtain ⟨hnil, _⟩ | ⟨user, rest, hcons, ha⟩ := trace_login hs ht
  · cases hnil
  · cases hcons
    obtain ⟨l, hl, _⟩ := ha.acked c ack i (List.mem_cons_of_mem _ hack) hi
    obtain ⟨hname, _⟩ := checkLogin_eq hl
    rw [queryName, Mysql.execQuery, hx] at hname
    exact absurd rfl hname

open Sample

omit [DecidableEq N] in
theorem start_loginFrame (conn : Conn N) (name password : String) :
    (Task.frame conn (loginFrame name password)).start = .queryName conn name password := rfl

theorem trace_accepted (hE : E.Rules same) {t : Table} {conn : Conn N} {name password : String} {l : Login N}
    (hl : checkLogin conn password (UserModel.queryName E.users name t) = .updateOnline l) :
    ∃ h c ack, Trace E (.frame conn (loginFrame name password))
        (.queryName name (UserModel.queryName E.users name t) :: h) .done ∧
      .sendJson c ack ∈ h ∧ IsLoginAck l.user.id ack := by
  let w : World N := { users := t }
  have ho : OfflineMsgModel.query E.offline l.user.id w.offline = [] := OfflineMsgModel.query_eq hE.offline _ _
  have h₁ : Trace E (.frame conn (loginFrame name password))
      [.queryName name (UserModel.queryName E.users name t)] (.updateOnline l) :=
    .step w none .start (by rw [start_loginFrame]; exact congrArg some (congrArg _ hl))
  have h₅ := Trace.step w none (Trace.step w none (Trace.step w none (Trace.step w none h₁ rfl) rfl) rfl) rfl
  rw [ho] at h₅
  have h₇ := Trace.step w none (Trace.step w none h₅ rfl) rfl
  have h₈ := Trace.step w none h₇ rfl
  exact ⟨_, _, _, h₈, List.mem_append_right _ (List.mem_singleton_self _), isLoginAck_loginAck.mpr rfl⟩

/-- A server that answers one statement with a row of its own. -/
def forge (m : Mysql Table) (ts : List Token) (row : Row) : Mysql Table where
  update := m.update
  query ts' t := if ts' = ts then some [row] else m.query ts' t
  insertId := m.insertId

theorem query_forge (m : Mysql Table) (ts ts' : List Token) (row : Row) (t : Table) :
    (forge m ts row).query ts' t = if ts' = ts then some [row] else m.query ts' t := rfl

theorem forge_rules {m : Mysql Table} (hm : Rules same m) {ts : List Token} (row : Row)
    (hn : ∀ x, ts ≠ queryNameTokens x) (hi : ∀ x, ts ≠ queryIdTokens x) : Rules same (forge m ts row) where
  insert := hm.insert
  queryName name t := by
    rw [query_forge, if_neg (Ne.symm (hn name))]
    exact hm.queryName name t
  queryId u t := by
    rw [query_forge, if_neg (Ne.symm (hi _))]
    exact hm.queryId u t
  updateState := hm.updateState
  resetState := hm.resetState

def root (id : Int) : Row := [some (decimal id), some "root", some "", some State.offline.text]

theorem queryName_forge {m : Mysql Table} {name : String} {ts : List Token} (hs : sent (queryNameSql name) = some ts)
    (id : Int) (t : Table) : queryName (forge m ts (root id)) name t =
      { id := id, name := "root", password := "", state := "offline" } := by
  have hq : (forge m ts (root id)).execQuery (queryNameSql name) t = some [root id] := by
    rw [Mysql.execQuery, hs, Option.bind_some, query_forge, if_pos rfl]
  rw [queryName, hq]
  have hname : getString (root id) 1 = "root" := cstring_of_not_mem (by decide)
  have hpass : getString (root id) 2 = "" := cstring_of_not_mem (by decide)
  have hstate : getString (root id) 3 = "offline" := cstring_of_not_mem (by decide)
  simp only [hname, hpass, hstate]
  rw [show getInt (root id) 0 = id from leadingInt_decimal id]

theorem not_sound_of_sent (same : String → String → Bool) (t : Table) (conn : Conn N) {name : String}
    {ts : List Token} (hs : sent (queryNameSql name) = some ts) (hn : ∀ x, ts ≠ queryNameTokens x) :
    ∃ E : Engine, E.Rules same ∧ ¬ Sound same E t conn name "" := by
  have hi (x : List Char) : ts ≠ queryIdTokens x := by
    rintro rfl
    have hp := opens_queryName.begins closes_quote.1 hs
    simp [queryNameHead, queryIdTokens, queryIdHead, kw] at hp
  let E : Engine := ⟨forge (strictMysql same) ts (root t.nextId), OfflineMsgModel.strictMysql⟩
  have hE : E.Rules same := ⟨forge_rules (strictMysql_rules same) _ hn hi, OfflineMsgModel.strictMysql_rules⟩
  refine ⟨E, hE, fun hsound => ?_⟩
  have hu : UserModel.queryName E.users name t =
      { id := t.nextId, name := "root", password := "", state := "offline" } := queryName_forge hs _ t
  have hl : checkLogin conn "" (UserModel.queryName E.users name t) =
      .updateOnline { conn := conn, user := ⟨t.nextId, "root", "", "online"⟩ } := by
    rw [hu]
    simp [checkLogin]
  obtain ⟨h, c, ack, ht, hack, hi⟩ := trace_accepted hE hl
  obtain ⟨r, hr, hid, _⟩ := hsound _ h _ c ack _ (start_loginFrame conn name "") ht hack hi
  have hb := (t.ids r hr).2
  simp only at hid
  omega

theorem rowSound_of_sound (hE : E.Rules same) {t : Table} {conn : Conn N} {name : String} {x : List Char}
    (hx : sent (queryNameSql name) = some (queryNameTokens x)) {r : Record}
    (hr : t.rows.find? (fun r => same r.name (String.ofList x)) = some r)
    (hsound : Sound same E t conn name (cstring r.password)) : RowSound same name r := by
  intro hname hstate
  have hu : UserModel.queryName E.users name t = r.user := by
    rw [queryName_of_sent hE.users hx, hr]
    rfl
  have hl : checkLogin conn (cstring r.password) (UserModel.queryName E.users name t) =
      .updateOnline { conn := conn, user := { r.user with state := "online" } } := by
    have hname' : r.user.name ≠ "" := hname
    have hpass : ¬ r.user.password ≠ cstring r.password := not_not.mpr rfl
    rw [hu, checkLogin, if_neg hname', if_neg hpass, if_neg ((state_user r).mpr hstate)]
  obtain ⟨h, c, ack, ht, hack, hi⟩ := trace_accepted hE hl
  obtain ⟨q, hq, hid, hsame, hpass, hoff⟩ := hsound _ h _ c ack _ (start_loginFrame conn name _) ht hack hi
  obtain rfl := Table.eq_of_id hq (List.mem_of_find?_eq_some hr) hid
  refine ⟨hsame, ?_, hoff⟩
  rw [hpass]
  exact not_mem_cstring _

/-- Login is sound for a name, whatever the server does with statements of
another form, exactly when the statement is no statement at all or a lookup of
one literal that finds a row of this name. The literal is the name exactly when
the name is plain. -/
theorem login_sound_iff (same : String → String → Bool) (t : Table) (conn : Conn N) (name : String) :
    ((∀ E : Engine, E.Rules same → ∀ password, Sound same E t conn name password) ↔
      sent (queryNameSql name) = none ∨ ∃ x, sent (queryNameSql name) = some (queryNameTokens x) ∧
        ∀ r ∈ t.rows.find? (fun r => same r.name (String.ofList x)), RowSound same name r) ∧
    (sent (queryNameSql name) = some (queryNameTokens name.toList) ↔ Plain name) := by
  refine ⟨⟨fun h => ?_, ?_⟩, sent_queryNameSql_iff name⟩
  · cases hs : sent (queryNameSql name) with
    | none => exact Or.inl rfl
    | some ts =>
      by_cases hx : ∃ x, ts = queryNameTokens x
      · obtain ⟨x, rfl⟩ := hx
        have hE : (Engine.strict same).Rules same := Engine.strict_rules same
        exact Or.inr ⟨x, rfl, fun r hr => rowSound_of_sound hE hs hr (h _ hE _)⟩
      · obtain ⟨E, hE, hno⟩ := not_sound_of_sent same t conn hs fun x he => hx ⟨x, he⟩
        exact absurd (h E hE "") hno
  · rintro (hs | ⟨x, hx, hr⟩) E hE password
    · exact sound_of_not_sent hs
    · exact sound_of_sent hE hx hr

/-- A name that ends the literal and selects a row of its own. -/
def unionName : String := "nobody' union select 3,'root','','offline"

theorem unionName_unsound : ¬ ∀ (same : String → String → Bool) (E : Engine) (t : Table) (conn : Conn Unit)
    (name password : String), E.Rules same → Sound same E t conn name password := by
  intro h
  have hs : (sent (queryNameSql unionName)).map List.length = some 17 := by decide +kernel
  obtain ⟨ts, hs, hlen⟩ := Option.map_eq_some_iff.mp hs
  have hn : ∀ x, ts ≠ queryNameTokens x := by
    rintro x rfl
    cases hlen
  obtain ⟨E, hE, hno⟩ := not_sound_of_sent (fun a b => a = b) accounts (⟨(), 0⟩ : Conn Unit) hs hn
  exact hno (h _ E accounts _ unionName "" hE)

end BridgeIM.Server.LoginSound
