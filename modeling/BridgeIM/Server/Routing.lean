import BridgeIM.Server.Exclusive

namespace BridgeIM.Server.Routing

open Db Lib Model Model.UserModel

variable {N : Type} [DecidableEq N] {E : Engine} {same : String → String → Bool}

def LastLogin (log : List (Nat × Effect N)) (u : Int) (conn : Conn N) : Prop :=
  ∃ l tid js l', log = l ++ (tid, .sendJson conn js) :: l' ∧ IsLoginAck u js ∧
    ∀ t c js', (t, .sendJson c js') ∈ l' → ¬ IsLoginAck u js'

def Offline (t : Table) (u : Int) : Prop := (t.find u).isSome = true → t.stateOf u = some .offline

/-- Right after the response of a login the map has its connection, and right
after the connection has closed the user is out of the map and offline. -/
structure Routed (w : World N) : Prop where
  acked : ∀ l tid u conn js, w.log = l ++ [(tid, .sendJson conn js)] → IsLoginAck u js →
    (w.node conn.node).userConnMap.lookup u = some conn
  closed : ∀ conn, w.threads.getLast? = some ⟨.close conn, .done⟩ → ∀ u, LastLogin w.log u conn →
    u ∉ (w.node conn.node).userConnMap ∧ Offline w.users u

def Atomic (w : World N) : Action N → Prop
  | .run .. => True
  | _ => ∀ th ∈ w.threads, th.pc = .done

def ClearAt (w : World N) (n : N) : Pc N → Prop
  | .insertConn l => ∀ conn ∈ (w.node n).userConnMap.lookup l.user.id, conn = l.conn
  | .scanConn conn => ∀ e ∈ (w.node n).userConnMap.entries, ∀ e' ∈ (w.node n).userConnMap.entries,
    e.2 = conn → e'.2 = conn → e.1 = e'.1
  | .insertUser _ user => Plain user.name ∧ Plain user.password ∧ user.state = State.offline.text
  | _ => True

/-- The insert of a login finds no other connection of the user on its node, the
close of a connection finds one user at most, and a registration has plain texts. -/
def Clear (w : World N) : Action N → Prop
  | .run tid _ => ∀ th ∈ w.threads[tid]?, ClearAt w th.task.node th.pc
  | _ => True

def entering (pc : Pc N) : Option Int := pc.session.map fun l => l.user.id

def leaving : Pc N → Option Int
  | .unsubscribe u | .updateOffline u => some u
  | _ => none

def Stage (m : N → ConnMap N) (n : N) : Pc N → Prop
  | .subscribe l | .queryOffline l | .removeOffline l | .queryFriends l | .queryGroup l | .queryMembers l .. |
    .sendAck l => l.conn.node = n ∧ (m n).lookup l.user.id = some l.conn
  | .unsubscribe u | .updateOffline u => u ∉ m n
  | _ => True

/-- The user is mapped to the connection, or is out of the map and offline. -/
def Settled (t : Table) (m : N → ConnMap N) (pc : Pc N) (u : Int) (conn : Conn N) : Prop :=
  (m conn.node).lookup u = some conn ∨ u ∉ m conn.node ∧ (leaving pc ≠ some u → Offline t u)

/-- The table, the maps and the log while the handler of `task` stands at `pc`. -/
structure Local (t : Table) (m : N → ConnMap N) (log : List (Nat × Effect N)) (task : Task N) (pc : Pc N) : Prop where
  kept : ∀ u conn, LastLogin log u conn → entering pc ≠ some u → Settled t m pc u conn
  stage : Stage m task.node pc
  swept : ∀ conn, task = .close conn → pc ≠ .scanConn conn → ∀ u, (m conn.node).lookup u ≠ some conn

omit [DecidableEq N] in
theorem lastLogin_concat {log : List (Nat × Effect N)} {x : Nat × Effect N} {u : Int} {conn : Conn N}
    (h : LastLogin (log ++ [x]) u conn) : (∃ tid js, x = (tid, .sendJson conn js) ∧ IsLoginAck u js) ∨
      LastLogin log u conn ∧ ∀ t c js, x = (t, .sendJson c js) → ¬ IsLoginAck u js := by
  obtain ⟨l, tid, js, l', hl, ha, hn⟩ := h
  obtain rfl | ⟨l', y, rfl⟩ := List.eq_nil_or_concat' l'
  · obtain ⟨_, hx⟩ := List.append_inj' hl rfl
    exact Or.inl ⟨tid, js, List.singleton_inj.mp hx, ha⟩
  · rw [← List.cons_append, ← List.append_assoc] at hl
    obtain ⟨hlog, hx⟩ := List.append_inj' hl rfl
    cases List.singleton_inj.mp hx
    refine Or.inr ⟨⟨l, tid, js, l', hlog, ha, fun t c js' hm => hn t c js' (List.mem_append_left _ hm)⟩, ?_⟩
    rintro t c js' rfl
    exact hn t c js' List.mem_concat_self

omit [DecidableEq N] in
theorem lastLogin_of_concat {log : List (Nat × Effect N)} {tid : Nat} {e : Effect N} {u : Int} {conn : Conn N}
    (he : ∀ c js, e = .sendJson c js → ¬ IsLoginAck u js) (h : LastLogin (log ++ [(tid, e)]) u conn) :
    LastLogin log u conn := by
  obtain ⟨t, js, hx, ha⟩ | ⟨h, _⟩ := lastLogin_concat h
  · exact absurd ha (he conn js (Prod.mk.inj hx).2)
  · exact h

section Local

variable {t t' : Table} {m : N → ConnMap N} {log : List (Nat × Effect N)} {task : Task N} {pc pc' : Pc N}
  {tid : Nat} {e : Effect N}

omit [DecidableEq N] in
theorem Local.pass (h : Local t m log task pc) (hp : ∀ conn, pc ≠ .scanConn conn) (he : ∀ c js u, e = .sendJson c js → ¬ IsLoginAck u js)
    (hin : entering pc' = entering pc) (hout : leaving pc' = leaving pc) (hs : Stage m task.node pc') :
    Local t m (log ++ [(tid, e)]) task pc' where
  kept := by
    intro u conn hl hne
    have hk := h.kept u conn (lastLogin_of_concat (fun c js => he c js u) hl) (hin ▸ hne)
    rw [Settled, hout]
    exact hk
  stage := hs
  swept := fun conn ht _ => h.swept conn ht (hp conn)

omit [DecidableEq N] in
theorem Local.table (h : Local t m log task pc) (ht : ∀ u, entering pc ≠ some u → Offline t u → Offline t' u) :
    Local t' m log task pc where
  kept u conn hl hne := (h.kept u conn hl hne).imp id fun hk => ⟨hk.1, fun hlv => ht u hne (hk.2 hlv)⟩
  stage := h.stage
  swept := h.swept

theorem offline_updateState {u v : Int} {s : State} (h : Offline t v) (hu : u = v → s = .offline) :
    Offline (t.updateState u s) v := by
  intro hf
  rw [Table.isSome_find_updateState] at hf
  rw [Table.stateOf_updateState]
  split
  · obtain ⟨r, hr⟩ := Option.isSome_iff_exists.mp hf
    rw [hr, hu ‹_›]
    rfl
  · exact h hf

theorem offline_resetState {v : Int} (h : Offline t v) : Offline t.resetState v := by
  intro hf
  rw [Table.resetState, Table.isSome_find_modify] at hf
  rw [Table.stateOf_resetState, h hf]
  rfl

theorem offline_insert {i v : Int} {name password : String} (h : Offline t v)
    (ht : t.insert same i name password .offline = some t') : Offline t' v := by
  by_cases hi : i = v
  · intro _
    rw [Table.stateOf, Table.find_insert ht, if_pos hi]
    rfl
  · have hf := Table.find_insert ht v
    rw [if_neg hi] at hf
    rw [Offline, Table.stateOf, hf]
    exact h

omit [DecidableEq N] in
theorem local_updateOnline {l : Login N} (h : Local t m log task (.updateOnline l)) :
    Local (t.updateState l.user.id .online) m (log ++ [(tid, .updateState l.user.id .online)]) task (.insertConn l) where
  kept := by
    intro u conn hl hne
    have hu : l.user.id ≠ u := fun he => hne (congrArg some he)
    have hk := h.kept u conn (lastLogin_of_concat (by simp) hl) (by simp [entering, Pc.session])
    exact hk.imp id fun hk => ⟨hk.1, fun _ => offline_updateState (hk.2 (by simp [leaving])) fun he => absurd he hu⟩
  stage := trivial
  swept := fun conn ht _ => h.swept conn ht (by simp)

theorem local_insertConn {l : Login N} (h : Local t m log task (.insertConn l)) (hc : l.conn.node = task.node)
    (hclear : ∀ conn ∈ (m task.node).lookup l.user.id, conn = l.conn) (hclose : ∀ conn, task ≠ .close conn) :
    Local t (Function.update m task.node ((m task.node).insertNew l.user.id l.conn))
      (log ++ [(tid, .insertConn l.user.id l.conn)]) task (.subscribe l) where
  kept := by
    intro u conn hl hne
    have hu : u ≠ l.user.id := fun he => hne (congrArg some he.symm)
    have hk := h.kept u conn (lastLogin_of_concat (by simp) hl) hne
    have hlook : (Function.update m task.node ((m task.node).insertNew l.user.id l.conn) conn.node).lookup u =
        (m conn.node).lookup u := by
      by_cases hn : conn.node = task.node
      · rw [hn, Function.update_self, ConnMap.insertNew]
        split
        · rfl
        · exact AList.lookup_insert_ne hu
      · rw [Function.update_of_ne hn]
    rw [Settled, ← AList.lookup_eq_none, hlook, AList.lookup_eq_none]
    exact hk
  stage := by
    refine ⟨hc, ?_⟩
    rw [Function.update_self, ConnMap.insertNew]
    split
    · rename_i hin
      obtain ⟨conn, hl⟩ := Option.isSome_iff_exists.mp (AList.lookup_isSome.mpr hin)
      rw [hl, hclear conn hl]
    · exact AList.lookup_insert _
  swept := fun conn ht => absurd ht (hclose conn)

omit [DecidableEq N] in
theorem local_sendAck {l : Login N} (h : Local t m log task (.sendAck l)) :
    Local t m (log ++ [(tid, .sendJson l.conn (loginAck l))]) task .done where
  kept := by
    intro u conn hl _
    obtain ⟨_, js, hx, ha⟩ | ⟨hl, hn⟩ := lastLogin_concat hl
    · cases hx
      obtain rfl := isLoginAck_loginAck.mp ha
      exact Or.inl (h.stage.1 ▸ h.stage.2)
    · have hu : l.user.id ≠ u := fun he => hn tid l.conn _ rfl (isLoginAck_loginAck.mpr he)
      exact h.kept u conn hl fun he => hu (Option.some.inj he)
  stage := trivial
  swept := fun conn ht _ => h.swept conn ht (by simp)

theorem local_erase {v : Int} (h : Local t m log task pc) (he : ∀ c js u, e = .sendJson c js → ¬ IsLoginAck u js)
    (hin : entering pc = none) (hout : leaving pc = none)
    (hpc : pc' = .unsubscribe v ∨ pc' = .done ∧ t.find v = none)
    (hswept : ∀ conn, task = .close conn → ∀ u, u ≠ v → (m conn.node).lookup u ≠ some conn) :
    Local t (Function.update m task.node ((m task.node).erase v)) (log ++ [(tid, e)]) task pc' where
  kept := by
    intro u conn hl _
    have hk := h.kept u conn (lastLogin_of_concat (fun c js => he c js u) hl) (by rw [hin]; simp)
    have hoff : u ∉ m conn.node → Offline t u := fun hu =>
      hk.elim (fun hs => absurd (AList.lookup_isSome.mp (by rw [hs]; rfl)) hu) fun hs => hs.2 (by rw [hout]; simp)
    by_cases hn : conn.node = task.node
    · by_cases hu : u = v
      · subst hu
        refine Or.inr ⟨by rw [hn, Function.update_self]; exact fun hm => (AList.mem_erase.mp hm).1 rfl, fun hlv => ?_⟩
        obtain rfl | ⟨rfl, hnone⟩ := hpc
        · exact absurd rfl hlv
        · intro hf
          rw [hnone] at hf
          cases hf
      · rw [Settled, hn, Function.update_self, AList.lookup_erase_ne hu, AList.mem_erase, ← hn]
        exact hk.imp id fun hs => ⟨fun hm => hs.1 hm.2, fun _ => hoff hs.1⟩
    · rw [Settled, Function.update_of_ne hn]
      exact hk.imp id fun hs => ⟨hs.1, fun _ => hoff hs.1⟩
  stage := by
    obtain rfl | ⟨rfl, _⟩ := hpc
    · intro hm
      rw [Function.update_self] at hm
      exact (AList.mem_erase.mp hm).1 rfl
    · trivial
  swept := by
    intro conn ht _ u
    have hn : conn.node = task.node := by rw [ht]; rfl
    rw [hn, Function.update_self]
    by_cases hu : u = v
    · rw [hu, AList.lookup_erase]
      exact (Option.some_ne_none _).symm
    · rw [AList.lookup_erase_ne hu, ← hn]
      exact hswept conn ht u hu

omit [DecidableEq N] in
theorem local_updateOffline {v : Int} (h : Local t m log task (.updateOffline v)) :
    Local (t.updateState v .offline) m (log ++ [(tid, .updateState v .offline)]) task .done where
  kept := by
    intro u conn hl hne
    obtain hk | ⟨hk, hoff⟩ := h.kept u conn (lastLogin_of_concat (by simp) hl) hne
    · exact Or.inl hk
    · refine Or.inr ⟨hk, fun _ => ?_⟩
      by_cases hu : v = u
      · intro hf
        rw [Table.isSome_find_updateState] at hf
        obtain ⟨r, hr⟩ := Option.isSome_iff_exists.mp hf
        rw [Table.stateOf_updateState, if_pos hu, hr]
        rfl
      · exact offline_updateState (hoff fun hlv => hu (Option.some.inj hlv)) fun he => absurd he hu
  stage := trivial
  swept := fun conn ht _ => h.swept conn ht (by simp)

end Local

def maps (w : World N) (n : N) : ConnMap N := (w.node n).userConnMap

abbrev Steady (w : World N) (task : Task N) (pc : Pc N) : Prop := Local w.users (maps w) w.log task pc

section Advance

variable {w w' : World N} {tid : Nat} {th : Thread N} {e : Effect N} {pc : Pc N} {pick : Option Int}

theorem maps_advance : maps (w.advance E tid th e pc) =
    Function.update (maps w) th.task.node (e.onMap (maps w th.task.node)) := by
  funext k
  rw [maps, node_advance]
  by_cases hk : k = th.task.node
  · subst hk
    rw [Function.update_self, Effect.onNode, if_pos (decide_eq_true rfl)]
    rfl
  · rw [Function.update_of_ne hk, Effect.onNode, if_neg (by simpa using hk)]
    rfl

theorem find_neg (t : Table) : t.find (-1) = none := by
  rw [Option.eq_none_iff_forall_not_mem]
  intro r hr
  have hpos := (t.ids r (Table.mem_of_find hr)).1
  rw [Table.id_of_find hr] at hpos
  omega

theorem steady_same (hm : e.onMap (maps w th.task.node) = maps w th.task.node)
    (h : Local (e.onUsers E w.users) (maps w) (w.log ++ [(tid, e)]) th.task pc) :
    Steady (w.advance E tid th e pc) th.task pc := by
  rw [Steady, maps_advance, hm, Function.update_eq_self]
  exact h

omit [DecidableEq N] in
theorem entering_checkLogin (conn : Conn N) (password : String) (user : User) :
    entering (checkLogin conn password user) = none ∧ leaving (checkLogin conn password user) = none ∧
      ∀ m n, Stage m n (checkLogin conn password user) := by
  unfold checkLogin
  split
  · exact ⟨rfl, rfl, fun _ _ => trivial⟩
  split
  · exact ⟨rfl, rfl, fun _ _ => trivial⟩
  split <;> exact ⟨rfl, rfl, fun _ _ => trivial⟩

omit [DecidableEq N] in
theorem Local.nextGroup {t : Table} {m : N → ConnMap N} {log : List (Nat × Effect N)} {task : Task N}
    (h : Local t m log task pc) (l : Login N) (hp : ∀ conn, pc ≠ .scanConn conn)
    (he : ∀ c js u, e = .sendJson c js → ¬ IsLoginAck u js) (hin : entering pc = some l.user.id)
    (hout : leaving pc = none) (hs : l.conn.node = task.node ∧ (m task.node).lookup l.user.id = some l.conn)
    (todo : List GroupModel.Group) : Local t m (log ++ [(tid, e)]) task (nextGroup l todo) := by
  cases todo with
  | nil => exact h.pass hp he hin.symm hout.symm hs
  | cons g todo => exact h.pass hp he hin.symm hout.symm hs

/-- The points from which a handler changes no map, no state and answers no login. -/
def quiet : Pc N → Bool
  | .isFriend .. | .findConn .. | .queryState .. | .publish .. | .findSubscribed .. | .insertOffline .. |
    .sendPayload .. | .done => true
  | _ => false

theorem next_quiet {n : N} {pc' : Pc N} (hq : quiet pc = true) (h : pc.next E n pick w = some (e, pc')) :
    (∀ t, e.onUsers E t = t) ∧ (∀ m, e.onMap m = m) ∧ (∀ c js u, e = .sendJson c js → ¬ IsLoginAck u js) ∧
      entering pc' = none ∧ leaving pc' = none ∧ ∀ m k, Stage m k pc' := by
  cases pc with
  | isFriend conn userid toid payload | queryState u payload =>
    cases h
    refine ⟨fun _ => rfl, fun _ => rfl, by simp, ?_⟩
    split <;> exact ⟨rfl, rfl, fun _ _ => trivial⟩
  | findConn u payload | findSubscribed u payload =>
    cases h
    refine ⟨fun _ => rfl, fun _ => rfl, by simp, ?_⟩
    cases (w.node n).userConnMap.lookup u <;> exact ⟨rfl, rfl, fun _ _ => trivial⟩
  | publish u payload | insertOffline u payload | sendPayload conn payload =>
    cases h
    exact ⟨fun _ => rfl, fun _ => rfl, by simp, rfl, rfl, fun _ _ => trivial⟩
  | done => cases h
  | _ => cases hq

omit [DecidableEq N] in
theorem quiet_entering (hq : quiet pc = true) :
    entering pc = none ∧ leaving pc = none ∧ ∀ conn, pc ≠ .scanConn conn := by
  refine ⟨?_, ?_, ?_⟩
  · cases pc <;> first | rfl | cases hq
  · cases pc <;> first | rfl | cases hq
  · rintro conn rfl
    cases hq

/-- What one step of the running handler does to the stores. -/
theorem local_advance (hE : E.Rules same) {h : List (Effect N)} (hT : Trace E th.task h th.pc)
    (hl : Steady w th.task th.pc) (hclear : ClearAt w th.task.node th.pc)
    (hn : th.pc.next E th.task.node pick w = some (e, pc)) : Steady (w.advance E tid th e pc) th.task pc := by
  cases hpc : th.pc with
  | queryName conn name password =>
    rw [hpc] at hn hl
    cases hn
    obtain ⟨hin, hout, hs⟩ := entering_checkLogin conn password (UserModel.queryName E.users name w.users)
    exact steady_same rfl (hl.pass (by simp) (by simp) hin hout (hs _ _))
  | updateOnline l =>
    rw [hpc] at hn hl
    cases hn
    refine steady_same rfl ?_
    rw [onUsers_updateState (N := N) hE]
    exact local_updateOnline hl
  | insertConn l =>
    rw [hpc] at hn hl hT hclear
    cases hn
    obtain ⟨js, htask⟩ := trace_conn hT rfl
    rw [Steady, maps_advance]
    refine local_insertConn hl (by rw [htask]; rfl) hclear ?_
    rw [htask]
    simp
  | subscribe l =>
    rw [hpc] at hn hl
    cases hn
    exact steady_same rfl (hl.pass (by simp) (by simp) rfl rfl hl.stage)
  | queryOffline l =>
    rw [hpc] at hn hl
    cases hn
    refine steady_same rfl ?_
    split <;> exact hl.pass (by simp) (by simp) rfl rfl hl.stage
  | removeOffline l | queryFriends l =>
    rw [hpc] at hn hl
    cases hn
    exact steady_same rfl (hl.pass (by simp) (by simp) rfl rfl hl.stage)
  | queryGroup l =>
    rw [hpc] at hn hl
    cases hn
    exact steady_same rfl (hl.nextGroup l (by simp) (by simp) rfl rfl hl.stage _)
  | queryMembers l g todo =>
    rw [hpc] at hn hl
    cases hn
    exact steady_same rfl (hl.nextGroup
      { l with groups := l.groups ++ [{ g with users := GroupModel.queryMembers g.id w.groups w.users }] }
      (by simp) (by simp) rfl rfl hl.stage _)
  | sendAck l =>
    rw [hpc] at hn hl
    cases hn
    exact steady_same rfl (local_sendAck hl)
  | eraseConn v =>
    rw [hpc] at hn hl
    cases hn
    rw [Steady, maps_advance]
    exact local_erase hl (by simp) rfl rfl (Or.inl rfl) fun conn ht u _ => hl.swept conn ht (by simp) u
  | unsubscribe v =>
    rw [hpc] at hn hl
    cases hn
    exact steady_same rfl (hl.pass (by simp) (by simp) rfl rfl hl.stage)
  | updateOffline v =>
    rw [hpc] at hn hl
    cases hn
    refine steady_same rfl ?_
    rw [onUsers_updateState (N := N) hE]
    exact local_updateOffline hl
  | insertUser conn user =>
    rw [hpc] at hn hl hclear
    cases hn
    refine steady_same rfl ((hl.table fun u _ hu => ?_).pass (by simp) (by simp) rfl rfl trivial)
    have hp : (Effect.insertUser user ((UserModel.insert E.users user w.users).map Prod.fst) : Effect N).PlainInsert :=
      hclear
    obtain ht | ⟨i, t', ht', ht⟩ := onUsers_insertUser hE hp w.users
    · rw [ht]
      exact hu
    · rw [ht]
      exact offline_insert hu ht'
  | scanConn conn =>
    rw [hpc] at hn hl hclear hT
    have htask := trace_scanning hT rfl
    have hnode : th.task.node = conn.node := by rw [htask]; rfl
    obtain ⟨v, hv, rfl, rfl⟩ | ⟨hh, rfl, rfl⟩ := next_scan hn
    · have hsole : ∀ u, u ≠ v → (maps w th.task.node).lookup u ≠ some conn := fun u hu hl =>
        hu (hclear _ (AList.mem_lookup_iff.mp hl) _ (AList.mem_lookup_iff.mp hv) rfl rfl)
      rw [Steady, maps_advance]
      refine local_erase hl (by simp) rfl rfl ?_ fun c hc u hu => ?_
      · by_cases h1 : v = -1
        · exact Or.inr ⟨if_pos h1, h1 ▸ find_neg w.users⟩
        · exact Or.inl (if_neg h1)
      · cases htask.symm.trans hc
        exact hnode ▸ hsole u hu
    · refine steady_same rfl ⟨fun u c hl' hne => ?_, trivial, fun c hc _ u hu => ?_⟩
      · exact hl.kept u c (lastLogin_of_concat (by simp) hl') hne
      · cases htask.symm.trans hc
        have hin : (⟨u, conn⟩ : Sigma fun _ : Int => Conn N) ∈ (maps w conn.node).entries := AList.mem_lookup_iff.mp hu
        rw [← hnode] at hin
        exact List.any_eq_false.mp hh _ hin (decide_eq_true rfl)
  | resetState =>
    rw [hpc] at hn hl
    cases hn
    refine steady_same rfl ((hl.table fun u _ hu => ?_).pass (by simp) (by simp) rfl rfl trivial)
    rw [onUsers_resetState (N := N) hE]
    exact offline_resetState hu
  | sendJson conn js =>
    rw [hpc] at hn hl hT
    cases hn
    have hno : ∀ c js' u, (Effect.sendJson conn js : Effect N) = .sendJson c js' → ¬ IsLoginAck u js' := by
      intro c js' u he ha
      cases he
      obtain ⟨errno, errmsg, hne, rfl⟩ | ⟨id, rfl⟩ | rfl := trace_to_sendJson hT
      · exact not_isLoginAck_loginError hne errmsg ha
      · exact not_isLoginAck_regAck id ha
      · exact not_isLoginAck_notFriends ha
    exact steady_same rfl (hl.pass (by simp) hno rfl rfl trivial)
  | _ =>
    have hq : quiet th.pc = true := by rw [hpc]; rfl
    obtain ⟨hu, hm, he, hin, hout, hs⟩ := next_quiet hq hn
    obtain ⟨hin', hout', hp⟩ := quiet_entering hq
    refine steady_same (hm _) ?_
    rw [hu]
    exact hl.pass hp he (hin.trans hin'.symm) (hout.trans hout'.symm) (hs _ _)

end Advance

/-- All handlers but the last have ended, and the stores are as the last one has
them where it stands. -/
structure Inv (w : World N) : Prop where
  ended : ∀ i th, w.threads[i]? = some th → i + 1 ≠ w.threads.length → th.pc = .done
  last : ∀ i th, w.threads[i]? = some th → i + 1 = w.threads.length → Steady w th.task th.pc
  acked : ∀ l tid u conn js, w.log = l ++ [(tid, .sendJson conn js)] → IsLoginAck u js →
    (w.node conn.node).userConnMap.lookup u = some conn

variable {w w' : World N}

omit [DecidableEq N] in
theorem routed_of_inv (h : Inv w) : Routed w where
  acked := h.acked
  closed := by
    intro conn hth u hl
    rw [List.getLast?_eq_getElem?] at hth
    have hlt := (List.getElem?_eq_some_iff.mp hth).1
    have hs := h.last _ _ hth (by omega)
    obtain hk | ⟨hk, hoff⟩ := hs.kept u conn hl (by simp [entering, Pc.session])
    · exact absurd hk (hs.swept conn rfl (by simp) u)
    · exact ⟨hk, hoff (by simp [leaving])⟩

omit [DecidableEq N] in
theorem steady_frame (hf : SameStores w w') {task : Task N} {pc : Pc N} (h : Steady w task pc) :
    Steady w' task pc := by
  have hm : maps w' = maps w := funext hf.map
  rw [Steady, hf.users, hm, hf.log]
  exact h

omit [DecidableEq N] in
theorem inv_same (hf : SameStores w w') (ht : w'.threads = w.threads) (h : Inv w) : Inv w' where
  ended := ht ▸ h.ended
  last := fun i th hth hi => steady_frame hf (h.last i th (ht ▸ hth) (ht ▸ hi))
  acked := by
    intro l tid u conn js hl ha
    rw [hf.log] at hl
    rw [hf.map]
    exact h.acked l tid u conn js hl ha

omit [DecidableEq N] in
theorem initial_still (task : Task N) : entering task.start = none ∧ leaving task.start = none ∧
    ∀ (m : N → ConnMap N) n, Stage m n task.start := by
  have hi := initial_start task
  cases hp : task.start <;> rw [hp] at hi <;> first | exact ⟨rfl, rfl, fun _ _ => trivial⟩ | cases hi

theorem inv_spawn (hf : SameStores w w') (hT : Traced E w) {task : Task N}
    (ht : w'.threads = w.threads ++ [⟨task, task.start⟩]) (hall : ∀ th ∈ w.threads, th.pc = .done) (h : Inv w) :
    Inv w' where
  ended := by
    intro i th hth hi
    rw [ht] at hth hi
    obtain hth | ⟨rfl, _⟩ := getElem?_of_concat hth
    · exact hall th (List.mem_of_getElem? hth)
    · rw [List.length_append] at hi
      exact absurd rfl hi
  last := by
    intro i th hth hi
    rw [ht] at hth hi
    rw [List.length_append, List.length_singleton, Nat.add_right_cancel_iff] at hi
    obtain hth | ⟨_, rfl⟩ := getElem?_of_concat hth
    · exact absurd hi (List.getElem?_eq_some_iff.mp hth).1.ne
    obtain ⟨hin, hout, hs⟩ := initial_still task
    refine steady_frame hf ⟨fun u conn hl _ => ?_, hs _ _, ?_⟩
    · obtain ⟨l, tid, js, l', hlog, _⟩ := id hl
      have hlt := hT.known (tid, .sendJson conn js) (by rw [hlog]; simp)
      obtain ⟨th, hth⟩ : ∃ th, w.threads[w.threads.length - 1]? = some th :=
        ⟨_, List.getElem?_eq_getElem (by omega)⟩
      have hd := hall th (List.mem_of_getElem? hth)
      have hst := h.last _ th hth (by omega)
      rw [hd] at hst
      have hk := hst.kept u conn hl (by simp [entering, Pc.session])
      rw [Settled, hout]
      exact hk
    · rintro conn rfl hne
      exact absurd rfl hne
  acked := by
    intro l tid u conn js hl ha
    rw [hf.log] at hl
    rw [hf.map]
    exact h.acked l tid u conn js hl ha

theorem inv_advance (hE : E.Rules same) (hT : Traced E w) (h : Inv w) {tid : Nat} {pick : Option Int} {th : Thread N}
    {e : Effect N} {pc : Pc N} (hclear : Clear w (.run tid pick)) (hth : w.threads[tid]? = some th)
    (hn : th.pc.next E th.task.node pick w = some (e, pc)) : Inv (w.advance E tid th e pc) := by
  have hlen : (w.advance E tid th e pc).threads.length = w.threads.length := List.length_set
  have hlast : tid + 1 = w.threads.length := by
    by_contra hne
    rw [h.ended tid th hth hne] at hn
    cases hn
  have hs := h.last tid th hth hlast
  refine ⟨fun i th' hi hne => ?_, fun i th' hi he => ?_, fun l i u conn js hl ha => ?_⟩
  · rw [hlen] at hne
    obtain ⟨rfl, _⟩ | ⟨_, hi⟩ := getElem?_of_set hi
    · exact absurd hlast hne
    · exact h.ended i th' hi hne
  · rw [hlen] at he
    obtain ⟨_, rfl⟩ | ⟨hne, _⟩ := getElem?_of_set hi
    · exact local_advance hE (hT.trace tid th hth) hs (hclear th hth) hn
    · exact absurd (Nat.add_right_cancel (he.trans hlast.symm)) hne
  · cases (List.append_inj' hl rfl).2
    obtain ⟨l, hsess, rfl, rfl⟩ := trace_isLoginAck (hT.trace tid th hth) hn rfl ha
    obtain ⟨_, ⟨l', hpc, _⟩ | hpc⟩ := next_sendJson hn
    · rw [hpc] at hsess hs
      cases hsess
      obtain ⟨hnode, hlook⟩ := hs.stage
      have hm : maps (w.advance E tid th (.sendJson l.conn js) pc) = maps w :=
        maps_advance.trans (Function.update_eq_self _ _)
      change (maps (w.advance E tid th (.sendJson l.conn js) pc) l.conn.node).lookup l.user.id = some l.conn
      rw [hm, hnode]
      exact hlook
    · rw [hpc] at hsess
      cases hsess

theorem inv_step (hE : E.Rules same) (hT : Traced E w) (h : Inv w) {a : Action N} (hatomic : Atomic w a)
    (hclear : Clear w a) (hs : step E w a = some w') : Inv w' := by
  cases a with
  | start task =>
    simp only [step] at hs
    split at hs
    · cases hs
    · cases hs
      exact inv_spawn (sameStores_spawn task w) hT rfl hatomic h
  | run tid pick =>
    obtain ⟨th, hth, hs⟩ := Option.bind_eq_some_iff.mp hs
    obtain ⟨⟨e, pc⟩, hn, rfl⟩ := Option.map_eq_some_iff.mp hs
    exact inv_advance hE hT h hclear hth hn
  | listen n l =>
    obtain ⟨hf, ht | ⟨task, _, ht⟩⟩ := listen_frame hs
    · exact inv_same hf ht h
    · exact inv_spawn hf hT ht hatomic h

omit [DecidableEq N] in
theorem inv_fresh (h : w.Fresh) : Inv w where
  ended := by
    intro i th hth
    rw [h.threads] at hth
    cases hth
  last := by
    intro i th hth
    rw [h.threads] at hth
    cases hth
  acked := by
    intro l tid u conn js hl
    rw [h.log] at hl
    simp at hl

/-- In every run of handlers that take their turns a successful login routes to
its connection until that closes. -/
theorem login_routed (hE : E.Rules same) (w₀ w : World N) (h₀ : w₀.Fresh) (as : List (Action N))
    (hatomic : (cluster N E).Meets Atomic w₀ as) (hclear : (cluster N E).Meets Clear w₀ as)
    (hr : (cluster N E).run w₀ as = some w) : Routed w := by
  have h : Traced E w ∧ Inv w :=
    Machine.run_invariant (I := fun w => Traced E w ∧ Inv w) ⟨traced_fresh h₀, inv_fresh h₀⟩
      (fun _ _ _ hi hok hs => ⟨hi.1.step hs, inv_step hE hi.1 hi.2 hok.1 hok.2 hs⟩)
      (Machine.meets_and hatomic hclear) hr
  exact routed_of_inv h.2

instance decidableAtomic (w : World N) : ∀ a : Action N, Decidable (Atomic w a)
  | .run .. => isTrue trivial
  | .start _ | .listen .. =>
    decidable_of_iff (∀ th ∈ w.threads, th.pc.isDone = true) (forall₂_congr fun _ _ => isDone_iff)

instance decidableClearAt (w : World N) (n : N) : ∀ pc : Pc N, Decidable (ClearAt w n pc)
  | .insertConn l => inferInstanceAs (Decidable (∀ conn ∈ (w.node n).userConnMap.lookup l.user.id, conn = l.conn))
  | .scanConn conn => inferInstanceAs (Decidable (∀ e ∈ (w.node n).userConnMap.entries,
    ∀ e' ∈ (w.node n).userConnMap.entries, e.2 = conn → e'.2 = conn → e.1 = e'.1))
  | .insertUser _ user =>
    inferInstanceAs (Decidable (Plain user.name ∧ Plain user.password ∧ user.state = State.offline.text))
  | .queryName .. | .updateOnline _ | .subscribe _ | .queryOffline _ | .removeOffline _ | .queryFriends _ |
    .queryGroup _ | .queryMembers .. | .sendAck _ | .eraseConn _ | .unsubscribe _ | .updateOffline _ |
    .isFriend .. | .findConn .. | .queryState .. | .publish .. | .findSubscribed .. | .insertOffline .. |
    .sendPayload .. | .sendJson .. | .resetState | .done => isTrue trivial

instance decidableClear (w : World N) : ∀ a : Action N, Decidable (Clear w a)
  | .run tid _ => inferInstanceAs (Decidable (∀ th ∈ w.threads[tid]?, ClearAt w th.task.node th.pc))
  | .start _ | .listen .. => isTrue trivial

open Sample

def world : World Bool := { users := accounts }

def visit : List (Action Bool) :=
  .start (.frame ⟨false, 0⟩ (loginFrame "alice" "a")) :: runs 0 8 ++
    .start (.frame ⟨true, 0⟩ (loginFrame "bob" "b")) :: runs 1 8 ++
      [.start (.close ⟨false, 0⟩), .run 2 (some 1), .run 2 none, .run 2 none]

theorem login_routed_visit : ∃ w, (cluster Bool engine).run world visit = some w ∧ Routed w := by
  have hs : ((cluster Bool engine).run world visit).isSome = true ∧ (cluster Bool engine).Meets Atomic world visit ∧
      (cluster Bool engine).Meets Clear world visit := by decide +kernel
  obtain ⟨w, hw⟩ := Option.isSome_iff_exists.mp hs.1
  exact ⟨w, hw, login_routed (Engine.strict_rules _) world w ⟨rfl, rfl, fun _ => rfl⟩ visit hs.2.1 hs.2.2 hw⟩

/-- bob is logged in at one node when the other node stops, and logs in again
where he was on a new connection. -/
def again : List (Action Bool) :=
  .start (.frame ⟨true, 0⟩ (loginFrame "bob" "b")) :: runs 0 8 ++
    [.start (.reset false), .run 1 none] ++ .start (.frame ⟨true, 1⟩ (loginFrame "bob" "b")) :: runs 2 8

def answered (w : World N) : Option (Conn N × Int) :=
  match w.log.getLast? with
  | some (_, .sendJson conn js) => (Exclusive.ackOf js).map fun u => (conn, u)
  | _ => none

omit [DecidableEq N] in
theorem lookup_of_answered {conn : Conn N} {u : Int} (h : Routed w) (ha : answered w = some (conn, u)) :
    (w.node conn.node).userConnMap.lookup u = some conn := by
  unfold answered at ha
  split at ha
  · rename_i tid c js hlast
    obtain ⟨v, hv, he⟩ := Option.map_eq_some_iff.mp ha
    cases he
    obtain ⟨l, hl⟩ := List.getLast?_eq_some_iff.mp hlast
    exact h.acked l tid u conn js hl (Exclusive.isLoginAck_of_ackOf hv)
  · cases ha

theorem stale_connection : ¬ ∀ (E : Engine) (w₀ w : World Bool) (as : List (Action Bool)),
    E.Rules (fun a b => a = b) → w₀.Fresh → (cluster Bool E).Meets Atomic w₀ as →
      (cluster Bool E).run w₀ as = some w → Routed w := by
  intro h
  have hb : ((cluster Bool engine).run world again).map (fun w =>
        (answered w, (w.node true).userConnMap.lookup 2)) = some (some (⟨true, 1⟩, 2), some ⟨true, 0⟩) ∧
      (cluster Bool engine).Meets Atomic world again := by decide +kernel
  obtain ⟨w, hw, hv⟩ := Option.map_eq_some_iff.mp hb.1
  obtain ⟨ha, hl⟩ := Prod.mk.inj hv
  have hr := lookup_of_answered (h engine world w again (Engine.strict_rules _) ⟨rfl, rfl, fun _ => rfl⟩ hb.2 hw) ha
  cases hl.symm.trans hr

end BridgeIM.Server.Routing
