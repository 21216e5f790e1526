import BridgeIM.Server.Run

namespace BridgeIM.Server

open Model Model.UserModel

variable {N : Type} [DecidableEq N] {E : Engine} {n : N} {pick : Option Int} {w : World N} {pc pc' : Pc N}

def Pc.initial : Pc N → Bool
  | .queryName .. | .eraseConn _ | .insertUser .. | .isFriend .. | .scanConn _ | .findConn .. |
    .findSubscribed .. | .resetState | .done => true
  | _ => false

omit [DecidableEq N] in
theorem initial_getHandler (msgid : Int) (conn : Conn N) (js : Json) :
    (getHandler msgid conn js).initial = true := by
  unfold getHandler
  split
  · unfold login
    split <;> rfl
  split
  · unfold loginout
    split <;> rfl
  split
  · unfold reg
    split <;> rfl
  split
  · unfold oneChat
    split <;> rfl
  · rfl

omit [DecidableEq N] in
theorem initial_start (task : Task N) : task.start.initial = true := by
  cases task with
  | frame conn js =>
    rw [Task.start]
    split
    · exact initial_getHandler _ conn js
    · rfl
  | _ => rfl

theorem next_scan {conn : Conn N} {e : Effect N} (h : (Pc.scanConn conn).next E n pick w = some (e, pc')) :
    (∃ u, (w.node n).userConnMap.lookup u = some conn ∧ e = .scanConn conn (some u) ∧
      pc' = if u = -1 then .done else .unsubscribe u) ∨
    (w.node n).userConnMap.holds conn = false ∧ e = .scanConn conn none ∧ pc' = .done := by
  cases pick with
  | none =>
    simp only [Pc.next] at h
    split at h
    · cases h
    · rename_i hh
      cases h
      exact Or.inr ⟨by simpa using hh, rfl, rfl⟩
  | some u =>
    simp only [Pc.next] at h
    split at h
    · rename_i hh
      cases h
      exact Or.inl ⟨u, hh, rfl, rfl⟩
    · cases h

theorem next_ne_scan {e : Effect N} (h : pc.next E n pick w = some (e, pc'))
    (he : ∀ conn found, e ≠ .scanConn conn found) (conn : Conn N) : pc ≠ .scanConn conn := by
  rintro rfl
  obtain ⟨u, _, rfl, _⟩ | ⟨_, rfl, _⟩ := next_scan h
  · exact he _ _ rfl
  · exact he _ _ rfl

theorem next_scanConn {conn : Conn N} {found : Option Int}
    (h : pc.next E n pick w = some (.scanConn conn found, pc')) : pc = .scanConn conn := by
  cases pc with
  | scanConn c =>
    obtain ⟨u, _, he, _⟩ | ⟨_, he, _⟩ := next_scan h
    · cases he
      rfl
    · cases he
      rfl
  | _ => simp [Pc.next] at h

theorem next_online {u : Int} (h : pc.next E n pick w = some (.updateState u .online, pc')) :
    ∃ l, pc = .updateOnline l ∧ u = l.user.id ∧ pc' = .insertConn l := by
  have hs := next_ne_scan h (by simp)
  cases pc <;> simp_all [Pc.next]

theorem next_insertUser {user : User} {id : Option Int}
    (h : pc.next E n pick w = some (.insertUser user id, pc')) :
    ∃ conn, pc = .insertUser conn user ∧ id = (UserModel.insert E.users user w.users).map Prod.fst ∧
      pc' = .sendJson conn (regAck id) := by
  have hs := next_ne_scan h (by simp)
  cases pc <;> simp_all [Pc.next]
  grind

theorem next_insertConn {u : Int} {conn : Conn N} (h : pc.next E n pick w = some (.insertConn u conn, pc')) :
    ∃ l, pc = .insertConn l ∧ u = l.user.id ∧ conn = l.conn ∧ pc' = .subscribe l := by
  have hs := next_ne_scan h (by simp)
  cases pc <;> simp_all [Pc.next]

theorem next_eraseConn {u : Int} (h : pc.next E n pick w = some (.eraseConn u, pc')) :
    pc = .eraseConn u ∧ pc' = .unsubscribe u := by
  have hs := next_ne_scan h (by simp)
  cases pc <;> simp_all [Pc.next]
  grind

theorem next_findConn {u : Int} {found : Option (Conn N)}
    (h : pc.next E n pick w = some (.findConn u found, pc')) : found = (w.node n).userConnMap.lookup u ∧
      ((∃ p, pc = .findConn u p ∧ pc' = found.elim (.queryState u p) (.sendPayload · p)) ∨
        ∃ p, pc = .findSubscribed u p ∧ pc' = found.elim (.insertOffline u p) (.sendPayload · p)) := by
  have hs := next_ne_scan h (by simp)
  cases pc <;> simp_all [Pc.next]
  · grind
  · grind

theorem next_publish {u : Int} {p : String} (h : pc.next E n pick w = some (.publish u p, pc')) :
    pc = .publish u p ∧ pc' = .done := by
  have hs := next_ne_scan h (by simp)
  cases pc <;> simp_all [Pc.next]

theorem next_queryOffline {u : Int} {msgs : List String}
    (h : pc.next E n pick w = some (.queryOffline u msgs, pc')) :
    ∃ l, pc = .queryOffline l ∧ u = l.user.id ∧ msgs = OfflineMsgModel.query E.offline u w.offline ∧
      pc' = if msgs = [] then .queryFriends l else .removeOffline { l with offlineMsgs := msgs } := by
  have hs := next_ne_scan h (by simp)
  cases pc <;> simp_all [Pc.next]
  grind

theorem next_removeOffline {u : Int} {msgs : List String}
    (h : pc.next E n pick w = some (.removeOffline u msgs, pc')) :
    ∃ l, pc = .removeOffline l ∧ u = l.user.id ∧ msgs = OfflineMsgModel.messages u w.offline ∧
      pc' = .queryFriends l := by
  have hs := next_ne_scan h (by simp)
  cases pc <;> simp_all [Pc.next]
  grind

theorem next_insertOffline {u : Int} {p : String} (h : pc.next E n pick w = some (.insertOffline u p, pc')) :
    pc = .insertOffline u p ∧ pc' = .done := by
  have hs := next_ne_scan h (by simp)
  cases pc <;> simp_all [Pc.next]

theorem next_sendJson {conn : Conn N} {js : Json} (h : pc.next E n pick w = some (.sendJson conn js, pc')) :
    pc' = .done ∧ ((∃ l, pc = .sendAck l ∧ conn = l.conn ∧ js = loginAck l) ∨ pc = .sendJson conn js) := by
  have hs := next_ne_scan h (by simp)
  cases pc <;> simp_all [Pc.next]

theorem next_sendPayload {conn : Conn N} {p : String}
    (h : pc.next E n pick w = some (.sendPayload conn p, pc')) : pc = .sendPayload conn p ∧ pc' = .done := by
  have hs := next_ne_scan h (by simp)
  cases pc <;> simp_all [Pc.next]

def Pc.conn : Pc N → Option (Conn N)
  | .queryName conn .. | .insertUser conn _ | .isFriend conn .. | .sendJson conn _ => some conn
  | .updateOnline l | .insertConn l | .subscribe l | .queryOffline l | .removeOffline l |
    .queryFriends l | .queryGroup l | .queryMembers l .. | .sendAck l => some l.conn
  | _ => none

/-- A login between its update of the state and its response. -/
def Pc.session : Pc N → Option (Login N)
  | .insertConn l | .subscribe l | .queryOffline l | .removeOffline l | .queryFriends l |
    .queryGroup l | .queryMembers l .. | .sendAck l => some l
  | _ => none

omit [DecidableEq N] in
theorem session_initial (h : pc.initial = true) : pc.session = none := by
  cases pc <;> first | rfl | cases h

theorem next_conn {e : Effect N} {conn : Conn N} (h : pc.next E n pick w = some (e, pc'))
    (hc : pc'.conn = some conn) : pc.conn = some conn := by
  cases pc with
  | scanConn c =>
    obtain ⟨u, _, _, rfl⟩ | ⟨_, _, rfl⟩ := next_scan h
    · split at hc <;> cases hc
    · cases hc
  | _ => grind [Pc.next, Pc.conn, checkLogin, nextGroup.eq_def, Option.elim.eq_def]

theorem next_session {e : Effect N} {l : Login N} (h : pc.next E n pick w = some (e, pc'))
    (hl : pc'.session = some l) :
    (∃ l', pc.session = some l' ∧ l'.user = l.user ∧ l'.conn = l.conn) ∨
      pc = .updateOnline l ∧ e = .updateState l.user.id .online := by
  cases pc with
  | scanConn c =>
    obtain ⟨u, _, _, rfl⟩ | ⟨_, _, rfl⟩ := next_scan h
    · split at hl <;> cases hl
    · cases hl
  | _ => grind [Pc.next, Pc.session, checkLogin, nextGroup.eq_def, Option.elim.eq_def]

theorem next_to_sendJson {e : Effect N} {conn : Conn N} {js : Json}
    (h : pc.next E n pick w = some (e, .sendJson conn js)) :
    (∃ errno errmsg, errno ≠ 0 ∧ js = loginError errno errmsg) ∨ (∃ id, js = regAck id) ∨ js = notFriends := by
  cases pc with
  | scanConn c =>
    obtain ⟨u, _, _, hp⟩ | ⟨_, _, hp⟩ := next_scan h
    · split at hp <;> cases hp
    · cases hp
  | _ => grind [Pc.next, checkLogin, nextGroup.eq_def, Option.elim.eq_def]

theorem trace_to_sendJson {task : Task N} {h : List (Effect N)} {conn : Conn N} {js : Json}
    (ht : Trace E task h (.sendJson conn js)) :
    (∃ errno errmsg, errno ≠ 0 ∧ js = loginError errno errmsg) ∨ (∃ id, js = regAck id) ∨ js = notFriends := by
  generalize hp : Pc.sendJson conn js = p at ht
  cases ht with
  | start =>
    have hi := initial_start task
    rw [← hp] at hi
    cases hi
  | step w pick _ hn =>
    subst hp
    exact next_to_sendJson hn

omit [DecidableEq N] in
theorem conn_getHandler {msgid : Int} {c conn : Conn N} {js : Json}
    (h : (getHandler msgid c js).conn = some conn) : conn = c := by
  unfold getHandler at h
  split at h
  · unfold login at h
    split at h <;> cases h
    rfl
  split at h
  · unfold loginout at h
    split at h <;> cases h
  split at h
  · unfold reg at h
    split at h <;> cases h
    rfl
  split at h
  · unfold oneChat at h
    split at h <;> cases h
    rfl
  · cases h

omit [DecidableEq N] in
theorem conn_start {task : Task N} {conn : Conn N} (h : task.start.conn = some conn) :
    ∃ js, task = .frame conn js := by
  cases task with
  | frame c js =>
    rw [Task.start] at h
    split at h
    · exact ⟨js, by rw [conn_getHandler h]⟩
    · cases h
  | _ => cases h

theorem trace_conn {task : Task N} {h : List (Effect N)} (ht : Trace E task h pc) {conn : Conn N}
    (hc : pc.conn = some conn) : ∃ js, task = .frame conn js := by
  induction ht with
  | start => exact conn_start hc
  | step w pick _ hn ih => exact ih (next_conn hn hc)

theorem next_scanning {e : Effect N} (h : pc.next E n pick w = some (e, pc')) (conn : Conn N) :
    pc' ≠ .scanConn conn := by
  rintro rfl
  cases pc with
  | scanConn c =>
    obtain ⟨u, _, _, hp⟩ | ⟨_, _, hp⟩ := next_scan h
    · split at hp <;> cases hp
    · cases hp
  | _ => grind [Pc.next, checkLogin, nextGroup.eq_def, Option.elim.eq_def]

omit [DecidableEq N] in
theorem start_scanConn {task : Task N} {conn : Conn N} (h : task.start = .scanConn conn) : task = .close conn := by
  cases task with
  | close c =>
    cases h
    rfl
  | frame c js =>
    rw [Task.start] at h
    split at h
    · unfold getHandler at h
      split at h
      · unfold login at h
        split at h <;> cases h
      split at h
      · unfold loginout at h
        split at h <;> cases h
      split at h
      · unfold reg at h
        split at h <;> cases h
      split at h
      · unfold oneChat at h
        split at h <;> cases h
      · cases h
    · cases h
  | _ => cases h

theorem trace_scanning {task : Task N} {h : List (Effect N)} (ht : Trace E task h pc) {conn : Conn N}
    (hpc : pc = .scanConn conn) : task = .close conn := by
  cases ht with
  | start => exact start_scanConn hpc
  | step w pick _ hn => exact absurd hpc (next_scanning hn conn)

def IsLoginAck (u : Int) (js : Json) : Prop :=
  js.get? "msgid" = some EnMsgType.logMsgAck.json ∧ js.get? "errno" = some (.int 0) ∧
    js.get? "id" = some (.int u)

omit [DecidableEq N] in
theorem isLoginAck_loginAck {u : Int} {l : Login N} : IsLoginAck u (loginAck l) ↔ l.user.id = u := by
  have h : (loginAck l).get? "msgid" = some EnMsgType.logMsgAck.json ∧
      (loginAck l).get? "errno" = some (.int 0) ∧ (loginAck l).get? "id" = some (.int l.user.id) := by
    simp only [loginAck, Json.mkObj, List.foldl_cons, List.foldl_nil, Json.set_obj]
    split <;> split <;> split <;> simp
  rw [IsLoginAck, h.1, h.2.1, h.2.2]
  simp

theorem not_isLoginAck_loginError {u errno : Int} (h : errno ≠ 0) (errmsg : String) :
    ¬ IsLoginAck u (loginError errno errmsg) := by
  intro ha
  have he : (loginError errno errmsg).get? "errno" = some (.int errno) := by
    simp [loginError, Json.mkObj]
  rw [ha.2.1] at he
  cases he
  exact h rfl

theorem not_isLoginAck_regAck {u : Int} (id : Option Int) : ¬ IsLoginAck u (regAck id) := by
  intro ha
  have he : (regAck id).get? "msgid" = some EnMsgType.regMsgAck.json := by
    cases id <;> simp [regAck, Json.mkObj]
  rw [ha.1] at he
  cases he

theorem not_isLoginAck_notFriends {u : Int} : ¬ IsLoginAck u notFriends := by
  intro ha
  have he : notFriends.get? "errno" = some (.int 1) := by simp [notFriends, Json.mkObj]
  rw [ha.2.1] at he
  cases he

/-- The only way a thread comes to send the response of a successful login. -/
theorem trace_isLoginAck {task : Task N} {h : List (Effect N)} (ht : Trace E task h pc)
    {e : Effect N} (hn : pc.next E n pick w = some (e, pc')) {conn : Conn N} {js : Json} {u : Int}
    (he : e = .sendJson conn js) (ha : IsLoginAck u js) :
    ∃ l, pc.session = some l ∧ l.user.id = u ∧ l.conn = conn := by
  subst he
  obtain ⟨_, ⟨l, rfl, rfl, rfl⟩ | rfl⟩ := next_sendJson hn
  · exact ⟨l, rfl, isLoginAck_loginAck.mp ha, rfl⟩
  · obtain ⟨errno, errmsg, hne, rfl⟩ | ⟨id, rfl⟩ | rfl := trace_to_sendJson ht
    · exact absurd ha (not_isLoginAck_loginError hne errmsg)
    · exact absurd ha (not_isLoginAck_regAck id)
    · exact absurd ha not_isLoginAck_notFriends

theorem trace_session {task : Task N} {h : List (Effect N)} (ht : Trace E task h pc) {l : Login N}
    (hl : pc.session = some l) : .updateState l.user.id .online ∈ h := by
  induction ht generalizing l with
  | start =>
    rw [session_initial (initial_start task)] at hl
    cases hl
  | step w pick _ hn ih =>
    obtain ⟨l', hl', hu, _⟩ | ⟨_, rfl⟩ := next_session hn hl
    · rw [← hu]
      exact List.mem_append_left _ (ih hl')
    · exact List.mem_append_right _ (List.mem_singleton_self _)

theorem trace_online {task : Task N} {h : List (Effect N)} (ht : Trace E task h pc) {conn : Conn N} {js : Json}
    {u : Int} (hs : .sendJson conn js ∈ h) (ha : IsLoginAck u js) : .updateState u .online ∈ h := by
  induction ht with
  | start => cases hs
  | step w pick ht hn ih =>
    rw [List.mem_append, List.mem_singleton] at hs
    obtain hs | rfl := hs
    · exact List.mem_append_left _ (ih hs)
    · obtain ⟨l, hl, rfl, _⟩ := trace_isLoginAck ht hn rfl ha
      exact List.mem_append_left _ (trace_session ht hl)

end BridgeIM.Server
