import BridgeIM.Server.ChatService
import BridgeIM.Server.Groups
import BridgeIM.Server.Run

namespace BridgeIM.Server.Departure

open Db Lib Model Redis Services ChatService
open RequestHandlers (Engines)

variable {N : Type} [DecidableEq N] {same : String → String → Bool} {E : Engines} {os : Nat → Chance}
  {w w' : System N} {conn : Conn N} {js : Json}

/-- The handlers that change `_userConnMap`. -/
inductive Visit (N : Type)
  | login (conn : Conn N) (js : Json)
  | loginout (conn : Conn N) (js : Json)
  | close (conn : Conn N)

def Visit.handler : Visit N → Service N
  | login conn js => ChatService.login conn js
  | loginout conn js => ChatService.loginout conn js
  | close conn => clientCloseException conn

/-- The servers that run one handler at a time, each with the outcomes of its calls. -/
def handling (E : Engines) : Machine (System N) (Visit N × (Nat → Chance)) where
  step w x := some (x.1.handler.run (ServiceCall.exec E) x.2 w).2

def start (db : Database.Tables) (offline : OfflineMsgModel.Table) : System N := { db := db, offline := offline }

def Mapped (w : System N) (conn : Conn N) (u : Int) : Prop := (w.node conn.node).userConnMap.lookup u = some conn

/-- At most one user is mapped to the connection, and not the user -1. -/
def Alone (w : System N) (conn : Conn N) : Prop :=
  (∀ u v, Mapped w conn u → Mapped w conn v → u = v) ∧ ¬ Mapped w conn (-1)

/-- A connection is gone: none of its users is mapped to it, each is offline and
his channel unsubscribed, and all else is as before. -/
structure Removed (conn : Conn N) (w w' : System N) : Prop where
  gone : ∀ u, ¬ Mapped w' conn u
  offline : ∀ u, Mapped w conn u → w'.db.users.stateOf u = (w.db.users.find u).map fun _ => .offline
  unsubscribed : ∃ commands, (w'.node conn.node).redis.commandQueue = (w.node conn.node).redis.commandQueue ++ commands ∧
    ∀ command, command ∈ commands ↔ command.type = .unsubscribe ∧ Mapped w conn command.channel
  entries : ∀ u conn', conn' ≠ conn →
    ((w'.node conn.node).userConnMap.lookup u = some conn' ↔ (w.node conn.node).userConnMap.lookup u = some conn')
  nodes : ∀ n, n ≠ conn.node → w'.node n = w.node n
  states : ∀ u, ¬ Mapped w conn u → w'.db.users.stateOf u = w.db.users.stateOf u

def Free (E : Engines) (w : System N) : Visit N × (Nat → Chance) → Prop
  | (.login conn js, _) => (∀ u, ¬ Mapped w conn u) ∧ ∀ name, (js.get? "name").bind Json.toStr? = some name →
    Json.wrap (UserModel.queryName E.users name w.db.users).id ≠ -1
  | _ => True

theorem scan_some {pick : Option Int} {m : ConnMap N} {u : Int} (h : scan pick conn m = some u) :
    m.lookup u = some conn := by
  unfold scan at h
  split at h
  · rename_i v hv
    cases h
    exact of_decide_eq_true (Option.filter_eq_some_iff.mp hv).2
  · obtain ⟨e, he, rfl⟩ := Option.map_eq_some_iff.mp h
    have hc : e.2 = conn := by simpa using List.find?_some he
    rw [← hc]
    exact AList.mem_lookup_iff.mpr (List.mem_of_find?_eq_some he)

theorem scan_none {pick : Option Int} {m : ConnMap N} (h : scan pick conn m = none) (u : Int) :
    m.lookup u ≠ some conn := by
  unfold scan at h
  split at h
  · cases h
  · intro hu
    rw [Option.map_eq_none_iff, List.find?_eq_none] at h
    exact h ⟨u, conn⟩ (AList.mem_lookup_iff.mp hu) (decide_eq_true rfl)

theorem run_close_found {u : Int} (hu : scan (os 0).pick conn (w.node conn.node).userConnMap = some u) (hne : u ≠ -1)
    (hrun : (os 2).runs = true) :
    ((clientCloseException conn).run (ServiceCall.exec E) os w).2 =
      { w with
        db := { w.db with users := UserModel.updateState E.users { id := u, state := UserModel.State.offline.text } w.db.users }
        node := Function.update w.node conn.node
          ⟨(w.node conn.node).userConnMap.erase u, (w.node conn.node).redis.unsubscribe u⟩ } := by
  have hb : ((os 2).borrows && (os 2).executes) = true := hrun
  simp [clientCloseException, Program.run, ServiceCall.exec, ServiceCall.serve, ServiceCall.toInts, LocalCall.exec, hu, hne,
    markUserOffline, hb]

theorem run_close_none (hu : scan (os 0).pick conn (w.node conn.node).userConnMap = none) :
    ((clientCloseException conn).run (ServiceCall.exec E) os w).2 = w := by
  simp [clientCloseException, Program.run, ServiceCall.exec, ServiceCall.serve, ServiceCall.toInts, LocalCall.exec, hu]

theorem run_close_noId (hu : scan (os 0).pick conn (w.node conn.node).userConnMap = some (-1)) :
    ((clientCloseException conn).run (ServiceCall.exec E) os w).2 = { w with
      node := Function.update w.node conn.node
        { w.node conn.node with userConnMap := (w.node conn.node).userConnMap.erase (-1) } } := by
  simp [clientCloseException, Program.run, ServiceCall.exec, ServiceCall.serve, ServiceCall.toInts, LocalCall.exec, hu]

omit [DecidableEq N] in
theorem removed_none (h : ∀ u, ¬ Mapped w conn u) : Removed conn w w where
  gone := h
  offline u hu := absurd hu (h u)
  unsubscribed := ⟨[], (List.append_nil _).symm, fun command => by simp [h]⟩
  entries _ _ _ := Iff.rfl
  nodes _ _ := rfl
  states _ _ := rfl

theorem removed_found (hE : E.Rules same) (hredis : (w.node conn.node).redis.running = true) {u : Int}
    (hu : Mapped w conn u) (h : ∀ v, Mapped w conn v → v = u) : Removed conn w
      { w with
        db := { w.db with users := UserModel.updateState E.users { id := u, state := UserModel.State.offline.text } w.db.users }
        node := Function.update w.node conn.node
          ⟨(w.node conn.node).userConnMap.erase u, (w.node conn.node).redis.unsubscribe u⟩ } := by
  have hs : UserModel.updateState E.users { id := u, state := UserModel.State.offline.text } w.db.users =
      w.db.users.updateState u .offline := UserModel.updateState_eq hE.users rfl w.db.users
  rw [hs]
  refine ⟨fun v hv => ?_, fun v hv => ?_, ⟨[⟨.unsubscribe, u⟩], ?_, fun command => ?_⟩, fun v conn' hne => ?_, fun n hn => ?_,
    fun v hv => ?_⟩
  · rw [Mapped] at hv
    simp only [Function.update_self] at hv
    obtain ⟨hvu, hv⟩ := ConnMap.lookup_of_erase hv
    exact hvu (h v hv)
  · rw [h v hv]
    exact (UserModel.Table.stateOf_updateState u u .offline w.db.users).trans (if_pos rfl)
  · simp only [Function.update_self, Link.unsubscribe, hredis, if_true, Link.enqueueCommand]
  · constructor
    · intro hc
      rw [List.mem_singleton.mp hc]
      exact ⟨rfl, hu⟩
    · rintro ⟨ht, hm⟩
      obtain ⟨type, channel⟩ := command
      rw [h channel hm]
      cases ht
      exact List.mem_singleton_self _
  · simp only [Function.update_self]
    by_cases hvu : v = u
    · rw [hvu, AList.lookup_erase, show (w.node conn.node).userConnMap.lookup u = some conn from hu]
      exact iff_of_false (fun hx => Option.some_ne_none _ hx.symm) fun hx => hne (Option.some.inj hx).symm
    · rw [AList.lookup_erase_ne hvu]
  · exact Function.update_of_ne hn _ _
  · refine (UserModel.Table.stateOf_updateState u v .offline w.db.users).trans (if_neg ?_)
    rintro rfl
    exact hv hu

theorem eq_of_removed {u v : Int} {users : UserModel.Table} {redis : Link}
    (h : Removed conn w { w with
      db := { w.db with users := users }
      node := Function.update w.node conn.node ⟨(w.node conn.node).userConnMap.erase u, redis⟩ })
    (hv : Mapped w conn v) : v = u := by
  by_contra hne
  refine h.gone v ?_
  rw [Mapped]
  simp only [Function.update_self]
  rw [AList.lookup_erase_ne hne]
  exact hv

/-- A close removes the connection exactly when at most one user is mapped to it. -/
theorem removed_iff (hE : E.Rules same) (hredis : (w.node conn.node).redis.running = true) (hrun : (os 2).runs = true) :
    Removed conn w ((clientCloseException conn).run (ServiceCall.exec E) os w).2 ↔ Alone w conn := by
  cases hu : scan (os 0).pick conn (w.node conn.node).userConnMap with
  | none =>
    have hn : ∀ u, ¬ Mapped w conn u := fun u => scan_none hu u
    rw [run_close_none hu]
    exact iff_of_true (removed_none hn) ⟨fun u _ hu _ => absurd hu (hn u), hn (-1)⟩
  | some u =>
    have hm : Mapped w conn u := scan_some hu
    by_cases hne : u = -1
    · subst hne
      rw [run_close_noId hu]
      refine iff_of_false (fun h => ?_) fun h => h.2 hm
      obtain ⟨commands, hq, hc⟩ := h.unsubscribed
      simp only [Function.update_self] at hq
      have hmem := (hc ⟨.unsubscribe, -1⟩).mpr ⟨rfl, hm⟩
      rw [List.self_eq_append_right.mp hq] at hmem
      cases hmem
    · rw [run_close_found hu hne hrun]
      constructor
      · intro h
        have he := fun v (hv : Mapped w conn v) => eq_of_removed h hv
        exact ⟨fun v v' hv hv' => (he v hv).trans (he v' hv').symm, fun hx => hne (he _ hx).symm⟩
      · intro h
        exact removed_found hE hredis hm fun v hv => h.1 v u hv hm

/-- The maps of the nodes and whether their Redis modules run. -/
def Keeps (w w' : System N) : Prop :=
  ∀ n, (w'.node n).userConnMap = (w.node n).userConnMap ∧ (w'.node n).redis.running = (w.node n).redis.running

def Aside : ServiceCall N → Prop
  | .atNode _ (.subscribe _) | .atNode _ (.unsubscribe _) | .atNode _ (.findConn _) => True
  | .atNode .. => False
  | _ => True

theorem running_subscribe (u : Int) (l : Link) : (l.subscribe u).running = l.running := by
  rw [Link.subscribe]
  split <;> rfl

theorem running_unsubscribe (u : Int) (l : Link) : (l.unsubscribe u).running = l.running := by
  rw [Link.unsubscribe]
  split <;> rfl

theorem running_push (channel text : String) (call : Nat) (l : Link) : (l.push channel text call).running = l.running := by
  rw [Link.push]
  split <;> rfl

theorem exec_keeps {op : ServiceCall N} (h : Aside op) (o : Chance) (w : System N) : Keeps w (op.exec E o w).2 := by
  intro n
  cases op with
  | atNode m c =>
    cases c with
    | subscribe u | unsubscribe u | findConn u =>
      by_cases hn : n = m
      · subst hn
        simp only [ServiceCall.exec, ServiceCall.serve, LocalCall.exec, Function.update_self, running_subscribe,
          running_unsubscribe, and_self]
      · simp only [ServiceCall.exec, ServiceCall.serve, LocalCall.exec, Function.update_of_ne hn, and_self]
    | _ => exact absurd h id
  | publish channel message =>
    simp only [ServiceCall.exec, ServiceCall.serve]
    split
    · exact ⟨rfl, running_push _ _ _ _⟩
    · exact ⟨rfl, rfl⟩
  | insertUser user =>
    simp only [ServiceCall.exec, ServiceCall.serve]
    repeat' split
    all_goals exact ⟨rfl, rfl⟩
  | updateState u s | resetState =>
    simp only [ServiceCall.exec, ServiceCall.serve]
    split <;> exact ⟨rfl, rfl⟩
  | _ => exact ⟨rfl, rfl⟩

theorem run_keeps {R : Type} {p : Program (ServiceCall N) ServiceCall.Value R} (hp : p.Only Aside) (os : Nat → Chance)
    (w : System N) : Keeps w (p.run (ServiceCall.exec E) os w).2 :=
  Program.run_invariant (I := Keeps w)
    (fun _ o w' hop hi n => ⟨(exec_keeps hop o w' n).1.trans (hi n).1, (exec_keeps hop o w' n).2.trans (hi n).2⟩) hp os
    fun _ => ⟨rfl, rfl⟩

omit [DecidableEq N] in
theorem sendJson_aside (conn : Conn N) (response : Json) : (sendJson conn response).Only Aside := ⟨trivial, fun _ => trivial⟩

omit [DecidableEq N] in
theorem acknowledge_aside (conn : Conn N) (user : UserModel.User) (offlineMsgs : List String) :
    (acknowledge conn user offlineMsgs).Only Aside := by
  refine ⟨trivial, fun friends => ⟨trivial, fun groups => ?_⟩⟩
  have h : (queryMembers (N := N) groups).Only Aside := by
    generalize (groups : List GroupModel.Group) = groups
    induction groups with
    | nil => trivial
    | cons group groups ih => exact ⟨trivial, fun _ => ih.bind fun _ => trivial⟩
  exact h.bind fun _ => sendJson_aside conn _

omit [DecidableEq N] in
theorem markUserOffline_aside (node : N) (u : Int) : (markUserOffline node u).Only Aside :=
  ⟨trivial, fun _ => ⟨trivial, fun _ => trivial⟩⟩

def Moves (node : N) (m : ConnMap N) (w w' : System N) : Prop :=
  ∀ n, (w'.node n).userConnMap = (if n = node then m else (w.node n).userConnMap) ∧
    (w'.node n).redis.running = (w.node n).redis.running

theorem Moves.keeps {node : N} {m : ConnMap N} {w'' : System N} (h : Moves node m w w') (hk : Keeps w' w'') :
    Moves node m w w'' := fun n => ⟨(hk n).1.trans (h n).1, (hk n).2.trans (h n).2⟩

theorem Keeps.moves {node : N} {m : ConnMap N} {w'' : System N} (hk : Keeps w w') (h : Moves node m w' w'') :
    Moves node m w w'' := by
  intro n
  obtain ⟨hm, hr⟩ := h n
  rw [(hk n).1] at hm
  exact ⟨hm, hr.trans (hk n).2⟩

theorem exec_moves (node : N) (c : LocalCall N) {m : ConnMap N} (o : Chance) (w : System N)
    (h : (c.exec o.pick (w.node node)).2 = { w.node node with userConnMap := m }) :
    Moves node m w (ServiceCall.exec E (.atNode node c) o w).2 := by
  intro n
  by_cases hn : n = node
  · subst hn
    simp only [ServiceCall.exec, ServiceCall.serve, Function.update_self, h, if_pos, and_self]
  · simp only [ServiceCall.exec, ServiceCall.serve, Function.update_of_ne hn, if_neg hn, and_self]

theorem accept_moves (user : UserModel.User) : Moves conn.node ((w.node conn.node).userConnMap.insertNew user.id conn) w
    ((accept conn user).run (ServiceCall.exec E) os w).2 := by
  have h₀ : Keeps w (ServiceCall.exec E (.updateState user.id .online) (os 0) w).2 :=
    exec_keeps (show Aside (.updateState user.id .online : ServiceCall N) from trivial) (os 0) w
  have h₁ := exec_moves (E := E) conn.node (.insertConn user.id conn) (os 1)
    (ServiceCall.exec E (.updateState user.id .online) (os 0) w).2 rfl
  rw [(h₀ conn.node).1] at h₁
  refine (h₀.moves h₁).keeps ?_
  refine run_keeps (p := .call (.atNode conn.node (.subscribe user.id)) fun _ => .call (.offline (.query user.id)) fun
    offlineMsgs => if offlineMsgs = [] then acknowledge conn user []
      else .call (.offline (.remove user.id)) fun _ => acknowledge conn user offlineMsgs) ?_ (fun n => os (n + 2)) _
  refine ⟨trivial, fun _ => ⟨trivial, fun offlineMsgs => ?_⟩⟩
  dsimp only
  split
  · exact acknowledge_aside conn user []
  · exact ⟨trivial, fun _ => acknowledge_aside conn user offlineMsgs⟩

theorem login_moves (os : Nat → Chance) (w : System N) (conn : Conn N) (js : Json) :
    Keeps w ((ChatService.login conn js).run (ServiceCall.exec E) os w).2 ∨
    ∃ name, (js.get? "name").bind Json.toStr? = some name ∧ Moves conn.node
      ((w.node conn.node).userConnMap.insertNew (Json.wrap (UserModel.queryName E.users name w.db.users).id) conn) w
      ((ChatService.login conn js).run (ServiceCall.exec E) os w).2 := by
  unfold ChatService.login
  split
  · rename_i name password hn hp
    rw [Program.run]
    have hk : (ServiceCall.exec E (.queryName name : ServiceCall N) (os 0) w).2 = w := rfl
    have hu : (ServiceCall.exec E (.queryName name : ServiceCall N) (os 0) w).1.name ≠ "" →
        (ServiceCall.exec E (.queryName name : ServiceCall N) (os 0) w).1.id =
          Json.wrap (UserModel.queryName E.users name w.db.users).id := by
      intro hne
      simp only [ServiceCall.exec, ServiceCall.serve, ServiceCall.toInts] at hne ⊢
      split
      · rfl
      · rename_i hr
        rw [if_neg hr] at hne
        exact absurd rfl hne
    rw [hk]
    generalize (ServiceCall.exec E (.queryName name : ServiceCall N) (os 0) w).1 = user at hu
    split
    · exact Or.inl (run_keeps (sendJson_aside conn _) _ w)
    · rename_i hne
      split
      · exact Or.inl (run_keeps (sendJson_aside conn _) _ w)
      · split
        · exact Or.inl (run_keeps (sendJson_aside conn _) _ w)
        · refine Or.inr ⟨name, hn, ?_⟩
          rw [← hu hne]
          exact accept_moves _
  · exact Or.inl fun _ => ⟨rfl, rfl⟩

theorem loginout_moves (os : Nat → Chance) (w : System N) (conn : Conn N) (js : Json) :
    Keeps w ((ChatService.loginout conn js).run (ServiceCall.exec E) os w).2 ∨
    ∃ u, Moves conn.node ((w.node conn.node).userConnMap.erase u) w
      ((ChatService.loginout conn js).run (ServiceCall.exec E) os w).2 := by
  unfold ChatService.loginout
  split
  · rename_i u _
    refine Or.inr ⟨u, (exec_moves (E := E) conn.node (.eraseConn u) (os 0) w rfl).keeps ?_⟩
    rw [Program.run]
    exact run_keeps (markUserOffline_aside conn.node u) _ _
  · exact Or.inl fun _ => ⟨rfl, rfl⟩

theorem close_moves (os : Nat → Chance) (w : System N) (conn : Conn N) :
    Keeps w ((clientCloseException conn).run (ServiceCall.exec E) os w).2 ∨
    ∃ u, Moves conn.node ((w.node conn.node).userConnMap.erase u) w
      ((clientCloseException conn).run (ServiceCall.exec E) os w).2 := by
  cases hu : scan (os 0).pick conn (w.node conn.node).userConnMap with
  | none =>
    rw [run_close_none hu]
    exact Or.inl fun _ => ⟨rfl, rfl⟩
  | some u =>
    refine Or.inr ⟨u, ?_⟩
    have h : (LocalCall.exec (os 0).pick (.scanConn conn) (w.node conn.node)).2 =
        { w.node conn.node with userConnMap := (w.node conn.node).userConnMap.erase u } := by
      simp only [LocalCall.exec, hu, Option.elim_some]
    refine (exec_moves (E := E) conn.node (.scanConn conn) (os 0) w h).keeps ?_
    rw [clientCloseException, Program.run]
    refine run_keeps ?_ _ _
    split
    · split
      · exact markUserOffline_aside conn.node _
      · trivial
    · trivial

theorem running_step (h : ∀ n, (w.node n).redis.running = true) (x : Visit N × (Nat → Chance)) (n : N) :
    ((x.1.handler.run (ServiceCall.exec E) x.2 w).2.node n).redis.running = true := by
  obtain ⟨x, os⟩ := x
  have hk : ∀ w' : System N, (Keeps w w' ∨ ∃ node m, Moves node m w w') → (w'.node n).redis.running = true := by
    rintro w' (hk | ⟨node, m, hm⟩)
    · exact (hk n).2.trans (h n)
    · exact (hm n).2.trans (h n)
  apply hk
  cases x with
  | login conn js =>
    obtain hk | ⟨name, _, hm⟩ := login_moves (E := E) os w conn js
    · exact Or.inl hk
    · exact Or.inr ⟨_, _, hm⟩
  | loginout conn js =>
    obtain hk | ⟨u, hm⟩ := loginout_moves (E := E) os w conn js
    · exact Or.inl hk
    · exact Or.inr ⟨_, _, hm⟩
  | close conn =>
    obtain hk | ⟨u, hm⟩ := close_moves (E := E) os w conn
    · exact Or.inl hk
    · exact Or.inr ⟨_, _, hm⟩

omit [DecidableEq N] in
theorem Keeps.alone (hk : Keeps w w') (h : ∀ conn, Alone w conn) (conn : Conn N) : Alone w' conn := by
  have hm : ∀ u, Mapped w' conn u ↔ Mapped w conn u := fun u => by rw [Mapped, (hk conn.node).1, Mapped]
  simpa only [Alone, hm] using h conn

theorem Moves.mapped {node : N} {m : ConnMap N} (hm : Moves node m w w') (conn : Conn N) (u : Int) :
    Mapped w' conn u ↔ if conn.node = node then m.lookup u = some conn else Mapped w conn u := by
  rw [Mapped, (hm conn.node).1]
  split
  · rfl
  · rfl

theorem alone_erase {node : N} {u : Int} (hm : Moves node ((w.node node).userConnMap.erase u) w w')
    (h : ∀ conn, Alone w conn) (conn : Conn N) : Alone w' conn := by
  have hs : ∀ v, Mapped w' conn v → Mapped w conn v := by
    intro v hv
    rw [hm.mapped] at hv
    split at hv
    · rename_i hn
      subst hn
      exact (ConnMap.lookup_of_erase hv).2
    · exact hv
  exact ⟨fun v v' hv hv' => (h conn).1 v v' (hs v hv) (hs v' hv'), fun hv => (h conn).2 (hs (-1) hv)⟩

theorem alone_insert {u : Int} (hm : Moves conn.node ((w.node conn.node).userConnMap.insertNew u conn) w w')
    (h : ∀ conn, Alone w conn) (hf : ∀ v, ¬ Mapped w conn v) (hu : u ≠ -1) (conn' : Conn N) : Alone w' conn' := by
  have hs : ∀ v, Mapped w' conn' v → Mapped w conn' v ∨ conn' = conn ∧ v = u := by
    intro v hv
    rw [hm.mapped] at hv
    split at hv
    · rename_i hn
      obtain hv | ⟨hvu, hc⟩ := ConnMap.lookup_of_insertNew hv
      · exact Or.inl (by rw [Mapped, hn]; exact hv)
      · exact Or.inr ⟨hc, hvu⟩
    · exact Or.inl hv
  constructor
  · intro v v' hv hv'
    obtain hv | ⟨rfl, rfl⟩ := hs v hv
    · obtain hv' | ⟨rfl, rfl⟩ := hs v' hv'
      · exact (h conn').1 v v' hv hv'
      · exact absurd hv (hf v)
    · obtain hv' | ⟨_, rfl⟩ := hs v' hv'
      · exact absurd hv' (hf v')
      · rfl
  · intro hv
    obtain hv | ⟨_, hv⟩ := hs (-1) hv
    · exact (h conn').2 hv
    · exact hu hv.symm

theorem alone_step (h : ∀ conn, Alone w conn) {x : Visit N × (Nat → Chance)} (hx : Free E w x) (conn : Conn N) :
    Alone (x.1.handler.run (ServiceCall.exec E) x.2 w).2 conn := by
  obtain ⟨x, os⟩ := x
  cases x with
  | login conn' js =>
    obtain hk | ⟨name, hn, hm⟩ := login_moves (E := E) os w conn' js
    · exact hk.alone h conn
    · exact alone_insert hm h hx.1 (hx.2 name hn) conn
  | loginout conn' js =>
    obtain hk | ⟨u, hm⟩ := loginout_moves (E := E) os w conn' js
    · exact hk.alone h conn
    · exact alone_erase hm h conn
  | close conn' =>
    obtain hk | ⟨u, hm⟩ := close_moves (E := E) os w conn'
    · exact hk.alone h conn
    · exact alone_erase hm h conn

theorem running_run {db : Database.Tables} {offline : OfflineMsgModel.Table} {as : List (Visit N × (Nat → Chance))}
    (hr : (handling E).run (start db offline) as = some w) (n : N) : (w.node n).redis.running = true := by
  refine Machine.run_invariant (I := fun w : System N => ∀ n, (w.node n).redis.running = true) (fun _ => rfl) ?_
    (Machine.meets_true (start db offline) as) hr n
  intro _ x _ hi _ hs
  cases hs
  exact running_step hi x

/-- After any run of the handlers a close removes its connection exactly when at
most one user is mapped to it, as is the case when every login was on a
connection without a user. -/
theorem close_removes (hE : E.Rules same) (db : Database.Tables) (offline : OfflineMsgModel.Table)
    (as : List (Visit N × (Nat → Chance))) (w : System N) (hr : (handling E).run (start db offline) as = some w)
    (conn : Conn N) (os : Nat → Chance) (hrun : (os 2).runs = true) :
    (Removed conn w ((clientCloseException conn).run (ServiceCall.exec E) os w).2 ↔ Alone w conn) ∧
      ((handling E).Meets (Free E) (start db offline) as → Alone w conn) := by
  refine ⟨removed_iff hE (running_run hr conn.node) hrun, fun hm => ?_⟩
  have h : ∀ conn, Alone w conn := by
    refine Machine.run_invariant (I := fun w : System N => ∀ conn, Alone w conn) (fun _ => ?_) ?_ hm hr
    · exact ⟨fun _ _ hu => absurd hu.symm (Option.some_ne_none _), fun hu => absurd hu.symm (Option.some_ne_none _)⟩
    · intro _ _ _ hi hx hs
      cases hs
      exact alone_step hi hx
  exact h conn

open Server.Sample

def engines : Engines := .strict fun a b => a = b

def terminal : Conn Unit := ⟨(), 0⟩

def shared : List (Visit Unit × (Nat → Chance)) :=
  [(.login terminal (loginFrame "alice" "a"), fun _ => {}), (.loginout terminal (loginoutFrame 1), fun _ => {}),
    (.login terminal (loginFrame "bob" "b"), fun _ => {})]

/-- Alice and Bob log in on one connection. -/
def crowded : List (Visit Unit × (Nat → Chance)) :=
  [(.login terminal (loginFrame "alice" "a"), fun _ => {}), (.login terminal (loginFrame "bob" "b"), fun _ => {})]

omit [DecidableEq N] in
theorem mapped_iff {u : Int} : Mapped w conn u ↔ ⟨u, conn⟩ ∈ (w.node conn.node).userConnMap.entries :=
  AList.mem_lookup_iff

theorem runs_shared :
    ((handling engines).run (start { users := accounts } []) shared).map (fun w => (w.node ()).userConnMap.entries) =
      some [⟨2, terminal⟩] ∧
    ((handling engines).run (start { users := accounts } []) crowded).map (fun w => (w.node ()).userConnMap.entries) =
      some [⟨2, terminal⟩, ⟨1, terminal⟩] := by
  decide +kernel

theorem close_removes_shared : ∃ w, (handling engines).run (start { users := accounts } []) shared = some w ∧
    Mapped w terminal 2 ∧
    Removed terminal w ((clientCloseException terminal).run (ServiceCall.exec engines) (fun _ => {}) w).2 := by
  obtain ⟨w, hw, he⟩ := Option.map_eq_some_iff.mp runs_shared.1
  have hm : ∀ u, Mapped w terminal u ↔ u = 2 := by
    intro u
    rw [mapped_iff, show (w.node terminal.node).userConnMap.entries = [⟨2, terminal⟩] from he]
    simp
  have hr := (close_removes (Engines.strict_rules _) { users := accounts } [] shared w hw terminal (fun _ => {}) rfl).1
  refine ⟨w, hw, (hm 2).mpr rfl, hr.mpr ⟨fun u v hu hv => ((hm u).mp hu).trans ((hm v).mp hv).symm, fun hx => ?_⟩⟩
  exact absurd ((hm (-1)).mp hx) (by decide)

theorem close_leaves_user : ¬ ∀ (same : String → String → Bool) (E : Engines), E.Rules same →
    ∀ (db : Database.Tables) (offline : OfflineMsgModel.Table) (as : List (Visit Unit × (Nat → Chance)))
      (w : System Unit), (handling E).run (start db offline) as = some w →
    ∀ (conn : Conn Unit) (os : Nat → Chance), (os 2).runs = true →
      Removed conn w ((clientCloseException conn).run (ServiceCall.exec E) os w).2 := by
  intro h
  obtain ⟨w, hw, he⟩ := Option.map_eq_some_iff.mp runs_shared.2
  have hm : ∀ u, u = 1 ∨ u = 2 → Mapped w terminal u := by
    intro u hu
    rw [mapped_iff, show (w.node terminal.node).userConnMap.entries = [⟨2, terminal⟩, ⟨1, terminal⟩] from he]
    obtain rfl | rfl := hu <;> simp
  have hr := h _ engines (Engines.strict_rules _) { users := accounts } [] crowded w hw terminal (fun _ => {}) rfl
  have ha := (removed_iff (Engines.strict_rules _) (running_run hw ()) rfl).mp hr
  exact absurd (ha.1 1 2 (hm 1 (Or.inl rfl)) (hm 2 (Or.inr rfl))) (by decide)

end BridgeIM.Server.Departure
