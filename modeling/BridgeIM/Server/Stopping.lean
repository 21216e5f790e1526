import BridgeIM.Server.Users

namespace BridgeIM.Server.Stopping

open Db Lib Model Model.UserModel Sample

variable {N : Type} [DecidableEq N] {E : Engine} {same : String → String → Bool} {n : N} {w w' : World N} {u : Int}

/-- Node `n` has left its event loop and resets the states. -/
def stop (n : N) (w : World N) : List (Action N) := [.start (.reset n), .run w.threads.length none]

/-- `deliverMessage` on node `k` sends the payload to `u` or publishes it. -/
def Reached (E : Engine) (w : World N) (k : N) (u : Int) (js : Json) : Prop :=
  ∃ i w' e, (cluster N E).run w (.start (.deliver k u js) :: runs w.threads.length i) = some w' ∧
    w'.log.getLast? = some (w.threads.length, e) ∧ ((∃ conn, e = .sendPayload conn js.dump) ∨ e = .publish u js.dump)

/-- A login with the name and the password of `u` is answered by an error. -/
def Refused (w : World N) (u : Int) : Prop :=
  ∀ r ∈ w.users.find u, ∀ conn : Conn N, ∃ errno errmsg, errno ≠ 0 ∧
    checkLogin conn r.user.password r.user = .sendJson conn (loginError errno errmsg)

/-- From `w` to `w'` the users of node `n` went offline, and those of the other
nodes are as present as they were. -/
structure LeavesOthers (E : Engine) (n : N) (w w' : World N) : Prop where
  own : ∀ u, w.users.stateOf u = some .online →
    (w'.users.stateOf u = some .offline ↔ u ∈ (w.node n).userConnMap)
  online : ∀ k ≠ n, ∀ u ∈ (w.node k).userConnMap, w.users.stateOf u = some .online →
    w'.users.stateOf u = some .online
  reached : ∀ k ≠ n, ∀ u ∈ (w.node k).userConnMap, w.users.stateOf u = some .online →
    ∀ m js, Reached E w' m u js
  refused : ∀ k ≠ n, ∀ u ∈ (w.node k).userConnMap, w.users.stateOf u = some .online → Refused w' u

theorem runThread_of_next {tid : Nat} {th : Thread N} {e : Effect N} {pc : Pc N} (hth : w.threads[tid]? = some th)
    (pick : Option Int) (hn : th.pc.next E th.task.node pick w = some (e, pc)) :
    w.runThread E tid pick = some (w.advance E tid th e pc) := by
  rw [World.runThread, hth, Option.bind_some, hn]
  rfl

theorem run_stop (hE : E.Rules same) (n : N) (w : World N) : ∃ w', (cluster N E).run w (stop n w) = some w' ∧
    w'.users = w.users.resetState ∧ ∀ k, (w'.node k).userConnMap = (w.node k).userConnMap := by
  have hth : (w.spawn (.reset n)).threads[w.threads.length]? = some ⟨.reset n, .resetState⟩ :=
    List.getElem?_concat_length
  have hs := runThread_of_next (E := E) hth none rfl
  refine ⟨_, Machine.run_cons_eq_some.mpr ⟨_, rfl, Machine.run_cons_eq_some.mpr ⟨_, hs, rfl⟩⟩, ?_, ?_⟩
  · exact onUsers_resetState (N := N) hE w.users
  · intro k
    rw [node_advance, Effect.onNode]
    split <;> rfl

theorem run_next {tid : Nat} {th : Thread N} {e : Effect N} {pc : Pc N} (hth : w.threads[tid]? = some th)
    (hn : th.pc.next E th.task.node none w = some (e, pc)) (i : Nat) :
    (cluster N E).run w (runs tid (i + 1)) = (cluster N E).run (w.advance E tid th e pc) (runs tid i) := by
  have hs : step E w (.run tid none) = some (w.advance E tid th e pc) := runThread_of_next hth none hn
  rw [runs, List.replicate_succ, Machine.run_cons]
  exact congrArg (Option.bind · _) hs

theorem reached_of_online (hE : E.Rules same) (h : w.users.stateOf u = some .online) (k : N) (js : Json) :
    Reached E w k u js := by
  have h₀ : (w.spawn (.deliver k u js)).threads[w.threads.length]? =
      some ⟨.deliver k u js, .findConn u js.dump⟩ := List.getElem?_concat_length
  cases hf : (w.node k).userConnMap.lookup u with
  | some conn =>
    have hn : (Pc.findConn u js.dump).next E k none (w.spawn (.deliver k u js)) =
        some (.findConn u (some conn), .sendPayload conn js.dump) := by
      rw [Pc.next, show ((w.spawn (.deliver k u js)).node k).userConnMap.lookup u = some conn from hf]
      rfl
    have hr := (run_next h₀ hn 1).trans (run_next (getElem?_set_self h₀) rfl 0)
    exact ⟨2, _, _, Machine.run_cons_eq_some.mpr ⟨_, rfl, hr⟩, List.getLast?_concat, Or.inl ⟨conn, rfl⟩⟩
  | none =>
    have hn : (Pc.findConn u js.dump).next E k none (w.spawn (.deliver k u js)) =
        some (.findConn u none, .queryState u js.dump) := by
      rw [Pc.next, show ((w.spawn (.deliver k u js)).node k).userConnMap.lookup u = none from hf]
      rfl
    have ho : (UserModel.queryId E.users u w.users).state = "online" := (queryId_online hE.users u w.users).mpr h
    have hq : (Pc.queryState u js.dump).next E k none ((w.spawn (.deliver k u js)).advance E w.threads.length
          ⟨.deliver k u js, .findConn u js.dump⟩ (.findConn u none) (.queryState u js.dump)) =
        some (.queryId u (UserModel.queryId E.users u w.users), .publish u js.dump) :=
      congrArg some (Prod.ext rfl (if_pos ho))
    have h₁ := getElem?_set_self (x := (⟨.deliver k u js, .queryState u js.dump⟩ : Thread N)) h₀
    have h₂ := getElem?_set_self (x := (⟨.deliver k u js, .publish u js.dump⟩ : Thread N)) h₁
    have hr := ((run_next h₀ hn 2).trans (run_next h₁ hq 1)).trans (run_next h₂ rfl 0)
    exact ⟨3, _, _, Machine.run_cons_eq_some.mpr ⟨_, rfl, hr⟩, List.getLast?_concat, Or.inr rfl⟩

omit [DecidableEq N] in
theorem refused_of_online (h : w.users.stateOf u = some .online) : Refused w u := by
  intro r hr conn
  have hs : r.user.state = "online" := by
    rw [Table.stateOf, hr] at h
    exact not_iff_not.mp (state_user r) |>.mpr h
  unfold checkLogin
  split
  · exact ⟨3, _, by decide, rfl⟩
  · exact ⟨1, _, by decide, if_neg (not_not.mpr rfl)⟩

theorem not_online_resetState (t : Table) : t.resetState.stateOf u ≠ some .online := by
  rw [Table.stateOf_resetState]
  cases t.stateOf u <;> simp

/-- Stopping a node leaves the users of the other nodes alone if the users who
are online are its own and nobody else's. -/
theorem stop_leavesOthers_iff (hE : E.Rules same) (n : N) (w : World N) :
    (∃ w', (cluster N E).run w (stop n w) = some w' ∧ LeavesOthers E n w w') ↔
      ∀ u, w.users.stateOf u = some .online →
        u ∈ (w.node n).userConnMap ∧ ∀ k ≠ n, u ∉ (w.node k).userConnMap := by
  obtain ⟨w₁, hr, hu, hm⟩ := run_stop hE n w
  constructor
  · rintro ⟨w', hw', h⟩ u ho
    cases hr.symm.trans hw'
    refine ⟨(h.own u ho).mp ?_, fun k hk hin => ?_⟩
    · rw [hu, Table.stateOf_resetState, ho]
      rfl
    · have hon := h.online k hk u hin ho
      rw [hu] at hon
      exact not_online_resetState _ hon
  · intro h
    have hno : ∀ k ≠ n, ∀ u ∈ (w.node k).userConnMap, w.users.stateOf u = some .online → w₁.users.stateOf u = some .online :=
      fun k hk u hin ho => absurd hin ((h u ho).2 k hk)
    refine ⟨w₁, hr, ⟨fun u ho => ?_, hno, fun k hk u hin ho m js => reached_of_online hE (hno k hk u hin ho) m js,
      fun k hk u hin ho => refused_of_online (hno k hk u hin ho)⟩⟩
    rw [hu, Table.stateOf_resetState, ho]
    exact iff_of_true rfl (h u ho).1

def world : World Bool := { users := accounts }

def single : World Bool where
  node n := if n then {} else { userConnMap := (∅ : ConnMap Bool).insert 1 ⟨false, 0⟩ }
  users := accounts.updateState 1 .online

theorem stop_leavesOthers_single :
    ∃ w', (cluster Bool engine).run single (stop false single) = some w' ∧ LeavesOthers engine false single w' := by
  refine (stop_leavesOthers_iff (Engine.strict_rules _) false single).mpr fun u hu => ?_
  rw [single, Table.stateOf_updateState] at hu
  split at hu
  · subst u
    refine ⟨(AList.mem_insert _).mpr (Or.inl rfl), fun k hk => ?_⟩
    cases k with
    | false => exact absurd rfl hk
    | true => exact AList.notMem_empty _
  · obtain ⟨r, hr, hs⟩ := Option.bind_eq_some_iff.mp hu
    have hoff : ∀ r ∈ accounts.rows, r.state ≠ some .online := by decide
    exact absurd hs (hoff r (Table.mem_of_find hr))

def apart : List (Action Bool) :=
  .start (.frame ⟨false, 0⟩ (loginFrame "alice" "a")) :: runs 0 8 ++
    .start (.frame ⟨true, 0⟩ (loginFrame "bob" "b")) :: runs 1 8

/-- The stop of a node takes a user of the other node offline. -/
theorem stop_takes_all : ¬ ∀ (E : Engine) (w₀ w : World Bool) (as : List (Action Bool)) (n : Bool),
    E.Rules (fun a b => a = b) → w₀.Fresh → (cluster Bool E).run w₀ as = some w →
      ∃ w', (cluster Bool E).run w (stop n w) = some w' ∧ LeavesOthers E n w w' := by
  intro h
  have hb : ((cluster Bool engine).run world apart).map (fun w =>
      (w.users.stateOf 2, (w.node true).userConnMap.lookup 2)) = some (some .online, some ⟨true, 0⟩) := by
    decide +kernel
  obtain ⟨w, hw, hv⟩ := Option.map_eq_some_iff.mp hb
  obtain ⟨ho, hl⟩ := Prod.mk.inj hv
  obtain ⟨w', hr, hs⟩ := h engine world w apart false (Engine.strict_rules _) ⟨rfl, rfl, fun _ => rfl⟩ hw
  have hin : (2 : Int) ∈ (w.node true).userConnMap := AList.lookup_isSome.mp (by rw [hl]; rfl)
  obtain ⟨w₁, hr₁, hu, _⟩ := run_stop (Engine.strict_rules _) false w
  cases hr.symm.trans hr₁
  have hon := hs.online true (by decide) 2 hin ho
  rw [hu] at hon
  exact not_online_resetState _ hon

end BridgeIM.Server.Stopping
