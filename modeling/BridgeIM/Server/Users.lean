import BridgeIM.Server.Next

namespace BridgeIM.Server

open Db Model Model.UserModel

variable {N : Type} {E : Engine} {same : String → String → Bool}

/-- A registration splices only plain texts into its statement. -/
def Effect.PlainInsert : Effect N → Prop
  | .insertUser user _ => Plain user.name ∧ Plain user.password ∧ user.state = State.offline.text
  | _ => True

theorem onUsers_updateState (hE : E.Rules same) (u : Int) (s : State) (t : Table) :
    (Effect.updateState u s : Effect N).onUsers E t = t.updateState u s :=
  updateState_eq hE.users rfl t

theorem onUsers_resetState (hE : E.Rules same) (t : Table) :
    (Effect.resetState : Effect N).onUsers E t = t.resetState :=
  resetState_eq hE.users t

theorem onUsers_insertUser (hE : E.Rules same) {user : User} {id : Option Int}
    (hp : (Effect.insertUser user id : Effect N).PlainInsert) (t : Table) :
    (Effect.insertUser user id : Effect N).onUsers E t = t ∨
      ∃ i t', t.insert same i user.name user.password .offline = some t' ∧
        (Effect.insertUser user id : Effect N).onUsers E t = t' := by
  obtain ⟨i, hi⟩ := UserModel.insert_eq hE.users hp.1 hp.2.1 hp.2.2 t
  rw [Effect.onUsers, hi]
  cases ht : t.insert same i user.name user.password .offline with
  | none => exact Or.inl rfl
  | some t' => exact Or.inr ⟨i, t', ht, rfl⟩

theorem stateOf_insert {t t' : Table} {i : Int} {name password : String} {s : State}
    (h : t.insert same i name password s = some t') (u : Int) :
    t'.stateOf u = t.stateOf u ∨ u = i ∧ t.find u = none ∧ t'.stateOf u = some s := by
  obtain ⟨_, hn⟩ := Table.find_lt_of_insert h
  have hf := Table.find_insert h u
  by_cases hu : i = u
  · subst hu
    rw [if_pos rfl] at hf
    exact Or.inr ⟨rfl, hn, by rw [Table.stateOf, hf]; rfl⟩
  · rw [if_neg hu] at hf
    exact Or.inl (by rw [Table.stateOf, hf, Table.stateOf])

end BridgeIM.Server
