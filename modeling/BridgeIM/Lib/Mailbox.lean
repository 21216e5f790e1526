import BridgeIM.Lib.Machine

namespace BridgeIM.Lib

/-- An item is put into the box of a key, or the whole box is taken. -/
inductive Post (K α : Type*)
  | put (k : K) (x : α)
  | take (k : K) (xs : List α)

variable {K α : Type*} [DecidableEq K] [DecidableEq α]

/-- Boxes in which the items of each key wait in their order. -/
def mailbox (K α : Type*) [DecidableEq K] [DecidableEq α] : Machine (K → List α) (Post K α) where
  step s
    | .put k x => some (Function.update s k (s k ++ [x]))
    | .take k xs => if s k = xs then some (Function.update s k []) else none

def puts (k : K) (ps : List (Post K α)) : List α :=
  ps.filterMap fun
    | .put k' x => if k' = k then some x else none
    | .take .. => none

def takes (k : K) (ps : List (Post K α)) : List α :=
  ps.flatMap fun
    | .put .. => []
    | .take k' xs => if k' = k then xs else []

omit [DecidableEq α] in
@[simp] theorem puts_put (k k' : K) (x : α) (ps : List (Post K α)) :
    puts k (.put k' x :: ps) = (if k' = k then [x] else []) ++ puts k ps := by
  unfold puts
  rw [List.filterMap_cons]
  by_cases h : k' = k <;> simp [h]

omit [DecidableEq α] in
@[simp] theorem puts_take (k k' : K) (xs : List α) (ps : List (Post K α)) : puts k (.take k' xs :: ps) = puts k ps := rfl

omit [DecidableEq α] in
@[simp] theorem takes_put (k k' : K) (x : α) (ps : List (Post K α)) : takes k (.put k' x :: ps) = takes k ps := rfl

omit [DecidableEq α] in
@[simp] theorem takes_take (k k' : K) (xs : List α) (ps : List (Post K α)) :
    takes k (.take k' xs :: ps) = (if k' = k then xs else []) ++ takes k ps := rfl

theorem mailbox_conserves {s t : K → List α} {ps : List (Post K α)} (hr : (mailbox K α).run s ps = some t) (k : K) :
    s k ++ puts k ps = takes k ps ++ t k := by
  induction ps generalizing s with
  | nil =>
    cases hr
    rw [puts, takes, List.filterMap_nil, List.flatMap_nil, List.append_nil, List.nil_append]
  | cons p ps ih =>
    obtain ⟨u, hu, hr⟩ := Machine.run_cons_eq_some.mp hr
    have h := ih hr
    cases p with
    | put k' x =>
      cases hu
      rw [puts_put, takes_put, ← h, ← List.append_assoc]
      congr 1
      by_cases hk : k' = k
      · subst hk
        rw [if_pos rfl, Function.update_self]
      · rw [if_neg hk, List.append_nil, Function.update_of_ne (Ne.symm hk)]
    | take k' xs =>
      obtain ⟨hx, hs⟩ := Option.ite_none_right_eq_some.mp hu
      cases hs
      subst hx
      rw [puts_take, takes_take, List.append_assoc, ← h]
      by_cases hk : k' = k
      · subst hk
        rw [if_pos rfl, Function.update_self, List.nil_append]
      · rw [if_neg hk, List.nil_append, Function.update_of_ne (Ne.symm hk)]

end BridgeIM.Lib
