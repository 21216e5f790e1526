import Mathlib.Algebra.BigOperators.Group.List.Basic

namespace BridgeIM.Lib

variable {α M : Type*} [AddCommMonoid M]

def total (f : α → M) (l : List α) : M := (l.map f).sum

@[simp] theorem total_nil (f : α → M) : total f [] = 0 := rfl

@[simp] theorem total_cons (f : α → M) (x : α) (l : List α) : total f (x :: l) = f x + total f l := rfl

theorem total_append (f : α → M) (l l' : List α) : total f (l ++ l') = total f l + total f l' := by
  rw [total, List.map_append, List.sum_append, total, total]

theorem total_concat (f : α → M) (l : List α) (x : α) : total f (l ++ [x]) = total f l + f x := by
  rw [total_append, total_cons, total_nil, add_zero]

theorem total_eq_zero {f : α → M} {l : List α} (h : ∀ x ∈ l, f x = 0) : total f l = 0 := by
  induction l with
  | nil => rfl
  | cons x l ih =>
    rw [total_cons, h x List.mem_cons_self, ih (fun y hy => h y (List.mem_cons_of_mem x hy)), add_zero]

theorem total_set {f : α → M} {l : List α} {i : Nat} {x : α} (h : l[i]? = some x) (y : α) :
    total f (l.set i y) + f x = total f l + f y := by
  induction l generalizing i with
  | nil => cases h
  | cons z l ih =>
    cases i with
    | zero =>
      cases h
      rw [List.set_cons_zero, total_cons, total_cons, add_comm (f y), add_right_comm, add_comm (total f l)]
    | succ i =>
      rw [List.set_cons_succ, total_cons, total_cons, add_assoc, ih h, add_assoc]

theorem total_set_eq {f : α → M} {l : List α} {i : Nat} {x y : α} (h : l[i]? = some x) (hf : f y = f x) :
    total f (l.set i y) = total f l := by
  induction l generalizing i with
  | nil => rfl
  | cons z l ih =>
    cases i with
    | zero =>
      cases h
      rw [List.set_cons_zero, total_cons, total_cons, hf]
    | succ i => rw [List.set_cons_succ, total_cons, total_cons, ih h]

theorem any_set {f : α → Bool} {l : List α} {i : Nat} {x y : α} (h : l[i]? = some x) (hf : f y = f x) :
    (l.set i y).any f = l.any f := by
  induction l generalizing i with
  | nil => rfl
  | cons z l ih =>
    cases i with
    | zero =>
      cases h
      rw [List.set_cons_zero, List.any_cons, List.any_cons, hf]
    | succ i => rw [List.set_cons_succ, List.any_cons, List.any_cons, ih h]

theorem le_total {f : α → Nat} {l : List α} {x : α} (h : x ∈ l) : f x ≤ total f l := by
  induction l with
  | nil => cases h
  | cons z l ih =>
    rw [total_cons]
    obtain rfl | h := List.mem_cons.mp h
    · exact Nat.le_add_right _ _
    · exact Nat.le_trans (ih h) (Nat.le_add_left _ _)

theorem eq_or_zero_of_mem_set {f : α → Nat} {l : List α} {i : Nat} {x y z : α} (h : l[i]? = some x)
    (ht : total f l = f x) (hz : z ∈ l.set i y) : z = y ∨ f z = 0 := by
  induction l generalizing i with
  | nil => cases hz
  | cons w l ih =>
    rw [total_cons] at ht
    cases i with
    | zero =>
      cases h
      rw [List.set_cons_zero] at hz
      obtain rfl | hz := List.mem_cons.mp hz
      · exact Or.inl rfl
      · have hle : f z ≤ total f l := le_total hz
        exact Or.inr (by omega)
    | succ i =>
      have hle : f x ≤ total f l := le_total (List.mem_of_getElem? h)
      rw [List.set_cons_succ] at hz
      obtain rfl | hz := List.mem_cons.mp hz
      · exact Or.inr (by omega)
      · exact ih h (by omega) hz

theorem mem_set_of_mem {l : List α} {i : Nat} {p q : α} (hi : l[i]? = some q) {q' : α} (hp : p ∈ l) :
    p = q ∨ p ∈ l.set i q' := by
  obtain ⟨j, hj⟩ := List.mem_iff_getElem?.mp hp
  by_cases h : i = j
  · subst h
    exact Or.inl (Option.some.inj (hj.symm.trans hi))
  · exact Or.inr (List.mem_iff_getElem?.mpr ⟨j, by rw [List.getElem?_set_ne h, hj]⟩)

theorem getElem?_of_set {l : List α} {i j : Nat} {x y : α} (h : (l.set i x)[j]? = some y) :
    j = i ∧ y = x ∨ j ≠ i ∧ l[j]? = some y := by
  by_cases hij : j = i
  · subst hij
    rw [List.getElem?_set_self'] at h
    obtain ⟨z, _, hz⟩ := Option.map_eq_some_iff.mp h
    exact Or.inl ⟨rfl, hz.symm⟩
  · rw [List.getElem?_set_ne (Ne.symm hij)] at h
    exact Or.inr ⟨hij, h⟩

theorem getElem?_of_concat {l : List α} {x y : α} {i : Nat} (h : (l ++ [x])[i]? = some y) :
    l[i]? = some y ∨ i = l.length ∧ y = x := by
  obtain hlt | hge := Nat.lt_or_ge i l.length
  · rw [List.getElem?_append_left hlt] at h
    exact Or.inl h
  · rw [List.getElem?_append_right hge] at h
    have hi : i - l.length < 1 := (List.getElem?_eq_some_iff.mp h).1
    have hi' : i - l.length = 0 := by omega
    rw [hi'] at h
    exact Or.inr ⟨by omega, (Option.some.inj h).symm⟩

end BridgeIM.Lib
