import Mathlib.Data.List.Basic

namespace BridgeIM.Lib.Lines

variable {α : Type*} [DecidableEq α] {d : α}

/-- The pieces of a text that the delimiter ends, and what is left after them. -/
def cut (d : α) : List α → List (List α) × List α
  | [] => ([], [])
  | c :: cs =>
    if c = d then ([] :: (cut d cs).1, (cut d cs).2)
    else match cut d cs with
      | ([], rest) => ([], c :: rest)
      | (p :: ps, rest) => ((c :: p) :: ps, rest)

theorem cut_of_not_mem {s : List α} (h : d ∉ s) : cut d s = ([], s) := by
  induction s with
  | nil => rfl
  | cons c s ih =>
    rw [List.mem_cons, not_or] at h
    rw [cut, if_neg (Ne.symm h.1), ih h.2]

theorem cut_append_cons {p : List α} (h : d ∉ p) (s : List α) :
    cut d (p ++ d :: s) = (p :: (cut d s).1, (cut d s).2) := by
  induction p with
  | nil => rw [List.nil_append, cut, if_pos rfl]
  | cons c p ih =>
    rw [List.mem_cons, not_or] at h
    rw [List.cons_append, cut, if_neg (Ne.symm h.1), ih h.2]

omit [DecidableEq α] in
theorem cut_induction {P : List α → Prop} (hrest : ∀ s, d ∉ s → P s)
    (hpiece : ∀ p s, d ∉ p → P s → P (p ++ d :: s)) (s : List α) : P s := by
  induction hn : s.length using Nat.strongRecOn generalizing s with
  | _ n ih =>
    by_cases h : d ∈ s
    · obtain ⟨p, t, rfl, hp⟩ := List.eq_append_cons_of_mem h
      refine hpiece p t hp (ih t.length ?_ t rfl)
      rw [← hn, List.length_append, List.length_cons]
      omega
    · exact hrest s h

theorem not_mem_rest (s : List α) : d ∉ (cut d s).2 := by
  induction s using cut_induction (d := d) with
  | hrest s h => rwa [cut_of_not_mem h]
  | hpiece p s hp ih => rwa [cut_append_cons hp]

theorem mem_of_pieces {s : List α} (h : (cut d s).1 ≠ []) : d ∈ s := by
  by_contra hs
  rw [cut_of_not_mem hs] at h
  exact h rfl

/-- A text can be cut as it arrives: what is left of its first part is the
beginning of the next piece. -/
theorem cut_append (s t : List α) :
    cut d (s ++ t) = ((cut d s).1 ++ (cut d ((cut d s).2 ++ t)).1, (cut d ((cut d s).2 ++ t)).2) := by
  induction s using cut_induction (d := d) with
  | hrest s h => rw [cut_of_not_mem h, List.nil_append]
  | hpiece p s hp ih => rw [List.append_assoc, List.cons_append, cut_append_cons hp, cut_append_cons hp, ih, List.cons_append]

theorem cut_flatMap {ps : List (List α)} (h : ∀ p ∈ ps, d ∉ p) (s : List α) :
    cut d (ps.flatMap (· ++ [d]) ++ s) = (ps ++ (cut d s).1, (cut d s).2) := by
  induction ps with
  | nil => rfl
  | cons p ps ih =>
    have he : (p :: ps).flatMap (· ++ [d]) ++ s = p ++ d :: (ps.flatMap (· ++ [d]) ++ s) := by
      rw [List.flatMap_cons, List.append_assoc, List.append_assoc, List.singleton_append]
    rw [he, cut_append_cons (h p List.mem_cons_self), ih fun q hq => h q (List.mem_cons_of_mem p hq)]
    rfl

theorem flatMap_cut (s : List α) : (cut d s).1.flatMap (· ++ [d]) ++ (cut d s).2 = s := by
  induction s using cut_induction (d := d) with
  | hrest s h =>
    rw [cut_of_not_mem h]
    rfl
  | hpiece p s hp ih =>
    rw [cut_append_cons hp, List.flatMap_cons, List.append_assoc, List.append_assoc, List.singleton_append, ih]

theorem length_cut (s : List α) : (cut d s).1.length = s.count d := by
  induction s using cut_induction (d := d) with
  | hrest s h => rw [cut_of_not_mem h, List.count_eq_zero_of_not_mem h, List.length_nil]
  | hpiece p s hp ih =>
    rw [cut_append_cons hp, List.count_append, List.count_eq_zero_of_not_mem hp, List.count_cons_self, List.length_cons,
      ih, Nat.zero_add]

theorem cut_take {s t : List α} (h : s <+: t) : (cut d s).1 = (cut d t).1.take (s.count d) := by
  obtain ⟨u, rfl⟩ := h
  rw [cut_append s u, ← length_cut s, List.take_left]

end BridgeIM.Lib.Lines
