import Mathlib.Data.List.Induction

namespace BridgeIM.Lib

variable {α κ : Type*} [DecidableEq κ]

/-- The latest entry of a history for a given key. -/
def lastFor (key : α → κ) (k : κ) (h : List α) : Option α :=
  (h.filter (fun a => key a = k)).getLast?

@[simp] theorem lastFor_nil (key : α → κ) (k : κ) : lastFor key k [] = none := rfl

theorem lastFor_concat (key : α → κ) (k : κ) (h : List α) (a : α) :
    lastFor key k (h ++ [a]) = if key a = k then some a else lastFor key k h := by
  by_cases hk : key a = k
  · simp [lastFor, hk]
  · simp [lastFor, hk]

@[simp] theorem lastFor_concat_self (key : α → κ) (h : List α) (a : α) :
    lastFor key (key a) (h ++ [a]) = some a := by
  simp [lastFor_concat]

/-- What has happened after the latest entry with a given property. -/
def since (p : α → Bool) (h : List α) : List α :=
  h.foldl (fun acc a => if p a then [] else acc ++ [a]) []

@[simp] theorem since_nil (p : α → Bool) : since p [] = [] := rfl

theorem since_concat (p : α → Bool) (h : List α) (a : α) :
    since p (h ++ [a]) = if p a then [] else since p h ++ [a] := by
  rw [since, List.foldl_append]
  rfl

theorem since_append {p : α → Bool} {l : List α} (hl : ∀ a ∈ l, p a = false) (h : List α) :
    since p (h ++ l) = since p h ++ l := by
  induction l using List.reverseRecOn with
  | nil => rw [List.append_nil, List.append_nil]
  | append_singleton l a ih =>
    have ha := hl a (by simp)
    rw [← List.append_assoc, since_concat, ha, ih fun b hb => hl b (by simp [hb]), List.append_assoc]
    rfl

theorem since_suffix (p : α → Bool) (h : List α) : since p h <:+ h := by
  induction h using List.reverseRecOn with
  | nil => exact List.suffix_refl _
  | append_singleton h b ih =>
    rw [since_concat]
    split
    · exact List.nil_suffix
    · obtain ⟨l, hl⟩ := ih
      exact ⟨l, by rw [← List.append_assoc, hl]⟩

theorem mem_of_mem_since {p : α → Bool} {h : List α} {a : α} (ha : a ∈ since p h) : a ∈ h := (since_suffix p h).subset ha

/-- What has happened up to the latest entry with a given property. -/
def upTo (p : α → Bool) (h : List α) : List α := h.take (h.length - (since p h).length)

theorem upTo_append_since (p : α → Bool) (h : List α) : upTo p h ++ since p h = h := by
  obtain ⟨l, hl⟩ := since_suffix p h
  have hlen : h.length - (since p h).length = l.length := by rw [← congrArg List.length hl, List.length_append]; omega
  have htake : h.take l.length = l := by rw [← congrArg (List.take l.length) hl, List.take_left']; rfl
  rw [upTo, hlen, htake, hl]

end BridgeIM.Lib
