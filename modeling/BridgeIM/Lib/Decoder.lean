import Mathlib.Data.List.Basic

namespace BridgeIM.Lib

/-- A reader that takes one complete message after the other off the front of
the bytes it has been fed. More bytes do not change what it takes. -/
structure Decoder (B R : Type*) where
  next : List B → Option (R × List B)
  extend : ∀ s r t u, next s = some (r, t) → next (s ++ u) = some (r, t ++ u)

namespace Decoder

variable {B R : Type*}

def ret (r : R) : Decoder B R where
  next s := some (r, s)
  extend := by
    intro s q t u h
    cases h
    rfl

def fail : Decoder B R where
  next _ := none
  extend := fun _ _ _ _ h => nomatch h

def bind {S : Type*} (d : Decoder B R) (f : R → Decoder B S) : Decoder B S where
  next s := (d.next s).bind fun x => (f x.1).next x.2
  extend := by
    intro s q t u h
    obtain ⟨⟨r, v⟩, hr, hq⟩ := Option.bind_eq_some_iff.mp h
    rw [d.extend s r v u hr]
    exact (f r).extend v q t u hq

def take (n : Nat) : Decoder B (List B) where
  next s := if n ≤ s.length then some (s.take n, s.drop n) else none
  extend := by
    intro s q t u h
    obtain ⟨hn, h⟩ := Option.ite_none_right_eq_some.mp h
    cases h
    rw [if_pos (by rw [List.length_append]; exact Nat.le_add_right_of_le hn), List.take_append_of_le_length hn,
      List.drop_append_of_le_length hn]

def times : Nat → Decoder B R → Decoder B (List R)
  | 0, _ => ret []
  | n + 1, d => d.bind fun r => (times n d).bind fun rs => ret (r :: rs)

/-- Taking the messages `rs` off the bytes `s` leaves `t`. -/
inductive Takes (d : Decoder B R) : List B → List R → List B → Prop
  | nil (s : List B) : Takes d s [] s
  | cons {s t u : List B} {r : R} {rs : List R} (h : d.next s = some (r, t)) (ht : Takes d t rs u) :
    Takes d s (r :: rs) u

variable {d : Decoder B R}

theorem Takes.concat {s t u : List B} {r : R} {rs : List R} (h : d.Takes s rs t) (hn : d.next t = some (r, u)) :
    d.Takes s (rs ++ [r]) u := by
  induction h with
  | nil s => exact .cons hn (.nil u)
  | cons hs _ ih => exact .cons hs (ih hn)

theorem Takes.append {s t : List B} {rs : List R} (h : d.Takes s rs t) (u : List B) :
    d.Takes (s ++ u) rs (t ++ u) := by
  induction h with
  | nil s => exact .nil (s ++ u)
  | cons hs _ ih => exact .cons (d.extend _ _ _ u hs) ih

theorem Takes.before {s t t' : List B} {rs rs' : List R} (h : d.Takes s rs t) (h' : d.Takes s rs' t')
    (hn : d.next t' = none) : rs <+: rs' := by
  induction h generalizing rs' with
  | nil s => exact List.nil_prefix
  | @cons s u v r rs hs _ ih =>
    cases h' with
    | nil =>
      rw [hs] at hn
      cases hn
    | cons hs' ht' =>
      rw [hs] at hs'
      cases hs'
      exact List.cons_prefix_cons.mpr ⟨rfl, ih ht'⟩

def Within (d : Decoder B R) : Prop := ∀ s r t, d.next s = some (r, t) → t.length ≤ s.length

/-- Every message has at least one byte. -/
def Shortens (d : Decoder B R) : Prop := ∀ s r t, d.next s = some (r, t) → t.length < s.length

theorem within_ret (r : R) : (ret r : Decoder B R).Within := by
  intro s q t h
  cases h
  exact Nat.le_refl _

theorem within_fail : (fail : Decoder B R).Within := by
  intro s q t h
  cases h

theorem within_take (n : Nat) : (take n : Decoder B (List B)).Within := by
  intro s q t h
  obtain ⟨_, h⟩ := Option.ite_none_right_eq_some.mp h
  cases h
  rw [List.length_drop]
  exact Nat.sub_le ..

variable {S : Type*} {f : R → Decoder B S}

theorem Within.bind (hd : d.Within) (hf : ∀ r, (f r).Within) : (d.bind f).Within := by
  intro s q t h
  obtain ⟨⟨r, v⟩, hr, hq⟩ := Option.bind_eq_some_iff.mp h
  exact Nat.le_trans (hf r v q t hq) (hd s r v hr)

theorem Shortens.bind (hd : d.Shortens) (hf : ∀ r, (f r).Within) : (d.bind f).Shortens := by
  intro s q t h
  obtain ⟨⟨r, v⟩, hr, hq⟩ := Option.bind_eq_some_iff.mp h
  exact Nat.lt_of_le_of_lt (hf r v q t hq) (hd s r v hr)

theorem Shortens.within (hd : d.Shortens) : d.Within := fun s r t h => Nat.le_of_lt (hd s r t h)

theorem within_times (hd : d.Within) (n : Nat) : (times n d).Within := by
  induction n with
  | zero => exact within_ret []
  | succ n ih => exact hd.bind fun r => ih.bind fun rs => within_ret (r :: rs)

end Decoder

end BridgeIM.Lib
