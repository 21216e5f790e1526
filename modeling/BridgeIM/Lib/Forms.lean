import Mathlib.Data.List.Basic

namespace BridgeIM.Lib

/-- A form of statement: its fixed beginning and the reader of what follows. -/
structure Form (T A : Type*) where
  head : List T
  rest : List T → Option A

namespace Form

variable {T A : Type*} [DecidableEq T]

def readFixed (head ts : List T) : Option (List T) := if head <+: ts then some (ts.drop head.length) else none

def read (fs : List (Form T A)) (ts : List T) : Option A := fs.findSome? fun f => (readFixed f.head ts).bind f.rest

def Apart (f g : Form T A) : Prop := ¬ f.head <+: g.head ∧ ¬ g.head <+: f.head

instance (f g : Form T A) : Decidable (f.Apart g) := inferInstanceAs (Decidable (_ ∧ _))

omit [DecidableEq T] in
theorem Apart.symm {f g : Form T A} (h : f.Apart g) : g.Apart f := And.symm h

theorem readFixed_append (head ts : List T) : readFixed head (head ++ ts) = some ts := by
  rw [readFixed, if_pos (List.prefix_append head ts), List.drop_left]

theorem readFixed_apart {f g : Form T A} (h : f.Apart g) (ts : List T) : readFixed f.head (g.head ++ ts) = none := by
  rw [readFixed, if_neg]
  intro hp
  obtain hl | hl := Nat.le_total f.head.length g.head.length
  · exact h.1 (List.prefix_of_prefix_length_le hp (List.prefix_append g.head ts) hl)
  · exact h.2 (List.prefix_of_prefix_length_le (List.prefix_append g.head ts) hp hl)

theorem read_eq {fs : List (Form T A)} (hfs : fs.Pairwise Apart) {f : Form T A} (hf : f ∈ fs) {ts : List T} {a : A}
    (h : f.rest ts = some a) : read fs (f.head ++ ts) = some a := by
  induction fs with
  | nil => cases hf
  | cons g gs ih =>
    obtain ⟨hg, hgs⟩ := List.pairwise_cons.mp hfs
    rw [read, List.findSome?_cons]
    obtain rfl | hf := List.mem_cons.mp hf
    · rw [readFixed_append, Option.bind_some, h]
    · rw [readFixed_apart (hg f hf), Option.bind_none]
      exact ih hgs hf

end Form

end BridgeIM.Lib
