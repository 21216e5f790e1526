import Mathlib.Data.List.Forall2

namespace BridgeIM.Lib

/-- A machine that answers each input with an output. -/
structure Transducer (S I O : Type*) where
  step : S → I → O × S

namespace Transducer

variable {S T I J O P : Type*}

def run (M : Transducer S I O) : S → List I → List O × S
  | s, [] => ([], s)
  | s, i :: is => ((M.step s i).1 :: (M.run (M.step s i).2 is).1, (M.run (M.step s i).2 is).2)

theorem run_cons (M : Transducer S I O) (s : S) (i : I) (is : List I) :
    M.run s (i :: is) = ((M.step s i).1 :: (M.run (M.step s i).2 is).1, (M.run (M.step s i).2 is).2) := rfl

/-- One machine does as another one does, for inputs, outputs and states that
correspond. -/
def Refines (M : Transducer S I O) (N : Transducer T J P) (state : S → T → Prop) (input : I → J → Prop)
    (output : O → P → Prop) : Prop :=
  ∀ s t i j, state s t → input i j → output (M.step s i).1 (N.step t j).1 ∧ state (M.step s i).2 (N.step t j).2

/-- What holds of one step holds of every run. -/
theorem Refines.run {M : Transducer S I O} {N : Transducer T J P} {state : S → T → Prop} {input : I → J → Prop}
    {output : O → P → Prop} (h : M.Refines N state input output) {is : List I} {js : List J}
    (hi : List.Forall₂ input is js) {s : S} {t : T} (hs : state s t) :
    List.Forall₂ output (M.run s is).1 (N.run t js).1 ∧ state (M.run s is).2 (N.run t js).2 := by
  induction hi generalizing s t with
  | nil => exact ⟨.nil, hs⟩
  | @cons i j is js hij _ ih =>
    obtain ⟨ho, hs⟩ := h s t i j hs hij
    obtain ⟨hos, ht⟩ := ih hs
    exact ⟨.cons ho hos, ht⟩

/-- The inputs as another machine reads them, where that depends on the state. -/
def inputs (M : Transducer S I O) (read : S → I → J) : S → List I → List J
  | _, [] => []
  | s, i :: is => read s i :: M.inputs read (M.step s i).2 is

/-- One machine does as another one does, which reads the inputs in its own way. -/
def Follows (M : Transducer S I O) (N : Transducer T J P) (read : S → I → J) (ok : I → Prop) (state : S → T → Prop)
    (output : O → P → Prop) : Prop :=
  ∀ s t i, state s t → ok i → output (M.step s i).1 (N.step t (read s i)).1 ∧ state (M.step s i).2 (N.step t (read s i)).2

theorem Follows.run {M : Transducer S I O} {N : Transducer T J P} {read : S → I → J} {ok : I → Prop}
    {state : S → T → Prop} {output : O → P → Prop} (h : M.Follows N read ok state output) {is : List I}
    (hi : ∀ i ∈ is, ok i) {s : S} {t : T} (hs : state s t) :
    List.Forall₂ output (M.run s is).1 (N.run t (M.inputs read s is)).1 ∧
      state (M.run s is).2 (N.run t (M.inputs read s is)).2 := by
  induction is generalizing s t with
  | nil => exact ⟨.nil, hs⟩
  | cons i is ih =>
    rw [List.forall_mem_cons] at hi
    obtain ⟨ho, hs⟩ := h s t i hs hi.1
    obtain ⟨hos, ht⟩ := ih hi.2 hs
    exact ⟨.cons ho hos, ht⟩

end Transducer

end BridgeIM.Lib
