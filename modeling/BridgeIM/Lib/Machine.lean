import Mathlib.Data.List.Basic

namespace BridgeIM.Lib

/-- A machine driven by moves: `step s a` is the state after the move `a` is
taken in `s`, or `none` when the move is not possible there. -/
structure Machine (S A : Type*) where
  step : S → A → Option S

namespace Machine

variable {S A : Type*} {M : Machine S A}

def run (M : Machine S A) : S → List A → Option S
  | s, [] => some s
  | s, a :: as => (M.step s a).bind (fun t => M.run t as)

/-- Every move of the run meets the condition in the state where it is taken. -/
def Meets (M : Machine S A) (ok : S → A → Prop) : S → List A → Prop
  | _, [] => True
  | s, a :: as => ok s a ∧ ∀ t ∈ M.step s a, M.Meets ok t as

instance decidableMeets {ok : S → A → Prop} [∀ s a, Decidable (ok s a)] :
    ∀ (as : List A) (s : S), Decidable (M.Meets ok s as)
  | [], _ => isTrue trivial
  | a :: as, s =>
    have : ∀ t, Decidable (M.Meets ok t as) := decidableMeets as
    inferInstanceAs (Decidable (ok s a ∧ ∀ t ∈ M.step s a, M.Meets ok t as))

@[simp] theorem run_nil (s : S) : M.run s [] = some s := rfl

theorem run_cons (s : S) (a : A) (as : List A) :
    M.run s (a :: as) = (M.step s a).bind (fun t => M.run t as) := rfl

theorem run_cons_eq_some {s t : S} {a : A} {as : List A} :
    M.run s (a :: as) = some t ↔ ∃ u, M.step s a = some u ∧ M.run u as = some t := by
  rw [run_cons, Option.bind_eq_some_iff]

theorem run_append (s : S) (as bs : List A) :
    M.run s (as ++ bs) = (M.run s as).bind (fun t => M.run t bs) := by
  induction as generalizing s with
  | nil => rfl
  | cons a as ih =>
    rw [List.cons_append, run_cons, run_cons, Option.bind_assoc]
    congr 1
    funext t
    exact ih t

theorem meets_true (s : S) (as : List A) : M.Meets (fun _ _ => True) s as := by
  induction as generalizing s with
  | nil => trivial
  | cons a as ih => exact ⟨trivial, fun t _ => ih t⟩

theorem meets_of_forall {p : A → Prop} (s : S) {as : List A} (h : ∀ a ∈ as, p a) : M.Meets (fun _ a => p a) s as := by
  induction as generalizing s with
  | nil => trivial
  | cons a as ih => exact ⟨h a List.mem_cons_self, fun t _ => ih t (fun b hb => h b (List.mem_cons_of_mem a hb))⟩

theorem Meets.mono {ok ok' : S → A → Prop} (h : ∀ s a, ok s a → ok' s a) {s : S} {as : List A}
    (hm : M.Meets ok s as) : M.Meets ok' s as := by
  induction as generalizing s with
  | nil => trivial
  | cons a as ih => exact ⟨h s a hm.1, fun t ht => ih (hm.2 t ht)⟩

theorem meets_and {ok ok' : S → A → Prop} {s : S} {as : List A} (h : M.Meets ok s as)
    (h' : M.Meets ok' s as) : M.Meets (fun s a => ok s a ∧ ok' s a) s as := by
  induction as generalizing s with
  | nil => trivial
  | cons a as ih => exact ⟨⟨h.1, h'.1⟩, fun t ht => ih (h.2 t ht) (h'.2 t ht)⟩

theorem Meets.prefix {ok : S → A → Prop} {s : S} {as bs : List A}
    (h : M.Meets ok s (as ++ bs)) : M.Meets ok s as := by
  induction as generalizing s with
  | nil => trivial
  | cons a as ih => exact ⟨h.1, fun t ht => ih (h.2 t ht)⟩

theorem meets_append {ok : S → A → Prop} {s : S} {as bs : List A} :
    M.Meets ok s (as ++ bs) ↔ M.Meets ok s as ∧ ∀ t ∈ M.run s as, M.Meets ok t bs := by
  induction as generalizing s with
  | nil => exact ⟨fun h => ⟨trivial, fun t ht => Option.some.inj ht ▸ h⟩, fun h => h.2 s rfl⟩
  | cons a as ih =>
    constructor
    · intro h
      refine ⟨⟨h.1, fun t ht => (ih.mp (h.2 t ht)).1⟩, fun t ht => ?_⟩
      obtain ⟨u, hu, ht⟩ := run_cons_eq_some.mp ht
      exact (ih.mp (h.2 u hu)).2 t ht
    · intro h
      exact ⟨h.1.1, fun t ht => ih.mpr ⟨h.1.2 t ht, fun u hu => h.2 u (run_cons_eq_some.mpr ⟨t, ht, hu⟩)⟩⟩

def Once (M : Machine S A) (P : S → Prop) (s₀ : S) (as : List A) : Prop :=
  ∃ bs cs s, as = bs ++ cs ∧ M.run s₀ bs = some s ∧ P s

theorem once_of_run {P : S → Prop} {s₀ s : S} {as : List A} (hr : M.run s₀ as = some s) (hp : P s) : M.Once P s₀ as :=
  ⟨as, [], s, (List.append_nil as).symm, hr, hp⟩

theorem Once.append {P : S → Prop} {s₀ : S} {as : List A} (h : M.Once P s₀ as) (bs : List A) :
    M.Once P s₀ (as ++ bs) := by
  obtain ⟨cs, ds, s, rfl, hr, hp⟩ := h
  exact ⟨cs, ds ++ bs, s, List.append_assoc cs ds bs, hr, hp⟩

/-- Induction along a run whose moves meet a condition. The predicate may
speak about the moves taken so far. -/
theorem run_induction {P : List A → S → Prop} {ok : S → A → Prop} {s₀ : S} (h₀ : P [] s₀)
    (hs : ∀ as s a t, P as s → ok s a → M.step s a = some t → P (as ++ [a]) t)
    {as : List A} {s : S} (hm : M.Meets ok s₀ as) (hr : M.run s₀ as = some s) : P as s := by
  suffices h : ∀ bs as s₀, P as s₀ → M.Meets ok s₀ bs → M.run s₀ bs = some s → P (as ++ bs) s from
    h as [] s₀ h₀ hm hr
  intro bs
  induction bs with
  | nil =>
    intro as s₀ hp _ hr
    cases hr
    rwa [List.append_nil]
  | cons b bs ih =>
    intro as s₀ hp hm hr
    obtain ⟨u, hu, hr⟩ := run_cons_eq_some.mp hr
    have h := ih (as ++ [b]) u (hs as s₀ b u hp hm.1 hu) (hm.2 u hu) hr
    rwa [List.append_assoc, List.singleton_append] at h

theorem run_concat {s₀ s t : S} {a : A} {as : List A} (hr : M.run s₀ as = some s) (hs : M.step s a = some t) :
    M.run s₀ (as ++ [a]) = some t := by
  rw [run_append, hr, Option.bind_some, run_cons, hs]
  rfl

theorem reached_induction {P : List A → S → Prop} {s₀ : S} (h₀ : P [] s₀)
    (hs : ∀ as s a t, M.run s₀ as = some s → P as s → M.step s a = some t → P (as ++ [a]) t)
    {as : List A} {s : S} (hr : M.run s₀ as = some s) : P as s := by
  suffices h : M.run s₀ as = some s ∧ P as s from h.2
  refine run_induction (P := fun as s => M.run s₀ as = some s ∧ P as s) ⟨rfl, h₀⟩ ?_ (meets_true s₀ as) hr
  intro as s a t ⟨hr, hp⟩ _ ht
  exact ⟨run_concat hr ht, hs as s a t hr hp ht⟩

section Trace

variable {B : Type*}

def trace (M : Machine S A) (view : S → A → Option B) : S → List A → List B
  | _, [] => []
  | s, a :: as => (view s a).toList ++ (M.step s a).elim [] fun t => M.trace view t as

theorem trace_append {view : S → A → Option B} {s t : S} {as : List A} (hr : M.run s as = some t) (bs : List A) :
    M.trace view s (as ++ bs) = M.trace view s as ++ M.trace view t bs := by
  induction as generalizing s with
  | nil =>
    cases hr
    rfl
  | cons a as ih =>
    obtain ⟨u, hu, hr⟩ := run_cons_eq_some.mp hr
    rw [List.cons_append, trace, trace, hu, Option.elim_some, Option.elim_some, ih hr, List.append_assoc]

theorem trace_concat {view : S → A → Option B} {s t : S} {as : List A} (hr : M.run s as = some t) (a : A) :
    M.trace view s (as ++ [a]) = M.trace view s as ++ (view t a).toList := by
  have hnil : (M.step t a).elim ([] : List B) (fun _ => []) = [] := by
    cases M.step t a with
    | none => rfl
    | some u => rfl
  rw [trace_append hr]
  exact congrArg _ ((congrArg _ hnil).trans (List.append_nil _))

theorem map_trace {C : Type*} {view : S → A → Option B} (f : B → C) (s : S) (as : List A) :
    (M.trace view s as).map f = M.trace (fun s a => (view s a).map f) s as := by
  induction as generalizing s with
  | nil => rfl
  | cons a as ih =>
    have hview : (view s a).toList.map f = ((view s a).map f).toList := by
      cases view s a with
      | none => rfl
      | some b => rfl
    rw [trace, trace, List.map_append, hview]
    cases M.step s a with
    | none => rfl
    | some t => exact congrArg _ (ih t)

end Trace

/-- What every allowed move preserves holds at the end of every run. -/
theorem run_invariant {I : S → Prop} {ok : S → A → Prop} {s₀ : S} (h₀ : I s₀)
    (hs : ∀ s a t, I s → ok s a → M.step s a = some t → I t)
    {as : List A} {s : S} (hm : M.Meets ok s₀ as) (hr : M.run s₀ as = some s) : I s :=
  run_induction (P := fun _ s => I s) h₀ (fun _ => hs) hm hr

theorem Meets.invariant {I : S → Prop} {ok : S → A → Prop} (hs : ∀ s a t, I s → ok s a → M.step s a = some t → I t)
    {as : List A} {s : S} (hi : I s) (hm : M.Meets ok s as) : M.Meets (fun s a => I s ∧ ok s a) s as := by
  induction as generalizing s with
  | nil => trivial
  | cons a as ih => exact ⟨⟨hi, hm.1⟩, fun t ht => ih (hs s a t hi hm.1 ht) (hm.2 t ht)⟩

/-- A machine whose moves leave the view of its state or move it as another
machine does runs inside the other machine. -/
theorem run_refines {T B : Type*} {N : Machine T B} (view : S → T)
    (h : ∀ s a t, M.step s a = some t → view t = view s ∨ ∃ b, N.step (view s) b = some (view t))
    {as : List A} {s t : S} (hr : M.run s as = some t) : ∃ bs, N.run (view s) bs = some (view t) := by
  induction as generalizing s with
  | nil =>
    cases hr
    exact ⟨[], rfl⟩
  | cons a as ih =>
    obtain ⟨u, hu, hr⟩ := run_cons_eq_some.mp hr
    obtain ⟨bs, hb⟩ := ih hr
    obtain he | ⟨b, hs⟩ := h s a u hu
    · exact ⟨bs, he ▸ hb⟩
    · exact ⟨b :: bs, run_cons_eq_some.mpr ⟨view u, hs, hb⟩⟩

/-- Allowed moves that lower a rank lead to the goal. -/
theorem reaches_of_rank {α : Type*} {r : α → α → Prop} (hr : WellFounded r) (rank : S → α) {ok : S → A → Prop}
    {I P : S → Prop}
    (h : ∀ s, I s → P s ∨ ∃ a t, ok s a ∧ M.step s a = some t ∧ I t ∧ r (rank t) (rank s)) {s : S} (hs : I s) :
    ∃ as t, M.Meets ok s as ∧ M.run s as = some t ∧ P t := by
  induction hx : rank s using hr.induction generalizing s with
  | _ x ih =>
    obtain hp | ⟨a, t, hok, ht, hi, hlt⟩ := h s hs
    · exact ⟨[], s, trivial, rfl, hp⟩
    · obtain ⟨as, u, hm, hu, hp⟩ := ih (rank t) (hx ▸ hlt) hi rfl
      refine ⟨a :: as, u, ⟨hok, fun v hv => ?_⟩, run_cons_eq_some.mpr ⟨t, ht, hu⟩, hp⟩
      cases ht.symm.trans hv
      exact hm

/-- Allowed moves that lower a rank are at most as many as the rank says. -/
theorem length_add_rank_le {rank : S → Nat} {ok : S → A → Prop}
    (h : ∀ s a t, ok s a → M.step s a = some t → rank t < rank s) {as : List A} {s t : S} (hm : M.Meets ok s as)
    (hr : M.run s as = some t) : as.length + rank t ≤ rank s := by
  induction as generalizing s with
  | nil =>
    cases hr
    exact Nat.le_of_eq (Nat.zero_add _)
  | cons a as ih =>
    obtain ⟨u, hu, hr⟩ := run_cons_eq_some.mp hr
    have hlt := h s a u hm.1 hu
    have hle := ih (hm.2 u hu) hr
    rw [List.length_cons]
    omega

end Machine

end BridgeIM.Lib
