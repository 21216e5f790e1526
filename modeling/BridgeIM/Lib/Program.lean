import BridgeIM.Lib.Machine
import BridgeIM.Lib.Slots
import Mathlib.Data.List.Forall2

namespace BridgeIM.Lib

/-- A program that makes one call after the other and goes on with the answers. -/
inductive Program (Op : Type) (Ans : Op → Type) (R : Type)
  | ret (r : R)
  | call (op : Op) (next : Ans op → Program Op Ans R)

namespace Program

variable {Op : Type} {Ans : Op → Type} {R O S Q : Type}

/-- Runs the program alone. The `n`-th call has the outcome `os n`. -/
def run (exec : (op : Op) → O → S → Ans op × S) : Program Op Ans R → (Nat → O) → S → R × S
  | ret r, _, s => (r, s)
  | call op next, os, s => run exec (next (exec op (os 0) s).1) (fun n => os (n + 1)) (exec op (os 0) s).2

def bind (p : Program Op Ans R) (f : R → Program Op Ans Q) : Program Op Ans Q :=
  match p with
  | ret r => f r
  | call op next => call op fun a => (next a).bind f

instance (p : Program Op Ans R) : Decidable (∃ r, p = ret r) :=
  match p with
  | ret r => isTrue ⟨r, rfl⟩
  | call _ _ => isFalse (by simp)

def Only (ok : Op → Prop) : Program Op Ans R → Prop
  | ret _ => True
  | call op next => ok op ∧ ∀ a, (next a).Only ok

/-- If every call is answered as allowed, then every call is one that the program
may make and its result is as promised. -/
def Obeys (allowed : (op : Op) → Ans op → Prop) (ok : Op → Prop) (post : R → Prop) : Program Op Ans R → Prop
  | ret r => post r
  | call op next => ok op ∧ ∀ a, allowed op a → (next a).Obeys allowed ok post

/-- Every call that the program can make meets the condition together with what
the program does next. -/
def Each (P : (op : Op) → (Ans op → Program Op Ans R) → Prop) : Program Op Ans R → Prop
  | ret _ => True
  | call op next => P op next ∧ ∀ a, (next a).Each P

def Returns (ok : R → Prop) : Program Op Ans R → Prop
  | ret r => ok r
  | call _ next => ∀ a, (next a).Returns ok

/-- Every call on the way to a bad result is a quiet one. -/
def QuietUntil (quiet : Op → Prop) (bad : R → Prop) : Program Op Ans R → Prop
  | ret _ => True
  | call op next => (quiet op ∨ ∀ a, (next a).Returns fun r => ¬ bad r) ∧ ∀ a, (next a).QuietUntil quiet bad

variable {exec : (op : Op) → O → S → Ans op × S}

theorem run_call {op : Op} {next : Ans op → Program Op Ans R} {os : Nat → O} {s s' : S} {a : Ans op}
    (h : exec op (os 0) s = (a, s')) :
    (call op next).run exec os s = (next a).run exec (fun n => os (n + 1)) s' := by
  rw [run, h]

theorem Obeys.mono {allowed : (op : Op) → Ans op → Prop} {ok ok' : Op → Prop} {post : R → Prop}
    (h : ∀ op, ok op → ok' op) {p : Program Op Ans R} (hp : p.Obeys allowed ok post) : p.Obeys allowed ok' post := by
  induction p with
  | ret r => exact hp
  | call op next ih => exact ⟨h op hp.1, fun a ha => ih a (hp.2 a ha)⟩

theorem Obeys.bind {allowed : (op : Op) → Ans op → Prop} {ok : Op → Prop} {post : R → Prop} {post' : Q → Prop}
    {p : Program Op Ans R} (hp : p.Obeys allowed ok post) {f : R → Program Op Ans Q}
    (hf : ∀ r, post r → (f r).Obeys allowed ok post') : (p.bind f).Obeys allowed ok post' := by
  induction p with
  | ret r => exact hf r hp
  | call op next ih => exact ⟨hp.1, fun a ha => ih a (hp.2 a ha)⟩

theorem run_returns {ok : R → Prop} {p : Program Op Ans R} (hp : p.Returns ok) (os : Nat → O) (s : S) :
    ok (p.run exec os s).1 := by
  induction p generalizing os s with
  | ret r => exact hp
  | call op next ih => exact ih _ (hp _) _ _

/-- What every allowed call preserves is preserved by the whole program. -/
theorem run_invariant {I : S → Prop} {ok : Op → Prop} (hs : ∀ op o s, ok op → I s → I (exec op o s).2)
    {p : Program Op Ans R} (hp : p.Only ok) (os : Nat → O) {s : S} (hi : I s) : I (p.run exec os s).2 := by
  induction p generalizing os s with
  | ret r => exact hi
  | call op next ih => exact ih _ (hp.2 _) _ (hs op (os 0) s hp.1 hi)

theorem Only.bind {ok : Op → Prop} {p : Program Op Ans R} (hp : p.Only ok) {f : R → Program Op Ans Q}
    (hf : ∀ r, (f r).Only ok) : (p.bind f).Only ok := by
  induction p with
  | ret r => exact hf r
  | call op next ih => exact ⟨hp.1, fun a => ih a (hp.2 a)⟩

theorem Returns.mono {ok ok' : R → Prop} (h : ∀ r, ok r → ok' r) {p : Program Op Ans R} (hp : p.Returns ok) :
    p.Returns ok' := by
  induction p with
  | ret r => exact h r hp
  | call op next ih => exact fun a => ih a (hp a)

theorem Returns.bind {ok : R → Prop} {ok' : Q → Prop} {p : Program Op Ans R} (hp : p.Returns ok)
    {f : R → Program Op Ans Q} (hf : ∀ r, ok r → (f r).Returns ok') : (p.bind f).Returns ok' := by
  induction p with
  | ret r => exact hf r hp
  | call op next ih => exact fun a => ih a (hp a)

theorem QuietUntil.of_returns {quiet : Op → Prop} {bad : R → Prop} {p : Program Op Ans R}
    (hp : p.Returns fun r => ¬ bad r) : p.QuietUntil quiet bad := by
  induction p with
  | ret r => trivial
  | call op next ih => exact ⟨Or.inr hp, fun a => ih a (hp a)⟩

/-- What quiet calls preserve holds after a run with a bad result. -/
theorem run_quietUntil {quiet : Op → Prop} {bad : R → Prop} {I : S → Prop}
    (hs : ∀ op o s, quiet op → I s → I (exec op o s).2) {p : Program Op Ans R} (hp : p.QuietUntil quiet bad)
    {os : Nat → O} {s : S} (hb : bad (p.run exec os s).1) (hi : I s) : I (p.run exec os s).2 := by
  induction p generalizing os s with
  | ret r => exact hi
  | call op next ih =>
    obtain ⟨hq | hr, hp⟩ := hp
    · exact ih _ (hp _) hb (hs op (os 0) s hq hi)
    · exact absurd hb (run_returns (hr _) _ _)

end Program

/-- Programs that run side by side on one state. -/
structure Threads (Op : Type) (Ans : Op → Type) (R S : Type) where
  state : S
  threads : List (Program Op Ans R)

/-- A request starts a new thread, or a thread makes its next call. -/
inductive ThreadMove (Q O : Type)
  | start (q : Q)
  | step (i : Nat) (o : O)

def ThreadMove.request {Q O : Type} : ThreadMove Q O → Option Q
  | start q => some q
  | step _ _ => none

/-- The requests that a list of moves starts, one for each thread. -/
def started {Q O : Type} (as : List (ThreadMove Q O)) : List Q := as.filterMap ThreadMove.request

def ThreadMove.outcome {Q O : Type} : ThreadMove Q O → Option O
  | start _ => none
  | step _ o => some o

namespace Threads

variable {Op : Type} {Ans : Op → Type} {R O S Q : Type}

def Idle (s : Threads Op Ans R S) : Prop := ∀ p ∈ s.threads, ∃ r, p = .ret r

instance (s : Threads Op Ans R S) : Decidable s.Idle := inferInstanceAs (Decidable (∀ p ∈ s.threads, _))

def callOf (s : Threads Op Ans R S) : ThreadMove Q O → Option Op
  | .start _ => none
  | .step i _ =>
    match s.threads[i]? with
    | some (.call op _) => some op
    | _ => none

def nextCall (s : Threads Op Ans R S) (i : Nat) : Option Op :=
  match s.threads[i]? with
  | some (.call op _) => some op
  | _ => none

theorem nextCall_eq_some {s : Threads Op Ans R S} {i : Nat} {op : Op} (h : s.nextCall i = some op) :
    ∃ next, s.threads[i]? = some (.call op next) := by
  rw [nextCall] at h
  split at h
  · rename_i op' next hp
    cases h
    exact ⟨next, hp⟩
  · cases h

/-- Any number of threads, their calls interleaved in any order. -/
def interleave (program : Q → Program Op Ans R) (exec : (op : Op) → O → S → Ans op × S) :
    Machine (Threads Op Ans R S) (ThreadMove Q O) where
  step s
    | .start q => some { s with threads := s.threads ++ [program q] }
    | .step i o =>
      match s.threads[i]? with
      | some (.call op next) =>
        some { state := (exec op o s.state).2, threads := s.threads.set i (next (exec op o s.state).1) }
      | _ => none

variable {program : Q → Program Op Ans R} {exec : (op : Op) → O → S → Ans op × S} {s s' : Threads Op Ans R S}

theorem step_cases {a : ThreadMove Q O} (h : (interleave program exec).step s a = some s') :
    (∃ q, a = .start q ∧ s' = { s with threads := s.threads ++ [program q] }) ∨
    ∃ i o op next, a = .step i o ∧ s.callOf a = some op ∧ s.threads[i]? = some (.call op next) ∧
      s' = { state := (exec op o s.state).2, threads := s.threads.set i (next (exec op o s.state).1) } := by
  cases a with
  | start q =>
    cases h
    exact Or.inl ⟨q, rfl, rfl⟩
  | step i o =>
    simp only [interleave] at h
    split at h
    · rename_i op next ht
      cases h
      exact Or.inr ⟨i, o, op, next, rfl, by simp only [callOf, ht], ht, rfl⟩
    · cases h

/-- Each thread is in a stage of the request that it was started for. The step
lemma of this property, whose stages may change as the run goes on. -/
theorem forall₂_step {Stage Stage' : Q → Program Op Ans R → Prop} {as : List (ThreadMove Q O)} {a : ThreadMove Q O}
    (h : List.Forall₂ Stage (started as) s.threads) (hs : (interleave program exec).step s a = some s')
    (hstart : ∀ q, Stage' q (program q)) (hstay : ∀ q p, Stage q p → Stage' q p)
    (hcall : ∀ q i o op next, a = .step i o → s.threads[i]? = some (.call op next) → Stage q (.call op next) →
      Stage' q (next (exec op o s.state).1)) :
    List.Forall₂ Stage' (started (as ++ [a])) s'.threads := by
  have h' : List.Forall₂ Stage' (started as) s.threads := h.imp hstay
  rw [started, List.filterMap_append]
  obtain ⟨q, rfl, rfl⟩ | ⟨i, o, op, next, rfl, -, ht, rfl⟩ := step_cases hs
  · exact List.rel_append h' (.cons (hstart q) .nil)
  · rw [List.filterMap_cons_none rfl, List.filterMap_nil, List.append_nil]
    obtain ⟨hlen, hat⟩ := List.forall₂_iff_get.mp h
    rw [List.forall₂_iff_get]
    refine ⟨by rw [List.length_set]; exact hlen, fun j h₁ h₂ => ?_⟩
    rw [List.length_set] at h₂
    simp only [List.get_eq_getElem, List.getElem_set]
    split
    · rename_i hij
      subst hij
      obtain ⟨hi, he⟩ := List.getElem?_eq_some_iff.mp ht
      have hq := hat i h₁ h₂
      rw [List.get_eq_getElem, List.get_eq_getElem, he] at hq
      exact hcall _ i o op next rfl ht hq
    · exact hstay _ _ (hat j h₁ h₂)

/-- What a new thread satisfies and every call keeps holds of all threads. -/
theorem forall₂_run {Stage : Q → Program Op Ans R → Prop} (hstart : ∀ q, Stage q (program q))
    (hcall : ∀ q op next a, Stage q (.call op next) → Stage q (next a)) {s₀ : Threads Op Ans R S}
    (h₀ : s₀.threads = []) {as : List (ThreadMove Q O)} (hr : (interleave program exec).run s₀ as = some s) :
    List.Forall₂ Stage (started as) s.threads := by
  refine Machine.run_induction (P := fun as s => List.Forall₂ Stage (started as) s.threads) ?_ ?_
    (Machine.meets_true s₀ as) hr
  · rw [h₀]
    exact .nil
  · intro as s a s' h _ hs
    exact forall₂_step h hs hstart (fun _ _ => id) fun q i o op next _ _ hq => hcall q op next _ hq

theorem stage_of_forall₂ {Stage : Q → Program Op Ans R → Prop} {qs : List Q} {ps : List (Program Op Ans R)}
    (h : List.Forall₂ Stage qs ps) {i : Nat} {q : Q} {p : Program Op Ans R} (hq : qs[i]? = some q)
    (hp : ps[i]? = some p) : Stage q p := by
  obtain ⟨h₁, rfl⟩ := List.getElem?_eq_some_iff.mp hq
  obtain ⟨h₂, rfl⟩ := List.getElem?_eq_some_iff.mp hp
  exact (List.forall₂_iff_get.mp h).2 i h₁ h₂

/-! Entries that the threads make one after the other, each for a reason. -/

/-- A reason has its entry, or a thread still owes it, and no thread owes an
entry without a reason. -/
structure Settled (owes : Program Op Ans R → Op → Prop) (Reason Entered Complete : Op → S → Prop)
    (s : Threads Op Ans R S) : Prop where
  due : ∀ x, Reason x s.state → Entered x s.state ∨ ∃ p ∈ s.threads, owes p x
  reason : ∀ x, Complete x s.state → Reason x s.state
  owed : ∀ p ∈ s.threads, ∀ x, owes p x → Reason x s.state

structure Settles (owes : Program Op Ans R → Op → Prop) (Reason Entered Complete : Op → S → Prop)
    (p p' : Program Op Ans R) (d d' : S) : Prop where
  reason : ∀ x, Reason x d → Reason x d'
  fresh : ∀ x, Reason x d' → Reason x d ∨ owes p' x
  entered : ∀ x, Entered x d → Entered x d'
  complete : ∀ x, Complete x d' → Complete x d ∨ Reason x d'
  pays : ∀ x, owes p x → Entered x d' ∨ owes p' x
  owed : ∀ x, owes p' x → Reason x d'

variable {owes : Program Op Ans R → Op → Prop} {Reason Entered Complete : Op → S → Prop}

theorem Settled.step {a : ThreadMove Q O} (h : Settled owes Reason Entered Complete s)
    (hs : (interleave program exec).step s a = some s') (hstart : ∀ q x, ¬ owes (program q) x)
    (hcall : ∀ i o op next, a = .step i o → s.callOf a = some op → .call op next ∈ s.threads →
      Settles owes Reason Entered Complete (.call op next) (next (exec op o s.state).1) s.state (exec op o s.state).2) :
    Settled owes Reason Entered Complete s' := by
  obtain ⟨q, rfl, rfl⟩ | ⟨i, o, op, next, ha, hc, ht, rfl⟩ := step_cases hs
  · refine ⟨fun x hx => ?_, h.reason, fun p hp x hx => ?_⟩
    · obtain he | ⟨p, hp, hx⟩ := h.due x hx
      · exact Or.inl he
      · exact Or.inr ⟨p, List.mem_append_left _ hp, hx⟩
    · obtain hp | hp := List.mem_append.mp hp
      · exact h.owed p hp x hx
      · rw [List.mem_singleton.mp hp] at hx
        exact absurd hx (hstart q x)
  · have hd := hcall i o op next ha hc (List.mem_of_getElem? ht)
    have hnew : next (exec op o s.state).1 ∈ s.threads.set i (next (exec op o s.state).1) :=
      List.mem_set (List.getElem?_eq_some_iff.mp ht).1 _
    refine ⟨fun x hx => ?_, fun x hx => ?_, fun p hp x hx => ?_⟩
    · obtain hx | hx := hd.fresh x hx
      · obtain he | ⟨p, hp, hx⟩ := h.due x hx
        · exact Or.inl (hd.entered x he)
        · obtain rfl | hp := mem_set_of_mem ht hp
          · exact (hd.pays x hx).imp_right fun hx => ⟨_, hnew, hx⟩
          · exact Or.inr ⟨p, hp, hx⟩
      · exact Or.inr ⟨_, hnew, hx⟩
    · exact (hd.complete x hx).elim (fun hx => hd.reason x (h.reason x hx)) id
    · obtain hp | rfl := List.mem_or_eq_of_mem_set hp
      · exact hd.reason x (h.owed p hp x hx)
      · exact hd.owed x hx

/-- When no thread is running, every reason has its entry. -/
theorem Settled.idle (h : Settled owes Reason Entered Complete s) (hi : s.Idle) (hret : ∀ r x, ¬ owes (.ret r) x) (x : Op)
    (hx : Reason x s.state) : Entered x s.state := by
  refine (h.due x hx).resolve_right ?_
  rintro ⟨p, hp, hx⟩
  obtain ⟨r, rfl⟩ := hi p hp
  exact hret r x hx

end Threads

end BridgeIM.Lib
