import BridgeIM.Lib.Calls

namespace BridgeIM.Lib

variable {Op : Type} {Ans : Op → Type} {R O S Q B : Type}

/-- A call with its outcome and the state in which it was made. -/
structure Event (Op O S : Type) where
  op : Op
  outcome : O
  state : S

namespace Program

variable {exec : (op : Op) → O → S → Ans op × S}

/-- The program has made these calls, one after the other, and this is left of it. -/
def Path (exec : (op : Op) → O → S → Ans op × S) : List (Event Op O S) → Program Op Ans R → Program Op Ans R → Prop
  | [], p, p' => p = p'
  | e :: es, p, p' => ∃ next, p = .call e.op next ∧ Path exec es (next (exec e.op e.outcome e.state).1) p'

theorem path_concat {es : List (Event Op O S)} {p : Program Op Ans R} {op : Op} {next : Ans op → Program Op Ans R}
    (h : Path exec es p (.call op next)) (o : O) (s : S) :
    Path exec (es ++ [⟨op, o, s⟩]) p (next (exec op o s).1) := by
  induction es generalizing p with
  | nil => exact ⟨next, h, rfl⟩
  | cons e es ih =>
    obtain ⟨f, hp, h⟩ := h
    exact ⟨f, hp, ih h⟩

theorem path_ret {es : List (Event Op O S)} {r : R} {p : Program Op Ans R} (h : Path exec es (.ret r) p) : es = [] := by
  cases es with
  | nil => rfl
  | cons e es =>
    obtain ⟨next, hp, -⟩ := h
    cases hp

theorem path_call {es : List (Event Op O S)} {op : Op} {next : Ans op → Program Op Ans R} {r : R}
    (h : Path exec es (.call op next) (.ret r)) :
    ∃ o s es', es = ⟨op, o, s⟩ :: es' ∧ Path exec es' (next (exec op o s).1) (.ret r) := by
  cases es with
  | nil => cases h
  | cons e es =>
    obtain ⟨op', o, s⟩ := e
    obtain ⟨f, hp, h⟩ := h
    cases hp
    exact ⟨o, s, es, rfl, h⟩

theorem path_bind {es : List (Event Op O S)} {p : Program Op Ans R} {f : R → Program Op Ans Q} {r : Q}
    (h : Path exec es (p.bind f) (.ret r)) :
    ∃ es₁ es₂ r', es = es₁ ++ es₂ ∧ Path exec es₁ p (.ret r') ∧ Path exec es₂ (f r') (.ret r) := by
  induction p generalizing es with
  | ret r' => exact ⟨[], es, r', rfl, rfl, h⟩
  | call op next ih =>
    obtain ⟨o, s, es', rfl, hn⟩ := path_call h
    obtain ⟨es₁, es₂, r', rfl, h₁, h₂⟩ := ih _ hn
    exact ⟨⟨op, o, s⟩ :: es₁, es₂, r', rfl, ⟨next, rfl, h₁⟩, h₂⟩

end Program

namespace Threads

variable {program : Q → Program Op Ans R} {exec : (op : Op) → O → S → Ans op × S} {s₀ s : Threads Op Ans R S}
  {as : List (ThreadMove Q O)}

def event (s : Threads Op Ans R S) : ThreadMove Q O → Option (Nat × Event Op O S)
  | .start _ => none
  | .step i o => (s.nextCall i).map fun op => (i, ⟨op, o, s.state⟩)

def events (program : Q → Program Op Ans R) (exec : (op : Op) → O → S → Ans op × S) (s₀ : Threads Op Ans R S)
    (as : List (ThreadMove Q O)) (i : Nat) : List (Event Op O S) :=
  ((interleave program exec).trace event s₀ as).filterMap fun e => if e.1 = i then some e.2 else none

theorem event_of_call {i : Nat} {op : Op} {next : Ans op → Program Op Ans R} (h : s.threads[i]? = some (.call op next)) (o : O) :
    s.event (.step i o : ThreadMove Q O) = some (i, ⟨op, o, s.state⟩) := by
  have hc : s.nextCall i = some op := by rw [nextCall, h]
  rw [event, hc, Option.map_some]

theorem events_own (hr : (interleave program exec).run s₀ as = some s) {i : Nat} {op : Op} {next : Ans op → Program Op Ans R}
    (h : s.threads[i]? = some (.call op next)) (o : O) :
    events program exec s₀ (as ++ [.step i o]) i = events program exec s₀ as i ++ [⟨op, o, s.state⟩] := by
  rw [events, Machine.trace_concat hr, event_of_call h, List.filterMap_append, events]
  simp

theorem events_other (hr : (interleave program exec).run s₀ as = some s) {i : Nat} {a : ThreadMove Q O}
    (ha : ∀ o, a ≠ .step i o) : events program exec s₀ (as ++ [a]) i = events program exec s₀ as i := by
  rw [events, Machine.trace_concat hr, List.filterMap_append, events]
  cases a with
  | start q => simp [event]
  | step j o =>
    have hj : j ≠ i := fun h => ha o (h ▸ rfl)
    rw [event]
    cases s.nextCall j <;> simp [hj]

theorem lt_of_event (hr : (interleave program exec).run s₀ as = some s) :
    ∀ e ∈ (interleave program exec).trace event s₀ as, e.1 < s.threads.length := by
  refine Machine.reached_induction (P := fun as s => ∀ e ∈ (interleave program exec).trace event s₀ as,
    e.1 < s.threads.length) (fun e he => absurd he List.not_mem_nil) ?_ hr
  intro as s a s' hr h hs e he
  rw [Machine.trace_concat hr, List.mem_append] at he
  obtain ⟨q, rfl, rfl⟩ | ⟨i, o, op, next, rfl, -, ht, rfl⟩ := step_cases hs
  · obtain he | he := he
    · have hlt := h e he
      rw [List.length_append]
      omega
    · cases he
  · rw [List.length_set]
    rw [event_of_call ht, Option.toList_some, List.mem_singleton] at he
    obtain he | rfl := he
    · exact h e he
    · exact (List.getElem?_eq_some_iff.mp ht).1

theorem events_new (hr : (interleave program exec).run s₀ as = some s) (q : Q) :
    events program exec s₀ (as ++ [.start q]) s.threads.length = [] := by
  rw [events_other hr (fun o h => by cases h), events, List.filterMap_eq_nil_iff]
  intro e he
  rw [if_neg (Nat.ne_of_lt (lt_of_event hr e he))]

theorem path_run (h₀ : s₀.threads = []) (hr : (interleave program exec).run s₀ as = some s) {i : Nat} {q : Q}
    (hq : (started as)[i]? = some q) :
    ∃ p, s.threads[i]? = some p ∧ Program.Path exec (events program exec s₀ as i) (program q) p := by
  refine each_run (P := fun as i q p => Program.Path exec (events program exec s₀ as i) (program q) p) h₀ ?_ ?_ ?_ hr i q hq
  · intro as s q hr
    rw [events_new hr]
    rfl
  · intro as s a i q p hr h ha
    rw [events_other hr ha]
    exact h
  · intro as s i o q op next hr ht h
    rw [events_own hr ht]
    exact Program.path_concat h o s.state

theorem reached_of_event {i : Nat} {e : Event Op O S} (hr : (interleave program exec).run s₀ as = some s)
    (he : e ∈ events program exec s₀ as i) : ∃ bs t, (interleave program exec).run s₀ bs = some t ∧ t.state = e.state := by
  refine Machine.reached_induction (P := fun as _ => e ∈ events program exec s₀ as i →
    ∃ bs t, (interleave program exec).run s₀ bs = some t ∧ t.state = e.state) (fun he => absurd he List.not_mem_nil) ?_ hr he
  intro as s a s' hr h hs he
  obtain ⟨q, rfl, rfl⟩ | ⟨j, o, op, next, rfl, -, ht, rfl⟩ := step_cases hs
  · rw [events_other hr fun o h => by cases h] at he
    exact h he
  · by_cases hij : j = i
    · subst hij
      rw [events_own hr ht, List.mem_append, List.mem_singleton] at he
      obtain he | rfl := he
      · exact h he
      · exact ⟨as, s, hr, rfl⟩
    · rw [events_other hr fun o h => hij (ThreadMove.step.inj h).1] at he
      exact h he

end Threads

end BridgeIM.Lib
