import BridgeIM.Lib.Calls

namespace BridgeIM.Lib

variable {Op : Type} {Ans : Op → Type} {R O S Q X : Type}

namespace Program

variable {needs : Op → X → Prop} {tells : (op : Op) → Ans op → X → Prop} {K K' : X → Prop}

/-- Every call needs only what is known when it is made: what was known before,
and what the answers to the calls so far have told. -/
def Informed (needs : Op → X → Prop) (tells : (op : Op) → Ans op → X → Prop) : Program Op Ans R → (X → Prop) → Prop
  | ret _, _ => True
  | call op next, K => (∀ x, needs op x → K x) ∧ ∀ a, (next a).Informed needs tells fun x => K x ∨ tells op a x

theorem Informed.mono {p : Program Op Ans R} (hp : p.Informed needs tells K) (h : ∀ x, K x → K' x) :
    p.Informed needs tells K' := by
  induction p generalizing K K' with
  | ret r => trivial
  | call op next ih => exact ⟨fun x hx => h x (hp.1 x hx), fun a => ih a (hp.2 a) fun x hx => hx.imp_left (h x)⟩

theorem Informed.bind {p : Program Op Ans R} (hp : p.Informed needs tells K) {f : R → Program Op Ans Q}
    (hf : ∀ r, (f r).Informed needs tells K) : (p.bind f).Informed needs tells K := by
  induction p generalizing K with
  | ret r => exact hf r
  | call op next ih => exact ⟨hp.1, fun a => ih a (hp.2 a) fun r => (hf r).mono fun x => Or.inl⟩

end Program

namespace Threads

variable {program : Q → Program Op Ans R} {exec : (op : Op) → O → S → Ans op × S} {s₀ s : Threads Op Ans R S}
  {as : List (ThreadMove Q O)} {needs : Op → X → Prop} {tells : Q → (op : Op) → Ans op → X → Prop} {K : Q → X → Prop}

def answered (exec : (op : Op) → O → S → Ans op × S) (s : Threads Op Ans R S) :
    ThreadMove Q O → Option (Nat × (op : Op) × Ans op)
  | .start _ => none
  | .step i o => (s.nextCall i).map fun op => (i, ⟨op, (exec op o s.state).1⟩)

def answers (program : Q → Program Op Ans R) (exec : (op : Op) → O → S → Ans op × S) :
    Threads Op Ans R S → List (ThreadMove Q O) → List (Nat × (op : Op) × Ans op) :=
  (interleave program exec).trace (answered exec)

def Told (tells : (op : Op) → Ans op → X → Prop) (i : Nat) (es : List (Nat × (op : Op) × Ans op)) (x : X) : Prop :=
  ∃ e ∈ es, e.1 = i ∧ tells e.2.1 e.2.2 x

theorem Told.append {tells : (op : Op) → Ans op → X → Prop} {i : Nat} {es : List (Nat × (op : Op) × Ans op)} {x : X}
    (h : Told tells i es x) (es' : List (Nat × (op : Op) × Ans op)) : Told tells i (es ++ es') x := by
  obtain ⟨e, he, hi, hx⟩ := h
  exact ⟨e, List.mem_append_left es' he, hi, hx⟩

theorem answered_step {i : Nat} {op : Op} {next : Ans op → Program Op Ans R} (h : s.threads[i]? = some (.call op next))
    (o : O) : s.answered exec (.step i o : ThreadMove Q O) = some (i, ⟨op, (exec op o s.state).1⟩) := by
  have hc : s.nextCall i = some op := by rw [nextCall, h]
  rw [answered, hc, Option.map_some]

theorem mem_answers {i : Nat} {op : Op} {next : Ans op → Program Op Ans R}
    (hr : (interleave program exec).run s₀ as = some s) (h : s.threads[i]? = some (.call op next)) (o : O) :
    (i, ⟨op, (exec op o s.state).1⟩) ∈ answers program exec s₀ (as ++ [.step i o]) := by
  rw [answers, Machine.trace_concat hr, answered_step h]
  exact List.mem_append_right _ List.mem_cons_self

theorem map_answers (s : Threads Op Ans R S) (as : List (ThreadMove Q O)) :
    (answers program exec s as).map (fun e => (e.1, e.2.1)) = calls program exec s as := by
  have hmade : (fun (s : Threads Op Ans R S) (a : ThreadMove Q O) => (s.answered exec a).map fun e => (e.1, e.2.1)) = made := by
    funext s a
    cases a with
    | start q => rfl
    | step i o => exact Option.map_map _ _ _
  rw [answers, Machine.map_trace, hmade, calls]

theorem answer_of_call {i : Nat} {op : Op} (h : (i, op) ∈ calls program exec s₀ as) :
    ∃ a, (i, ⟨op, a⟩) ∈ answers program exec s₀ as := by
  rw [← map_answers] at h
  obtain ⟨⟨j, op, a⟩, he, h⟩ := List.mem_map.mp h
  cases h
  exact ⟨a, he⟩

theorem informed_run (h₀ : s₀.threads = []) (hp : ∀ q, (program q).Informed needs (tells q) (K q))
    (hr : (interleave program exec).run s₀ as = some s) {i : Nat} {q : Q} (hq : (started as)[i]? = some q) :
    ∃ p : Program Op Ans R, s.threads[i]? = some p ∧
      p.Informed needs (tells q) fun x => K q x ∨ Told (tells q) i (answers program exec s₀ as) x := by
  refine each_run (P := fun as i q p =>
    p.Informed needs (tells q) fun x => K q x ∨ Told (tells q) i (answers program exec s₀ as) x)
    h₀ ?_ ?_ ?_ hr i q hq
  · exact fun as s q hr => (hp q).mono fun x => Or.inl
  · intro as s a i q p hr hk _
    rw [answers, Machine.trace_concat hr, ← answers]
    exact hk.mono fun x hx => hx.imp_right fun hx => hx.append _
  · intro as s i o q op next hr ht hk
    rw [answers, Machine.trace_concat hr, ← answers, answered_step ht, Option.toList_some]
    refine (hk.2 (exec op o s.state).1).mono fun x hx => ?_
    obtain (hx | hx) | hx := hx
    · exact Or.inl hx
    · exact Or.inr (hx.append _)
    · exact Or.inr ⟨_, List.mem_append_right _ List.mem_cons_self, rfl, hx⟩

/-- Whatever the other threads do, a thread's next call needs only what the
request gave it and what the answers to its own calls have told. -/
theorem needs_known (h₀ : s₀.threads = []) (hp : ∀ q, (program q).Informed needs (tells q) (K q))
    (hr : (interleave program exec).run s₀ as = some s) {i : Nat} {q : Q} (hq : (started as)[i]? = some q) {op : Op}
    (hc : s.nextCall i = some op) {x : X} (hx : needs op x) :
    K q x ∨ Told (tells q) i (answers program exec s₀ as) x := by
  obtain ⟨p, hi, hk⟩ := informed_run h₀ hp hr hq
  obtain ⟨next, ht⟩ := nextCall_eq_some hc
  cases hi.symm.trans ht
  exact hk.1 x hx

theorem answer_made (h₀ : s₀.threads = []) (hr : (interleave program exec).run s₀ as = some s)
    {e : Nat × (op : Op) × Ans op} (he : e ∈ answers program exec s₀ as) :
    ∃ bs t o q, bs <+: as ∧ (interleave program exec).run s₀ bs = some t ∧ (started bs)[e.1]? = some q ∧
      t.nextCall e.1 = some e.2.1 ∧ e.2.2 = (exec e.2.1 o t.state).1 := by
  refine Machine.reached_induction (P := fun as _ => ∀ e ∈ answers program exec s₀ as, ∃ bs t o q, bs <+: as ∧
    (interleave program exec).run s₀ bs = some t ∧ (started bs)[e.1]? = some q ∧ t.nextCall e.1 = some e.2.1 ∧
      e.2.2 = (exec e.2.1 o t.state).1) (fun e he => absurd he List.not_mem_nil) ?_ hr e he
  intro as s a s' hr h hs e he
  rw [answers, Machine.trace_concat hr, ← answers, List.mem_append] at he
  obtain he | he := he
  · obtain ⟨bs, t, o, q, hb, ht⟩ := h e he
    exact ⟨bs, t, o, q, hb.trans (List.prefix_append as [a]), ht⟩
  · cases a with
    | start q => cases he
    | step i o =>
      obtain ⟨op, hc, rfl⟩ := Option.map_eq_some_iff.mp (Option.mem_toList.mp he)
      obtain ⟨next, ht⟩ := nextCall_eq_some hc
      have hi : i < (started as).length := by
        rw [length_threads h₀ hr]
        exact (List.getElem?_eq_some_iff.mp ht).1
      exact ⟨as, s, o, _, List.prefix_append as _, hr, List.getElem?_eq_getElem hi, hc, rfl⟩

theorem answers_mono {bs : List (ThreadMove Q O)} {t : Threads Op Ans R S}
    (hr : (interleave program exec).run s₀ bs = some t) (hb : bs <+: as) :
    answers program exec s₀ bs <+: answers program exec s₀ as := by
  obtain ⟨cs, rfl⟩ := hb
  rw [answers, Machine.trace_append hr]
  exact List.prefix_append _ _

/-- What holds after a run and did not hold before it, a call of the run has brought about. -/
theorem answer_of_state {F : S → Prop} {G : (op : Op) → Ans op → Prop} (h₀ : ¬ F s₀.state)
    (hstep : ∀ w op o, F (exec op o w).2 → F w ∨ G op (exec op o w).1)
    (hr : (interleave program exec).run s₀ as = some s) (h : F s.state) :
    ∃ i op a, (i, ⟨op, a⟩) ∈ answers program exec s₀ as ∧ G op a := by
  refine Machine.reached_induction (P := fun as s => F s.state →
    ∃ i op a, (i, ⟨op, a⟩) ∈ answers program exec s₀ as ∧ G op a) (fun h => absurd h h₀) ?_ hr h
  intro as s a s' hr ih hs h
  have hold (h : F s.state) : ∃ i op b, (i, ⟨op, b⟩) ∈ answers program exec s₀ (as ++ [a]) ∧ G op b := by
    obtain ⟨i, op, b, hb, hg⟩ := ih h
    exact ⟨i, op, b, (answers_mono hr (List.prefix_append as [a])).subset hb, hg⟩
  obtain ⟨q, rfl, rfl⟩ | ⟨i, o, op, next, rfl, -, ht, rfl⟩ := step_cases hs
  · exact hold h
  · obtain h | hg := hstep s.state op o h
    · exact hold h
    · exact ⟨i, op, _, mem_answers hr ht o, hg⟩

/-- A call that has been made needs only what its thread knows. -/
theorem known_of_answer (h₀ : s₀.threads = []) (hp : ∀ q, (program q).Informed needs (tells q) (K q))
    (hr : (interleave program exec).run s₀ as = some s) {e : Nat × (op : Op) × Ans op}
    (he : e ∈ answers program exec s₀ as) {q : Q} (hq : (started as)[e.1]? = some q) {x : X} (hx : needs e.2.1 x) :
    K q x ∨ Told (tells q) e.1 (answers program exec s₀ as) x := by
  obtain ⟨bs, t, o, q', hb, ht, hq', hc, -⟩ := answer_made h₀ hr he
  cases hq.symm.trans (started_mono hb hq')
  refine (needs_known h₀ hp ht hq' hc hx).imp_right fun hx => ?_
  obtain ⟨e, he, hi, hx⟩ := hx
  exact ⟨e, (answers_mono ht hb).subset he, hi, hx⟩

end Threads

end BridgeIM.Lib
