import BridgeIM.Lib.Program

namespace BridgeIM.Lib

variable {Op : Type} {Ans : Op → Type} {R O S Q : Type}

namespace Program

/-- Every way through the program makes a call that meets the condition. -/
def Surely (P : Op → Prop) : Program Op Ans R → Prop
  | ret _ => False
  | call op next => P op ∨ ∀ a, (next a).Surely P

theorem surely_bind {P : Op → Prop} (p : Program Op Ans R) {f : R → Program Op Ans Q} (hf : ∀ r, (f r).Surely P) :
    (p.bind f).Surely P := by
  induction p with
  | ret r => exact hf r
  | call op next ih => exact Or.inr ih

end Program

namespace Threads

def made (s : Threads Op Ans R S) : ThreadMove Q O → Option (Nat × Op)
  | .start _ => none
  | .step i _ => (s.nextCall i).map fun op => (i, op)

/-- The calls of a run, each with the thread that makes it. -/
def calls (program : Q → Program Op Ans R) (exec : (op : Op) → O → S → Ans op × S) :
    Threads Op Ans R S → List (ThreadMove Q O) → List (Nat × Op) :=
  (interleave program exec).trace made

variable {program : Q → Program Op Ans R} {exec : (op : Op) → O → S → Ans op × S} {s₀ s : Threads Op Ans R S}
  {as : List (ThreadMove Q O)}

theorem started_start (as : List (ThreadMove Q O)) (q : Q) : started (as ++ [.start q]) = started as ++ [q] := by
  rw [started, List.filterMap_append, started]
  rfl

theorem started_step (as : List (ThreadMove Q O)) (i : Nat) (o : O) : started (as ++ [.step i o]) = started as := by
  rw [started, List.filterMap_append, List.filterMap_cons_none rfl, List.filterMap_nil, List.append_nil, started]

theorem started_mono {bs : List (ThreadMove Q O)} (hb : bs <+: as) {i : Nat} {q : Q} (hq : (started bs)[i]? = some q) :
    (started as)[i]? = some q := by
  obtain ⟨cs, hc⟩ := hb.filterMap ThreadMove.request
  rw [started, ← hc]
  exact (List.getElem?_append_left (List.getElem?_eq_some_iff.mp hq).1).trans hq

theorem calls_concat (hr : (interleave program exec).run s₀ as = some s) (a : ThreadMove Q O) :
    calls program exec s₀ (as ++ [a]) = calls program exec s₀ as ++ (s.made a).toList := Machine.trace_concat hr a

theorem made_step {i : Nat} {op : Op} {next : Ans op → Program Op Ans R} (h : s.threads[i]? = some (.call op next)) (o : O) :
    s.made (.step i o : ThreadMove Q O) = some (i, op) := by
  have hc : s.nextCall i = some op := by rw [nextCall, h]
  rw [made, hc, Option.map_some]

theorem length_threads (h₀ : s₀.threads = []) (hr : (interleave program exec).run s₀ as = some s) :
    (started as).length = s.threads.length := by
  have h : List.Forall₂ (fun _ _ => True) (started as) s.threads :=
    forall₂_run (fun _ => trivial) (fun _ _ _ _ _ => trivial) h₀ hr
  exact h.length_eq

/-- What holds of a thread and its request when it starts, and is kept by its own
calls and by all other moves. -/
theorem each_run {P : List (ThreadMove Q O) → Nat → Q → Program Op Ans R → Prop} (h₀ : s₀.threads = [])
    (hstart : ∀ as s q, (interleave program exec).run s₀ as = some s →
      P (as ++ [.start q]) s.threads.length q (program q))
    (hother : ∀ as s a i q p, (interleave program exec).run s₀ as = some s → P as i q p →
      (∀ o, a ≠ .step i o) → P (as ++ [a]) i q p)
    (hown : ∀ as s i o q op next, (interleave program exec).run s₀ as = some s → s.threads[i]? = some (.call op next) →
      P as i q (.call op next) → P (as ++ [.step i o]) i q (next (exec op o s.state).1))
    (hr : (interleave program exec).run s₀ as = some s) :
    ∀ i q, (started as)[i]? = some q → ∃ p, s.threads[i]? = some p ∧ P as i q p := by
  refine Machine.reached_induction (P := fun as s => ∀ i q, (started as)[i]? = some q → ∃ p, s.threads[i]? = some p ∧
    P as i q p) (fun i q hq => absurd hq (by simp [started])) ?_ hr
  intro as s a s' hr h hs i q hq
  obtain ⟨q', rfl, rfl⟩ | ⟨j, o, op, next, rfl, -, ht, rfl⟩ := step_cases hs
  · rw [started_start] at hq
    have hlen := length_threads h₀ hr
    obtain hlt | hge := Nat.lt_or_ge i (started as).length
    · rw [List.getElem?_append_left hlt] at hq
      obtain ⟨p, hi, hp⟩ := h i q hq
      refine ⟨p, by rwa [List.getElem?_append_left (hlen ▸ hlt)], hother as s _ i q p hr hp fun o he => ?_⟩
      cases he
    · rw [List.getElem?_append_right hge] at hq
      obtain ⟨hi, he⟩ := List.getElem?_eq_some_iff.mp hq
      rw [List.length_singleton] at hi
      have hq : q' = q := by simpa [Nat.lt_one_iff.mp hi] using he
      subst hq
      have hi : i = s.threads.length := by omega
      subst hi
      exact ⟨program q', List.getElem?_concat_length, hstart as s q' hr⟩
  · rw [started_step] at hq
    obtain ⟨p, hi, hp⟩ := h i q hq
    by_cases hij : j = i
    · subst hij
      cases hi.symm.trans ht
      exact ⟨_, List.getElem?_set_self (List.getElem?_eq_some_iff.mp ht).1, hown as s j o q op next hr ht hp⟩
    · refine ⟨p, ?_, hother as s _ i q p hr hp fun o he => hij (ThreadMove.step.inj he).1⟩
      rw [List.getElem?_set_ne hij, hi]

/-- A thread has made such a call, or it will. -/
def Pays (P : Op → Prop) (i : Nat) (cs : List (Nat × Op)) (s : Threads Op Ans R S) : Prop :=
  (∃ op, P op ∧ (i, op) ∈ cs) ∨ ∃ p, s.threads[i]? = some p ∧ p.Surely P

theorem surely_run {P : Op → Prop} (h₀ : s₀.threads = []) (hr : (interleave program exec).run s₀ as = some s) {i : Nat}
    {q : Q} (hq : (started as)[i]? = some q) (hp : (program q).Surely P) : Pays P i (calls program exec s₀ as) s := by
  have hstay {as : List (ThreadMove Q O)} {s : Threads Op Ans R S} {i : Nat} {a : ThreadMove Q O}
      (hr : (interleave program exec).run s₀ as = some s) (h : ∃ op, P op ∧ (i, op) ∈ calls program exec s₀ as) :
      ∃ op, P op ∧ (i, op) ∈ calls program exec s₀ (as ++ [a]) := by
    obtain ⟨op, hop, hc⟩ := h
    rw [calls_concat hr]
    exact ⟨op, hop, List.mem_append_left _ hc⟩
  have hall := each_run (P := fun as i q p => (program q).Surely P →
    (∃ op, P op ∧ (i, op) ∈ calls program exec s₀ as) ∨ p.Surely P) h₀ (fun as s q hr hp => Or.inr hp)
    (fun as s a i q p hr h _ hp => (h hp).imp_left (hstay hr)) ?_ hr
  · obtain ⟨p, hi, h⟩ := hall i q hq
    exact (h hp).imp_right fun h => ⟨p, hi, h⟩
  · intro as s i o q op next hr ht h hp
    obtain hc | hop | hnext := h hp
    · exact Or.inl (hstay hr hc)
    · rw [calls_concat hr, made_step ht]
      exact Or.inl ⟨op, hop, List.mem_append_right _ List.mem_cons_self⟩
    · exact Or.inr (hnext _)

/-- A thread comes to its end by its own calls. -/
theorem runs_to_end {i : Nat} {p : Program Op Ans R} (h : s.threads[i]? = some p) (o : O) :
    ∃ n t r, (interleave program exec).run s (List.replicate n (.step i o)) = some t ∧ t.threads[i]? = some (.ret r) := by
  induction p generalizing s with
  | ret r => exact ⟨0, s, r, rfl, h⟩
  | call op next ih =>
    have hs : (interleave program exec).step s (.step i o) =
        some ⟨(exec op o s.state).2, s.threads.set i (next (exec op o s.state).1)⟩ := by
      simp only [interleave, h]
    obtain ⟨n, t, r, hr, ht⟩ := ih (exec op o s.state).1
      (s := ⟨(exec op o s.state).2, s.threads.set i (next (exec op o s.state).1)⟩)
      (List.getElem?_set_self (List.getElem?_eq_some_iff.mp h).1)
    exact ⟨n + 1, t, r, Machine.run_cons_eq_some.mpr ⟨_, hs, hr⟩, ht⟩

end Threads

end BridgeIM.Lib
