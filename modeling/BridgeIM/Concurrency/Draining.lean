import BridgeIM.Concurrency.Condition

namespace BridgeIM.Concurrency.Draining

open Lib ThreadPool Condition

variable {α : Type} {c : Config} {s s' : Shared α} {a : Condition.Move α}

/-- A step of a worker or of a call that is under way. -/
def Own : Condition.Move α → Prop
  | .wake _ | .complete _ | .notify .. | .join _ => True
  | _ => False

/-- Such a step, or a wakeup that nobody has caused, and no new call. -/
def Internal : Condition.Move α → Prop
  | .wake _ | .complete _ | .notify .. | .join _ | .spurious _ => True
  | _ => False

instance : ∀ a : Condition.Move α, Decidable (Internal a)
  | .wake _ | .complete _ | .notify .. | .join _ | .spurious _ => isTrue trivial
  | .emplace | .abandon | .enqueue _ | .shutdown _ => isFalse id

def toDo : Worker α → Nat
  | .waiting => 1
  | .running _ => 2
  | .exited => 0

def toReturn (n : Nat) : Caller → Nat
  | .notifyOne => 1
  | .notifyAll => n + 2
  | .join i => n - i + 1
  | .enqueued | .joined | .returned | .thrown => 0

def rank (s : Shared α) : Nat :=
  2 * s.pool.tasks.length + total toDo s.pool.workers + total (toReturn s.pool.workers.length) s.callers + s.blocked.length

theorem length_callers (ha : Internal a) (h : Condition.step c s a = some s') : s'.callers.length = s.callers.length := by
  cases a with
  | wake i =>
    change s.wake i = some s' at h
    unfold Shared.wake at h
    split at h
    · cases h
    split at h
    · cases h
      rfl
    · cases h
      rfl
    · cases h
  | complete i =>
    obtain ⟨pool, _, rfl⟩ := Option.map_eq_some_iff.mp h
    rfl
  | notify k i =>
    change s.notify k i = some s' at h
    unfold Shared.notify at h
    split at h
    · obtain ⟨_, h⟩ := Option.ite_none_right_eq_some.mp h
      cases h
      exact List.length_set
    · cases h
      exact List.length_set
    · cases h
  | join k =>
    change s.join k = some s' at h
    unfold Shared.join at h
    split at h
    · split at h
      · cases h
        exact List.length_set
      · cases h
      · cases h
        exact List.length_set
    · cases h
  | spurious i =>
    obtain ⟨_, h⟩ := Option.ite_none_right_eq_some.mp h
    cases h
    rfl
  | _ => cases ha

/-- Once the pool has stopped, no worker blocks any more, and every step leaves
less to do. -/
theorem rank_step (hstop : s.pool.stop = true) (ha : Internal a) (h : Condition.step c s a = some s') :
    s'.pool.stop = true ∧ rank s' < rank s := by
  have hl := length_callers ha h
  cases step_does h with
  | answer x _ => simp at hl
  | emplace _ hs | stop hs | enqueue _ hs | block _ _ _ _ hs =>
    rw [hstop] at hs
    cases hs
  | exit i _ hw _ _ =>
    refine ⟨hstop, ?_⟩
    have ht := total_set (f := toDo) hw .exited
    simp only [toDo] at ht
    simp only [rank, List.length_set]
    omega
  | take i task rest _ hw htasks =>
    refine ⟨hstop, ?_⟩
    have ht := total_set (f := toDo) hw (.running task)
    simp only [toDo] at ht
    simp only [rank, List.length_set, htasks, List.length_cons]
    omega
  | complete i task hw =>
    refine ⟨hstop, ?_⟩
    have ht := total_set (f := toDo) hw .waiting
    simp only [toDo] at ht
    simp only [rank, List.length_set]
    omega
  | notifyOne k i hk hi =>
    refine ⟨hstop, ?_⟩
    have ht := total_set (f := toReturn s.pool.workers.length) hk .enqueued
    have hb : (s.blocked.erase i).length ≤ s.blocked.length := (List.erase_sublist).length_le
    simp only [toReturn] at ht
    simp only [rank]
    omega
  | notifyAll k hk =>
    refine ⟨hstop, ?_⟩
    have ht := total_set (f := toReturn s.pool.workers.length) hk (.join 0)
    simp only [toReturn] at ht
    simp only [rank, List.length_nil]
    omega
  | join k i hk hw =>
    refine ⟨hstop, ?_⟩
    have ht := total_set (f := toReturn s.pool.workers.length) hk (.join (i + 1))
    have hlt := (List.getElem?_eq_some_iff.mp hw).1
    simp only [toReturn] at ht
    simp only [rank]
    omega
  | joined k i hk _ =>
    refine ⟨hstop, ?_⟩
    have ht := total_set (f := toReturn s.pool.workers.length) hk .joined
    simp only [toReturn] at ht
    simp only [rank]
    omega
  | spurious i hi =>
    refine ⟨hstop, ?_⟩
    have hb := List.length_erase_of_mem hi
    have hpos := List.length_pos_of_mem hi
    simp only [rank]
    omega

structure Finished (s : Shared α) : Prop where
  workers : ∀ w ∈ s.pool.workers, w = .exited
  callers : ∀ x ∈ s.callers, x = .enqueued ∨ x = .joined ∨ x = .returned ∨ x = .thrown

theorem notify_isSome {k i : Nat} {x : Caller} (hk : s.callers[k]? = some x) (hx : x = .notifyOne ∨ x = .notifyAll)
    (hi : i ∈ s.blocked ∨ s.blocked = []) : (s.notify k i).isSome = true := by
  rw [Shared.notify, hk]
  obtain rfl | rfl := hx
  · dsimp only
    rw [if_pos hi]
    rfl
  · rfl

theorem wake_isSome {i : Nat} (hstop : s.pool.stop = true) (hb : i ∉ s.blocked) (hw : s.pool.workers[i]? = some .waiting) :
    (s.wake i).isSome = true := by
  have hp : (s.pool.wake i).isSome = true := by
    rw [Pool.wake, hw]
    cases s.pool.tasks with
    | nil => simp [hstop]
    | cons task rest => rfl
  obtain ⟨pool, hp⟩ := Option.isSome_iff_exists.mp hp
  rw [Shared.wake, if_neg hb, hp]
  rfl

/-- A stopped pool is not stuck before it has finished. -/
theorem finished_or_step (ha : Awake s) (hstop : s.pool.stop = true) :
    Finished s ∨ ∃ a, Own a ∧ (Condition.step c s a).isSome = true := by
  by_cases hnotify : ∃ x ∈ s.callers, x = .notifyOne ∨ x = .notifyAll
  · obtain ⟨x, hx, hn⟩ := hnotify
    obtain ⟨k, hk⟩ := List.mem_iff_getElem?.mp hx
    obtain ⟨i, hi⟩ : ∃ i, i ∈ s.blocked ∨ s.blocked = [] := by
      cases s.blocked with
      | nil => exact ⟨0, Or.inr rfl⟩
      | cons i l => exact ⟨i, Or.inl List.mem_cons_self⟩
    exact Or.inr ⟨.notify k i, trivial, notify_isSome hk hn hi⟩
  have hb : s.blocked = [] := (ha.woken hstop).resolve_right fun hm => hnotify ⟨_, hm, Or.inr rfl⟩
  by_cases hall : ∀ w ∈ s.pool.workers, w = .exited
  · by_cases hjoin : ∃ i, .join i ∈ s.callers
    · obtain ⟨i, hm⟩ := hjoin
      obtain ⟨k, hk⟩ := List.mem_iff_getElem?.mp hm
      refine Or.inr ⟨.join k, trivial, ?_⟩
      change (s.join k).isSome = true
      rw [Shared.join, hk]
      dsimp only
      cases hw : s.pool.workers[i]? with
      | none => rfl
      | some w => rw [hall w (List.mem_of_getElem? hw)]; rfl
    · refine Or.inl ⟨hall, fun x hx => ?_⟩
      cases x with
      | notifyOne => exact absurd ⟨_, hx, Or.inl rfl⟩ hnotify
      | notifyAll => exact absurd ⟨_, hx, Or.inr rfl⟩ hnotify
      | join i => exact absurd ⟨i, hx⟩ hjoin
      | _ => simp
  · right
    obtain ⟨w, hw, hne⟩ : ∃ w ∈ s.pool.workers, w ≠ .exited := by
      by_contra hno
      exact hall fun w hw => by_contra fun hne => hno ⟨w, hw, hne⟩
    obtain ⟨i, hi⟩ := List.mem_iff_getElem?.mp hw
    cases w with
    | waiting => exact ⟨.wake i, trivial, wake_isSome hstop (by rw [hb]; exact List.not_mem_nil) hi⟩
    | running task =>
      refine ⟨.complete i, trivial, ?_⟩
      change ((s.pool.complete i).map _).isSome = true
      rw [Option.isSome_map, Pool.complete, hi]
      rfl
    | exited => exact absurd rfl hne

/-- The pool has run all tasks that it accepted, started in the order of their
acceptance, and every call has returned. -/
structure Drained (s : Shared α) : Prop extends Finished s where
  completed : (s.pool.completed : Multiset (ThreadPool.Task α)) = s.pool.accepted
  order : s.pool.started = s.pool.accepted

theorem drained_of_finished (h : Finished s) (hc : Conserved c s.pool) : Drained s where
  toFinished := h
  completed := hc.drained h.workers
  order := by
    have hr : s.pool.running = 0 := total_eq_zero fun x hx => by rw [h.workers x hx, task_exited]
    have hp := hc.places
    rw [hr, hc.drained h.workers, add_zero, add_eq_right, Multiset.coe_eq_zero] at hp
    rw [← hc.order, hp, List.append_nil]

theorem awake_run {p : Pool α} (h₀ : create c = .ok p) {as : List (Condition.Move α)}
    (hr : (shared α c).run { pool := p } as = some s) : Awake s := by
  obtain ⟨_, _, rfl⟩ := create_eq_ok h₀
  have h : Awake ({} : Shared α) := ⟨List.nodup_nil, fun _ hj => absurd hj List.not_mem_nil, fun hb => absurd rfl hb,
    fun _ => Or.inl rfl⟩
  exact Machine.run_invariant h (fun _ _ _ hi _ hs => awake_step hi (step_does hs)) (Machine.meets_true _ as) hr

/-- A pool that has stopped takes at most as many steps as its rank says, in
whatever order, and is not stuck, without any spurious wakeup, before it has run
all accepted tasks and every call of `enqueue` and `shutdown` has come to its end. -/
theorem pool_drains (c : Config) (p : Pool α) (h₀ : create c = .ok p) (as : List (Condition.Move α)) (s : Shared α)
    (hr : (shared α c).run { pool := p } as = some s) (hstop : s.pool.stop = true) (bs : List (Condition.Move α))
    (hi : ∀ b ∈ bs, Internal b) (t : Shared α) (ht : (shared α c).run s bs = some t) :
    bs.length + rank t ≤ rank s ∧ (Drained t ∨ ∃ b, Own b ∧ (Condition.step c t b).isSome = true) := by
  have hm : (shared α c).Meets (fun s b => s.pool.stop = true ∧ Internal b) s bs :=
    Machine.Meets.invariant (fun s b t hs hb ht => (rank_step hs hb ht).1) hstop (Machine.meets_of_forall s hi)
  have hstop' : t.pool.stop = true :=
    Machine.run_invariant (I := fun s => s.pool.stop = true) hstop (fun s b t _ hb ht => (rank_step hb.1 hb.2 ht).1) hm ht
  refine ⟨Machine.length_add_rank_le (fun s b t hb ht => (rank_step hb.1 hb.2 ht).2) hm ht, ?_⟩
  have hrun : (shared α c).run { pool := p } (as ++ bs) = some t := by rw [Machine.run_append, hr, Option.bind_some, ht]
  obtain hf | hs := finished_or_step (c := c) (awake_run h₀ hrun) hstop'
  · exact Or.inl (drained_of_finished hf (conserved_of_run h₀ hrun))
  · exact Or.inr hs

def ending : List (Condition.Move Char) := [.notify 0 0, .complete 0, .wake 0, .notify 1 0, .join 1, .join 1]

def ended : Shared Char where
  pool := { workers := [.exited], stop := true, accepted := [(0, 'a')], started := [(0, 'a')], completed := [(0, 'a')] }
  callers := [.enqueued, .joined, .returned]

theorem pool_drains_ending : ending.length + rank ended ≤ rank early ∧
    (Drained ended ∨ ∃ b, Own b ∧ (Condition.step ⟨1, 1⟩ ended b).isSome = true) :=
  pool_drains ⟨1, 1⟩ {} rfl twice early rfl rfl ending (by simp [ending, Internal]) ended rfl

end BridgeIM.Concurrency.Draining
