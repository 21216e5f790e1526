import BridgeIM.Concurrency.ThreadPool
import Mathlib.Data.List.Induction

namespace BridgeIM.Concurrency.Condition

open Lib ThreadPool

/-- What a call of `enqueue` or `shutdown` has to do after its critical section:
the first notifies one worker, the second notifies all and joins them in turn. -/
inductive Caller
  | notifyOne
  | enqueued
  | notifyAll
  | join (i : Nat)
  | joined
  | returned
  | thrown
  deriving DecidableEq

/-- A pool with the workers that are blocked in `condition.wait` and were not
notified, and the calls that were made. -/
structure Shared (α : Type) where
  pool : Pool α := {}
  blocked : List Nat := []
  callers : List Caller := []

variable {α : Type}

namespace Shared

/-- Worker `i` has the lock and looks at its predicate: it leaves the wait with a
task or to exit, or it blocks. -/
def wake (i : Nat) (s : Shared α) : Option (Shared α) :=
  if i ∈ s.blocked then none
  else match s.pool.wake i, s.pool.workers[i]? with
    | some pool, _ => some { s with pool := pool }
    | none, some .waiting => some { s with blocked := i :: s.blocked }
    | none, _ => none

def enqueue (c : Config) (f : α) (s : Shared α) : Shared α :=
  match s.pool.enqueue c f with
  | (.ok _, pool) => { s with pool := pool, callers := s.callers ++ [.notifyOne] }
  | (.error _, pool) => { s with pool := pool, callers := s.callers ++ [.thrown] }

def shutdown (byWorker : Bool) (s : Shared α) : Shared α :=
  match s.pool.shutdown byWorker with
  | (.ok _, pool) =>
    { s with pool := pool, callers := s.callers ++ [if s.pool.stop then .returned else .notifyAll] }
  | (.error _, pool) => { s with pool := pool, callers := s.callers ++ [.thrown] }

/-- Call `k` notifies: `notify_one` wakes the blocked worker `i`, or nobody when
no worker is blocked. -/
def notify (k i : Nat) (s : Shared α) : Option (Shared α) :=
  match s.callers[k]? with
  | some .notifyOne =>
    if i ∈ s.blocked ∨ s.blocked = [] then
      some { s with blocked := s.blocked.erase i, callers := s.callers.set k .enqueued }
    else none
  | some .notifyAll => some { s with blocked := [], callers := s.callers.set k (.join 0) }
  | _ => none

/-- Call `k` joins its next worker, or has joined them all and returns. -/
def join (k : Nat) (s : Shared α) : Option (Shared α) :=
  match s.callers[k]? with
  | some (.join i) =>
    match s.pool.workers[i]? with
    | some .exited => some { s with callers := s.callers.set k (.join (i + 1)) }
    | some _ => none
    | none => some { s with callers := s.callers.set k .joined }
  | _ => none

end Shared

/-- The moves of the pool, the notifications and joins that follow them, and
wakeups of workers that nobody notified. -/
inductive Move (α : Type)
  | emplace
  | abandon
  | enqueue (f : α)
  | wake (i : Nat)
  | complete (i : Nat)
  | shutdown (byWorker : Bool)
  | notify (k i : Nat)
  | join (k : Nat)
  | spurious (i : Nat)

/-- A constructor that could not create a thread stops the pool, notifies and
joins as `shutdown` does. -/
def step (c : Config) (s : Shared α) : Move α → Option (Shared α)
  | .emplace => (ThreadPool.step c s.pool .emplace).map fun pool => { s with pool := pool }
  | .abandon => (ThreadPool.step c s.pool .abandon).map fun pool =>
    { s with pool := pool, callers := s.callers ++ [.notifyAll] }
  | .enqueue f => if s.pool.workers.length = c.threadCount then some (s.enqueue c f) else none
  | .wake i => s.wake i
  | .complete i => (s.pool.complete i).map fun pool => { s with pool := pool }
  | .shutdown byWorker => if s.pool.workers.length = c.threadCount then some (s.shutdown byWorker) else none
  | .notify k i => s.notify k i
  | .join k => s.join k
  | .spurious i => if i ∈ s.blocked then some { s with blocked := s.blocked.erase i } else none

def shared (α : Type) (c : Config) : Machine (Shared α) (Move α) := ⟨step c⟩

/-- Every worker that has not exited is blocked, one at least, although there is a
task to run or the pool has stopped, and no call is about to notify. -/
structure Lost (s : Shared α) : Prop where
  asleep : s.blocked ≠ []
  others : ∀ i w, s.pool.workers[i]? = some w → w = .exited ∨ i ∈ s.blocked
  due : s.pool.tasks ≠ [] ∨ s.pool.stop = true
  notifyOne : .notifyOne ∉ s.callers
  notifyAll : .notifyAll ∉ s.callers

/-- All worker threads have exited and all accepted tasks have run to the end. -/
structure Down (s : Shared α) : Prop where
  exited : ∀ w ∈ s.pool.workers, w = .exited
  completed : (s.pool.completed : Multiset (ThreadPool.Task α)) = s.pool.accepted

def Returned (s : Shared α) : Prop := .joined ∈ s.callers ∨ .returned ∈ s.callers

/-- The call that stopped the pool has not returned yet. -/
def Closing (s : Shared α) : Prop := .notifyAll ∈ s.callers ∨ ∃ i, .join i ∈ s.callers

inductive Does (c : Config) (s : Shared α) : Shared α → Prop
  | answer (x : Caller) (hx : x = .thrown ∨ x = .returned ∧ s.pool.stop = true) :
    Does c s { s with callers := s.callers ++ [x] }
  | emplace (hc : s.pool.workers.length < c.threadCount) (hs : s.pool.stop = false) :
    Does c s { s with pool := { s.pool with workers := s.pool.workers ++ [.waiting] } }
  | stop (hs : s.pool.stop = false) :
    Does c s { s with pool := { s.pool with stop := true }, callers := s.callers ++ [.notifyAll] }
  | enqueue (task : ThreadPool.Task α) (hs : s.pool.stop = false) :
    Does c s { s with pool := { s.pool with tasks := s.pool.tasks ++ [task],
                                            accepted := s.pool.accepted ++ [task] },
                      callers := s.callers ++ [.notifyOne] }
  | exit (i : Nat) (hb : i ∉ s.blocked) (hw : s.pool.workers[i]? = some .waiting) (ht : s.pool.tasks = [])
    (hs : s.pool.stop = true) :
    Does c s { s with pool := { s.pool with workers := s.pool.workers.set i .exited } }
  | take (i : Nat) (task : ThreadPool.Task α) (rest : List (ThreadPool.Task α)) (hb : i ∉ s.blocked)
    (hw : s.pool.workers[i]? = some .waiting) (ht : s.pool.tasks = task :: rest) :
    Does c s { s with pool := { s.pool with workers := s.pool.workers.set i (.running task), tasks := rest,
                                            started := s.pool.started ++ [task] } }
  | block (i : Nat) (hb : i ∉ s.blocked) (hw : s.pool.workers[i]? = some .waiting) (ht : s.pool.tasks = [])
    (hs : s.pool.stop = false) :
    Does c s { s with blocked := i :: s.blocked }
  | complete (i : Nat) (task : ThreadPool.Task α) (hw : s.pool.workers[i]? = some (.running task)) :
    Does c s { s with pool := { s.pool with workers := s.pool.workers.set i .waiting,
                                            completed := s.pool.completed ++ [task] } }
  | notifyOne (k i : Nat) (hk : s.callers[k]? = some .notifyOne) (hi : i ∈ s.blocked ∨ s.blocked = []) :
    Does c s { s with blocked := s.blocked.erase i, callers := s.callers.set k .enqueued }
  | notifyAll (k : Nat) (hk : s.callers[k]? = some .notifyAll) :
    Does c s { s with blocked := [], callers := s.callers.set k (.join 0) }
  | join (k i : Nat) (hk : s.callers[k]? = some (.join i)) (hw : s.pool.workers[i]? = some .exited) :
    Does c s { s with callers := s.callers.set k (.join (i + 1)) }
  | joined (k i : Nat) (hk : s.callers[k]? = some (.join i)) (hw : s.pool.workers.length ≤ i) :
    Does c s { s with callers := s.callers.set k .joined }
  | spurious (i : Nat) (hi : i ∈ s.blocked) : Does c s { s with blocked := s.blocked.erase i }

variable {c : Config} {s s' : Shared α} {i k : Nat}

theorem wake_does (h : s.wake i = some s') : Does c s s' := by
  unfold Shared.wake at h
  split at h
  · cases h
  rename_i hb
  split at h
  · rename_i pool hp
    cases h
    obtain ⟨hw, ⟨ht, hs, rfl⟩ | ⟨task, rest, ht, rfl⟩⟩ := wake_cases hp
    · exact .exit i hb hw ht hs
    · exact .take i task rest hb hw ht
  · rename_i hp hw
    cases h
    unfold Pool.wake at hp
    rw [hw] at hp
    cases ht : s.pool.tasks with
    | nil =>
      cases hs : s.pool.stop with
      | false => exact .block i hb hw ht hs
      | true =>
        rw [ht, hs] at hp
        cases hp
    | cons task rest =>
      rw [ht] at hp
      cases hp
  · cases h

theorem enqueue_does (f : α) : Does c s (s.enqueue c f) := by
  unfold Shared.enqueue
  obtain ⟨hs, e, he⟩ | ⟨hs, _, hok, hp⟩ := enqueue_cases c f s.pool
  · have hr : s.pool.enqueue c f = (.error e, s.pool) := Prod.ext he hs
    rw [hr]
    exact .answer _ (Or.inl rfl)
  · rw [← Prod.eta (s.pool.enqueue c f), hok, hp]
    exact .enqueue _ hs

theorem shutdown_does (byWorker : Bool) : Does c s (s.shutdown byWorker) := by
  unfold Shared.shutdown Pool.shutdown
  cases hs : s.pool.stop with
  | true => exact .answer _ (Or.inr ⟨rfl, hs⟩)
  | false =>
    cases byWorker with
    | true => exact .answer _ (Or.inl rfl)
    | false => exact .stop hs

theorem notify_does (h : s.notify k i = some s') : Does c s s' := by
  unfold Shared.notify at h
  split at h
  · rename_i hk
    obtain ⟨hi, hs⟩ := Option.ite_none_right_eq_some.mp h
    cases hs
    exact .notifyOne k i hk hi
  · rename_i hk
    cases h
    exact .notifyAll k hk
  · cases h

theorem join_does (h : s.join k = some s') : Does c s s' := by
  unfold Shared.join at h
  split at h
  · rename_i i hk
    split at h
    · cases h
      exact .join k i hk ‹_›
    · cases h
    · cases h
      exact .joined k i hk (List.getElem?_eq_none_iff.mp ‹_›)
  · cases h

theorem step_does {a : Move α} (h : step c s a = some s') : Does c s s' := by
  cases a with
  | emplace =>
    obtain ⟨pool, hp, rfl⟩ := Option.map_eq_some_iff.mp h
    obtain ⟨hc, hp⟩ := Option.ite_none_right_eq_some.mp hp
    cases hp
    exact .emplace hc.1 hc.2
  | abandon =>
    obtain ⟨pool, hp, rfl⟩ := Option.map_eq_some_iff.mp h
    obtain ⟨hc, hp⟩ := Option.ite_none_right_eq_some.mp hp
    cases hp
    exact .stop hc.2
  | enqueue f =>
    obtain ⟨_, hs⟩ := Option.ite_none_right_eq_some.mp h
    cases hs
    exact enqueue_does f
  | wake i => exact wake_does h
  | complete i =>
    obtain ⟨pool, hp, rfl⟩ := Option.map_eq_some_iff.mp h
    obtain ⟨task, hw, rfl⟩ := complete_cases hp
    exact .complete i task hw
  | shutdown byWorker =>
    obtain ⟨_, hs⟩ := Option.ite_none_right_eq_some.mp h
    cases hs
    exact shutdown_does byWorker
  | notify k i => exact notify_does h
  | join k => exact join_does h
  | spurious i =>
    obtain ⟨hi, hs⟩ := Option.ite_none_right_eq_some.mp h
    cases hs
    exact .spurious i hi

theorem step_refines {a : Move α} (h : step c s a = some s') :
    s'.pool = s.pool ∨ ∃ b, ThreadPool.step c s.pool b = some s'.pool := by
  cases a with
  | emplace =>
    obtain ⟨pool, hp, rfl⟩ := Option.map_eq_some_iff.mp h
    exact Or.inr ⟨.emplace, hp⟩
  | abandon =>
    obtain ⟨pool, hp, rfl⟩ := Option.map_eq_some_iff.mp h
    exact Or.inr ⟨.abandon, hp⟩
  | enqueue f =>
    obtain ⟨hc, hs⟩ := Option.ite_none_right_eq_some.mp h
    cases hs
    refine Or.inr ⟨.enqueue f, ?_⟩
    have hp : (s.enqueue c f).pool = (s.pool.enqueue c f).2 := by
      unfold Shared.enqueue
      split <;> simp only [*]
    rw [hp]
    exact if_pos hc
  | wake i =>
    change s.wake i = some s' at h
    unfold Shared.wake at h
    split at h
    · cases h
    split at h
    · cases h
      exact Or.inr ⟨.wake i, ‹_›⟩
    · cases h
      exact Or.inl rfl
    · cases h
  | complete i =>
    obtain ⟨pool, hp, rfl⟩ := Option.map_eq_some_iff.mp h
    exact Or.inr ⟨.complete i, hp⟩
  | shutdown byWorker =>
    obtain ⟨hc, hs⟩ := Option.ite_none_right_eq_some.mp h
    cases hs
    refine Or.inr ⟨.shutdown byWorker, ?_⟩
    have hp : (s.shutdown byWorker).pool = (s.pool.shutdown byWorker).2 := by
      unfold Shared.shutdown
      split <;> simp only [*]
    rw [hp]
    exact if_pos hc
  | notify k i =>
    left
    change s.notify k i = some s' at h
    unfold Shared.notify at h
    split at h
    · obtain ⟨_, hs⟩ := Option.ite_none_right_eq_some.mp h
      cases hs
      rfl
    · cases h
      rfl
    · cases h
  | join k =>
    left
    change s.join k = some s' at h
    unfold Shared.join at h
    split at h
    · split at h
      · cases h
        rfl
      · cases h
      · cases h
        rfl
    · cases h
  | spurious i =>
    obtain ⟨_, hs⟩ := Option.ite_none_right_eq_some.mp h
    cases hs
    exact Or.inl rfl

def idle : Worker α → Nat
  | .waiting => 1
  | _ => 0

def owed : Caller → Nat
  | .notifyOne => 1
  | _ => 0

/-- While a worker is blocked, each queued task has a call that will notify or a
worker that will look at the queue. -/
structure Awake (s : Shared α) : Prop where
  nodup : s.blocked.Nodup
  waiting : ∀ i ∈ s.blocked, s.pool.workers[i]? = some .waiting
  enough : s.blocked ≠ [] →
    s.pool.tasks.length + s.blocked.length ≤ total owed s.callers + total idle s.pool.workers
  woken : s.pool.stop = true → s.blocked = [] ∨ .notifyAll ∈ s.callers

theorem waiting_set {l : List Nat} {ws : List (Worker α)} {x : Worker α} (h : ∀ j ∈ l, ws[j]? = some .waiting)
    (hi : i ∉ l) : ∀ j ∈ l, (ws.set i x)[j]? = some .waiting := by
  intro j hj
  have hne : i ≠ j := by
    rintro rfl
    exact hi hj
  rw [List.getElem?_set_ne hne, h j hj]

theorem length_le_idle {l : List Nat} {ws : List (Worker α)} (hn : l.Nodup)
    (h : ∀ i ∈ l, ws[i]? = some .waiting) : l.length ≤ total idle ws := by
  induction l generalizing ws with
  | nil => exact Nat.zero_le _
  | cons i l ih =>
    obtain ⟨hi, hn⟩ := List.nodup_cons.mp hn
    have hl : l.length ≤ total idle (ws.set i .exited) :=
      ih hn (waiting_set (fun j hj => h j (List.mem_cons_of_mem i hj)) hi)
    have hs : total idle (ws.set i .exited) + 1 = total idle ws + 0 := total_set (h i List.mem_cons_self) .exited
    rw [List.length_cons]
    omega

theorem idle_le_length {l : List Nat} {ws : List (Worker α)} (h : ∀ i, ws[i]? = some .waiting → i ∈ l) :
    total idle ws ≤ l.length := by
  induction ws using List.reverseRecOn generalizing l with
  | nil => exact Nat.zero_le _
  | append_singleton ws x ih =>
    have hlt : ∀ i, ws[i]? = some .waiting → i ∈ l.erase ws.length := by
      intro i hi
      have hl : i < ws.length := (List.getElem?_eq_some_iff.mp hi).1
      exact (List.mem_erase_of_ne hl.ne).mpr (h i (by rw [List.getElem?_append_left hl, hi]))
    have hw := ih hlt
    rw [total_concat]
    cases x with
    | waiting =>
      have hm : ws.length ∈ l := h _ List.getElem?_concat_length
      have hl := List.length_erase_of_mem hm
      have hp := List.length_pos_of_mem hm
      have hi : idle (.waiting : Worker α) = 1 := rfl
      omega
    | _ => exact hw.trans (List.length_erase_le)

theorem mem_set_of_ne {x y z : Caller} {l : List Caller} (hx : x ∈ l) (hk : l[k]? = some y) (hne : x ≠ y) :
    x ∈ l.set k z := by
  obtain ⟨j, hj⟩ := List.mem_iff_getElem?.mp hx
  have hjk : k ≠ j := fun he => hne (Option.some.inj (hj.symm.trans (he ▸ hk)))
  exact List.mem_iff_getElem?.mpr ⟨j, by rw [List.getElem?_set_ne hjk, hj]⟩

theorem enough_erase (h : Awake s) (hi : i ∈ s.blocked) :
    s.pool.tasks.length + (s.blocked.erase i).length + 1 ≤ total owed s.callers + total idle s.pool.workers := by
  have he := h.enough (List.ne_nil_of_mem hi)
  have hl := List.length_erase_of_mem hi
  have hp := List.length_pos_of_mem hi
  omega

theorem awake_callers (h : Awake s) {l : List Caller} (ho : total owed l = total owed s.callers)
    (hm : .notifyAll ∈ s.callers → .notifyAll ∈ l) : Awake { s with callers := l } where
  nodup := h.nodup
  waiting := h.waiting
  enough := fun hb => ho ▸ h.enough hb
  woken := fun hs => (h.woken hs).imp id hm

theorem awake_step (h : Awake s) (hs : Does c s s') : Awake s' := by
  cases hs with
  | answer x hx =>
    refine awake_callers h ?_ (fun hm => List.mem_append_left _ hm)
    rw [total_concat]
    obtain rfl | ⟨rfl, _⟩ := hx <;> rfl
  | emplace _ hs =>
    refine ⟨h.nodup, fun j hj => ?_, fun hb => ?_, h.woken⟩
    · have hw := h.waiting j hj
      rw [List.getElem?_append_left (List.getElem?_eq_some_iff.mp hw).1, hw]
    · exact (h.enough hb).trans (by rw [total_concat, ← add_assoc]; exact Nat.le_add_right _ _)
  | stop _ => exact ⟨h.nodup, h.waiting, fun hb => (h.enough hb).trans (by rw [total_concat]; exact le_rfl),
      fun _ => Or.inr List.mem_concat_self⟩
  | enqueue task hs =>
    refine ⟨h.nodup, h.waiting, fun hb => ?_, fun ht => (h.woken ht).imp id (List.mem_append_left _)⟩
    have he := h.enough hb
    have ho : total owed (s.callers ++ [.notifyOne]) = total owed s.callers + 1 := total_concat _ _ _
    dsimp only
    rw [ho, List.length_append, List.length_singleton]
    omega
  | exit i hb hw ht _ =>
    have hb' := waiting_set (x := .exited) h.waiting hb
    refine ⟨h.nodup, hb', fun _ => ?_, h.woken⟩
    have hl := length_le_idle h.nodup hb'
    dsimp only
    rw [ht, List.length_nil]
    omega
  | take i task rest hb hw ht =>
    refine ⟨h.nodup, waiting_set h.waiting hb, fun hne => ?_, h.woken⟩
    have he := h.enough hne
    have hi : total idle (s.pool.workers.set i (.running task)) + 1 = total idle s.pool.workers + 0 :=
      total_set hw (.running task)
    rw [ht, List.length_cons] at he
    dsimp only
    omega
  | block i hb hw ht hs =>
    have hn : (i :: s.blocked).Nodup := List.nodup_cons.mpr ⟨hb, h.nodup⟩
    have hall : ∀ j ∈ i :: s.blocked, s.pool.workers[j]? = some .waiting := List.forall_mem_cons.mpr ⟨hw, h.waiting⟩
    refine ⟨hn, hall, fun _ => ?_, fun hst => ?_⟩
    · have hl := length_le_idle hn hall
      dsimp only
      rw [ht, List.length_nil]
      omega
    · rw [hs] at hst
      cases hst
  | complete i task hw =>
    have hb : i ∉ s.blocked := by
      intro hb
      have he := (h.waiting i hb).symm.trans hw
      cases he
    refine ⟨h.nodup, waiting_set h.waiting hb, fun hne => ?_, h.woken⟩
    have he := h.enough hne
    have hi : total idle (s.pool.workers.set i .waiting) + 0 = total idle s.pool.workers + 1 := total_set hw .waiting
    dsimp only
    omega
  | notifyOne k i hk hi =>
    refine ⟨h.nodup.erase i, fun j hj => h.waiting j (List.mem_of_mem_erase hj), fun hne => ?_, fun hst => ?_⟩
    · have hi : i ∈ s.blocked := hi.resolve_right (fun hn => hne (by rw [hn]; rfl))
      have he := enough_erase h hi
      have ho : total owed (s.callers.set k .enqueued) + 1 = total owed s.callers + 0 := total_set hk .enqueued
      dsimp only
      omega
    · obtain hn | hm := h.woken hst
      · exact Or.inl (by rw [hn]; rfl)
      · exact Or.inr (mem_set_of_ne hm hk (by decide))
  | notifyAll k hk => exact ⟨List.nodup_nil, fun _ hj => absurd hj List.not_mem_nil, fun hne => absurd rfl hne,
      fun _ => Or.inl rfl⟩
  | join k i hk _ => exact awake_callers h (total_set_eq hk rfl) (fun hm => mem_set_of_ne hm hk (by simp))
  | joined k i hk _ => exact awake_callers h (total_set_eq hk rfl) (fun hm => mem_set_of_ne hm hk (by simp))
  | spurious i hi =>
    refine ⟨h.nodup.erase i, fun j hj => h.waiting j (List.mem_of_mem_erase hj), fun _ => ?_, fun hst => ?_⟩
    · exact (Nat.le_succ _).trans (enough_erase h hi)
    · exact (h.woken hst).imp (fun hn => by rw [hn]; rfl) id

theorem not_lost (h : Awake s) : ¬ Lost s := by
  intro hl
  have hst : s.pool.stop = false := by
    cases hs : s.pool.stop with
    | false => rfl
    | true => exact ((h.woken hs).elim hl.asleep hl.notifyAll).elim
  have ht : s.pool.tasks ≠ [] := hl.due.resolve_right (by rw [hst]; exact Bool.false_ne_true)
  have ho : total owed s.callers = 0 := total_eq_zero fun x hx => by
    cases x with
    | notifyOne => exact absurd hx hl.notifyOne
    | _ => rfl
  have he := h.enough hl.asleep
  have hi : total idle s.pool.workers ≤ s.blocked.length := idle_le_length fun i hi =>
    (hl.others i _ hi).resolve_left (by simp)
  have hp := List.length_pos_iff.mpr ht
  omega

def Caller.closes : Caller → Bool
  | .notifyAll | .join _ | .joined => true
  | _ => false

/-- One call stops the pool, and it has joined the workers up to where it stands. -/
structure Ended (s : Shared α) : Prop where
  closer : s.callers.any Caller.closes = s.pool.stop
  returned : .returned ∈ s.callers → s.pool.stop = true
  front : ∀ i, .join i ∈ s.callers → ∀ j < i, s.pool.workers[j]? = some .exited
  joined : .joined ∈ s.callers → ∀ w ∈ s.pool.workers, w = .exited

theorem ended_running (h : s.pool.stop = false) (he : Ended s) {x : Caller} (hx : x ∈ s.callers) :
    x.closes = false ∧ x ≠ .returned := by
  constructor
  · have hc := he.closer
    rw [h, List.any_eq_false] at hc
    simpa using hc x hx
  · rintro rfl
    rw [he.returned hx] at h
    cases h

theorem ended_workers (h : Ended s) {x y : Worker α} (hw : s.pool.workers[i]? = some x) (hx : x ≠ .exited)
    {p : Pool α} (hp : p.stop = s.pool.stop) (hpw : p.workers = s.pool.workers.set i y) :
    Ended { s with pool := p } where
  closer := h.closer.trans hp.symm
  returned := fun hr => hp.trans (h.returned hr)
  front := by
    intro n hn j hj
    have he := h.front n hn j hj
    have hne : i ≠ j := by
      rintro rfl
      exact hx (Option.some.inj (hw.symm.trans he))
    rw [hpw, List.getElem?_set_ne hne, he]
  joined := fun hj => absurd (h.joined hj x (List.mem_of_getElem? hw)) hx

theorem ended_callers (h : Ended s) {x : Caller} (hk : s.callers[k]? = some x) (y : Caller)
    (hc : y.closes = x.closes)
    (hr : y ≠ .returned) (hf : ∀ i, y = .join i → ∀ j < i, s.pool.workers[j]? = some .exited)
    (hj : y = .joined → ∀ w ∈ s.pool.workers, w = .exited) (blocked : List Nat) :
    Ended { s with blocked := blocked, callers := s.callers.set k y } where
  closer := by
    have ht : (s.callers.set k y).any Caller.closes = s.callers.any Caller.closes := any_set hk hc
    exact ht.trans h.closer
  returned := fun hm => h.returned ((List.mem_or_eq_of_mem_set hm).resolve_right hr.symm)
  front := by
    intro i hi
    obtain hi | hi := List.mem_or_eq_of_mem_set hi
    · exact h.front i hi
    · exact hf i hi.symm
  joined := by
    intro hm
    obtain hm | hm := List.mem_or_eq_of_mem_set hm
    · exact h.joined hm
    · exact hj hm.symm

theorem ended_append (h : Ended s) {x : Caller} {p : Pool α} (hw : p.workers = s.pool.workers)
    (hp : (s.pool.stop || x.closes) = p.stop) (hr : x = .returned → s.pool.stop = true)
    (hn : ∀ i, x ≠ .join i) (hj : x ≠ .joined) : Ended { s with pool := p, callers := s.callers ++ [x] } where
  closer := by
    rw [List.any_append, List.any_cons, List.any_nil, Bool.or_false, h.closer, hp]
  returned := by
    intro hm
    have hs : s.pool.stop = true := by
      obtain hm | hm := List.mem_append.mp hm
      · exact h.returned hm
      · exact hr (List.mem_singleton.mp hm).symm
    rw [← hp, hs, Bool.true_or]
  front := by
    intro i hm
    obtain hm | hm := List.mem_append.mp hm
    · exact hw ▸ h.front i hm
    · exact absurd (List.mem_singleton.mp hm).symm (hn i)
  joined := by
    intro hm
    obtain hm | hm := List.mem_append.mp hm
    · exact hw ▸ h.joined hm
    · exact absurd (List.mem_singleton.mp hm).symm hj

theorem ended_step (h : Ended s) (hs : Does c s s') : Ended s' := by
  cases hs with
  | answer x hx =>
    obtain rfl | ⟨rfl, hs⟩ := hx
    · exact ended_append h rfl (Bool.or_false _) (by simp) (by simp) (by simp)
    · exact ended_append h rfl (Bool.or_false _) (fun _ => hs) (by simp) (by simp)
  | emplace _ hs =>
    refine ⟨h.closer, h.returned, fun i hm => ?_, fun hm => ?_⟩
    · exact absurd (ended_running hs h hm).1 (by simp [Caller.closes])
    · exact absurd (ended_running hs h hm).1 (by simp [Caller.closes])
  | stop hs => exact ended_append h rfl (Bool.or_true _) (by simp) (by simp) (by simp)
  | enqueue task hs => exact ended_append h rfl (Bool.or_false _) (by simp) (by simp) (by simp)
  | exit i _ hw _ _ => exact ended_workers h hw (by simp) rfl rfl
  | take i task rest _ hw _ => exact ended_workers h hw (by simp) rfl rfl
  | block i _ _ _ _ => exact ⟨h.closer, h.returned, h.front, h.joined⟩
  | complete i task hw => exact ended_workers h hw (by simp) rfl rfl
  | notifyOne k i hk _ => exact ended_callers h hk .enqueued rfl (by simp) (by simp) (by simp) _
  | notifyAll k hk =>
    refine ended_callers h hk (.join 0) rfl (by simp) (fun i hi j hj => ?_) (by simp) []
    cases hi
    exact absurd hj (Nat.not_lt_zero j)
  | join k i hk hw =>
    refine ended_callers h hk (.join (i + 1)) rfl (by simp) (fun n hn j hj => ?_) (by simp) _
    cases hn
    obtain hlt | rfl := Nat.lt_succ_iff_lt_or_eq.mp hj
    · exact h.front i (List.mem_of_getElem? hk) j hlt
    · exact hw
  | joined k i hk hw =>
    refine ended_callers h hk .joined rfl (by simp) (by simp) (fun _ w hm => ?_) _
    obtain ⟨j, hj⟩ := List.mem_iff_getElem?.mp hm
    have hlt : j < i := (List.getElem?_eq_some_iff.mp hj).1.trans_le hw
    exact Option.some.inj (hj.symm.trans (h.front i (List.mem_of_getElem? hk) j hlt))
  | spurious i _ => exact ⟨h.closer, h.returned, h.front, h.joined⟩

/-- In no state of any run is a wakeup lost. -/
theorem no_lost_wakeup (c : Config) (p : Pool α) (h₀ : create c = .ok p) (as : List (Move α)) (s : Shared α)
    (hr : (shared α c).run { pool := p } as = some s) : ¬ Lost s := by
  obtain ⟨_, _, rfl⟩ := create_eq_ok h₀
  have h : Awake ({} : Shared α) := ⟨List.nodup_nil, fun _ hj => absurd hj List.not_mem_nil, fun hb => absurd rfl hb,
    fun _ => Or.inl rfl⟩
  exact not_lost (Machine.run_invariant h (fun _ _ _ hi _ hs => awake_step hi (step_does hs))
    (Machine.meets_true _ as) hr)

/-- Two workers sleep, and the one that is notified finds its task gone. -/
def overtaken : List (Move Char) :=
  [.emplace, .emplace, .wake 0, .enqueue 'a', .wake 1, .complete 1, .notify 0 0, .wake 0, .wake 1, .shutdown false,
    .notify 1 0, .wake 1]

theorem no_lost_wakeup_overtaken : ¬ Lost (α := Char)
    { pool := { workers := [.waiting, .exited], stop := true, accepted := [(0, 'a')], started := [(0, 'a')],
                completed := [(0, 'a')] }, callers := [.enqueued, .join 0] } :=
  no_lost_wakeup ⟨2, 1⟩ {} rfl overtaken _ rfl

theorem conserved_of_run {p : Pool α} (h₀ : create c = .ok p) {as : List (Move α)}
    (hr : (shared α c).run { pool := p } as = some s) : Conserved c s.pool := by
  obtain ⟨hc, _, rfl⟩ := create_eq_ok h₀
  obtain ⟨bs, hb⟩ := Machine.run_refines (N := ThreadPool.pool α c) Shared.pool (fun _ _ _ => step_refines) hr
  exact conserved_of_inv hc (Machine.run_invariant inv_create (fun _ _ _ hi _ hs => inv_step hi hs)
    (Machine.meets_true _ bs) hb)

/-- The call that stops the pool returns when the pool is down. Every other call
that returns finds a call that stopped it, and the pool is down or that one is
still at it. -/
theorem returned_down (c : Config) (p : Pool α) (h₀ : create c = .ok p) (as : List (Move α)) (s : Shared α)
    (hr : (shared α c).run { pool := p } as = some s) :
    (.joined ∈ s.callers → Down s) ∧ (Returned s → Down s ∨ Closing s) := by
  have hc := conserved_of_run h₀ hr
  obtain ⟨_, _, rfl⟩ := create_eq_ok h₀
  have h : Ended s := Machine.run_invariant (I := Ended)
    ⟨rfl, fun hm => absurd hm List.not_mem_nil, fun _ hm => absurd hm List.not_mem_nil,
      fun hm => absurd hm List.not_mem_nil⟩
    (fun _ _ _ hi _ hs => ended_step hi (step_does hs)) (Machine.meets_true _ as) hr
  have hj : .joined ∈ s.callers → Down s := fun hm => ⟨h.joined hm, hc.drained (h.joined hm)⟩
  refine ⟨hj, fun hret => ?_⟩
  obtain hm | hm := hret
  · exact Or.inl (hj hm)
  · have ha := h.closer
    rw [h.returned hm, List.any_eq_true] at ha
    obtain ⟨x, hx, hx'⟩ := ha
    cases x with
    | notifyAll => exact Or.inr (Or.inl hx)
    | join i => exact Or.inr (Or.inr ⟨i, hx⟩)
    | joined => exact Or.inl (hj hx)
    | _ => cases hx'

/-- One worker runs a task while the pool is shut down twice. -/
def twice : List (Move Char) :=
  [.emplace, .enqueue 'a', .wake 0, .shutdown false, .shutdown false]

def early : Shared Char where
  pool := { workers := [.running (0, 'a')], stop := true, accepted := [(0, 'a')], started := [(0, 'a')] }
  callers := [.notifyOne, .notifyAll, .returned]

theorem returned_down_twice :
    (.joined ∈ early.callers → Down early) ∧ (Returned early → Down early ∨ Closing early) :=
  returned_down ⟨1, 1⟩ {} rfl twice early rfl

/-- The second call of `shutdown` returns while the first waits for the worker. -/
theorem second_returns_early : ¬ ∀ (c : Config) (p : Pool Char) (as : List (Move Char)) (s : Shared Char),
    create c = .ok p → (shared Char c).run { pool := p } as = some s → Returned s → Down s := by
  intro h
  have hd : Down early := h ⟨1, 1⟩ {} twice early rfl rfl (Or.inr (by decide))
  have he := hd.exited (.running (0, 'a')) List.mem_cons_self
  cases he

end BridgeIM.Concurrency.Condition
