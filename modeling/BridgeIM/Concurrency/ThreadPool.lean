import BridgeIM.Lib.Machine
import BridgeIM.Lib.Slots
import Mathlib.Algebra.Order.Group.Multiset
import Mathlib.Tactic.Abel

namespace BridgeIM.Concurrency.ThreadPool

open Lib

structure Config where
  threadCount : Nat := 4
  maxQueueSize : Nat := 10000

/-- A task with the number under which `enqueue` accepted it. -/
abbrev Task (α : Type) := Nat × α

inductive Worker (α : Type)
  | waiting
  | running (task : Task α)
  | exited

/-- The fields of a `ThreadPool`, and the histories of what `enqueue` accepted,
what the workers took and what they have run to the end. -/
structure Pool (α : Type) where
  workers : List (Worker α) := []
  tasks : List (Task α) := []
  stop : Bool := false
  accepted : List (Task α) := []
  started : List (Task α) := []
  completed : List (Task α) := []

variable {α : Type}

def create (c : Config) : Except String (Pool α) :=
  if c.threadCount = 0 then .error "thread count must be greater than 0"
  else if c.maxQueueSize = 0 then .error "max queue size must be greater than 0"
  else .ok {}

namespace Pool

def enqueue (c : Config) (f : α) (s : Pool α) : Except String Nat × Pool α :=
  if s.stop then (.error "enqueue on stopped ThreadPool", s)
  else if c.maxQueueSize ≤ s.tasks.length then (.error "task queue is full", s)
  else
    let task := (s.accepted.length, f)
    (.ok task.1, { s with tasks := s.tasks ++ [task], accepted := s.accepted ++ [task] })

/-- The critical section of worker `i`, which sleeps until there is a task or
the pool has stopped. -/
def wake (i : Nat) (s : Pool α) : Option (Pool α) :=
  match s.workers[i]?, s.tasks with
  | some .waiting, [] => if s.stop then some { s with workers := s.workers.set i .exited } else none
  | some .waiting, task :: rest =>
    some { s with workers := s.workers.set i (.running task), tasks := rest, started := s.started ++ [task] }
  | _, _ => none

/-- The call `task()` of worker `i` returns. A `packaged_task` keeps what its
function throws. -/
def complete (i : Nat) (s : Pool α) : Option (Pool α) :=
  match s.workers[i]? with
  | some (.running task) =>
    some { s with workers := s.workers.set i .waiting, completed := s.completed ++ [task] }
  | _ => none

def shutdown (byWorker : Bool) (s : Pool α) : Except String Unit × Pool α :=
  if s.stop then (.ok (), s)
  else if byWorker then (.error "shutdown() must not be called from a worker thread", s)
  else (.ok (), { s with stop := true })

end Pool

/-- The constructor creates a worker or fails to do so, and then the callers and
the workers take their critical sections in any order. -/
inductive Move (α : Type)
  | emplace
  | abandon
  | enqueue (f : α)
  | wake (i : Nat)
  | complete (i : Nat)
  | shutdown (byWorker : Bool)

def step (c : Config) (s : Pool α) : Move α → Option (Pool α)
  | .emplace =>
    if s.workers.length < c.threadCount ∧ s.stop = false then
      some { s with workers := s.workers ++ [.waiting] }
    else none
  | .abandon =>
    if s.workers.length < c.threadCount ∧ s.stop = false then some { s with stop := true } else none
  | .enqueue f => if s.workers.length = c.threadCount then some (s.enqueue c f).2 else none
  | .wake i => s.wake i
  | .complete i => s.complete i
  | .shutdown byWorker => if s.workers.length = c.threadCount then some (s.shutdown byWorker).2 else none

def pool (α : Type) (c : Config) : Machine (Pool α) (Move α) := ⟨step c⟩

def Worker.task : Worker α → Multiset (Task α)
  | .running task => {task}
  | _ => 0

@[simp] theorem task_waiting : (Worker.waiting : Worker α).task = 0 := rfl

@[simp] theorem task_running (t : Task α) : (Worker.running t).task = {t} := rfl

@[simp] theorem task_exited : (Worker.exited : Worker α).task = 0 := rfl

def Pool.running (s : Pool α) : Multiset (Task α) := total Worker.task s.workers

/-- Every accepted task is queued, running or completed, in one of these and
once, and the queue keeps its order and its bound. -/
structure Conserved (c : Config) (s : Pool α) : Prop where
  places : (s.tasks : Multiset (Task α)) + s.running + s.completed = s.accepted
  once : s.accepted.Nodup
  order : s.started ++ s.tasks = s.accepted
  room : s.tasks.length ≤ c.maxQueueSize
  drained : (∀ x ∈ s.workers, x = .exited) → (s.completed : Multiset (Task α)) = s.accepted

structure Inv (c : Config) (s : Pool α) : Prop where
  places : (s.tasks : Multiset (Task α)) + s.running + s.completed = s.accepted
  numbers : s.accepted.map Prod.fst = List.range s.accepted.length
  order : s.started ++ s.tasks = s.accepted
  room : s.tasks.length ≤ c.maxQueueSize
  exited : .exited ∈ s.workers → s.stop = true ∧ s.tasks = []
  created : s.workers.length ≤ c.threadCount ∧ (s.workers.length < c.threadCount → s.accepted = [])

variable {c : Config} {s s' : Pool α} {i : Nat}

theorem enqueue_cases (c : Config) (f : α) (s : Pool α) :
    ((s.enqueue c f).2 = s ∧ ∃ e, (s.enqueue c f).1 = .error e) ∨
    s.stop = false ∧ s.tasks.length < c.maxQueueSize ∧ (s.enqueue c f).1 = .ok s.accepted.length ∧
      (s.enqueue c f).2 = { s with tasks := s.tasks ++ [(s.accepted.length, f)],
                                   accepted := s.accepted ++ [(s.accepted.length, f)] } := by
  unfold Pool.enqueue
  split
  · exact Or.inl ⟨rfl, _, rfl⟩
  split
  · exact Or.inl ⟨rfl, _, rfl⟩
  · rename_i hs hl
    exact Or.inr ⟨by simpa using hs, Nat.lt_of_not_le hl, rfl, rfl⟩

theorem wake_cases (h : s.wake i = some s') : s.workers[i]? = some .waiting ∧
    (s.tasks = [] ∧ s.stop = true ∧ s' = { s with workers := s.workers.set i .exited } ∨
      ∃ task rest, s.tasks = task :: rest ∧
        s' = { s with workers := s.workers.set i (.running task), tasks := rest, started := s.started ++ [task] }) := by
  unfold Pool.wake at h
  split at h
  · rename_i hw ht
    split at h
    · cases h
      exact ⟨hw, Or.inl ⟨ht, ‹_›, rfl⟩⟩
    · cases h
  · rename_i task rest hw ht
    cases h
    exact ⟨hw, Or.inr ⟨task, rest, ht, rfl⟩⟩
  · cases h

theorem complete_cases (h : s.complete i = some s') : ∃ task, s.workers[i]? = some (.running task) ∧
    s' = { s with workers := s.workers.set i .waiting, completed := s.completed ++ [task] } := by
  unfold Pool.complete at h
  split at h
  · rename_i task hw
    cases h
    exact ⟨task, hw, rfl⟩
  · cases h

theorem shutdown_cases (byWorker : Bool) (s : Pool α) :
    (s.shutdown byWorker).2 = s ∨ (s.shutdown byWorker).2 = { s with stop := true } := by
  unfold Pool.shutdown
  split
  · exact Or.inl rfl
  split
  · exact Or.inl rfl
  · exact Or.inr rfl

theorem step_cases {a : Move α} (h : step c s a = some s') :
    s' = s ∨
    (s.workers.length < c.threadCount ∧ s' = { s with workers := s.workers ++ [.waiting] }) ∨
    s' = { s with stop := true } ∨
    (∃ f, s.workers.length = c.threadCount ∧ s.stop = false ∧ s.tasks.length < c.maxQueueSize ∧
      s' = { s with tasks := s.tasks ++ [(s.accepted.length, f)],
                    accepted := s.accepted ++ [(s.accepted.length, f)] }) ∨
    (∃ i, s.workers[i]? = some .waiting ∧ s.tasks = [] ∧ s.stop = true ∧
      s' = { s with workers := s.workers.set i .exited }) ∨
    (∃ i task rest, s.workers[i]? = some .waiting ∧ s.tasks = task :: rest ∧
      s' = { s with workers := s.workers.set i (.running task), tasks := rest, started := s.started ++ [task] }) ∨
    ∃ i task, s.workers[i]? = some (.running task) ∧
      s' = { s with workers := s.workers.set i .waiting, completed := s.completed ++ [task] } := by
  cases a with
  | emplace =>
    obtain ⟨hc, hs⟩ := Option.ite_none_right_eq_some.mp h
    cases hs
    exact Or.inr (Or.inl ⟨hc.1, rfl⟩)
  | abandon =>
    obtain ⟨_, hs⟩ := Option.ite_none_right_eq_some.mp h
    cases hs
    exact Or.inr (Or.inr (Or.inl rfl))
  | enqueue f =>
    obtain ⟨hc, hs⟩ := Option.ite_none_right_eq_some.mp h
    cases hs
    obtain ⟨hs, _⟩ | ⟨hstop, hroom, _, hs⟩ := enqueue_cases c f s
    · exact Or.inl hs
    · exact Or.inr (Or.inr (Or.inr (Or.inl ⟨f, hc, hstop, hroom, hs⟩)))
  | wake i =>
    obtain ⟨hw, ⟨ht, hstop, rfl⟩ | ⟨task, rest, ht, rfl⟩⟩ := wake_cases h
    · exact Or.inr (Or.inr (Or.inr (Or.inr (Or.inl ⟨i, hw, ht, hstop, rfl⟩))))
    · exact Or.inr (Or.inr (Or.inr (Or.inr (Or.inr (Or.inl ⟨i, task, rest, hw, ht, rfl⟩)))))
  | complete i =>
    obtain ⟨task, hw, rfl⟩ := complete_cases h
    exact Or.inr (Or.inr (Or.inr (Or.inr (Or.inr (Or.inr ⟨i, task, hw, rfl⟩)))))
  | shutdown byWorker =>
    obtain ⟨_, hs⟩ := Option.ite_none_right_eq_some.mp h
    cases hs
    obtain hs | hs := shutdown_cases byWorker s
    · exact Or.inl hs
    · exact Or.inr (Or.inr (Or.inl hs))

theorem running_set {x y : Worker α} (h : s.workers[i]? = some x) :
    total Worker.task (s.workers.set i y) + x.task = s.running + y.task :=
  total_set h y

theorem exited_of_set {y : Worker α} {l : List (Worker α)} (h : .exited ∈ l.set i y) (hy : y ≠ .exited) :
    .exited ∈ l := by
  obtain h | h := List.mem_or_eq_of_mem_set h
  · exact h
  · exact absurd h.symm hy

theorem inv_take (h : Inv c s) {task : Task α} {rest : List (Task α)} (hw : s.workers[i]? = some .waiting)
    (ht : s.tasks = task :: rest) : Inv c { s with workers := s.workers.set i (.running task), tasks := rest,
                                                   started := s.started ++ [task] } where
  places := by
    have hr : total Worker.task (s.workers.set i (.running task)) = s.running + {task} := by
      have hr := running_set hw (y := .running task)
      rwa [task_waiting, task_running, add_zero] at hr
    have hp := h.places
    rw [ht, ← Multiset.cons_coe, ← Multiset.singleton_add] at hp
    rw [Pool.running, hr, ← hp]
    abel
  numbers := h.numbers
  order := by
    rw [← h.order, ht, List.append_assoc]
    rfl
  room := by
    have hl := h.room
    rw [ht] at hl
    exact (Nat.le_succ _).trans hl
  exited := by
    intro he
    have hx := (h.exited (exited_of_set he nofun)).2
    rw [ht] at hx
    cases hx
  created := by
    rw [List.length_set]
    exact h.created

theorem inv_complete (h : Inv c s) {task : Task α} (hw : s.workers[i]? = some (.running task)) :
    Inv c { s with workers := s.workers.set i .waiting, completed := s.completed ++ [task] } where
  places := by
    have hr : total Worker.task (s.workers.set i .waiting) + {task} = s.running := by
      have hr := running_set hw (y := .waiting)
      rwa [task_waiting, task_running, add_zero] at hr
    rw [Pool.running, ← h.places, ← hr, ← Multiset.coe_add, Multiset.coe_singleton]
    abel
  numbers := h.numbers
  order := h.order
  room := h.room
  exited := fun he => h.exited (exited_of_set he nofun)
  created := by
    rw [List.length_set]
    exact h.created

theorem inv_exit (h : Inv c s) (hw : s.workers[i]? = some .waiting) (ht : s.tasks = []) (hstop : s.stop = true) :
    Inv c { s with workers := s.workers.set i .exited } where
  places := by
    have hr : total Worker.task (s.workers.set i .exited) = s.running := total_set_eq hw rfl
    rw [Pool.running, hr]
    exact h.places
  numbers := h.numbers
  order := h.order
  room := h.room
  exited := fun _ => ⟨hstop, ht⟩
  created := by
    rw [List.length_set]
    exact h.created

theorem inv_enqueue (h : Inv c s) (f : α) (hc : s.workers.length = c.threadCount) (hstop : s.stop = false)
    (hroom : s.tasks.length < c.maxQueueSize) :
    Inv c { s with tasks := s.tasks ++ [(s.accepted.length, f)],
                   accepted := s.accepted ++ [(s.accepted.length, f)] } where
  places := by
    rw [Pool.running, ← Multiset.coe_add, ← Multiset.coe_add, ← h.places, Pool.running]
    abel
  numbers := by
    rw [List.map_append, h.numbers, List.length_append, List.length_singleton, List.range_succ]
    rfl
  order := by rw [← List.append_assoc, h.order]
  room := by
    rw [List.length_append]
    exact hroom
  exited := by
    intro he
    rw [(h.exited he).1] at hstop
    cases hstop
  created := ⟨h.created.1, fun hlt => absurd hc hlt.ne⟩

theorem inv_emplace (h : Inv c s) (hlt : s.workers.length < c.threadCount) :
    Inv c { s with workers := s.workers ++ [.waiting] } where
  places := by
    rw [Pool.running, total_concat, task_waiting, add_zero]
    exact h.places
  numbers := h.numbers
  order := h.order
  room := h.room
  exited := by
    intro he
    obtain he | he := List.mem_append.mp he
    · exact h.exited he
    · cases List.mem_singleton.mp he
  created := by
    rw [List.length_append]
    exact ⟨hlt, fun _ => h.created.2 hlt⟩

theorem inv_stop (h : Inv c s) : Inv c { s with stop := true } :=
  ⟨h.places, h.numbers, h.order, h.room, fun he => ⟨rfl, (h.exited he).2⟩, h.created⟩

theorem inv_step (h : Inv c s) {a : Move α} (hs : step c s a = some s') : Inv c s' := by
  obtain rfl | ⟨hlt, rfl⟩ | rfl | ⟨f, hc, hstop, hroom, rfl⟩ | ⟨i, hw, ht, hstop, rfl⟩ |
    ⟨i, task, rest, hw, ht, rfl⟩ | ⟨i, task, hw, rfl⟩ := step_cases hs
  · exact h
  · exact inv_emplace h hlt
  · exact inv_stop h
  · exact inv_enqueue h f hc hstop hroom
  · exact inv_exit h hw ht hstop
  · exact inv_take h hw ht
  · exact inv_complete h hw

theorem conserved_of_inv (hc : 0 < c.threadCount) (h : Inv c s) : Conserved c s where
  places := h.places
  once := by
    have hn : (s.accepted.map Prod.fst).Nodup := by
      rw [h.numbers]
      exact List.nodup_range
    exact hn.of_map
  order := h.order
  room := h.room
  drained := by
    intro hall
    have hr : s.running = 0 := total_eq_zero fun x hx => by rw [hall x hx, task_exited]
    have ht : s.tasks = [] := by
      by_cases hw : s.workers = []
      · have ha := h.created.2 (by rw [hw]; exact hc)
        rw [← h.order] at ha
        exact (List.append_eq_nil_iff.mp ha).2
      · obtain ⟨x, hx⟩ := List.exists_mem_of_ne_nil _ hw
        exact (h.exited (hall x hx ▸ hx)).2
    have hp := h.places
    rwa [ht, hr, Multiset.coe_nil, zero_add, zero_add] at hp

theorem create_eq_ok {s₀ : Pool α} (h : create c = .ok s₀) : 0 < c.threadCount ∧ 0 < c.maxQueueSize ∧ s₀ = {} := by
  unfold create at h
  split at h
  · cases h
  split at h
  · cases h
  · cases h
    exact ⟨Nat.pos_of_ne_zero ‹_›, Nat.pos_of_ne_zero ‹_›, rfl⟩

theorem inv_create : Inv c ({} : Pool α) where
  places := rfl
  numbers := rfl
  order := rfl
  room := Nat.zero_le _
  exited := fun he => absurd he List.not_mem_nil
  created := ⟨Nat.zero_le _, fun _ => rfl⟩

def drain : List (Move Char) :=
  [.emplace, .enqueue 'a', .enqueue 'b', .enqueue 'c', .wake 0, .shutdown false, .complete 0, .enqueue 'd', .wake 0,
    .shutdown true, .complete 0, .wake 0]

def drained : Pool Char where
  workers := [.exited]
  stop := true
  accepted := [(0, 'a'), (1, 'b')]
  started := [(0, 'a'), (1, 'b')]
  completed := [(0, 'a'), (1, 'b')]

end BridgeIM.Concurrency.ThreadPool
