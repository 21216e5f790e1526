import Mathlib.Data.List.Basic

namespace BridgeIM.Logging

/-- The fields of a `LockQueue`. A capacity of 0 is none. -/
structure LockQueue (α : Type) where
  queue : List α := []
  capacity : Nat := 10000
  dropped : Nat := 0
  stop : Bool := false
  deriving DecidableEq, Repr

namespace LockQueue

variable {α : Type}

/-- The queue has room for one more message once its oldest is gone. -/
def evict (q : LockQueue α) : LockQueue α :=
  if q.capacity ≠ 0 ∧ q.capacity ≤ q.queue.length then { q with queue := q.queue.tail, dropped := q.dropped + 1 } else q

def push (msg : α) (q : LockQueue α) : LockQueue α :=
  if q.stop then q else { q.evict with queue := q.evict.queue ++ [msg] }

/-- `Pop` with the message of a `true`, or with `none` for a `false`; nothing
while it waits. -/
def pop (q : LockQueue α) : Option (Option α × LockQueue α) :=
  match q.queue with
  | msg :: rest => some (some msg, { q with queue := rest })
  | [] => if q.stop then some (none, q) else none

def stopped (q : LockQueue α) : LockQueue α := { q with stop := true }

/-- The loop of `SetCapacity`, which drops the oldest messages: what stays and
how many are gone. -/
def shrink (capacity : Nat) : List α → Nat → List α × Nat
  | [], dropped => ([], dropped)
  | msg :: rest, dropped =>
    if capacity ≠ 0 ∧ capacity < (msg :: rest).length then shrink capacity rest (dropped + 1) else (msg :: rest, dropped)

def setCapacity (capacity : Nat) (q : LockQueue α) : LockQueue α :=
  { q with capacity := capacity, queue := (shrink capacity q.queue q.dropped).1,
           dropped := (shrink capacity q.queue q.dropped).2 }

@[simp] theorem stopped_queue (q : LockQueue α) : q.stopped.queue = q.queue := rfl
@[simp] theorem stopped_dropped (q : LockQueue α) : q.stopped.dropped = q.dropped := rfl
@[simp] theorem stopped_stop (q : LockQueue α) : q.stopped.stop = true := rfl

theorem push_of_stop {q : LockQueue α} (h : q.stop = true) (msg : α) : q.push msg = q := if_pos h

theorem push_of_running {q : LockQueue α} (h : q.stop = false) (msg : α) :
    ∃ gone rest, q.queue = gone ++ rest ∧ (q.push msg).queue = rest ++ [msg] ∧
      (q.push msg).dropped = q.dropped + gone.length ∧ (q.push msg).stop = false := by
  have hp : q.push msg = { q.evict with queue := q.evict.queue ++ [msg] } := if_neg (by simp [h])
  rw [hp]
  unfold evict
  split
  · rename_i hc
    cases hq : q.queue with
    | nil => simp [hq] at hc
    | cons m rest => exact ⟨[m], rest, rfl, rfl, rfl, h⟩
  · exact ⟨[], q.queue, rfl, rfl, rfl, h⟩

theorem push_queue_ne_nil {q : LockQueue α} (h : q.stop = false) (msg : α) : (q.push msg).queue ≠ [] := by
  obtain ⟨gone, rest, -, hq, -⟩ := push_of_running h msg
  rw [hq]
  exact List.append_ne_nil_of_right_ne_nil rest (List.cons_ne_nil msg [])

theorem shrink_spec (capacity : Nat) (l : List α) (dropped : Nat) :
    ∃ gone, l = gone ++ (shrink capacity l dropped).1 ∧ (shrink capacity l dropped).2 = dropped + gone.length ∧
      (gone ≠ [] → (shrink capacity l dropped).1 ≠ []) := by
  induction l generalizing dropped with
  | nil => exact ⟨[], rfl, rfl, fun h => absurd rfl h⟩
  | cons msg rest ih =>
    rw [shrink]
    split
    · rename_i hc
      obtain ⟨gone, hg, hd, hn⟩ := ih (dropped + 1)
      refine ⟨msg :: gone, congrArg (msg :: ·) hg, by rw [hd, List.length_cons]; omega, fun _ he => ?_⟩
      have hr : gone = [] := by
        by_contra hne
        exact hn hne he
      have hl : rest = [] := by rw [hg, hr, he]; rfl
      simp [hl] at hc
    · exact ⟨[], rfl, rfl, fun h => absurd rfl h⟩

theorem setCapacity_spec (capacity : Nat) (q : LockQueue α) :
    ∃ gone, q.queue = gone ++ (q.setCapacity capacity).queue ∧
      (q.setCapacity capacity).dropped = q.dropped + gone.length ∧
      (gone ≠ [] → (q.setCapacity capacity).queue ≠ []) :=
  shrink_spec capacity q.queue q.dropped

@[simp] theorem setCapacity_stop (capacity : Nat) (q : LockQueue α) : (q.setCapacity capacity).stop = q.stop := rfl

theorem pop_cases {q q' : LockQueue α} {r : Option α} (h : q.pop = some (r, q')) :
    (∃ msg rest, q.queue = msg :: rest ∧ r = some msg ∧ q' = { q with queue := rest }) ∨
      q.queue = [] ∧ q.stop = true ∧ r = none ∧ q' = q := by
  unfold pop at h
  split at h
  · rename_i msg rest hq
    cases h
    exact Or.inl ⟨msg, rest, hq, rfl, rfl⟩
  · rename_i hq
    obtain ⟨hs, h⟩ := Option.ite_none_right_eq_some.mp h
    cases h
    exact Or.inr ⟨hq, hs, rfl, rfl⟩

end LockQueue

end BridgeIM.Logging
