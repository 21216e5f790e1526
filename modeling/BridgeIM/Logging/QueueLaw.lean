import BridgeIM.Lib.Machine
import BridgeIM.Logging.LockQueue

namespace BridgeIM.Logging.QueueLaw

open Lib

variable {α : Type}

inductive Operation (α : Type)
  | push (msg : α)
  | pop
  | setCapacity (capacity : Nat)
  | stop
  deriving DecidableEq, Repr

/-- A queue with the messages pushed before `Stop`, the messages popped and the
number of those that have left the queue otherwise. -/
structure Ledger (α : Type) where
  queue : LockQueue α
  accepted : List α := []
  popped : List α := []
  lost : Nat := 0
  deriving DecidableEq, Repr

/-- What the operations of all threads do, one after the other as the mutex lets
them through. A `Pop` that waits makes no move. -/
def ledger : Machine (Ledger α) (Operation α) where
  step s
    | .push msg => some (if s.queue.stop then { s with queue := s.queue.push msg } else
        { s with queue := s.queue.push msg, accepted := s.accepted ++ [msg],
                 lost := s.lost + (s.queue.queue.length + 1 - (s.queue.push msg).queue.length) })
    | .pop => s.queue.pop.map fun r => { s with queue := r.2, popped := s.popped ++ r.1.toList }
    | .setCapacity capacity => some { s with
        queue := s.queue.setCapacity capacity,
        lost := s.lost + (s.queue.queue.length - (s.queue.setCapacity capacity).queue.length) }
    | .stop => some { s with queue := s.queue.stopped }

def empty (capacity : Nat) : Ledger α := { queue := { capacity := capacity } }

/-- Messages leave the queue from its front only. -/
structure Kept (s : Ledger α) : Prop where
  order : (s.popped ++ s.queue.queue).Sublist s.accepted
  suffix : s.queue.queue <:+ s.accepted
  count : s.popped.length + s.lost + s.queue.queue.length = s.accepted.length
  dropped : s.queue.dropped = s.lost
  bounded : s.queue.capacity ≠ 0 → s.queue.queue.length ≤ s.queue.capacity

variable {s t : Ledger α}

def crowded : List (Operation Nat) :=
  [.push 1, .push 2, .push 3, .pop, .push 4, .setCapacity 1, .stop, .push 5, .setCapacity 0]

end BridgeIM.Logging.QueueLaw
