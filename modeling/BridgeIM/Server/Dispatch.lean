import BridgeIM.Concurrency.ThreadPool
import BridgeIM.Server.Framing

namespace BridgeIM.Server.Dispatch

open Lib Framing Concurrency.ThreadPool

/-- What a task is made of: a frame with a `msgid`, or a connection that is down. -/
inductive Event (C : Type)
  | frame (conn : C) (msgid : Int) (js : Json)
  | down (conn : C)

abbrev Ticket (C : Type) := Nat × Event C

inductive Outcome
  | returns
  | throws (what : Option String)

variable {C : Type}

namespace Event

def conn : Event C → C
  | frame conn _ _ | down conn => conn

def failure : Event C → String
  | frame .. => "failed to enqueue business task: "
  | down _ => "failed to enqueue client close cleanup task: "

def exception : Event C → String
  | frame .. => "business handler exception: "
  | down _ => "client close cleanup exception: "

def unknown : Event C → String
  | frame .. => "unknown business handler exception\n"
  | down _ => "unknown client close cleanup exception\n"

/-- The lambda that is enqueued calls the handler and logs what it throws. -/
def lambda (e : Event C) : Outcome → Outcome × List String
  | .returns => (.returns, [])
  | .throws (some what) => (.returns, [e.exception ++ what ++ "\n"])
  | .throws none => (.returns, [e.unknown])

end Event

/-- A packaged task keeps what its function throws. -/
def packagedTask : Outcome → Outcome
  | .returns | .throws _ => .returns

/-- The server with its pool. A worker that takes a task calls the handler, so
that the tasks that have been started are those whose handlers have been
invoked. The tickets in `failed` are in the catch block after `enqueue`. -/
structure ChatServer (C : Type) where
  threadPool : Pool (Ticket C) := {}
  tickets : List (Ticket C) := []
  failed : List (Ticket C) := []
  replied : List (Ticket C) := []
  cleaned : List (Ticket C) := []
  sent : List (C × Json) := []
  log : List String := []

inductive Move (C : Type)
  | emplace
  | frame (conn : C) (piece : Bytes)
  | down (conn : C)
  | failed (k : Nat)
  | wake (i : Nat)
  | finish (i : Nat) (o : Outcome)
  | shutdown (byWorker : Bool)

namespace ChatServer

/-- `onMessage` and `onConnection` up to the end of `enqueue`. -/
def enqueue (c : Config) (e : Event C) (s : ChatServer C) : ChatServer C :=
  let ticket := (s.tickets.length, e)
  match s.threadPool.enqueue c ticket with
  | (.ok _, pool) => { s with threadPool := pool, tickets := s.tickets ++ [ticket] }
  | (.error what, pool) =>
    { s with threadPool := pool, tickets := s.tickets ++ [ticket], failed := s.failed ++ [ticket],
             log := s.log ++ [e.failure ++ what ++ "\n"] }

/-- The catch block after `enqueue`: a frame is answered, and the cleanup of a
connection is called where it is. -/
def handleFailed (k : Nat) (s : ChatServer C) : Option (ChatServer C) :=
  match s.failed[k]? with
  | some (n, .frame conn msgid js) =>
    some { s with failed := s.failed.eraseIdx k, replied := s.replied ++ [(n, .frame conn msgid js)],
                  sent := s.sent ++ [(conn, serverBusy)] }
  | some (n, .down conn) => some { s with failed := s.failed.eraseIdx k, cleaned := s.cleaned ++ [(n, .down conn)] }
  | none => none

/-- The handler that worker `i` has called ends. A worker whose task throws
would end the program. -/
def finish (i : Nat) (o : Outcome) (s : ChatServer C) : Option (ChatServer C) :=
  match s.threadPool.workers[i]? with
  | some (.running task) =>
    let (result, log) := task.2.2.lambda o
    match packagedTask result with
    | .returns => (s.threadPool.complete i).map fun pool => { s with threadPool := pool, log := s.log ++ log }
    | .throws _ => none
  | _ => none

def step (parse : Bytes → Option Json) (c : Config) (s : ChatServer C) : Move C → Option (ChatServer C)
  | .emplace => (Concurrency.ThreadPool.step c s.threadPool .emplace).map fun pool => { s with threadPool := pool }
  | .frame conn piece =>
    if s.threadPool.workers.length = c.threadCount then
      match frame parse piece with
      | some (msgid, js) => some (s.enqueue c (.frame conn msgid js))
      | none => some s
    else none
  | .down conn => if s.threadPool.workers.length = c.threadCount then some (s.enqueue c (.down conn)) else none
  | .failed k => s.handleFailed k
  | .wake i => (s.threadPool.wake i).map fun pool => { s with threadPool := pool }
  | .finish i o => s.finish i o
  | .shutdown byWorker =>
    (Concurrency.ThreadPool.step c s.threadPool (.shutdown byWorker)).map fun pool => { s with threadPool := pool }

def accepted (s : ChatServer C) : List (Ticket C) := s.threadPool.accepted.map Prod.snd

def invoked (s : ChatServer C) : List (Ticket C) := s.threadPool.started.map Prod.snd ++ s.cleaned

end ChatServer

def server (parse : Bytes → Option Json) (c : Config) : Machine (ChatServer C) (Move C) := ⟨ChatServer.step parse c⟩

/-- Every ticket is accepted, in the catch block, answered or cleaned up, in one
of these and once. -/
structure Inv (c : Config) (s : ChatServer C) : Prop where
  pool : Concurrency.ThreadPool.Inv c s.threadPool
  places : (s.accepted : Multiset (Ticket C)) + s.failed + s.replied + s.cleaned = s.tickets
  numbers : s.tickets.map Prod.fst = List.range s.tickets.length
  replies : ∀ x ∈ s.replied, ∃ conn msgid js, x.2 = .frame conn msgid js
  cleanups : ∀ x ∈ s.cleaned, ∃ conn, x.2 = .down conn
  answers : s.sent = s.replied.map fun x => (x.2.conn, serverBusy)

variable {parse : Bytes → Option Json} {c : Config} {s s' : ChatServer C}

theorem inv_start : Inv c ({} : ChatServer C) where
  pool := inv_create
  places := rfl
  numbers := rfl
  replies := fun _ hx => absurd hx List.not_mem_nil
  cleanups := fun _ hx => absurd hx List.not_mem_nil
  answers := rfl

theorem Inv.withPool (h : Inv c s) {pool : Pool (Ticket C)} (hp : Concurrency.ThreadPool.Inv c pool)
    (ha : pool.accepted = s.threadPool.accepted) (log : List String) :
    Inv c { s with threadPool := pool, log := log } where
  pool := hp
  places := by
    rw [ChatServer.accepted, ha]
    exact h.places
  numbers := h.numbers
  replies := h.replies
  cleanups := h.cleanups
  answers := h.answers

theorem enqueue_event (c : Config) (e : Event C) (s : ChatServer C) :
    (∃ log, s.enqueue c e = { s with
      tickets := s.tickets ++ [(s.tickets.length, e)], failed := s.failed ++ [(s.tickets.length, e)], log := log }) ∨
    s.enqueue c e = { s with
      threadPool := (s.threadPool.enqueue c (s.tickets.length, e)).2, tickets := s.tickets ++ [(s.tickets.length, e)] } ∧
      (s.threadPool.enqueue c (s.tickets.length, e)).2.accepted =
        s.threadPool.accepted ++ [(s.threadPool.accepted.length, s.tickets.length, e)] := by
  unfold ChatServer.enqueue
  dsimp only
  obtain ⟨hs, what, he⟩ | ⟨-, -, hok, hs⟩ := enqueue_cases c (s.tickets.length, e) s.threadPool
  · rw [show s.threadPool.enqueue c (s.tickets.length, e) = (.error what, s.threadPool) from Prod.ext he hs]
    exact Or.inl ⟨_, rfl⟩
  · rw [show s.threadPool.enqueue c (s.tickets.length, e) = (.ok _, _) from Prod.ext hok hs]
    exact Or.inr ⟨rfl, rfl⟩

theorem inv_enqueue (h : Inv c s) (hw : s.threadPool.workers.length = c.threadCount) (e : Event C) :
    Inv c (s.enqueue c e) := by
  have hn : (s.tickets ++ [(s.tickets.length, e)]).map Prod.fst =
      List.range (s.tickets ++ [(s.tickets.length, e)]).length := by
    rw [List.map_append, h.numbers, List.length_append, List.length_singleton, List.range_succ]
    rfl
  have hpl := h.places
  obtain ⟨log, hs⟩ | ⟨hs, ha⟩ := enqueue_event c e s
  · rw [hs]
    refine ⟨h.pool, ?_, hn, h.replies, h.cleanups, h.answers⟩
    rw [← Multiset.coe_add, ← Multiset.coe_add, ← hpl, ChatServer.accepted, ChatServer.accepted]
    abel
  · rw [hs]
    refine ⟨Concurrency.ThreadPool.inv_step h.pool (a := .enqueue (s.tickets.length, e)) (if_pos hw), ?_, hn, h.replies,
      h.cleanups, h.answers⟩
    rw [ChatServer.accepted, ha, List.map_append, ← Multiset.coe_add, ← Multiset.coe_add, ← hpl, ChatServer.accepted]
    simp only [List.map_cons, List.map_nil]
    abel

theorem coe_eraseIdx {α : Type} {xs : List α} {k : Nat} {x : α} (h : xs[k]? = some x) :
    (xs.eraseIdx k : Multiset α) + {x} = xs := by
  obtain ⟨hk, rfl⟩ := List.getElem?_eq_some_iff.mp h
  rw [← Multiset.coe_singleton, Multiset.coe_add, Multiset.coe_eq_coe]
  exact (List.perm_append_singleton _ _).trans (List.getElem_cons_eraseIdx_perm hk)

theorem inv_handleFailed (h : Inv c s) {k : Nat} (hs : s.handleFailed k = some s') : Inv c s' := by
  have hpl := h.places
  unfold ChatServer.handleFailed at hs
  split at hs
  · rename_i n conn msgid js hk
    rw [← Option.some.inj hs]
    refine ⟨h.pool, ?_, h.numbers, ?_, h.cleanups, ?_⟩
    · rw [← coe_eraseIdx hk] at hpl
      rw [← Multiset.coe_add, ← hpl, Multiset.coe_singleton, ChatServer.accepted, ChatServer.accepted]
      abel
    · intro x hx
      obtain hx | hx := List.mem_append.mp hx
      · exact h.replies x hx
      · rw [List.mem_singleton.mp hx]
        exact ⟨conn, msgid, js, rfl⟩
    · rw [h.answers, List.map_append]
      rfl
  · rename_i n conn hk
    rw [← Option.some.inj hs]
    refine ⟨h.pool, ?_, h.numbers, h.replies, ?_, h.answers⟩
    · rw [← coe_eraseIdx hk] at hpl
      rw [← Multiset.coe_add, ← hpl, Multiset.coe_singleton, ChatServer.accepted, ChatServer.accepted]
      abel
    · intro x hx
      obtain hx | hx := List.mem_append.mp hx
      · exact h.cleanups x hx
      · rw [List.mem_singleton.mp hx]
        exact ⟨conn, rfl⟩
  · cases hs

theorem finish_cases {i : Nat} {o : Outcome} (hs : s.finish i o = some s') : ∃ task pool,
    s.threadPool.workers[i]? = some (.running task) ∧ s.threadPool.complete i = some pool ∧
      s' = { s with threadPool := pool, log := s.log ++ (task.2.2.lambda o).2 } := by
  unfold ChatServer.finish at hs
  split at hs
  · rename_i task hw
    dsimp only at hs
    split at hs
    · obtain ⟨pool, hp, rfl⟩ := Option.map_eq_some_iff.mp hs
      exact ⟨task, pool, hw, hp, rfl⟩
    · cases hs
  · cases hs

theorem inv_step (h : Inv c s) {m : Move C} (hs : s.step parse c m = some s') : Inv c s' := by
  cases m with
  | emplace =>
    obtain ⟨pool, hp, rfl⟩ := Option.map_eq_some_iff.mp hs
    refine h.withPool (Concurrency.ThreadPool.inv_step h.pool hp) ?_ s.log
    obtain ⟨_, hp⟩ := Option.ite_none_right_eq_some.mp hp
    cases hp
    rfl
  | frame conn piece =>
    obtain ⟨hw, hs⟩ := Option.ite_none_right_eq_some.mp hs
    split at hs
    · rw [← Option.some.inj hs]
      exact inv_enqueue h hw _
    · rwa [← Option.some.inj hs]
  | down conn =>
    obtain ⟨hw, hs⟩ := Option.ite_none_right_eq_some.mp hs
    rw [← Option.some.inj hs]
    exact inv_enqueue h hw _
  | failed k => exact inv_handleFailed h hs
  | wake i =>
    obtain ⟨pool, hp, rfl⟩ := Option.map_eq_some_iff.mp hs
    refine h.withPool (Concurrency.ThreadPool.inv_step h.pool (a := .wake i) hp) ?_ s.log
    obtain ⟨_, ⟨_, _, rfl⟩ | ⟨_, _, _, rfl⟩⟩ := wake_cases hp
    · rfl
    · rfl
  | finish i o =>
    obtain ⟨task, pool, _, hp, rfl⟩ := finish_cases hs
    refine h.withPool (Concurrency.ThreadPool.inv_step h.pool (a := .complete i) hp) ?_ _
    obtain ⟨_, _, rfl⟩ := complete_cases hp
    rfl
  | shutdown byWorker =>
    obtain ⟨pool, hp, rfl⟩ := Option.map_eq_some_iff.mp hs
    refine h.withPool (Concurrency.ThreadPool.inv_step h.pool hp) ?_ s.log
    obtain ⟨_, hp⟩ := Option.ite_none_right_eq_some.mp hp
    cases hp
    obtain hp | hp := shutdown_cases byWorker s.threadPool
    · rw [hp]
    · rw [hp]

def times (xs : List (Ticket C)) (x : Ticket C) : Nat := (xs.map Prod.fst).count x.1

/-- The pool has accepted the event: its handler is invoked at most once, once
when the queue is empty, and it is not answered. -/
structure Accepted (s : ChatServer C) (x : Ticket C) : Prop where
  accepted : times s.accepted x = 1
  invoked : times s.invoked x ≤ 1
  drained : s.threadPool.tasks = [] → times s.invoked x = 1
  silent : times s.replied x = 0 ∧ times s.failed x = 0

/-- The pool has refused the frame: its handler is never invoked, and it is
answered once when its catch block is over, not before. -/
structure Refused (s : ChatServer C) (x : Ticket C) : Prop where
  accepted : times s.accepted x = 0
  invoked : times s.invoked x = 0
  pending : times s.failed x ≤ 1
  replied : times s.replied x = 1 - times s.failed x

structure CaughtUp (s t : ChatServer C) (x : Ticket C) : Prop where
  caught : times s.failed x = 1 ∧ times t.failed x = 0
  answered : ∀ conn msgid js, x.2 = .frame conn msgid js →
    times t.replied x = 1 ∧ times t.invoked x = 0 ∧ t.sent = s.sent ++ [(conn, serverBusy)]
  cleaned : ∀ conn, x.2 = .down conn → times t.invoked x = 1 ∧ t.sent = s.sent
  others : ∀ y, y.1 ≠ x.1 →
    times t.failed y = times s.failed y ∧ times t.replied y = times s.replied y ∧ times t.invoked y = times s.invoked y

theorem times_append (xs ys : List (Ticket C)) (x : Ticket C) : times (xs ++ ys) x = times xs x + times ys x := by
  rw [times, List.map_append, List.count_append, times, times]

theorem times_places (h : Inv c s) {x : Ticket C} (hx : x ∈ s.tickets) :
    times s.accepted x + times s.failed x + times s.replied x + times s.cleaned x = 1 := by
  have hp := congrArg (fun m : Multiset (Ticket C) => (m.map Prod.fst).count x.1) h.places
  simp only [Multiset.map_add, Multiset.count_add, Multiset.map_coe, Multiset.coe_count] at hp
  rw [times, times, times, times, hp, h.numbers]
  refine List.count_eq_one_of_mem List.nodup_range ?_
  rw [← h.numbers]
  exact List.mem_map_of_mem hx

theorem times_started (h : Inv c s) (x : Ticket C) :
    times s.invoked x + times (s.threadPool.tasks.map Prod.snd) x = times s.accepted x + times s.cleaned x := by
  rw [ChatServer.invoked, ChatServer.accepted, ← h.pool.order, List.map_append, times_append, times_append]
  omega

theorem failed_step (h : Inv c s) (parse : Bytes → Option Json) {k : Nat} {x : Ticket C} (hk : s.failed[k]? = some x) :
    ∃ t, s.step parse c (.failed k) = some t ∧ CaughtUp s t x := by
  have hx : x ∈ s.failed := List.mem_of_getElem? hk
  have hxt : x ∈ s.tickets := by
    rw [← Multiset.mem_coe, ← h.places]
    simp only [Multiset.mem_add, Multiset.mem_coe]
    exact Or.inl (Or.inl (Or.inr hx))
  have hp := times_places h hxt
  have hst := times_started h x
  have hf : times s.failed x ≠ 0 := (List.count_pos_iff.mpr (List.mem_map_of_mem hx)).ne'
  have herase (y : Ticket C) : times (s.failed.eraseIdx k) y + times [x] y = times s.failed y := by
    have hm := congrArg (fun m : Multiset (Ticket C) => (m.map Prod.fst).count y.1) (coe_eraseIdx hk)
    simpa only [Multiset.map_add, Multiset.count_add, Multiset.map_coe, Multiset.coe_count, Multiset.map_singleton,
      times, List.map_cons, List.map_nil, ← Multiset.coe_singleton] using hm
  have hself : times [x] x = 1 := List.count_singleton_self
  have hone : times s.failed x = 1 := by omega
  have hgone : times (s.failed.eraseIdx k) x = 0 := by
    have he := herase x
    omega
  have hkeep {y : Ticket C} (hy : y.1 ≠ x.1) : times [x] y = 0 ∧ times (s.failed.eraseIdx k) y = times s.failed y := by
    have he := herase y
    have hz : times [x] y = 0 := List.count_eq_zero_of_not_mem fun hm => hy (List.mem_singleton.mp hm)
    exact ⟨hz, by omega⟩
  rw [ChatServer.step, ChatServer.handleFailed, hk]
  obtain ⟨n, e⟩ := x
  cases e with
  | frame conn msgid js =>
    refine ⟨_, rfl, ⟨⟨hone, hgone⟩, ?_, (fun _ h => by cases h), fun y hy => ⟨(hkeep hy).2, ?_, rfl⟩⟩⟩
    · rintro _ _ _ ⟨⟩
      refine ⟨?_, ?_, rfl⟩
      · rw [times_append]
        omega
      · change times s.invoked _ = 0
        omega
    · rw [times_append, (hkeep hy).1, Nat.add_zero]
  | down conn =>
    have hinvoked (y : Ticket C) : times (s.threadPool.started.map Prod.snd ++ (s.cleaned ++ [(n, .down conn)])) y =
        times s.invoked y + times [(n, .down conn)] y := by
      rw [ChatServer.invoked, ← List.append_assoc, times_append]
    refine ⟨_, rfl, ⟨⟨hone, hgone⟩, (fun _ _ _ h => by cases h), ?_, fun y hy => ⟨(hkeep hy).2, rfl, ?_⟩⟩⟩
    · rintro _ ⟨⟩
      refine ⟨(hinvoked _).trans ?_, rfl⟩
      omega
    · exact (hinvoked y).trans (by rw [(hkeep hy).1, Nat.add_zero])

/-- One worker and room for one task: a frame that throws, one that waits, one
that is refused, and a connection whose cleanup is refused. -/
def crowded : List (Move Bool) :=
  [.emplace, .frame false (ascii "\x7b\"msgid\":3\x7d"), .wake 0, .frame true (ascii "\x7b\"msgid\":3\x7d"),
    .frame false (ascii "\x7b\"msgid\":3\x7d"), .down true, .failed 1, .finish 0 (.throws none), .wake 0, .failed 0]

end BridgeIM.Server.Dispatch
