import BridgeIM.Lib.Machine
import BridgeIM.Redis.Link

namespace BridgeIM.Redis.Restart

open Lib

/-- The fields of a `Redis` object: a null context and a descriptor -1 are
`none`, and `listenerThread` is `true` while the thread is joinable. -/
structure Fields where
  publishContext : Option Nat := none
  subscribeContext : Option Nat := none
  wakeupFds : Option Nat × Option Nat := (none, none)
  running : Bool := false
  listenerThread : Bool := false
  commandQueue : List Command := []
  subscribedChannels : Finset Int := ∅
  messageHandler : Bool := false
  deriving DecidableEq

/-- What the steps of a connection give: no context, a context with an error, a
refused `AUTH`, or a context that is ready. -/
inductive Connect
  | null | err | refused | ready
  deriving DecidableEq, Repr

def Connect.context (c : Nat) : Connect → Bool × Option Nat
  | .null => (false, none)
  | .err => (false, some c)
  | .refused => (false, none)
  | .ready => (true, some c)

/-- A field that `start` assigns, with what it held before. -/
inductive Assign
  | publishContext (old : Option Nat)
  | subscribeContext (old : Option Nat)
  | wakeupFds (old : Option Nat × Option Nat)
  | listenerThread (joinable : Bool)
  deriving DecidableEq, Repr

namespace Fields

def initPublishContext (connect : Connect) (c : Nat) (s : Fields) : Bool × Fields :=
  ((connect.context c).1, { s with publishContext := (connect.context c).2 })

def initSubscribeContext (connect : Connect) (c : Nat) (s : Fields) : Bool × Fields :=
  ((connect.context c).1, { s with subscribeContext := (connect.context c).2 })

def reset (s : Fields) : Fields :=
  { s with
    publishContext := none
    subscribeContext := none
    wakeupFds := (none, none)
    commandQueue := []
    subscribedChannels := ∅
    messageHandler := false
    running := false }

end Fields

/-- How a call of `start` goes: whether its handler is empty, and what the steps
of the initialisation give. -/
structure Call where
  handler : Bool := true
  publish : Connect := .ready
  subscribe : Connect := .ready
  pipe : Bool := true
  thread : Bool := true
  deriving DecidableEq, Repr

/-- The object in its process. `listeners` has the subscribe context of every
thread that is in `listenerLoop`, `made` counts the contexts and descriptors that
there have been, and `stopping` is `true` while `stop` waits in `join`. -/
structure Module where
  redis : Fields := {}
  listeners : List Nat := []
  made : Nat := 0
  stopping : Bool := false
  terminated : Bool := false
  deriving DecidableEq

/-- What a call of `start` returns, unless `std::terminate` ends it, and what it
has assigned. -/
structure Started where
  result : Option Bool
  module : Module
  assigns : List Assign

namespace Module

def failed (r : Fields) (made : Nat) (assigns : List Assign) (m : Module) : Started :=
  ⟨some false, { m with redis := r.reset, made := made }, assigns⟩

def start (call : Call) (m : Module) : Started :=
  if m.redis.running then ⟨some false, m, []⟩
  else if call.handler = false then ⟨some false, m, []⟩
  else
    let r := { m.redis with messageHandler := true }
    let assigns := [.publishContext r.publishContext]
    let (ok, r) := r.initPublishContext call.publish m.made
    if ok = false then m.failed r (m.made + 1) assigns
    else
      let assigns := assigns ++ [.subscribeContext r.subscribeContext]
      let (ok, r) := r.initSubscribeContext call.subscribe (m.made + 1)
      if ok = false then m.failed r (m.made + 2) assigns
      else if call.pipe = false then m.failed r (m.made + 2) assigns
      else
        let assigns := assigns ++ [.wakeupFds r.wakeupFds]
        let r := { r with wakeupFds := (some (m.made + 2), some (m.made + 3)), running := true }
        if call.thread = false then m.failed r (m.made + 4) assigns
        else
          let assigns := assigns ++ [.listenerThread r.listenerThread]
          let m' := { m with
            redis := { r with listenerThread := true }
            listeners := m.listeners ++ r.subscribeContext.toList
            made := m.made + 4 }
          -- The assignment to a joinable thread calls `std::terminate`.
          if r.listenerThread then ⟨none, { m' with terminated := true }, assigns⟩
          else ⟨some true, m', assigns⟩

def stop (m : Module) : Module :=
  { m with
    redis := { m.redis with
      commandQueue := m.redis.commandQueue ++ if m.redis.running then [⟨.stop, 0⟩] else [] }
    stopping := true }

def joined (m : Module) : Module := { m with redis := { m.redis with listenerThread := false }.reset, stopping := false }

def ended (m : Module) : Module :=
  { m with redis := { m.redis with running := false }, listeners := m.listeners.tail }

def handlePendingCommands (m : Module) : Module :=
  let m' := { m with redis := { m.redis with commandQueue := [] } }
  if ∃ command ∈ m.redis.commandQueue, command.type = .stop then m'.ended else m'

end Module

inductive Failure
  | poll | read | redisGetReply
  deriving DecidableEq, Repr

/-- A call of `start` or `stop`, the return of its `join`, a call of `subscribe` or
`unsubscribe`, and the steps of the listener. -/
inductive Move
  | start (call : Call)
  | stop
  | join
  | command (command : Command)
  | handlePendingCommands
  | handleRedisReply (subscribedChannels : Finset Int)
  | fail (failure : Failure)
  deriving DecidableEq

def step (m : Module) : Move → Option Module
  | .start call => if m.stopping ∨ m.terminated then none else some (m.start call).module
  | .stop => if m.stopping ∨ m.terminated then none else some m.stop
  | .join => if m.stopping ∧ m.listeners = [] then some m.joined else none
  | .command command =>
    if m.terminated ∨ m.redis.running = false ∨ command.type = .stop then none
    else some { m with redis := { m.redis with commandQueue := m.redis.commandQueue ++ [command] } }
  | .handlePendingCommands => if m.terminated ∨ m.listeners = [] then none else some m.handlePendingCommands
  | .handleRedisReply subscribedChannels =>
    if m.terminated ∨ m.listeners = [] then none
    else some { m with redis := { m.redis with subscribedChannels := subscribedChannels } }
  | .fail _ => if m.terminated ∨ m.listeners = [] then none else some m.ended

def machine : Machine Module Move := ⟨step⟩

/-- A call of `start` overwrites nothing, leaves a new object where it fails, and
otherwise one listener on contexts that are new. -/
structure Clean (m : Module) (s : Started) : Prop where
  thread : .listenerThread true ∉ s.assigns
  contexts : ∀ old, .publishContext old ∈ s.assigns ∨ .subscribeContext old ∈ s.assigns → old = none
  pipe : ∀ old, .wakeupFds old ∈ s.assigns → old = (none, none)
  failed : s.result = some false → m.redis.running = false → s.module.redis = {}
  started : s.result = some true → s.module.redis.running = true ∧ s.module.redis.listenerThread = true ∧
    ∃ p q, s.module.redis.publishContext = some p ∧ s.module.redis.subscribeContext = some q ∧
      m.made ≤ p ∧ m.made ≤ q ∧ p ≠ q ∧ s.module.listeners = [q]

/-- As long as the process goes on, an object without a thread is as new. -/
def Inv (m : Module) : Prop :=
  m.terminated = false → m.redis.listenerThread = false → m.redis = {} ∧ m.listeners = []

variable {m m' : Module} {call : Call}

theorem start_running (h : m.redis.running = true) (call : Call) : m.start call = ⟨some false, m, []⟩ := if_pos h

theorem start_cases (h : m.redis.running = false) (call : Call) :
    ((m.start call).result = some false ∧ ((m.start call).module = m ∨
      (m.start call).module.redis = { listenerThread := m.redis.listenerThread }) ∧
      (m.start call).module.listeners = m.listeners ∧ (m.start call).module.terminated = m.terminated) ∨
    ((m.start call).result = some true ∧ m.redis.listenerThread = false ∧
      (m.start call).module.redis.running = true ∧ (m.start call).module.redis.listenerThread = true ∧
      ∃ p q, (m.start call).module.redis.publishContext = some p ∧
        (m.start call).module.redis.subscribeContext = some q ∧ m.made ≤ p ∧ m.made ≤ q ∧ p ≠ q ∧
        (m.start call).module.listeners = m.listeners ++ [q]) ∨
    ((m.start call).result = none ∧ m.redis.listenerThread = true ∧
      .listenerThread true ∈ (m.start call).assigns ∧ (m.start call).module.terminated = true) := by
  obtain ⟨handler, publish, subscribe, pipe, thread⟩ := call
  obtain ⟨⟨_, _, _, running, joinable, _, _, _⟩, listeners, made, stopping, terminated⟩ := m
  obtain rfl : running = false := h
  cases handler with
  | false => exact Or.inl ⟨rfl, Or.inl rfl, rfl, rfl⟩
  | true =>
    cases publish with
    | null | err | refused => exact Or.inl ⟨rfl, Or.inr rfl, rfl, rfl⟩
    | ready =>
      cases subscribe with
      | null | err | refused => exact Or.inl ⟨rfl, Or.inr rfl, rfl, rfl⟩
      | ready =>
        cases pipe with
        | false => exact Or.inl ⟨rfl, Or.inr rfl, rfl, rfl⟩
        | true =>
          cases thread with
          | false => exact Or.inl ⟨rfl, Or.inr rfl, rfl, rfl⟩
          | true =>
            cases joinable with
            | false =>
              refine Or.inr (Or.inl ⟨rfl, rfl, rfl, rfl, made, made + 1, rfl, rfl, ?_, ?_, ?_, rfl⟩)
              · exact Nat.le_refl made
              · exact Nat.le_succ made
              · exact Nat.ne_of_lt (Nat.lt_succ_self made)
            | true => exact Or.inr (Or.inr ⟨rfl, rfl, List.mem_append_right _ List.mem_cons_self, rfl⟩)

theorem assigns_start (m : Module) (call : Call) : (m.start call).assigns <+: [.publishContext m.redis.publishContext,
    .subscribeContext m.redis.subscribeContext, .wakeupFds m.redis.wakeupFds,
    .listenerThread m.redis.listenerThread] := by
  obtain ⟨handler, publish, subscribe, pipe, thread⟩ := call
  obtain ⟨⟨_, _, _, running, joinable, _, _, _⟩, listeners, made, stopping, terminated⟩ := m
  cases running with
  | true => exact ⟨_, rfl⟩
  | false =>
    cases handler with
    | false => exact ⟨_, rfl⟩
    | true =>
      cases publish with
      | null | err | refused => exact ⟨_, rfl⟩
      | ready =>
        cases subscribe with
        | null | err | refused => exact ⟨_, rfl⟩
        | ready =>
          cases pipe with
          | false => exact ⟨_, rfl⟩
          | true => cases thread <;> cases joinable <;> exact ⟨_, rfl⟩

theorem clean_running (h : m.redis.running = true) (call : Call) : Clean m (m.start call) := by
  rw [start_running h]
  refine ⟨List.not_mem_nil, fun _ ha => ?_, fun _ ha => absurd ha List.not_mem_nil, fun _ hn => ?_, fun hs => ?_⟩
  · obtain ha | ha := ha
    · exact absurd ha List.not_mem_nil
    · exact absurd ha List.not_mem_nil
  · rw [h] at hn
    cases hn
  · cases hs

theorem clean_fresh (hr : m.redis = {}) (hl : m.listeners = []) (call : Call) : Clean m (m.start call) := by
  have hmem := (assigns_start m call).subset
  rw [hr] at hmem
  have hsc := start_cases (m := m) (by rw [hr]) call
  rw [hl, hr] at hsc
  refine ⟨fun ha => ?_, fun old ha => ?_, fun old ha => ?_, fun hf _ => ?_, fun hs => ?_⟩
  · simpa using hmem ha
  · obtain ha | ha := ha
    · simpa using hmem ha
    · simpa using hmem ha
  · simpa using hmem ha
  · obtain ⟨-, hm | hm, -⟩ | ⟨hs, -⟩ | ⟨hs, -⟩ := hsc
    · rw [hm, hr]
    · exact hm
    · rw [hs] at hf
      cases hf
    · rw [hs] at hf
      cases hf
  · obtain ⟨hf, -⟩ | ⟨-, -, hrun, hj, p, q, hp, hq, hp', hq', hne, hlist⟩ | ⟨hf, -⟩ := hsc
    · rw [hf] at hs
      cases hs
    · exact ⟨hrun, hj, p, q, hp, hq, hp', hq', hne, hlist⟩
    · rw [hf] at hs
      cases hs

theorem not_clean (hr : m.redis.running = false) (hj : m.redis.listenerThread = true) (call : Call) :
    ¬ Clean m (m.start call) := by
  intro hc
  obtain ⟨hf, hm, -⟩ | ⟨-, hn, -⟩ | ⟨-, -, ha, -⟩ := start_cases hr call
  · have hnew := hc.failed hf hr
    obtain hm | hm := hm
    · rw [hm] at hnew
      rw [hnew] at hj
      cases hj
    · rw [hm, hj] at hnew
      cases hnew
  · rw [hj] at hn
    cases hn
  · exact hc.thread ha

theorem handlePendingCommands_frame (m : Module) : m.handlePendingCommands.terminated = m.terminated ∧
    m.handlePendingCommands.redis.listenerThread = m.redis.listenerThread := by
  unfold Module.handlePendingCommands
  dsimp only
  split
  · exact ⟨rfl, rfl⟩
  · exact ⟨rfl, rfl⟩

theorem inv_step {a : Move} (hi : Inv m) (h : machine.step m a = some m') : Inv m' := by
  intro ht hj
  cases a with
  | start call =>
    obtain ⟨-, h⟩ := Option.ite_none_left_eq_some.mp h
    cases h
    cases hr : m.redis.running with
    | true =>
      rw [start_running hr] at ht hj ⊢
      exact hi ht hj
    | false =>
      obtain ⟨-, hm, hl, hterm⟩ | ⟨-, -, -, hjoin, -⟩ | ⟨-, -, -, hterm⟩ := start_cases hr call
      · rw [hterm] at ht
        obtain hm | hm := hm
        · rw [hm] at hj ⊢
          exact hi ht hj
        · rw [hm] at hj ⊢
          rw [hl]
          obtain ⟨-, hlist⟩ := hi ht hj
          have hj' : m.redis.listenerThread = false := hj
          rw [hj']
          exact ⟨rfl, hlist⟩
      · rw [hjoin] at hj
        cases hj
      · rw [hterm] at ht
        cases ht
  | stop =>
    obtain ⟨-, h⟩ := Option.ite_none_left_eq_some.mp h
    cases h
    obtain ⟨hr, hl⟩ := hi ht hj
    refine ⟨?_, hl⟩
    simp only [Module.stop, hr]
    rfl
  | join =>
    obtain ⟨hs, h⟩ := Option.ite_none_right_eq_some.mp h
    cases h
    exact ⟨rfl, hs.2⟩
  | command command =>
    obtain ⟨hn, h⟩ := Option.ite_none_left_eq_some.mp h
    cases h
    obtain ⟨hr, -⟩ := hi ht hj
    exact absurd (Or.inr (Or.inl (by rw [hr]))) hn
  | handlePendingCommands =>
    obtain ⟨hn, h⟩ := Option.ite_none_left_eq_some.mp h
    cases h
    obtain ⟨hterm, hjoin⟩ := handlePendingCommands_frame m
    rw [hterm] at ht
    rw [hjoin] at hj
    exact absurd (Or.inr (hi ht hj).2) hn
  | handleRedisReply subscribed | fail failure =>
    obtain ⟨hn, h⟩ := Option.ite_none_left_eq_some.mp h
    cases h
    exact absurd (Or.inr (hi ht hj).2) hn

theorem inv_run {as : List Move} (hr : machine.run {} as = some m) : Inv m :=
  Machine.run_invariant (fun _ _ => ⟨rfl, rfl⟩) (fun _ _ _ hi _ hs => inv_step hi hs) (Machine.meets_true _ as) hr

/-- In every history of calls and of listeners that end, a call of `start` is
clean just when the object runs or has no thread that `stop` has to join. -/
theorem start_clean (as : List Move) (m m' : Module) (hr : machine.run {} as = some m) (call : Call)
    (hs : machine.step m (.start call) = some m') :
    Clean m (m.start call) ↔ m.redis.running = true ∨ m.redis.listenerThread = false := by
  obtain ⟨hn, -⟩ := Option.ite_none_left_eq_some.mp hs
  rw [not_or, Bool.not_eq_true, Bool.not_eq_true] at hn
  constructor
  · intro hc
    by_contra h
    rw [not_or, Bool.not_eq_true, Bool.not_eq_false] at h
    exact not_clean h.1 h.2 call hc
  · intro h
    cases hj : m.redis.listenerThread with
    | true => exact clean_running (h.resolve_right (by rw [hj]; exact Bool.noConfusion)) call
    | false =>
      obtain ⟨hredis, hl⟩ := inv_run hr hn.2 hj
      exact clean_fresh hredis hl call

/-- A failed call, a session that `stop` ends after the listener has failed, and
then a new call. -/
def restarted : List Move :=
  [.start { subscribe := .refused }, .start {}, .command ⟨.subscribe, 1⟩, .fail .poll, .stop, .join]

theorem start_clean_restarted : ∃ m m', machine.run {} restarted = some m ∧ machine.step m (.start {}) = some m' ∧
    Clean m (m.start {}) := by
  obtain ⟨m, m', hm, hm', hj⟩ : ∃ m m', machine.run {} restarted = some m ∧ machine.step m (.start {}) = some m' ∧
      m.redis.listenerThread = false := ⟨_, _, rfl, rfl, rfl⟩
  exact ⟨m, m', hm, hm', (start_clean restarted m m' hm {} hm').mpr (Or.inr hj)⟩

/-- After a failed `poll` the next call overwrites both contexts and the pipe, and
`std::terminate` ends the process. -/
theorem restart_terminates : ¬ ∀ (as : List Move) (m m' : Module), machine.run {} as = some m → ∀ call : Call,
    machine.step m (.start call) = some m' → Clean m (m.start call) := by
  intro h
  obtain ⟨m, m', hm, hm', hr, hj⟩ : ∃ m m', machine.run {} [.start {}, .fail .poll] = some m ∧
      machine.step m (.start {}) = some m' ∧ m.redis.running = false ∧ m.redis.listenerThread = true :=
    ⟨_, _, rfl, rfl, rfl, rfl⟩
  exact not_clean hr hj {} (h _ m m' hm {} hm')

end BridgeIM.Redis.Restart
