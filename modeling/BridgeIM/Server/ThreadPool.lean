import BridgeIM.Server.ChatService
import BridgeIM.Server.Run

namespace BridgeIM.Server.ThreadPool

open Lib Model ChatService
open RequestHandlers (Engines)

structure Config where
  threadCount : Nat := 4
  maxQueueSize : Nat := 10000

/-- One `ChatServer` with its pool. A task has the number under which `enqueue`
accepted it: `tasks` holds the numbers of those that wait, and `taken` pairs
those that a worker has taken with their threads. `log` holds the calls of the
handlers, each with its thread. -/
structure Pool where
  service : Run Unit
  accepted : List (Arrival Unit) := []
  tasks : List Nat := []
  taken : List (Nat × Nat) := []
  log : List (Nat × ServiceCall Unit) := []

inductive Move
  | arrive (task : Arrival Unit)
  | take
  | run (tid : Nat) (o : Chance)
  | start (task : Arrival Unit)

/-- `onMessage` enqueues frames, and `onConnection` enqueues the cleanup of a
closed connection. -/
def pooled : Arrival Unit → Bool
  | .frame .. | .closed _ => true
  | _ => false

/-- The Redis listener and the reset have threads of their own. -/
def separate : Arrival Unit → Bool
  | .listen .. | .reset => true
  | _ => false

def isRet : Service Unit → Bool
  | .ret _ => true
  | .call .. => false

def finished (r : Run Unit) (tid : Nat) : Bool := (r.threads[tid]?).all isRet

namespace Pool

def spawn (task : Arrival Unit) (s : Pool) : Pool :=
  { s with service := { s.service with threads := s.service.threads ++ [task.program] } }

def busy (s : Pool) : Nat := (s.taken.filter (fun x => !finished s.service x.2)).length

def enqueue (c : Config) (task : Arrival Unit) (s : Pool) : Option Pool :=
  if s.tasks.length < c.maxQueueSize then
    some { s with accepted := s.accepted ++ [task], tasks := s.tasks ++ [s.accepted.length] }
  else none

/-- A task arrives. When the pool is full a frame is answered as refused, and the
cleanup of a connection runs where it is. -/
def arrive (c : Config) (task : Arrival Unit) (s : Pool) : Pool :=
  (s.enqueue c task).getD (match task with
    | .frame conn js => s.spawn (.refused conn js)
    | task => s.spawn task)

def take (c : Config) (s : Pool) : Option Pool :=
  match s.tasks with
  | [] => none
  | k :: rest =>
    if s.busy < c.threadCount then
      (s.accepted[k]?).map fun task =>
        { s.spawn task with tasks := rest, taken := s.taken ++ [(k, s.service.threads.length)] }
    else none

def run (E : Engines) (tid : Nat) (o : Chance) (s : Pool) : Option Pool :=
  (s.service.nextCall tid).bind fun op =>
    ((ChatService.service E).step s.service (.step tid o)).map fun r =>
      { s with service := r, log := s.log ++ [(tid, op)] }

end Pool

def step (E : Engines) (c : Config) (s : Pool) : Move → Option Pool
  | .arrive task => if pooled task then some (s.arrive c task) else none
  | .take => s.take c
  | .run tid o => s.run E tid o
  | .start task => if separate task then some (s.spawn task) else none

def server (E : Engines) (c : Config) : Machine Pool Move := ⟨step E c⟩

/-- A frame is taken after every frame of its connection that came before it. -/
def StartedInOrder (s : Pool) : Prop :=
  ∀ i j conn f g, i < j → s.accepted[i]? = some (.frame conn f) → s.accepted[j]? = some (.frame conn g) →
    ∀ tj, (j, tj) ∈ s.taken → ∃ ti, (i, ti) ∈ s.taken ∧ ti < tj

/-- All calls of the handler of a frame come before those of the handlers of the
later frames of its connection. -/
def InOrder (s : Pool) : Prop :=
  ∀ i j conn f g, i < j → s.accepted[i]? = some (.frame conn f) → s.accepted[j]? = some (.frame conn g) →
    ∀ tj, (j, tj) ∈ s.taken → ∃ ti, (i, ti) ∈ s.taken ∧
      ∀ l₁ op l₂, s.log = l₁ ++ (tj, op) :: l₂ → ∀ op', (ti, op') ∉ l₂

def written : ServiceCall Unit → Option (Conn Unit × String)
  | .send conn text => some (conn, text)
  | _ => none

def sends (s : Pool) : List (Nat × Conn Unit × String) :=
  s.log.filterMap fun x => (written x.2).map fun y => (x.1, y)

/-- What the handler of a frame sends comes before what those of the later frames
of its connection send. -/
def SentInOrder (s : Pool) : Prop :=
  ∀ i j conn f g, i < j → s.accepted[i]? = some (.frame conn f) → s.accepted[j]? = some (.frame conn g) →
    ∀ ti tj, (i, ti) ∈ s.taken → (j, tj) ∈ s.taken → ∀ l₁ x l₂, sends s = l₁ ++ (tj, x) :: l₂ → ∀ y, (ti, y) ∉ l₂

variable {E : Engines} {c : Config} {s s' : Pool}

inductive Moved (E : Engines) (s s' : Pool) : Prop
  | same (hs : s'.service = s.service) (hl : s'.log = s.log)
  | spawn (task : Arrival Unit) (hs : s'.service = (s.spawn task).service) (hl : s'.log = s.log)
  | call (tid : Nat) (o : Chance) (op : ServiceCall Unit) (next : op.Value → Service Unit)
      (ht : s.service.threads[tid]? = some (.call op next))
      (hs : s'.service.threads = s.service.threads.set tid (next (op.exec E o s.service.state).1))
      (hl : s'.log = s.log ++ [(tid, op)])

theorem run_cases {tid : Nat} {o : Chance} (h : s.run E tid o = some s') :
    Moved E s s' ∧ s'.accepted = s.accepted ∧ s'.tasks = s.tasks ∧ s'.taken = s.taken := by
  obtain ⟨op, hop, h⟩ := Option.bind_eq_some_iff.mp h
  obtain ⟨r, hr, rfl⟩ := Option.map_eq_some_iff.mp h
  obtain ⟨next, ht⟩ := Threads.nextCall_eq_some hop
  refine ⟨?_, rfl, rfl, rfl⟩
  obtain ⟨q, ha, -⟩ | ⟨i, o', op', next', ha, -, ht', rfl⟩ := Threads.step_cases hr
  · cases ha
  · cases ha
    cases ht.symm.trans ht'
    exact .call tid o op next ht rfl rfl

theorem move_cases {a : Move} (h : step E c s a = some s') :
    Moved E s s' ∧ s'.accepted = s.accepted ∧ s'.tasks = s.tasks ∧ s'.taken = s.taken ∨
    (∃ task, s'.service = s.service ∧ s'.log = s.log ∧ s'.accepted = s.accepted ++ [task] ∧
      s'.tasks = s.tasks ++ [s.accepted.length] ∧ s'.taken = s.taken) ∨
    ∃ k task, s.tasks = k :: s'.tasks ∧ s.busy < c.threadCount ∧ s'.service = (s.spawn task).service ∧
      s'.log = s.log ∧ s'.accepted = s.accepted ∧ s'.taken = s.taken ++ [(k, s.service.threads.length)] := by
  cases a with
  | arrive task =>
    obtain ⟨hp, h⟩ := Option.ite_none_right_eq_some.mp h
    cases h
    unfold Pool.arrive Pool.enqueue
    split
    · exact Or.inr (Or.inl ⟨task, rfl, rfl, rfl, rfl, rfl⟩)
    · rw [Option.getD_none]
      split
      · exact Or.inl ⟨.spawn _ rfl rfl, rfl, rfl, rfl⟩
      · exact Or.inl ⟨.spawn _ rfl rfl, rfl, rfl, rfl⟩
  | take =>
    simp only [step, Pool.take] at h
    split at h
    · cases h
    · rename_i k rest htasks
      obtain ⟨hbusy, h⟩ := Option.ite_none_right_eq_some.mp h
      obtain ⟨task, -, rfl⟩ := Option.map_eq_some_iff.mp h
      exact Or.inr (Or.inr ⟨k, task, htasks, hbusy, rfl, rfl, rfl, rfl⟩)
  | run tid o => exact Or.inl (run_cases h)
  | start task =>
    obtain ⟨-, h⟩ := Option.ite_none_right_eq_some.mp h
    cases h
    exact Or.inl ⟨.spawn _ rfl rfl, rfl, rfl, rfl⟩

theorem length_moved (h : Moved E s s') : s.service.threads.length ≤ s'.service.threads.length := by
  cases h with
  | same hs => rw [hs]
  | spawn task hs =>
    rw [hs, Pool.spawn, List.length_append]
    exact Nat.le_add_right _ _
  | call tid o op next ht hs => rw [hs, List.length_set]

theorem known_moved (h : Moved E s s') (hk : ∀ x ∈ s.log, x.1 < s.service.threads.length) :
    ∀ x ∈ s'.log, x.1 < s'.service.threads.length := by
  intro x hx
  refine Nat.lt_of_lt_of_le ?_ (length_moved h)
  cases h with
  | same hs hl | spawn task hs hl => exact hk x (hl ▸ hx)
  | call tid o op next ht hs hl =>
    rw [hl, List.mem_append, List.mem_singleton] at hx
    obtain hx | rfl := hx
    · exact hk x hx
    · exact (List.getElem?_eq_some_iff.mp ht).1

theorem ne_of_finished {i j : Nat} {op : ServiceCall Unit} {next : op.Value → Service Unit}
    (hf : finished s.service j = true) (ht : s.service.threads[i]? = some (.call op next)) : i ≠ j := by
  rintro rfl
  rw [finished, ht] at hf
  cases hf

theorem finished_moved (h : Moved E s s') {tid : Nat} (hlt : tid < s.service.threads.length)
    (hf : finished s.service tid = true) : finished s'.service tid = true := by
  cases h with
  | same hs => rwa [hs]
  | spawn task hs =>
    rw [finished, hs, Pool.spawn, List.getElem?_append_left hlt]
    exact hf
  | call i o op next ht hs =>
    rw [finished, hs, List.getElem?_set_ne (ne_of_finished hf ht)]
    exact hf

/-- No call of thread `i` comes after one of thread `j`. -/
def Before (log : List (Nat × ServiceCall Unit)) (i j : Nat) : Prop :=
  ∀ l₁ op l₂, log = l₁ ++ (j, op) :: l₂ → ∀ op', (i, op') ∉ l₂

theorem before_moved (h : Moved E s s') {i j : Nat} (hf : finished s.service i = true) (hb : Before s.log i j) :
    Before s'.log i j := by
  cases h with
  | same hs hl | spawn task hs hl => rwa [hl]
  | call tid o op next ht hs hlog =>
    intro l₁ op₁ l₂ hl op' hop
    rw [hlog] at hl
    obtain rfl | ⟨l₂, x, rfl⟩ := List.eq_nil_or_concat l₂
    · cases hop
    · rw [List.concat_eq_append, ← List.cons_append, ← List.append_assoc] at hl
      obtain ⟨hl, hx⟩ := List.append_inj' hl rfl
      rw [List.concat_eq_append, List.mem_append, List.mem_singleton] at hop
      obtain hop | rfl := hop
      · exact hb l₁ op₁ l₂ hl op' hop
      · cases hx
        exact ne_of_finished hf ht rfl

structure Inv (s : Pool) : Prop where
  known : ∀ x ∈ s.log, x.1 < s.service.threads.length
  numbers : s.taken.map Prod.fst ++ s.tasks = List.range s.accepted.length
  threads : ∀ x ∈ s.taken, x.2 < s.service.threads.length
  started : s.taken.Pairwise (fun x y => x.2 < y.2)

structure Single (s : Pool) : Prop where
  finished : s.taken.Pairwise (fun x _ => finished s.service x.2 = true)
  before : s.taken.Pairwise (fun x y => Before s.log x.2 y.2)

theorem inv_step (h : Inv s) {a : Move} (hs : step E c s a = some s') : Inv s' := by
  obtain ⟨hm, ha, ht, hk⟩ | ⟨task, hsame, hl, ha, ht, hk⟩ | ⟨k, task, ht, -, hspawn, hl, ha, hk⟩ := move_cases hs
  · refine ⟨known_moved hm h.known, ?_, ?_, hk ▸ h.started⟩
    · rw [ha, ht, hk]
      exact h.numbers
    · rw [hk]
      exact fun x hx => (h.threads x hx).trans_le (length_moved hm)
  · refine ⟨?_, ?_, ?_, hk ▸ h.started⟩
    · rw [hl, hsame]
      exact h.known
    · rw [ha, ht, hk, ← List.append_assoc, h.numbers, List.length_append, List.length_singleton, List.range_succ]
    · rw [hk, hsame]
      exact h.threads
  · have hm : Moved E s s' := .spawn task hspawn hl
    refine ⟨known_moved hm h.known, ?_, ?_, ?_⟩
    · rw [ha, hk, List.map_append, List.append_assoc]
      have hn := h.numbers
      rw [ht] at hn
      exact hn
    · rw [hk]
      intro x hx
      obtain hx | hx := List.mem_append.mp hx
      · exact (h.threads x hx).trans_le (length_moved hm)
      · rw [List.mem_singleton.mp hx, hspawn, Pool.spawn, List.length_append]
        exact Nat.lt_succ_self _
    · rw [hk, List.pairwise_append]
      refine ⟨h.started, List.pairwise_singleton _ _, fun x hx y hy => ?_⟩
      rw [List.mem_singleton.mp hy]
      exact h.threads x hx

theorem finished_of_busy (hbusy : s.busy < 1) : ∀ x ∈ s.taken, finished s.service x.2 = true := by
  have h0 : s.busy = 0 := by omega
  rw [Pool.busy, List.length_eq_zero_iff, List.filter_eq_nil_iff] at h0
  intro x hx
  have hx' := h0 x hx
  simpa using hx'

theorem single_moved (h : Inv s) (hsg : Single s) (hm : Moved E s s') :
    s.taken.Pairwise (fun x _ => finished s'.service x.2 = true) ∧
      s.taken.Pairwise (fun x y => Before s'.log x.2 y.2) := by
  constructor
  · exact hsg.finished.imp_of_mem fun hx _ hf => finished_moved hm (h.threads _ hx) hf
  · exact (hsg.finished.and hsg.before).imp fun hf => before_moved hm hf.1 hf.2

theorem single_step (hc : c.threadCount = 1) (h : Inv s) (hsg : Single s) {a : Move}
    (hs : step E c s a = some s') : Single s' := by
  obtain ⟨hm, -, -, hk⟩ | ⟨task, hsame, hl, -, -, hk⟩ | ⟨k, task, -, hbusy, hspawn, hl, -, hk⟩ := move_cases hs
  · obtain ⟨hf, hb⟩ := single_moved h hsg hm
    exact ⟨hk ▸ hf, hk ▸ hb⟩
  · obtain ⟨hf, hb⟩ := single_moved h hsg (.same (E := E) hsame hl)
    exact ⟨hk ▸ hf, hk ▸ hb⟩
  · have hm : Moved E s s' := .spawn task hspawn hl
    have hall := finished_of_busy (hc ▸ hbusy)
    obtain ⟨hf, hb⟩ := single_moved h hsg hm
    constructor
    · rw [hk, List.pairwise_append]
      exact ⟨hf, List.pairwise_singleton _ _, fun x hx y _ => finished_moved hm (h.threads x hx) (hall x hx)⟩
    · rw [hk, List.pairwise_append]
      refine ⟨hb, List.pairwise_singleton _ _, fun x hx y hy => ?_⟩
      rw [List.mem_singleton.mp hy]
      intro l₁ op l₂ hlog
      have hmem : (s.service.threads.length, op) ∈ s.log := by
        rw [← hl, hlog]
        exact List.mem_append_right _ List.mem_cons_self
      exact absurd (h.known _ hmem) (Nat.lt_irrefl _)

theorem Inv.sorted (h : Inv s) : (s.taken.map Prod.fst ++ s.tasks).Pairwise (· < ·) := by
  rw [h.numbers]
  exact List.pairwise_lt_range

/-- Of two accepted tasks the later one is taken only after the earlier one. -/
theorem taken_of_lt (h : Inv s) {i j tj : Nat} (hij : i < j) (hj : (j, tj) ∈ s.taken) : ∃ ti, (i, ti) ∈ s.taken := by
  have hjm : j ∈ s.taken.map Prod.fst := List.mem_map.mpr ⟨_, hj, rfl⟩
  have hj' : j < s.accepted.length := by
    rw [← List.mem_range, ← h.numbers]
    exact List.mem_append_left _ hjm
  have hi : i ∈ s.taken.map Prod.fst ++ s.tasks := by
    rw [h.numbers, List.mem_range]
    omega
  obtain hi | hi := List.mem_append.mp hi
  · obtain ⟨x, hx, rfl⟩ := List.mem_map.mp hi
    exact ⟨x.2, hx⟩
  · have hlt := (List.pairwise_append.mp h.sorted).2.2 j hjm i hi
    omega

theorem rel_of_lt {R : Nat × Nat → Nat × Nat → Prop} (h : Inv s) (hR : s.taken.Pairwise R) {i j ti tj : Nat}
    (hij : i < j) (hi : (i, ti) ∈ s.taken) (hj : (j, tj) ∈ s.taken) : R (i, ti) (j, tj) := by
  have hfst : s.taken.Pairwise (fun x y => x.1 < y.1) :=
    List.pairwise_map.mp (List.pairwise_append.mp h.sorted).1
  obtain ⟨p, hp, hpi⟩ := List.getElem_of_mem hi
  obtain ⟨q, hq, hqj⟩ := List.getElem_of_mem hj
  rw [List.pairwise_iff_getElem] at hR hfst
  obtain hlt | rfl | hgt := Nat.lt_trichotomy p q
  · have hr := hR p q hp hq hlt
    rwa [hpi, hqj] at hr
  · rw [hpi] at hqj
    cases hqj
    omega
  · have hr := hfst q p hq hp hgt
    rw [hpi, hqj] at hr
    exact absurd hr (Nat.lt_asymm hij)

structure Pool.Fresh (s : Pool) : Prop where
  threads : s.service.threads = []
  accepted : s.accepted = []
  tasks : s.tasks = []
  taken : s.taken = []
  log : s.log = []

theorem inv_fresh (h : s.Fresh) : Inv s := by
  refine ⟨?_, ?_, ?_, ?_⟩
  · rw [h.log]
    exact fun _ hx => absurd hx List.not_mem_nil
  · rw [h.accepted, h.tasks, h.taken]
    rfl
  · rw [h.taken]
    exact fun _ hx => absurd hx List.not_mem_nil
  · rw [h.taken]
    exact List.Pairwise.nil

theorem single_fresh (h : s.Fresh) : Single s := by
  constructor
  · rw [h.taken]
    exact List.Pairwise.nil
  · rw [h.taken]
    exact List.Pairwise.nil

/-- The pool starts the frames of a connection in their order. A single worker
also handles them in their order. -/
theorem frames_ordered (E : Engines) (c : Config) (s₀ s : Pool) (h₀ : s₀.Fresh) (as : List Move)
    (hr : (server E c).run s₀ as = some s) : StartedInOrder s ∧ (c.threadCount = 1 → InOrder s) := by
  have h : Inv s ∧ (c.threadCount = 1 → Single s) :=
    Machine.run_invariant (I := fun s => Inv s ∧ (c.threadCount = 1 → Single s))
      ⟨inv_fresh h₀, fun _ => single_fresh h₀⟩
      (fun _ _ _ hi _ hs => ⟨inv_step hi.1 hs, fun hc => single_step hc hi.1 (hi.2 hc) hs⟩)
      (Machine.meets_true s₀ as) hr
  refine ⟨fun i j conn f g hij _ _ tj hj => ?_, fun hc i j conn f g hij _ _ tj hj => ?_⟩
  · obtain ⟨ti, hi⟩ := taken_of_lt h.1 hij hj
    exact ⟨ti, hi, rel_of_lt h.1 h.1.started hij hi hj⟩
  · obtain ⟨ti, hi⟩ := taken_of_lt h.1 hij hj
    exact ⟨ti, hi, rel_of_lt h.1 (h.2 hc).before hij hi hj⟩

open Server.Sample

def engines : Engines := .strict fun a b => a = b

def start : Pool := { service := fresh { users := accounts, friends := [(1, 2)] } }

theorem start_fresh : start.Fresh := ⟨rfl, rfl, rfl, rfl, rfl⟩

def handled (task : Arrival Unit) (tid k : Nat) : List Move :=
  .arrive task :: .take :: List.replicate k (.run tid {})

/-- bob logs in and alice sends him two messages, which two workers take. The
second worker is faster. -/
def overtaking : List Move :=
  handled (.frame ⟨(), 0⟩ (loginFrame "bob" "b")) 0 8 ++
    .arrive (.frame ⟨(), 1⟩ (chatFrame 1 2 "first")) :: .arrive (.frame ⟨(), 1⟩ (chatFrame 1 2 "second")) ::
      .take :: .take :: List.replicate 3 (.run 2 {}) ++ List.replicate 3 (.run 1 {})

def inTurn : List Move :=
  handled (.frame ⟨(), 0⟩ (loginFrame "bob" "b")) 0 8 ++
    handled (.frame ⟨(), 0⟩ (chatFrame 1 2 "first")) 1 3

theorem frames_ordered_inTurn : ∃ s, (server engines { threadCount := 1 }).run start inTurn = some s ∧
    StartedInOrder s ∧ InOrder s := by
  have hs : ((server engines { threadCount := 1 }).run start inTurn).isSome = true := by decide +kernel
  obtain ⟨s, hs⟩ := Option.isSome_iff_exists.mp hs
  obtain ⟨hstart, hone⟩ := frames_ordered engines { threadCount := 1 } start s start_fresh inTurn hs
  exact ⟨s, hs, hstart, hone rfl⟩

def connOf (s : Pool) (i : Nat) : Option (Conn Unit) :=
  (s.accepted[i]?).bind fun
    | .frame conn _ => some conn
    | _ => none

theorem accepted_of_connOf {i : Nat} {conn : Conn Unit} (h : connOf s i = some conn) :
    ∃ f, s.accepted[i]? = some (.frame conn f) := by
  obtain ⟨task, ht, hc⟩ := Option.bind_eq_some_iff.mp h
  split at hc
  · cases hc
    exact ⟨_, ht⟩
  · cases hc

theorem not_sentInOrder {i j ti tj : Nat} {conn : Conn Unit} (hij : i < j) (hi : connOf s i = some conn)
    (hj : connOf s j = some conn) (hti : (i, ti) ∈ s.taken) (htj : (j, tj) ∈ s.taken) {l l' : List Nat}
    (hl : (sends s).map Prod.fst = l ++ tj :: l') (hafter : ti ∈ l') : ¬ SentInOrder s := by
  intro h
  obtain ⟨f, hf⟩ := accepted_of_connOf hi
  obtain ⟨g, hg⟩ := accepted_of_connOf hj
  obtain ⟨l₁, l₂, hlog, _, hl₂⟩ := List.map_eq_append_iff.mp hl
  obtain ⟨⟨k, x⟩, l₃, rfl, rfl, rfl⟩ := List.map_eq_cons_iff.mp hl₂
  obtain ⟨⟨k', y⟩, hy, rfl⟩ := List.mem_map.mp hafter
  exact h i j conn f g hij hf hg _ _ hti htj l₁ x l₃ hlog y hy

theorem overtaking_unordered : ¬ ∀ (same : String → String → Bool) (E : Engines), E.Rules same →
    ∀ (c : Config) (s₀ s : Pool) (as : List Move), 1 ≤ c.threadCount → s₀.Fresh →
      (server E c).run s₀ as = some s → SentInOrder s := by
  intro h
  have hu : ((server engines {}).run start overtaking).map (fun s => (connOf s 1, connOf s 2, s.taken,
      (sends s).map Prod.fst)) = some (some ⟨(), 1⟩, some ⟨(), 1⟩, [(0, 0), (1, 1), (2, 2)], [0, 2, 1]) := by
    decide +kernel
  obtain ⟨s, hs, hv⟩ := Option.map_eq_some_iff.mp hu
  simp only [Prod.mk.injEq] at hv
  obtain ⟨hi, hj, htaken, hsends⟩ := hv
  have hall := h _ engines (Engines.strict_rules _) {} start s overtaking (by decide) start_fresh hs
  have h₁ : (1, 1) ∈ s.taken := by
    rw [htaken]
    decide
  have h₂ : (2, 2) ∈ s.taken := by
    rw [htaken]
    decide
  exact not_sentInOrder (l := [0]) (by decide) hi hj h₁ h₂ hsends (by decide) hall

end BridgeIM.Server.ThreadPool
