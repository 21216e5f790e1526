import BridgeIM.Db.PoolLedger

namespace BridgeIM.Db.PoolShutdown

open Lib ConnectionPool PoolLedger

/-- The destructor has notified everyone and waits for the producer, which stays
in its wait however the run goes on. -/
def Hung (c : PoolConfig) (s : Pool) : Prop :=
  s.destructor = .joining ∧ s.producer = .blocked ∧ ∀ as t, (∀ a ∈ as, a ≠ .spurious) →
    (pool c).run s as = some t → t.producer = .blocked

/-- The destructor does not notify the producer while the producer stands
between the test of its wait condition and its wait. -/
def Heard (s : Pool) (a : Move) : Prop :=
  a = .destruct → s.destructor = .stopped → s.mutex ≠ some .producerBlock

instance (s : Pool) (a : Move) : Decidable (Heard s a) := inferInstanceAs (Decidable (_ → _ → _))

def notified : Destructor → Bool
  | .idle | .stopped => false
  | _ => true

/-- A producer that has been notified neither waits nor is about to. -/
def Awake (s : Pool) : Prop :=
  notified s.destructor = true → s.producer ≠ .blocked ∧ s.mutex ≠ some .producerBlock

variable {c : PoolConfig} {s s' : Pool}

theorem notifyProducer_ne_blocked (s : Pool) : s.notifyProducer.producer ≠ .blocked := by
  unfold Pool.notifyProducer
  split
  · nofun
  · assumption

theorem awake_critical {k : Critical} (hm : s.mutex = some k) (hi : Inv c s) (h : Awake s) :
    Awake (s.critical c k) := by
  have hk := hi.owned k hm
  intro hn
  have hrun : notified s.destructor = true → s.isRunning = false := by
    intro hd
    rw [Bool.eq_false_iff]
    intro hr
    rw [hi.staged.running.mp hr] at hd
    cases hd
  cases k with
  | deleterPut i conn running => cases running <;> grind [Awake, Pool.critical, Pool.setCaller, notified]
  | callerPop i => grind [Awake, Pool.critical, Pool.setCaller, Pool.notifyProducer, notified]
  | destructorTest | drain =>
    have hd : s.destructor = .inside := hk
    grind [Awake, Pool.critical, notified]
  | _ => grind [Awake, Pool.critical, Pool.setCaller, notified]

theorem awake_step (hi : Inv c s) (h : Awake s) {a : Move} (hh : Heard s a) (hstep : step c s a = some s') :
    Awake s' := by
  cases a with
  | produce created =>
    obtain ⟨hp, rfl⟩ | ⟨hp, hm, rfl⟩ | ⟨hp, rfl⟩ | ⟨hp, rfl⟩ | ⟨conn, hp, hm, rfl⟩ | ⟨hp, rfl⟩ := produce_cases hstep
    all_goals grind [Awake]
  | critical =>
    obtain ⟨k, hk, rfl⟩ := Option.map_eq_some_iff.mp hstep
    exact awake_critical hk hi h
  | call =>
    cases hstep
    exact h
  | caller i timedOut =>
    obtain ⟨_, _, rfl⟩ | ⟨_, rfl⟩ | ⟨b, _, _, rfl⟩ | ⟨conn, _, _, rfl⟩ := caller_cases hstep
    all_goals grind [Awake]
  | destruct =>
    obtain ⟨_, rfl⟩ | ⟨hd, rfl⟩ | ⟨hd, rfl⟩ | ⟨hd, _, rfl⟩ | ⟨hd, _, rfl⟩ := destruct_cases hstep
    · exact fun hn => absurd hn Bool.false_ne_true
    · exact fun _ => ⟨notifyProducer_ne_blocked s, hh rfl hd⟩
    · exact fun _ => h (by rw [hd]; rfl)
    · exact fun _ => h (by rw [hd]; rfl)
    · exact fun _ => ⟨(h (by rw [hd]; rfl)).1, nofun⟩
  | spurious =>
    obtain ⟨_, hs⟩ := Option.ite_none_right_eq_some.mp hstep
    cases hs
    exact fun hn => ⟨nofun, (h hn).2⟩

theorem idle_of_construct {c : ConnectionPoolConfig} {connects : List Bool} {s₀ : Pool}
    (h : Pool.construct c connects = some s₀) : s₀.destructor = .idle := by
  have hr : s₀.isRunning = true := by
    obtain ⟨_, h⟩ := Option.ite_none_right_eq_some.mp h
    obtain ⟨s, _, rfl⟩ := Option.map_eq_some_iff.mp h
    rfl
  exact (inv_construct h).staged.running.mp hr

/-- A destructor whose notification is heard never waits for a sleeping producer. -/
theorem shutdown_never_hangs (c : ConnectionPoolConfig) (connects : List Bool) (s₀ s : Pool)
    (h₀ : Pool.construct c connects = some s₀) (as : List Move) (hh : (pool c.poolConfig).Meets Heard s₀ as)
    (hr : (pool c.poolConfig).run s₀ as = some s) : ¬ Hung c.poolConfig s := by
  have h : Inv c.poolConfig s ∧ Awake s := Machine.run_invariant (I := fun s => Inv c.poolConfig s ∧ Awake s)
    ⟨inv_construct h₀, fun hn => by rw [idle_of_construct h₀] at hn; cases hn⟩
    (fun _ _ _ hi hok hs => ⟨inv_step hi.1 hs, awake_step hi.1 hi.2 hok hs⟩) hh hr
  rintro ⟨hj, hb, _⟩
  exact (h.2 (by rw [hj]; rfl)).1 hb

/-- The producer sleeps, the pool has stopped, and no one is about to notify. -/
structure Asleep (s : Pool) : Prop where
  joining : s.destructor = .joining
  blocked : s.producer = .blocked
  stopped : s.isRunning = false
  silent : ∀ i, s.mutex ≠ some (.callerPop i)

theorem asleep_step (ho : Owned s) (h : Asleep s) {a : Move} (ha : a ≠ .spurious) (hs : step c s a = some s') :
    Asleep s' := by
  obtain ⟨hj, hb, hr, hsil⟩ := h
  cases a with
  | produce created => simp [step, Pool.produce, hb] at hs
  | critical =>
    obtain ⟨k, hk, rfl⟩ := Option.map_eq_some_iff.mp hs
    have hk' := ho k hk
    cases k with
    | producerTest | producerBlock | producerCheck | producerRecheck conn | producerAdmit conn =>
      cases hb.symm.trans hk'
    | destructorTest | drain => cases hj.symm.trans hk'
    | callerPop i => exact absurd hk (hsil i)
    | deleterPut i conn running => cases running <;> constructor <;> grind [Pool.critical, Pool.setCaller]
    | _ => constructor <;> grind [Pool.critical, Pool.setCaller]
  | call =>
    cases hs
    exact ⟨hj, hb, hr, hsil⟩
  | caller i timedOut =>
    obtain ⟨_, _, rfl⟩ | ⟨_, rfl⟩ | ⟨b, _, _, rfl⟩ | ⟨conn, _, _, rfl⟩ := caller_cases hs
    all_goals constructor <;> grind
  | destruct => simp [step, Pool.destruct, hj, hb] at hs
  | spurious => exact absurd rfl ha

theorem hung_of_asleep (ho : Owned s) (h : Asleep s) : Hung c s := by
  refine ⟨h.joining, h.blocked, fun as t has hr => ?_⟩
  have ht : Owned t ∧ Asleep t := Machine.run_invariant (I := fun s => Owned s ∧ Asleep s) ⟨ho, h⟩
    (fun _ _ _ hi ha hs => ⟨owned_step hi.1 hs, asleep_step hi.1 hi.2 ha hs⟩)
    (Machine.meets_of_forall (p := fun a => a ≠ Move.spurious) s has) hr
  exact ht.2.blocked

/-- A notification that falls between the test and the wait hangs the destructor. -/
theorem hung_of_not_heard (hi : Inv c s) {a : Move} (h : ¬ Heard s a) :
    ∃ t, (pool c).run s [.destruct, .critical, .destruct] = some t ∧ Hung c t := by
  simp only [Heard, Classical.not_imp, not_not] at h
  obtain ⟨_, hd, hm⟩ := h
  have hp : s.producer = .inside := hi.owned _ hm
  have hr : s.isRunning = false := by
    rw [Bool.eq_false_iff]
    intro hr
    rw [hi.staged.running.mp hr] at hd
    cases hd
  refine ⟨{ s with mutex := none, producer := .blocked, destructor := .joining }, ?_, ?_⟩
  · simp [Machine.run, pool, step, Pool.destruct, Pool.notifyProducer, Pool.critical, hd, hm]
  · exact hung_of_asleep (owned_of_none rfl) ⟨rfl, rfl, hr, fun i he => Option.some_ne_none _ he.symm⟩

/-- The producer tests its wait condition, the destructor stops the pool and
notifies, and the producer goes to sleep. -/
def gap : List Move :=
  [.produce true, .produce true, .critical, .destruct, .destruct, .critical, .destruct]

def asleep : Pool where
  connectionQueue := [0]
  connectionCnt := 1
  producer := .blocked
  destructor := .joining
  made := 1
  admitted := [0]

theorem gap_hangs : ¬ ∀ (c : ConnectionPoolConfig) (connects : List Bool) (s₀ s : Pool) (as : List Move),
    Pool.construct c connects = some s₀ → (∀ a ∈ as, a ≠ .spurious) → (pool c.poolConfig).run s₀ as = some s →
      ¬ Hung c.poolConfig s := by
  intro h
  refine h smallConfig [true] oneIdle asleep gap ?_ ?_ ?_ (hung_of_asleep (owned_of_none rfl) ?_)
  · decide +kernel
  · decide
  · decide +kernel
  · exact ⟨rfl, rfl, rfl, nofun⟩

/-- The destructor notifies a producer that sleeps already. -/
def wakened : List Move :=
  [.produce true, .produce true, .critical, .critical, .destruct, .destruct, .destruct]

theorem shutdown_never_hangs_wakened : ∃ s, (pool smallConfig.poolConfig).run oneIdle wakened = some s ∧
    s.destructor = .joining ∧ ¬ Hung smallConfig.poolConfig s := by
  have hu : ((pool smallConfig.poolConfig).run oneIdle wakened).map Pool.destructor = some .joining := by
    decide +kernel
  obtain ⟨s, hs, hd⟩ := Option.map_eq_some_iff.mp hu
  refine ⟨s, hs, hd, shutdown_never_hangs smallConfig [true] oneIdle s ?_ wakened ?_ hs⟩
  · decide +kernel
  · decide +kernel

end BridgeIM.Db.PoolShutdown
