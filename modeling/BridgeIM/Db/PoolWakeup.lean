import BridgeIM.Db.PoolLedger
import Mathlib.Data.Finset.Card

namespace BridgeIM.Db.PoolWakeup

open Lib ConnectionPool PoolLedger

/-- A pool, and the callers that a notification of `_cvConsumer` has reached and
that have not tested their wait condition since. -/
structure Waits where
  pool : Pool
  notified : Finset Nat := ∅
  deriving DecidableEq

namespace Waits

def Asleep (s : Waits) (i : Nat) : Prop := s.pool.callers[i]? = some .waiting ∧ i ∉ s.notified

instance (s : Waits) : DecidablePred s.Asleep := fun _ => inferInstanceAs (Decidable (_ ∧ _))

/-- `_cvConsumer.notify_one()` reaches one of the blocked callers, which the
scheduler picks. -/
def notifyOne (pick : Nat) (s : Waits) : Option Waits :=
  if s.Asleep pick then some { s with notified := insert pick s.notified }
  else if ∃ i < s.pool.callers.length, s.Asleep i then none
  else some s

def notifyAll (s : Waits) : Waits :=
  { s with notified := s.notified ∪ (Finset.range s.pool.callers.length).filter s.Asleep }

def forget (i : Nat) (s : Waits) : Waits := { s with notified := s.notified.erase i }

/-- A caller uses its notification up when it comes out of its wait or blocks
again. -/
def critical (c : PoolConfig) (pick : Nat) (s : Waits) (k : Critical) : Option Waits :=
  let s' : Waits := { s with pool := s.pool.critical c k }
  match k with
  | .callerTest i _ | .callerCheck i => some (if s'.pool.mutex = none then s'.forget i else s')
  | .callerPop i => some (s'.forget i)
  | .deleterPut _ _ true => s'.notifyOne pick
  | _ => some s'

end Waits

open Waits

def step (c : PoolConfig) (s : Waits) : Move × Nat → Option Waits
  | (.critical, pick) => s.pool.mutex.bind (s.critical c pick)
  | (.produce created, pick) => (s.pool.produce created).bind fun p =>
    if s.pool.producer = .notify then { s with pool := p }.notifyOne pick else some { s with pool := p }
  | (.destruct, _) => s.pool.destruct.map fun p =>
    if s.pool.destructor = .stopped then { s with pool := p }.notifyAll else { s with pool := p }
  | (.call, _) => (ConnectionPool.step c s.pool .call).map fun p => { s with pool := p }
  | (.caller i timedOut, _) => (s.pool.caller i timedOut).map fun p => { s with pool := p }
  | (.spurious, _) => (ConnectionPool.step c s.pool .spurious).map fun p => { s with pool := p }

def waits (c : PoolConfig) : Machine Waits (Move × Nat) := ⟨step c⟩

variable {c : PoolConfig} {s s' : Waits} {i : Nat}

theorem notifyOne_cases {pick : Nat} (h : s.notifyOne pick = some s') :
    (s.Asleep pick ∧ s' = { s with notified := insert pick s.notified }) ∨ (∀ i, ¬ s.Asleep i) ∧ s' = s := by
  unfold Waits.notifyOne at h
  split at h
  · rename_i hp
    cases h
    exact Or.inl ⟨hp, rfl⟩
  · obtain ⟨hn, h⟩ := Option.ite_none_left_eq_some.mp h
    cases h
    exact Or.inr ⟨fun i hi => hn ⟨i, (List.getElem?_eq_some_iff.mp hi.1).1, hi⟩, rfl⟩

theorem notifyOne_pool {pick : Nat} (h : s.notifyOne pick = some s') : s'.pool = s.pool := by
  obtain ⟨_, rfl⟩ | ⟨_, rfl⟩ := notifyOne_cases h <;> rfl

theorem step_pool {a : Move × Nat} (hs : step c s a = some s') :
    ConnectionPool.step c s.pool a.1 = some s'.pool := by
  obtain ⟨a, pick⟩ := a
  cases a with
  | produce created =>
    obtain ⟨p, hp, hs⟩ := Option.bind_eq_some_iff.mp hs
    split at hs
    · rw [notifyOne_pool hs]
      exact hp
    · cases hs
      exact hp
  | critical =>
    obtain ⟨k, hk, hs⟩ := Option.bind_eq_some_iff.mp hs
    have hp : s'.pool = s.pool.critical c k := by
      unfold Waits.critical at hs
      dsimp only at hs
      split at hs
      case h_4 => exact notifyOne_pool hs
      all_goals
        cases hs
        first
          | rfl
          | split <;> rfl
    rw [hp]
    exact Option.map_eq_some_iff.mpr ⟨k, hk, rfl⟩
  | destruct =>
    obtain ⟨p, hp, rfl⟩ := Option.map_eq_some_iff.mp hs
    split <;> exact hp
  | call =>
    cases hs
    rfl
  | _ =>
    obtain ⟨p, hp, rfl⟩ := Option.map_eq_some_iff.mp hs
    exact hp

/-- A running pool whose producer waits, or is about to, has nothing for it to do. -/
def Attentive (c : PoolConfig) (p : Pool) : Prop :=
  p.isRunning = true → p.producer = .blocked ∨ p.mutex = some .producerBlock → p.full c = true

section Producer

variable {p p' : Pool}

theorem stopped_of_inside (hi : Inv c p) {k : Critical} (hm : p.mutex = some k) (hk : owner k = .destructor) :
    p.isRunning = false := by
  have hd : p.destructor = .inside := by
    have h := hi.owned k hm
    rwa [hk] at h
  rw [Bool.eq_false_iff]
  intro hr
  cases hd.symm.trans (hi.staged.running.mp hr)

theorem attentive_critical (hi : Inv c p) {k : Critical} (hm : p.mutex = some k) (h : Attentive c p) :
    Attentive c (p.critical c k) := by
  intro hr hb
  cases k with
  | callerPop i => grind [Attentive, Pool.critical, Pool.full, Pool.setCaller, Pool.notifyProducer]
  | deleterPut i conn running => cases running <;> grind [Attentive, Pool.critical, Pool.full, Pool.setCaller]
  | destructorTest | drain =>
    have hs := stopped_of_inside hi hm rfl
    grind [Pool.critical]
  | _ => grind [Attentive, Pool.critical, Pool.full, Pool.setCaller]

theorem attentive_step (hi : Inv c p) (h : Attentive c p) {a : Move} (hs : ConnectionPool.step c p a = some p') :
    Attentive c p' := by
  cases a with
  | produce created =>
    obtain ⟨hp, rfl⟩ | ⟨hp, hm, rfl⟩ | ⟨hp, rfl⟩ | ⟨hp, rfl⟩ | ⟨conn, hp, hm, rfl⟩ | ⟨hp, rfl⟩ := produce_cases hs
    all_goals grind [Attentive, Pool.full]
  | critical =>
    obtain ⟨k, hk, rfl⟩ := Option.map_eq_some_iff.mp hs
    exact attentive_critical hi hk h
  | call =>
    cases hs
    exact h
  | caller i timedOut =>
    obtain ⟨_, _, rfl⟩ | ⟨_, rfl⟩ | ⟨b, _, _, rfl⟩ | ⟨conn, _, _, rfl⟩ := caller_cases hs
    all_goals grind [Attentive, Pool.full]
  | destruct =>
    obtain ⟨_, rfl⟩ | ⟨hd, rfl⟩ | ⟨hd, rfl⟩ | ⟨hd, _, rfl⟩ | ⟨hd, _, rfl⟩ := destruct_cases hs
    all_goals grind [Attentive, Pool.full, Pool.notifyProducer]
  | spurious =>
    obtain ⟨_, hs⟩ := Option.ite_none_right_eq_some.mp hs
    cases hs
    grind [Attentive, Pool.full]

end Producer

def owed (p : Pool) : Nat := if p.producer = .notify then 1 else 0

def Coming (p : Pool) (i : Nat) : Prop :=
  p.callers[i]? = some .waiting ∨ (∃ timedOut, p.callers[i]? = some (.relock timedOut)) ∨
    (∃ timedOut, p.mutex = some (.callerTest i timedOut)) ∨ p.mutex = some (.callerCheck i) ∨
    p.mutex = some (.callerPop i)

/-- Every idle connection is announced to a caller when there are callers that
sleep through it. -/
def Announced (s : Waits) : Prop :=
  s.pool.isRunning = true → ∀ i, s.Asleep i → s.pool.connectionQueue.length ≤ s.notified.card + owed s.pool

theorem Announced.frame (h : Announced s) (hrun : s'.pool.isRunning = true → s.pool.isRunning = true)
    (hq : s'.pool.connectionQueue.length ≤ s.pool.connectionQueue.length) (hn : s'.notified = s.notified)
    (ho : owed s.pool ≤ owed s'.pool) (ha : ∀ i, s'.Asleep i → s.Asleep i) : Announced s' := by
  intro hr i hi
  have hb := h (hrun hr) i (ha i hi)
  rw [hn]
  omega

theorem announced_notifyOne {pick : Nat} (hs : s.notifyOne pick = some s')
    (h : s.pool.isRunning = true → ∀ i, s.Asleep i → s.pool.connectionQueue.length ≤ s.notified.card + owed s.pool + 1) :
    Announced s' := by
  intro hr i hi
  obtain ⟨hp, rfl⟩ | ⟨hp, rfl⟩ := notifyOne_cases hs
  · have hb := h hr pick hp
    rw [Finset.card_insert_of_notMem hp.2]
    show s.pool.connectionQueue.length ≤ _ + owed s.pool
    omega
  · exact absurd hi (hp i)

theorem asleep_of_set {x : Caller} {p : Pool} (hc : p.callers = s.pool.callers.set i x) {n : Finset Nat}
    (hn : ∀ j ≠ i, j ∈ s.notified → j ∈ n) (hx : x ≠ .waiting) {j : Nat} (h : Asleep ⟨p, n⟩ j) : s.Asleep j := by
  obtain ⟨hw, hj⟩ := h
  have hw : (s.pool.callers.set i x)[j]? = some .waiting := hc ▸ hw
  by_cases hij : i = j
  · subst hij
    have hl := (List.getElem?_eq_some_iff.mp hw).1
    rw [List.getElem?_set_self (by rwa [List.length_set] at hl)] at hw
    exact absurd (Option.some.inj hw) hx
  · rw [List.getElem?_set_ne hij] at hw
    exact ⟨hw, fun hm => hj (hn j (Ne.symm hij) hm)⟩

theorem announced_critical (hi : Inv c s.pool) {k : Critical} (hm : s.pool.mutex = some k) {pick : Nat}
    (hs : s.critical c pick k = some s') (h : Announced s) : Announced s' := by
  have hk := hi.owned k hm
  cases k with
  | producerTest =>
    cases hs
    apply h.frame <;> grind [Pool.critical, owed, Waits.Asleep]
  | producerBlock | producerCheck | producerRecheck conn =>
    have hp : s.pool.producer = .inside := hk
    cases hs
    apply h.frame <;> grind [Pool.critical, owed, Waits.Asleep]
  | producerAdmit conn =>
    have hp : s.pool.producer = .inside := hk
    cases hs
    intro hr j hj
    have hb := h (by grind [Pool.critical]) j (by grind [Pool.critical, Waits.Asleep])
    grind [Pool.critical, owed]
  | callerTest i timedOut =>
    cases hs
    by_cases he : !s.pool.connectionQueue.isEmpty || !s.pool.isRunning
    · apply h.frame <;> grind [Pool.critical, owed, Waits.Asleep]
    · intro _ j _
      have hq : s.pool.connectionQueue = [] := by grind
      grind [Pool.critical, Pool.setCaller, Waits.forget]
  | callerCheck i =>
    cases hs
    by_cases hr : s.pool.isRunning
    · apply h.frame <;> grind [Pool.critical, owed, Waits.Asleep]
    · intro hr'
      exact absurd hr' (by grind [Pool.critical, Pool.setCaller, Waits.forget])
  | callerPop i =>
    cases hs
    intro hr j hj
    cases hq : s.pool.connectionQueue with
    | nil => grind [Pool.critical, Pool.setCaller, Waits.forget]
    | cons conn rest =>
      have ha : s.Asleep j := by
        refine asleep_of_set (i := i) (x := .holding conn) ?_ (fun _ hj hm => Finset.mem_erase.mpr ⟨hj, hm⟩)
          Caller.noConfusion hj
        grind [Pool.critical, Pool.setCaller, Pool.notifyProducer]
      have hb := h (by grind [Pool.critical, Pool.setCaller, Pool.notifyProducer, Waits.forget]) j ha
      have he := Finset.pred_card_le_card_erase (s := s.notified) (a := i)
      grind [Pool.critical, Pool.setCaller, Pool.notifyProducer, Waits.forget, owed]
  | deleterTest i conn =>
    cases hs
    apply h.frame <;> grind [Pool.critical, owed, Waits.Asleep]
  | deleterPut i conn running =>
    have hset {j : Nat} (hj : Asleep ⟨s.pool.critical c (.deleterPut i conn running), s.notified⟩ j) : s.Asleep j := by
      refine asleep_of_set (i := i) (x := .returned) ?_ (fun _ _ hm => hm) Caller.noConfusion hj
      cases running <;> rfl
    cases running with
    | true =>
      refine announced_notifyOne hs fun hr j hj => ?_
      have hb := h hr j (hset hj)
      grind [Pool.critical, Pool.setCaller, owed]
    | false =>
      cases hs
      exact h.frame id le_rfl rfl le_rfl fun _ => hset
  | destructorTest | drain =>
    cases hs
    intro hr
    have hst := stopped_of_inside hi hm rfl
    grind [Pool.critical]

theorem announced_step (hi : Inv c s.pool) (h : Announced s) {a : Move × Nat} (hs : step c s a = some s') :
    Announced s' := by
  obtain ⟨a, pick⟩ := a
  cases a with
  | produce created =>
    obtain ⟨p, hp, hs⟩ := Option.bind_eq_some_iff.mp hs
    split at hs
    · rename_i hn
      refine announced_notifyOne hs fun hr j hj => ?_
      have hb := h (by grind [Pool.produce]) j (by grind [Pool.produce, Waits.Asleep])
      grind [Pool.produce, owed]
    · rename_i hn
      cases hs
      obtain ⟨hq, rfl⟩ | ⟨hq, hm, rfl⟩ | ⟨hq, rfl⟩ | ⟨hq, rfl⟩ | ⟨conn, hq, hm, rfl⟩ | ⟨hq, rfl⟩ := produce_cases hp
      case inr.inr.inr.inr.inr => exact absurd hq hn
      all_goals exact h.frame id le_rfl rfl (by simp [owed, hn]) fun _ hj => hj
  | critical =>
    obtain ⟨k, hk, hs⟩ := Option.bind_eq_some_iff.mp hs
    exact announced_critical hi hk hs h
  | call =>
    cases hs
    refine h.frame id le_rfl rfl le_rfl fun j hj => ?_
    obtain ⟨hw, hn⟩ := hj
    have hw : (s.pool.callers ++ [Caller.enter])[j]? = some .waiting := hw
    exact ⟨by grind, hn⟩
  | caller i timedOut =>
    obtain ⟨p, hp, rfl⟩ := Option.map_eq_some_iff.mp hs
    obtain ⟨hx, _, rfl⟩ | ⟨hx, rfl⟩ | ⟨b, hx, _, rfl⟩ | ⟨conn, hx, _, rfl⟩ := caller_cases hp
    all_goals
      exact h.frame id le_rfl rfl le_rfl fun j hj => asleep_of_set rfl (fun _ _ hm => hm) Caller.noConfusion hj
  | destruct =>
    obtain ⟨p, hp, rfl⟩ := Option.map_eq_some_iff.mp hs
    intro hr
    have hst : p.isRunning = true → False := by
      intro hr
      obtain ⟨_, rfl⟩ | ⟨hd, rfl⟩ | ⟨hd, rfl⟩ | ⟨hd, _, rfl⟩ | ⟨hd, _, rfl⟩ := destruct_cases hp
      · cases hr
      all_goals cases hd.symm.trans (hi.staged.running.mp hr)
    split at hr <;> exact (hst hr).elim
  | spurious =>
    obtain ⟨p, hp, rfl⟩ := Option.map_eq_some_iff.mp hs
    obtain ⟨hb, hp⟩ := Option.ite_none_right_eq_some.mp hp
    cases hp
    exact h.frame id le_rfl rfl (by simp [owed, hb]) fun _ hj => hj

theorem coming_notifyOne {pick : Nat} (hs : s.notifyOne pick = some s') (h : ∀ i ∈ s.notified, Coming s.pool i) :
    ∀ i ∈ s'.notified, Coming s'.pool i := by
  obtain ⟨hp, rfl⟩ | ⟨_, rfl⟩ := notifyOne_cases hs
  · intro i hi
    obtain rfl | hi := Finset.mem_insert.mp hi
    · exact Or.inl hp.1
    · exact h i hi
  · exact h

theorem coming_notifyAll (h : ∀ i ∈ s.notified, Coming s.pool i) :
    ∀ i ∈ s.notifyAll.notified, Coming s.notifyAll.pool i := by
  intro i hi
  obtain hi | hi := Finset.mem_union.mp hi
  · exact h i hi
  · exact Or.inl (Finset.mem_filter.mp hi).2.1

theorem coming_critical (hi : Inv c s.pool) {k : Critical} (hm : s.pool.mutex = some k) {pick : Nat}
    (hs : s.critical c pick k = some s') (h : ∀ i ∈ s.notified, Coming s.pool i) :
    ∀ i ∈ s'.notified, Coming s'.pool i := by
  have hk := hi.owned k hm
  cases k with
  | deleterPut i conn running =>
    have hc : ∀ j ∈ s.notified, Coming (s.pool.critical c (.deleterPut i conn running)) j := by
      intro j hj
      have hw := h j hj
      have hx : s.pool.callers[i]? = some .inside := hk
      cases running <;> grind [Coming, Pool.critical, Pool.setCaller]
    cases running with
    | true => exact coming_notifyOne hs hc
    | false =>
      cases hs
      exact hc
  | callerTest i timedOut | callerCheck i | callerPop i =>
    have hx : s.pool.callers[i]? = some .inside := hk
    cases hs
    intro j hj
    have hw := h j
    grind [Coming, Pool.critical, Pool.setCaller, Pool.notifyProducer, Waits.forget]
  | _ =>
    cases hs
    intro j hj
    have hw := h j hj
    grind [Coming, Pool.critical]

theorem coming_step (hi : Inv c s.pool) (h : ∀ i ∈ s.notified, Coming s.pool i) {a : Move × Nat}
    (hs : step c s a = some s') : ∀ i ∈ s'.notified, Coming s'.pool i := by
  obtain ⟨a, pick⟩ := a
  cases a with
  | produce created =>
    obtain ⟨p, hp, hs⟩ := Option.bind_eq_some_iff.mp hs
    have hc : ∀ i ∈ s.notified, Coming p i := by
      intro i hi
      have hw := h i hi
      obtain ⟨hq, rfl⟩ | ⟨hq, hm, rfl⟩ | ⟨hq, rfl⟩ | ⟨hq, rfl⟩ | ⟨conn, hq, hm, rfl⟩ | ⟨hq, rfl⟩ := produce_cases hp
      all_goals grind [Coming]
    split at hs
    · exact coming_notifyOne hs hc
    · cases hs
      exact hc
  | critical =>
    obtain ⟨k, hk, hs⟩ := Option.bind_eq_some_iff.mp hs
    exact coming_critical hi hk hs h
  | call =>
    cases hs
    intro i hi
    have hw := h i hi
    grind [Coming]
  | caller j timedOut =>
    obtain ⟨p, hp, rfl⟩ := Option.map_eq_some_iff.mp hs
    intro i hn
    have hw := h i hn
    have ho := fun k hk => hi.owned k hk
    obtain ⟨hx, hm, rfl⟩ | ⟨hx, rfl⟩ | ⟨b, hx, hm, rfl⟩ | ⟨conn, hx, hm, rfl⟩ := caller_cases hp
    all_goals grind [Coming]
  | destruct =>
    obtain ⟨p, hp, rfl⟩ := Option.map_eq_some_iff.mp hs
    have hc : ∀ i ∈ s.notified, Coming p i := by
      intro i hi
      have hw := h i hi
      obtain ⟨_, rfl⟩ | ⟨hd, rfl⟩ | ⟨hd, rfl⟩ | ⟨hd, _, rfl⟩ | ⟨hd, _, rfl⟩ := destruct_cases hp
      all_goals grind [Coming, Pool.notifyProducer]
    split
    · exact coming_notifyAll hc
    · exact hc
  | spurious =>
    obtain ⟨p, hp, rfl⟩ := Option.map_eq_some_iff.mp hs
    obtain ⟨hb, hp⟩ := Option.ite_none_right_eq_some.mp hp
    cases hp
    exact h

structure WakeInv (c : PoolConfig) (s : Waits) : Prop where
  pool : Inv c s.pool
  attentive : Attentive c s.pool
  announced : Announced s
  coming : ∀ i ∈ s.notified, Coming s.pool i

theorem wakeInv_step (h : WakeInv c s) {a : Move × Nat} (hs : step c s a = some s') : WakeInv c s' where
  pool := inv_step h.pool (step_pool hs)
  attentive := attentive_step h.pool h.attentive (step_pool hs)
  announced := announced_step h.pool h.announced hs
  coming := coming_step h.pool h.coming hs

/-- What a running pool owes to those that sleep: the producer sleeps only when
there is nothing to produce, and the idle connections are all announced when a
caller sleeps. -/
structure Heeded (c : PoolConfig) (s : Waits) : Prop where
  producer : s.pool.producer = .blocked → c.initSize ≤ s.pool.connectionQueue.length ∨ c.maxSize ≤ s.pool.connectionCnt
  callers : ∀ i, s.Asleep i → s.pool.connectionQueue.length ≤ s.notified.card + owed s.pool
  coming : ∀ i ∈ s.notified, Coming s.pool i

theorem start_of_construct {c : ConnectionPoolConfig} {connects : List Bool} {s₀ : Pool}
    (h : Pool.construct c connects = some s₀) : s₀.producer = .loop ∧ s₀.mutex = none ∧ s₀.callers = [] := by
  obtain ⟨_, h⟩ := Option.ite_none_right_eq_some.mp h
  obtain ⟨s, hs, rfl⟩ := Option.map_eq_some_iff.mp h
  obtain ⟨l, rfl, -⟩ := fill_eq hs
  exact ⟨rfl, rfl, rfl⟩

theorem wakeInv_construct {c : ConnectionPoolConfig} {connects : List Bool} {s₀ : Pool}
    (h : Pool.construct c connects = some s₀) : WakeInv c.poolConfig ⟨s₀, ∅⟩ := by
  obtain ⟨hp, hm, hc⟩ := start_of_construct h
  refine ⟨inv_construct h, fun _ hb => ?_, fun _ i hi => ?_, fun i hi => absurd hi (Finset.notMem_empty i)⟩
  · simp [hp, hm] at hb
  · simp [Waits.Asleep, hc] at hi

/-- In every run of a pool that was constructed, while the pool is running, no
party sleeps through what it waits for. -/
theorem wakeup_reaches (c : ConnectionPoolConfig) (connects : List Bool) (s₀ : Pool)
    (h₀ : Pool.construct c connects = some s₀) (as : List (Move × Nat)) (s : Waits)
    (hr : (waits c.poolConfig).run ⟨s₀, ∅⟩ as = some s) (hrun : s.pool.isRunning = true) :
    Heeded c.poolConfig s := by
  have h : WakeInv c.poolConfig s := Machine.run_invariant (wakeInv_construct h₀)
    (fun _ _ _ hi _ hs => wakeInv_step hi hs) (Machine.meets_true _ as) hr
  refine ⟨fun hb => ?_, h.announced hrun, h.coming⟩
  have hf := h.attentive hrun (Or.inl hb)
  simpa [Pool.full] using hf

/-- Two callers wait for the only connection, and its borrower gives it back. -/
def handOver : List (Move × Nat) :=
  lend.map (·, 0) ++ [(.call, 0), (.caller 1 false, 0), (.critical, 0), (.call, 0), (.caller 2 false, 0), (.critical, 0),
    (.caller 0 false, 0), (.critical, 0), (.critical, 1)]

def oneComing : Waits where
  pool :=
    { connectionQueue := [0]
      connectionCnt := 1
      isRunning := true
      callers := [.returned, .waiting, .waiting]
      made := 1
      admitted := [0] }
  notified := {1}

theorem wakeup_reaches_handOver : oneComing.Asleep 2 ∧ Heeded smallConfig.poolConfig oneComing := by
  have h : Pool.construct smallConfig [true] = some oneIdle ∧
      (waits smallConfig.poolConfig).run ⟨oneIdle, ∅⟩ handOver = some oneComing := by decide +kernel
  exact ⟨by decide, wakeup_reaches smallConfig [true] oneIdle h.1 handOver oneComing h.2 rfl⟩

end BridgeIM.Db.PoolWakeup
