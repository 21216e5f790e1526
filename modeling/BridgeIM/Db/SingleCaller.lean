import BridgeIM.Db.PoolWakeup

namespace BridgeIM.Db.SingleCaller

open Lib ConnectionPool PoolLedger PoolWakeup

/-- What holds of a pool before it stops: nothing has been deleted, and the
producer is at work. -/
structure Busy (p : Pool) : Prop where
  deleted : p.deleted = []
  putting : ∀ i conn, p.mutex ≠ some (.deleterPut i conn false)
  exited : p.producer ≠ .exited
  inside : p.producer = .inside → ∃ k, p.mutex = some k ∧ owner k = .producer

structure Sound (c : PoolConfig) (p : Pool) : Prop where
  inv : Inv c p
  attentive : Attentive c p
  busy : p.isRunning = true → Busy p

variable {c : PoolConfig} {p p' : Pool} {k : Nat}

theorem busy_critical (h : Sound c p) {s : Critical} (hm : p.mutex = some s) (hr : (p.critical c s).isRunning = true) :
    Busy (p.critical c s) := by
  have hrun : p.isRunning = true := by
    cases s with
    | deleterPut i conn running => cases running <;> grind [Pool.critical, Pool.setCaller]
    | _ => grind [Pool.critical, Pool.setCaller, Pool.notifyProducer]
  obtain ⟨hd, hp, he, hi⟩ := h.busy hrun
  have hown := h.inv.owned s hm
  cases s with
  | callerPop i =>
    refine ⟨?_, ?_, ?_, ?_⟩ <;> grind [Pool.critical, Pool.setCaller, Pool.notifyProducer, owner, List.set_set]
  | deleterPut i conn running =>
    cases running with
    | false => exact absurd hm (hp i conn)
    | true => refine ⟨?_, ?_, ?_, ?_⟩ <;> grind [Pool.critical, Pool.setCaller, owner, List.set_set]
  | destructorTest | drain =>
    have hs := stopped_of_inside h.inv hm rfl
    rw [hrun] at hs
    cases hs
  | _ =>
    refine ⟨?_, ?_, ?_, ?_⟩ <;> grind [Pool.critical, Pool.setCaller, owner, Inside]

theorem sound_step (h : Sound c p) {a : Move} (hs : ConnectionPool.step c p a = some p') : Sound c p' := by
  refine ⟨inv_step h.inv hs, attentive_step h.inv h.attentive hs, fun hr => ?_⟩
  cases a with
  | critical =>
    obtain ⟨s, hm, rfl⟩ := Option.map_eq_some_iff.mp hs
    exact busy_critical h hm hr
  | produce created =>
    obtain ⟨hp, rfl⟩ | ⟨hp, hm, rfl⟩ | ⟨hp, rfl⟩ | ⟨hp, rfl⟩ | ⟨conn, hp, hm, rfl⟩ | ⟨hp, rfl⟩ :=
      produce_cases hs
    all_goals
      obtain ⟨hd, hput, he, hi⟩ := h.busy hr
      refine ⟨?_, ?_, ?_, ?_⟩ <;> grind [owner]
  | call =>
    cases hs
    exact ⟨(h.busy hr).deleted, (h.busy hr).putting, (h.busy hr).exited, (h.busy hr).inside⟩
  | caller i timedOut =>
    obtain ⟨hp, hm, rfl⟩ | ⟨hp, rfl⟩ | ⟨b, hp, hm, rfl⟩ | ⟨conn, hp, hm, rfl⟩ := caller_cases hs
    all_goals
      obtain ⟨hd, hput, he, hi⟩ := h.busy hr
      refine ⟨?_, ?_, ?_, ?_⟩ <;> grind [owner]
  | destruct =>
    have hrun := h.inv.staged.running
    obtain ⟨hd, rfl⟩ | ⟨hd, rfl⟩ | ⟨hd, rfl⟩ | ⟨hd, _, rfl⟩ | ⟨hd, _, rfl⟩ := destruct_cases hs
    all_goals grind [Pool.notifyProducer]
  | spurious =>
    obtain ⟨hb, hs⟩ := Option.ite_none_right_eq_some.mp hs
    cases hs
    obtain ⟨hd, hput, he, hi⟩ := h.busy hr
    refine ⟨?_, ?_, ?_, ?_⟩ <;> grind

theorem sound_construct {c : ConnectionPoolConfig} {connects : List Bool} (h : Pool.construct c connects = some p) :
    Sound c.poolConfig p := by
  obtain ⟨hp, hm, hc⟩ := start_of_construct h
  refine ⟨inv_construct h, fun _ hb => ?_, fun _ => ⟨?_, ?_, ?_, ?_⟩⟩
  · simp [hp, hm] at hb
  · obtain ⟨_, h⟩ := Option.ite_none_right_eq_some.mp h
    obtain ⟨s, hs, rfl⟩ := Option.map_eq_some_iff.mp h
    obtain ⟨l, rfl, -⟩ := fill_eq hs
    rfl
  · simp [hm]
  · simp [hp]
  · simp [hp]

theorem sound_run {c : ConnectionPoolConfig} {connects : List Bool} {p₀ : Pool}
    (h₀ : Pool.construct c connects = some p₀) {as : List Move} (hr : (pool c.poolConfig).run p₀ as = some p) :
    Sound c.poolConfig p :=
  Machine.run_invariant (sound_construct h₀) (fun _ _ _ hi _ hs => sound_step hi hs) (Machine.meets_true _ as) hr

def Asking (p : Pool) (k : Nat) : Prop :=
  p.callers[k]? = some .enter ∨ p.callers[k]? = some .waiting ∨ (∃ b, p.callers[k]? = some (.relock b)) ∨
    p.callers[k]? = some .inside ∧ ((∃ b, p.mutex = some (.callerTest k b)) ∨ p.mutex = some (.callerCheck k) ∨
      p.mutex = some (.callerPop k))

def Holding (p : Pool) (k : Nat) : Prop := ∃ conn, p.callers[k]? = some (.holding conn)

/-- The call has returned nothing, or its connection has been given back. -/
def Returned (p : Pool) (k : Nat) : Prop := p.callers[k]? = some .returned

def Giving (p : Pool) (k : Nat) : Prop :=
  Holding p k ∨ Returned p k ∨
    p.callers[k]? = some .inside ∧ ((∃ conn, p.mutex = some (.deleterTest k conn)) ∨
      ∃ conn, p.mutex = some (.deleterPut k conn true))

def Alone (p : Pool) (k : Nat) : Prop := ∀ k', k' ≠ k → p.callers[k']? ≠ some .inside

def Own (k : Nat) : Move → Prop
  | .produce _ | .critical | .spurious => True
  | .caller i _ => i = k
  | .call | .destruct => False

/-- `createConnection` succeeds well within the timeout, so that a wait ends
with the timeout only when there is a connection or no more may be made. -/
def InTime (c : PoolConfig) (p : Pool) : Move → Prop
  | .produce created => created = true
  | .caller _ timedOut => timedOut = true → c.maxSize ≤ p.connectionCnt ∨ p.connectionQueue ≠ []
  | _ => True

instance (c : PoolConfig) (p : Pool) : ∀ a, Decidable (InTime c p a)
  | .produce created => inferInstanceAs (Decidable (created = true))
  | .caller _ timedOut => inferInstanceAs (Decidable (timedOut = true → c.maxSize ≤ p.connectionCnt ∨ p.connectionQueue ≠ []))
  | .critical | .call | .destruct | .spurious => inferInstanceAs (Decidable True)

/-- A call that has timed out finds a connection. -/
def Timed (p : Pool) (k : Nat) : Prop :=
  p.callers[k]? = some (.relock true) ∨ p.mutex = some (.callerTest k true) → p.connectionQueue ≠ []

def lentOthers (p : Pool) (k : Nat) : Multiset Conn := total lentBy (p.callers.set k .returned)

theorem owner_of_alone (h : Inv c p) (hr : p.isRunning = true) (ha : Alone p k) {s : Critical} (hm : p.mutex = some s) :
    owner s = .producer ∨ owner s = .caller k := by
  have hin := h.owned s hm
  cases hs : owner s with
  | producer => exact Or.inl rfl
  | caller i =>
    rw [hs] at hin
    by_cases hi : i = k
    · exact Or.inr (congrArg _ hi)
    · exact absurd hin (ha i hi)
  | destructor =>
    have hst := stopped_of_inside h hm hs
    rw [hr] at hst
    cases hst

theorem lent_asking (h : Sound c p) (hr : p.isRunning = true) (ha : Alone p k) (hk : Asking p k) :
    borrowed p = lentOthers p k := by
  have hm : p.mutex.elim 0 lentIn = 0 := by
    cases hm : p.mutex with
    | none => rfl
    | some s =>
      have ho := owner_of_alone h.inv hr ha hm
      have hin := h.inv.owned s hm
      cases s <;> grind [Asking, owner, lentIn, Inside]
  have ht : lentOthers p k = total lentBy p.callers := by
    obtain hk | hk | ⟨b, hk⟩ | ⟨hk, -⟩ := hk
    all_goals exact total_set_eq hk rfl
  rw [borrowed, hm, add_zero, ht]

theorem count_asking (h : Sound c p) (hr : p.isRunning = true) (ha : Alone p k) (hk : Asking p k) :
    p.connectionCnt = p.connectionQueue.length + (lentOthers p k).card := by
  have hp : (p.connectionQueue : Multiset Conn) + borrowed p + p.deleted = p.admitted := h.inv.balanced.places
  rw [(h.busy hr).deleted, lent_asking h hr ha hk] at hp
  have hcard := congrArg Multiset.card hp
  simp only [Multiset.card_add, Multiset.coe_card, List.length_nil, add_zero] at hcard
  have hc : p.connectionCnt = p.admitted.length := h.inv.balanced.admitted
  rw [hc, ← hcard]
  push_cast
  rfl

theorem queue_of_full (h : Sound c p) (hr : p.isRunning = true) (ha : Alone p k) (hk : Asking p k)
    (hl : ((lentOthers p k).card : Int) < c.maxSize) (hf : c.maxSize ≤ p.connectionCnt) : p.connectionQueue ≠ [] := by
  intro hq
  have hc := count_asking h hr ha hk
  rw [hq, List.length_nil] at hc
  omega

theorem full_of_blocked (h : Sound c p) (hr : p.isRunning = true) (hi : 0 < c.initSize) (hb : p.producer = .blocked) :
    c.maxSize ≤ p.connectionCnt ∨ p.connectionQueue ≠ [] := by
  have hf : p.full c = true := h.attentive hr (Or.inl hb)
  simp only [Pool.full, Bool.or_eq_true, decide_eq_true_eq] at hf
  refine hf.symm.imp_right fun hf hq => ?_
  rw [hq, List.length_nil] at hf
  omega

structure Frame (p p' : Pool) (k : Nat) : Prop where
  running : p'.isRunning = true
  others : p'.callers.set k .returned = p.callers.set k .returned

theorem Frame.lookup (h : Frame p p' k) {k' : Nat} (hk : k' ≠ k) : p'.callers[k']? = p.callers[k']? := by
  rw [← List.getElem?_set_ne (Ne.symm hk), h.others, List.getElem?_set_ne (Ne.symm hk)]

theorem Frame.alone (h : Frame p p' k) (ha : Alone p k) : Alone p' k := by
  intro k' hk
  rw [h.lookup hk]
  exact ha k' hk

theorem Frame.lent (h : Frame p p' k) : lentOthers p' k = lentOthers p k := congrArg (total lentBy) h.others

theorem frame_critical (h : Sound c p) (hr : p.isRunning = true) (ha : Alone p k) {s : Critical}
    (hm : p.mutex = some s) : Frame p (p.critical c s) k := by
  have ho := owner_of_alone h.inv hr ha hm
  have hput := (h.busy hr).putting
  cases s with
  | deleterPut i conn running =>
    cases running with
    | false => exact absurd hm (hput i conn)
    | true => refine ⟨?_, ?_⟩ <;> grind [Pool.critical, Pool.setCaller, owner, List.set_set]
  | _ => refine ⟨?_, ?_⟩ <;> grind [Pool.critical, Pool.setCaller, Pool.notifyProducer, owner, List.set_set]

theorem frame_step (h : Sound c p) (hr : p.isRunning = true) (ha : Alone p k) {a : Move} (hown : Own k a)
    (hs : ConnectionPool.step c p a = some p') : Frame p p' k := by
  cases a with
  | critical =>
    obtain ⟨s, hm, rfl⟩ := Option.map_eq_some_iff.mp hs
    exact frame_critical h hr ha hm
  | produce created =>
    obtain ⟨hp, rfl⟩ | ⟨hp, hm, rfl⟩ | ⟨hp, rfl⟩ | ⟨hp, rfl⟩ | ⟨conn, hp, hm, rfl⟩ | ⟨hp, rfl⟩ :=
      produce_cases hs
    all_goals exact ⟨hr, rfl⟩
  | caller i timedOut =>
    cases hown
    obtain ⟨hp, hm, rfl⟩ | ⟨hp, rfl⟩ | ⟨b, hp, hm, rfl⟩ | ⟨conn, hp, hm, rfl⟩ := caller_cases hs
    all_goals exact ⟨hr, List.set_set ..⟩
  | spurious =>
    obtain ⟨_, hs⟩ := Option.ite_none_right_eq_some.mp hs
    cases hs
    exact ⟨hr, rfl⟩
  | call | destruct => exact absurd hown id

theorem critical_producer (c : PoolConfig) (p : Pool) {s : Critical} (ho : owner s = .producer) :
    (p.critical c s).callers = p.callers ∧
      (p.connectionQueue ≠ [] → (p.critical c s).connectionQueue ≠ []) ∧
      ∀ s', (p.critical c s).mutex = some s' → owner s' = .producer := by
  cases s with
  | producerTest | producerBlock | producerCheck | producerRecheck conn | producerAdmit conn =>
    refine ⟨?_, ?_, ?_⟩ <;> grind [Pool.critical, owner, List.append_eq_nil_iff]
  | _ => cases ho

theorem section_of_asking (h : Sound c p) (hr : p.isRunning = true) (ha : Alone p k) (hk : Asking p k) {s : Critical}
    (hm : p.mutex = some s) : owner s = .producer ∨
      p.callers[k]? = some .inside ∧ ((∃ b, s = .callerTest k b) ∨ s = .callerCheck k ∨ s = .callerPop k) := by
  obtain ho | ho := owner_of_alone h.inv hr ha hm
  · exact Or.inl ho
  · right
    have hin := h.inv.owned s hm
    rw [ho] at hin
    have hin : p.callers[k]? = some .inside := hin
    obtain hk | hk | ⟨b, hk⟩ | ⟨-, ⟨b, hk⟩ | hk | hk⟩ := hk
    · rw [hk] at hin
      cases hin
    · rw [hk] at hin
      cases hin
    · rw [hk] at hin
      cases hin
    all_goals
      rw [hm] at hk
      cases hk
      simp [hin]

theorem Asking.lt_length (hk : Asking p k) : k < p.callers.length := by
  obtain hk | hk | ⟨b, hk⟩ | ⟨hk, -⟩ := hk
  all_goals exact (List.getElem?_eq_some_iff.mp hk).1

theorem asking_critical (h : Sound c p) (hr : p.isRunning = true) (ha : Alone p k) (hk : Asking p k) {s : Critical}
    (hm : p.mutex = some s) :
    (owner s = .producer ∧ Asking (p.critical c s) k) ∨
    (∃ b, s = .callerTest k b ∧ p.connectionQueue ≠ [] ∧ (p.critical c s).callers[k]? = some .inside ∧
      (p.critical c s).mutex = some (.callerCheck k)) ∨
    (s = .callerTest k false ∧ p.connectionQueue = [] ∧ (p.critical c s).callers[k]? = some .waiting ∧
      (p.critical c s).mutex = none) ∨
    (s = .callerTest k true ∧ p.connectionQueue = [] ∧ Returned (p.critical c s) k) ∨
    (s = .callerCheck k ∧ (p.critical c s).callers[k]? = some .inside ∧ (p.critical c s).mutex = some (.callerPop k)) ∨
    s = .callerPop k ∧ p.connectionQueue ≠ [] ∧ Holding (p.critical c s) k := by
  have hlen := hk.lt_length
  obtain ho | ⟨hin, ⟨b, rfl⟩ | rfl | rfl⟩ := section_of_asking h hr ha hk hm
  · left
    obtain ⟨hc, -, -⟩ := critical_producer c p ho
    refine ⟨ho, ?_⟩
    obtain hk | hk | ⟨b, hk⟩ | ⟨-, ⟨b, hk⟩ | hk | hk⟩ := hk
    · exact Or.inl (by rw [hc, hk])
    · exact Or.inr (Or.inl (by rw [hc, hk]))
    · exact Or.inr (Or.inr (Or.inl ⟨b, by rw [hc, hk]⟩))
    all_goals
      rw [hm] at hk
      cases hk
      cases ho
  · by_cases hq : p.connectionQueue = []
    · cases b <;> simp [Pool.critical, Pool.setCaller, Returned, hq, hr, hlen]
    · simp [Pool.critical, hq, hin]
  · simp [Pool.critical, hr, hin]
  · have hq := h.inv.staged.popping k hm
    obtain ⟨conn, rest, hq⟩ := List.exists_cons_of_ne_nil hq
    simp only [Pool.critical, hq]
    split <;> simp [Pool.setCaller, Pool.notifyProducer, Holding, hlen]

theorem asking_step (h : Sound c p) (hr : p.isRunning = true) (ha : Alone p k) (hk : Asking p k) {a : Move}
    (hown : Own k a) (hs : ConnectionPool.step c p a = some p') :
    Asking p' k ∨ (Holding p' k ∧ p.connectionQueue ≠ []) ∨
      Returned p' k ∧ p.mutex = some (.callerTest k true) ∧ p.connectionQueue = [] := by
  cases a with
  | critical =>
    obtain ⟨s, hm, rfl⟩ := Option.map_eq_some_iff.mp hs
    obtain ⟨-, hk'⟩ | ⟨b, rfl, -, hin, hm'⟩ | ⟨rfl, -, hw, -⟩ | ⟨rfl, hq, hret⟩ | ⟨rfl, hin, hm'⟩ | ⟨rfl, hq, hh⟩ :=
      asking_critical h hr ha hk hm
    · exact Or.inl hk'
    · exact Or.inl (Or.inr (Or.inr (Or.inr ⟨hin, Or.inr (Or.inl hm')⟩)))
    · exact Or.inl (Or.inr (Or.inl hw))
    · exact Or.inr (Or.inr ⟨hret, hm, hq⟩)
    · exact Or.inl (Or.inr (Or.inr (Or.inr ⟨hin, Or.inr (Or.inr hm')⟩)))
    · exact Or.inr (Or.inl ⟨hh, hq⟩)
  | produce created =>
    left
    obtain ⟨hp, rfl⟩ | ⟨hp, hm, rfl⟩ | ⟨hp, rfl⟩ | ⟨hp, rfl⟩ | ⟨conn, hp, hm, rfl⟩ | ⟨hp, rfl⟩ :=
      produce_cases hs
    all_goals grind [Asking]
  | caller i timedOut =>
    left
    have hlen := hk.lt_length
    cases hown
    obtain ⟨hp, hm, rfl⟩ | ⟨hp, rfl⟩ | ⟨b, hp, hm, rfl⟩ | ⟨conn, hp, hm, rfl⟩ := caller_cases hs
    all_goals grind [Asking]
  | spurious =>
    obtain ⟨_, hs⟩ := Option.ite_none_right_eq_some.mp hs
    cases hs
    exact Or.inl hk
  | call | destruct => exact absurd hown id

theorem timed_step (h : Sound c p) (hr : p.isRunning = true) (ha : Alone p k) (hk : Asking p k) (ht : Timed p k)
    (hl : ((lentOthers p k).card : Int) < c.maxSize) {a : Move} (hown : Own k a) (htime : InTime c p a)
    (hs : ConnectionPool.step c p a = some p') : Timed p' k := by
  cases a with
  | critical =>
    obtain ⟨s, hm, rfl⟩ := Option.map_eq_some_iff.mp hs
    obtain ⟨ho, -⟩ | ⟨b, rfl, -, hin, hm'⟩ | ⟨rfl, -, hw, hm'⟩ | ⟨rfl, hq, -⟩ | ⟨rfl, hin, hm'⟩ | ⟨rfl, hq, conn, hh⟩ :=
      asking_critical h hr ha hk hm
    · obtain ⟨hc, hq, hm'⟩ := critical_producer c p ho
      rintro (hb | hb)
      · rw [hc] at hb
        exact hq (ht (Or.inl hb))
      · cases hm' _ hb
    · simp [Timed, hin, hm']
    · simp [Timed, hw, hm']
    · exact absurd hq (ht (Or.inr hm))
    · simp [Timed, hin, hm']
    · have hm' : (p.critical c (.callerPop k)).mutex = none := by
        obtain ⟨conn, rest, hq⟩ := List.exists_cons_of_ne_nil hq
        simp only [Pool.critical, hq]
        split <;> rfl
      simp [Timed, hh, hm']
  | produce created =>
    obtain ⟨hp, rfl⟩ | ⟨hp, hm, rfl⟩ | ⟨hp, rfl⟩ | ⟨hp, rfl⟩ | ⟨conn, hp, hm, rfl⟩ | ⟨hp, rfl⟩ :=
      produce_cases hs
    all_goals grind [Timed]
  | caller i timedOut =>
    have hf := queue_of_full h hr ha hk hl
    cases hown
    obtain ⟨hp, hm, rfl⟩ | ⟨hp, rfl⟩ | ⟨b, hp, hm, rfl⟩ | ⟨conn, hp, hm, rfl⟩ := caller_cases hs
    all_goals grind [Timed, Asking, InTime]
  | spurious =>
    obtain ⟨_, hs⟩ := Option.ite_none_right_eq_some.mp hs
    cases hs
    exact ht
  | call | destruct => exact absurd hown id

theorem giving_step (h : Sound c p) (hr : p.isRunning = true) (ha : Alone p k) (hk : Giving p k) {a : Move}
    (hown : Own k a) (hs : ConnectionPool.step c p a = some p') : Giving p' k := by
  cases a with
  | critical =>
    obtain ⟨s, hm, rfl⟩ := Option.map_eq_some_iff.mp hs
    have ho := owner_of_alone h.inv hr ha hm
    have hin := h.inv.owned s hm
    cases s with
    | deleterPut i conn running =>
      cases running <;> grind [Giving, Holding, Returned, owner, Inside, Pool.critical, Pool.setCaller]
    | _ => grind [Giving, Holding, Returned, Pool.critical, Pool.setCaller, Pool.notifyProducer, owner, Inside]
  | produce created =>
    obtain ⟨hp, rfl⟩ | ⟨hp, hm, rfl⟩ | ⟨hp, rfl⟩ | ⟨hp, rfl⟩ | ⟨conn, hp, hm, rfl⟩ | ⟨hp, rfl⟩ :=
      produce_cases hs
    all_goals grind [Giving, Holding, Returned]
  | caller i timedOut =>
    cases hown
    obtain ⟨hp, hm, rfl⟩ | ⟨hp, rfl⟩ | ⟨b, hp, hm, rfl⟩ | ⟨conn, hp, hm, rfl⟩ := caller_cases hs
    all_goals grind [Giving, Holding, Returned]
  | spurious =>
    obtain ⟨_, hs⟩ := Option.ite_none_right_eq_some.mp hs
    cases hs
    exact hk
  | call | destruct => exact absurd hown id

theorem still_step (h : Sound c p) (hr : p.isRunning = true) (ha : Alone p k) (hk : p.callers[k]? ≠ some .inside)
    {a : Move} (hown : Own k a) (hn : ∀ timedOut, a ≠ .caller k timedOut)
    (hs : ConnectionPool.step c p a = some p') : p'.callers = p.callers := by
  cases a with
  | critical =>
    obtain ⟨s, hm, rfl⟩ := Option.map_eq_some_iff.mp hs
    obtain ho | ho := owner_of_alone h.inv hr ha hm
    · exact (critical_producer c p ho).1
    · have hin := h.inv.owned s hm
      rw [ho] at hin
      exact absurd hin hk
  | produce created =>
    obtain ⟨hp, rfl⟩ | ⟨hp, hm, rfl⟩ | ⟨hp, rfl⟩ | ⟨hp, rfl⟩ | ⟨conn, hp, hm, rfl⟩ | ⟨hp, rfl⟩ :=
      produce_cases hs
    all_goals rfl
  | caller i timedOut =>
    cases hown
    exact absurd rfl (hn timedOut)
  | spurious =>
    obtain ⟨_, hs⟩ := Option.ite_none_right_eq_some.mp hs
    cases hs
    rfl
  | call | destruct => exact absurd hown id

def Room (c : PoolConfig) (p : Pool) (k : Nat) : Prop := ((lentOthers p k).card : Int) < c.maxSize

/-- A call gets a connection if the pool may lend it one. -/
def Served (c : PoolConfig) (p : Pool) (k : Nat) : Prop :=
  Asking p k ∧ (Room c p k → Timed p k) ∨ Holding p k ∧ Room c p k ∨ Returned p k ∧ ¬ Room c p k

theorem served_call (h : Sound c p) : Served c { p with callers := p.callers ++ [.enter] } p.callers.length := by
  refine Or.inl ⟨Or.inl (by simp), fun _ ht => ?_⟩
  obtain ht | ht := ht
  · simp at ht
  · have hin : p.callers[p.callers.length]? = some .inside := h.inv.owned _ ht
    simp at hin

theorem served_step (h : Sound c p) (hr : p.isRunning = true) (ha : Alone p k) (hk : Served c p k) {a : Move}
    (hown : Own k a) (hn : ∀ timedOut, a = .caller k timedOut → ¬ Holding p k) (htime : InTime c p a)
    (hs : ConnectionPool.step c p a = some p') : Served c p' k := by
  have hroom : Room c p' k ↔ Room c p k := by rw [Room, Room, (frame_step h hr ha hown hs).lent]
  obtain ⟨hk, ht⟩ | ⟨hk, hl⟩ | ⟨hk, hl⟩ := hk
  · obtain hk' | ⟨hk', hq⟩ | ⟨hk', hm, hq⟩ := asking_step h hr ha hk hown hs
    · exact Or.inl ⟨hk', fun hl => timed_step h hr ha hk (ht (hroom.mp hl)) (hroom.mp hl) hown htime hs⟩
    · refine Or.inr (Or.inl ⟨hk', hroom.mpr ?_⟩)
      have hc := count_asking h hr ha hk
      have hmax : p.connectionCnt ≤ c.maxSize := h.inv.balanced.room
      have hpos := List.length_pos_of_ne_nil hq
      rw [Room]
      omega
    · exact Or.inr (Or.inr ⟨hk', fun hl => ht (hroom.mp hl) (Or.inr hm) hq⟩)
  · obtain ⟨conn, hconn⟩ := id hk
    have hc := still_step h hr ha (by simp [hconn]) hown (fun b hb => hn b hb hk) hs
    exact Or.inr (Or.inl ⟨⟨conn, hc ▸ hconn⟩, hroom.mpr hl⟩)
  · have hret : p.callers[k]? = some .returned := hk
    have hc := still_step h hr ha (by simp [hret]) hown (by
      rintro b rfl
      simp [ConnectionPool.step, Pool.caller, hret] at hs) hs
    exact Or.inr (Or.inr ⟨by rwa [Returned, hc], fun hl' => hl (hroom.mp hl')⟩)

def sectionRank : Critical → Nat
  | .producerTest | .producerRecheck _ => 2
  | .producerBlock | .producerCheck | .producerAdmit _ => 1
  | _ => 0

def mutexRank (p : Pool) : Nat := p.mutex.elim 0 sectionRank

/-- The steps of the producer until it has added a connection to an empty queue
or has nothing left to do. A producer of a full pool goes round once more. -/
def producerRank (c : PoolConfig) (p : Pool) : Nat :=
  let late := if p.full c then 20 else 0
  match p.mutex with
  | some .producerTest => 11
  | some .producerBlock => 1
  | some .producerCheck => 10 + late
  | some (.producerRecheck _) => 7 + late
  | some (.producerAdmit _) => 6 + late
  | _ => match p.producer with
    | .notify => 14
    | .loop => 13
    | .lockWait => 12
    | .create => 9 + late
    | .lockAdmit _ => 8 + late
    | _ => 0

/-- How far a call of `getConnection` is from its end when it may time out. -/
def askRank (c : PoolConfig) (p : Pool) (k : Nat) : Nat :=
  match p.callers[k]? with
  | some .enter | some (.relock false) => 200 + mutexRank p
  | some (.relock true) => 20 + mutexRank p
  | some .waiting => 50 + if p.connectionQueue = [] then 1 + producerRank c p else 0
  | some .inside => match p.mutex with
    | some (.callerTest _ false) => 150
    | some (.callerTest _ true) => 8
    | some (.callerCheck _) => 7
    | some (.callerPop _) => 6
    | _ => 0
  | _ => 0

def giveRank (p : Pool) (k : Nat) : Nat :=
  match p.callers[k]? with
  | some (.holding _) => 10 + mutexRank p
  | some .inside => match p.mutex with
    | some (.deleterTest ..) => 5
    | some (.deleterPut ..) => 4
    | _ => 0
  | _ => 0

theorem mutexRank_critical (c : PoolConfig) {s : Critical} (hm : p.mutex = some s) (ho : owner s = .producer) :
    mutexRank (p.critical c s) < mutexRank p := by
  cases s with
  | producerTest | producerBlock | producerCheck | producerRecheck conn | producerAdmit conn =>
    grind [Pool.critical, mutexRank, sectionRank, Option.elim]
  | _ => cases ho

theorem critical_eq {s : Critical} (hm : p.mutex = some s) :
    ConnectionPool.step c p .critical = some (p.critical c s) := by
  rw [ConnectionPool.step, hm]
  rfl

theorem producerRank_step (h : Sound c p) (hr : p.isRunning = true) (hq : p.connectionQueue = [])
    (hb : p.producer ≠ .blocked) (ho : ∀ s, p.mutex = some s → owner s = .producer) :
    ∃ a p', Own k a ∧ InTime c p a ∧ ConnectionPool.step c p a = some p' ∧ p'.callers = p.callers ∧
      (p'.connectionQueue = [] → producerRank c p' < producerRank c p) := by
  cases hm : p.mutex with
  | some s =>
    refine ⟨.critical, _, trivial, trivial, critical_eq hm, (critical_producer c p (ho s hm)).1, ?_⟩
    have hs := ho s hm
    cases s with
    | producerTest | producerBlock | producerCheck | producerRecheck conn | producerAdmit conn =>
      grind [Pool.critical, producerRank, Pool.full]
    | _ => cases hs
  | none =>
    have hbusy := h.busy hr
    obtain ⟨p', hp', hc, hrank⟩ : ∃ p', p.produce true = some p' ∧ p'.callers = p.callers ∧
        producerRank c p' < producerRank c p := by
      cases hp : p.producer with
      | loop => exact ⟨{ p with producer := .lockWait }, by simp [Pool.produce, hp, hr], rfl, by simp [producerRank, hm, hp]⟩
      | lockWait =>
        exact ⟨{ p with producer := .inside, mutex := some .producerTest }, by simp [Pool.produce, hp, Pool.enter, hm], rfl,
          by simp [producerRank, hm, hp]⟩
      | create =>
        exact ⟨{ p with producer := .lockAdmit p.made, made := p.made + 1 }, by simp [Pool.produce, hp], rfl,
          by simp [producerRank, hm, hp, Pool.full]⟩
      | lockAdmit conn =>
        exact ⟨{ p with producer := .inside, mutex := some (.producerRecheck conn) },
          by simp [Pool.produce, hp, Pool.enter, hm], rfl, by simp [producerRank, hm, hp, Pool.full]⟩
      | notify => exact ⟨{ p with producer := .loop }, by simp [Pool.produce, hp], rfl, by simp [producerRank, hm, hp]⟩
      | blocked => exact absurd hp hb
      | exited => exact absurd hp hbusy.exited
      | inside =>
        obtain ⟨s, hs, -⟩ := hbusy.inside hp
        rw [hm] at hs
        cases hs
    exact ⟨.produce true, p', trivial, rfl, hp', hc, fun _ => hrank⟩

theorem askRank_step (h : Sound c p) (hr : p.isRunning = true) (ha : Alone p k) (hk : Asking p k)
    (hi : 0 < c.initSize) :
    ∃ a p', Own k a ∧ InTime c p a ∧ ConnectionPool.step c p a = some p' ∧ askRank c p' k < askRank c p k := by
  have hlen := hk.lt_length
  -- a section of the producer is over before a call that waits for the mutex goes on
  have hsection : ∀ s, p.mutex = some s → owner s = .producer → (∀ p', p'.callers = p.callers →
      mutexRank p' < mutexRank p → askRank c p' k < askRank c p k) →
      ∃ a p', Own k a ∧ InTime c p a ∧ ConnectionPool.step c p a = some p' ∧ askRank c p' k < askRank c p k :=
    fun s hm ho hrank => ⟨.critical, _, trivial, trivial, critical_eq hm,
      hrank _ (critical_producer c p ho).1 (mutexRank_critical c hm ho)⟩
  obtain hk' | hk' | ⟨b, hk'⟩ | ⟨hk', hm⟩ := id hk
  · cases hm : p.mutex with
    | none =>
      refine ⟨.caller k false, { p with callers := p.callers.set k .inside, mutex := some (.callerTest k false) }, rfl,
        by simp [InTime], by simp [ConnectionPool.step, Pool.caller, hk', Pool.setCaller, Pool.enter, hm], ?_⟩
      simp only [askRank, hk', List.getElem?_set_self hlen]
      omega
    | some s =>
      obtain ho | ⟨hin, -⟩ := section_of_asking h hr ha hk hm
      · refine hsection s hm ho fun p' hc hlt => ?_
        simp only [askRank, hc, hk']
        omega
      · rw [hk'] at hin
        cases hin
  · by_cases hw : p.producer = .blocked ∨ p.connectionQueue ≠ []
    · refine ⟨.caller k true, { p with callers := p.callers.set k (.relock true) }, rfl,
        fun _ => hw.elim (full_of_blocked h hr hi) Or.inr,
        by simp [ConnectionPool.step, Pool.caller, hk', Pool.setCaller], ?_⟩
      have hmr : mutexRank p ≤ 2 := by
        unfold mutexRank
        cases p.mutex with
        | none => simp
        | some s => cases s <;> simp [sectionRank]
      simp only [askRank, hk', List.getElem?_set_self hlen, mutexRank] at hmr ⊢
      omega
    · rw [not_or, not_not] at hw
      have ho : ∀ s, p.mutex = some s → owner s = .producer := by
        intro s hm
        obtain ho | ⟨hin, -⟩ := section_of_asking h hr ha hk hm
        · exact ho
        · rw [hk'] at hin
          cases hin
      obtain ⟨a, p', hown, htime, hs, hc, hrank⟩ := producerRank_step h hr hw.2 hw.1 ho (k := k)
      refine ⟨a, p', hown, htime, hs, ?_⟩
      simp only [askRank, hc, hk', hw.2, if_true]
      split
      · rename_i hq
        have := hrank hq
        omega
      · omega
  · cases hm : p.mutex with
    | none =>
      refine ⟨.caller k false, { p with callers := p.callers.set k .inside, mutex := some (.callerTest k b) }, rfl,
        by simp [InTime], by simp [ConnectionPool.step, Pool.caller, hk', Pool.setCaller, Pool.enter, hm], ?_⟩
      cases b <;> simp only [askRank, hk', List.getElem?_set_self hlen] <;> omega
    | some s =>
      obtain ho | ⟨hin, -⟩ := section_of_asking h hr ha hk hm
      · refine hsection s hm ho fun p' hc hlt => ?_
        cases b <;> simp only [askRank, hc, hk'] <;> omega
      · rw [hk'] at hin
        cases hin
  · obtain ⟨s, hm'⟩ : ∃ s, p.mutex = some s := by
      obtain ⟨b, hm⟩ | hm | hm := hm
      all_goals exact ⟨_, hm⟩
    refine ⟨.critical, _, trivial, trivial, critical_eq hm', ?_⟩
    obtain ⟨ho, -⟩ | ⟨b, rfl, -, hin, hm''⟩ | ⟨rfl, -, hw, hm''⟩ | ⟨rfl, -, hret⟩ | ⟨rfl, hin, hm''⟩ |
      ⟨rfl, -, conn, hh⟩ := asking_critical h hr ha hk hm'
    · obtain ⟨b, hm⟩ | hm | hm := hm
      all_goals
        rw [hm'] at hm
        cases hm
        cases ho
    · cases b <;> simp [askRank, hk', hm', hin, hm'']
    · have hle : producerRank c (p.critical c (.callerTest k false)) ≤ 30 := by
        unfold producerRank
        rw [hm'']
        grind
      simp only [askRank, hk', hm', hw]
      split <;> omega
    · rw [Returned] at hret
      simp [askRank, hk', hm', hret]
    · simp [askRank, hk', hm', hin, hm'']
    · simp [askRank, hk', hm', hh]

theorem giveRank_step (h : Sound c p) (hr : p.isRunning = true) (ha : Alone p k) (hk : Giving p k)
    (hn : ¬ Returned p k) :
    ∃ a p', Own k a ∧ InTime c p a ∧ ConnectionPool.step c p a = some p' ∧ giveRank p' k < giveRank p k := by
  obtain ⟨conn, hk'⟩ | hk' | ⟨hk', hm⟩ := hk
  · have hlen : k < p.callers.length := (List.getElem?_eq_some_iff.mp hk').1
    cases hm : p.mutex with
    | none =>
      refine ⟨.caller k false, { p with callers := p.callers.set k .inside, mutex := some (.deleterTest k conn) }, rfl,
        by simp [InTime], by simp [ConnectionPool.step, Pool.caller, hk', Pool.setCaller, Pool.enter, hm], ?_⟩
      simp only [giveRank, hk', List.getElem?_set_self hlen]
      omega
    | some s =>
      have ho : owner s = .producer := by
        obtain ho | ho := owner_of_alone h.inv hr ha hm
        · exact ho
        · have hin := h.inv.owned s hm
          rw [ho] at hin
          have hin : p.callers[k]? = some .inside := hin
          rw [hk'] at hin
          cases hin
      refine ⟨.critical, _, trivial, trivial, critical_eq hm, ?_⟩
      have hlt := mutexRank_critical c hm ho
      simp only [giveRank, (critical_producer c p ho).1, hk']
      omega
  · exact absurd hk' hn
  · have hlen : k < p.callers.length := (List.getElem?_eq_some_iff.mp hk').1
    obtain ⟨conn, hm⟩ | ⟨conn, hm⟩ := hm
    · exact ⟨.critical, _, trivial, trivial, critical_eq hm, by simp [giveRank, Pool.critical, hk', hm]⟩
    · refine ⟨.critical, _, trivial, trivial, critical_eq hm, ?_⟩
      simp only [giveRank, Pool.critical, Pool.setCaller, hm, hk', List.getElem?_set_self hlen]
      omega

end BridgeIM.Db.SingleCaller
