import BridgeIM.Db.ConnectionPool
import Mathlib.Data.Multiset.Range

namespace BridgeIM.Db.PoolLedger

open Lib ConnectionPool

/-- What a pool of lent resources has to account for. -/
@[ext] structure Ledger where
  idle : List Conn
  lent : Multiset Conn
  carried : Multiset Conn
  deleted : Multiset Conn
  admitted : Multiset Conn
  discarded : Multiset Conn
  made : Nat
  borrowedCnt : Int
  connectionCnt : Int

namespace Ledger

inductive Step (max : Int) : Ledger → Ledger → Prop
  | skip (a : Ledger) : Step max a a
  | make (a : Ledger) : Step max a { a with carried := a.carried + {a.made}, made := a.made + 1 }
  | discard (a : Ledger) {conn : Conn} {rest : Multiset Conn} (h : a.carried = rest + {conn}) :
    Step max a { a with carried := rest, discarded := a.discarded + {conn} }
  | adopt (a : Ledger) {conn : Conn} {rest : Multiset Conn} (h : a.carried = rest + {conn})
    (hroom : a.connectionCnt < max) :
    Step max a { a with carried := rest, idle := a.idle ++ [conn], admitted := a.admitted + {conn},
                        connectionCnt := a.connectionCnt + 1 }
  | lend (a : Ledger) {conn : Conn} {rest : List Conn} (h : a.idle = conn :: rest) :
    Step max a { a with idle := rest, lent := a.lent + {conn}, borrowedCnt := a.borrowedCnt + 1 }
  | giveBack (a : Ledger) {conn : Conn} {rest : Multiset Conn} (h : a.lent = rest + {conn}) :
    Step max a { a with lent := rest, idle := a.idle ++ [conn], borrowedCnt := a.borrowedCnt - 1 }
  | delete (a : Ledger) {conn : Conn} {rest : Multiset Conn} (h : a.lent = rest + {conn}) :
    Step max a { a with lent := rest, deleted := a.deleted + {conn}, borrowedCnt := a.borrowedCnt - 1 }
  | drain (a : Ledger) {conn : Conn} {rest : List Conn} (h : a.idle = conn :: rest) :
    Step max a { a with idle := rest, deleted := a.deleted + {conn} }

theorem Step.congr {max : Int} {a b b' : Ledger} (h : Step max a b) (hb : b' = b) : Step max a b' := by
  rw [hb]
  exact h

/-- Every admitted connection is idle, lent or deleted, once, and the counters
tell how many there are. -/
structure Balanced (max : Int) (a : Ledger) : Prop where
  places : (a.idle : Multiset Conn) + a.lent + a.deleted = a.admitted
  origin : a.admitted + a.carried + a.discarded = Multiset.range a.made
  lent : a.borrowedCnt = a.lent.card
  admitted : a.connectionCnt = a.admitted.card
  room : a.connectionCnt ≤ max

theorem Balanced.nodup {max : Int} {a : Ledger} (h : a.Balanced max) : a.admitted.Nodup := by
  have hn : (a.admitted + a.carried + a.discarded).Nodup := by
    rw [h.origin]
    exact Multiset.nodup_range _
  exact (Multiset.nodup_add.mp (Multiset.nodup_add.mp hn).1).1

theorem Balanced.step {max : Int} {a b : Ledger} (h : a.Balanced max) (hs : Step max a b) : b.Balanced max := by
  cases hs with
  | skip => exact h
  | make =>
    refine ⟨h.places, ?_, h.lent, h.admitted, h.room⟩
    rw [Multiset.range_succ, ← h.origin, ← Multiset.singleton_add]
    dsimp only
    abel
  | @discard conn rest hc =>
    refine ⟨h.places, ?_, h.lent, h.admitted, h.room⟩
    rw [← h.origin, hc]
    dsimp only
    abel
  | @adopt conn rest hc hroom =>
    refine ⟨?_, ?_, h.lent, ?_, hroom⟩
    · rw [← Multiset.coe_add, ← h.places, Multiset.coe_singleton]
      dsimp only
      abel
    · rw [← h.origin, hc]
      dsimp only
      abel
    · rw [h.admitted, Multiset.card_add, Multiset.card_singleton]
      rfl
  | @lend conn rest hi =>
    have hp := h.places
    rw [hi, ← Multiset.cons_coe, ← Multiset.singleton_add] at hp
    refine ⟨?_, h.origin, ?_, h.admitted, h.room⟩
    · rw [← hp]
      dsimp only
      abel
    · rw [h.lent, Multiset.card_add, Multiset.card_singleton]
      rfl
  | @giveBack conn rest hl =>
    have hp := h.places
    rw [hl] at hp
    refine ⟨?_, h.origin, ?_, h.admitted, h.room⟩
    · rw [← Multiset.coe_add, ← hp, Multiset.coe_singleton]
      dsimp only
      abel
    · rw [h.lent, hl, Multiset.card_add, Multiset.card_singleton, Nat.cast_add, Nat.cast_one, add_sub_cancel_right]
  | @delete conn rest hl =>
    have hp := h.places
    rw [hl] at hp
    refine ⟨?_, h.origin, ?_, h.admitted, h.room⟩
    · rw [← hp]
      dsimp only
      abel
    · rw [h.lent, hl, Multiset.card_add, Multiset.card_singleton, Nat.cast_add, Nat.cast_one, add_sub_cancel_right]
  | @drain conn rest hi =>
    have hp := h.places
    rw [hi, ← Multiset.cons_coe, ← Multiset.singleton_add] at hp
    refine ⟨?_, h.origin, h.lent, h.admitted, h.room⟩
    rw [← hp]
    dsimp only
    abel

end Ledger

@[simp] def lentBy : Caller → Multiset Conn
  | .holding conn => {conn}
  | _ => 0

@[simp] def lentIn : Critical → Multiset Conn
  | .deleterTest _ conn | .deleterPut _ conn _ => {conn}
  | _ => 0

@[simp] def carriedBy : Producer → Multiset Conn
  | .lockAdmit conn => {conn}
  | _ => 0

@[simp] def carriedIn : Critical → Multiset Conn
  | .producerRecheck conn | .producerAdmit conn => {conn}
  | _ => 0

def borrowed (s : Pool) : Multiset Conn := total lentBy s.callers + s.mutex.elim 0 lentIn

def carried (s : Pool) : Multiset Conn := carriedBy s.producer + s.mutex.elim 0 carriedIn

def ledger (s : Pool) : Ledger where
  idle := s.connectionQueue
  lent := borrowed s
  carried := carried s
  deleted := s.deleted
  admitted := s.admitted
  discarded := s.discarded
  made := s.made
  borrowedCnt := s.borrowedCnt
  connectionCnt := s.connectionCnt

inductive Party
  | producer
  | caller (i : Nat)
  | destructor

def owner : Critical → Party
  | .producerTest | .producerBlock | .producerCheck | .producerRecheck _ | .producerAdmit _ => .producer
  | .callerTest i _ | .callerCheck i | .callerPop i | .deleterTest i _ | .deleterPut i .. => .caller i
  | .destructorTest | .drain => .destructor

def Inside (s : Pool) : Party → Prop
  | .producer => s.producer = .inside
  | .caller i => s.callers[i]? = some .inside
  | .destructor => s.destructor = .inside

def Owned (s : Pool) : Prop := ∀ k, s.mutex = some k → Inside s (owner k)

variable {c : PoolConfig} {s s' : Pool} {i : Nat}

theorem enter_eq_some {k : Critical} : s.enter k = some s' ↔ s.mutex = none ∧ s' = { s with mutex := some k } := by
  unfold Pool.enter
  cases s.mutex with
  | none => simp [eq_comm]
  | some _ => simp

theorem produce_cases {created : Bool} (h : s.produce created = some s') :
    (s.producer = .loop ∧ s' = { s with producer := if s.isRunning then .lockWait else .exited }) ∨
    (s.producer = .lockWait ∧ s.mutex = none ∧ s' = { s with producer := .inside, mutex := some .producerTest }) ∨
    (s.producer = .create ∧ s' = { s with producer := .lockAdmit s.made, made := s.made + 1 }) ∨
    (s.producer = .create ∧ s' = { s with producer := .loop }) ∨
    (∃ conn, s.producer = .lockAdmit conn ∧ s.mutex = none ∧
      s' = { s with producer := .inside, mutex := some (.producerRecheck conn) }) ∨
    s.producer = .notify ∧ s' = { s with producer := .loop } := by
  unfold Pool.produce at h
  split at h
  · rename_i hp
    cases h
    exact Or.inl ⟨hp, rfl⟩
  · rename_i hp
    obtain ⟨hm, rfl⟩ := enter_eq_some.mp h
    exact Or.inr (Or.inl ⟨hp, hm, rfl⟩)
  · rename_i hp
    split at h
    · cases h
      exact Or.inr (Or.inr (Or.inl ⟨hp, rfl⟩))
    · cases h
      exact Or.inr (Or.inr (Or.inr (Or.inl ⟨hp, rfl⟩)))
  · rename_i conn hp
    obtain ⟨hm, rfl⟩ := enter_eq_some.mp h
    exact Or.inr (Or.inr (Or.inr (Or.inr (Or.inl ⟨conn, hp, hm, rfl⟩))))
  · rename_i hp
    cases h
    exact Or.inr (Or.inr (Or.inr (Or.inr (Or.inr ⟨hp, rfl⟩))))
  all_goals cases h

theorem caller_cases {timedOut : Bool} (h : s.caller i timedOut = some s') :
    (s.callers[i]? = some .enter ∧ s.mutex = none ∧
      s' = { s with callers := s.callers.set i .inside, mutex := some (.callerTest i false) }) ∨
    (s.callers[i]? = some .waiting ∧ s' = { s with callers := s.callers.set i (.relock timedOut) }) ∨
    (∃ b, s.callers[i]? = some (.relock b) ∧ s.mutex = none ∧
      s' = { s with callers := s.callers.set i .inside, mutex := some (.callerTest i b) }) ∨
    ∃ conn, s.callers[i]? = some (.holding conn) ∧ s.mutex = none ∧
      s' = { s with callers := s.callers.set i .inside, mutex := some (.deleterTest i conn) } := by
  unfold Pool.caller at h
  split at h
  · rename_i hp
    obtain ⟨hm, rfl⟩ := enter_eq_some.mp h
    exact Or.inl ⟨hp, hm, rfl⟩
  · rename_i hp
    cases h
    exact Or.inr (Or.inl ⟨hp, rfl⟩)
  · rename_i b hp
    obtain ⟨hm, rfl⟩ := enter_eq_some.mp h
    exact Or.inr (Or.inr (Or.inl ⟨b, hp, hm, rfl⟩))
  · rename_i conn hp
    obtain ⟨hm, rfl⟩ := enter_eq_some.mp h
    exact Or.inr (Or.inr (Or.inr ⟨conn, hp, hm, rfl⟩))
  · cases h

theorem destruct_cases (h : s.destruct = some s') :
    (s.destructor = .idle ∧ s' = { s with isRunning := false, destructor := .stopped }) ∨
    (s.destructor = .stopped ∧ s' = { s.notifyProducer with destructor := .notified }) ∨
    (s.destructor = .notified ∧ s' = { s with destructor := .joining }) ∨
    (s.destructor = .joining ∧ s.producer = .exited ∧ s' = { s with destructor := .lockShutdown }) ∨
    s.destructor = .lockShutdown ∧ s.mutex = none ∧
      s' = { s with destructor := .inside, mutex := some .destructorTest } := by
  unfold Pool.destruct at h
  split at h
  · rename_i hp
    cases h
    exact Or.inl ⟨hp, rfl⟩
  · rename_i hp
    cases h
    exact Or.inr (Or.inl ⟨hp, rfl⟩)
  · rename_i hp
    cases h
    exact Or.inr (Or.inr (Or.inl ⟨hp, rfl⟩))
  · rename_i hp
    obtain ⟨he, hs⟩ := Option.ite_none_right_eq_some.mp h
    cases hs
    exact Or.inr (Or.inr (Or.inr (Or.inl ⟨hp, he, rfl⟩)))
  · rename_i hp
    obtain ⟨hm, rfl⟩ := enter_eq_some.mp h
    exact Or.inr (Or.inr (Or.inr (Or.inr ⟨hp, hm, rfl⟩)))
  all_goals cases h

theorem owned_of_none (h : s.mutex = none) : Owned s := by
  intro k hk
  rw [h] at hk
  cases hk

theorem inside_notifyProducer (p : Party) (h : Inside s p) : Inside s.notifyProducer p := by
  cases p with
  | producer =>
    have hp : s.producer = .inside := h
    simp [Inside, Pool.notifyProducer, hp]
  | _ => exact h

theorem owned_critical {k : Critical} (hm : s.mutex = some k) (h : Owned s) : Owned (s.critical c k) := by
  have hk := h k hm
  cases k with
  | producerTest =>
    simp only [Pool.critical]
    split
    · exact fun _ he => Option.some.inj he ▸ hk
    · exact fun _ he => Option.some.inj he ▸ hk
  | producerBlock | producerCheck => exact owned_of_none rfl
  | producerRecheck conn =>
    simp only [Pool.critical]
    split
    · exact fun _ he => Option.some.inj he ▸ hk
    · exact owned_of_none rfl
  | producerAdmit conn =>
    simp only [Pool.critical]
    split <;> exact owned_of_none rfl
  | callerTest i timedOut | callerCheck i =>
    simp only [Pool.critical]
    split
    · exact fun _ he => Option.some.inj he ▸ hk
    · exact owned_of_none rfl
  | callerPop i =>
    simp only [Pool.critical]
    split
    · exact owned_of_none rfl
    · split <;> exact owned_of_none rfl
  | deleterTest i conn => exact fun _ he => Option.some.inj he ▸ hk
  | deleterPut i conn running => cases running <;> exact owned_of_none rfl
  | destructorTest =>
    simp only [Pool.critical]
    split
    · exact fun _ he => Option.some.inj he ▸ hk
    · exact owned_of_none rfl
  | drain =>
    simp only [Pool.critical]
    split
    · exact owned_of_none rfl
    · exact fun _ he => Option.some.inj (he.symm.trans hm) ▸ hk

theorem owned_step (h : Owned s) {a : Move} (hs : step c s a = some s') : Owned s' := by
  cases a with
  | produce created =>
    obtain ⟨hp, rfl⟩ | ⟨_, _, rfl⟩ | ⟨hp, rfl⟩ | ⟨hp, rfl⟩ | ⟨conn, _, _, rfl⟩ | ⟨hp, rfl⟩ := produce_cases hs
    case inr.inl => exact fun _ he => Option.some.inj he ▸ rfl
    case inr.inr.inr.inr.inl => exact fun _ he => Option.some.inj he ▸ rfl
    all_goals
      intro k hk
      have hi := h k hk
      cases ho : owner k with
      | producer =>
        rw [ho] at hi
        cases hp.symm.trans hi
      | _ =>
        rw [ho] at hi
        exact hi
  | critical =>
    obtain ⟨k, hk, rfl⟩ := Option.map_eq_some_iff.mp hs
    exact owned_critical hk h
  | call =>
    cases hs
    intro k hk
    have hi := h k hk
    cases ho : owner k with
    | caller i =>
      rw [ho] at hi
      exact (List.getElem?_append_left (List.getElem?_eq_some_iff.mp hi).1).trans hi
    | _ =>
      rw [ho] at hi
      exact hi
  | caller i timedOut =>
    obtain ⟨hx, _, rfl⟩ | ⟨hx, rfl⟩ | ⟨b, hx, _, rfl⟩ | ⟨conn, hx, _, rfl⟩ := caller_cases hs
    case inr.inl =>
      intro k hk
      have hi := h k hk
      cases ho : owner k with
      | caller j =>
        rw [ho] at hi
        by_cases hj : i = j
        · subst hj
          cases hx.symm.trans hi
        · exact (List.getElem?_set_ne hj).trans hi
      | _ =>
        rw [ho] at hi
        exact hi
    all_goals exact fun _ he => Option.some.inj he ▸ List.getElem?_set_self (List.getElem?_eq_some_iff.mp hx).1
  | destruct =>
    obtain ⟨hp, rfl⟩ | ⟨hp, rfl⟩ | ⟨hp, rfl⟩ | ⟨hp, _, rfl⟩ | ⟨_, _, rfl⟩ := destruct_cases hs
    case inr.inr.inr.inr => exact fun _ he => Option.some.inj he ▸ rfl
    all_goals
      intro k hk
      have hi := h k hk
      cases ho : owner k with
      | destructor =>
        rw [ho] at hi
        cases hp.symm.trans hi
      | producer =>
        rw [ho] at hi
        first
          | exact hi
          | exact inside_notifyProducer .producer hi
      | caller j =>
        rw [ho] at hi
        exact hi
  | spurious =>
    obtain ⟨hp, hs⟩ := Option.ite_none_right_eq_some.mp hs
    cases hs
    intro k hk
    have hi := h k hk
    cases ho : owner k with
    | producer =>
      rw [ho] at hi
      cases hp.symm.trans hi
    | _ =>
      rw [ho] at hi
      exact hi

theorem coe_concat (l : List Conn) (conn : Conn) : ((l ++ [conn] : List Conn) : Multiset Conn) = l + {conn} :=
  (Multiset.coe_add l [conn]).symm

theorem ledger_notifyProducer (s : Pool) : ledger s.notifyProducer = ledger s := by
  have hp : carriedBy s.notifyProducer.producer = carriedBy s.producer := by
    unfold Pool.notifyProducer
    split
    · rename_i hb
      rw [hb]
      rfl
    · rfl
  have hc : carried s.notifyProducer = carried s := by rw [carried, hp]; rfl
  rw [ledger, hc]
  rfl

theorem borrowed_inside {y : Caller} (hx : s.callers[i]? = some .inside) :
    total lentBy (s.callers.set i y) = total lentBy s.callers + lentBy y := by
  have ht := total_set (f := lentBy) hx y
  have h0 : lentBy .inside = 0 := rfl
  rwa [h0, add_zero] at ht

theorem ledger_critical {k : Critical} (hm : s.mutex = some k) (h : Owned s) :
    Ledger.Step c.maxSize (ledger s) (ledger (s.critical c k)) := by
  have hk := h k hm
  cases k with
  | producerTest =>
    apply (Ledger.Step.skip _).congr
    simp only [Pool.critical]
    split <;> simp [ledger, borrowed, carried, hm]
  | producerBlock =>
    have hp : s.producer = .inside := hk
    apply (Ledger.Step.skip _).congr
    simp [Pool.critical, ledger, borrowed, carried, hm, hp]
  | producerCheck =>
    have hp : s.producer = .inside := hk
    apply (Ledger.Step.skip _).congr
    cases hr : s.isRunning <;> simp [Pool.critical, ledger, borrowed, carried, hm, hp, hr]
  | producerRecheck conn =>
    have hp : s.producer = .inside := hk
    simp only [Pool.critical]
    split
    · apply (Ledger.Step.skip _).congr
      simp [ledger, borrowed, carried, hm]
    · have hc : (ledger s).carried = 0 + {conn} := by simp [ledger, carried, hm, hp]
      apply (Ledger.Step.discard _ hc).congr
      simp [ledger, borrowed, carried, hm, coe_concat]
  | producerAdmit conn =>
    have hp : s.producer = .inside := hk
    have hc : (ledger s).carried = 0 + {conn} := by simp [ledger, carried, hm, hp]
    simp only [Pool.critical]
    split
    · apply (Ledger.Step.discard _ hc).congr
      simp [ledger, borrowed, carried, hm, coe_concat]
    · rename_i hfull
      have hroom : (ledger s).connectionCnt < c.maxSize := by
        simp only [Pool.full, Bool.or_eq_true, decide_eq_true_eq, not_or, not_le] at hfull
        exact hfull.2
      apply (Ledger.Step.adopt _ hc hroom).congr
      simp [ledger, borrowed, carried, hm, coe_concat]
  | callerTest i timedOut =>
    have hx : s.callers[i]? = some .inside := hk
    apply (Ledger.Step.skip _).congr
    simp only [Pool.critical]
    split
    · simp [ledger, borrowed, carried, hm]
    · cases timedOut <;> simp [ledger, borrowed, carried, hm, Pool.setCaller, borrowed_inside hx]
  | callerCheck i =>
    have hx : s.callers[i]? = some .inside := hk
    apply (Ledger.Step.skip _).congr
    simp only [Pool.critical]
    split <;> simp [ledger, borrowed, carried, hm, Pool.setCaller, borrowed_inside hx]
  | callerPop i =>
    have hx : s.callers[i]? = some .inside := hk
    simp only [Pool.critical]
    split
    · apply (Ledger.Step.skip _).congr
      simp [ledger, borrowed, carried, hm, Pool.setCaller, borrowed_inside hx]
    · rename_i conn rest hq
      have hi : (ledger s).idle = conn :: rest := hq
      apply (Ledger.Step.lend _ hi).congr
      have hs : ledger ({ s with mutex := none, connectionQueue := rest, borrowedCnt := s.borrowedCnt + 1 }.setCaller i
          (.holding conn)) = { ledger s with idle := rest, lent := (ledger s).lent + {conn},
                                             borrowedCnt := (ledger s).borrowedCnt + 1 } := by
        simp [ledger, borrowed, carried, hm, Pool.setCaller, borrowed_inside hx]
      split
      · rw [ledger_notifyProducer, hs]
      · exact hs
  | deleterTest i conn =>
    apply (Ledger.Step.skip _).congr
    simp [Pool.critical, ledger, borrowed, carried, hm]
  | deleterPut i conn running =>
    have hx : s.callers[i]? = some .inside := hk
    have hl : (ledger s).lent = total lentBy s.callers + {conn} := by simp [ledger, borrowed, hm]
    cases running with
    | true =>
      apply (Ledger.Step.giveBack _ hl).congr
      simp [Pool.critical, ledger, borrowed, carried, hm, Pool.setCaller, borrowed_inside hx]
    | false =>
      apply (Ledger.Step.delete _ hl).congr
      simp [Pool.critical, ledger, borrowed, carried, hm, Pool.setCaller, borrowed_inside hx, coe_concat]
  | destructorTest =>
    apply (Ledger.Step.skip _).congr
    simp only [Pool.critical]
    split <;> simp [ledger, borrowed, carried, hm]
  | drain =>
    simp only [Pool.critical]
    split
    · apply (Ledger.Step.skip _).congr
      simp [ledger, borrowed, carried, hm]
    · rename_i conn rest hq
      have hi : (ledger s).idle = conn :: rest := hq
      apply (Ledger.Step.drain _ hi).congr
      simp [ledger, borrowed, carried, hm, coe_concat]

theorem ledger_step (h : Owned s) {a : Move} (hs : step c s a = some s') :
    Ledger.Step c.maxSize (ledger s) (ledger s') := by
  cases a with
  | produce created =>
    obtain ⟨hp, rfl⟩ | ⟨hp, hm, rfl⟩ | ⟨hp, rfl⟩ | ⟨hp, rfl⟩ | ⟨conn, hp, hm, rfl⟩ | ⟨hp, rfl⟩ := produce_cases hs
    · apply (Ledger.Step.skip _).congr
      cases s.isRunning <;> simp [ledger, borrowed, carried, hp]
    · apply (Ledger.Step.skip _).congr
      simp [ledger, borrowed, carried, hp, hm]
    · apply (Ledger.Step.make _).congr
      simp [ledger, borrowed, carried, hp, add_comm]
    · apply (Ledger.Step.skip _).congr
      simp [ledger, borrowed, carried, hp]
    · apply (Ledger.Step.skip _).congr
      simp [ledger, borrowed, carried, hp, hm]
    · apply (Ledger.Step.skip _).congr
      simp [ledger, borrowed, carried, hp]
  | critical =>
    obtain ⟨k, hk, rfl⟩ := Option.map_eq_some_iff.mp hs
    exact ledger_critical hk h
  | call =>
    cases hs
    apply (Ledger.Step.skip _).congr
    simp [ledger, borrowed, carried, total_concat]
  | caller i timedOut =>
    apply (Ledger.Step.skip _).congr
    obtain ⟨hx, hm, rfl⟩ | ⟨hx, rfl⟩ | ⟨b, hx, hm, rfl⟩ | ⟨conn, hx, hm, rfl⟩ := caller_cases hs
    · have ht : total lentBy (s.callers.set i .inside) = total lentBy s.callers := total_set_eq hx rfl
      simp [ledger, borrowed, carried, hm, ht]
    · have ht : total lentBy (s.callers.set i (.relock timedOut)) = total lentBy s.callers := total_set_eq hx rfl
      simp [ledger, borrowed, carried, ht]
    · have ht : total lentBy (s.callers.set i .inside) = total lentBy s.callers := total_set_eq hx rfl
      simp [ledger, borrowed, carried, hm, ht]
    · have ht : total lentBy (s.callers.set i .inside) + {conn} = total lentBy s.callers :=
        (total_set hx .inside).trans (add_zero _)
      simp [ledger, borrowed, carried, hm, ht]
  | destruct =>
    apply (Ledger.Step.skip _).congr
    obtain ⟨_, rfl⟩ | ⟨_, rfl⟩ | ⟨_, rfl⟩ | ⟨_, _, rfl⟩ | ⟨_, hm, rfl⟩ := destruct_cases hs
    · rfl
    · exact ledger_notifyProducer s
    · rfl
    · rfl
    · simp [ledger, borrowed, carried, hm]
  | spurious =>
    obtain ⟨hp, hs⟩ := Option.ite_none_right_eq_some.mp hs
    cases hs
    apply (Ledger.Step.skip _).congr
    simp [ledger, borrowed, carried, hp]

def joined : Destructor → Bool
  | .lockShutdown | .inside | .returned => true
  | _ => false

/-- How far the destructor is, and what the callers in their critical sections
rely on. -/
structure Staged (s : Pool) : Prop where
  running : s.isRunning = true ↔ s.destructor = .idle
  checked : ∀ i, s.mutex = some (.callerCheck i) → s.isRunning = true → s.connectionQueue ≠ []
  popping : ∀ i, s.mutex = some (.callerPop i) → s.connectionQueue ≠ []
  gone : joined s.destructor = true → s.producer = .exited
  drained : s.mutex = some .drain → s.borrowedCnt = 0
  returned : s.destructor = .returned → s.borrowedCnt = 0 ∧ s.connectionQueue = [] ∧
    ∀ i, s.mutex ≠ some (.callerPop i)
  defined : .undefined ∉ s.callers

theorem not_mem_set {l : List Caller} {x y : Caller} (h : y ∉ l) (hx : x ≠ y) : y ∉ l.set i x := by
  intro hy
  obtain hy | hy := List.mem_or_eq_of_mem_set hy
  · exact h hy
  · exact hx hy.symm

def calm : Critical → Bool
  | .callerCheck _ | .callerPop _ | .drain => false
  | _ => true

theorem Staged.frame (h : Staged s) (hrun : s'.isRunning = s.isRunning)
    (hqueue : s'.connectionQueue = s.connectionQueue) (hcnt : s'.borrowedCnt = s.borrowedCnt)
    (hdestr : s'.destructor = s.destructor) (hdef : .undefined ∉ s'.callers)
    (hprod : s.producer = .exited → s'.producer = .exited)
    (hmutex : ∀ k, s'.mutex = some k → s.mutex = some k ∨ calm k = true) : Staged s' where
  running := by
    rw [hrun, hdestr]
    exact h.running
  checked := by
    intro i hm
    rw [hrun, hqueue]
    exact h.checked i ((hmutex _ hm).resolve_right nofun)
  popping := by
    intro i hm
    rw [hqueue]
    exact h.popping i ((hmutex _ hm).resolve_right nofun)
  gone := by
    rw [hdestr]
    exact fun hj => hprod (h.gone hj)
  drained := by
    intro hm
    rw [hcnt]
    exact h.drained ((hmutex _ hm).resolve_right nofun)
  returned := by
    rw [hdestr, hcnt, hqueue]
    intro hr
    obtain ⟨hb, hq, hp⟩ := h.returned hr
    exact ⟨hb, hq, fun i hm => hp i ((hmutex _ hm).resolve_right nofun)⟩
  defined := hdef

theorem calm_of_some {o : Option Critical} {k₀ : Critical} (hk : calm k₀ = true) :
    ∀ k, some k₀ = some k → o = some k ∨ calm k = true := by
  intro k he
  cases he
  exact Or.inr hk

theorem staged_produce {created : Bool} (h : Staged s) (hs : s.produce created = some s') : Staged s' := by
  obtain ⟨hp, rfl⟩ | ⟨hp, hm, rfl⟩ | ⟨hp, rfl⟩ | ⟨hp, rfl⟩ | ⟨conn, hp, hm, rfl⟩ | ⟨hp, rfl⟩ := produce_cases hs
  · exact h.frame rfl rfl rfl rfl h.defined (by simp [hp]) fun _ hk => Or.inl hk
  · exact h.frame rfl rfl rfl rfl h.defined (by simp [hp]) (calm_of_some rfl)
  · exact h.frame rfl rfl rfl rfl h.defined (by simp [hp]) fun _ hk => Or.inl hk
  · exact h.frame rfl rfl rfl rfl h.defined (by simp [hp]) fun _ hk => Or.inl hk
  · exact h.frame rfl rfl rfl rfl h.defined (by simp [hp]) (calm_of_some rfl)
  · exact h.frame rfl rfl rfl rfl h.defined (by simp [hp]) fun _ hk => Or.inl hk

theorem staged_caller {i : Nat} {timedOut : Bool} (h : Staged s) (hs : s.caller i timedOut = some s') : Staged s' := by
  obtain ⟨_, hm, rfl⟩ | ⟨_, rfl⟩ | ⟨b, _, hm, rfl⟩ | ⟨conn, _, hm, rfl⟩ := caller_cases hs
  · exact h.frame rfl rfl rfl rfl (not_mem_set h.defined nofun) id (calm_of_some rfl)
  · exact h.frame rfl rfl rfl rfl (not_mem_set h.defined nofun) id fun _ hk => Or.inl hk
  · exact h.frame rfl rfl rfl rfl (not_mem_set h.defined nofun) id (calm_of_some rfl)
  · exact h.frame rfl rfl rfl rfl (not_mem_set h.defined nofun) id (calm_of_some rfl)

theorem running_of_ne (h : Staged s) (hd : s.destructor ≠ .idle) : s.isRunning = false := by
  rw [← Bool.not_eq_true, h.running]
  exact hd

theorem Staged.advance (h : Staged s) (hrun : s'.isRunning = false) (hqueue : s'.connectionQueue = s.connectionQueue)
    (hcnt : s'.borrowedCnt = s.borrowedCnt) (hcallers : s'.callers = s.callers)
    (hdestr : s'.destructor ≠ .idle ∧ s'.destructor ≠ .returned)
    (hgone : joined s'.destructor = true → s'.producer = .exited)
    (hmutex : ∀ k, s'.mutex = some k → s.mutex = some k ∨ calm k = true) : Staged s' where
  running := by
    rw [hrun]
    exact ⟨nofun, fun hi => absurd hi hdestr.1⟩
  checked := by
    intro i _ hr
    rw [hrun] at hr
    cases hr
  popping := by
    intro i hm
    rw [hqueue]
    exact h.popping i ((hmutex _ hm).resolve_right nofun)
  gone := hgone
  drained := by
    intro hm
    rw [hcnt]
    exact h.drained ((hmutex _ hm).resolve_right nofun)
  returned := fun hr => absurd hr hdestr.2
  defined := by
    rw [hcallers]
    exact h.defined

theorem staged_destruct (h : Staged s) (hs : s.destruct = some s') : Staged s' := by
  obtain ⟨_, rfl⟩ | ⟨hd, rfl⟩ | ⟨hd, rfl⟩ | ⟨hd, hp, rfl⟩ | ⟨hd, hm, rfl⟩ := destruct_cases hs
  · exact h.advance rfl rfl rfl rfl ⟨nofun, nofun⟩ nofun fun _ hk => Or.inl hk
  · have hr := running_of_ne h (by simp [hd])
    exact h.advance hr rfl rfl rfl ⟨nofun, nofun⟩ nofun fun _ hk => Or.inl hk
  · have hr := running_of_ne h (by simp [hd])
    exact h.advance hr rfl rfl rfl ⟨nofun, nofun⟩ nofun fun _ hk => Or.inl hk
  · have hr := running_of_ne h (by simp [hd])
    exact h.advance hr rfl rfl rfl ⟨nofun, nofun⟩ (fun _ => hp) fun _ hk => Or.inl hk
  · have hr := running_of_ne h (by simp [hd])
    have hgone : s.producer = .exited := h.gone (by rw [hd]; rfl)
    exact h.advance hr rfl rfl rfl ⟨nofun, nofun⟩ (fun _ => hgone) (calm_of_some rfl)

theorem staged_outside (h : Staged s) {a : Move} (ha : a ≠ .critical) (hs : step c s a = some s') : Staged s' := by
  cases a with
  | produce created => exact staged_produce h hs
  | critical => exact absurd rfl ha
  | call =>
    cases hs
    have hdef : .undefined ∉ s.callers ++ [.enter] := by
      rw [List.mem_append, List.mem_singleton]
      exact fun hu => hu.elim h.defined nofun
    exact h.frame rfl rfl rfl rfl hdef id fun _ hk => Or.inl hk
  | caller i timedOut => exact staged_caller h hs
  | destruct => exact staged_destruct h hs
  | spurious =>
    obtain ⟨hp, hs⟩ := Option.ite_none_right_eq_some.mp hs
    cases hs
    exact h.frame rfl rfl rfl rfl h.defined (by simp [hp]) fun _ hk => Or.inl hk

theorem borrowedCnt_pos {max : Int} (hb : (ledger s).Balanced max) {i : Nat} {conn : Conn} {running : Bool}
    (hm : s.mutex = some (.deleterPut i conn running)) : 0 < s.borrowedCnt := by
  have hl : (ledger s).lent = total lentBy s.callers + {conn} := by simp [ledger, borrowed, hm]
  have hc : s.borrowedCnt = (ledger s).lent.card := hb.lent
  rw [hc, hl, Multiset.card_add, Multiset.card_singleton]
  omega

theorem staged_of_none (hm : s.mutex = none) (hrun : s.isRunning = true ↔ s.destructor = .idle)
    (hgone : joined s.destructor = true → s.producer = .exited)
    (hret : s.destructor = .returned → s.borrowedCnt = 0 ∧ s.connectionQueue = []) (hdef : .undefined ∉ s.callers) :
    Staged s where
  running := hrun
  checked := by
    intro i hi
    cases hm.symm.trans hi
  popping := by
    intro i hi
    cases hm.symm.trans hi
  gone := hgone
  drained := by
    intro hd
    cases hm.symm.trans hd
  returned := by
    intro hr
    refine ⟨(hret hr).1, (hret hr).2, fun i hi => ?_⟩
    cases hm.symm.trans hi
  defined := hdef

theorem staged_producer {k : Critical} (hk : owner k = .producer) (hp : s.producer = .inside) (h : Staged s) :
    Staged (s.critical c k) := by
  have hgone : joined s.destructor = false := by
    rw [← Bool.not_eq_true]
    intro hj
    cases hp.symm.trans (h.gone hj)
  have hexit (p : Producer) : s.producer = .exited → p = .exited := by
    intro he
    cases hp.symm.trans he
  cases k with
  | producerTest =>
    simp only [Pool.critical]
    split
    · exact h.frame rfl rfl rfl rfl h.defined id (calm_of_some rfl)
    · exact h.frame rfl rfl rfl rfl h.defined id (calm_of_some rfl)
  | producerBlock => exact h.frame rfl rfl rfl rfl h.defined (hexit _) nofun
  | producerCheck => exact h.frame rfl rfl rfl rfl h.defined (hexit _) nofun
  | producerRecheck conn =>
    simp only [Pool.critical]
    split
    · exact h.frame rfl rfl rfl rfl h.defined id (calm_of_some rfl)
    · exact h.frame rfl rfl rfl rfl h.defined (hexit _) nofun
  | producerAdmit conn =>
    simp only [Pool.critical]
    split
    · exact h.frame rfl rfl rfl rfl h.defined (hexit _) nofun
    · refine staged_of_none rfl h.running (fun hj => ?_) (fun hr => ?_) h.defined
      · cases hgone.symm.trans hj
      · have hd : s.destructor = .returned := hr
        rw [hd] at hgone
        cases hgone
  | _ => cases hk

theorem staged_caller_section {k : Critical} {i : Nat} (hk : owner k = .caller i) (hm : s.mutex = some k)
    (hb : (ledger s).Balanced c.maxSize) (h : Staged s) : Staged (s.critical c k) := by
  have hset (x : Caller) (hx : x ≠ .undefined) (j : Nat) : .undefined ∉ s.callers.set j x :=
    not_mem_set h.defined hx
  cases k with
  | callerTest j timedOut =>
    simp only [Pool.critical]
    split
    · rename_i hc
      refine ⟨h.running, fun i _ hr hq => ?_, nofun, h.gone, nofun, fun hr => ?_, h.defined⟩
      · have hq' : s.connectionQueue = [] := hq
        have hr' : s.isRunning = true := hr
        rw [hq', hr'] at hc
        cases hc
      · obtain ⟨hb, hq, _⟩ := h.returned hr
        exact ⟨hb, hq, nofun⟩
    · refine h.frame rfl rfl rfl rfl (hset _ ?_ j) id nofun
      cases timedOut <;> exact nofun
  | callerCheck j =>
    simp only [Pool.critical]
    split
    · rename_i hr
      refine ⟨h.running, nofun, fun i _ => h.checked j hm hr, h.gone, nofun, fun hret => ?_, h.defined⟩
      have hd : s.destructor = .returned := hret
      rw [running_of_ne h (by simp [hd])] at hr
      cases hr
    · exact h.frame rfl rfl rfl rfl (hset .returned nofun j) id nofun
  | callerPop j =>
    have hret : s.destructor ≠ .returned := fun hr => (h.returned hr).2.2 j hm
    simp only [Pool.critical]
    split
    · rename_i hq
      exact absurd hq (h.popping j hm)
    · split
      · refine staged_of_none rfl h.running (fun hj => ?_) (fun hr => absurd hr hret)
          (hset (.holding _) nofun j)
        have he : s.producer = .exited := h.gone hj
        simp [Pool.notifyProducer, Pool.setCaller, he]
      · exact staged_of_none rfl h.running h.gone (fun hr => absurd hr hret) (hset (.holding _) nofun j)
  | deleterTest j conn => exact h.frame rfl rfl rfl rfl h.defined id (calm_of_some rfl)
  | deleterPut j conn running =>
    have hpos := borrowedCnt_pos hb hm
    have hret : s.destructor ≠ .returned := by
      intro hr
      rw [(h.returned hr).1] at hpos
      exact absurd hpos (Int.lt_irrefl 0)
    cases running with
    | true => exact staged_of_none rfl h.running h.gone (fun hr => absurd hr hret) (hset .returned nofun j)
    | false => exact staged_of_none rfl h.running h.gone (fun hr => absurd hr hret) (hset .returned nofun j)
  | _ => cases hk

theorem staged_destructor {k : Critical} (hk : owner k = .destructor) (hm : s.mutex = some k)
    (hd : s.destructor = .inside) (h : Staged s) : Staged (s.critical c k) := by
  have hr : s.isRunning = false := running_of_ne h (by simp [hd])
  have hgone : s.producer = .exited := h.gone (by rw [hd]; rfl)
  cases k with
  | destructorTest =>
    simp only [Pool.critical]
    split
    · rename_i hb
      refine ⟨h.running, nofun, nofun, h.gone, fun _ => hb, fun hret => ?_, h.defined⟩
      cases hd.symm.trans hret
    · exact h.advance hr rfl rfl rfl ⟨nofun, nofun⟩ (fun _ => hgone) nofun
  | drain =>
    have hb := h.drained hm
    simp only [Pool.critical]
    split
    · rename_i hq
      refine staged_of_none rfl ⟨fun ht => ?_, nofun⟩ (fun _ => hgone) (fun _ => ⟨hb, hq⟩) h.defined
      cases hr.symm.trans ht
    · have hm' : ∀ i, s.mutex ≠ some (.callerPop i) := by
        intro i hi
        cases hm.symm.trans hi
      refine ⟨h.running, fun i hi => ?_, fun i hi => absurd hi (hm' i), h.gone, fun _ => hb, fun hret => ?_, h.defined⟩
      · cases hm.symm.trans hi
      · cases hd.symm.trans hret
  | _ => cases hk

theorem staged_critical {k : Critical} (hm : s.mutex = some k) (ho : Owned s) (hb : (ledger s).Balanced c.maxSize)
    (h : Staged s) : Staged (s.critical c k) := by
  have hk := ho k hm
  cases hown : owner k with
  | producer => exact staged_producer hown (by rw [hown] at hk; exact hk) h
  | caller i => exact staged_caller_section hown hm hb h
  | destructor => exact staged_destructor hown hm (by rw [hown] at hk; exact hk) h

structure Inv (c : PoolConfig) (s : Pool) : Prop where
  owned : Owned s
  balanced : (ledger s).Balanced c.maxSize
  staged : Staged s

theorem inv_step (h : Inv c s) {a : Move} (hs : step c s a = some s') : Inv c s' where
  owned := owned_step h.owned hs
  balanced := h.balanced.step (ledger_step h.owned hs)
  staged := by
    by_cases ha : a = .critical
    · subst ha
      obtain ⟨k, hk, rfl⟩ := Option.map_eq_some_iff.mp hs
      exact staged_critical hk h.owned h.balanced h.staged
    · exact staged_outside h.staged ha hs

/-- Every admitted connection is idle, borrowed by one holder or deleted, the
counters are right, the queue is never popped empty, and a destructor that has
returned has deleted every admitted connection. -/
structure Accounted (c : PoolConfig) (s : Pool) : Prop where
  places : (s.connectionQueue : Multiset Conn) + borrowed s + s.deleted = s.admitted
  once : s.admitted.Nodup
  connectionCnt : s.connectionCnt = s.admitted.length
  room : s.connectionCnt ≤ c.maxSize
  borrowedCnt : s.borrowedCnt = (borrowed s).card
  nonneg : 0 ≤ s.borrowedCnt
  defined : .undefined ∉ s.callers
  returned : s.destructor = .returned → (s.deleted : Multiset Conn) = s.admitted

theorem accounted_of_inv (h : Inv c s) : Accounted c s where
  places := h.balanced.places
  once := h.balanced.nodup
  connectionCnt := h.balanced.admitted
  room := h.balanced.room
  borrowedCnt := h.balanced.lent
  nonneg := by
    have hl : s.borrowedCnt = (borrowed s).card := h.balanced.lent
    omega
  defined := h.staged.defined
  returned := by
    intro hd
    obtain ⟨h0, hq, _⟩ := h.staged.returned hd
    have hl : s.borrowedCnt = (borrowed s).card := h.balanced.lent
    have hb : borrowed s = 0 := by
      rw [← Multiset.card_eq_zero]
      omega
    have hp : (s.connectionQueue : Multiset Conn) + borrowed s + s.deleted = s.admitted := h.balanced.places
    rwa [hq, hb, Multiset.coe_nil, zero_add, zero_add] at hp

theorem fill_eq {n : Nat} {connects : List Bool} (h : s.fill n connects = some s') :
    ∃ l, s' = { s with connectionQueue := s.connectionQueue ++ l, connectionCnt := s.connectionCnt + n,
                       made := s.made + n, admitted := s.admitted ++ l } ∧ l = List.range' s.made n := by
  induction n generalizing s connects with
  | zero =>
    cases h
    exact ⟨[], by simp, rfl⟩
  | succ n ih =>
    cases connects with
    | nil => cases h
    | cons b connects =>
      cases b with
      | false => cases h
      | true =>
        obtain ⟨l, rfl, rfl⟩ := ih h
        refine ⟨s.made :: List.range' (s.made + 1) n, ?_, rfl⟩
        simp [add_assoc, add_comm (1 : Int), add_comm 1 n]

theorem sizes_of_validate {c : ConnectionPoolConfig} (h : c.validate = true) :
    0 < c.poolConfig.initSize ∧ c.poolConfig.initSize ≤ c.poolConfig.maxSize := by
  unfold ConnectionPoolConfig.validate at h
  grind

theorem inv_construct {c : ConnectionPoolConfig} {connects : List Bool} {s₀ : Pool}
    (h : Pool.construct c connects = some s₀) : Inv c.poolConfig s₀ := by
  obtain ⟨hv, h⟩ := Option.ite_none_right_eq_some.mp h
  obtain ⟨hpos, hmax⟩ := sizes_of_validate hv
  obtain ⟨s, hs, rfl⟩ := Option.map_eq_some_iff.mp h
  obtain ⟨l, rfl, rfl⟩ := fill_eq hs
  refine ⟨owned_of_none rfl, ⟨?_, ?_, rfl, ?_, ?_⟩, ⟨?_, nofun, nofun, nofun, nofun, nofun, List.not_mem_nil⟩⟩
  · simp [ledger, borrowed]
  · simp [ledger, carried, Multiset.range, List.range_eq_range']
  · simp [ledger]
  · simp only [ledger, zero_add, Int.toNat_of_nonneg hpos.le]
    exact hmax
  · exact iff_of_true rfl rfl

/-- In every run of a pool that was constructed every connection is accounted for. -/
theorem connections_accounted (c : ConnectionPoolConfig) (connects : List Bool) (s₀ s : Pool)
    (h₀ : Pool.construct c connects = some s₀) (as : List Move) (hr : (pool c.poolConfig).run s₀ as = some s) :
    Accounted c.poolConfig s :=
  accounted_of_inv (Machine.run_invariant (inv_construct h₀) (fun _ _ _ hi _ hs => inv_step hi hs)
    (Machine.meets_true s₀ as) hr)

def smallConfig : ConnectionPoolConfig where
  dbConfig := ⟨"127.0.0.1", 3306, "chatserver_app", "chatserver_dev_password", "chatserver"⟩
  poolConfig := ⟨1, 2, 1000⟩
  hasIp := true
  hasPort := true
  hasUsername := true
  hasPassword := true
  hasDbName := true
  hasInitSize := true
  hasMaxSize := true
  hasConnectionTimeout := true

def oneIdle : Pool where
  connectionQueue := [0]
  connectionCnt := 1
  isRunning := true
  made := 1
  admitted := [0]

def lend : List Move := [.call, .caller 0 false, .critical, .critical, .critical]

def oneLent : Pool where
  borrowedCnt := 1
  connectionCnt := 1
  isRunning := true
  callers := [.holding 0]
  made := 1
  admitted := [0]

/-- The destructor joins the producer and finds the connection still borrowed. -/
def close : List Move :=
  [.destruct, .destruct, .destruct, .produce true, .destruct, .destruct, .critical]

def oneAwaited : Pool where
  borrowedCnt := 1
  connectionCnt := 1
  producer := .exited
  callers := [.holding 0]
  destructor := .lockShutdown
  made := 1
  admitted := [0]

def giveBack : List Move := [.caller 0 false, .critical, .critical, .destruct, .critical, .critical]

def oneDeleted : Pool where
  connectionCnt := 1
  producer := .exited
  callers := [.returned]
  destructor := .returned
  made := 1
  admitted := [0]
  deleted := [0]

theorem connections_accounted_close : Accounted smallConfig.poolConfig oneDeleted := by
  have h₁ : (pool smallConfig.poolConfig).run oneIdle lend = some oneLent := by decide +kernel
  have h₂ : (pool smallConfig.poolConfig).run oneLent close = some oneAwaited := by decide +kernel
  have h₃ : (pool smallConfig.poolConfig).run oneAwaited giveBack = some oneDeleted := by decide +kernel
  refine connections_accounted smallConfig [true] oneIdle oneDeleted (by decide +kernel) (lend ++ (close ++ giveBack)) ?_
  rw [Machine.run_append, h₁, Option.bind_some, Machine.run_append, h₂, Option.bind_some, h₃]

end BridgeIM.Db.PoolLedger
