import BridgeIM.Lib.History
import BridgeIM.Server.Users

namespace BridgeIM.Server.Closing

open Db Lib Model Model.UserModel

variable {E : Engine} {same : String → String → Bool}

def loginConn (task : Task Unit) : Option (Conn Unit) :=
  match task.start with
  | .queryName conn _ _ => some conn
  | _ => none

def closeConn : Task Unit → Option (Conn Unit)
  | .close conn => some conn
  | _ => none

/-- A login that may still put its connection into the map. -/
def entering : Pc Unit → Option (Conn Unit)
  | .queryName conn _ _ => some conn
  | .updateOnline l | .insertConn l => some l.conn
  | _ => none

def leaving : Pc Unit → Option Int
  | .unsubscribe u | .updateOffline u => some u
  | _ => none

def writes (u : Int) : Nat × Effect Unit → Bool
  | (_, .updateState v _) => v = u
  | (_, .resetState) => true
  | _ => false

def lastWrite (u : Int) (w : World Unit) : Option (Nat × Effect Unit) := lastFor (writes u) true w.log

/-- The connection is down and no task made for it waits or runs. -/
structure Closed (w : World Unit) (conn : Conn Unit) : Prop where
  reported : ∃ th ∈ w.threads, closeConn th.task = some conn
  finished : ∀ th ∈ w.threads, loginConn th.task = some conn ∨ closeConn th.task = some conn → th.pc = .done

/-- The user has last been set to `online` by a login on another connection. -/
def OnlineElsewhere (w : World Unit) (u : Int) (conn : Conn Unit) : Prop :=
  ∃ tid th other, other ≠ conn ∧ w.threads[tid]? = some th ∧ loginConn th.task = some other ∧
    lastWrite u w = some (tid, .updateState u .online)

/-- A closed connection is in no entry of the map, and the user who had logged
in on it is `offline`, unless a handler is just about to mark him so. -/
def ClosedGone (w : World Unit) : Prop :=
  ∀ conn, Closed w conn → (∀ u, (connMap w).lookup u ≠ some conn) ∧
    ∀ u tid js, (tid, .sendJson conn js) ∈ w.log → IsLoginAck u js → (w.users.find u).isSome = true →
      (∀ th ∈ w.threads, leaving th.pc ≠ some u) →
        w.users.stateOf u = some .offline ∨ OnlineElsewhere w u conn

/-- A connection sends at most one login frame. -/
def OneLogin (w : World Unit) : Action Unit → Prop
  | .start task => ∀ conn ∈ loginConn task, ∀ th ∈ w.threads, loginConn th.task ≠ some conn
  | _ => True

def scans (conn : Conn Unit) : Nat × Effect Unit → Bool
  | (_, .scanConn c _) => c = conn
  | _ => false

/-- What a thread may do at a given point: insert a user who is not in the map, on
a connection whose cleanup has not scanned the map yet. -/
def Allowed (w : World Unit) : Pc Unit → Prop
  | .insertConn l => l.user.id ∉ connMap w ∧ ∀ x ∈ w.log, scans l.conn x = false
  | .insertUser _ user => Plain user.name ∧ Plain user.password ∧ user.state = State.offline.text
  | _ => True

def Orderly (w : World Unit) : Action Unit → Prop
  | .run tid _ => ∀ th ∈ w.threads[tid]?, Allowed w th.pc
  | _ => True

variable {w w' : World Unit} {pick : Option Int} {pc pc' : Pc Unit} {e : Effect Unit}

theorem next_entering (h : pc.next E () pick w = some (e, pc')) {conn : Conn Unit}
    (hc : entering pc' = some conn) : entering pc = some conn ∧ ∀ u c, e ≠ .insertConn u c := by
  cases pc with
  | scanConn c =>
    obtain ⟨u, _, _, rfl⟩ | ⟨_, _, rfl⟩ := next_scan h
    · split at hc <;> cases hc
    · cases hc
  | _ => grind [Pc.next, entering, checkLogin, nextGroup.eq_def, Option.elim.eq_def]

theorem entering_start {task : Task Unit} {conn : Conn Unit} (h : entering task.start = some conn) :
    loginConn task = some conn := by
  have hi := initial_start task
  unfold loginConn
  cases hp : task.start <;> rw [hp] at h hi <;> first | exact h | cases hi

theorem trace_entering {task : Task Unit} {h : List (Effect Unit)} (ht : Trace E task h pc) {conn : Conn Unit}
    (hc : entering pc = some conn) : loginConn task = some conn ∧ ∀ u c, .insertConn u c ∉ h := by
  induction ht with
  | start => exact ⟨entering_start hc, fun _ _ => List.not_mem_nil⟩
  | step w pick _ hn ih =>
    obtain ⟨hpc, hne⟩ := next_entering hn hc
    obtain ⟨htask, hno⟩ := ih hpc
    refine ⟨htask, fun u c hm => ?_⟩
    obtain hm | hm := List.mem_append.mp hm
    · exact hno u c hm
    · exact hne u c (List.mem_singleton.mp hm).symm

theorem trace_insertConn {task : Task Unit} {h : List (Effect Unit)} (ht : Trace E task h pc) {u v : Int}
    {c d : Conn Unit} (hu : .insertConn u c ∈ h) (hv : .insertConn v d ∈ h) : u = v := by
  have hfirst {h : List (Effect Unit)} {pc pc' : Pc Unit} {w : World Unit} {pick : Option Int} {u v : Int}
      {c d : Conn Unit} (ht : Trace E task h pc) (hn : pc.next E task.node pick w = some (.insertConn u c, pc'))
      (hv : .insertConn v d ∈ h) : False := by
    obtain ⟨l, rfl, _⟩ := next_insertConn hn
    exact (trace_entering ht rfl).2 v d hv
  induction ht with
  | start => cases hu
  | step w pick ht hn ih =>
    rw [List.mem_append, List.mem_singleton] at hu hv
    obtain hu | rfl := hu
    · obtain hv | rfl := hv
      · exact ih hu hv
      · exact (hfirst ht hn hu).elim
    · obtain hv | hv := hv
      · exact (hfirst ht hn hv).elim
      · cases hv
        rfl

theorem trace_close {conn : Conn Unit} {h : List (Effect Unit)} (ht : Trace E (.close conn) h pc) :
    pc = .scanConn conn ∨ ∃ found, .scanConn conn found ∈ h := by
  induction ht with
  | start => exact Or.inl rfl
  | step w pick ht hn ih =>
    obtain rfl | ⟨found, hf⟩ := ih
    · right
      obtain ⟨u, _, rfl, _⟩ | ⟨_, rfl, _⟩ := next_scan hn
      · exact ⟨some u, by simp⟩
      · exact ⟨none, by simp⟩
    · exact Or.inr ⟨found, List.mem_append_left _ hf⟩

section Map

variable {m : ConnMap Unit} {u : Int} {conn : Conn Unit}

theorem lookup_onMap (h : (e.onMap m).lookup u = some conn) : m.lookup u = some conn ∨ e = .insertConn u conn := by
  cases e with
  | insertConn v c =>
    obtain h | ⟨rfl, rfl⟩ := ConnMap.lookup_of_insertNew h
    · exact Or.inl h
    · exact Or.inr rfl
  | eraseConn v => exact Or.inl (ConnMap.lookup_of_erase h).2
  | scanConn c found =>
    cases found with
    | none => exact Or.inl h
    | some v => exact Or.inl (ConnMap.lookup_of_erase h).2
  | _ => exact Or.inl h

theorem lookup_onMap_of_lookup (h : m.lookup u = some conn) : (e.onMap m).lookup u = some conn ∨
    e = .eraseConn u ∨ ∃ c, e = .scanConn c (some u) := by
  cases e with
  | insertConn v c =>
    left
    rw [Effect.onMap, ConnMap.insertNew]
    split
    · exact h
    · rename_i hm
      have hv : u ≠ v := by
        rintro rfl
        exact hm (AList.lookup_isSome.mp (by rw [h]; rfl))
      rw [AList.lookup_insert_ne hv]
      exact h
  | eraseConn v =>
    by_cases hv : u = v
    · subst hv
      exact Or.inr (Or.inl rfl)
    · exact Or.inl ((AList.lookup_erase_ne hv).trans h)
  | scanConn c found =>
    cases found with
    | none => exact Or.inl h
    | some v =>
      by_cases hv : u = v
      · subst hv
        exact Or.inr (Or.inr ⟨c, rfl⟩)
      · exact Or.inl ((AList.lookup_erase_ne hv).trans h)
  | _ => exact Or.inl h

theorem lookup_of_not_holds (h : m.holds conn = false) : m.lookup u ≠ some conn := by
  intro hl
  rw [ConnMap.holds, List.any_eq_false] at h
  have hmem := AList.mem_lookup_iff.mp hl
  exact h _ hmem (decide_eq_true rfl)

end Map

structure Inv (w : World Unit) : Prop where
  single : ∀ (i j : Nat) (th th' : Thread Unit) conn, w.threads[i]? = some th → w.threads[j]? = some th' →
    loginConn th.task = some conn → loginConn th'.task = some conn → i = j
  mapped : ∀ u conn, (connMap w).lookup u = some conn → ∃ tid th, w.threads[tid]? = some th ∧
    loginConn th.task = some conn ∧ (tid, .insertConn u conn) ∈ w.log
  scanned : ∀ tid conn found, (tid, .scanConn conn found) ∈ w.log → ∀ u, (connMap w).lookup u ≠ some conn
  online : ∀ u, w.users.stateOf u = some .online → lastWrite u w = none ∨
    ∃ tid, lastWrite u w = some (tid, .updateState u .online)
  written : ∀ u tid s, (tid, .updateState u s) ∈ w.log → (w.users.find u).isSome = true →
    (w.users.stateOf u).isSome = true
  owned : ∀ u tid, u ≠ -1 → lastWrite u w = some (tid, .updateState u .online) →
    (∃ th l, w.threads[tid]? = some th ∧ th.pc = .insertConn l ∧ l.user.id = u) ∨
    (∃ th conn, w.threads[tid]? = some th ∧ loginConn th.task = some conn ∧ (connMap w).lookup u = some conn) ∨
    ∃ th ∈ w.threads, leaving th.pc = some u

theorem inv_fresh (h : w.Fresh) : Inv w := by
  have hmap (u : Int) : (connMap w).lookup u = none := by
    rw [connMap, h.node]
    exact AList.lookup_empty u
  have hwrite (u : Int) : lastWrite u w = none := by
    rw [lastWrite, h.log]
    rfl
  constructor
  · intro i j th th' conn hi
    rw [h.threads] at hi
    cases hi
  · intro u conn hu
    rw [hmap] at hu
    cases hu
  · intro tid conn found hs
    rw [h.log] at hs
    cases hs
  · exact fun u _ => Or.inl (hwrite u)
  · intro u tid s hs
    rw [h.log] at hs
    cases hs
  · intro u tid _ hl
    rw [hwrite] at hl
    cases hl

theorem lastWrite_frame (hf : SameStores w w') (u : Int) : lastWrite u w' = lastWrite u w := by
  rw [lastWrite, hf.log, lastWrite]

theorem connMap_frame (hf : SameStores w w') : connMap w' = connMap w := hf.map ()

theorem inv_spawn (h : Inv w) (hf : SameStores w w') {task : Task Unit}
    (ht : w'.threads = w.threads ++ [⟨task, task.start⟩])
    (hone : ∀ conn ∈ loginConn task, ∀ th ∈ w.threads, loginConn th.task ≠ some conn) : Inv w' := by
  have hin {i : Nat} {th : Thread Unit} (hi : w.threads[i]? = some th) : w'.threads[i]? = some th := by
    rw [ht, List.getElem?_append_left (List.getElem?_eq_some_iff.mp hi).1]
    exact hi
  constructor
  · intro i j th th' conn hi hj hc hc'
    rw [ht] at hi hj
    obtain hi | ⟨rfl, rfl⟩ := getElem?_of_concat hi
    · obtain hj | ⟨rfl, rfl⟩ := getElem?_of_concat hj
      · exact h.single i j th th' conn hi hj hc hc'
      · exact absurd hc (hone conn hc' th (List.mem_of_getElem? hi))
    · obtain hj | ⟨rfl, rfl⟩ := getElem?_of_concat hj
      · exact absurd hc' (hone conn hc th' (List.mem_of_getElem? hj))
      · rfl
  · intro u conn hu
    rw [connMap_frame hf] at hu
    obtain ⟨tid, th, hth, hc, hm⟩ := h.mapped u conn hu
    exact ⟨tid, th, hin hth, hc, hf.log ▸ hm⟩
  · intro tid conn found hs
    rw [hf.log] at hs
    rw [connMap_frame hf]
    exact h.scanned tid conn found hs
  · intro u hu
    rw [hf.users] at hu
    rw [lastWrite_frame hf]
    exact h.online u hu
  · intro u tid s hs
    rw [hf.users]
    exact h.written u tid s (hf.log ▸ hs)
  · intro u tid hu hl
    rw [lastWrite_frame hf] at hl
    rw [connMap_frame hf]
    obtain ⟨th, l, hth, hrest⟩ | ⟨th, conn, hth, hrest⟩ | ⟨th, hth, hrest⟩ := h.owned u tid hu hl
    · exact Or.inl ⟨th, l, hin hth, hrest⟩
    · exact Or.inr (Or.inl ⟨th, conn, hin hth, hrest⟩)
    · exact Or.inr (Or.inr ⟨th, ht ▸ List.mem_append_left _ hth, hrest⟩)

theorem inv_same (h : Inv w) (hf : SameStores w w') (ht : w'.threads = w.threads) : Inv w' := by
  refine ⟨ht ▸ h.single, ?_, ?_, ?_, ?_, ?_⟩
  · rw [connMap_frame hf, ht, hf.log]
    exact h.mapped
  · rw [connMap_frame hf, hf.log]
    exact h.scanned
  · intro u hu
    rw [hf.users] at hu
    rw [lastWrite_frame hf]
    exact h.online u hu
  · rw [hf.users, hf.log]
    exact h.written
  · intro u tid hu hl
    rw [lastWrite_frame hf] at hl
    rw [connMap_frame hf, ht]
    exact h.owned u tid hu hl

section Advance

variable {tid : Nat} {th : Thread Unit}

theorem task_of_advance (hth : w.threads[tid]? = some th) {i : Nat} {th' : Thread Unit}
    (hi : (w.advance E tid th e pc).threads[i]? = some th') :
    ∃ th₀, w.threads[i]? = some th₀ ∧ th₀.task = th'.task := by
  obtain ⟨rfl, rfl⟩ | ⟨_, hi⟩ := getElem?_of_set hi
  · exact ⟨th, hth, rfl⟩
  · exact ⟨th', hi, rfl⟩

theorem thread_advance (E : Engine) (e : Effect Unit) (pc : Pc Unit) (hth : w.threads[tid]? = some th) {i : Nat}
    {th' : Thread Unit} (hi : w.threads[i]? = some th') :
    ∃ th₀, (w.advance E tid th e pc).threads[i]? = some th₀ ∧ th₀.task = th'.task := by
  by_cases hne : i = tid
  · subst hne
    rw [hth] at hi
    cases hi
    exact ⟨_, getElem?_set_self hth, rfl⟩
  · refine ⟨th', ?_, rfl⟩
    rw [threads_advance, List.getElem?_set_ne (Ne.symm hne)]
    exact hi

theorem mapped_advance (hT : Traced E w) (h : Inv w) (hth : w.threads[tid]? = some th)
    (hn : th.pc.next E th.task.node pick w = some (e, pc)) (u : Int) (conn : Conn Unit)
    (hu : (connMap (w.advance E tid th e pc)).lookup u = some conn) : ∃ i th',
      (w.advance E tid th e pc).threads[i]? = some th' ∧ loginConn th'.task = some conn ∧
      (i, .insertConn u conn) ∈ (w.advance E tid th e pc).log := by
  rw [connMap_advance] at hu
  obtain hu | rfl := lookup_onMap hu
  · obtain ⟨i, th', hi, hc, hm⟩ := h.mapped u conn hu
    obtain ⟨th₀, hth₀, htask⟩ := thread_advance E e pc hth hi
    exact ⟨i, th₀, hth₀, htask ▸ hc, List.mem_append_left _ hm⟩
  · obtain ⟨l, hpc, rfl, rfl, _⟩ := next_insertConn hn
    have hc := (trace_entering (hT.trace tid th hth) (show entering th.pc = some l.conn by rw [hpc]; rfl)).1
    exact ⟨tid, { th with pc := pc }, getElem?_set_self hth, hc, by simp⟩

theorem lookup_unique (hT : Traced E w) (h : Inv w) {u v : Int} {conn : Conn Unit}
    (hu : (connMap w).lookup u = some conn) (hv : (connMap w).lookup v = some conn) : u = v := by
  obtain ⟨i, th, hth, hc, hm⟩ := h.mapped u conn hu
  obtain ⟨j, th', hth', hc', hm'⟩ := h.mapped v conn hv
  obtain rfl := h.single i j th th' conn hth hth' hc hc'
  exact trace_insertConn (hT.trace i th hth) (mem_history.mpr hm) (mem_history.mpr hm')

theorem scanned_advance (hT : Traced E w) (h : Inv w) (hok : Allowed w th.pc)
    (hn : th.pc.next E th.task.node pick w = some (e, pc)) (i : Nat) (conn : Conn Unit) (found : Option Int)
    (hs : (i, .scanConn conn found) ∈ (w.advance E tid th e pc).log) (u : Int) :
    (connMap (w.advance E tid th e pc)).lookup u ≠ some conn := by
  intro hu
  rw [log_advance, List.mem_append, List.mem_singleton] at hs
  rw [connMap_advance] at hu
  obtain hs | hs := hs
  · obtain hu | rfl := lookup_onMap hu
    · exact h.scanned i conn found hs u hu
    · obtain ⟨l, hpc, _, rfl, _⟩ := next_insertConn hn
      rw [hpc] at hok
      exact absurd (hok.2 _ hs) (by simp [scans])
  · cases hs
    rw [next_scanConn hn] at hn
    obtain ⟨v, hv, he, _⟩ | ⟨hno, he, _⟩ := next_scan hn
    · cases he
      obtain ⟨huv, hu⟩ := ConnMap.lookup_of_erase hu
      exact huv (lookup_unique hT h hu hv)
    · cases he
      exact lookup_of_not_holds hno hu

theorem lastWrite_advance (u : Int) : lastWrite u (w.advance E tid th e pc) =
    if writes u (tid, e) = true then some (tid, e) else lastWrite u w := by
  rw [lastWrite, log_advance, lastFor_concat, lastWrite]

theorem plainInsert_of_allowed (hok : Allowed w pc) (hn : pc.next E () pick w = some (e, pc')) : e.PlainInsert := by
  cases e with
  | insertUser user id =>
    obtain ⟨conn, rfl, _, _⟩ := next_insertUser hn
    exact hok
  | _ => trivial

theorem online_onUsers (hE : E.Rules same) (tid : Nat) {t : Table} {u : Int} (hp : e.PlainInsert)
    (h : (e.onUsers E t).stateOf u = some .online) :
    t.stateOf u = some .online ∧ writes u (tid, e) = false ∨ e = .updateState u .online := by
  cases e with
  | insertUser user id =>
    obtain hi | ⟨i, t', ht', hi⟩ := onUsers_insertUser hE hp t
    · rw [hi] at h
      exact Or.inl ⟨h, rfl⟩
    · rw [hi] at h
      obtain hs | ⟨_, _, hs⟩ := stateOf_insert ht' u
      · rw [hs] at h
        exact Or.inl ⟨h, rfl⟩
      · rw [hs] at h
        cases h
  | updateState v s =>
    rw [onUsers_updateState hE, Table.stateOf_updateState] at h
    by_cases hv : v = u
    · rw [if_pos hv] at h
      obtain ⟨r, _, rfl⟩ := Option.map_eq_some_iff.mp h
      exact Or.inr (by rw [hv])
    · rw [if_neg hv] at h
      exact Or.inl ⟨h, decide_eq_false hv⟩
  | resetState =>
    rw [onUsers_resetState hE, Table.stateOf_resetState] at h
    obtain ⟨_, _, hs⟩ := Option.map_eq_some_iff.mp h
    cases hs
  | _ => exact Or.inl ⟨h, rfl⟩

theorem isSome_onUsers (hE : E.Rules same) {t : Table} {u : Int} (hp : e.PlainInsert)
    (hf : ((e.onUsers E t).find u).isSome = true)
    (h : ((t.find u).isSome = true → (t.stateOf u).isSome = true) ∨ ∃ s, e = .updateState u s) :
    ((e.onUsers E t).stateOf u).isSome = true := by
  cases e with
  | insertUser user id =>
    obtain h | ⟨s, hs⟩ := h
    · obtain hi | ⟨i, t', ht', hi⟩ := onUsers_insertUser hE hp t
      · rw [hi] at hf ⊢
        exact h hf
      · rw [hi] at hf ⊢
        obtain hs | ⟨_, _, hs⟩ := stateOf_insert ht' u
        · rw [Table.find_insert ht'] at hf
          split at hf
          · rename_i hu
            rw [Table.stateOf, Table.find_insert ht', if_pos hu]
            rfl
          · rw [hs]
            exact h hf
        · rw [hs]
          rfl
    · cases hs
  | updateState v s =>
    rw [onUsers_updateState hE, Table.isSome_find_updateState] at hf
    rw [onUsers_updateState hE, Table.stateOf_updateState]
    split
    · rw [Option.isSome_map]
      exact hf
    · rename_i hv
      obtain h | ⟨_, hs⟩ := h
      · exact h hf
      · cases hs
        exact absurd rfl hv
  | resetState =>
    obtain h | ⟨_, hs⟩ := h
    · rw [onUsers_resetState hE, Table.resetState, Table.isSome_find_modify] at hf
      rw [onUsers_resetState hE, Table.stateOf_resetState, Option.isSome_map]
      exact h hf
    · cases hs
  | _ =>
    obtain h | ⟨_, hs⟩ := h
    · exact h hf
    · cases hs

theorem online_advance (hE : E.Rules same) (h : Inv w) (hok : Allowed w th.pc)
    (hn : th.pc.next E th.task.node pick w = some (e, pc)) (u : Int)
    (hu : (w.advance E tid th e pc).users.stateOf u = some .online) :
    lastWrite u (w.advance E tid th e pc) = none ∨
      ∃ i, lastWrite u (w.advance E tid th e pc) = some (i, .updateState u .online) := by
  rw [lastWrite_advance]
  obtain ⟨ho, hw⟩ | rfl := online_onUsers hE tid (plainInsert_of_allowed hok hn) hu
  · rw [hw, if_neg Bool.false_ne_true]
    exact h.online u ho
  · exact Or.inr ⟨tid, if_pos (decide_eq_true rfl)⟩

theorem written_advance (hE : E.Rules same) (h : Inv w) (hok : Allowed w th.pc)
    (hn : th.pc.next E th.task.node pick w = some (e, pc)) (u : Int) (i : Nat) (s : State)
    (hs : (i, .updateState u s) ∈ (w.advance E tid th e pc).log)
    (hf : ((w.advance E tid th e pc).users.find u).isSome = true) :
    ((w.advance E tid th e pc).users.stateOf u).isSome = true := by
  refine isSome_onUsers hE (plainInsert_of_allowed hok hn) hf ?_
  rw [log_advance, List.mem_append, List.mem_singleton] at hs
  obtain hs | hs := hs
  · exact Or.inl (h.written u i s hs)
  · cases hs
    exact Or.inr ⟨s, rfl⟩

theorem next_leaving (hn : pc.next E () pick w = some (e, pc')) {u : Int} (hl : leaving pc = some u) :
    leaving pc' = some u ∨ e = .updateState u .offline := by
  cases pc with
  | unsubscribe v =>
    cases hn
    exact Or.inl hl
  | updateOffline v =>
    cases hn
    cases hl
    exact Or.inr rfl
  | _ => cases hl

theorem owned_advance (hT : Traced E w) (h : Inv w) (hok : Allowed w th.pc) (hth : w.threads[tid]? = some th)
    (hn : th.pc.next E th.task.node pick w = some (e, pc)) (u : Int) (i : Nat) (hne : u ≠ -1)
    (hl : lastWrite u (w.advance E tid th e pc) = some (i, .updateState u .online)) :
    (∃ th' l, (w.advance E tid th e pc).threads[i]? = some th' ∧ th'.pc = .insertConn l ∧ l.user.id = u) ∨
    (∃ th' conn, (w.advance E tid th e pc).threads[i]? = some th' ∧ loginConn th'.task = some conn ∧
      (connMap (w.advance E tid th e pc)).lookup u = some conn) ∨
    ∃ th' ∈ (w.advance E tid th e pc).threads, leaving th'.pc = some u := by
  have hself : (w.advance E tid th e pc).threads[tid]? = some { th with pc := pc } := getElem?_set_self hth
  have hother {j : Nat} {th' : Thread Unit} (hj : j ≠ tid) (hth' : w.threads[j]? = some th') :
      (w.advance E tid th e pc).threads[j]? = some th' := by
    rw [threads_advance, List.getElem?_set_ne (Ne.symm hj)]
    exact hth'
  rw [lastWrite_advance] at hl
  split at hl
  · cases hl
    obtain ⟨l, _, rfl, rfl⟩ := next_online hn
    exact Or.inl ⟨_, l, hself, rfl, rfl⟩
  · rename_i hw
    obtain ⟨th', l, hth', hpc, rfl⟩ | ⟨th', conn, hth', hc, hmap⟩ | ⟨th', hmem, hleave⟩ := h.owned u i hne hl
    · -- the login of the user is about to insert
      by_cases hi : i = tid
      · subst hi
        rw [hth] at hth'
        cases hth'
        have hc := (trace_entering (hT.trace i th hth) (show entering th.pc = some l.conn by rw [hpc]; rfl)).1
        rw [hpc] at hn hok
        cases hn
        refine Or.inr (Or.inl ⟨_, l.conn, hself, hc, ?_⟩)
        rw [connMap_advance, Effect.onMap, ConnMap.insertNew, if_neg hok.1]
        exact AList.lookup_insert _
      · exact Or.inl ⟨th', l, hother hi hth', hpc, rfl⟩
    · -- the map holds the user
      obtain ⟨th₀, hth₀, htask⟩ := thread_advance E e pc hth hth'
      obtain hmap' | rfl | ⟨c, rfl⟩ := lookup_onMap_of_lookup (e := e) hmap
      · exact Or.inr (Or.inl ⟨th₀, conn, hth₀, htask ▸ hc, by rw [connMap_advance]; exact hmap'⟩)
      · obtain ⟨_, rfl⟩ := next_eraseConn hn
        exact Or.inr (Or.inr ⟨_, List.mem_of_getElem? hself, rfl⟩)
      · have hpc := next_scanConn hn
        rw [hpc] at hn
        obtain ⟨v, _, he, hp⟩ | ⟨_, he, _⟩ := next_scan hn
        · cases he
          rw [if_neg hne] at hp
          exact Or.inr (Or.inr ⟨_, List.mem_of_getElem? hself, by rw [hp]; rfl⟩)
        · cases he
    · -- a handler is about to mark the user offline
      obtain ⟨j, hj⟩ := List.getElem?_of_mem hmem
      by_cases hjt : j = tid
      · subst hjt
        rw [hth] at hj
        cases hj
        obtain hleave' | rfl := next_leaving hn hleave
        · exact Or.inr (Or.inr ⟨_, List.mem_of_getElem? hself, hleave'⟩)
        · exact absurd (decide_eq_true rfl) hw
      · exact Or.inr (Or.inr ⟨th', List.mem_of_getElem? (hother hjt hj), hleave⟩)

theorem inv_advance (hE : E.Rules same) (hT : Traced E w) (h : Inv w) (hok : Allowed w th.pc)
    (hth : w.threads[tid]? = some th) (hn : th.pc.next E th.task.node pick w = some (e, pc)) :
    Inv (w.advance E tid th e pc) where
  single := by
    intro i j th₁ th₂ conn hi hj hc hc'
    obtain ⟨th₁', hi', h₁⟩ := task_of_advance hth hi
    obtain ⟨th₂', hj', h₂⟩ := task_of_advance hth hj
    exact h.single i j th₁' th₂' conn hi' hj' (h₁ ▸ hc) (h₂ ▸ hc')
  mapped := mapped_advance hT h hth hn
  scanned := scanned_advance hT h hok hn
  online := online_advance hE h hok hn
  written := written_advance hE h hok hn
  owned := owned_advance hT h hok hth hn

end Advance

theorem inv_step (hE : E.Rules same) (hT : Traced E w) (h : Inv w) {a : Action Unit} (hone : OneLogin w a)
    (hok : Orderly w a) (hs : step E w a = some w') : Inv w' := by
  obtain ⟨task, htask, hf, ht⟩ | ⟨hf, ht⟩ | ⟨tid, pick, th, e, pc, rfl, hth, hn, rfl⟩ := step_cases hs
  · refine inv_spawn h hf ht ?_
    obtain rfl | hsub := htask
    · exact hone
    · cases task with
      | subscribed => exact fun conn hc => absurd hc nofun
      | _ => cases hsub
  · exact inv_same h hf ht
  · exact inv_advance hE hT h (hok th hth) hth hn

theorem closedGone_of_inv (hT : Traced E w) (h : Inv w) : ClosedGone w := by
  intro conn hclosed
  have hgone : ∀ u, (connMap w).lookup u ≠ some conn := by
    obtain ⟨th, hmem, hc⟩ := hclosed.reported
    obtain ⟨i, hi⟩ := List.getElem?_of_mem hmem
    have htask : th.task = .close conn := by
      cases ht : th.task <;> rw [ht] at hc <;> cases hc
      rfl
    have htr := hT.trace i th hi
    rw [htask] at htr
    obtain hpc | ⟨found, hf⟩ := trace_close htr
    · rw [hclosed.finished th hmem (Or.inr hc)] at hpc
      cases hpc
    · exact h.scanned i conn found (mem_history.mp hf)
  refine ⟨hgone, fun u tid js hs hack hfind hleave => ?_⟩
  have hlt := hT.known _ hs
  have hon := mem_history.mp (trace_online (hT.trace tid _ (List.getElem?_eq_getElem hlt)) (mem_history.mpr hs) hack)
  obtain ⟨s, hstate⟩ := Option.isSome_iff_exists.mp (h.written u tid .online hon hfind)
  cases s with
  | offline => exact Or.inl hstate
  | online =>
    right
    obtain hnone | ⟨i, hlast⟩ := h.online u hstate
    · rw [lastWrite, lastFor, List.getLast?_eq_none_iff, List.filter_eq_nil_iff] at hnone
      have hw := hnone _ hon
      simp [writes] at hw
    · have hne : u ≠ -1 := by
        rintro rfl
        obtain ⟨r, hr⟩ := Option.isSome_iff_exists.mp hfind
        have hpos := (w.users.ids r (Table.mem_of_find hr)).1
        rw [Table.id_of_find hr] at hpos
        omega
      obtain ⟨th, l, hth, hpc, _⟩ | ⟨th, other, hth, hc, hmap⟩ | ⟨th, hth, hl⟩ := h.owned u i hne hlast
      · have hc := (trace_entering (hT.trace i th hth) (show entering th.pc = some l.conn by rw [hpc]; rfl)).1
        refine ⟨i, th, l.conn, ?_, hth, hc, hlast⟩
        rintro rfl
        rw [hclosed.finished th (List.mem_of_getElem? hth) (Or.inl hc)] at hpc
        cases hpc
      · refine ⟨i, th, other, ?_, hth, hc, hlast⟩
        rintro rfl
        exact hgone u hmap
      · exact absurd hl (hleave th hth)

/-- No dead connection stays registered. -/
theorem connections_gone (hE : E.Rules same) (w₀ w : World Unit) (h₀ : w₀.Fresh) (as : List (Action Unit))
    (hone : (cluster Unit E).Meets OneLogin w₀ as) (hok : (cluster Unit E).Meets Orderly w₀ as)
    (hr : (cluster Unit E).run w₀ as = some w) : ClosedGone w := by
  have h : Traced E w ∧ Inv w := Machine.run_invariant (I := fun w => Traced E w ∧ Inv w)
    ⟨traced_fresh h₀, inv_fresh h₀⟩
    (fun _ _ _ hi hm hs => ⟨hi.1.step hs, inv_step hE hi.1 hi.2 hm.1 hm.2 hs⟩) (Machine.meets_and hone hok) hr
  exact closedGone_of_inv h.1 h.2

instance decidableOneLogin (w : World Unit) : ∀ a : Action Unit, Decidable (OneLogin w a)
  | .start task => inferInstanceAs (Decidable (∀ conn ∈ loginConn task, ∀ th ∈ w.threads, loginConn th.task ≠ some conn))
  | .run .. | .listen .. => isTrue trivial

instance decidableAllowed (w : World Unit) : ∀ pc : Pc Unit, Decidable (Allowed w pc)
  | .insertConn l => inferInstanceAs (Decidable (l.user.id ∉ connMap w ∧ ∀ x ∈ w.log, scans l.conn x = false))
  | .insertUser .. => inferInstanceAs (Decidable (_ ∧ _))
  | .queryName .. | .updateOnline _ | .subscribe _ | .queryOffline _ | .removeOffline _ | .queryFriends _ |
    .queryGroup _ | .queryMembers .. | .sendAck _ | .eraseConn _ | .unsubscribe _ | .updateOffline _ |
    .isFriend .. | .findConn .. | .queryState .. | .publish .. | .findSubscribed .. | .insertOffline .. | .scanConn _ |
    .sendPayload .. | .sendJson .. | .resetState | .done => isTrue trivial

instance decidableOrderly (w : World Unit) : ∀ a : Action Unit, Decidable (Orderly w a)
  | .run tid _ => inferInstanceAs (Decidable (∀ th ∈ w.threads[tid]?, Allowed w th.pc))
  | .start _ | .listen .. => isTrue trivial

open Sample

def world : World Unit := { users := accounts }

def conn : Conn Unit := ⟨(), 0⟩

def leave : List (Action Unit) :=
  .start (.frame conn (loginFrame "alice" "a")) :: runs 0 8 ++
    [.start (.close conn), .run 1 (some 1), .run 1 none, .run 1 none]

theorem connections_gone_leave : ∃ w, (cluster Unit engine).run world leave = some w ∧ ClosedGone w := by
  have h : ((cluster Unit engine).run world leave).isSome = true ∧ (cluster Unit engine).Meets OneLogin world leave ∧
      (cluster Unit engine).Meets Orderly world leave := by decide +kernel
  obtain ⟨w, hw⟩ := Option.isSome_iff_exists.mp h.1
  exact ⟨w, hw, connections_gone (Engine.strict_rules _) world w ⟨rfl, rfl, fun _ => rfl⟩ leave
    h.2.1 h.2.2 hw⟩

/-- The cleanup of a connection scans the map while the login is still queued. -/
def earlyScan : List (Action Unit) :=
  .start (.frame conn (loginFrame "alice" "a")) :: .start (.close conn) :: runs 1 1 ++ runs 0 8

theorem earlyScan_registered : ¬ ∀ (E : Engine) (w₀ w : World Unit) (as : List (Action Unit)),
    E.Rules (fun a b => a = b) → w₀.Fresh → (cluster Unit E).Meets OneLogin w₀ as →
      (cluster Unit E).run w₀ as = some w → ClosedGone w := by
  intro h
  have hu : ((cluster Unit engine).run world earlyScan).map (fun w => (w.threads.all (fun th => th.pc.isDone),
      w.threads.any (fun th => closeConn th.task = some conn), (connMap w).lookup 1)) =
        some (true, true, some conn) ∧ (cluster Unit engine).Meets OneLogin world earlyScan := by decide +kernel
  obtain ⟨w, hw, hv⟩ := Option.map_eq_some_iff.mp hu.1
  obtain ⟨hdone, hv⟩ := Prod.mk.inj hv
  obtain ⟨hrep, hmap⟩ := Prod.mk.inj hv
  have hclosed : Closed w conn := by
    refine ⟨?_, fun th hth _ => isDone_iff.mp (List.all_eq_true.mp hdone th hth)⟩
    obtain ⟨th, hth, hc⟩ := List.any_eq_true.mp hrep
    exact ⟨th, hth, of_decide_eq_true hc⟩
  exact (h engine world w earlyScan (Engine.strict_rules _) ⟨rfl, rfl, fun _ => rfl⟩ hu.2 hw
    conn hclosed).1 1 hmap

end BridgeIM.Server.Closing
