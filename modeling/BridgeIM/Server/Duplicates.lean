import BridgeIM.Lib.Slots
import BridgeIM.Server.Delivery
import Mathlib.Algebra.BigOperators.Group.Finset.Piecewise
import Mathlib.Algebra.Order.BigOperators.Group.Finset

namespace BridgeIM.Server.Duplicates

open CString Db Lib Model Redis Delivery

variable {N : Type} [DecidableEq N] {E : Engine} {n : N} {pick : Option Int} {w w' : World N} {pc pc' : Pc N} {e : Effect N}

/-- A handler that is going to deliver a message may still send or store it once. -/
def weight (pc : Pc N) : Nat := if (delivering pc).isSome then 1 else 0

def copies : Effect N → Nat
  | .sendPayload .. | .insertOffline .. => 1
  | _ => 0

def published : Effect N → Nat
  | .publish .. => 1
  | _ => 0

theorem weight_next (h : pc.next E n pick w = some (e, pc')) : weight pc' + copies e + published e ≤ weight pc := by
  have hle : weight pc' ≤ weight pc := by
    rw [weight]
    split
    · rename_i hd
      obtain ⟨p, hp⟩ := Option.isSome_iff_exists.mp hd
      rw [weight, next_delivering h hp]
      exact Nat.le_refl 1
    · exact Nat.zero_le _
  cases e with
  | sendPayload conn p =>
    obtain ⟨rfl, rfl⟩ := next_sendPayload h
    exact Nat.le_refl 1
  | insertOffline u p =>
    obtain ⟨rfl, rfl⟩ := next_insertOffline h
    exact Nat.le_refl 1
  | publish u p =>
    obtain ⟨rfl, rfl⟩ := next_publish h
    exact Nat.le_refl 1
  | _ => exact hle

omit [DecidableEq N] in
theorem weight_le (pc : Pc N) : weight pc ≤ 1 := by
  rw [weight]
  split <;> omega

/-- The thread whose message a thread delivers: a published one is that of the
thread that has published it. -/
def source (i : Nat) (task : Task N) : Nat :=
  match task with
  | .subscribed _ _ _ call => call
  | _ => i

/-- The message of thread `tid` is the one that thread `i` delivers. -/
def Stems (w : World N) (tid i : Nat) : Prop := ∃ th, w.threads[i]? = some th ∧ source i th.task = tid

instance (w : World N) (tid i : Nat) : Decidable (Stems w tid i) :=
  decidable_of_iff (((w.threads[i]?).map fun th => source i th.task) = some tid) Option.map_eq_some_iff

/-- How often the message of thread `tid` has been sent as a frame or stored as
a row, by the thread or by those that handle what it has published. -/
def made (w : World N) (tid : Nat) : Nat := total (fun x => if Stems w tid x.1 then copies x.2 else 0) w.log

def held (w : World N) (tid : Nat) : Nat :=
  total (fun x => if source x.2 x.1.task = tid then weight x.1.pc else 0) w.threads.zipIdx

def isCall (tid : Nat) : Pushed → Bool
  | .message _ _ call => call = tid
  | .confirm _ => false

def flight (tid : Nat) (l : Link) : Nat := l.replies.countP (isCall tid)

theorem flight_eq (tid : Nat) (l : Link) : flight tid l = (messages l).countP (isCall tid) := by
  rw [messages, List.countP_filter, flight]
  refine List.countP_congr fun p _ => ?_
  cases p <;> simp [isCall]

/-- A message is published to a channel that at most one node is subscribed to. -/
def Lone (w : World N) : Pc N → Prop
  | .publish t _ => ∀ m n,
    decimal t ∈ (w.node m).redis.subscriptions → decimal t ∈ (w.node n).redis.subscriptions → m = n
  | _ => True

def Single (w : World N) : Action N → Prop
  | .run tid _ => ∀ th ∈ w.threads[tid]?, Lone w th.pc
  | _ => True

variable [Fintype N]

def load (w : World N) (tid : Nat) : Nat := made w tid + held w tid + ∑ n, flight tid (w.node n).redis

structure Inv (w : World N) : Prop where
  once : ∀ tid, load w tid ≤ 1
  handler : ∀ n, (w.node n).redis.messageHandler = true
  sources : ∀ i th, w.threads[i]? = some th → source i th.task < w.threads.length
  calls : ∀ n call, flight call (w.node n).redis ≠ 0 → call < w.threads.length
  known : ∀ x ∈ w.log, x.1 < w.threads.length

omit [DecidableEq N] [Fintype N] in
theorem made_spawn (hk : ∀ x ∈ w.log, x.1 < w.threads.length) (task : Task N) (tid : Nat) :
    made (w.spawn task) tid = made w tid := by
  refine congrArg List.sum (List.map_congr_left fun x hx => ?_)
  have hs : Stems (w.spawn task) tid x.1 ↔ Stems w tid x.1 := by
    rw [Stems, World.spawn, List.getElem?_append_left (hk x hx), Stems]
  simp only [hs]

omit [DecidableEq N] [Fintype N] in
theorem held_spawn (w : World N) (task : Task N) (tid : Nat) : held (w.spawn task) tid =
    held w tid + if source w.threads.length task = tid then weight task.start else 0 := by
  rw [held, World.spawn, List.zipIdx_append, total_append, held, Nat.zero_add]
  rfl

omit [DecidableEq N] in
theorem Inv.load_new (h : Inv w) : load w w.threads.length = 0 := by
  have hm : made w w.threads.length = 0 := by
    refine total_eq_zero fun x _ => if_neg ?_
    rintro ⟨th, hth, hs⟩
    exact absurd hs (Nat.ne_of_lt (h.sources x.1 th hth))
  have hh : held w w.threads.length = 0 := by
    refine total_eq_zero fun x hx => if_neg ?_
    exact Nat.ne_of_lt (h.sources x.2 x.1 (List.mem_zipIdx_iff_getElem?.mp hx))
  have hf : ∑ n, flight w.threads.length (w.node n).redis = 0 := by
    refine Finset.sum_eq_zero fun n _ => ?_
    by_contra hne
    exact Nat.lt_irrefl _ (h.calls n _ hne)
  rw [load, hm, hh, hf]

omit [DecidableEq N] in
theorem Inv.spawn (h : Inv w) {task : Task N} (ht : task.isSubscribed = false) : Inv (w.spawn task) := by
  have hs : source w.threads.length task = w.threads.length := by
    cases task with
    | subscribed => cases ht
    | _ => rfl
  have hlen : (w.spawn task).threads.length = w.threads.length + 1 := List.length_append
  refine ⟨fun tid => ?_, h.handler, fun i th hi => ?_, fun n call hc => ?_, fun x hx => ?_⟩
  · have hload : load (w.spawn task) tid = load w tid + if w.threads.length = tid then weight task.start else 0 := by
      have hf : ∑ n, flight tid ((w.spawn task).node n).redis = ∑ n, flight tid (w.node n).redis := rfl
      rw [load, made_spawn h.known, held_spawn, hs, hf, load]
      omega
    rw [hload]
    by_cases htid : w.threads.length = tid
    · rw [if_pos htid, ← htid, h.load_new, Nat.zero_add]
      exact weight_le _
    · rw [if_neg htid]
      exact h.once tid
  · rw [hlen]
    obtain hi | ⟨rfl, rfl⟩ := getElem?_of_concat hi
    · exact Nat.lt_succ_of_lt (h.sources i th hi)
    · rw [hs]
      exact Nat.lt_succ_self _
  · rw [hlen]
    exact Nat.lt_succ_of_lt (h.calls n call hc)
  · rw [hlen]
    exact Nat.lt_succ_of_lt (h.known x hx)

theorem sum_setRedis (f : Link → Nat) (w : World N) (n : N) (r : Link) :
    ∑ k, f ((w.setRedis n r).node k).redis + f (w.node n).redis = ∑ k, f (w.node k).redis + f r := by
  have herase : ∑ k ∈ Finset.univ.erase n, f ((w.setRedis n r).node k).redis =
      ∑ k ∈ Finset.univ.erase n, f (w.node k).redis := by
    refine Finset.sum_congr rfl fun k hk => ?_
    rw [node_setRedis, if_neg (Finset.ne_of_mem_erase hk)]
  rw [← Finset.add_sum_erase _ _ (Finset.mem_univ n), herase, node_setRedis, if_pos rfl,
    ← Finset.add_sum_erase Finset.univ (fun k => f (w.node k).redis) (Finset.mem_univ n)]
  omega

theorem Inv.listen (h : Inv w) {l : Listen} (hl : w.listen n l = some w') : Inv w' := by
  obtain ⟨r, hr, ⟨rfl, hmsgs⟩ | ⟨c, s, call, hrep, rfl⟩⟩ := listen_messages (h.handler n) hl
  · have hf (tid : Nat) : flight tid r = flight tid (w.node n).redis := by rw [flight_eq, hmsgs, ← flight_eq]
    refine ⟨fun tid => ?_, fun k => ?_, h.sources, fun k call hc => ?_, h.known⟩
    · have hsum := sum_setRedis (flight tid) w n r
      have honce := h.once tid
      have hm : made (w.setRedis n r) tid = made w tid := rfl
      have hh : held (w.setRedis n r) tid = held w tid := rfl
      rw [hf] at hsum
      rw [load] at honce ⊢
      omega
    · rw [node_setRedis]
      split
      · exact hr
      · exact h.handler k
    · rw [node_setRedis] at hc
      split at hc
      · rw [hf] at hc
        exact h.calls n call hc
      · exact h.calls k call hc
  · have hf (tid : Nat) : flight tid (w.node n).redis = flight tid r + if call = tid then 1 else 0 := by
      rw [flight, hrep, List.countP_cons, flight]
      simp only [isCall, decide_eq_true_eq]
    have hlen : ((w.setRedis n r).spawn (.subscribed n (leadingInt c) (cstring s) call)).threads.length = w.threads.length + 1 :=
      List.length_append
    have hcall : call < w.threads.length := by
      refine h.calls n call ?_
      rw [hf, if_pos rfl]
      exact Nat.succ_ne_zero _
    refine ⟨fun tid => ?_, fun k => ?_, fun i th hi => ?_, fun k call' hc => ?_, fun x hx => ?_⟩
    · have hsum := sum_setRedis (flight tid) w n r
      have honce := h.once tid
      have hw := weight_le (Task.start (.subscribed n (leadingInt c) (cstring s) call))
      have hm : made ((w.setRedis n r).spawn (.subscribed n (leadingInt c) (cstring s) call)) tid = made w tid :=
        made_spawn h.known _ tid
      have hh : held ((w.setRedis n r).spawn (.subscribed n (leadingInt c) (cstring s) call)) tid =
          held w tid + if call = tid then weight (Task.start (.subscribed n (leadingInt c) (cstring s) call)) else 0 :=
        held_spawn (w.setRedis n r) _ tid
      have hs : ∑ k, flight tid (((w.setRedis n r).spawn (.subscribed n (leadingInt c) (cstring s) call)).node k).redis =
          ∑ k, flight tid ((w.setRedis n r).node k).redis := rfl
      rw [hf] at hsum
      rw [load] at honce ⊢
      rw [hm, hh, hs]
      split at hsum
      · rename_i hc
        rw [if_pos hc]
        omega
      · rename_i hc
        rw [if_neg hc]
        omega
    · change ((w.setRedis n r).node k).redis.messageHandler = true
      rw [node_setRedis]
      split
      · exact hr
      · exact h.handler k
    · rw [hlen]
      obtain hi | ⟨rfl, rfl⟩ := getElem?_of_concat hi
      · exact Nat.lt_succ_of_lt (h.sources i th hi)
      · exact Nat.lt_succ_of_lt hcall
    · rw [hlen]
      change flight call' ((w.setRedis n r).node k).redis ≠ 0 at hc
      rw [node_setRedis] at hc
      split at hc
      · refine Nat.lt_succ_of_lt (h.calls n call' fun h₀ => hc ?_)
        rw [hf] at h₀
        exact Nat.eq_zero_of_add_eq_zero_right h₀
      · exact Nat.lt_succ_of_lt (h.calls k call' hc)
    · rw [hlen]
      exact Nat.lt_succ_of_lt (h.known x hx)

section Advance

variable {tid : Nat} {th : Thread N}

omit [Fintype N] in
theorem subscribed_pc {h : List (Effect N)} {u : Int} {msg : String} {call : Nat}
    (ht : Trace E (.subscribed n u msg call) h pc) :
    pc = .findSubscribed u msg ∨ pc = .insertOffline u msg ∨ (∃ conn, pc = .sendPayload conn msg) ∨ pc = .done := by
  induction ht with
  | start => exact Or.inl rfl
  | step w pick ht hn ih =>
    obtain rfl | rfl | ⟨conn, rfl⟩ | rfl := ih
    · cases hn
      cases hl : (w.node n).userConnMap.lookup u with
      | none => exact Or.inr (Or.inl (by rw [Task.node, hl]; rfl))
      | some conn => exact Or.inr (Or.inr (Or.inl ⟨conn, by rw [Task.node, hl]; rfl⟩))
    · cases hn
      exact Or.inr (Or.inr (Or.inr rfl))
    · cases hn
      exact Or.inr (Or.inr (Or.inr rfl))
    · cases hn

omit [Fintype N] in
theorem source_of_published (hT : Traced E w) (hth : w.threads[tid]? = some th)
    (hn : th.pc.next E th.task.node pick w = some (e, pc)) (hp : published e ≠ 0) : source tid th.task = tid := by
  obtain ⟨task, pc₀⟩ := th
  cases e with
  | publish u p =>
    obtain ⟨rfl, -⟩ := next_publish hn
    cases task with
    | subscribed m v msg call =>
      obtain hpc | hpc | ⟨conn, hpc⟩ | hpc := subscribed_pc (hT.trace tid _ hth) <;> cases hpc
    | _ => rfl
  | _ => exact absurd rfl hp

omit [Fintype N] in
theorem stems_advance (hth : w.threads[tid]? = some th) (call i : Nat) :
    Stems (w.advance E tid th e pc) call i ↔ Stems w call i := by
  rw [Stems, threads_advance, Stems]
  by_cases hi : i = tid
  · subst hi
    rw [getElem?_set_self hth, hth]
    simp only [Option.some.injEq, exists_eq_left']
  · rw [List.getElem?_set_ne (Ne.symm hi)]

omit [Fintype N] in
theorem made_advance (hth : w.threads[tid]? = some th) (call : Nat) : made (w.advance E tid th e pc) call =
    made w call + if source tid th.task = call then copies e else 0 := by
  have hs : Stems w call tid ↔ source tid th.task = call := by
    rw [Stems, hth]
    simp only [Option.some.injEq, exists_eq_left']
  rw [made, log_advance, total_concat, made]
  simp only [stems_advance hth, hs]

theorem zipIdx_set {α : Type} (l : List α) (i : Nat) (x : α) : (l.set i x).zipIdx = l.zipIdx.set i (x, i) := by
  refine List.ext_getElem? fun k => ?_
  rw [List.getElem?_zipIdx, List.getElem?_set, List.getElem?_set, List.getElem?_zipIdx, List.length_zipIdx, Nat.zero_add]
  by_cases hk : i = k
  · subst hk
    rw [if_pos rfl, if_pos rfl]
    split <;> rfl
  · rw [if_neg hk, if_neg hk]

omit [Fintype N] in
theorem held_advance (hth : w.threads[tid]? = some th) (call : Nat) : held (w.advance E tid th e pc) call +
    (if source tid th.task = call then weight th.pc else 0) =
      held w call + if source tid th.task = call then weight pc else 0 := by
  have hz : w.threads.zipIdx[tid]? = some (th, tid) := by
    rw [List.getElem?_zipIdx, hth, Nat.zero_add]
    rfl
  rw [held, threads_advance, zipIdx_set, held]
  exact total_set (f := fun x : Thread N × Nat => if source x.2 x.1.task = call then weight x.1.pc else 0) hz _

def pushes (tid call : Nat) (l : Link) : Effect N → Nat
  | .publish c _ => if decimal c ∈ l.subscriptions then if tid = call then 1 else 0 else 0
  | _ => 0

omit [DecidableEq N] [Fintype N] in
theorem flight_onRedis (call : Nat) (own : Bool) (l : Link) (e : Effect N) :
    flight call (e.onRedis tid own l) ≤ flight call l + pushes tid call l e := by
  cases e with
  | publish c m =>
    simp only [Effect.onRedis, Link.push, pushes]
    split
    · rw [flight, List.countP_append, List.countP_singleton, flight]
      simp only [isCall, decide_eq_true_eq]
      exact Nat.le_refl _
    · exact Nat.le_refl _
  | subscribe u =>
    simp only [Effect.onRedis, Link.subscribe]
    split
    · split <;> exact Nat.le_refl _
    · exact Nat.le_refl _
  | unsubscribe u =>
    simp only [Effect.onRedis, Link.unsubscribe]
    split
    · split <;> exact Nat.le_refl _
    · exact Nat.le_refl _
  | _ => exact Nat.le_refl _

theorem sum_flight_advance (hok : Lone w th.pc) (hn : th.pc.next E th.task.node pick w = some (e, pc)) (call : Nat) :
    ∑ n, flight call ((w.advance E tid th e pc).node n).redis ≤
      ∑ n, flight call (w.node n).redis + if tid = call then published e else 0 := by
  have hle : ∑ n, flight call ((w.advance E tid th e pc).node n).redis ≤
      ∑ n, (flight call (w.node n).redis + pushes tid call (w.node n).redis e) :=
    Finset.sum_le_sum fun n _ => flight_onRedis call _ _ e
  rw [Finset.sum_add_distrib] at hle
  refine Nat.le_trans hle (Nat.add_le_add_left ?_ _)
  cases e with
  | publish c p =>
    rw [(next_publish hn).1] at hok
    by_cases hc : tid = call
    · simp only [pushes, if_pos hc, published]
      rw [← Finset.card_filter]
      refine Finset.card_le_one.mpr fun m hm n hn => ?_
      exact hok m n (Finset.mem_filter.mp hm).2 (Finset.mem_filter.mp hn).2
    · simp only [pushes, if_neg hc, ite_self, Finset.sum_const_zero, Nat.le_refl]
  | _ => simp [pushes]

theorem Inv.advance (hT : Traced E w) (h : Inv w) (hth : w.threads[tid]? = some th)
    (hok : Lone w th.pc) (hn : th.pc.next E th.task.node pick w = some (e, pc)) : Inv (w.advance E tid th e pc) := by
  have hlen : (w.advance E tid th e pc).threads.length = w.threads.length := List.length_set
  have hlt : tid < w.threads.length := (List.getElem?_eq_some_iff.mp hth).1
  refine ⟨fun call => ?_, fun m => ?_, fun i th' hi => ?_, fun m call hc => ?_, fun x hx => ?_⟩
  · have hweight := weight_next hn
    have hheld : held (w.advance E tid th e pc) call + (if source tid th.task = call then weight th.pc else 0) =
        held w call + if source tid th.task = call then weight pc else 0 := held_advance hth call
    have hflight : ∑ n, flight call ((w.advance E tid th e pc).node n).redis ≤
        ∑ n, flight call (w.node n).redis + if tid = call then published e else 0 := sum_flight_advance hok hn call
    have honce := h.once call
    rw [load] at honce ⊢
    rw [made_advance hth]
    by_cases hs : source tid th.task = call
    · rw [if_pos hs] at hheld ⊢
      rw [if_pos hs] at hheld
      split at hflight <;> omega
    · rw [if_neg hs] at hheld ⊢
      rw [if_neg hs] at hheld
      by_cases hp : published e = 0
      · rw [hp, ite_self] at hflight
        omega
      · rw [if_neg fun hc => hs ((source_of_published hT hth hn hp).trans hc)] at hflight
        omega
  · rw [node_advance]
    exact (messages_onRedis tid _ _ e).1.trans (h.handler m)
  · rw [hlen]
    obtain ⟨rfl, rfl⟩ | ⟨-, hi⟩ := getElem?_of_set hi
    · exact h.sources i th hth
    · exact h.sources i th' hi
  · rw [hlen]
    by_cases hcall : tid = call
    · exact hcall ▸ hlt
    · refine h.calls m call fun h₀ => hc ?_
      have hle : flight call (e.onRedis tid (decide (m = th.task.node)) (w.node m).redis) ≤
          flight call (w.node m).redis + pushes tid call (w.node m).redis e := flight_onRedis call _ _ e
      rw [h₀] at hle
      rw [node_advance]
      refine Nat.eq_zero_of_le_zero (Nat.le_trans hle ?_)
      cases e with
      | publish c p => simp only [pushes, if_neg hcall, ite_self, Nat.le_refl]
      | _ => exact Nat.le_refl 0
  · rw [hlen]
    rw [log_advance, List.mem_append, List.mem_singleton] at hx
    obtain hx | rfl := hx
    · exact h.known x hx
    · exact hlt

end Advance

theorem Inv.step (hT : Traced E w) (h : Inv w) {a : Action N} (hok : Single w a) (hs : Server.step E w a = some w') :
    Inv w' := by
  cases a with
  | start task =>
    simp only [Server.step] at hs
    split at hs
    · cases hs
    · rename_i ht
      cases hs
      exact h.spawn (Bool.eq_false_iff.mpr ht)
  | run tid pick =>
    obtain ⟨th, hth, hs⟩ := Option.bind_eq_some_iff.mp hs
    obtain ⟨⟨e, pc⟩, hn, rfl⟩ := Option.map_eq_some_iff.mp hs
    exact h.advance hT hth (hok th hth) hn
  | listen n l => exact h.listen hs

omit [DecidableEq N] in
theorem inv_fresh (h : w.Fresh) : Inv w where
  once tid := by
    have hf : ∑ n, flight tid (w.node n).redis = 0 := Finset.sum_eq_zero fun n _ => by
      rw [h.node]
      rfl
    rw [load, made, h.log, held, h.threads, hf]
    exact Nat.zero_le 1
  handler n := by rw [h.node]
  sources i th hi := by
    rw [h.threads] at hi
    cases hi
  calls n call hc := by
    rw [h.node] at hc
    exact absurd rfl hc
  known x hx := by
    rw [h.log] at hx
    cases hx

/-- The message of a thread is sent or stored at most once, by whichever nodes. -/
theorem message_once (w₀ w : World N) (h₀ : w₀.Fresh) (as : List (Action N)) (hm : (cluster N E).Meets Single w₀ as)
    (hr : (cluster N E).run w₀ as = some w) (tid : Nat) : made w tid ≤ 1 := by
  have h : Traced E w ∧ Inv w :=
    Machine.run_invariant (I := fun w => Traced E w ∧ Inv w) ⟨traced_fresh h₀, inv_fresh h₀⟩
      (fun _ _ _ hi hok hs => ⟨hi.1.step hs, hi.2.step hi.1 hok hs⟩) hm hr
  have hle := h.2.once tid
  rw [load] at hle
  omega

omit [DecidableEq N] [Fintype N] in
def OneSession (w : World N) (_ : Action N) : Prop :=
  ∀ m n, m ≠ n → ∀ u ∈ (w.node m).userConnMap.keys, u ∉ (w.node n).userConnMap.keys

omit [DecidableEq N] in
instance decidableLone (w : World N) : ∀ pc : Pc N, Decidable (Lone w pc)
  | .publish t _ => inferInstanceAs (Decidable (∀ m n,
    decimal t ∈ (w.node m).redis.subscriptions → decimal t ∈ (w.node n).redis.subscriptions → m = n))
  | .queryName .. | .updateOnline _ | .insertConn _ | .subscribe _ | .queryOffline _ | .removeOffline _ |
    .queryFriends _ | .queryGroup _ | .queryMembers .. | .sendAck _ | .eraseConn _ | .unsubscribe _ |
    .updateOffline _ | .insertUser .. | .scanConn _ | .isFriend .. | .findConn .. | .queryState .. |
    .findSubscribed .. | .insertOffline .. | .sendPayload .. | .sendJson .. | .resetState | .done => isTrue trivial

instance decidableSingle (w : World N) : ∀ a : Action N, Decidable (Single w a)
  | .run tid _ => inferInstanceAs (Decidable (∀ th ∈ w.threads[tid]?, Lone w th.pc))
  | .start _ | .listen .. => isTrue trivial

instance decidableOneSession (w : World N) (a : Action N) : Decidable (OneSession w a) :=
  inferInstanceAs (Decidable (∀ m n, m ≠ n → ∀ u ∈ (w.node m).userConnMap.keys, u ∉ (w.node n).userConnMap.keys))

open Sample

theorem message_once_across : ∃ w, (cluster Bool engine).run world acrossNodes = some w ∧ made w 1 ≤ 1 := by
  have h : ((cluster Bool engine).run world acrossNodes).isSome = true ∧
      (cluster Bool engine).Meets Single world acrossNodes := by decide +kernel
  obtain ⟨w, hw⟩ := Option.isSome_iff_exists.mp h.1
  exact ⟨w, hw, message_once world w ⟨rfl, rfl, fun _ => rfl⟩ acrossNodes h.2 hw 1⟩

def listenOn (n : Bool) : List (Action Bool) :=
  [.listen n .swapCommands, .listen n .nextCommand, .listen n .serve, .listen n .nextReply]

/-- alice moves from one node to the other, and the first one has not
unsubscribed from her channel when bob writes to her. -/
def moved : List (Action Bool) :=
  .start (.frame ⟨true, 0⟩ (loginFrame "alice" "a")) :: runs 0 8 ++ listenOn true ++
    .start (.frame ⟨true, 0⟩ (loginoutFrame 1)) :: runs 1 3 ++
    .start (.frame ⟨false, 0⟩ (loginFrame "alice" "a")) :: runs 2 8 ++ listenOn false ++
    .start (.frame ⟨true, 1⟩ (chatFrame 2 1 "hello")) :: runs 3 4 ++
    [.listen true .nextReply, .listen false .nextReply] ++ runs 4 2 ++ runs 5 2

/-- The message is sent on the new connection and stored for alice. -/
theorem moved_twice : ¬ ∀ (E : Engine) (w₀ w : World Bool) (as : List (Action Bool)), E.Rules (fun a b => a = b) →
    w₀.Fresh → (cluster Bool E).Meets OneSession w₀ as → (cluster Bool E).run w₀ as = some w →
    ∀ tid, made w tid ≤ 1 := by
  intro h
  have hm : ((cluster Bool engine).run world moved).map (fun w => made w 3) = some 2 ∧
      (cluster Bool engine).Meets OneSession world moved := by decide +kernel
  obtain ⟨w, hw, h₂⟩ := Option.map_eq_some_iff.mp hm.1
  have hle := h engine world w moved (Engine.strict_rules _) ⟨rfl, rfl, fun _ => rfl⟩ hm.2 hw 3
  omega

end BridgeIM.Server.Duplicates
