import BridgeIM.Server.Delivery

namespace BridgeIM.Server.CrossNode

open CString Lib Redis Delivery

section Slots

variable {α β : Type*} {f : α → Option β} {l : List α} {i : Nat} {x y : α}

theorem filterMap_set_eq (h : l[i]? = some x) (hf : f y = f x) : (l.set i y).filterMap f = l.filterMap f := by
  induction l generalizing i with
  | nil => rfl
  | cons z l ih =>
    cases i with
    | zero =>
      cases h
      rw [List.set_cons_zero, List.filterMap_cons, List.filterMap_cons, hf]
    | succ i => rw [List.set_cons_succ, List.filterMap_cons, List.filterMap_cons, ih h]

theorem filterMap_set_none {b : β} (h : l[i]? = some x) (hx : f x = some b) (hy : f y = none)
    (hl : (l.filterMap f).length ≤ 1) : l.filterMap f = [b] ∧ (l.set i y).filterMap f = [] := by
  induction l generalizing i with
  | nil => cases h
  | cons z l ih =>
    cases i with
    | zero =>
      cases h
      rw [List.filterMap_cons_some hx] at hl ⊢
      have hnil : l.filterMap f = [] := List.eq_nil_of_length_eq_zero (by rw [List.length_cons] at hl; omega)
      rw [List.set_cons_zero, List.filterMap_cons_none hy, hnil]
      exact ⟨rfl, rfl⟩
    | succ i =>
      have hpos : b ∈ l.filterMap f := List.mem_filterMap.mpr ⟨x, List.mem_of_getElem? h, hx⟩
      cases hz : f z with
      | none =>
        rw [List.filterMap_cons_none hz] at hl ⊢
        rw [List.set_cons_succ, List.filterMap_cons_none hz]
        exact ih h hl
      | some c =>
        rw [List.filterMap_cons_some hz, List.length_cons] at hl
        have hne := List.length_pos_of_mem hpos
        omega

end Slots

variable {N : Type} [DecidableEq N] {E : Engine} {n : N} {pick : Option Int} {w w' : World N} {pc pc' : Pc N} {e : Effect N}
  {task : Task N} {h : List (Effect N)} {t : Int} {p : String}

/-- How far the handling of a published message has come. -/
inductive Subscribed (u : Int) (msg : String) : List (Effect N) → Pc N → Prop
  | start : Subscribed u msg [] (.findSubscribed u msg)
  | store : Subscribed u msg [.findConn u none] (.insertOffline u msg)
  | send (conn : Conn N) : Subscribed u msg [.findConn u (some conn)] (.sendPayload conn msg)
  | stored : Subscribed u msg [.findConn u none, .insertOffline u msg] .done
  | sent (conn : Conn N) : Subscribed u msg [.findConn u (some conn), .sendPayload conn msg] .done

theorem subscribed_trace {u : Int} {msg : String} {call : Nat} (ht : Trace E (.subscribed n u msg call) h pc) :
    Subscribed u msg h pc := by
  induction ht with
  | start => exact .start
  | step w pick _ hn ih =>
    cases ih with
    | start =>
      cases hn
      cases (w.node _).userConnMap.lookup u with
      | none => exact .store
      | some conn => exact .send conn
    | store =>
      cases hn
      exact .stored
    | send conn =>
      cases hn
      exact .sent conn
    | _ => cases hn

def foundFor (conn : Conn N) (h : List (Effect N)) : Option Int :=
  h.findSome? fun
    | .findConn t (some found) => if found = conn then some t else none
    | _ => none

theorem foundFor_append {conn : Conn N} {h' : List (Effect N)} (hf : foundFor conn h = some t) :
    foundFor conn (h ++ h') = some t := by
  rw [foundFor, List.findSome?_append, ← foundFor, hf, Option.some_or]

theorem Subscribed.foundFor {u : Int} {msg : String} {conn : Conn N} (hs : Subscribed u msg h pc)
    (he : .sendPayload conn p ∈ h ∨ pc = .sendPayload conn p) : foundFor conn h = some u := by
  cases hs with
  | start | store | stored => simp at he
  | send found =>
    obtain ⟨rfl, -⟩ : found = conn ∧ msg = p := by simpa using he
    simp [CrossNode.foundFor]
  | sent found =>
    obtain ⟨rfl, -⟩ : conn = found ∧ p = msg := by simpa using he
    simp [CrossNode.foundFor]

theorem Subscribed.next {u : Int} {msg : String} (hs : Subscribed u msg h pc)
    (hn : pc.next E n pick w = some (e, pc')) : ((∃ found, e = .findConn u found) ∧ pc'.isDone = false) ∨
      ((e = .insertOffline u msg ∨ ∃ conn, e = .sendPayload conn msg ∧ pc = .sendPayload conn msg) ∧ pc' = .done) := by
  cases hs with
  | start =>
    cases hn
    refine Or.inl ⟨⟨_, rfl⟩, ?_⟩
    cases (w.node n).userConnMap.lookup u <;> rfl
  | store =>
    cases hn
    exact Or.inr ⟨Or.inl rfl, rfl⟩
  | send conn =>
    cases hn
    exact Or.inr ⟨Or.inr ⟨conn, rfl, rfl⟩, rfl⟩
  | _ => cases hn

def publication : Nat × Effect N → Option (Option Int × String × Nat)
  | (tid, .publish t p) => some (some t, p, tid)
  | _ => none

def publications (w : World N) : List (Option Int × String × Nat) := w.log.filterMap publication

/-- The message that the listener of a node has started a thread for. -/
def handling (n : N) : Task N → Option (Option Int × String × Nat)
  | .subscribed k u msg call => if k = n then some (some u, msg, call) else none
  | _ => none

/-- What a thread sends on the connection that it has found for a user, or
stores for one, if the listener of the node has started it. -/
def handled (n : N) (w : World N) : Nat × Effect N → Option (Option Int × String × Nat)
  | (tid, .sendPayload conn p) =>
    ((w.threads[tid]?).bind fun th => handling n th.task).map fun m => (foundFor conn (w.history tid), p, m.2.2)
  | (tid, .insertOffline t p) => ((w.threads[tid]?).bind fun th => handling n th.task).map fun m => (some t, p, m.2.2)
  | _ => none

/-- The published messages that a node has sent or stored, in the order in which
it has done so. -/
def passedOn (n : N) (w : World N) : List (Option Int × String × Nat) := w.log.filterMap (handled n w)

def unfinished (n : N) (th : Thread N) : Option (Option Int × String × Nat) :=
  if th.pc.isDone then none else handling n th.task

def undone (n : N) (w : World N) : List (Option Int × String × Nat) := w.threads.filterMap (unfinished n)

def arriving : Pushed → Option (Option Int × String × Nat)
  | .message c s call => some (some (leadingInt c), cstring s, call)
  | .confirm _ => none

def arrivals (l : Link) : List (Option Int × String × Nat) := l.replies.filterMap arriving

structure Ordered (w : World N) : Prop where
  handler : ∀ n, (w.node n).redis.messageHandler = true
  clean : ∀ th ∈ w.threads, ∀ p, text th.task = some p → '\x00' ∉ p.toList
  single : ∀ n, (undone n w).length ≤ 1
  order : ∀ n, (passedOn n w ++ undone n w ++ arrivals (w.node n).redis).Sublist (publications w)

theorem ordered_fresh (h : w.Fresh) : Ordered w where
  handler := by
    intro n
    rw [h.node]
  clean := by
    intro th ht
    rw [h.threads] at ht
    cases ht
  single := by
    intro n
    rw [undone, h.threads]
    exact Nat.zero_le 1
  order := by
    intro n
    rw [passedOn, undone, h.log, h.threads, h.node]
    exact List.nil_sublist _

theorem handling_eq_some {m : Option Int × String × Nat} (hm : handling n task = some m) :
    ∃ u msg call, task = .subscribed n u msg call ∧ m = (some u, msg, call) := by
  cases task with
  | subscribed k u msg call =>
    obtain ⟨rfl, h⟩ := Option.ite_none_right_eq_some.mp hm
    exact ⟨u, msg, call, rfl, (Option.some.inj h).symm⟩
  | _ => cases hm

theorem handled_of_extends (hT : Traced E w) {x : Nat × Effect N} (hx : x ∈ w.log)
    (ht : (w'.threads[x.1]?).map Thread.task = (w.threads[x.1]?).map Thread.task) (hh : w.history x.1 <+: w'.history x.1) :
    handled n w' x = handled n w x := by
  obtain ⟨tid, e⟩ := x
  have hlt : tid < w.threads.length := hT.known _ hx
  have hth := List.getElem?_eq_getElem hlt
  rw [hth, Option.map_some] at ht
  obtain ⟨th', hth', htask⟩ := Option.map_eq_some_iff.mp ht
  cases hm : handling n w.threads[tid].task with
  | none => cases e <;> simp only [handled, hth, hth', Option.bind_some, htask, hm, Option.map_none]
  | some m =>
    cases e with
    | sendPayload conn p =>
      obtain ⟨u, msg, call, hsub, rfl⟩ := handling_eq_some hm
      have hs := subscribed_trace (hsub ▸ hT.trace tid _ hth)
      have hf := hs.foundFor (Or.inl (mem_history.mpr hx))
      obtain ⟨h', hh⟩ := hh
      simp only [handled, hth, hth', Option.bind_some, htask, hm, Option.map_some, ← hh, foundFor_append hf, hf]
    | insertOffline t p => simp only [handled, hth, hth', Option.bind_some, htask, hm]
    | _ => rfl

theorem passedOn_spawn (hT : Traced E w) (n : N) (task : Task N) : passedOn n (w.spawn task) = passedOn n w := by
  refine List.filterMap_congr fun x hx => handled_of_extends hT hx ?_ (List.prefix_refl _)
  rw [World.spawn, List.getElem?_append_left (hT.known x hx)]

theorem undone_spawn (n : N) (w : World N) (task : Task N) :
    undone n (w.spawn task) = undone n w ++ (if task.start.isDone then none else handling n task).toList := by
  rw [undone, World.spawn, List.filterMap_append]
  congr 1

theorem undone_of_idle (h : w.dispatching n = false) : undone n w = [] := by
  refine List.filterMap_eq_nil_iff.mpr fun th hth => ?_
  have hd := List.any_eq_false.mp h th hth
  rw [unfinished]
  split
  · rfl
  · rename_i hpc
    cases htask : th.task with
    | subscribed k u msg call =>
      rw [htask] at hd
      have hk : k ≠ n := by
        rintro rfl
        simp [Task.isSubscribed, Task.node, hpc] at hd
      exact if_neg hk
    | _ => rfl

theorem arrivals_eq (l : Link) : arrivals l = (messages l).filterMap arriving := by
  rw [arrivals, messages, List.filterMap_filter]
  refine List.filterMap_congr fun x _ => ?_
  cases x <;> rfl

def received (tid : Nat) (l : Link) : Effect N → Option (Option Int × String × Nat)
  | .publish t p => if decimal t ∈ l.subscriptions then some (some t, p, tid) else none
  | _ => none

omit [DecidableEq N] in
theorem received_sublist (tid : Nat) (l : Link) (e : Effect N) :
    (received tid l e).toList.Sublist (publication (tid, e)).toList := by
  cases e with
  | publish t p =>
    rw [received]
    split
    · exact List.Sublist.refl _
    · exact List.nil_sublist _
  | _ => exact List.nil_sublist _

omit [DecidableEq N] in
theorem arrivals_onRedis (tid : Nat) (own : Bool) (l : Link) (hp : ∀ t p, e = .publish t p → '\x00' ∉ p.toList) :
    arrivals (e.onRedis tid own l) = arrivals l ++ (received tid l e).toList := by
  cases e with
  | publish t p =>
    simp only [Effect.onRedis, Link.push, received]
    split
    · have hm : arriving (.message (decimal t) (cstring p) tid) = some (some t, p, tid) := by
        simp only [arriving, leadingInt_decimal, cstring_of_not_mem (hp t p rfl)]
      rw [arrivals, List.filterMap_append, List.filterMap_cons, hm]
      rfl
    · exact (List.append_nil _).symm
  | subscribe u =>
    simp only [Effect.onRedis, Link.subscribe]
    split
    · split <;> exact (List.append_nil _).symm
    · exact (List.append_nil _).symm
  | unsubscribe u =>
    simp only [Effect.onRedis, Link.unsubscribe]
    split
    · split <;> exact (List.append_nil _).symm
    · exact (List.append_nil _).symm
  | _ => exact (List.append_nil _).symm

theorem ordered_spawn (hT : Traced E w) (h : Ordered w) {task : Task N} (hs : task.isSubscribed = false)
    (hc : ∀ p, text task = some p → '\x00' ∉ p.toList) : Ordered (w.spawn task) := by
  have hu (n : N) : undone n (w.spawn task) = undone n w := by
    have hh : handling n task = none := by
      cases task with
      | subscribed => cases hs
      | _ => rfl
    rw [undone_spawn, hh, ite_self, Option.toList_none, List.append_nil]
  refine ⟨h.handler, ?_, ?_, ?_⟩
  · intro th hth
    obtain hth | hth := List.mem_append.mp hth
    · exact h.clean th hth
    · rw [List.mem_singleton.mp hth]
      exact hc
  · intro n
    rw [hu]
    exact h.single n
  · intro n
    rw [hu, passedOn_spawn hT]
    exact h.order n

theorem ordered_setRedis (h : Ordered w) {r : Link} (hr : r.messageHandler = true)
    (ha : arrivals r = arrivals (w.node n).redis) : Ordered (w.setRedis n r) := by
  refine ⟨?_, h.clean, h.single, ?_⟩
  · intro k
    rw [node_setRedis]
    split
    · exact hr
    · exact h.handler k
  · intro k
    rw [node_setRedis]
    split
    · rename_i hk
      subst hk
      rw [ha]
      exact h.order k
    · exact h.order k

theorem ordered_dispatch (hT : Traced E w) (h : Ordered w) (hidle : w.dispatching n = false) {r : Link}
    (hr : r.messageHandler = true) {c s : String} {i : Nat} (hrep : (w.node n).redis.replies = .message c s i :: r.replies) :
    Ordered ((w.setRedis n r).spawn (.subscribed n (leadingInt c) (cstring s) i)) := by
  have hT' : Traced E (w.setRedis n r) := ⟨hT.trace, hT.known⟩
  have hu (k : N) : undone k ((w.setRedis n r).spawn (.subscribed n (leadingInt c) (cstring s) i)) =
      undone k w ++ if n = k then [(some (leadingInt c), cstring s, i)] else [] := by
    rw [undone_spawn]
    change undone k w ++ (handling k (.subscribed n (leadingInt c) (cstring s) i)).toList = _
    rw [handling]
    split <;> rfl
  refine ⟨?_, ?_, ?_, ?_⟩
  · intro k
    change ((w.setRedis n r).node k).redis.messageHandler = true
    rw [node_setRedis]
    split
    · exact hr
    · exact h.handler k
  · intro th hth p hp
    obtain hth | hth := List.mem_append.mp hth
    · exact h.clean th hth p hp
    · rw [List.mem_singleton.mp hth] at hp
      cases hp
      exact not_mem_cstring s
  · intro k
    rw [hu]
    split
    · rename_i hk
      rw [← hk, undone_of_idle hidle]
      exact Nat.le_refl 1
    · rw [List.append_nil]
      exact h.single k
  · intro k
    have ho := h.order k
    rw [hu, passedOn_spawn hT']
    change (passedOn k w ++ _ ++ arrivals ((w.setRedis n r).node k).redis).Sublist (publications w)
    rw [node_setRedis]
    by_cases hk : n = k
    · subst hk
      rw [undone_of_idle hidle] at ho ⊢
      rw [if_pos rfl, if_pos rfl, List.nil_append, List.append_assoc]
      rw [List.append_nil, arrivals, hrep] at ho
      exact ho
    · rw [if_neg hk, if_neg (Ne.symm hk), List.append_nil]
      exact ho

theorem listen_idle {l : Listen} (h : w.listen n l = some w') (ht : w'.threads ≠ w.threads) : w.dispatching n = false := by
  cases l with
  | serve =>
    obtain ⟨r, _, rfl⟩ := Option.map_eq_some_iff.mp h
    exact absurd rfl ht
  | _ =>
    simp only [World.listen] at h
    split at h
    · cases h
    · rename_i hd
      exact Bool.not_eq_true _ ▸ hd

theorem ordered_listen (hT : Traced E w) (h : Ordered w) {l : Listen} (hl : w.listen n l = some w') : Ordered w' := by
  obtain ⟨r, hr, ⟨rfl, hm⟩ | ⟨c, s, i, hrep, rfl⟩⟩ := listen_messages (h.handler n) hl
  · exact ordered_setRedis h hr (by rw [arrivals_eq, arrivals_eq, hm])
  · refine ordered_dispatch hT h (listen_idle hl ?_) hr hrep
    intro ht
    exact absurd (congrArg List.length ht) (by simp [World.spawn, World.setRedis])

theorem passedOn_advance (hT : Traced E w) {tid : Nat} {th : Thread N} (hth : w.threads[tid]? = some th) (k : N) :
    passedOn k (w.advance E tid th e pc) =
      passedOn k w ++ (handled k (w.advance E tid th e pc) (tid, e)).toList := by
  have hold : w.log.filterMap (handled k (w.advance E tid th e pc)) = passedOn k w := by
    refine List.filterMap_congr fun x hx => handled_of_extends hT hx ?_ ?_
    · rw [threads_advance]
      by_cases hi : tid = x.1
      · rw [← hi, List.getElem?_set_self (List.getElem?_eq_some_iff.mp hth).1, hth]
        rfl
      · rw [List.getElem?_set_ne hi]
    · rw [history_advance]
      split
      · exact List.prefix_append _ _
      · exact List.prefix_refl _
  rw [passedOn, log_advance, List.filterMap_append, hold]
  congr 1

theorem advance_undone (hT : Traced E w) (h : Ordered w) {tid : Nat} {th : Thread N} (hth : w.threads[tid]? = some th)
    (hn : th.pc.next E th.task.node pick w = some (e, pc)) (k : N) :
    passedOn k (w.advance E tid th e pc) ++ undone k (w.advance E tid th e pc) = passedOn k w ++ undone k w ∧
      (undone k (w.advance E tid th e pc)).length ≤ 1 := by
  have hget : (w.advance E tid th e pc).threads[tid]? = some { th with pc := pc } := by
    rw [threads_advance, List.getElem?_set_self (List.getElem?_eq_some_iff.mp hth).1]
  have hopen : th.pc.isDone = false := by
    cases hd : th.pc.isDone with
    | false => rfl
    | true =>
      rw [isDone_iff.mp hd] at hn
      cases hn
  have hsame (hm : handled k (w.advance E tid th e pc) (tid, e) = none)
      (hf : handling k th.task = none ∨ pc.isDone = false) :
      passedOn k (w.advance E tid th e pc) ++ undone k (w.advance E tid th e pc) = passedOn k w ++ undone k w ∧
        (undone k (w.advance E tid th e pc)).length ≤ 1 := by
    have hu : undone k (w.advance E tid th e pc) = undone k w := by
      refine filterMap_set_eq hth ?_
      rw [unfinished, unfinished, hopen]
      obtain hf | hf := hf
      · rw [hf, ite_self, ite_self]
      · rw [hf]
    rw [passedOn_advance hT hth, hm, hu, Option.toList_none, List.append_nil]
    exact ⟨rfl, h.single k⟩
  cases hk : handling k th.task with
  | none =>
    refine hsame ?_ (Or.inl hk)
    cases e <;> simp only [handled, hget, Option.bind_some, hk, Option.map_none]
  | some m =>
    obtain ⟨u, msg, call, hq, rfl⟩ := handling_eq_some hk
    have hs := subscribed_trace (hq ▸ hT.trace tid th hth)
    obtain ⟨⟨found, rfl⟩, hpc⟩ | ⟨he, rfl⟩ := hs.next hn
    · exact hsame rfl (Or.inr hpc)
    · have hm : handled k (w.advance E tid th e .done) (tid, e) = some (some u, msg, call) := by
        obtain rfl | ⟨conn, rfl, hpc⟩ := he
        · simp only [handled, hget, Option.bind_some, hk, Option.map_some]
        · simp only [handled, hget, Option.bind_some, hk, Option.map_some, history_advance, if_pos,
            foundFor_append (hs.foundFor (Or.inr hpc))]
      have hx : unfinished k th = some (some u, msg, call) := by
        rw [unfinished, hopen]
        exact hk
      have hy : unfinished k { th with pc := .done } = none := rfl
      obtain ⟨hone, hset⟩ := filterMap_set_none hth hx hy (h.single k)
      have hset : undone k (w.advance E tid th e .done) = [] := hset
      rw [passedOn_advance hT hth, hm, hset, undone, hone, List.append_nil]
      exact ⟨rfl, Nat.zero_le 1⟩

theorem clean_publish (hT : Traced E w) (h : Ordered w) {tid : Nat} {th : Thread N} (hth : w.threads[tid]? = some th)
    (hn : th.pc.next E th.task.node pick w = some (e, pc)) (t : Int) (p : String) (he : e = .publish t p) :
    '\x00' ∉ p.toList := by
  subst he
  obtain ⟨hpc, _⟩ := next_publish hn
  exact h.clean th (List.mem_of_getElem? hth) p (trace_delivering (hT.trace tid th hth) (by rw [hpc]; rfl))

theorem ordered_advance (hT : Traced E w) (h : Ordered w) {tid : Nat} {th : Thread N} (hth : w.threads[tid]? = some th)
    (hn : th.pc.next E th.task.node pick w = some (e, pc)) : Ordered (w.advance E tid th e pc) where
  handler := by
    intro k
    rw [node_advance]
    exact (messages_onRedis tid _ _ e).1.trans (h.handler k)
  clean := by
    intro th' hth' p hp
    obtain ⟨th₀, hth₀, htask⟩ := (task_advance hth).mp ⟨th', hth', rfl⟩
    rw [← htask] at hp
    exact h.clean th₀ hth₀ p hp
  single k := (advance_undone hT h hth hn k).2
  order := by
    intro k
    have hc := clean_publish hT h hth hn
    have hp : publications (w.advance E tid th e pc) = publications w ++ (publication (tid, e)).toList := by
      rw [publications, log_advance, List.filterMap_append]
      congr 1
    rw [(advance_undone hT h hth hn k).1, hp]
    rw [node_advance, Effect.onNode, arrivals_onRedis _ _ _ hc, ← List.append_assoc]
    exact (h.order k).append (received_sublist tid _ e)

theorem ordered_step (hT : Traced E w) (h : Ordered w) {a : Action N} (hs : step E w a = some w') : Ordered w' := by
  cases a with
  | start task =>
    simp only [step] at hs
    split at hs
    · cases hs
    · rename_i hsub
      cases hs
      refine ordered_spawn hT h (Bool.not_eq_true _ ▸ hsub) fun p hp => ?_
      cases task with
      | frame conn js | deliver node t js =>
        cases hp
        exact Json.nul_not_mem_dump js
      | subscribed => exact absurd rfl hsub
      | _ => cases hp
  | run tid pick =>
    obtain ⟨th, hth, hs⟩ := Option.bind_eq_some_iff.mp hs
    obtain ⟨⟨e, pc⟩, hn, rfl⟩ := Option.map_eq_some_iff.mp hs
    exact ordered_advance hT h hth hn
  | listen n l => exact ordered_listen hT h hs

theorem ordered_run {w₀ : World N} (h₀ : w₀.Fresh) {as : List (Action N)} (hr : (cluster N E).run w₀ as = some w) :
    Traced E w ∧ Ordered w :=
  Machine.run_invariant (I := fun w => Traced E w ∧ Ordered w) ⟨traced_fresh h₀, ordered_fresh h₀⟩
    (fun _ _ _ hi _ hs => ⟨hi.1.step hs, ordered_step hi.1 hi.2 hs⟩) (Machine.meets_true w₀ as) hr

/-- What a node passes on of the published messages are publications, each at
most once and in the order of publication. -/
theorem published_in_order (w₀ w : World N) (h₀ : w₀.Fresh) (as : List (Action N))
    (hr : (cluster N E).run w₀ as = some w) (n : N) : (passedOn n w).Sublist (publications w) := by
  obtain ⟨_, h⟩ := ordered_run h₀ hr
  refine List.Sublist.trans ?_ (h.order n)
  rw [List.append_assoc]
  exact List.sublist_append_left _ _

open Sample

theorem run_across : ∃ w, (cluster Bool engine).run world acrossNodes = some w ∧
    passedOn true w = [(some 1, (chatFrame 2 1 "hello").dump, 1)] := by
  have h : ((cluster Bool engine).run world acrossNodes).map (passedOn true) =
      some [(some 1, (chatFrame 2 1 "hello").dump, 1)] := by decide +kernel
  exact Option.map_eq_some_iff.mp h

theorem published_in_order_across : ∃ w, (cluster Bool engine).run world acrossNodes = some w ∧
    [(some 1, (chatFrame 2 1 "hello").dump, 1)].Sublist (publications w) := by
  obtain ⟨w, hw, hp⟩ := run_across
  exact ⟨w, hw, hp ▸ published_in_order world w ⟨rfl, rfl, fun _ => rfl⟩ acrossNodes hw true⟩

end BridgeIM.Server.CrossNode
