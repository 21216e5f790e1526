import BridgeIM.Server.Collect

namespace BridgeIM.Server.Delivery

open CString Db Lib Model Redis Collect

variable {N : Type} [DecidableEq N] {E : Engine} {same : String → String → Bool}

def text : Task N → Option String
  | .frame _ js | .deliver _ _ js => some js.dump
  | .subscribed _ _ msg _ => some msg
  | _ => none

/-- The call of thread `tid` has returned, what it published has been handled
by every node, and no login of the target is about to send offline messages
that it has deleted. -/
structure Settled (w : World N) (tid : Nat) (t : Int) : Prop where
  returned : ∀ th ∈ w.threads[tid]?, th.pc = .done
  received : ∀ n c text, .message c text tid ∉ (w.node n).redis.replies
  handled : ∀ th ∈ w.threads, ∀ n u msg, th.task = .subscribed n u msg tid → th.pc = .done
  answered : ∀ th ∈ w.threads, ∀ l ∈ answering th.pc, l.user.id ≠ t

/-- The message has been sent on a connection of the user, as a frame or among
the offline messages of a login, or it is stored for him. -/
def Delivered (w : World N) (t : Int) (p : String) : Prop :=
  (∃ tid conn, (tid, .findConn t (some conn)) ∈ w.log ∧ (tid, .sendPayload conn p) ∈ w.log) ∨
  (∃ tid, ∃ l : Login N, ∃ msgs, l.user.id = t ∧ p ∈ msgs ∧
    (loginAck l).get? "offlinemsg" = some (.strs msgs) ∧ (tid, .sendJson l.conn (loginAck l)) ∈ w.log) ∨
  p ∈ OfflineMsgModel.messages t w.offline

/-- No `deliverMessage` call loses its message, and no handling of a published
message does. -/
def Lossless (w : World N) : Prop :=
  ∀ tid th t found p, w.threads[tid]? = some th → text th.task = some p →
    (tid, .findConn t found) ∈ w.log → Settled w tid t → Delivered w t p

/-- What a thread may do at a given point: publish to a channel that a node is
subscribed to, and store what the table can hold. -/
def Heard (w : World N) : Pc N → Prop
  | .publish t _ => ∃ n, decimal t ∈ (w.node n).redis.subscriptions
  | .insertOffline u p => IsInt u ∧ OfflineMsgModel.Storable p
  | _ => True

/-- Every message is published to a subscriber or can be stored, and none is
stored while its user's login stands between reading and deleting. -/
def Guarded (w : World N) (a : Action N) : Prop :=
  Apart w a ∧ match a with
    | .run tid _ => ∀ th ∈ w.threads[tid]?, Heard w th.pc
    | _ => True

variable {n : N} {pick : Option Int} {w w' : World N} {pc pc' : Pc N}

def delivering : Pc N → Option String
  | .isFriend _ _ _ p | .findConn _ p | .queryState _ p | .publish _ p | .findSubscribed _ p |
    .insertOffline _ p | .sendPayload _ p => some p
  | _ => none

theorem next_delivering {e : Effect N} {p : String} (h : pc.next E n pick w = some (e, pc'))
    (hp : delivering pc' = some p) : delivering pc = some p := by
  cases pc with
  | scanConn c =>
    obtain ⟨u, _, _, rfl⟩ | ⟨_, _, rfl⟩ := next_scan h
    · split at hp <;> cases hp
    · cases hp
  | _ => grind [Pc.next, delivering, checkLogin, nextGroup.eq_def, Option.elim.eq_def]

omit [DecidableEq N] in
theorem delivering_getHandler {msgid : Int} {conn : Conn N} {js : Json} {p : String}
    (h : delivering (getHandler msgid conn js) = some p) : js.dump = p := by
  unfold getHandler at h
  split at h
  · unfold login at h
    split at h <;> cases h
  split at h
  · unfold loginout at h
    split at h <;> cases h
  split at h
  · unfold reg at h
    split at h <;> cases h
  split at h
  · unfold oneChat at h
    split at h <;> cases h
    rfl
  · cases h

omit [DecidableEq N] in
theorem delivering_start {task : Task N} {p : String} (h : delivering task.start = some p) :
    text task = some p := by
  cases task with
  | frame conn js =>
    rw [Task.start] at h
    split at h
    · exact congrArg some (delivering_getHandler h)
    · cases h
  | deliver | subscribed => exact h
  | _ => cases h

theorem trace_delivering {task : Task N} {h : List (Effect N)} (ht : Trace E task h pc) {p : String}
    (hp : delivering pc = some p) : text task = some p := by
  induction ht with
  | start => exact delivering_start hp
  | step w pick _ hn ih => exact ih (next_delivering hn hp)

def After (h : List (Effect N)) (t : Int) (p : String) (pc : Pc N) : Option (Conn N) → Prop
  | some conn => pc = .sendPayload conn p ∨ .sendPayload conn p ∈ h
  | none => pc = .queryState t p ∨ pc = .publish t p ∨ pc = .insertOffline t p ∨
      .publish t p ∈ h ∨ .insertOffline t p ∈ h

theorem after_step {h : List (Effect N)} {t : Int} {p : String} {found : Option (Conn N)} {e : Effect N}
    (ha : After h t p pc found) (hn : pc.next E n pick w = some (e, pc')) : After (h ++ [e]) t p pc' found := by
  cases found with
  | some conn =>
    obtain rfl | hs := ha
    · cases hn
      exact Or.inr (by simp)
    · exact Or.inr (List.mem_append_left _ hs)
  | none =>
    obtain rfl | rfl | rfl | hp | hi := ha
    · simp only [Pc.next, Option.some.injEq, Prod.mk.injEq] at hn
      obtain ⟨_, rfl⟩ := hn
      split
      · exact Or.inr (Or.inl rfl)
      · exact Or.inr (Or.inr (Or.inl rfl))
    · cases hn
      exact Or.inr (Or.inr (Or.inr (Or.inl (by simp))))
    · cases hn
      exact Or.inr (Or.inr (Or.inr (Or.inr (by simp))))
    · exact Or.inr (Or.inr (Or.inr (Or.inl (List.mem_append_left _ hp))))
    · exact Or.inr (Or.inr (Or.inr (Or.inr (List.mem_append_left _ hi))))

theorem trace_findConn {task : Task N} {h : List (Effect N)} (ht : Trace E task h pc) {t : Int} {p : String}
    {found : Option (Conn N)} (hp : text task = some p) (hf : .findConn t found ∈ h) :
    After h t p pc found := by
  induction ht with
  | start => cases hf
  | @step h pc pc' e w pick ht hn ih =>
    rw [List.mem_append, List.mem_singleton] at hf
    obtain hf | rfl := hf
    · exact after_step (ih hf) hn
    · obtain ⟨_, ⟨q, rfl, rfl⟩ | ⟨q, rfl, rfl⟩⟩ := next_findConn hn
      · have hq : q = p := by
          have hq := trace_delivering (p := q) ht rfl
          rw [hp] at hq
          exact (Option.some.inj hq).symm
        subst hq
        cases found with
        | some conn => exact Or.inl rfl
        | none => exact Or.inl rfl
      · have hq : q = p := by
          have hq := trace_delivering (p := q) ht rfl
          rw [hp] at hq
          exact (Option.some.inj hq).symm
        subst hq
        cases found with
        | some conn => exact Or.inl rfl
        | none => exact Or.inr (Or.inr (Or.inl rfl))

/-- The handling of a published message ends with a send or with a store. -/
theorem trace_subscribed {h : List (Effect N)} {u : Int} {msg : String} {call : Nat}
    (ht : Trace E (.subscribed n u msg call) h pc) :
    pc = .findSubscribed u msg ∨ pc = .insertOffline u msg ∨ .insertOffline u msg ∈ h ∨
      ∃ conn, .findConn u (some conn) ∈ h ∧ (pc = .sendPayload conn msg ∨ .sendPayload conn msg ∈ h) := by
  induction ht with
  | start => exact Or.inl rfl
  | @step h pc pc' e w pick ht hn ih =>
    obtain rfl | rfl | hi | ⟨conn, hf, rfl | hs⟩ := ih
    · simp only [Pc.next, Option.some.injEq, Prod.mk.injEq] at hn
      obtain ⟨rfl, rfl⟩ := hn
      cases hl : (w.node n).userConnMap.lookup u with
      | none => exact Or.inr (Or.inl (by rw [Task.node, hl]; rfl))
      | some conn =>
        refine Or.inr (Or.inr (Or.inr ⟨conn, ?_, Or.inl ?_⟩))
        · rw [Task.node, hl]
          exact List.mem_append_right _ (List.mem_singleton_self _)
        · rw [Task.node, hl]
          rfl
    · cases hn
      exact Or.inr (Or.inr (Or.inl (by simp)))
    · exact Or.inr (Or.inr (Or.inl (List.mem_append_left _ hi)))
    · cases hn
      exact Or.inr (Or.inr (Or.inr ⟨conn, List.mem_append_left _ hf, Or.inr (by simp)⟩))
    · exact Or.inr (Or.inr (Or.inr ⟨conn, List.mem_append_left _ hf, Or.inr (List.mem_append_left _ hs)⟩))

def messages (l : Link) : List Pushed :=
  l.replies.filter fun
    | .message .. => true
    | .confirm _ => false

theorem mem_messages {l : Link} {c s : String} {i : Nat} : .message c s i ∈ messages l ↔ .message c s i ∈ l.replies := by
  rw [messages, List.mem_filter]
  exact and_iff_left rfl

theorem listen_messages {l : Listen} (hh : (w.node n).redis.messageHandler = true)
    (h : w.listen n l = some w') : ∃ r : Link, r.messageHandler = true ∧
      ((w' = w.setRedis n r ∧ messages r = messages (w.node n).redis) ∨
        ∃ c s i, (w.node n).redis.replies = .message c s i :: r.replies ∧
          w' = (w.setRedis n r).spawn (.subscribed n (leadingInt c) (cstring s) i)) := by
  cases l with
  | serve =>
    obtain ⟨r, hr, rfl⟩ := Option.map_eq_some_iff.mp h
    unfold Link.serve at hr
    split at hr
    · cases hr
    · cases hr
      refine ⟨_, ?_, Or.inl ⟨rfl, ?_⟩⟩
      · exact hh
      · exact (List.filter_append _ _).trans (List.append_nil _)
  | swapCommands =>
    simp only [World.listen] at h
    split at h
    · cases h
    · obtain ⟨r, hr, rfl⟩ := Option.map_eq_some_iff.mp h
      unfold Link.swapCommands at hr
      split at hr
      · cases hr
        refine ⟨_, ?_, Or.inl ⟨rfl, rfl⟩⟩
        exact hh
      · cases hr
  | nextCommand =>
    simp only [World.listen] at h
    split at h
    · cases h
    · obtain ⟨r, hr, rfl⟩ := Option.map_eq_some_iff.mp h
      unfold Link.nextCommand at hr
      split at hr
      · cases hr
      · rename_i command rest _
        obtain rfl := Option.some.inj hr
        have hk : ∀ k : Link, (Link.handleCommand command k).messageHandler = k.messageHandler ∧
            (Link.handleCommand command k).replies = k.replies := by
          intro k
          unfold Link.handleCommand Link.sendSubscribeCommand
          split
          · split <;> exact ⟨rfl, rfl⟩
          · exact ⟨rfl, rfl⟩
          · exact ⟨rfl, rfl⟩
        refine ⟨_, ?_, Or.inl ⟨rfl, ?_⟩⟩
        · rw [(hk _).1]
          exact hh
        · rw [messages, (hk _).2]
          rfl
  | nextReply =>
    simp only [World.listen] at h
    split at h
    · cases h
    · obtain ⟨⟨r, message⟩, hr, h⟩ := Option.map_eq_some_iff.mp h
      unfold Link.nextReply at hr
      split at hr
      · cases hr
      · rename_i q rest hrep
        cases q with
        | confirm req =>
          simp only [handleRedisReply_confirm, Option.map_none, Option.some.injEq, Prod.mk.injEq] at hr
          obtain ⟨rfl, rfl⟩ := hr
          refine ⟨_, ?_, Or.inl ⟨h.symm, ?_⟩⟩
          · exact hh
          · rw [messages, messages, hrep]
            rfl
        | message c s i =>
          simp only [hh, handleRedisReply_message, Option.map_some, Option.some.injEq, Prod.mk.injEq] at hr
          obtain ⟨rfl, rfl⟩ := hr
          refine ⟨_, ?_, Or.inr ⟨c, s, i, hrep, h.symm⟩⟩
          rfl

omit [DecidableEq N] in
theorem messages_onRedis (tid : Nat) (own : Bool) (l : Link) (e : Effect N) :
    (e.onRedis tid own l).messageHandler = l.messageHandler ∧
      ∀ c s i, .message c s i ∈ l.replies → .message c s i ∈ (e.onRedis tid own l).replies := by
  cases e with
  | publish channel message =>
    simp only [Effect.onRedis, Link.push]
    split
    · exact ⟨rfl, fun c s i hm => List.mem_append_left _ hm⟩
    · exact ⟨rfl, fun c s i hm => hm⟩
  | subscribe u =>
    simp only [Effect.onRedis, Link.subscribe]
    split
    · split <;> exact ⟨rfl, fun c s i hm => hm⟩
    · exact ⟨rfl, fun c s i hm => hm⟩
  | unsubscribe u =>
    simp only [Effect.onRedis, Link.unsubscribe]
    split
    · split <;> exact ⟨rfl, fun c s i hm => hm⟩
    · exact ⟨rfl, fun c s i hm => hm⟩
  | _ => exact ⟨rfl, fun c s i hm => hm⟩

def Received (w : World N) (tid : Nat) (t : Int) (p : String) : Prop :=
  (∃ n, .message (decimal t) (cstring p) tid ∈ (w.node n).redis.replies) ∨
    ∃ n, ∃ th ∈ w.threads, Thread.task th = .subscribed n t (cstring p) tid

def Kept (w : World N) (t : Int) (p : String) : Prop :=
  p ∈ OfflineMsgModel.messages t w.offline ∨ ∃ tid rows, (tid, .removeOffline t rows) ∈ w.log ∧ p ∈ rows

structure Inv (w : World N) : Prop where
  handler : ∀ n, (w.node n).redis.messageHandler = true
  clean : ∀ th ∈ w.threads, ∀ p, text th.task = some p → '\x00' ∉ p.toList
  published : ∀ tid t p, (tid, .publish t p) ∈ w.log → Received w tid t p
  stored : ∀ tid t p, (tid, .insertOffline t p) ∈ w.log → Kept w t p

omit [DecidableEq N] in
theorem inv_fresh (h : w.Fresh) : Inv w where
  handler := by
    intro n
    rw [h.node]
  clean := by
    intro th ht
    rw [h.threads] at ht
    cases ht
  published := by
    intro tid t p hp
    rw [h.log] at hp
    cases hp
  stored := by
    intro tid t p hp
    rw [h.log] at hp
    cases hp

omit [DecidableEq N] in
theorem inv_spawn (h : Inv w) {task : Task N} (hc : ∀ p, text task = some p → '\x00' ∉ p.toList) :
    Inv (w.spawn task) where
  handler := h.handler
  clean := by
    intro th ht
    obtain ht | ht := List.mem_append.mp ht
    · exact h.clean th ht
    · rw [List.mem_singleton.mp ht]
      exact hc
  published := by
    intro tid t p hp
    obtain hm | ⟨n, th, ht, htask⟩ := h.published tid t p hp
    · exact Or.inl hm
    · exact Or.inr ⟨n, th, List.mem_append_left _ ht, htask⟩
  stored := h.stored

theorem node_setRedis (w : World N) (n k : N) (r : Link) :
    ((w.setRedis n r).node k).redis = if k = n then r else (w.node k).redis := by
  by_cases hk : k = n
  · subst hk
    simp [World.setRedis]
  · simp [World.setRedis, hk]

theorem inv_listen (h : Inv w) {l : Listen} (hl : w.listen n l = some w') : Inv w' := by
  obtain ⟨r, hr, ⟨rfl, hmsgs⟩ | ⟨c, s, i, hrep, rfl⟩⟩ := listen_messages (h.handler n) hl
  · refine ⟨?_, h.clean, ?_, h.stored⟩
    · intro k
      rw [node_setRedis]
      split
      · exact hr
      · exact h.handler k
    · intro tid t p hp
      obtain ⟨k, hm⟩ | hth := h.published tid t p hp
      · refine Or.inl ⟨k, ?_⟩
        rw [node_setRedis]
        split
        · rename_i hk
          subst hk
          rwa [← mem_messages, hmsgs, mem_messages]
        · exact hm
      · exact Or.inr hth
  · refine ⟨?_, ?_, ?_, h.stored⟩
    · intro k
      change ((w.setRedis n r).node k).redis.messageHandler = true
      rw [node_setRedis]
      split
      · exact hr
      · exact h.handler k
    · intro th ht p hp
      obtain ht | ht := List.mem_append.mp ht
      · exact h.clean th ht p hp
      · rw [List.mem_singleton.mp ht] at hp
        cases hp
        exact not_mem_cstring s
    · intro tid t p hp
      obtain ⟨k, hm⟩ | ⟨k, th, ht, htask⟩ := h.published tid t p hp
      · by_cases hk : k = n
        · subst hk
          rw [hrep] at hm
          obtain hm | hm := List.mem_cons.mp hm
          · cases hm
            refine Or.inr ⟨k, _, List.mem_append_right _ (List.mem_singleton_self _), ?_⟩
            rw [leadingInt_decimal, cstring_idem]
          · refine Or.inl ⟨k, ?_⟩
            change _ ∈ ((w.setRedis k r).node k).redis.replies
            rw [node_setRedis, if_pos rfl]
            exact hm
        · refine Or.inl ⟨k, ?_⟩
          change _ ∈ ((w.setRedis n r).node k).redis.replies
          rw [node_setRedis, if_neg hk]
          exact hm
      · exact Or.inr ⟨k, th, List.mem_append_left _ ht, htask⟩

section Advance

variable {tid : Nat} {th : Thread N} {e : Effect N}

theorem task_advance (hth : w.threads[tid]? = some th) {task : Task N} :
    (∃ th' ∈ (w.advance E tid th e pc).threads, Thread.task th' = task) ↔ ∃ th' ∈ w.threads, Thread.task th' = task := by
  have hmap : (w.advance E tid th e pc).threads.map Thread.task = w.threads.map Thread.task := by
    rw [threads_advance, List.map_set]
    have ht : (w.threads.map Thread.task)[tid]? = some th.task := by rw [List.getElem?_map, hth]; rfl
    obtain ⟨hlt, ht⟩ := List.getElem?_eq_some_iff.mp ht
    rw [← ht]
    exact List.set_getElem_self hlt
  simp only [← List.mem_map, hmap]

theorem received_advance (hth : w.threads[tid]? = some th) {i : Nat} {t : Int} {p : String}
    (h : Received w i t p) : Received (w.advance E tid th e pc) i t p := by
  obtain ⟨n, hm⟩ | ⟨n, ht⟩ := h
  · exact Or.inl ⟨n, (messages_onRedis tid _ _ e).2 _ _ _ hm⟩
  · exact Or.inr ⟨n, (task_advance hth).mpr ht⟩

theorem received_publish {t : Int} {p : String} (hn : ∃ n, decimal t ∈ (w.node n).redis.subscriptions) :
    Received (w.advance E tid th (.publish t p) pc) tid t p := by
  obtain ⟨n, hn⟩ := hn
  refine Or.inl ⟨n, ?_⟩
  rw [node_advance]
  simp only [Effect.onNode, Effect.onRedis, Link.push, if_pos hn]
  exact List.mem_append_right _ (List.mem_singleton_self _)

theorem kept_advance (hE : E.Rules same) (hT : Traced E w) (h : Inv w) (hth : w.threads[tid]? = some th)
    (hok : Heard w th.pc) (hn : th.pc.next E th.task.node pick w = some (e, pc)) {t : Int} {p : String}
    (hk : Kept w t p) : Kept (w.advance E tid th e pc) t p := by
  obtain hm | ⟨i, rows, hr, hp⟩ := hk
  · cases e with
    | insertOffline u q =>
      obtain ⟨hpc, _⟩ := next_insertOffline hn
      rw [hpc] at hok
      have hq := h.clean th (List.mem_of_getElem? hth) q (trace_delivering (hT.trace tid th hth) (by rw [hpc]; rfl))
      refine Or.inl ?_
      rw [offline_advance, Effect.onOffline, OfflineMsgModel.insert_storable hE.offline hok.1 hq hok.2,
        OfflineMsgModel.messages_append]
      exact List.mem_append_left _ hm
    | removeOffline u rows =>
      obtain ⟨l, _, _, hrows, _⟩ := next_removeOffline hn
      by_cases hu : u = t
      · subst hu
        exact Or.inr ⟨tid, rows, by simp, hrows ▸ hm⟩
      · refine Or.inl ?_
        rw [offline_advance, Effect.onOffline, OfflineMsgModel.remove_eq hE.offline]
        obtain ⟨r, hr, rfl⟩ := List.mem_map.mp hm
        obtain ⟨hr, hrt⟩ := List.mem_filter.mp hr
        refine List.mem_map.mpr ⟨r, List.mem_filter.mpr ⟨List.mem_filter.mpr ⟨hr, ?_⟩, hrt⟩, rfl⟩
        have hrt : r.1 = t := by simpa using hrt
        simp [hrt, Ne.symm hu]
    | _ => exact Or.inl hm
  · exact Or.inr ⟨i, rows, List.mem_append_left _ hr, hp⟩

theorem kept_insertOffline (hE : E.Rules same) {t : Int} {p : String} (hp : '\x00' ∉ p.toList)
    (hok : IsInt t ∧ OfflineMsgModel.Storable p) : Kept (w.advance E tid th (.insertOffline t p) pc) t p := by
  refine Or.inl ?_
  rw [offline_advance, Effect.onOffline, OfflineMsgModel.insert_storable hE.offline hok.1 hp hok.2,
    OfflineMsgModel.messages_append]
  exact List.mem_append_right _ (by simp [OfflineMsgModel.messages])

theorem inv_advance (hE : E.Rules same) (hT : Traced E w) (h : Inv w) (hth : w.threads[tid]? = some th)
    (hok : Heard w th.pc) (hn : th.pc.next E th.task.node pick w = some (e, pc)) :
    Inv (w.advance E tid th e pc) where
  handler := by
    intro n
    rw [node_advance]
    exact (messages_onRedis tid _ _ e).1.trans (h.handler n)
  clean := by
    intro th' ht p hp
    obtain ⟨th₀, ht₀, htask⟩ := (task_advance hth).mp ⟨th', ht, rfl⟩
    rw [← htask] at hp
    exact h.clean th₀ ht₀ p hp
  published := by
    intro i t p hp
    rw [log_advance, List.mem_append, List.mem_singleton] at hp
    obtain hp | hp := hp
    · exact received_advance hth (h.published i t p hp)
    · cases hp
      obtain ⟨hpc, _⟩ := next_publish hn
      rw [hpc] at hok
      exact received_publish hok
  stored := by
    intro i t p hp
    rw [log_advance, List.mem_append, List.mem_singleton] at hp
    obtain hp | hp := hp
    · exact kept_advance hE hT h hth hok hn (h.stored i t p hp)
    · cases hp
      obtain ⟨hpc, _⟩ := next_insertOffline hn
      rw [hpc] at hok
      have hq := h.clean th (List.mem_of_getElem? hth) p (trace_delivering (hT.trace _ th hth) (by rw [hpc]; rfl))
      exact kept_insertOffline hE hq hok

end Advance

theorem inv_step (hE : E.Rules same) (hT : Traced E w) (h : Inv w) {a : Action N} (hok : Guarded w a)
    (hs : step E w a = some w') : Inv w' := by
  cases a with
  | start task =>
    simp only [step] at hs
    split at hs
    · cases hs
    · rename_i hsub
      cases hs
      refine inv_spawn h fun p hp => ?_
      cases task with
      | frame conn js | deliver node t js =>
        cases hp
        exact Json.nul_not_mem_dump js
      | subscribed => exact absurd rfl hsub
      | _ => cases hp
  | run tid pick =>
    obtain ⟨th, hth, hs⟩ := Option.bind_eq_some_iff.mp hs
    obtain ⟨⟨e, pc⟩, hn, rfl⟩ := Option.map_eq_some_iff.mp hs
    exact inv_advance hE hT h hth (hok.2 th hth) hn
  | listen n l => exact inv_listen h hs

omit [DecidableEq N] in
theorem delivered_of_kept (hC : Collected w) {t : Int} {p : String} (hp : '\x00' ∉ p.toList)
    (ha : ∀ th ∈ w.threads, ∀ l ∈ answering th.pc, l.user.id ≠ t) (hk : Kept w t p) : Delivered w t p := by
  obtain hm | ⟨tid, rows, hr, hmem⟩ := hk
  · exact Or.inr (Or.inr hm)
  · obtain ⟨msgs, _, hs, l, rfl, hack, hsent | ⟨th, hth, hl⟩⟩ := hC tid t rows hr
    · have hin : p ∈ msgs := by
        rw [← cstring_of_not_mem hp]
        exact hs.subset (List.mem_map_of_mem hmem)
      exact Or.inr (Or.inl ⟨tid, l, msgs, rfl, hin, hack, hsent⟩)
    · exact absurd rfl (ha th (List.mem_of_getElem? hth) l hl)

theorem delivered_of_received (hT : Traced E w) (h : Inv w) (hC : Collected w) {tid : Nat} {t : Int} {p : String}
    (hp : '\x00' ∉ p.toList) (hset : Settled w tid t) (hr : Received w tid t p) : Delivered w t p := by
  rw [Received, cstring_of_not_mem hp] at hr
  obtain ⟨n, hm⟩ | ⟨n, th, hmem, htask⟩ := hr
  · exact absurd hm (hset.received n _ _)
  · obtain ⟨i, hi, hth⟩ := List.getElem_of_mem hmem
    have htr := hT.trace i th (List.getElem?_eq_some_iff.mpr ⟨hi, hth⟩)
    rw [htask, hset.handled th hmem n t p htask] at htr
    obtain hpc | hpc | hi | ⟨conn, hf, hpc | hs⟩ := trace_subscribed htr
    · cases hpc
    · cases hpc
    · exact delivered_of_kept hC hp hset.answered (h.stored i t p (mem_history.mp hi))
    · cases hpc
    · exact Or.inl ⟨i, conn, mem_history.mp hf, mem_history.mp hs⟩

theorem lossless_of_inv (hT : Traced E w) (h : Inv w) (hC : Collected w) : Lossless w := by
  intro tid th t found p hth htext hf hset
  have hp := h.clean th (List.mem_of_getElem? hth) p htext
  have ha := trace_findConn (hT.trace tid th hth) htext (mem_history.mpr hf)
  rw [hset.returned th hth] at ha
  cases found with
  | some conn =>
    obtain hpc | hs := ha
    · cases hpc
    · exact Or.inl ⟨tid, conn, hf, mem_history.mp hs⟩
  | none =>
    obtain hpc | hpc | hpc | hpub | hins := ha
    · cases hpc
    · cases hpc
    · cases hpc
    · exact delivered_of_received hT h hC hp hset (h.published tid t p (mem_history.mp hpub))
    · exact delivered_of_kept hC hp hset.answered (h.stored tid t p (mem_history.mp hins))

/-- No message is lost across logins and logouts. -/
theorem messages_delivered (hE : E.Rules same) (w₀ w : World N) (h₀ : w₀.Fresh) (as : List (Action N))
    (hm : (cluster N E).Meets Guarded w₀ as) (hr : (cluster N E).run w₀ as = some w) : Lossless w := by
  have h : Traced E w ∧ Collect.Inv w ∧ Inv w :=
    Machine.run_invariant (I := fun w => Traced E w ∧ Collect.Inv w ∧ Inv w)
      ⟨traced_fresh h₀, Collect.inv_fresh h₀, inv_fresh h₀⟩
      (fun _ _ _ hi hok hs => ⟨hi.1.step hs, Collect.inv_step hE hi.2.1 hok.1 hs, inv_step hE hi.1 hi.2.2 hok hs⟩)
      hm hr
  exact lossless_of_inv h.1 h.2.2 (collected_of_inv h.1 h.2.1)

instance decidableHeard [Fintype N] (w : World N) : ∀ pc : Pc N, Decidable (Heard w pc)
  | .publish t _ => inferInstanceAs (Decidable (∃ n, decimal t ∈ (w.node n).redis.subscriptions))
  | .insertOffline .. => inferInstanceAs (Decidable (_ ∧ _))
  | .queryName .. | .updateOnline _ | .insertConn _ | .subscribe _ | .queryOffline _ | .removeOffline _ |
    .queryFriends _ | .queryGroup _ | .queryMembers .. | .sendAck _ | .eraseConn _ | .unsubscribe _ |
    .updateOffline _ | .insertUser .. | .scanConn _ | .isFriend .. | .findConn .. | .queryState .. |
    .findSubscribed .. | .sendPayload .. | .sendJson .. | .resetState | .done => isTrue trivial

instance decidableGuarded [Fintype N] (w : World N) : ∀ a : Action N, Decidable (Guarded w a)
  | .run tid pick => inferInstanceAs (Decidable (Apart w (.run tid pick) ∧ ∀ th ∈ w.threads[tid]?, Heard w th.pc))
  | .start _ | .listen .. => isTrue ⟨trivial, trivial⟩

open Sample

def world : World Bool := { users := accounts, friends := [(2, 1)] }

def listenTrue : List (Action Bool) :=
  [.listen true .swapCommands, .listen true .nextCommand, .listen true .serve, .listen true .nextReply]

def acrossNodes : List (Action Bool) :=
  .start (.frame ⟨true, 0⟩ (loginFrame "alice" "a")) :: runs 0 8 ++ listenTrue ++
    .start (.frame ⟨false, 0⟩ (chatFrame 2 1 "hello")) :: runs 1 4 ++
      .listen true .nextReply :: runs 2 2

theorem messages_delivered_across : ∃ w, (cluster Bool engine).run world acrossNodes = some w ∧ Lossless w := by
  have h : ((cluster Bool engine).run world acrossNodes).isSome = true ∧
      (cluster Bool engine).Meets Guarded world acrossNodes := by decide +kernel
  obtain ⟨w, hw⟩ := Option.isSome_iff_exists.mp h.1
  exact ⟨w, hw, messages_delivered (Engine.strict_rules _) world w ⟨rfl, rfl, fun _ => rfl⟩ acrossNodes
    h.2 hw⟩

/-- bob's message is published after alice has been marked online and before
her node has subscribed. -/
def earlyPublish : List (Action Bool) :=
  .start (.frame ⟨true, 0⟩ (loginFrame "alice" "a")) :: runs 0 8 ++
    .start (.frame ⟨false, 0⟩ (chatFrame 2 1 "hello")) :: runs 1 4 ++ listenTrue

def silent [Fintype N] (w : World N) : Bool :=
  decide (∀ n, (w.node n).redis.replies = []) && w.offline.isEmpty && w.threads.all (fun th => th.pc.isDone) &&
    w.log.all fun
      | (_, .sendPayload ..) => false
      | (_, .sendJson _ js) => (js.get? "offlinemsg").isNone
      | _ => true

def missed (tid : Nat) (t : Int) (w : World N) : Bool :=
  w.log.any fun
    | (i, .findConn u none) => i = tid && u = t
    | _ => false

omit [DecidableEq N] in
theorem mem_of_missed {tid : Nat} {t : Int} (h : missed tid t w = true) : (tid, .findConn t none) ∈ w.log := by
  obtain ⟨x, hx, hm⟩ := List.any_eq_true.mp h
  split at hm
  · simp only [Bool.and_eq_true, decide_eq_true_eq] at hm
    obtain ⟨rfl, rfl⟩ := hm
    exact hx
  · cases hm

omit [DecidableEq N] in
theorem not_lossless_of_silent [Fintype N] {tid : Nat} {t : Int} (hs : silent w = true)
    (hm : missed tid t w = true) (htext : ((w.threads[tid]?).bind (fun th => text th.task)).isSome = true) :
    ¬ Lossless w := by
  intro hl
  simp only [silent, Bool.and_eq_true, decide_eq_true_eq, List.isEmpty_iff, List.all_eq_true] at hs
  obtain ⟨⟨⟨hreplies, hoffline⟩, hdone⟩, hlog⟩ := hs
  have hpc (th : Thread N) (hth : th ∈ w.threads) : th.pc = .done := isDone_iff.mp (hdone th hth)
  obtain ⟨p, hp⟩ := Option.isSome_iff_exists.mp htext
  obtain ⟨th, hth, hp⟩ := Option.bind_eq_some_iff.mp hp
  have hset : Settled w tid t := by
    refine ⟨fun th hth => hpc th (List.mem_of_getElem? hth), fun n c s => ?_, fun th hth n u msg _ => hpc th hth,
      fun th hth l hl => ?_⟩
    · rw [hreplies n]
      exact List.not_mem_nil
    · rw [hpc th hth] at hl
      cases hl
  obtain ⟨i, conn, _, hs⟩ | ⟨i, l, msgs, _, _, hack, hs⟩ | hs := hl tid th t none p hth hp (mem_of_missed hm) hset
  · exact absurd (hlog _ hs) Bool.false_ne_true
  · have h := hlog _ hs
    simp only [hack] at h
    cases h
  · rw [hoffline] at hs
    cases hs

theorem earlyPublish_loses : ¬ ∀ (E : Engine) (w₀ w : World Bool) (as : List (Action Bool)),
    E.Rules (fun a b => a = b) → w₀.Fresh → (cluster Bool E).run w₀ as = some w → Lossless w := by
  intro h
  have hu : ((cluster Bool engine).run world earlyPublish).map (fun w => silent w && missed 1 1 w &&
      ((w.threads[1]?).bind (fun th => text th.task)).isSome) = some true := by decide +kernel
  obtain ⟨w, hw, hlost⟩ := Option.map_eq_some_iff.mp hu
  simp only [Bool.and_eq_true] at hlost
  refine not_lossless_of_silent hlost.1.1 hlost.1.2 hlost.2 ?_
  exact h engine world w earlyPublish (Engine.strict_rules _) ⟨rfl, rfl, fun _ => rfl⟩ hw

end BridgeIM.Server.Delivery
