import BridgeIM.Server.Duplicates

namespace BridgeIM.Server.Settling

open CString Db Lib Model Redis Duplicates

variable {N : Type}

/-- How many steps a thread has before it at most, and what it sets going: `k`
bounds what a published message leads to, and `b` the groups of a user. -/
def ahead (k b : Nat) : Pc N → Nat
  | .done => 0
  | .sendPayload .. | .sendJson .. | .insertOffline .. | .resetState | .updateOffline _ | .sendAck _ => 1
  | .findSubscribed .. | .insertUser .. => 2
  | .publish .. => k + 1
  | .queryState .. => k + 2
  | .findConn .. => k + 3
  | .isFriend .. => k + 4
  | .unsubscribe _ => 6
  | .eraseConn _ | .scanConn _ => 7
  | .queryMembers _ _ todo => todo.length + 2
  | .queryGroup _ => b + 2
  | .queryFriends _ => b + 3
  | .removeOffline _ => b + 4
  | .queryOffline _ => b + 5
  | .subscribe _ => b + 10
  | .insertConn _ => b + 11
  | .updateOnline _ => b + 12
  | .queryName .. => b + 13

/-- A message makes the listener start a thread with two steps. -/
def toRead : Pushed → Nat
  | .confirm _ => 1
  | .message .. => 3

def toDo (l : Link) : Nat :=
  4 * l.commandQueue.length + 3 * l.pendingCommands.length + 2 * l.written.length + total toRead l.replies

variable [Fintype N]

def echo (N : Type) [Fintype N] : Nat := 3 * Fintype.card N

def memberships (w : World N) : Nat := w.groups.members.length * w.groups.groups.length

def rank (w : World N) : Nat :=
  total (fun th => ahead (echo N) (memberships w) th.pc) w.threads + ∑ n, toDo (w.node n).redis

/-- A step of what is going on already. Swapping an empty queue is none. -/
def Internal (w : World N) : Action N → Prop
  | .start _ => False
  | .run .. => True
  | .listen n .swapCommands => (w.node n).redis.commandQueue ≠ []
  | .listen .. => True

instance (w : World N) : ∀ a : Action N, Decidable (Internal w a)
  | .start _ => isFalse id
  | .run .. | .listen _ .nextCommand | .listen _ .serve | .listen _ .nextReply => isTrue trivial
  | .listen n .swapCommands => inferInstanceAs (Decidable ((w.node n).redis.commandQueue ≠ []))

/-- A step that the listener does not put off: it takes one reply for each read of
its socket, so that replies can wait until the next one comes. -/
def Prompt (a : Action N) : Prop := ∀ n, a ≠ .listen n .nextReply

/-- All handlers have ended, and no command and no request to Redis is on its way. -/
structure Quiet (w : World N) : Prop where
  threads : ∀ th ∈ w.threads, th.pc = .done
  commandQueue : ∀ n, (w.node n).redis.commandQueue = []
  pendingCommands : ∀ n, (w.node n).redis.pendingCommands = []
  written : ∀ n, (w.node n).redis.written = []

variable [DecidableEq N] {E : Engine} {n : N} {pick : Option Int} {w w' : World N} {pc pc' : Pc N} {e : Effect N}

def leaves (k : Nat) : Effect N → Nat
  | .subscribe _ | .unsubscribe _ => 4
  | .publish .. => k
  | _ => 0

omit [Fintype N] [DecidableEq N] in
theorem ahead_nextGroup (k b : Nat) (l : Login N) (todo : List GroupModel.Group) :
    ahead k b (nextGroup l todo) = todo.length + 1 := by
  cases todo <;> rfl

omit [Fintype N] [DecidableEq N] in
theorem ahead_checkLogin (k b : Nat) (conn : Conn N) (password : String) (user : UserModel.User) :
    ahead k b (checkLogin conn password user) ≤ b + 12 := by
  unfold checkLogin
  split
  · exact Nat.le_add_left 1 (b + 11)
  split
  · exact Nat.le_add_left 1 (b + 11)
  split
  · exact Nat.le_add_left 1 (b + 11)
  · exact Nat.le_refl _

omit [Fintype N] in
theorem ahead_next {k b : Nat} (hb : ∀ u, (GroupModel.queryGroup u w.groups).length ≤ b)
    (h : pc.next E n pick w = some (e, pc')) : ahead k b pc' + leaves k e < ahead k b pc := by
  cases pc with
  | scanConn conn =>
    obtain ⟨u, _, rfl, rfl⟩ | ⟨_, rfl, rfl⟩ := next_scan h
    · split
      · exact Nat.zero_lt_succ 6
      · exact Nat.lt_succ_self 6
    · exact Nat.zero_lt_succ 6
  | queryName conn name password =>
    cases h
    exact Nat.lt_succ_of_le (ahead_checkLogin k b conn password _)
  | queryOffline l =>
    obtain ⟨rfl, rfl⟩ := Prod.mk.inj (Option.some.inj h)
    split
    · exact Nat.lt_add_of_pos_right (k := 2) (by decide)
    · exact Nat.lt_succ_self (b + 4)
  | queryGroup l =>
    cases h
    rw [ahead_nextGroup]
    exact Nat.lt_succ_of_le (Nat.succ_le_succ (hb l.user.id))
  | queryMembers l g todo =>
    cases h
    rw [ahead_nextGroup]
    exact Nat.lt_succ_self _
  | isFriend conn userid toid payload =>
    obtain ⟨rfl, rfl⟩ := Prod.mk.inj (Option.some.inj h)
    split
    · exact Nat.lt_succ_self (k + 3)
    · exact Nat.succ_lt_succ (Nat.zero_lt_succ (k + 2))
  | findConn u p =>
    obtain ⟨rfl, rfl⟩ := Prod.mk.inj (Option.some.inj h)
    cases (w.node n).userConnMap.lookup u with
    | none => exact Nat.lt_succ_self (k + 2)
    | some conn => exact Nat.succ_lt_succ (Nat.zero_lt_succ (k + 1))
  | queryState u p =>
    obtain ⟨rfl, rfl⟩ := Prod.mk.inj (Option.some.inj h)
    split
    · exact Nat.lt_succ_self (k + 1)
    · exact Nat.succ_lt_succ (Nat.zero_lt_succ k)
  | publish u p =>
    cases h
    exact (Nat.zero_add k).trans_lt (Nat.lt_succ_self k)
  | subscribe l =>
    cases h
    exact Nat.lt_succ_self (b + 9)
  | findSubscribed u p =>
    obtain ⟨rfl, rfl⟩ := Prod.mk.inj (Option.some.inj h)
    cases (w.node n).userConnMap.lookup u <;> exact Nat.lt_succ_self 1
  | done => cases h
  | _ =>
    cases h
    exact Nat.lt_succ_self _

def leavesAt (own : Bool) : Effect N → Nat
  | .subscribe _ | .unsubscribe _ => if own then 4 else 0
  | .publish .. => 3
  | _ => 0

theorem toDo_enqueueCommand (c : Command) (l : Link) : toDo (l.enqueueCommand c) = toDo l + 4 := by
  simp only [toDo, Link.enqueueCommand, List.length_append, List.length_singleton]
  omega

omit [Fintype N] [DecidableEq N] in
theorem toDo_onRedis (tid : Nat) (own : Bool) (l : Link) (e : Effect N) :
    toDo (e.onRedis tid own l) ≤ toDo l + leavesAt own e := by
  cases e with
  | subscribe u =>
    cases own with
    | false => exact Nat.le_refl _
    | true =>
      simp only [Effect.onRedis, Link.subscribe, if_true, leavesAt]
      split
      · exact Nat.le_of_eq (toDo_enqueueCommand _ l)
      · exact Nat.le_add_right _ _
  | unsubscribe u =>
    cases own with
    | false => exact Nat.le_refl _
    | true =>
      simp only [Effect.onRedis, Link.unsubscribe, if_true, leavesAt]
      split
      · exact Nat.le_of_eq (toDo_enqueueCommand _ l)
      · exact Nat.le_add_right _ _
  | publish c m =>
    simp only [Effect.onRedis, Link.push, leavesAt]
    split
    · rw [toDo, total_concat, toDo]
      exact Nat.le_of_eq (Nat.add_assoc _ _ _).symm
    · exact Nat.le_add_right _ _
  | _ => exact Nat.le_refl _

theorem sum_leavesAt (node : N) (e : Effect N) : ∑ n, leavesAt (decide (n = node)) e = leaves (echo N) e := by
  cases e with
  | subscribe u | unsubscribe u => simp [leavesAt, leaves]
  | publish c m =>
    simp only [leavesAt, leaves, echo]
    exact (Finset.sum_const_nat fun _ _ => rfl).trans (Nat.mul_comm _ 3)
  | _ => exact Finset.sum_const_zero

theorem toDo_handleCommand (c : Command) (l : Link) : toDo (Link.handleCommand c l) ≤ toDo l + 2 := by
  have hw (r : Request) : toDo (l.write r) = toDo l + 2 := by
    simp only [toDo, Link.write, List.length_append, List.length_singleton]
    omega
  unfold Link.handleCommand Link.sendSubscribeCommand Link.sendUnsubscribeCommand
  split
  · split
    · exact Nat.le_add_right _ _
    · exact Nat.le_of_eq (hw _)
  · exact Nat.le_of_eq (hw _)
  · exact Nat.le_add_right _ _

theorem nextReply_toDo {l r : Link} {message : Option (Int × String × Nat)} (h : l.nextReply = some (r, message)) :
    toDo r + (message.elim 0 fun _ => 2) < toDo l := by
  unfold Link.nextReply at h
  split at h
  · cases h
  · rename_i p rest hp
    cases p with
    | confirm req =>
      simp only [handleRedisReply_confirm, Option.map_none, Option.some.injEq, Prod.mk.injEq] at h
      obtain ⟨rfl, rfl⟩ := h
      simp only [toDo, hp, total_cons, toRead, Option.elim_none]
      omega
    | message c s call =>
      have hle : (message.elim 0 fun _ => 2) ≤ 2 := by
        cases message with
        | none => exact Nat.zero_le 2
        | some m => exact Nat.le_refl 2
      simp only [Option.some.injEq, Prod.mk.injEq] at h
      obtain ⟨rfl, -⟩ := h
      simp only [toDo, hp, total_cons, toRead]
      omega

omit [Fintype N] in
/-- What the Redis side of a node does lowers what there is to do, and a thread
that it starts has less before it than the message that it is started for. -/
theorem listen_toDo {l : Listen} (hi : Internal w (.listen n l)) (h : w.listen n l = some w') :
    ∃ r : Link, w' = w.setRedis n r ∧ toDo r < toDo (w.node n).redis ∨
      ∃ u m call, w' = (w.setRedis n r).spawn (.subscribed n u m call) ∧ toDo r + 2 < toDo (w.node n).redis := by
  cases l with
  | serve =>
    obtain ⟨r, hr, rfl⟩ := Option.map_eq_some_iff.mp h
    unfold Link.serve at hr
    split at hr
    · cases hr
    · rename_i req rest hw
      cases hr
      refine ⟨_, Or.inl ⟨rfl, ?_⟩⟩
      simp only [toDo, hw, List.length_cons, total_concat, toRead]
      omega
  | swapCommands =>
    simp only [World.listen] at h
    split at h
    · cases h
    obtain ⟨r, hr, rfl⟩ := Option.map_eq_some_iff.mp h
    unfold Link.swapCommands at hr
    split at hr
    · rename_i hp
      cases hr
      have hpos : 0 < (w.node n).redis.commandQueue.length := List.length_pos_of_ne_nil hi
      refine ⟨_, Or.inl ⟨rfl, ?_⟩⟩
      simp only [toDo, hp, List.length_nil]
      omega
    · cases hr
  | nextCommand =>
    simp only [World.listen] at h
    split at h
    · cases h
    obtain ⟨r, hr, rfl⟩ := Option.map_eq_some_iff.mp h
    unfold Link.nextCommand at hr
    split at hr
    · cases hr
    · rename_i command rest hp
      cases hr
      have hle := toDo_handleCommand command { (w.node n).redis with pendingCommands := rest }
      refine ⟨_, Or.inl ⟨rfl, Nat.lt_of_le_of_lt hle ?_⟩⟩
      simp only [toDo, hp, List.length_cons]
      omega
  | nextReply =>
    simp only [World.listen] at h
    split at h
    · cases h
    obtain ⟨⟨r, message⟩, hr, h⟩ := Option.map_eq_some_iff.mp h
    have hlt := nextReply_toDo hr
    cases message with
    | none => exact ⟨r, Or.inl ⟨h.symm, hlt⟩⟩
    | some m => exact ⟨r, Or.inr ⟨_, _, _, h.symm, hlt⟩⟩

theorem rank_setRedis (w : World N) (n : N) (r : Link) :
    rank (w.setRedis n r) + toDo (w.node n).redis = rank w + toDo r := by
  have hsum := sum_setRedis toDo w n r
  have ht : rank (w.setRedis n r) = total (fun th => ahead (echo N) (memberships w) th.pc) w.threads +
      ∑ k, toDo ((w.setRedis n r).node k).redis := rfl
  rw [ht, rank]
  omega

omit [DecidableEq N] in
theorem rank_spawn (w : World N) (task : Task N) :
    rank (w.spawn task) = rank w + ahead (echo N) (memberships w) task.start := by
  have ht : rank (w.spawn task) = total (fun th => ahead (echo N) (memberships w) th.pc) (w.threads ++ [⟨task, task.start⟩]) +
      ∑ k, toDo (w.node k).redis := rfl
  rw [ht, total_concat, rank]
  exact Nat.add_right_comm _ _ _

omit [Fintype N] [DecidableEq N] in
theorem length_queryGroup_le (w : World N) (u : Int) : (GroupModel.queryGroup u w.groups).length ≤ memberships w := by
  rw [GroupModel.queryGroup, List.length_flatMap]
  refine Nat.le_trans (List.sum_le_card_nsmul _ w.groups.groups.length ?_) ?_
  · intro k hk
    obtain ⟨b, _, rfl⟩ := List.mem_map.mp hk
    rw [List.length_map]
    exact List.length_filter_le _ _
  · rw [List.length_map, Nat.nsmul_eq_mul]
    exact Nat.mul_le_mul_right _ (List.length_filter_le _ _)

theorem rank_advance {tid : Nat} {th : Thread N} (hth : w.threads[tid]? = some th)
    (hn : th.pc.next E th.task.node pick w = some (e, pc)) : rank (w.advance E tid th e pc) < rank w := by
  have hset : total (fun th => ahead (echo N) (memberships w) th.pc) (w.threads.set tid { th with pc := pc }) +
      ahead (echo N) (memberships w) th.pc =
        total (fun th => ahead (echo N) (memberships w) th.pc) w.threads + ahead (echo N) (memberships w) pc :=
    total_set hth _
  have hahead := ahead_next (k := echo N) (length_queryGroup_le w) hn
  have hsum : ∑ n, toDo ((w.advance E tid th e pc).node n).redis ≤
      ∑ n, (toDo (w.node n).redis + leavesAt (decide (n = th.task.node)) e) :=
    Finset.sum_le_sum fun n _ => toDo_onRedis tid _ _ e
  rw [Finset.sum_add_distrib, sum_leavesAt] at hsum
  have ht : rank (w.advance E tid th e pc) =
      total (fun th => ahead (echo N) (memberships w) th.pc) (w.threads.set tid { th with pc := pc }) +
        ∑ n, toDo ((w.advance E tid th e pc).node n).redis := rfl
  rw [ht, rank]
  omega

theorem rank_step {a : Action N} (hi : Internal w a) (h : step E w a = some w') : rank w' < rank w := by
  cases a with
  | start task => exact hi.elim
  | run tid pick =>
    obtain ⟨th, hth, h⟩ := Option.bind_eq_some_iff.mp h
    obtain ⟨⟨e, pc⟩, hn, rfl⟩ := Option.map_eq_some_iff.mp h
    exact rank_advance hth hn
  | listen n l =>
    obtain ⟨r, ⟨rfl, hlt⟩ | ⟨u, m, call, rfl, hlt⟩⟩ := listen_toDo hi h
    · have hr := rank_setRedis w n r
      omega
    · have hr := rank_setRedis w n r
      rw [rank_spawn]
      change rank (w.setRedis n r) + 2 < rank w
      omega

omit [Fintype N] in
theorem lookup_of_holds {conn : Conn N} {m : ConnMap N} (h : m.holds conn = true) : ∃ u, m.lookup u = some conn := by
  obtain ⟨x, hx, hc⟩ := List.any_eq_true.mp h
  exact ⟨x.1, AList.mem_lookup_iff.mpr (of_decide_eq_true hc ▸ hx)⟩

omit [Fintype N] in
theorem next_exists (E : Engine) (n : N) (w : World N) (h : pc ≠ .done) :
    ∃ pick, (pc.next E n pick w).isSome = true := by
  cases pc with
  | scanConn conn =>
    by_cases hc : (w.node n).userConnMap.holds conn = true
    · obtain ⟨u, hu⟩ := lookup_of_holds hc
      refine ⟨some u, ?_⟩
      simp only [Pc.next, if_pos hu, Option.isSome_some]
    · refine ⟨none, ?_⟩
      simp only [Pc.next, if_neg hc, Option.isSome_some]
  | done => exact absurd rfl h
  | _ => exact ⟨none, rfl⟩

omit [Fintype N] in
theorem quiet_iff : Quiet w ↔ ∀ a, Internal w a → Prompt a → step E w a = none := by
  constructor
  · intro h a hi hp
    cases a with
    | start task => exact hi.elim
    | run tid pick =>
      refine Option.bind_eq_none_iff.mpr fun th hth => ?_
      rw [h.threads th (List.mem_of_getElem? hth)]
      rfl
    | listen n l =>
      cases l with
      | swapCommands => exact absurd (h.commandQueue n) hi
      | nextCommand =>
        simp only [step, World.listen, Link.nextCommand, h.pendingCommands n, Option.map_none, ite_self]
      | serve => simp only [step, World.listen, Link.serve, h.written n, Option.map_none]
      | nextReply => exact absurd rfl (hp n)
  · intro h
    have hdone : ∀ th ∈ w.threads, th.pc = .done := by
      intro th hth
      by_contra hne
      obtain ⟨tid, htid⟩ := List.mem_iff_getElem?.mp hth
      obtain ⟨pick, hp⟩ := next_exists E th.task.node w hne
      obtain ⟨x, hx⟩ := Option.isSome_iff_exists.mp hp
      have hnone : w.runThread E tid pick = none := h (.run tid pick) trivial fun _ h => (by cases h)
      rw [World.runThread, htid, Option.bind_some, hx] at hnone
      cases hnone
    have hidle (n : N) : w.dispatching n = false := by
      refine List.any_eq_false.mpr fun th hth => ?_
      rw [hdone th hth]
      simp [Pc.isDone]
    have hpending (n : N) : (w.node n).redis.pendingCommands = [] := by
      by_contra hne
      obtain ⟨c, cs, hc⟩ := List.exists_cons_of_ne_nil hne
      have hnone : w.listen n .nextCommand = none := h (.listen n .nextCommand) trivial fun _ h => (by cases h)
      simp only [World.listen, hidle n, Bool.false_eq_true, if_false, Link.nextCommand, hc] at hnone
      cases hnone
    refine ⟨hdone, fun n => ?_, hpending, fun n => ?_⟩
    · by_contra hne
      have hnone : w.listen n .swapCommands = none := h (.listen n .swapCommands) hne fun _ h => (by cases h)
      simp only [World.listen, hidle n, Bool.false_eq_true, if_false, Link.swapCommands, hpending n, if_true] at hnone
      cases hnone
    · by_contra hne
      obtain ⟨r, rs, hr⟩ := List.exists_cons_of_ne_nil hne
      have hnone : w.listen n .serve = none := h (.listen n .serve) trivial fun _ h => (by cases h)
      simp only [World.listen, Link.serve, hr] at hnone
      cases hnone

/-- When no request arrives, the handlers and the listeners of all nodes come to
rest after at most as many steps as the rank says, in whatever order they are
taken, and until then there is a step to take besides the reading of replies. -/
theorem cluster_settles {w w' : World N} {as : List (Action N)} (hm : (cluster N E).Meets Internal w as)
    (hr : (cluster N E).run w as = some w') :
    as.length ≤ rank w ∧ (Quiet w' ∨ ∃ a, Internal w' a ∧ Prompt a ∧ (step E w' a).isSome = true) := by
  have hle := Machine.length_add_rank_le (M := cluster N E) (fun _ _ _ hi hs => rank_step hi hs) hm hr
  refine ⟨by omega, ?_⟩
  by_cases hs : ∃ a, Internal w' a ∧ Prompt a ∧ (step E w' a).isSome = true
  · exact Or.inr hs
  · exact Or.inl (quiet_iff.mpr fun a ha hp => Option.not_isSome_iff_eq_none.mp fun h => hs ⟨a, ha, hp, h⟩)

open Sample Delivery

def arrived : World Bool := Delivery.world.spawn (.frame ⟨true, 0⟩ (loginFrame "alice" "a"))

theorem cluster_settles_arrived : ∃ w, (cluster Bool engine).run arrived (runs 0 8 ++ listenTrue) = some w ∧
    (runs 0 8 ++ listenTrue : List (Action Bool)).length ≤ rank arrived ∧
      (Quiet w ∨ ∃ a, Internal w a ∧ Prompt a ∧ (step engine w a).isSome = true) := by
  have h : ((cluster Bool engine).run arrived (runs 0 8 ++ listenTrue)).isSome = true ∧
      (cluster Bool engine).Meets Internal arrived (runs 0 8 ++ listenTrue) := by decide +kernel
  obtain ⟨w, hw⟩ := Option.isSome_iff_exists.mp h.1
  exact ⟨w, hw, cluster_settles h.2 hw⟩

end BridgeIM.Server.Settling
