import BridgeIM.Server.Next

namespace BridgeIM.Server.Collect

open CString Lib Model

variable {N : Type} [DecidableEq N] {E : Engine}

def storing : Pc N → Option (Int × String)
  | .insertOffline userid msg => some (userid, msg)
  | _ => none

def removing : Pc N → Option (Login N)
  | .removeOffline l => some l
  | _ => none

/-- A login past its offline messages, which it holds in `l`. -/
def answering : Pc N → Option (Login N)
  | .queryFriends l | .queryGroup l | .queryMembers l _ _ | .sendAck l => some l
  | _ => none

/-- No message is stored for a user while a login of this user stands between
reading and deleting the offline messages, and at such a time no statement with
an apostrophe in its message is executed. -/
def Apart (w : World N) : Action N → Prop
  | .run tid _ => ∀ th ∈ w.threads[tid]?, ∀ s ∈ storing th.pc, ∀ th' ∈ w.threads,
      ∀ l ∈ removing th'.pc, l.user.id ≠ s.1 ∧ '\'' ∉ s.2.toList
  | _ => True

instance decidableApart (w : World N) : ∀ a : Action N, Decidable (Apart w a)
  | .run tid _ => inferInstanceAs (Decidable (∀ th ∈ w.threads[tid]?, ∀ s ∈ storing th.pc,
      ∀ th' ∈ w.threads, ∀ l ∈ removing th'.pc, l.user.id ≠ s.1 ∧ '\'' ∉ s.2.toList))
  | .start _ | .listen .. => isTrue trivial

/-- Every row deleted by a login was read by it before and is in its response. -/
def Collected (w : World N) : Prop :=
  ∀ tid u rows, (tid, .removeOffline u rows) ∈ w.log →
    ∃ msgs, (tid, .queryOffline u msgs) ∈ w.log ∧ (rows.map cstring).Sublist msgs ∧
      ∃ l : Login N, l.user.id = u ∧ (loginAck l).get? "offlinemsg" = some (.strs msgs) ∧
        ((tid, .sendJson l.conn (loginAck l)) ∈ w.log ∨
          ∃ th, w.threads[tid]? = some th ∧ answering th.pc = some l)

omit [DecidableEq N] in
theorem get?_loginAck {l : Login N} (h : l.offlineMsgs ≠ []) :
    (loginAck l).get? "offlinemsg" = some (.strs l.offlineMsgs) := by
  simp only [loginAck, Json.mkObj, List.foldl_cons, List.foldl_nil, if_neg h, Json.set_obj]
  split <;> split <;> simp

omit [DecidableEq N] in
theorem removing_eq_some {pc : Pc N} {l : Login N} : removing pc = some l ↔ pc = .removeOffline l := by
  cases pc <;> simp [removing]

omit [DecidableEq N] in
theorem storing_eq_some {pc : Pc N} {u : Int} {p : String} :
    storing pc = some (u, p) ↔ pc = .insertOffline u p := by
  cases pc <;> simp [storing]

omit [DecidableEq N] in
theorem start_ne_removeOffline (task : Task N) (l : Login N) : task.start ≠ .removeOffline l := by
  intro h
  have hi := initial_start task
  rw [h] at hi
  cases hi

variable {n : N} {pick : Option Int} {w w' : World N} {pc pc' : Pc N}

theorem next_to_removeOffline {e : Effect N} {l : Login N}
    (h : pc.next E n pick w = some (e, .removeOffline l)) :
    e = .queryOffline l.user.id l.offlineMsgs ∧ l.offlineMsgs ≠ [] ∧
      l.offlineMsgs = OfflineMsgModel.query E.offline l.user.id w.offline := by
  cases pc with
  | scanConn conn =>
    obtain ⟨u, _, _, hp⟩ | ⟨_, _, hp⟩ := next_scan h
    · split at hp <;> cases hp
    · cases hp
  | _ => grind [Pc.next, checkLogin, nextGroup.eq_def, Option.elim.eq_def]

theorem next_answering {e : Effect N} {l : Login N} (h : pc.next E n pick w = some (e, pc'))
    (hl : answering pc = some l) :
    (∃ l', answering pc' = some l' ∧ l'.user = l.user ∧ l'.conn = l.conn ∧ l'.offlineMsgs = l.offlineMsgs) ∨
      e = .sendJson l.conn (loginAck l) := by
  cases pc <;> simp only [answering, Option.some.injEq, reduceCtorEq] at hl <;> subst hl
  all_goals grind [Pc.next, nextGroup.eq_def, answering]

theorem trace_queryOffline {task : Task N} {h : List (Effect N)} (ht : Trace E task h pc) {u : Int}
    {msgs : List String} (hm : msgs ≠ []) (hq : .queryOffline u msgs ∈ h) :
    ∃ l : Login N, l.user.id = u ∧ l.offlineMsgs = msgs ∧
      (pc = .removeOffline l ∨ answering pc = some l ∨ .sendJson l.conn (loginAck l) ∈ h) := by
  induction ht with
  | start => cases hq
  | @step h pc pc' e w pick ht hn ih =>
    rw [List.mem_append, List.mem_singleton] at hq
    obtain hq | rfl := hq
    · obtain ⟨l, hu, hl, rfl | ha | hs⟩ := ih hq
      · simp only [Pc.next, Option.some.injEq, Prod.mk.injEq] at hn
        exact ⟨l, hu, hl, Or.inr (Or.inl (by rw [← hn.2]; rfl))⟩
      · obtain ⟨l', ha', hu', hc', hl'⟩ | rfl := next_answering hn ha
        · exact ⟨l', by rw [hu', hu], hl'.trans hl, Or.inr (Or.inl ha')⟩
        · exact ⟨l, hu, hl, Or.inr (Or.inr (by simp))⟩
      · exact ⟨l, hu, hl, Or.inr (Or.inr (List.mem_append_left _ hs))⟩
    · obtain ⟨l, rfl, rfl, rfl, rfl⟩ := next_queryOffline hn
      rw [if_neg hm]
      exact ⟨{ l with offlineMsgs := OfflineMsgModel.query E.offline l.user.id w.offline }, rfl, rfl, Or.inl rfl⟩

theorem trace_removeOffline {task : Task N} {h : List (Effect N)} (ht : Trace E task h pc) {u : Int}
    {rows : List String} (hr : .removeOffline u rows ∈ h) : (∃ l, answering pc = some l) ∨ pc = .done := by
  induction ht with
  | start => cases hr
  | @step h pc pc' e w pick ht hn ih =>
    rw [List.mem_append, List.mem_singleton] at hr
    obtain hr | rfl := hr
    · obtain ⟨l, ha⟩ | rfl := ih hr
      · obtain ⟨l', ha', _⟩ | rfl := next_answering hn ha
        · exact Or.inl ⟨l', ha'⟩
        · exact Or.inr (next_sendJson hn).1
      · cases hn
    · obtain ⟨l, rfl, rfl, rfl, rfl⟩ := next_removeOffline hn
      exact Or.inl ⟨l, rfl⟩

structure Inv (w : World N) : Prop where
  read : ∀ tid th l, w.threads[tid]? = some th → th.pc = .removeOffline l →
    (tid, .queryOffline l.user.id l.offlineMsgs) ∈ w.log ∧ l.offlineMsgs ≠ [] ∧
      ((OfflineMsgModel.messages l.user.id w.offline).map cstring).Sublist l.offlineMsgs
  removed : ∀ tid u rows, (tid, .removeOffline u rows) ∈ w.log →
    ∃ msgs, (tid, .queryOffline u msgs) ∈ w.log ∧ msgs ≠ [] ∧ (rows.map cstring).Sublist msgs

variable {same : String → String → Bool}

omit [DecidableEq N] in
theorem messages_onOffline (hE : E.Rules same) {u : Int} {e : Effect N}
    (he : ∀ v p, e = .insertOffline v p → u ≠ v ∧ '\'' ∉ p.toList) (t : OfflineMsgModel.Table) :
    (OfflineMsgModel.messages u (e.onOffline E t)).Sublist (OfflineMsgModel.messages u t) := by
  cases e with
  | insertOffline v p =>
    obtain ⟨hu, hq⟩ := he v p rfl
    obtain hi | ⟨msg, hi⟩ := OfflineMsgModel.insert_of_not_mem hE.offline v hq t
    · rw [Effect.onOffline, hi]
    · rw [Effect.onOffline, hi, OfflineMsgModel.messages_append]
      have hv : OfflineMsgModel.messages u [(v, msg)] = [] := by
        simp [OfflineMsgModel.messages, Ne.symm hu]
      rw [hv, List.append_nil]
  | removeOffline v rows =>
    rw [Effect.onOffline, OfflineMsgModel.remove_eq hE.offline]
    exact (List.filter_sublist.filter _).map _
  | _ => exact List.Sublist.refl _

omit [DecidableEq N] in
theorem inv_fresh (h : w.Fresh) : Inv w where
  read := by
    intro tid th l ht
    rw [h.threads] at ht
    cases ht
  removed := by
    intro tid u rows hr
    rw [h.log] at hr
    cases hr

omit [DecidableEq N] in
theorem inv_frame (h : Inv w) (hf : SameStores w w')
    (ht : ∀ (tid : Nat) (th : Thread N) (l : Login N), w'.threads[tid]? = some th →
      th.pc = .removeOffline l → w.threads[tid]? = some th) : Inv w' where
  read := by
    intro tid th l hth hpc
    rw [hf.log, hf.offline]
    exact h.read tid th l (ht tid th l hth hpc) hpc
  removed := by
    rw [hf.log]
    exact h.removed

theorem inv_advance (hE : E.Rules same) (h : Inv w) {tid : Nat} {th : Thread N} {e : Effect N}
    (hok : Apart w (.run tid pick)) (hth : w.threads[tid]? = some th)
    (hn : th.pc.next E th.task.node pick w = some (e, pc)) : Inv (w.advance E tid th e pc) where
  read := by
    intro i th' l hi hpc
    obtain ⟨rfl, rfl⟩ | ⟨_, hi⟩ := getElem?_of_set hi
    · change pc = .removeOffline l at hpc
      subst hpc
      obtain ⟨rfl, hne, hq⟩ := next_to_removeOffline hn
      refine ⟨by simp [World.advance], hne, ?_⟩
      rw [hq, OfflineMsgModel.query_eq hE.offline]
      exact List.Sublist.refl _
    · have hmem := List.mem_of_getElem? hi
      obtain ⟨hq, hne, hs⟩ := h.read i th' l hi hpc
      refine ⟨List.mem_append_left _ hq, hne, ?_⟩
      refine ((messages_onOffline hE ?_ w.offline).map cstring).trans hs
      rintro v p rfl
      obtain ⟨hp, _⟩ := next_insertOffline hn
      exact hok th hth (v, p) (storing_eq_some.mpr hp) th' hmem l (removing_eq_some.mpr hpc)
  removed := by
    intro i u rows hr
    obtain hr | hr := List.mem_append.mp hr
    · obtain ⟨msgs, hq, hne, hs⟩ := h.removed i u rows hr
      exact ⟨msgs, List.mem_append_left _ hq, hne, hs⟩
    · cases List.mem_singleton.mp hr
      obtain ⟨l, hpc, rfl, rfl, rfl⟩ := next_removeOffline hn
      obtain ⟨hq, hne, hs⟩ := h.read tid th l hth hpc
      exact ⟨l.offlineMsgs, List.mem_append_left _ hq, hne, hs⟩

theorem inv_step (hE : E.Rules same) (h : Inv w) {a : Action N} (hok : Apart w a)
    (hs : step E w a = some w') : Inv w' := by
  obtain ⟨task, _, hf, ht⟩ | ⟨hf, ht⟩ | ⟨tid, pick, th, e, pc, rfl, hth, hn, rfl⟩ := step_cases hs
  · refine inv_frame h hf fun i th l hi hpc => ?_
    rw [ht] at hi
    obtain hi | ⟨_, rfl⟩ := getElem?_of_concat hi
    · exact hi
    · exact absurd hpc (start_ne_removeOffline task l)
  · exact inv_frame h hf fun i th l hi _ => ht ▸ hi
  · exact inv_advance hE h hok hth hn

theorem collected_of_inv (hT : Traced E w) (h : Inv w) : Collected w := by
  intro tid u rows hrow
  obtain ⟨msgs, hq, hne, hs⟩ := h.removed tid u rows hrow
  have hlt := hT.known _ hq
  have hth : w.threads[tid]? = some w.threads[tid] := List.getElem?_eq_getElem hlt
  have htr := hT.trace tid _ hth
  obtain ⟨l, hu, rfl, hpc | ha | hsent⟩ := trace_queryOffline htr hne (mem_history.mpr hq)
  · obtain ⟨l', ha⟩ | hd := trace_removeOffline htr (mem_history.mpr hrow)
    · rw [hpc] at ha
      cases ha
    · rw [hpc] at hd
      cases hd
  · exact ⟨l.offlineMsgs, hq, hs, l, hu, get?_loginAck hne, Or.inr ⟨_, hth, ha⟩⟩
  · exact ⟨l.offlineMsgs, hq, hs, l, hu, get?_loginAck hne, Or.inl (mem_history.mp hsent)⟩

/-- No offline message is deleted unread. -/
theorem offline_collected (hE : E.Rules same) (w₀ w : World N) (h₀ : w₀.Fresh) (as : List (Action N))
    (hm : (cluster N E).Meets Apart w₀ as) (hr : (cluster N E).run w₀ as = some w) : Collected w := by
  have h : Traced E w ∧ Inv w := Machine.run_invariant (I := fun w => Traced E w ∧ Inv w)
    ⟨traced_fresh h₀, inv_fresh h₀⟩ (fun _ _ _ hi hok hs => ⟨hi.1.step hs, inv_step hE hi.2 hok hs⟩) hm hr
  exact collected_of_inv h.1 h.2

open Sample

def world : World Unit := { users := accounts, offline := [(1, "hi")], friends := [(2, 1)] }

def aliceLogin : List (Action Unit) := .start (.frame ⟨(), 0⟩ (loginFrame "alice" "a")) :: runs 0 9

theorem offline_collected_login :
    ∃ w, (cluster Unit engine).run world aliceLogin = some w ∧ Collected w := by
  have h : ((cluster Unit engine).run world aliceLogin).isSome = true ∧
      (cluster Unit engine).Meets Apart world aliceLogin := by decide +kernel
  obtain ⟨w, hw⟩ := Option.isSome_iff_exists.mp h.1
  exact ⟨w, hw, offline_collected (Engine.strict_rules _) world w ⟨rfl, rfl, fun _ => rfl⟩ aliceLogin
    h.2 hw⟩

/-- A message from bob that is stored between alice's read and her delete. -/
def lateStore : List (Action Unit) :=
  .start (.frame ⟨(), 0⟩ (chatFrame 2 1 "hello")) :: runs 0 3 ++
    .start (.frame ⟨(), 1⟩ (loginFrame "alice" "a")) :: runs 1 5 ++ runs 0 1 ++ runs 1 1

def unread (w : World N) : Bool :=
  w.log.any fun
    | (tid, .removeOffline u rows) => !w.log.any fun
      | (i, .queryOffline v msgs) => i = tid && v = u && (rows.map cstring).isSublist msgs
      | _ => false
    | _ => false

omit [DecidableEq N] in
theorem unread_of_collected (h : Collected w) : unread w = false := by
  rw [unread, List.any_eq_false]
  intro x hx
  obtain ⟨tid, e⟩ := x
  cases e with
  | removeOffline u rows =>
    obtain ⟨msgs, hq, hs, _⟩ := h tid u rows hx
    simp only [Bool.not_eq_true, Bool.not_eq_false', List.any_eq_true]
    exact ⟨_, hq, by simpa using hs⟩
  | _ => exact Bool.false_ne_true

theorem lateStore_unread : ¬ ∀ (E : Engine) (w₀ w : World Unit) (as : List (Action Unit)),
    E.Rules (fun a b => a = b) → w₀.Fresh → (cluster Unit E).run w₀ as = some w → Collected w := by
  intro h
  have hu : ((cluster Unit engine).run world lateStore).map unread = some true := by decide +kernel
  obtain ⟨w, hw, hlost⟩ := Option.map_eq_some_iff.mp hu
  have hc := h engine world w lateStore (Engine.strict_rules _) ⟨rfl, rfl, fun _ => rfl⟩ hw
  rw [unread_of_collected hc] at hlost
  cases hlost

end BridgeIM.Server.Collect
