import BridgeIM.Lib.History
import BridgeIM.Server.Users

namespace BridgeIM.Server.Exclusive

open Db Lib Model Model.UserModel

variable {N : Type} [DecidableEq N] {E : Engine} {same : String → String → Bool}

def setsOffline (u : Int) (x : Nat × Effect N) : Bool :=
  match x.2 with
  | .updateState v .offline => v = u
  | .resetState => true
  | _ => false

/-- Between two successful logins of a user on different connections the user
has been set back to `offline`. -/
def ExclusiveSession (w : World N) : Prop :=
  ∀ u l₁ l₂ l₃ t₁ t₂ c₁ c₂ j₁ j₂, IsLoginAck u j₁ → IsLoginAck u j₂ → c₁ ≠ c₂ →
    w.log = l₁ ++ (t₁, .sendJson c₁ j₁) :: l₂ ++ (t₂, .sendJson c₂ j₂) :: l₃ →
      ∃ x ∈ l₂, setsOffline u x = true

def setsOnline (u : Int) (x : Nat × Effect N) : Bool :=
  match x.2 with
  | .updateState v .online => v = u
  | _ => false

def responds (tid : Nat) (x : Nat × Effect N) : Bool :=
  match x.2 with
  | .sendJson .. => x.1 = tid
  | _ => false

/-- When the user was last set to `offline`, no login of his was between its update
and its response. -/
def Answered (u : Int) (w : World N) : Prop :=
  ∀ x ∈ upTo (setsOffline u) w.log, setsOnline u x = true → ∃ y ∈ upTo (setsOffline u) w.log, responds x.1 y = true

instance (u : Int) (w : World N) : Decidable (Answered u w) :=
  inferInstanceAs (Decidable (∀ x ∈ upTo (setsOffline u) w.log, setsOnline u x = true →
    ∃ y ∈ upTo (setsOffline u) w.log, responds x.1 y = true))

/-- What a thread may do at a given point for sessions to be exclusive. -/
def Allowed (w : World N) : Pc N → Prop
  | .updateOnline l => (w.users.find l.user.id).isSome = true ∧ w.users.stateOf l.user.id ≠ some .online ∧
      Answered l.user.id w
  | .insertUser _ user => Plain user.name ∧ Plain user.password ∧ user.state = State.offline.text
  | _ => True

/-- A login writes `online` only to a row that is not `online`, and not when the
last `offline` came while a login of the user was under way; and a registration
has plain texts. -/
def Guarded (w : World N) : Action N → Prop
  | .run tid _ => ∀ th ∈ w.threads[tid]?, Allowed w th.pc
  | _ => True

instance decidableAllowed (w : World N) : ∀ pc : Pc N, Decidable (Allowed w pc)
  | .updateOnline _ | .insertUser .. => inferInstanceAs (Decidable (_ ∧ _))
  | .queryName .. | .insertConn _ | .subscribe _ | .queryOffline _ | .removeOffline _ | .queryFriends _ |
    .queryGroup _ | .queryMembers .. | .sendAck _ | .eraseConn _ | .unsubscribe _ | .updateOffline _ | .scanConn _ |
    .isFriend .. | .findConn .. | .queryState .. | .publish .. | .findSubscribed .. | .insertOffline .. |
    .sendPayload .. | .sendJson .. | .resetState | .done => isTrue trivial

instance decidableGuarded (w : World N) : ∀ a : Action N, Decidable (Guarded w a)
  | .run tid _ => inferInstanceAs (Decidable (∀ th ∈ w.threads[tid]?, Allowed w th.pc))
  | .start _ | .listen .. => isTrue trivial

variable {n : N} {pick : Option Int} {w w' : World N} {pc pc' : Pc N}

def isResponse : Effect N → Bool
  | .sendJson .. => true
  | _ => false

theorem trace_response_once {task : Task N} {h : List (Effect N)} (ht : Trace E task h pc) :
    h.countP isResponse ≤ 1 ∧ (pc ≠ .done → h.countP isResponse = 0) := by
  induction ht with
  | start => exact ⟨Nat.zero_le 1, fun _ => rfl⟩
  | @step h pc pc' e w pick _ hn ih =>
    have hzero : h.countP isResponse = 0 := by
      refine ih.2 ?_
      rintro rfl
      cases hn
    rw [List.countP_append, hzero, List.countP_singleton]
    cases e with
    | sendJson conn js => exact ⟨Nat.le_refl 1, fun hpc => absurd (next_sendJson hn).1 hpc⟩
    | _ => exact ⟨Nat.zero_le 1, fun _ => rfl⟩

omit [DecidableEq N] in
theorem countP_history (tid : Nat) (w : World N) : (w.history tid).countP isResponse = w.log.countP (responds tid) := by
  rw [World.history, List.countP_map, List.countP_filter]
  refine List.countP_congr fun x _ => ?_
  obtain ⟨i, e⟩ := x
  cases e <;> simp [isResponse, responds]

theorem responds_once (hT : Traced E w) {u : Int} {tid : Nat} {y z : Nat × Effect N}
    (hy : y ∈ upTo (setsOffline u) w.log) (hz : z ∈ since (setsOffline u) w.log) (hry : responds tid y = true)
    (hrz : responds tid z = true) : False := by
  have hlog : w.log.countP (responds tid) ≤ 1 := by
    rw [← countP_history]
    by_cases hlt : tid < w.threads.length
    · exact (trace_response_once (hT.trace tid _ (List.getElem?_eq_getElem hlt))).1
    · rw [hT.history_of_ge (Nat.not_lt.mp hlt)]
      exact Nat.zero_le 1
  rw [← upTo_append_since (setsOffline u) w.log, List.countP_append] at hlog
  have hfirst := List.countP_pos_iff.mpr ⟨y, hy, hry⟩
  have hsecond := List.countP_pos_iff.mpr ⟨z, hz, hrz⟩
  omega

structure Inv (w : World N) : Prop where
  online : ∀ u t, (t, .updateState u .online) ∈ since (setsOffline u) w.log → w.users.stateOf u = some .online
  single : ∀ (i j : Nat) (th th' : Thread N) l l', w.threads[i]? = some th → w.threads[j]? = some th' →
    th.pc.session = some l → th'.pc.session = some l' → l.user.id = l'.user.id → i = j
  first : ∀ (i : Nat) (th : Thread N) l, w.threads[i]? = some th → th.pc.session = some l →
    ∀ t c js, (t, .sendJson c js) ∈ since (setsOffline l.user.id) w.log → ¬ IsLoginAck l.user.id js
  exclusive : ExclusiveSession w

omit [DecidableEq N] in
theorem inv_fresh (h : w.Fresh) : Inv w where
  online := by
    intro u t ht
    rw [h.log] at ht
    cases ht
  single := by
    intro i j th th' l l' hi
    rw [h.threads] at hi
    cases hi
  first := by
    intro i th l hi
    rw [h.threads] at hi
    cases hi
  exclusive := by
    intro u l₁ l₂ l₃ t₁ t₂ c₁ c₂ j₁ j₂ _ _ _ hl
    rw [h.log] at hl
    simp at hl

omit [DecidableEq N] in
theorem inv_frame (h : Inv w) (hf : SameStores w w')
    (ht : ∀ (tid : Nat) (th : Thread N) (l : Login N), w'.threads[tid]? = some th →
      th.pc.session = some l → w.threads[tid]? = some th) : Inv w' where
  online := by
    rw [hf.log, hf.users]
    exact h.online
  single i j th th' l l' hi hj hl hl' := h.single i j th th' l l' (ht i th l hi hl) (ht j th' l' hj hl') hl hl'
  first := by
    rw [hf.log]
    exact fun i th l hi hl => h.first i th l (ht i th l hi hl) hl
  exclusive := by
    rw [ExclusiveSession, hf.log]
    exact h.exclusive

omit [DecidableEq N] in
theorem stateOf_onUsers (hE : E.Rules same) {u : Int} {tid : Nat} {e : Effect N} {t : UserModel.Table}
    (hp : e.PlainInsert) (he : setsOffline u (tid, e) = false) (ho : t.stateOf u = some .online) :
    (e.onUsers E t).stateOf u = some .online := by
  cases e with
  | insertUser user id =>
    obtain hi | ⟨i, t', ht', hi⟩ := onUsers_insertUser hE hp t
    · rw [hi, ho]
    · rw [hi]
      obtain hs | ⟨_, hn, _⟩ := stateOf_insert ht' u
      · rw [hs, ho]
      · rw [Table.stateOf, hn] at ho
        cases ho
  | updateState v s =>
    rw [onUsers_updateState hE, Table.stateOf_updateState]
    split
    · rename_i hv
      cases s with
      | online =>
        rw [Table.stateOf] at ho
        obtain ⟨r, hr, _⟩ := Option.bind_eq_some_iff.mp ho
        rw [hr]
        rfl
      | offline => simp [setsOffline, hv] at he
    · exact ho
  | resetState => cases he
  | _ => exact ho

theorem plainInsert_of_allowed {e : Effect N} (hok : Allowed w pc) (hn : pc.next E n pick w = some (e, pc')) :
    e.PlainInsert := by
  cases e with
  | insertUser user id =>
    obtain ⟨conn, rfl, _, _⟩ := next_insertUser hn
    exact hok
  | _ => trivial

theorem mem_since_advance {u : Int} {tid : Nat} {th : Thread N} {e : Effect N} {x : Nat × Effect N}
    (h : x ∈ since (setsOffline u) (w.advance E tid th e pc).log) :
    setsOffline u (tid, e) = false ∧ (x ∈ since (setsOffline u) w.log ∨ x = (tid, e)) := by
  rw [log_advance, since_concat] at h
  split at h
  · cases h
  · rename_i he
    rw [List.mem_append, List.mem_singleton] at h
    exact ⟨by simpa using he, h⟩

section Advance

variable {tid : Nat} {th : Thread N} {e : Effect N}

theorem online_advance (hE : E.Rules same) (h : Inv w) (hok : Allowed w th.pc)
    (hn : th.pc.next E th.task.node pick w = some (e, pc)) (u : Int) (t : Nat)
    (ht : (t, .updateState u .online) ∈ since (setsOffline u) (w.advance E tid th e pc).log) :
    (w.advance E tid th e pc).users.stateOf u = some .online := by
  obtain ⟨he, ht | ht⟩ := mem_since_advance ht
  · exact stateOf_onUsers hE (plainInsert_of_allowed hok hn) he (h.online u t ht)
  · cases ht
    obtain ⟨l, hpc, rfl, _⟩ := next_online hn
    rw [hpc] at hok
    obtain ⟨r, hr⟩ := Option.isSome_iff_exists.mp hok.1
    rw [users_advance, onUsers_updateState hE, Table.stateOf_updateState, if_pos rfl, hr]
    rfl

omit [DecidableEq N] in
theorem answered_of_online (h : Inv w) {l : Login N} (hok : Allowed w (.updateOnline l)) {t : Nat}
    (ht : (t, .updateState l.user.id .online) ∈ w.log) :
    ∃ y ∈ upTo (setsOffline l.user.id) w.log, responds t y = true := by
  rw [← upTo_append_since (setsOffline l.user.id) w.log] at ht
  obtain ht | ht := List.mem_append.mp ht
  · exact hok.2.2 _ ht (decide_eq_true rfl)
  · exact absurd (h.online _ t ht) hok.2.1

theorem not_session_of_allowed (hT : Traced E w) (h : Inv w) {l : Login N} (hok : Allowed w (.updateOnline l)) {i : Nat}
    {th' : Thread N} (hi : w.threads[i]? = some th') {l' : Login N} (hl : th'.pc.session = some l') :
    l'.user.id ≠ l.user.id := by
  intro he
  have htr := hT.trace i th' hi
  have hm := mem_history.mp (trace_session htr hl)
  rw [he] at hm
  obtain ⟨y, hy, hr⟩ := answered_of_online h hok hm
  have hpos : 0 < w.log.countP (responds i) :=
    List.countP_pos_iff.mpr ⟨y, upTo_append_since (setsOffline l.user.id) w.log ▸ List.mem_append_left _ hy, hr⟩
  rw [← countP_history, (trace_response_once htr).2 ?_] at hpos
  · exact absurd hpos (Nat.lt_irrefl 0)
  · intro hpc
    rw [hpc] at hl
    cases hl

theorem not_acked_of_allowed (hT : Traced E w) (h : Inv w) {l : Login N} (hok : Allowed w (.updateOnline l)) {t : Nat}
    {c : Conn N} {js : Json} (hs : (t, .sendJson c js) ∈ since (setsOffline l.user.id) w.log) :
    ¬ IsLoginAck l.user.id js := by
  intro ha
  have hm := mem_of_mem_since hs
  have hth := List.getElem?_eq_getElem (hT.known _ hm)
  obtain ⟨y, hy, hr⟩ := answered_of_online h hok (mem_history.mp (trace_online (hT.trace t _ hth) (mem_history.mpr hm) ha))
  exact responds_once hT hy hs hr (decide_eq_true rfl)

theorem single_advance (hT : Traced E w) (h : Inv w) (hok : Allowed w th.pc) (hth : w.threads[tid]? = some th)
    (hn : th.pc.next E th.task.node pick w = some (e, pc)) (i j : Nat) (th₁ th₂ : Thread N) (l l' : Login N)
    (hi : (w.advance E tid th e pc).threads[i]? = some th₁) (hj : (w.advance E tid th e pc).threads[j]? = some th₂)
    (hl : th₁.pc.session = some l) (hl' : th₂.pc.session = some l') (hu : l.user.id = l'.user.id) : i = j := by
  -- the thread that goes on has been under way before, or its update is allowed
  have hother {k : Nat} {th' : Thread N} {m m' : Login N} (hk : w.threads[k]? = some th') (hm' : th'.pc.session = some m')
      (hm : pc.session = some m) (hu : m.user.id = m'.user.id) : tid = k := by
    obtain ⟨l₀, hl₀, he, -⟩ | ⟨hpc, rfl⟩ := next_session hn hm
    · exact h.single tid k th th' l₀ m' hth hk hl₀ hm' (he ▸ hu)
    · rw [hpc] at hok
      exact absurd hu.symm (not_session_of_allowed hT h hok hk hm')
  obtain ⟨rfl, rfl⟩ | ⟨-, hi'⟩ := getElem?_of_set hi
  · obtain ⟨rfl, -⟩ | ⟨-, hj'⟩ := getElem?_of_set hj
    · rfl
    · exact hother hj' hl' hl hu
  · obtain ⟨rfl, rfl⟩ | ⟨-, hj'⟩ := getElem?_of_set hj
    · exact (hother hi' hl hl' hu.symm).symm
    · exact h.single i j th₁ th₂ l l' hi' hj' hl hl' hu

theorem first_advance (hT : Traced E w) (h : Inv w) (hok : Allowed w th.pc) (hth : w.threads[tid]? = some th)
    (hn : th.pc.next E th.task.node pick w = some (e, pc)) (i : Nat) (th' : Thread N) (l : Login N)
    (hi : (w.advance E tid th e pc).threads[i]? = some th') (hl : th'.pc.session = some l) (t : Nat) (c : Conn N)
    (js : Json) (hs : (t, .sendJson c js) ∈ since (setsOffline l.user.id) (w.advance E tid th e pc).log) :
    ¬ IsLoginAck l.user.id js := by
  obtain ⟨-, hold | hnew⟩ := mem_since_advance hs
  · obtain ⟨rfl, rfl⟩ | ⟨-, hi'⟩ := getElem?_of_set hi
    · obtain ⟨l₀, hl₀, he, -⟩ | ⟨hpc, -⟩ := next_session hn hl
      · have hfirst := h.first i th l₀ hth hl₀ t c js
        rw [he] at hfirst
        exact hfirst hold
      · rw [hpc] at hok
        exact not_acked_of_allowed hT h hok hold
    · exact h.first i th' l hi' hl t c js hold
  · -- the thread that responds is done
    cases hnew
    intro ha
    obtain ⟨l₀, hl₀, he, -⟩ := trace_isLoginAck (hT.trace _ th hth) hn rfl ha
    obtain ⟨rfl, rfl⟩ | ⟨hne, hi'⟩ := getElem?_of_set hi
    · rw [(next_sendJson hn).1] at hl
      cases hl
    · exact hne (h.single _ i th th' l₀ l hth hi' hl₀ hl he).symm

theorem exclusive_advance (hT : Traced E w) (h : Inv w) (hth : w.threads[tid]? = some th)
    (hn : th.pc.next E th.task.node pick w = some (e, pc)) : ExclusiveSession (w.advance E tid th e pc) := by
  intro u l₁ l₂ l₃ t₁ t₂ c₁ c₂ j₁ j₂ h₁ h₂ hc hl
  rw [log_advance] at hl
  obtain rfl | ⟨l₃, x, rfl⟩ := List.eq_nil_or_concat l₃
  · -- the second response is the new effect
    obtain ⟨hlog, hx⟩ := List.append_inj' hl rfl
    cases hx
    by_contra hno
    have hall : ∀ x ∈ (t₁, Effect.sendJson c₁ j₁) :: l₂, setsOffline u x = false := by
      rw [List.forall_mem_cons]
      refine ⟨rfl, fun x hx => ?_⟩
      by_contra hx'
      exact hno ⟨x, hx, by simpa using hx'⟩
    have hm : (t₁, .sendJson c₁ j₁) ∈ since (setsOffline u) w.log := by
      rw [hlog, since_append hall]
      exact List.mem_append_right _ List.mem_cons_self
    obtain ⟨l, hs, rfl, -⟩ := trace_isLoginAck (hT.trace tid th hth) hn rfl h₂
    exact h.first tid th l hth hs t₁ c₁ j₁ hm h₁
  · rw [List.concat_eq_append, ← List.cons_append, ← List.append_assoc] at hl
    exact h.exclusive u l₁ l₂ l₃ t₁ t₂ c₁ c₂ j₁ j₂ h₁ h₂ hc (List.append_inj' hl rfl).1

end Advance

theorem inv_step (hE : E.Rules same) (hT : Traced E w) (h : Inv w) {a : Action N} (hok : Guarded w a)
    (hs : step E w a = some w') : Inv w' := by
  obtain ⟨task, _, hf, ht⟩ | ⟨hf, ht⟩ | ⟨tid, pick, th, e, pc, rfl, hth, hn, rfl⟩ := step_cases hs
  · refine inv_frame h hf fun i th l hi hl => ?_
    rw [ht] at hi
    obtain hi | ⟨_, rfl⟩ := getElem?_of_concat hi
    · exact hi
    · rw [session_initial (initial_start task)] at hl
      cases hl
  · exact inv_frame h hf fun i th l hi _ => ht ▸ hi
  · have hok' := hok th hth
    exact ⟨online_advance hE h hok' hn, single_advance hT h hok' hth hn, first_advance hT h hok' hth hn,
      exclusive_advance hT h hth hn⟩

/-- The same account is never logged in twice at the same time. -/
theorem session_exclusive (hE : E.Rules same) (w₀ w : World N) (h₀ : w₀.Fresh) (as : List (Action N))
    (hm : (cluster N E).Meets Guarded w₀ as) (hr : (cluster N E).run w₀ as = some w) : ExclusiveSession w := by
  have h : Traced E w ∧ Inv w := Machine.run_invariant (I := fun w => Traced E w ∧ Inv w)
    ⟨traced_fresh h₀, inv_fresh h₀⟩ (fun _ _ _ hi hok hs => ⟨hi.1.step hs, inv_step hE hi.1 hi.2 hok hs⟩) hm hr
  exact h.2.exclusive

def ackOf (js : Json) : Option Int :=
  match js.get? "msgid", js.get? "errno", js.get? "id" with
  | some (.int 2), some (.int 0), some (.int u) => some u
  | _, _, _ => none

def acks (w : World N) : List (Int × Conn N) :=
  w.log.filterMap fun
    | (_, .sendJson c js) => (ackOf js).map fun u => (u, c)
    | _ => none

theorem isLoginAck_of_ackOf {u : Int} {js : Json} (h : ackOf js = some u) : IsLoginAck u js := by
  unfold ackOf at h
  split at h
  · rename_i h₁ h₂ h₃
    cases h
    exact ⟨h₁, h₂, h₃⟩
  · cases h

omit [DecidableEq N] in
theorem not_exclusive_of_acks {u : Int} {c₁ c₂ : Conn N} (h : acks w = [(u, c₁), (u, c₂)]) (hc : c₁ ≠ c₂)
    (hno : w.log.any (setsOffline u) = false) : ¬ ExclusiveSession w := by
  have hsend {x : Nat × Effect N} {c : Conn N} (hx : (match x with
      | (_, .sendJson c js) => (ackOf js).map fun u => (u, c)
      | _ => none) = some (u, c)) : ∃ js, x.2 = .sendJson c js ∧ IsLoginAck u js := by
    split at hx
    · rename_i i c' js
      obtain ⟨v, hv, he⟩ := Option.map_eq_some_iff.mp hx
      cases he
      exact ⟨js, rfl, isLoginAck_of_ackOf hv⟩
    · cases hx
  obtain ⟨l₁, ⟨t₁, e₁⟩, l, hl, _, he₁, hrest⟩ := List.filterMap_eq_cons_iff.mp h
  obtain ⟨l₂, ⟨t₂, e₂⟩, l₃, rfl, _, he₂, _⟩ := List.filterMap_eq_cons_iff.mp hrest
  obtain ⟨j₁, rfl, h₁⟩ := hsend he₁
  obtain ⟨j₂, rfl, h₂⟩ := hsend he₂
  intro hE
  obtain ⟨x, hx, hoff⟩ := hE u l₁ l₂ l₃ t₁ t₂ c₁ c₂ j₁ j₂ h₁ h₂ hc (by simpa using hl)
  rw [List.any_eq_false] at hno
  exact hno x (by simp [hl, hx]) hoff

open Sample

def world : World Unit := { users := accounts }

def relogin : List (Action Unit) :=
  .start (.frame ⟨(), 0⟩ (loginFrame "alice" "a")) :: runs 0 8 ++
    .start (.frame ⟨(), 0⟩ (loginoutFrame 1)) :: runs 1 3 ++
      .start (.frame ⟨(), 1⟩ (loginFrame "alice" "a")) :: runs 2 8

theorem session_exclusive_relogin :
    ∃ w, (cluster Unit engine).run world relogin = some w ∧ ExclusiveSession w := by
  have h : ((cluster Unit engine).run world relogin).isSome = true ∧
      (cluster Unit engine).Meets Guarded world relogin := by decide +kernel
  obtain ⟨w, hw⟩ := Option.isSome_iff_exists.mp h.1
  exact ⟨w, hw, session_exclusive (Engine.strict_rules _) world w ⟨rfl, rfl, fun _ => rfl⟩ relogin
    h.2 hw⟩

/-- Two logins of alice that both read her state before either writes it. -/
def doubleLogin : List (Action Unit) :=
  .start (.frame ⟨(), 0⟩ (loginFrame "alice" "a")) :: .start (.frame ⟨(), 1⟩ (loginFrame "alice" "a")) ::
    runs 0 1 ++ runs 1 8 ++ runs 0 7

theorem doubleLogin_twice : ¬ ∀ (E : Engine) (w₀ w : World Unit) (as : List (Action Unit)),
    E.Rules (fun a b => a = b) → w₀.Fresh → (cluster Unit E).run w₀ as = some w → ExclusiveSession w := by
  intro h
  have hu : ((cluster Unit engine).run world doubleLogin).map (fun w => (acks w, w.log.any (setsOffline 1))) =
      some ([(1, ⟨(), 1⟩), (1, ⟨(), 0⟩)], false) := by decide +kernel
  obtain ⟨w, hw, hlog⟩ := Option.map_eq_some_iff.mp hu
  refine not_exclusive_of_acks (Prod.mk.inj hlog).1 (by decide) (Prod.mk.inj hlog).2 ?_
  exact h engine world w doubleLogin (Engine.strict_rules _) ⟨rfl, rfl, fun _ => rfl⟩ hw

end BridgeIM.Server.Exclusive
