import BridgeIM.Lib.History
import BridgeIM.Server.Users

namespace BridgeIM.Server.Presence

open Db Lib Model Model.UserModel

variable {E : Engine} {same : String → String → Bool}

/-- The points from which a handler does not change where users are present. -/
def quiet : Pc Unit → Bool
  | .isFriend .. | .findConn .. | .queryState .. | .publish .. | .findSubscribed .. | .insertOffline .. |
    .sendPayload .. | .sendJson .. | .done => true
  | _ => false

/-- The user whose presence a handler is in the middle of changing. -/
def moving : Pc Unit → Option Int
  | .insertConn l | .subscribe l => some l.user.id
  | .unsubscribe u | .updateOffline u => some u
  | _ => none

def channel : Nat × Effect Unit → Option Int
  | (_, .subscribe u) | (_, .unsubscribe u) => some u
  | _ => none

def isSubscribe : Nat × Effect Unit → Bool
  | (_, .subscribe _) => true
  | _ => false

def lastCommand (w : World Unit) (u : Int) : Option Bool := (lastFor channel (some u) w.log).map isSubscribe

/-- The table, the map and the Redis commands agree about every user, and the
insert of a login takes effect. -/
structure Present (w : World Unit) : Prop where
  agree : (∀ th ∈ w.threads, quiet th.pc = true) → ∀ u, (w.users.find u).isSome = true →
    (w.users.stateOf u = some .online ↔ u ∈ connMap w) ∧ (u ∈ connMap w ↔ lastCommand w u = some true)
  inserted : ∀ l tid u conn, w.log = l ++ [(tid, .insertConn u conn)] → (connMap w).lookup u = some conn
  acked : ∀ l tid u conn js, w.log = l ++ [(tid, .sendJson conn js)] → IsLoginAck u js →
    (connMap w).lookup u = some conn

/-- The requests are handled one at a time. -/
def OneAtATime (w : World Unit) : Action Unit → Prop
  | .start _ => ∀ th ∈ w.threads, quiet th.pc = true
  | .run tid _ => ∀ th ∈ w.threads[tid]?, th.pc ≠ .resetState
  | .listen .. => True

def PlainTexts (w : World Unit) : Action Unit → Prop
  | .run tid _ => ∀ th ∈ w.threads[tid]?, match th.pc with
    | .queryName _ name _ => Plain name
    | .insertUser _ user => Plain user.name ∧ Plain user.password ∧ user.state = State.offline.text
    | _ => True
  | _ => True

/-- What a handler relies on at the point where it stands. -/
def Stage (t : Table) (m : ConnMap Unit) (c : Int → Option Bool) : Pc Unit → Prop
  | .updateOnline l => (t.find l.user.id).isSome = true ∧ t.stateOf l.user.id ≠ some .online
  | .insertConn l => t.stateOf l.user.id = some .online ∧ l.user.id ∉ m
  | .subscribe l => t.stateOf l.user.id = some .online ∧ m.lookup l.user.id = some l.conn
  | .queryOffline l | .removeOffline l | .queryFriends l | .queryGroup l | .queryMembers l .. | .sendAck l =>
    m.lookup l.user.id = some l.conn
  | .unsubscribe u => u ∉ m
  | .updateOffline u => u ∉ m ∧ c u = some false
  | _ => True

/-- The table, the map and the last commands while one handler runs. -/
structure Local (t : Table) (m : ConnMap Unit) (c : Int → Option Bool) (pc : Pc Unit) : Prop where
  known : ∀ u, u ∈ m ∨ c u = some true → (t.find u).isSome = true
  agree : ∀ u, moving pc ≠ some u → (t.stateOf u = some .online ↔ u ∈ m) ∧ (u ∈ m ↔ c u = some true)
  stage : Stage t m c pc

variable {t : Table} {m : ConnMap Unit} {c : Int → Option Bool} {pc pc' : Pc Unit}

theorem Local.pass (h : Local t m c pc) (hm : moving pc = moving pc') (hs : Stage t m c pc') : Local t m c pc' :=
  ⟨h.known, fun u hu => h.agree u (hm ▸ hu), hs⟩

theorem local_updateOnline {l : Login Unit} (h : Local t m c (.updateOnline l)) :
    Local (t.updateState l.user.id .online) m c (.insertConn l) where
  known := by
    intro u hu
    rw [Table.isSome_find_updateState]
    exact h.known u hu
  agree := by
    intro u hu
    have hne : l.user.id ≠ u := fun he => hu (congrArg some he)
    rw [Table.stateOf_updateState, if_neg hne]
    exact h.agree u nofun
  stage := by
    obtain ⟨r, hr⟩ := Option.isSome_iff_exists.mp h.stage.1
    refine ⟨?_, fun hm => h.stage.2 ((h.agree _ nofun).1.mpr hm)⟩
    rw [Table.stateOf_updateState, if_pos rfl, hr]
    rfl

theorem local_insertConn {l : Login Unit} (h : Local t m c (.insertConn l)) :
    Local t (m.insertNew l.user.id l.conn) c (.subscribe l) := by
  have hm : m.insertNew l.user.id l.conn = m.insert l.user.id l.conn := if_neg h.stage.2
  have hmem (u : Int) (hu : u ≠ l.user.id) : u ∈ m.insert l.user.id l.conn ↔ u ∈ m := by
    rw [AList.mem_insert]
    exact or_iff_right hu
  rw [hm]
  refine ⟨fun u hu => ?_, fun u hu => ?_, h.stage.1, AList.lookup_insert m⟩
  · by_cases he : u = l.user.id
    · subst he
      exact Table.isSome_find_of_stateOf h.stage.1
    · rw [hmem u he] at hu
      exact h.known u hu
  · have hne : u ≠ l.user.id := fun he => hu (congrArg some he.symm)
    rw [hmem u hne]
    exact h.agree u hu

theorem local_subscribe {l : Login Unit} (h : Local t m c (.subscribe l)) :
    Local t m (Function.update c l.user.id (some true)) (.queryOffline l) := by
  refine ⟨fun u hu => ?_, fun u _ => ?_, h.stage.2⟩
  · by_cases he : u = l.user.id
    · subst he
      exact Table.isSome_find_of_stateOf h.stage.1
    · rw [Function.update_of_ne he] at hu
      exact h.known u hu
  · by_cases he : u = l.user.id
    · subst he
      have hin : l.user.id ∈ m := AList.lookup_isSome.mp (by rw [h.stage.2]; rfl)
      rw [Function.update_self]
      exact ⟨iff_of_true h.stage.1 hin, iff_of_true hin rfl⟩
    · rw [Function.update_of_ne he]
      exact h.agree u fun hm => he (Option.some.inj hm).symm

theorem local_erase {u : Int} (h : Local t m c pc) (hpc : moving pc = none) :
    Local t (m.erase u) c (.unsubscribe u) := by
  refine ⟨fun v hv => ?_, fun v hv => ?_, fun hm => (AList.mem_erase.mp hm).1 rfl⟩
  · exact h.known v (hv.imp_left fun hm => (AList.mem_erase.mp hm).2)
  · have hne : v ≠ u := fun he => hv (congrArg some he.symm)
    rw [AList.mem_erase, and_iff_right hne]
    exact h.agree v (hpc ▸ nofun)

theorem local_unsubscribe {u : Int} (h : Local t m c (.unsubscribe u)) :
    Local t m (Function.update c u (some false)) (.updateOffline u) := by
  refine ⟨fun v hv => ?_, fun v hv => ?_, h.stage, Function.update_self ..⟩
  · by_cases he : v = u
    · subst he
      rw [Function.update_self] at hv
      obtain hv | hv := hv
      · exact absurd hv h.stage
      · cases hv
    · rw [Function.update_of_ne he] at hv
      exact h.known v hv
  · have hne : v ≠ u := fun he => hv (congrArg some he.symm)
    rw [Function.update_of_ne hne]
    exact h.agree v hv

theorem local_updateOffline {u : Int} (h : Local t m c (.updateOffline u)) :
    Local (t.updateState u .offline) m c .done := by
  refine ⟨fun v hv => ?_, fun v _ => ?_, trivial⟩
  · rw [Table.isSome_find_updateState]
    exact h.known v hv
  · rw [Table.stateOf_updateState]
    by_cases he : u = v
    · subst he
      rw [if_pos rfl, h.stage.2]
      refine ⟨iff_of_false ?_ h.stage.1, iff_of_false h.stage.1 nofun⟩
      rw [Option.map_eq_some_iff]
      rintro ⟨_, _, hs⟩
      cases hs
    · rw [if_neg he]
      exact h.agree v fun hm => he (Option.some.inj hm)

theorem local_insert {i : Int} {name password : String} {t' : Table} (h : Local t m c pc) (hpc : moving pc = none)
    (ht : t.insert same i name password .offline = some t') : Local t' m c .done := by
  obtain ⟨_, hn⟩ := Table.find_lt_of_insert ht
  refine ⟨fun u hu => ?_, fun u _ => ?_, trivial⟩
  · rw [Table.find_insert ht]
    split
    · rfl
    · exact h.known u hu
  · obtain hs | ⟨rfl, _, hs⟩ := stateOf_insert ht u
    · rw [hs]
      exact h.agree u (hpc ▸ nofun)
    · have hu : ¬ (u ∈ m ∨ c u = some true) := by
        intro hu
        have hf := h.known u hu
        rw [hn] at hf
        cases hf
      rw [hs]
      exact ⟨iff_of_false nofun fun hm => hu (Or.inl hm),
        iff_of_false (fun hm => hu (Or.inl hm)) fun hc => hu (Or.inr hc)⟩

def still : Effect Unit → Bool
  | .insertUser .. | .updateState .. | .resetState | .insertConn .. | .eraseConn _ | .scanConn _ (some _) |
    .subscribe _ | .unsubscribe _ => false
  | _ => true

theorem next_quiet {pick : Option Int} {w : World Unit} {e : Effect Unit} (hq : quiet pc = true)
    (h : pc.next E () pick w = some (e, pc')) : quiet pc' = true ∧ still e = true := by
  cases pc <;> simp only [quiet, Bool.false_eq_true] at hq
  all_goals grind [Pc.next, quiet, still, Option.elim.eq_def]

theorem session_quiet (hq : quiet pc = true) : pc.session = none := by
  cases pc <;> first | rfl | cases hq

theorem quiet_stage (hq : quiet pc = true) : moving pc = none ∧ Stage t m c pc := by
  cases pc <;> first | exact ⟨rfl, trivial⟩ | cases hq

theorem Local.quiet (h : Local t m c pc) (hq : quiet pc = true) (hq' : quiet pc' = true) : Local t m c pc' := by
  obtain ⟨hm, _⟩ := quiet_stage (t := t) (m := m) (c := c) hq
  obtain ⟨hm', hs⟩ := quiet_stage (t := t) (m := m) (c := c) hq'
  exact h.pass (hm.trans hm'.symm) hs

theorem Local.start (h : Local t m c .done) (task : Task Unit) : Local t m c task.start := by
  have hi := initial_start task
  cases hp : task.start <;> rw [hp] at hi <;> first | exact h.pass rfl trivial | cases hi

theorem stage_checkLogin (hm : UserModel.Rules same E.users) {name : String} (hn : Plain name) (conn : Conn Unit)
    (password : String) (t : Table) : moving (checkLogin conn password (queryName E.users name t)) = none ∧
      Stage t m c (checkLogin conn password (queryName E.users name t)) := by
  rw [queryName_eq hm hn]
  cases hf : t.rows.find? (fun r => same r.name name) with
  | none => exact ⟨rfl, trivial⟩
  | some r =>
    have hr := Table.find_of_mem (List.mem_of_find?_eq_some hf)
    simp only [Option.map_some, Option.getD_some, checkLogin]
    split
    · exact ⟨rfl, trivial⟩
    split
    · exact ⟨rfl, trivial⟩
    split
    · exact ⟨rfl, trivial⟩
    · rename_i hs
      refine ⟨rfl, by rw [show t.find r.user.id = some r from hr]; rfl, ?_⟩
      rw [Table.stateOf, show t.find r.user.id = some r from hr]
      exact (state_user r).mp hs

theorem Local.nextGroup {l : Login Unit} (h : Local t m c pc) (hm : moving pc = none)
    (hl : m.lookup l.user.id = some l.conn) (todo : List GroupModel.Group) : Local t m c (nextGroup l todo) := by
  cases todo with
  | nil => exact h.pass hm hl
  | cons g todo => exact h.pass hm hl

abbrev Steady (w : World Unit) (pc : Pc Unit) : Prop := Local w.users (connMap w) (lastCommand w) pc

variable {w w' : World Unit} {pick : Option Int}

section Advance

variable {tid : Nat} {th : Thread Unit} {e : Effect Unit}

theorem lastCommand_advance (u : Int) : lastCommand (w.advance E tid th e pc) u =
    if channel (tid, e) = some u then some (isSubscribe (tid, e)) else lastCommand w u := by
  rw [lastCommand, log_advance, lastFor_concat]
  split <;> rfl

theorem lastCommand_subscribe (u : Int) :
    lastCommand (w.advance E tid th (.subscribe u) pc) = Function.update (lastCommand w) u (some true) := by
  funext v
  rw [lastCommand_advance, Function.update_apply]
  simp only [channel, Option.some.injEq, eq_comm (a := u)]
  rfl

theorem lastCommand_unsubscribe (u : Int) :
    lastCommand (w.advance E tid th (.unsubscribe u) pc) = Function.update (lastCommand w) u (some false) := by
  funext v
  rw [lastCommand_advance, Function.update_apply]
  simp only [channel, Option.some.injEq, eq_comm (a := u)]
  rfl

theorem lastCommand_none (h : channel (tid, e) = none) : lastCommand (w.advance E tid th e pc) = lastCommand w := by
  funext v
  rw [lastCommand_advance, h, if_neg nofun]

theorem steady_still (hs : still e = true) {p : Pc Unit} (h : Steady w p) : Steady (w.advance E tid th e pc) p := by
  have hu : (w.advance E tid th e pc).users = w.users := by
    cases e <;> first | rfl | cases hs
  have hm : connMap (w.advance E tid th e pc) = connMap w := by
    rw [connMap_advance]
    cases e with
    | scanConn conn found =>
      cases found with
      | none => rfl
      | some u => cases hs
    | _ => first | rfl | cases hs
  have hc : lastCommand (w.advance E tid th e pc) = lastCommand w :=
    lastCommand_none (by cases e <;> first | rfl | cases hs)
  rw [Steady, hu, hm, hc]
  exact h

theorem local_advance (hE : E.Rules same) (h : Steady w th.pc)
    (hone : th.pc ≠ .resetState) (hplain : PlainTexts w (.run tid pick)) (hth : w.threads[tid]? = some th)
    (hn : th.pc.next E th.task.node pick w = some (e, pc)) : Steady (w.advance E tid th e pc) pc := by
  have hpl := hplain th hth
  cases hpc : th.pc with
  | queryName conn name password =>
    rw [hpc] at hn h hpl
    cases hn
    obtain ⟨hm, hs⟩ := stage_checkLogin hE.users hpl conn password w.users
    exact steady_still rfl (h.pass hm.symm hs)
  | updateOnline l =>
    rw [hpc] at hn h
    cases hn
    have hl := local_updateOnline h
    rw [← onUsers_updateState (N := Unit) hE] at hl
    rw [Steady, connMap_advance, lastCommand_none rfl]
    exact hl
  | insertConn l =>
    rw [hpc] at hn h
    cases hn
    rw [Steady, connMap_advance, lastCommand_none rfl]
    exact local_insertConn h
  | subscribe l =>
    rw [hpc] at hn h
    cases hn
    rw [Steady, connMap_advance, lastCommand_subscribe]
    exact local_subscribe h
  | queryOffline l =>
    rw [hpc] at hn h
    cases hn
    refine steady_still rfl ?_
    split
    · exact h.pass rfl h.stage
    · exact h.pass rfl h.stage
  | removeOffline l | queryFriends l =>
    rw [hpc] at hn h
    cases hn
    exact steady_still rfl (h.pass rfl h.stage)
  | queryGroup l | queryMembers l g todo =>
    rw [hpc] at hn h
    cases hn
    refine steady_still rfl (h.nextGroup rfl ?_ _)
    exact h.stage
  | sendAck l =>
    rw [hpc] at hn h
    cases hn
    exact steady_still rfl (h.pass rfl trivial)
  | eraseConn u =>
    rw [hpc] at hn h
    cases hn
    rw [Steady, connMap_advance, lastCommand_none rfl]
    exact local_erase h rfl
  | unsubscribe u =>
    rw [hpc] at hn h
    cases hn
    rw [Steady, connMap_advance, lastCommand_unsubscribe]
    exact local_unsubscribe h
  | updateOffline u =>
    rw [hpc] at hn h
    cases hn
    have hl := local_updateOffline h
    rw [← onUsers_updateState (N := Unit) hE] at hl
    rw [Steady, connMap_advance, lastCommand_none rfl]
    exact hl
  | insertUser conn user =>
    rw [hpc] at hn h hpl
    cases hn
    rw [Steady, connMap_advance, lastCommand_none rfl]
    have hp : (Effect.insertUser user ((UserModel.insert E.users user w.users).map Prod.fst) : Effect Unit).PlainInsert :=
      hpl
    obtain ht | ⟨i, t', ht', ht⟩ := onUsers_insertUser hE hp w.users
    · rw [users_advance, ht]
      exact h.pass rfl trivial
    · rw [users_advance, ht]
      exact (local_insert h rfl ht').pass rfl trivial
  | scanConn conn =>
    rw [hpc] at hn h
    obtain ⟨u, hu, rfl, rfl⟩ | ⟨_, rfl, rfl⟩ := next_scan hn
    · have hin : u ∈ connMap w := AList.lookup_isSome.mp (by rw [connMap, hu]; rfl)
      obtain ⟨r, hr⟩ := Option.isSome_iff_exists.mp (h.known u (Or.inl hin))
      have hpos := (w.users.ids r (Table.mem_of_find hr)).1
      rw [Table.id_of_find hr] at hpos
      have hne : u ≠ -1 := by omega
      rw [if_neg hne, Steady, connMap_advance, lastCommand_none rfl]
      exact local_erase h rfl
    · exact steady_still rfl (h.pass rfl trivial)
  | resetState => exact absurd hpc hone
  | _ =>
    have hq : quiet th.pc = true := by rw [hpc]; rfl
    obtain ⟨hq', hst⟩ := next_quiet hq hn
    exact steady_still hst (h.quiet hq hq')

end Advance

/-- At most one handler changes presence at a time. -/
inductive Running (w : World Unit) : Prop
  | idle (hq : ∀ th ∈ w.threads, quiet th.pc = true) (h : Steady w .done)
  | busy (tid : Nat) (th : Thread Unit) (hth : w.threads[tid]? = some th)
      (hq : ∀ i th', i ≠ tid → w.threads[i]? = some th' → quiet th'.pc = true) (h : Steady w th.pc)

/-- What holds right after the insert of a login and after its response. -/
structure Recent (w : World Unit) : Prop where
  inserted : ∀ l tid u conn, w.log = l ++ [(tid, .insertConn u conn)] → (connMap w).lookup u = some conn
  acked : ∀ l tid u conn js, w.log = l ++ [(tid, .sendJson conn js)] → IsLoginAck u js →
    (connMap w).lookup u = some conn

theorem Running.steady (h : Running w) (hq : ∀ th ∈ w.threads, quiet th.pc = true) : Steady w .done := by
  cases h with
  | idle _ h => exact h
  | busy tid th hth _ h => exact h.quiet (hq th (List.mem_of_getElem? hth)) rfl

theorem steady_frame (hf : SameStores w w') {p : Pc Unit} (h : Steady w p) : Steady w' p := by
  have hm : connMap w' = connMap w := hf.map ()
  have hc : lastCommand w' = lastCommand w := by
    funext u
    rw [lastCommand, hf.log, lastCommand]
  rw [Steady, hf.users, hm, hc]
  exact h

theorem recent_frame (hf : SameStores w w') (h : Recent w) : Recent w' := by
  have hm : connMap w' = connMap w := hf.map ()
  constructor
  · rw [hf.log, hm]
    exact h.inserted
  · rw [hf.log, hm]
    exact h.acked

theorem running_same (hf : SameStores w w') (ht : w'.threads = w.threads) (h : Running w) : Running w' := by
  cases h with
  | idle hq h => exact .idle (ht ▸ hq) (steady_frame hf h)
  | busy tid th hth hq h => exact .busy tid th (ht ▸ hth) (ht ▸ hq) (steady_frame hf h)

theorem running_spawn (hf : SameStores w w') {task : Task Unit}
    (ht : w'.threads = w.threads ++ [⟨task, task.start⟩])
    (hq' : (∀ th ∈ w.threads, quiet th.pc = true) ∨ quiet (task.start (N := Unit)) = true) (h : Running w) :
    Running w' := by
  obtain hall | hnew := hq'
  · refine .busy w.threads.length ⟨task, task.start⟩ ?_ (fun i th' hi hth' => ?_) ?_
    · rw [ht, List.getElem?_concat_length]
    · rw [ht] at hth'
      obtain hth' | ⟨he, _⟩ := getElem?_of_concat hth'
      · exact hall th' (List.mem_of_getElem? hth')
      · exact absurd he hi
    · exact steady_frame hf ((h.steady hall).start task)
  · cases h with
    | idle hq h =>
      refine .idle (fun th hth => ?_) (steady_frame hf h)
      rw [ht] at hth
      obtain hth | hth := List.mem_append.mp hth
      · exact hq th hth
      · rw [List.mem_singleton.mp hth]
        exact hnew
    | busy tid th hth hq h =>
      have hlt := (List.getElem?_eq_some_iff.mp hth).1
      refine .busy tid th ?_ (fun i th' hi hth' => ?_) (steady_frame hf h)
      · rw [ht, List.getElem?_append_left hlt]
        exact hth
      · rw [ht] at hth'
        obtain hth' | ⟨_, rfl⟩ := getElem?_of_concat hth'
        · exact hq i th' hi hth'
        · exact hnew

section Step

variable {tid : Nat} {th : Thread Unit} {e : Effect Unit}

/-- A handler in the middle of its changes is the one that is running. -/
theorem Running.of_not_quiet (h : Running w) (hth : w.threads[tid]? = some th) (hq : quiet th.pc = false) :
    (∀ i th', i ≠ tid → w.threads[i]? = some th' → quiet th'.pc = true) ∧ Steady w th.pc := by
  cases h with
  | idle hall _ =>
    rw [hall th (List.mem_of_getElem? hth)] at hq
    cases hq
  | busy i th' hth' hall h =>
    by_cases hi : tid = i
    · subst hi
      rw [hth] at hth'
      cases hth'
      exact ⟨hall, h⟩
    · rw [hall tid th hi hth] at hq
      cases hq

theorem running_advance (hE : E.Rules same) (h : Running w) (hone : OneAtATime w (.run tid pick))
    (hplain : PlainTexts w (.run tid pick)) (hth : w.threads[tid]? = some th)
    (hn : th.pc.next E th.task.node pick w = some (e, pc)) : Running (w.advance E tid th e pc) := by
  have hself : (w.advance E tid th e pc).threads[tid]? = some { th with pc := pc } := getElem?_set_self hth
  cases hq : quiet th.pc with
  | false =>
    obtain ⟨hall, hs⟩ := h.of_not_quiet hth hq
    refine .busy tid _ hself (fun i th' hi hth' => ?_) (local_advance hE hs (hone th hth) hplain hth hn)
    obtain ⟨he, _⟩ | ⟨_, hth'⟩ := getElem?_of_set hth'
    · exact absurd he hi
    · exact hall i th' hi hth'
  | true =>
    obtain ⟨hq', hst⟩ := next_quiet hq hn
    cases h with
    | idle hall h =>
      refine .idle (fun th' hth' => ?_) (steady_still hst h)
      obtain ⟨i, hi⟩ := List.getElem?_of_mem hth'
      obtain ⟨_, rfl⟩ | ⟨_, hi⟩ := getElem?_of_set hi
      · exact hq'
      · exact hall th' (List.mem_of_getElem? hi)
    | busy i th₀ hth₀ hall h =>
      by_cases hi : i = tid
      · subst hi
        rw [hth] at hth₀
        cases hth₀
        refine .busy i _ hself (fun j th' hj hth' => ?_) ((steady_still hst h).quiet hq hq')
        obtain ⟨he, _⟩ | ⟨_, hth'⟩ := getElem?_of_set hth'
        · exact absurd he hj
        · exact hall j th' hj hth'
      · refine .busy i th₀ ?_ (fun j th' hj hth' => ?_) (steady_still hst h)
        · rw [threads_advance, List.getElem?_set_ne (Ne.symm hi)]
          exact hth₀
        · obtain ⟨_, rfl⟩ | ⟨_, hth'⟩ := getElem?_of_set hth'
          · exact hq'
          · exact hall j th' hj hth'

theorem recent_advance (hE : E.Rules same) (hT : Traced E w) (h : Running w) (hone : OneAtATime w (.run tid pick))
    (hplain : PlainTexts w (.run tid pick)) (hth : w.threads[tid]? = some th)
    (hn : th.pc.next E th.task.node pick w = some (e, pc)) : Recent (w.advance E tid th e pc) := by
  constructor
  · intro l i u conn hl
    cases (List.append_inj' hl rfl).2
    obtain ⟨l, hpc, rfl, rfl, rfl⟩ := next_insertConn hn
    have hs := (h.of_not_quiet hth (by rw [hpc]; rfl)).2
    exact (local_advance hE hs (hone th hth) hplain hth hn).stage.2
  · intro l i u conn js hl hack
    cases (List.append_inj' hl rfl).2
    obtain ⟨l, hsess, rfl, rfl⟩ := trace_isLoginAck (hT.trace tid th hth) hn rfl hack
    have hnq : quiet th.pc = false := by
      by_contra hq
      rw [session_quiet (Bool.eq_true_of_not_eq_false hq)] at hsess
      cases hsess
    have hs := (h.of_not_quiet hth hnq).2.stage
    obtain ⟨_, ⟨l', hpc, _⟩ | hpc⟩ := next_sendJson hn
    · rw [hpc] at hsess hs
      cases hsess
      rw [connMap_advance]
      exact hs
    · rw [hpc] at hsess
      cases hsess

end Step

theorem inv_step (hE : E.Rules same) (hT : Traced E w) (h : Running w) (hr : Recent w) {a : Action Unit}
    (hone : OneAtATime w a) (hplain : PlainTexts w a) (hs : step E w a = some w') : Running w' ∧ Recent w' := by
  obtain ⟨task, htask, hf, ht⟩ | ⟨hf, ht⟩ | ⟨tid, pick, th, e, pc, rfl, hth, hn, rfl⟩ := step_cases hs
  · refine ⟨running_spawn hf ht ?_ h, recent_frame hf hr⟩
    obtain rfl | hsub := htask
    · exact Or.inl hone
    · right
      cases task with
      | subscribed => rfl
      | _ => cases hsub
  · exact ⟨running_same hf ht h, recent_frame hf hr⟩
  · exact ⟨running_advance hE h hone hplain hth hn, recent_advance hE hT h hone hplain hth hn⟩

def AllOffline (w : World Unit) : Prop := ∀ r ∈ w.users.rows, r.state ≠ some .online

theorem running_fresh (h₀ : w.Fresh) (hoff : AllOffline w) : Running w := by
  have hnone (u : Int) : u ∉ connMap w := by
    rw [connMap, h₀.node]
    exact AList.notMem_empty u
  have hcmd (u : Int) : lastCommand w u = none := by
    rw [lastCommand, h₀.log]
    rfl
  refine .idle (fun th hth => ?_) ⟨fun u hu => ?_, fun u _ => ?_, trivial⟩
  · rw [h₀.threads] at hth
    cases hth
  · rw [hcmd] at hu
    exact absurd hu (not_or.mpr ⟨hnone u, (Option.some_ne_none _).symm⟩)
  · rw [hcmd]
    refine ⟨iff_of_false (fun ho => ?_) (hnone u), iff_of_false (hnone u) (Option.some_ne_none _).symm⟩
    obtain ⟨r, hr, hs⟩ := Option.bind_eq_some_iff.mp ho
    exact hoff r (Table.mem_of_find hr) hs

theorem recent_fresh (h₀ : w.Fresh) : Recent w := by
  constructor
  · intro l tid u conn hl
    rw [h₀.log] at hl
    simp at hl
  · intro l tid u conn js hl
    rw [h₀.log] at hl
    simp at hl

theorem present_of_inv (h : Running w) (hr : Recent w) : Present w where
  agree hq u _ := (h.steady hq).agree u nofun
  inserted := hr.inserted
  acked := hr.acked

/-- On a single node the table, the map and the subscriptions agree. -/
theorem presence_agrees (hE : E.Rules same) (w₀ w : World Unit) (h₀ : w₀.Fresh) (hoff : AllOffline w₀)
    (as : List (Action Unit)) (hone : (cluster Unit E).Meets OneAtATime w₀ as)
    (hplain : (cluster Unit E).Meets PlainTexts w₀ as) (hr : (cluster Unit E).run w₀ as = some w) : Present w := by
  have h : Traced E w ∧ Running w ∧ Recent w :=
    Machine.run_invariant (I := fun w => Traced E w ∧ Running w ∧ Recent w)
      ⟨traced_fresh h₀, running_fresh h₀ hoff, recent_fresh h₀⟩
      (fun _ _ _ hi hok hs => ⟨hi.1.step hs, inv_step hE hi.1 hi.2.1 hi.2.2 hok.1 hok.2 hs⟩)
      (Machine.meets_and hone hplain) hr
  exact present_of_inv h.2.1 h.2.2

instance decidableOneAtATime (w : World Unit) : ∀ a : Action Unit, Decidable (OneAtATime w a)
  | .start _ => inferInstanceAs (Decidable (∀ th ∈ w.threads, quiet th.pc = true))
  | .run tid _ =>
    decidable_of_iff (∀ th ∈ w.threads[tid]?, (match th.pc with | .resetState => true | _ => false) = false) (by
      refine forall₂_congr fun th _ => ?_
      cases th.pc <;> simp)
  | .listen .. => isTrue trivial

instance decidablePlainTexts (w : World Unit) : ∀ a : Action Unit, Decidable (PlainTexts w a)
  | .run tid _ =>
    have : ∀ pc : Pc Unit, Decidable (match pc with
        | .queryName _ name _ => Plain name
        | .insertUser _ user => Plain user.name ∧ Plain user.password ∧ user.state = State.offline.text
        | _ => True) := by
      intro pc
      split <;> infer_instance
    inferInstanceAs (Decidable (∀ th ∈ w.threads[tid]?, _))
  | .start _ | .listen .. => isTrue trivial

instance (w : World Unit) : Decidable (AllOffline w) :=
  inferInstanceAs (Decidable (∀ r ∈ w.users.rows, r.state ≠ some .online))

open Sample

def world : World Unit := { users := accounts }

def regFrame (name password : String) : Json :=
  .obj [("msgid", .int 4), ("name", .str name), ("password", .str password)]

def visit : List (Action Unit) :=
  .start (.frame ⟨(), 0⟩ (regFrame "carol" "c")) :: runs 0 2 ++
    .start (.frame ⟨(), 1⟩ (loginFrame "alice" "a")) :: runs 1 8 ++
      .start (.frame ⟨(), 2⟩ (loginFrame "alice" "a")) :: runs 2 2 ++
        [.start (.close ⟨(), 1⟩), .run 3 (some 1), .run 3 none, .run 3 none]

theorem presence_agrees_visit : ∃ w, (cluster Unit engine).run world visit = some w ∧ Present w := by
  have h : ((cluster Unit engine).run world visit).isSome = true ∧ (cluster Unit engine).Meets OneAtATime world visit ∧
      (cluster Unit engine).Meets PlainTexts world visit := by decide +kernel
  obtain ⟨w, hw⟩ := Option.isSome_iff_exists.mp h.1
  exact ⟨w, hw, presence_agrees (Engine.strict_rules _) world w ⟨rfl, rfl, fun _ => rfl⟩ (by decide) visit h.2.1 h.2.2 hw⟩

/-- A registration whose name ends the literal and brings a state of its own. -/
def onlineName : String := "eve','e','online')#"

def register : List (Action Unit) := .start (.frame ⟨(), 0⟩ (regFrame onlineName "e")) :: runs 0 2

theorem register_absent : ¬ ∀ (E : Engine) (w₀ w : World Unit) (as : List (Action Unit)),
    E.Rules (fun a b => a = b) → w₀.Fresh → AllOffline w₀ → (cluster Unit E).Meets OneAtATime w₀ as →
      (cluster Unit E).run w₀ as = some w → Present w := by
  intro h
  have hu : ((cluster Unit engine).run world register).map (fun w => (w.threads.all (fun th => quiet th.pc),
      w.users.stateOf 3, (connMap w).lookup 3)) = some (true, some .online, none) ∧
        (cluster Unit engine).Meets OneAtATime world register := by decide +kernel
  obtain ⟨w, hw, hv⟩ := Option.map_eq_some_iff.mp hu.1
  obtain ⟨hq, hs, hm⟩ := Prod.mk.inj hv |>.imp_right Prod.mk.inj
  have hp := h engine world w register (Engine.strict_rules _) ⟨rfl, rfl, fun _ => rfl⟩ (by decide) hu.2 hw
  have hin := (hp.agree (List.all_eq_true.mp hq) 3 (Table.isSome_find_of_stateOf hs)).1.mp hs
  exact AList.lookup_eq_none.mp hm hin

end BridgeIM.Server.Presence
