import BridgeIM.Db.SingleCaller
import BridgeIM.Model.GroupModel

namespace BridgeIM.Model.QueryGroup

open CString Lib Db ConnectionPool PoolLedger SingleCaller UserModel GroupModel

/-- The primary keys of `AllGroup` and `GroupUser`. -/
structure Keyed (t : GroupModel.Table) : Prop where
  groups : (t.groups.map AllGroup.id).Nodup
  members : (t.members.map fun b => (b.groupid, b.userid)).Nodup

/-- Where a call of `queryGroup` stands. The numbers are those of the calls of
`getConnection` for `session` and `memberSession`. -/
inductive Place
  | enter
  | session (i : Nat)
  | each (i : Nat) (groups todo : List Group)
  | memberSession (i : Nat) (groups : List Group) (group : Group) (todo : List Group) (j : Nat)
  | memberEnd (i : Nat) (groups todo : List Group) (j : Nat)
  | leave (i : Nat) (groups : List Group)
  | returned (groups : List Group)
  deriving DecidableEq, Repr

structure State where
  pool : Pool
  place : Place
  deriving DecidableEq

/-- What a call of `getConnection` has returned: a connection or `nullptr`. -/
def answer (p : Pool) (i : Nat) : Option Bool :=
  match p.callers[i]? with
  | some (.holding _) => some true
  | some .returned => some false
  | _ => none

/-- The moves of the pool that are possible at a place. A connection is given
back when its session ends. -/
def Place.lets (p : Pool) (x : Place) : ConnectionPool.Move → Bool
  | .produce _ | .critical | .spurious => true
  | .caller k _ =>
    match x with
    | .session i | .memberSession _ _ _ _ i => decide (k = i) && (answer p i).isNone
    | .memberEnd _ _ _ i | .leave i _ => decide (k = i)
    | _ => false
  | .call | .destruct => false

inductive Move
  | go
  | pool (a : ConnectionPool.Move)
  deriving DecidableEq, Repr

variable (c : PoolConfig) (t : GroupModel.Table) (users : UserModel.Table) (userid : Int)

def State.open (s : State) (place : Nat → Place) : State where
  pool := { s.pool with callers := s.pool.callers ++ [.enter] }
  place := place s.pool.callers.length

/-- The next step of `queryGroup` itself. A session without a connection finds
no rows. -/
def State.go (s : State) : Option State :=
  match s.place with
  | .enter => some (s.open .session)
  | .session i => (answer s.pool i).map fun ok =>
    { s with place := .each i [] (if ok then GroupModel.queryGroup userid t else []) }
  | .each i groups (group :: todo) => some (s.open (.memberSession i groups group todo))
  | .memberSession i groups group todo j => (answer s.pool j).map fun ok =>
    { s with place := .memberEnd i (groups ++
      [{ group with users := group.users ++ if ok then queryMembers group.id t users else [] }]) todo j }
  | .memberEnd i groups todo j =>
    if s.pool.callers[j]? = some .returned then some { s with place := .each i groups todo } else none
  | .each i groups [] => some { s with place := .leave i groups }
  | .leave i groups =>
    if s.pool.callers[i]? = some .returned then some { s with place := .returned groups } else none
  | .returned _ => none

def step (s : State) : Move → Option State
  | .go => s.go t users userid
  | .pool a => if s.place.lets s.pool a then (ConnectionPool.step c s.pool a).map fun p => { s with pool := p } else none

/-- One call of `queryGroup`, with the pool it borrows from. -/
def queries : Machine State Move := ⟨step c t users userid⟩

/-- `createConnection` succeeds well within the timeout. -/
def InTime (s : State) : Move → Prop
  | .go => True
  | .pool a => SingleCaller.InTime c s.pool a

instance (s : State) : ∀ a, Decidable (InTime c s a)
  | .go => inferInstanceAs (Decidable True)
  | .pool a => inferInstanceAs (Decidable (SingleCaller.InTime c s.pool a))

def member (r : Record) (b : Member) : GroupUser :=
  { r.user with password := "", role := (b.grouprole.map cstring).getD "" }

/-- Every group of the user once, with its members, each of them once. -/
structure Complete (groups : List Group) : Prop where
  nodup : (groups.map Group.id).Nodup
  ids : ∀ id, id ∈ groups.map Group.id ↔
    ∃ a ∈ t.groups, a.id = id ∧ ∃ b ∈ t.members, b.groupid = id ∧ b.userid = userid
  rows : ∀ g ∈ groups, ∃ a ∈ t.groups, a.id = g.id ∧ g.name = cstring a.groupname ∧
    g.desc = (a.groupdesc.map cstring).getD ""
  single : ∀ g ∈ groups, (g.users.map fun u => u.id).Nodup
  members : ∀ g ∈ groups, ∀ u, u ∈ g.users ↔ ∃ r ∈ users.rows, ∃ b ∈ t.members,
    b.groupid = g.id ∧ b.userid = r.id ∧ u = member r b

/-- The user is in a group with a member that `User` knows. -/
def Accompanied (t : GroupModel.Table) (users : UserModel.Table) (userid : Int) : Prop :=
  ∃ a ∈ t.groups, (∃ b ∈ t.members, b.groupid = a.id ∧ b.userid = userid) ∧
    ∃ r ∈ users.rows, ∃ b ∈ t.members, b.groupid = a.id ∧ b.userid = r.id

def Idle (p : Pool) : Prop := ∀ x ∈ p.callers, x = .returned

def Only (p : Pool) (i : Nat) : Prop := ∀ x ∈ p.callers.set i .returned, x = .returned

/-- One call holds its connection, and only one other has not returned. -/
structure Both (p : Pool) (i j : Nat) : Prop where
  ne : i ≠ j
  holding : Holding p i
  rest : ∀ x ∈ (p.callers.set j .returned).set i .returned, x = .returned

variable {c t users userid} {p p' : Pool} {i j k : Nat}

theorem mem_of_lookup {l : List Caller} (h : ∀ x ∈ l, x = .returned) {k : Nat} (hk : l[k]? = some .inside) : False := by
  obtain ⟨_, hg⟩ := List.getElem?_eq_some_iff.mp hk
  cases h _ (List.mem_of_getElem? hk)

theorem Idle.alone (h : Idle p) (k : Nat) : Alone p k := fun _ _ hk => mem_of_lookup h hk

theorem Only.alone (h : Only p i) : Alone p i := by
  intro k hk hin
  rw [← List.getElem?_set_ne (Ne.symm hk)] at hin
  exact mem_of_lookup h hin

theorem Both.alone (h : Both p i j) : Alone p j := by
  intro k hk hin
  by_cases hi : k = i
  · obtain ⟨conn, hc⟩ := h.holding
    rw [hi, hc] at hin
    cases hin
  · rw [← List.getElem?_set_ne (Ne.symm hk), ← List.getElem?_set_ne (Ne.symm hi)] at hin
    exact mem_of_lookup h.rest hin

theorem Only.lent (h : Only p i) : lentOthers p i = 0 :=
  total_eq_zero fun x hx => by
    rw [h x hx]
    rfl

theorem Both.lent (h : Both p i j) : (lentOthers p j).card = 1 := by
  obtain ⟨conn, hc⟩ := h.holding
  have hi : (p.callers.set j .returned)[i]? = some (.holding conn) := by rw [List.getElem?_set_ne (Ne.symm h.ne), hc]
  have hz : total lentBy ((p.callers.set j .returned).set i .returned) = 0 := total_eq_zero fun x hx => by
    rw [h.rest x hx]
    rfl
  have ht := total_set (f := lentBy) hi .returned
  rw [hz] at ht
  have he : lentOthers p j = {conn} := by simpa [lentOthers] using ht.symm
  rw [he, Multiset.card_singleton]

theorem Only.room (h : Only p i) (hc : 0 < c.maxSize) : Room c p i := by
  rw [Room, h.lent]
  exact hc

theorem Both.room (h : Both p i j) : Room c p j ↔ 2 ≤ c.maxSize := by
  rw [Room, h.lent]
  omega

theorem Only.frame (h : Only p i) (hf : Frame p p' i) : Only p' i := by
  rw [Only, hf.others]
  exact h

theorem Both.frame (h : Both p i j) (hf : Frame p p' j) : Both p' i j := by
  refine ⟨h.ne, ?_, by rw [hf.others]; exact h.rest⟩
  obtain ⟨conn, hc⟩ := h.holding
  exact ⟨conn, by rw [hf.lookup h.ne, hc]⟩

theorem Only.congr (h : Only p i) (hc : p'.callers = p.callers) : Only p' i := by
  rw [Only, hc]
  exact h

theorem Idle.open (h : Idle p) : Only { p with callers := p.callers ++ [.enter] } p.callers.length := by
  intro x hx
  simp only [List.set_append_right _ _ le_rfl, Nat.sub_self, List.set_cons_zero, List.mem_append, List.mem_singleton] at hx
  exact hx.elim (h x) id

theorem Only.open (h : Only p i) (hi : Holding p i) :
    Both { p with callers := p.callers ++ [.enter] } i p.callers.length := by
  obtain ⟨conn, hc⟩ := hi
  have hlen := (List.getElem?_eq_some_iff.mp hc).1
  refine ⟨Nat.ne_of_lt hlen, ⟨conn, ?_⟩, ?_⟩
  · rw [List.getElem?_append_left hlen, hc]
  · have he : ((p.callers ++ [Caller.enter]).set p.callers.length .returned).set i .returned =
        p.callers.set i .returned ++ [.returned] := by
      rw [List.set_append_right _ _ le_rfl, Nat.sub_self, List.set_cons_zero, List.set_append_left _ _ hlen]
    intro x hx
    rw [he, List.mem_append, List.mem_singleton] at hx
    exact hx.elim (h x) id

theorem set_returned (h : p.callers[k]? = some .returned) : p.callers.set k .returned = p.callers := by
  obtain ⟨hlen, hk⟩ := List.getElem?_eq_some_iff.mp h
  rw [← hk, List.set_getElem_self]

theorem Both.only (h : Both p i j) (hj : Returned p j) : Only p i := by
  have hr := h.rest
  rwa [set_returned hj] at hr

theorem Only.idle (h : Only p i) (hi : Returned p i) : Idle p := by
  have hr : ∀ x ∈ p.callers.set i .returned, x = .returned := h
  rwa [set_returned hi] at hr

theorem answer_of_holding (h : Holding p k) : answer p k = some true := by
  obtain ⟨conn, hk⟩ := h
  rw [answer, hk]

theorem answer_of_returned (h : Returned p k) : answer p k = some false := by
  rw [Returned] at h
  rw [answer, h]

theorem answer_of_asking (h : Asking p k) : answer p k = none := by
  obtain hk | hk | ⟨b, hk⟩ | ⟨hk, -⟩ := h
  all_goals rw [answer, hk]

def filled (c : PoolConfig) (t : GroupModel.Table) (users : UserModel.Table) (g : Group) : Group :=
  { g with users := g.users ++ if 2 ≤ c.maxSize then queryMembers g.id t users else [] }

def result (c : PoolConfig) (t : GroupModel.Table) (users : UserModel.Table) (userid : Int) : List Group :=
  (GroupModel.queryGroup userid t).map (filled c t users)

/-- What holds at a place. The groups that are filled and those to fill make up
the result. -/
def Stage (c : PoolConfig) (t : GroupModel.Table) (users : UserModel.Table) (userid : Int) (p : Pool) : Place → Prop
  | .enter => Idle p
  | .session i => Only p i ∧ Served c p i
  | .each i groups todo => Only p i ∧ Holding p i ∧ groups ++ todo.map (filled c t users) = result c t users userid
  | .memberSession i groups group todo j => Both p i j ∧ Served c p j ∧
    groups ++ (group :: todo).map (filled c t users) = result c t users userid
  | .memberEnd i groups todo j => Both p i j ∧ Giving p j ∧ groups ++ todo.map (filled c t users) = result c t users userid
  | .leave i groups => Only p i ∧ Giving p i ∧ groups = result c t users userid
  | .returned groups => Idle p ∧ groups = result c t users userid

structure Inv (c : PoolConfig) (t : GroupModel.Table) (users : UserModel.Table) (userid : Int) (s : State) : Prop where
  sound : Sound c s.pool
  running : s.pool.isRunning = true
  stage : Stage c t users userid s.pool s.place

variable {s s' : State}

theorem own_of_lets {x : Place} {a : ConnectionPool.Move} (h : x.lets p a = true)
    (hx : ∀ i b, x.lets p (.caller i b) = true → i = k) : Own k a := by
  cases a with
  | caller i b => exact hx i b h
  | call | destruct => cases h
  | produce | critical | spurious => trivial

theorem callers_of_still {x : Place} (h : Sound c p) (hr : p.isRunning = true) (ha : Alone p k)
    (hk : p.callers[k]? ≠ some .inside) {a : ConnectionPool.Move} (hl : x.lets p a = true)
    (hx : ∀ i b, x.lets p (.caller i b) = false) (hs : ConnectionPool.step c p a = some p') :
    p'.isRunning = true ∧ p'.callers = p.callers := by
  have hown : Own k a := own_of_lets hl fun i b hb => by
    rw [hx] at hb
    cases hb
  refine ⟨(frame_step h hr ha hown hs).running, still_step h hr ha hk hown ?_ hs⟩
  rintro b rfl
  rw [hx] at hl
  cases hl

theorem served_pool {x : Place} (h : Sound c p) (hr : p.isRunning = true) (ha : Alone p k) (hk : Served c p k)
    {a : ConnectionPool.Move} (hl : x.lets p a = true)
    (hx : ∀ i b, x.lets p (.caller i b) = true → i = k ∧ answer p k = none)
    (htime : SingleCaller.InTime c p a) (hs : ConnectionPool.step c p a = some p') : Frame p p' k ∧ Served c p' k := by
  have hown : Own k a := own_of_lets hl fun i b hb => (hx i b hb).1
  refine ⟨frame_step h hr ha hown hs, served_step h hr ha hk hown ?_ htime hs⟩
  rintro b rfl hh
  have hn := (hx k b hl).2
  rw [answer_of_holding hh] at hn
  cases hn

theorem giving_pool {x : Place} (h : Sound c p) (hr : p.isRunning = true) (ha : Alone p k) (hk : Giving p k)
    {a : ConnectionPool.Move} (hl : x.lets p a = true) (hx : ∀ i b, x.lets p (.caller i b) = true → i = k)
    (hs : ConnectionPool.step c p a = some p') : Frame p p' k ∧ Giving p' k := by
  have hown : Own k a := own_of_lets hl hx
  exact ⟨frame_step h hr ha hown hs, giving_step h hr ha hk hown hs⟩

theorem stage_pool (h : Inv c t users userid s) {a : ConnectionPool.Move} (hl : s.place.lets s.pool a = true)
    (htime : SingleCaller.InTime c s.pool a) (hs : ConnectionPool.step c s.pool a = some p') :
    p'.isRunning = true ∧ Stage c t users userid p' s.place := by
  obtain ⟨hsound, hrun, hstage⟩ := h
  obtain ⟨p, x⟩ := s
  cases x with
  | enter =>
    have hi : Idle p := hstage
    obtain ⟨hr, hc⟩ := callers_of_still hsound hrun (hi.alone 0) (mem_of_lookup hi) hl (fun _ _ => rfl) hs
    exact ⟨hr, by rwa [Stage, Idle, hc]⟩
  | returned groups =>
    obtain ⟨hi, hg⟩ : Idle p ∧ _ := hstage
    obtain ⟨hr, hc⟩ := callers_of_still hsound hrun (hi.alone 0) (mem_of_lookup hi) hl (fun _ _ => rfl) hs
    exact ⟨hr, by rwa [Idle, hc], hg⟩
  | each i groups todo =>
    obtain ⟨ho, ⟨conn, hh⟩, hg⟩ : Only p i ∧ Holding p i ∧ _ := hstage
    obtain ⟨hr, hc⟩ := callers_of_still hsound hrun ho.alone (by simp [hh]) hl (fun _ _ => rfl) hs
    exact ⟨hr, ho.congr hc, ⟨conn, by rw [hc, hh]⟩, hg⟩
  | session i =>
    obtain ⟨ho, hserved⟩ : Only p i ∧ Served c p i := hstage
    obtain ⟨hf, hserved⟩ := served_pool hsound hrun ho.alone hserved hl
      (fun k b hb => by simpa [Place.lets] using hb) htime hs
    exact ⟨hf.running, ho.frame hf, hserved⟩
  | memberSession i groups group todo j =>
    obtain ⟨hb, hserved, hg⟩ : Both p i j ∧ Served c p j ∧ _ := hstage
    obtain ⟨hf, hserved⟩ := served_pool hsound hrun hb.alone hserved hl
      (fun k b hb => by simpa [Place.lets] using hb) htime hs
    exact ⟨hf.running, hb.frame hf, hserved, hg⟩
  | memberEnd i groups todo j =>
    obtain ⟨hb, hgive, hg⟩ : Both p i j ∧ Giving p j ∧ _ := hstage
    obtain ⟨hf, hgive⟩ := giving_pool hsound hrun hb.alone hgive hl (fun k b hb => by simpa [Place.lets] using hb) hs
    exact ⟨hf.running, hb.frame hf, hgive, hg⟩
  | leave i groups =>
    obtain ⟨ho, hgive, hg⟩ : Only p i ∧ Giving p i ∧ _ := hstage
    obtain ⟨hf, hgive⟩ := giving_pool hsound hrun ho.alone hgive hl (fun k b hb => by simpa [Place.lets] using hb) hs
    exact ⟨hf.running, ho.frame hf, hgive, hg⟩

theorem served_holding (h : Served c p k) (hr : Room c p k) {ok : Bool} (ha : answer p k = some ok) :
    ok = true ∧ Holding p k := by
  obtain ⟨hk, -⟩ | ⟨hk, -⟩ | ⟨hk, hn⟩ := h
  · rw [answer_of_asking hk] at ha
    cases ha
  · rw [answer_of_holding hk] at ha
    exact ⟨(Option.some.inj ha).symm, hk⟩
  · exact absurd hr hn

theorem served_answer (h : Served c p k) {ok : Bool} (ha : answer p k = some ok) :
    (ok = true ↔ Room c p k) ∧ Giving p k := by
  obtain ⟨hk, -⟩ | ⟨hk, hn⟩ | ⟨hk, hn⟩ := h
  · rw [answer_of_asking hk] at ha
    cases ha
  · rw [answer_of_holding hk] at ha
    cases ha
    exact ⟨iff_of_true rfl hn, Or.inl hk⟩
  · rw [answer_of_returned hk] at ha
    cases ha
    exact ⟨iff_of_false Bool.false_ne_true hn, Or.inr (Or.inl hk)⟩

theorem stage_go (h : Inv c t users userid s) (hc : 0 < c.maxSize) (hs : s.go t users userid = some s') :
    Sound c s'.pool ∧ s'.pool.isRunning = true ∧ Stage c t users userid s'.pool s'.place := by
  obtain ⟨hsound, hrun, hstage⟩ := h
  obtain ⟨p, x⟩ := s
  have hcall : Sound c { p with callers := p.callers ++ [.enter] } := sound_step (a := .call) hsound rfl
  cases x with
  | enter =>
    have hi : Idle p := hstage
    cases hs
    exact ⟨hcall, hrun, hi.open, served_call hsound⟩
  | returned groups => cases hs
  | each i groups todo =>
    obtain ⟨ho, hh, hg⟩ : Only p i ∧ Holding p i ∧ _ := hstage
    cases todo with
    | nil =>
      cases hs
      exact ⟨hsound, hrun, ho, Or.inl hh, by simpa using hg⟩
    | cons group todo =>
      cases hs
      exact ⟨hcall, hrun, ho.open hh, served_call hsound, hg⟩
  | session i =>
    obtain ⟨ho, hserved⟩ : Only p i ∧ Served c p i := hstage
    obtain ⟨ok, ha, rfl⟩ := Option.map_eq_some_iff.mp hs
    obtain ⟨rfl, hh⟩ := served_holding hserved (ho.room hc) ha
    exact ⟨hsound, hrun, ho, hh, rfl⟩
  | memberSession i groups group todo j =>
    obtain ⟨hb, hserved, hg⟩ : Both p i j ∧ Served c p j ∧ _ := hstage
    obtain ⟨ok, ha, rfl⟩ := Option.map_eq_some_iff.mp hs
    obtain ⟨hok, hgive⟩ := served_answer hserved ha
    refine ⟨hsound, hrun, hb, hgive, ?_⟩
    simp only [hok, hb.room]
    rw [← hg, List.map_cons, List.append_assoc, List.singleton_append, filled]
  | memberEnd i groups todo j =>
    obtain ⟨hb, hgive, hg⟩ : Both p i j ∧ Giving p j ∧ _ := hstage
    obtain ⟨hj, hs⟩ := Option.ite_none_right_eq_some.mp hs
    cases hs
    exact ⟨hsound, hrun, hb.only hj, hb.holding, hg⟩
  | leave i groups =>
    obtain ⟨ho, hgive, hg⟩ : Only p i ∧ Giving p i ∧ _ := hstage
    obtain ⟨hi, hs⟩ := Option.ite_none_right_eq_some.mp hs
    cases hs
    exact ⟨hsound, hrun, ho.idle hi, hg⟩

theorem inv_step (h : Inv c t users userid s) (hc : 0 < c.maxSize) {a : Move} (htime : InTime c s a)
    (hs : step c t users userid s a = some s') : Inv c t users userid s' := by
  cases a with
  | go =>
    obtain ⟨hsound, hrun, hstage⟩ := stage_go h hc hs
    exact ⟨hsound, hrun, hstage⟩
  | pool a =>
    obtain ⟨hl, hs⟩ := Option.ite_none_right_eq_some.mp hs
    obtain ⟨p, hp, rfl⟩ := Option.map_eq_some_iff.mp hs
    obtain ⟨hrun, hstage⟩ := stage_pool h hl htime hp
    exact ⟨sound_step h.sound hp, hrun, hstage⟩

def Place.left (userid : Int) (t : GroupModel.Table) : Place → Nat
  | .enter => 3 * (GroupModel.queryGroup userid t).length + 4
  | .session _ => 3 * (GroupModel.queryGroup userid t).length + 3
  | .each _ _ todo => 3 * todo.length + 2
  | .memberSession _ _ _ todo _ => 3 * todo.length + 4
  | .memberEnd _ _ todo _ => 3 * todo.length + 3
  | .leave .. => 1
  | .returned _ => 0

def wait (c : PoolConfig) (s : State) : Nat :=
  match s.place with
  | .session k | .memberSession _ _ _ _ k => askRank c s.pool k
  | .memberEnd _ _ _ k | .leave k _ => giveRank s.pool k
  | _ => 0

def Advances (c : PoolConfig) (t : GroupModel.Table) (users : UserModel.Table) (userid : Int) (s : State) : Prop :=
  (∃ s', s.go t users userid = some s' ∧ s'.place.left userid t < s.place.left userid t) ∨
    ∃ a s', InTime c s (.pool a) ∧ step c t users userid s (.pool a) = some s' ∧ s'.place = s.place ∧ wait c s' < wait c s

theorem lets_of_own {x : Place} {a : ConnectionPool.Move} (h : Own k a) (hx : ∀ b, x.lets p (.caller k b) = true) :
    x.lets p a = true := by
  cases a with
  | caller i b =>
    cases h
    exact hx b
  | call | destruct => exact absurd h id
  | produce | critical | spurious => rfl

theorem advances_of_pool {a : ConnectionPool.Move} (hl : s.place.lets s.pool a = true)
    (ht : SingleCaller.InTime c s.pool a) (hs : ConnectionPool.step c s.pool a = some p')
    (hw : wait c { s with pool := p' } < wait c s) : Advances c t users userid s :=
  Or.inr ⟨a, { s with pool := p' }, ht, by rw [step, if_pos hl, hs, Option.map_some], rfl, hw⟩

theorem served_goes (h : Served c p k) : Asking p k ∨ ∃ ok, answer p k = some ok := by
  obtain ⟨hk, -⟩ | ⟨hk, -⟩ | ⟨hk, -⟩ := h
  · exact Or.inl hk
  · exact Or.inr ⟨true, answer_of_holding hk⟩
  · exact Or.inr ⟨false, answer_of_returned hk⟩

theorem advances (h : Inv c t users userid s) (hi : 0 < c.initSize) (hc : 0 < c.maxSize)
    (hn : ∀ groups, s.place ≠ .returned groups) : Advances c t users userid s := by
  obtain ⟨hsound, hrun, hstage⟩ := h
  obtain ⟨p, x⟩ := s
  cases x with
  | enter => exact Or.inl ⟨_, rfl, by simp [State.open, Place.left]⟩
  | returned groups => exact absurd rfl (hn groups)
  | each i groups todo =>
    cases todo with
    | nil => exact Or.inl ⟨_, rfl, by simp [Place.left]⟩
    | cons group todo => exact Or.inl ⟨_, rfl, by simp only [State.open, Place.left, List.length_cons]; omega⟩
  | session i =>
    obtain ⟨ho, hserved⟩ : Only p i ∧ Served c p i := hstage
    obtain hk | ⟨ok, ha⟩ := served_goes hserved
    · obtain ⟨a, p', hown, ht, hs, hw⟩ := askRank_step hsound hrun ho.alone hk hi
      exact advances_of_pool (lets_of_own hown fun b => by simp [Place.lets, answer_of_asking hk]) ht hs hw
    · obtain ⟨rfl, -⟩ := served_holding hserved (ho.room hc) ha
      exact Or.inl ⟨_, Option.map_eq_some_iff.mpr ⟨_, ha, rfl⟩, by simp [Place.left]⟩
  | memberSession i groups group todo j =>
    obtain ⟨hb, hserved, -⟩ : Both p i j ∧ Served c p j ∧ _ := hstage
    obtain hk | ⟨ok, ha⟩ := served_goes hserved
    · obtain ⟨a, p', hown, ht, hs, hw⟩ := askRank_step hsound hrun hb.alone hk hi
      exact advances_of_pool (lets_of_own hown fun b => by simp [Place.lets, answer_of_asking hk]) ht hs hw
    · exact Or.inl ⟨_, Option.map_eq_some_iff.mpr ⟨_, ha, rfl⟩, by simp [Place.left]⟩
  | memberEnd i groups todo j =>
    obtain ⟨hb, hgive, -⟩ : Both p i j ∧ Giving p j ∧ _ := hstage
    by_cases hret : p.callers[j]? = some .returned
    · exact Or.inl ⟨_, if_pos hret, by simp [Place.left]⟩
    · obtain ⟨a, p', hown, ht, hs, hw⟩ := giveRank_step hsound hrun hb.alone hgive hret
      exact advances_of_pool (lets_of_own hown fun b => by simp [Place.lets]) ht hs hw
  | leave i groups =>
    obtain ⟨ho, hgive, -⟩ : Only p i ∧ Giving p i ∧ _ := hstage
    by_cases hret : p.callers[i]? = some .returned
    · exact Or.inl ⟨_, if_pos hret, by simp [Place.left]⟩
    · obtain ⟨a, p', hown, ht, hs, hw⟩ := giveRank_step hsound hrun ho.alone hgive hret
      exact advances_of_pool (lets_of_own hown fun b => by simp [Place.lets]) ht hs hw

theorem returns (h : Inv c t users userid s) (hi : 0 < c.initSize) (hc : 0 < c.maxSize) :
    ∃ as s', (queries c t users userid).Meets (InTime c) s as ∧ (queries c t users userid).run s as = some s' ∧
      ∃ groups, s'.place = .returned groups := by
  refine Machine.reaches_of_rank (WellFounded.prod_lex Nat.lt_wfRel.wf Nat.lt_wfRel.wf)
    (fun s => (s.place.left userid t, wait c s)) (fun s h => ?_) h
  by_cases hret : ∃ groups, s.place = .returned groups
  · exact Or.inl hret
  · obtain ⟨s', hs, hlt⟩ | ⟨a, s', ht, hs, hp, hlt⟩ := advances h hi hc fun groups hg => hret ⟨groups, hg⟩
    · exact Or.inr ⟨.go, s', trivial, hs, inv_step (a := .go) h hc trivial hs, Prod.Lex.left _ _ hlt⟩
    · refine Or.inr ⟨.pool a, s', ht, hs, inv_step h hc ht hs, ?_⟩
      rw [hp]
      exact Prod.Lex.right _ hlt

theorem mem_queryMembers {g : Int} {u : GroupUser} : u ∈ queryMembers g t users ↔
    ∃ r ∈ users.rows, ∃ b ∈ t.members, b.groupid = g ∧ b.userid = r.id ∧ u = member r b := by
  simp only [queryMembers, List.mem_flatMap, List.mem_filter, List.mem_map, decide_eq_true_eq, member]
  constructor
  · rintro ⟨b, ⟨hb, hg⟩, r, ⟨hr, hid⟩, rfl⟩
    exact ⟨r, hr, b, hb, hg, hid.symm, rfl⟩
  · rintro ⟨r, hr, b, hb, hg, hid, rfl⟩
    exact ⟨b, ⟨hb, hg⟩, r, ⟨hr, hid.symm⟩, rfl⟩

theorem mem_queryGroup {g : Group} : g ∈ GroupModel.queryGroup userid t ↔
    ∃ a ∈ t.groups, (∃ b ∈ t.members, b.groupid = a.id ∧ b.userid = userid) ∧
      g = { id := a.id, name := cstring a.groupname, desc := (a.groupdesc.map cstring).getD "" } := by
  simp only [GroupModel.queryGroup, List.mem_flatMap, List.mem_filter, List.mem_map, decide_eq_true_eq]
  constructor
  · rintro ⟨b, ⟨hb, hu⟩, a, ⟨ha, hid⟩, rfl⟩
    exact ⟨a, ha, ⟨b, hb, hid.symm, hu⟩, rfl⟩
  · rintro ⟨a, ha, ⟨b, hb, hid, hu⟩, rfl⟩
    exact ⟨b, ⟨hb, hu⟩, a, ⟨ha, hid.symm⟩, rfl⟩

theorem queryMembers_eq_nil : (∀ g ∈ GroupModel.queryGroup userid t, queryMembers g.id t users = []) ↔
    ¬ Accompanied t users userid := by
  constructor
  · rintro h ⟨a, ha, hu, r, hr, b, hb, hg, hid⟩
    have hm := mem_queryMembers.mpr ⟨r, hr, b, hb, hg, hid, rfl⟩
    rw [h _ (mem_queryGroup.mpr ⟨a, ha, hu, rfl⟩)] at hm
    cases hm
  · intro h g hg
    obtain ⟨a, ha, hu, rfl⟩ := mem_queryGroup.mp hg
    refine List.eq_nil_iff_forall_not_mem.mpr fun u hm => ?_
    obtain ⟨r, hr, b, hb, hg, hid, -⟩ := mem_queryMembers.mp hm
    exact h ⟨a, ha, hu, r, hr, b, hb, hg, hid⟩

theorem nodup_join {α β γ : Type*} {l : List α} {m : List β} {key : α → Int} {id : β → Int} {f : α → β → γ}
    {out : γ → Int} (hf : ∀ x y, id y = key x → out (f x y) = id y) (hl : (l.map key).Nodup) (hm : (m.map id).Nodup) :
    ((l.flatMap fun x => (m.filter fun y => id y = key x).map (f x)).map out).Nodup := by
  have part : ∀ x, ((m.filter fun y => id y = key x).map (f x)).map out = (m.filter fun y => id y = key x).map id := by
    intro x
    rw [List.map_map]
    exact List.map_congr_left fun y hy => hf x y (of_decide_eq_true (List.mem_filter.mp hy).2)
  rw [List.map_flatMap, List.nodup_flatMap]
  refine ⟨fun x _ => ?_, (List.pairwise_map.mp hl).imp fun {x y} hne => ?_⟩
  · rw [part]
    exact hm.sublist (List.filter_sublist.map id)
  · intro n hx hy
    dsimp only at hx hy
    rw [part] at hx hy
    simp only [List.mem_map, List.mem_filter, decide_eq_true_eq] at hx hy
    obtain ⟨_, ⟨-, hx⟩, rfl⟩ := hx
    obtain ⟨_, ⟨-, hy⟩, he⟩ := hy
    exact hne (by rw [← hx, ← he, hy])

theorem nodup_of_pair {l : List Member} (h : (l.map fun b => (b.groupid, b.userid)).Nodup) (g u : Int) :
    ((l.filter fun b => b.userid = u).map fun b => b.groupid).Nodup ∧
      ((l.filter fun b => b.groupid = g).map fun b => b.userid).Nodup := by
  have hinj := List.inj_on_of_nodup_map h
  refine ⟨List.Nodup.map_on (fun x hx y hy he => ?_) (h.of_map.filter _),
    List.Nodup.map_on (fun x hx y hy he => ?_) (h.of_map.filter _)⟩
  all_goals
    simp only [List.mem_filter, decide_eq_true_eq] at hx hy
    refine hinj hx.1 hy.1 (Prod.ext ?_ ?_)
  · exact he
  · exact hx.2.trans hy.2.symm
  · exact hx.2.trans hy.2.symm
  · exact he

theorem nodup_queryGroup (h : Keyed t) (userid : Int) : ((GroupModel.queryGroup userid t).map Group.id).Nodup :=
  nodup_join (fun _ _ _ => rfl) (nodup_of_pair h.members 0 userid).1 h.groups

theorem nodup_queryMembers (h : Keyed t) (g : Int) : ((queryMembers g t users).map fun u => u.id).Nodup :=
  nodup_join (fun _ _ _ => rfl) (nodup_of_pair h.members g 0).2 users.unique

/-- The result is complete when the second session had a connection or had
nothing to find. -/
theorem complete_iff (h : Keyed t) : Complete t users userid (result c t users userid) ↔
    2 ≤ c.maxSize ∨ ¬ Accompanied t users userid := by
  rw [← queryMembers_eq_nil]
  have hids : (result c t users userid).map Group.id = (GroupModel.queryGroup userid t).map Group.id := by
    rw [result, List.map_map]
    rfl
  have hnone : ∀ g ∈ GroupModel.queryGroup userid t, g.users = [] := by
    intro g hg
    obtain ⟨a, -, -, rfl⟩ := mem_queryGroup.mp hg
    rfl
  constructor
  · intro hc
    refine or_iff_not_imp_left.mpr fun hmax g hg => List.eq_nil_iff_forall_not_mem.mpr fun u hu => ?_
    have hm := (hc.members _ (List.mem_map_of_mem hg) u).mpr (mem_queryMembers.mp hu)
    rw [filled, hnone g hg, if_neg hmax] at hm
    cases hm
  · intro hor
    have hfill : ∀ g ∈ GroupModel.queryGroup userid t, (filled c t users g).users = queryMembers g.id t users := by
      intro g hg
      rw [filled, hnone g hg, List.nil_append]
      obtain hmax | hempty := hor
      · rw [if_pos hmax]
      · rw [hempty g hg, ite_self]
    refine ⟨?_, fun id => ?_, fun g hg => ?_, fun g hg => ?_, fun g hg u => ?_⟩
    · rw [hids]
      exact nodup_queryGroup h userid
    · rw [hids, List.mem_map]
      constructor
      · rintro ⟨g, hg, rfl⟩
        obtain ⟨a, ha, ⟨b, hb, hgr, hu⟩, rfl⟩ := mem_queryGroup.mp hg
        exact ⟨a, ha, rfl, b, hb, hgr, hu⟩
      · rintro ⟨a, ha, rfl, b, hb, hgr, hu⟩
        exact ⟨_, mem_queryGroup.mpr ⟨a, ha, ⟨b, hb, hgr, hu⟩, rfl⟩, rfl⟩
    all_goals obtain ⟨g', hg', rfl⟩ := List.mem_map.mp hg
    · obtain ⟨a, ha, -, rfl⟩ := mem_queryGroup.mp hg'
      exact ⟨a, ha, rfl, rfl, rfl⟩
    · rw [hfill g' hg']
      exact nodup_queryMembers h g'.id
    · rw [hfill g' hg']
      exact mem_queryMembers

/-- Every run of the call can go on to its return, and the groups it returns
are complete. -/
def Answers (c : PoolConfig) (t : GroupModel.Table) (users : UserModel.Table) (userid : Int) (s₀ : State) : Prop :=
  ∀ as s, (queries c t users userid).Meets (InTime c) s₀ as → (queries c t users userid).run s₀ as = some s →
    (∃ bs s', (queries c t users userid).Meets (InTime c) s bs ∧ (queries c t users userid).run s bs = some s' ∧
      ∃ groups, s'.place = .returned groups) ∧
    ∀ groups, s.place = .returned groups → Complete t users userid groups

theorem answers_iff {s₀ : State} (h₀ : Inv c t users userid s₀) (hi : 0 < c.initSize) (hc : 0 < c.maxSize) :
    Answers c t users userid s₀ ↔ Complete t users userid (result c t users userid) := by
  have hinv : ∀ as s, (queries c t users userid).Meets (InTime c) s₀ as → (queries c t users userid).run s₀ as = some s →
      Inv c t users userid s := fun as s hm hr =>
    Machine.run_invariant h₀ (fun s a s' hs ht hstep => inv_step hs hc ht hstep) hm hr
  have hret : ∀ s groups, Inv c t users userid s → s.place = .returned groups → groups = result c t users userid := by
    intro s groups hs hg
    have hstage := hs.stage
    rw [hg] at hstage
    exact hstage.2
  constructor
  · intro ha
    obtain ⟨bs, s, hm, hr, groups, hg⟩ := (ha [] s₀ trivial rfl).1
    rw [← hret s groups (hinv bs s hm hr) hg]
    exact (ha bs s hm hr).2 groups hg
  · intro hcomplete as s hm hr
    have hs := hinv as s hm hr
    refine ⟨returns hs hi hc, fun groups hg => ?_⟩
    rw [hret s groups hs hg]
    exact hcomplete

/-- A call that is alone with a pool that was constructed returns complete groups
exactly when the pool may lend two connections or there is no member to find. -/
theorem queryGroup_complete (cfg : ConnectionPoolConfig) (connects : List Bool) (p₀ p : Pool)
    (h₀ : Pool.construct cfg connects = some p₀) (as : List ConnectionPool.Move)
    (hr : (pool cfg.poolConfig).run p₀ as = some p) (hrun : p.isRunning = true) (hidle : Idle p)
    (t : GroupModel.Table) (users : UserModel.Table) (hk : Keyed t) (userid : Int) :
    Answers cfg.poolConfig t users userid ⟨p, .enter⟩ ↔
      2 ≤ cfg.poolConfig.maxSize ∨ ¬ Accompanied t users userid := by
  obtain ⟨hi, hmax⟩ := sizes_of_validate (Option.ite_none_right_eq_some.mp h₀).1
  have hinv : Inv cfg.poolConfig t users userid ⟨p, .enter⟩ := ⟨sound_run h₀ hr, hrun, hidle⟩
  rw [answers_iff hinv hi (hi.trans_le hmax), complete_iff hk]

def oneUser : UserModel.Table where
  rows := [⟨1, "anna", "1234", some .online⟩]
  nextId := 2
  ids := by decide
  unique := by decide

def oneGroup : GroupModel.Table where
  groups := [⟨7, "club", some "a club"⟩]
  members := [⟨7, 1, some "creator"⟩]

theorem keyed_oneGroup : Keyed oneGroup := ⟨by decide, by decide⟩

theorem queryGroup_complete_oneGroup : Answers smallConfig.poolConfig oneGroup oneUser 1 ⟨oneIdle, .enter⟩ :=
  (queryGroup_complete smallConfig [true] oneIdle oneIdle (by decide) [] rfl rfl (List.forall_mem_nil _) oneGroup oneUser
    keyed_oneGroup 1).mpr (Or.inl (by decide))

def tightConfig : ConnectionPoolConfig := { smallConfig with poolConfig := ⟨1, 1, 1000⟩ }

/-- The second session waits for the connection of the first. -/
def waitInVain : List Move :=
  [.go, .pool (.caller 0 false), .pool .critical, .pool .critical, .pool .critical, .go, .go, .pool (.caller 1 false),
    .pool .critical, .pool (.caller 1 true), .pool (.caller 1 false), .pool .critical, .go, .go, .go,
    .pool (.caller 0 false), .pool .critical, .pool .critical, .go]

theorem queryGroup_tight : Pool.construct tightConfig [true] = some oneIdle ∧ Keyed oneGroup ∧
    ¬ Answers tightConfig.poolConfig oneGroup oneUser 1 ⟨oneIdle, .enter⟩ := by
  have hr : (queries tightConfig.poolConfig oneGroup oneUser 1).Meets (InTime tightConfig.poolConfig) ⟨oneIdle, .enter⟩
      waitInVain ∧ (queries tightConfig.poolConfig oneGroup oneUser 1).run ⟨oneIdle, .enter⟩ waitInVain =
        some ⟨{ oneIdle with callers := [.returned, .returned] }, .returned [⟨7, "club", "a club", []⟩]⟩ := by
    decide +kernel
  refine ⟨by decide, keyed_oneGroup, fun ha => ?_⟩
  have hc := (ha waitInVain _ hr.1 hr.2).2 _ rfl
  have hm := (hc.members _ List.mem_cons_self (member ⟨1, "anna", "1234", some .online⟩ ⟨7, 1, some "creator"⟩)).mpr
    ⟨_, List.mem_cons_self, _, List.mem_cons_self, rfl, rfl, rfl⟩
  cases hm

end BridgeIM.Model.QueryGroup
