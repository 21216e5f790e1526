import BridgeIM.Lib.Transducer
import BridgeIM.Server.Membership
import BridgeIM.Server.Notices

namespace BridgeIM.Server.Clubs

open CString Db Lib Model Model.Requests Model.Database Model.GroupModel Services RequestHandlers Groups Notices
open Server.Membership
open Friendship (isInt_of_field)

structure Club where
  name : String
  desc : Option String
  founder : Int

/-- The groups, what has become of the requests to join them, and who has been
told what. Nobody asks to join a group that is not there or that he has founded. -/
structure Roster where
  club : Int → Option Club
  status : Int × Int → Option Status
  told : List (Int × String) := []
  next : Int
  below : ∀ g, club g ≠ none → g < next
  asked : ∀ u g, status (u, g) ≠ none → ∃ k, club g = some k ∧ k.founder ≠ u

inductive Heard
  | said (type : EnMsgType) (errno : Int) (errmsg : String)
  | nothing
  | broken

/-- A user founds a group under the id that there is for it, asks to join one,
or is answered. -/
inductive Op
  | create (g u : Int) (name desc : String)
  | ask (u g : Int) (payload : String)
  | answer (u g : Int) (action : Option String)
  | broken

def Fits (g : Int) (name desc : String) : Prop :=
  0 < g ∧ g < 2147483648 ∧ name.length ≤ 50 ∧ desc.length ≤ 200

instance (g : Int) (name desc : String) : Decidable (Fits g name desc) := inferInstanceAs (Decidable (_ ∧ _))

namespace Roster

/-- The members of a group are its founder and those who have been accepted. -/
def Member (c : Roster) (u g : Int) : Prop :=
  (∃ k, c.club g = some k ∧ k.founder = u) ∨ c.status (u, g) = some .accepted

def tell (u : Int) (text : String) (c : Roster) : Roster := { c with told := c.told ++ [(u, text)] }

def tellFounder (g : Int) (text : String) (c : Roster) : Roster := (c.club g).elim c fun k => c.tell k.founder text

def found (g : Int) (k : Club) (c : Roster) (h : c.next ≤ g) : Roster where
  club := Function.update c.club g (some k)
  status := c.status
  told := c.told
  next := g + 1
  below x hx := by
    by_cases hxg : x = g
    · omega
    · rw [Function.update_of_ne hxg] at hx
      have hlt := c.below x hx
      omega
  asked u x hx := by
    obtain ⟨k', hk', hne⟩ := c.asked u x hx
    refine ⟨k', ?_, hne⟩
    rw [Function.update_of_ne, hk']
    have hlt := c.below x (by rw [hk']; exact Option.some_ne_none _)
    omega

def move (u g : Int) (s : Status) (c : Roster) (h : ∃ k, c.club g = some k ∧ k.founder ≠ u) : Roster where
  club := c.club
  status := Function.update c.status (u, g) (some s)
  told := c.told
  next := c.next
  below := c.below
  asked u' g' hx := by
    by_cases he : (u', g') = (u, g)
    · cases he
      exact h
    · rw [Function.update_of_ne he] at hx
      exact c.asked u' g' hx

variable {c : Roster} {u g : Int}

theorem status_move {s : Status} (h : ∃ k, c.club g = some k ∧ k.founder ≠ u) (x : Int × Int) :
    (c.move u g s h).status x = if x = (u, g) then some s else c.status x := Function.update_apply _ _ _ _

theorem founder_ne (hm : ¬ c.Member u g) (hg : c.club g ≠ none) : ∃ k, c.club g = some k ∧ k.founder ≠ u := by
  obtain ⟨k, hk⟩ := Option.ne_none_iff_exists'.mp hg
  exact ⟨k, hk, fun hu => hm (Or.inl ⟨k, hk, hu⟩)⟩

theorem asked_of_pending (h : c.status (u, g) = some .pending) : ∃ k, c.club g = some k ∧ k.founder ≠ u :=
  c.asked u g (by rw [h]; exact Option.some_ne_none _)

open Classical in
/-- A name is given to one group only. -/
noncomputable def create (same : String → String → Bool) (g u : Int) (name desc : String) (c : Roster) :
    Heard × Roster :=
  if ∃ x k, c.club x = some k ∧ same k.name name = true then (.said .createGroupMsgAck 2 "Group name exists!", c)
  else if h : c.next ≤ g ∧ Fits g name desc then
    (.said .createGroupMsgAck 0 ("Create group success! Your groupid is " ++ decimal g),
      c.found g ⟨name, some desc, u⟩ h.1)
  else (.said .createGroupMsgAck 1 "Create group failed!", c)

open Classical in
noncomputable def ask (u g : Int) (payload : String) (c : Roster) : Heard × Roster :=
  if hm : c.Member u g then (.said .addGroupResponse 1 "You are already in this group!", c)
  else if hg : c.club g = none then (.said .addGroupResponse 1 "The group is not exist", c)
  else if c.status (u, g) = some .pending then
    (.said .addGroupResponse 1 "The request has been sent, please wait for approval!", c)
  else (.nothing, (c.move u g .pending (founder_ne hm hg)).tellFounder g payload)

def answer (u g : Int) (action : Option String) (c : Roster) : Heard × Roster :=
  if h : c.status (u, g) = some .pending then
    match action with
    | some action =>
      if action = "accept" then (.nothing, (c.move u g .accepted (asked_of_pending h)).tell u acceptGroupResponse.dump)
      else (.nothing, (c.move u g .rejected (asked_of_pending h)).tell u rejectGroupResponse.dump)
    | none => (.broken, c)
  else (.said .addGroupResponse 2 "You have no request to join the group!", c)

end Roster

/-- What the three handlers are for. -/
noncomputable def clubs (same : String → String → Bool) : Transducer Roster Op Heard where
  step c
    | .create g u name desc => c.create same g u name desc
    | .ask u g payload => c.ask u g payload
    | .answer u g action => c.answer u g action
    | .broken => (.broken, c)

def Heard.answer : Heard → Answer
  | said type errno errmsg => .sendJson (reply type errno errmsg)
  | nothing => .delivered
  | broken => .thrown

def offered (E : Engines) (os : Nat → Outcome) (name desc : String) (w : Setting) : Int :=
  E.db.insertId (Update.insertGroup name desc).tokens ((w.db.tick (os 0).now).tick (os 1).now)

def op (E : Engines) (w : Setting) (x : GroupRequest × (Nat → Outcome)) : Op :=
  match x.1 with
  | .createGroup js =>
    match (js.get? "userid").bind Json.toInt?, (js.get? "groupname").bind Json.toStr?,
      (js.get? "groupdesc").bind Json.toStr? with
    | some u, some name, some desc => .create (offered E x.2 name desc w) u name desc
    | _, _, _ => .broken
  | .addGroup js =>
    match (js.get? "userid").bind Json.toInt?, (js.get? "groupid").bind Json.toInt? with
    | some u, some g => .ask u g js.dump
    | _, _ => .broken
  | .addGroupHandle js =>
    match (js.get? "userid").bind Json.toInt?, (js.get? "groupid").bind Json.toInt? with
    | some u, some g => .answer u g ((js.get? "action").bind Json.toStr?)
    | _, _ => .broken

def server (E : Engines) : Transducer Setting (GroupRequest × (Nat → Outcome)) Answer where
  step w x := x.1.handler.run (Call.exec E) x.2 w

/-- The tables of groups agree, and an id is one group's. -/
structure Keyed (d : Tables) : Prop extends Inv d where
  ids : (d.group.groups.map AllGroup.id).Nodup

variable {same : String → String → Bool} {E : Engines} {os : Nat → Outcome} {w₀ w : Setting} {d d' : Tables}
  {c : Roster} {u g : Int} {k : Club}

theorem keyed_of_empty (hg : d.group = {}) (hr : d.requests .group = ∅) : Keyed d where
  toInv := inv_of_empty hg hr
  ids := by
    rw [hg]
    exact List.nodup_nil

theorem Keyed.tick (h : Keyed d) (now : Int) : Keyed (d.tick now) :=
  ⟨⟨⟨h.names, h.creator, h.accepted, h.asked, h.known, h.single⟩, h.named, h.role, h.below, h.housed⟩, h.ids⟩

theorem addMember_groups (hg : IsInt g) (hu : IsInt u) (role : Role) (d : Tables) :
    (d.addMember g u role).group.groups = d.group.groups := by
  rw [addMember_eq hg hu]
  split <;> rfl

theorem Keyed.step (hsame : ∀ s, same s s = true) (h : Keyed d) (he : Server.Membership.Effect same d d') :
    Keyed d' := by
  refine ⟨h.toInv.step hsame he, ?_⟩
  cases he with
  | nothing hg => exact hg ▸ h.ids
  | request userid groupid hm he ht hg => exact hg ▸ h.ids
  | renew userid groupid now hm hs hr hg => exact hg ▸ h.ids
  | reject userid groupid now hs hr hg => exact hg ▸ h.ids
  | accept userid groupid now hu hi hs hr hg =>
    rw [hg, addMember_groups hi hu]
    exact h.ids
  | create id userid name desc d₁ hi hg hn hu =>
    obtain ⟨hid, hle, -, hd₁⟩ := insertGroup_some hi
    rw [hg, addMember_groups hid hu, hd₁, List.map_append, List.map_singleton]
    apply h.ids.append (List.nodup_singleton _)
    rw [List.disjoint_singleton, List.mem_map]
    rintro ⟨x, hx, rfl⟩
    have hlt := h.below x hx
    omega

def clubOf (d : Tables) (g : Int) : Option Club :=
  (d.group.groups.find? fun x => x.id = g).bind fun x => (creatorOf g d).map fun u => ⟨x.groupname, x.groupdesc, u⟩

theorem clubOf_congr (h : d'.group = d.group) : clubOf d' = clubOf d := by
  funext g
  rw [clubOf, clubOf, creatorOf, creatorOf, h]

theorem creatorOf_of_clubOf (h : clubOf d g = some k) : creatorOf g d = some k.founder := by
  obtain ⟨x, -, hx⟩ := Option.bind_eq_some_iff.mp h
  obtain ⟨u, hu, rfl⟩ := Option.map_eq_some_iff.mp hx
  exact hu

theorem creatorOf_eq_some (h : creators g d = 1) :
    creatorOf g d = some u ↔ ⟨g, u, some "creator"⟩ ∈ d.group.members := by
  rw [creators, List.countP_eq_length_filter] at h
  obtain ⟨b, hb⟩ := List.length_eq_one_iff.mp h
  have hm (x : Model.GroupModel.Member) :
      (x ∈ d.group.members ∧ (decide (x.groupid = g) && decide (x.grouprole = some "creator")) = true) ↔ x = b := by
    have hx : x ∈ d.group.members.filter (fun b => b.groupid = g && b.grouprole = some "creator") ↔ x = b := by
      rw [hb, List.mem_singleton]
    exact List.mem_filter.symm.trans hx
  rw [creatorOf, ← List.head?_filter, hb, List.head?_cons, Option.map_some, Option.some.injEq]
  obtain ⟨hg, hr⟩ := Bool.and_eq_true_iff.mp ((hm b).mpr rfl).2
  constructor
  · rintro rfl
    have hb := ((hm b).mpr rfl).1
    rwa [← of_decide_eq_true hg, ← of_decide_eq_true hr]
  · intro hu
    rw [← (hm _).mp ⟨hu, by simp⟩]

theorem Keyed.find?_of_mem (h : Keyed d) {x : AllGroup} (hx : x ∈ d.group.groups) :
    (d.group.groups.find? fun y => y.id = x.id) = some x := by
  cases hf : d.group.groups.find? fun y => y.id = x.id with
  | none => exact absurd (decide_eq_true rfl) (List.find?_eq_none.mp hf x hx)
  | some y =>
    have hid : y.id = x.id := by simpa using List.find?_some hf
    rw [List.inj_on_of_nodup_map h.ids (List.mem_of_find?_eq_some hf) hx hid]

theorem Keyed.clubOf_of_mem (h : Keyed d) {x : AllGroup} (hx : x ∈ d.group.groups) :
    ∃ u, clubOf d x.id = some ⟨x.groupname, x.groupdesc, u⟩ := by
  have hone := h.creator x hx
  have hpos : 0 < creators x.id d := by omega
  obtain ⟨b, hb, hc⟩ := List.countP_pos_iff.mp hpos
  obtain ⟨hg, hr⟩ := Bool.and_eq_true_iff.mp hc
  have hm : ⟨x.id, b.userid, some "creator"⟩ ∈ d.group.members := by
    rwa [← of_decide_eq_true hg, ← of_decide_eq_true hr]
  refine ⟨b.userid, ?_⟩
  rw [clubOf, h.find?_of_mem hx, Option.bind_some, (creatorOf_eq_some hone).mpr hm, Option.map_some]

theorem mem_of_clubOf (h : clubOf d g = some k) :
    ∃ x ∈ d.group.groups, x.id = g ∧ x.groupname = k.name ∧ x.groupdesc = k.desc := by
  obtain ⟨x, hf, hx⟩ := Option.bind_eq_some_iff.mp h
  obtain ⟨u, -, rfl⟩ := Option.map_eq_some_iff.mp hx
  exact ⟨x, List.mem_of_find?_eq_some hf, by simpa using List.find?_some hf, rfl, rfl⟩

theorem Keyed.clubOf_ne_none (h : Keyed d) : clubOf d g ≠ none ↔ (d.group.groups.any fun x => x.id = g) = true := by
  rw [Option.ne_none_iff_exists', List.any_eq_true]
  constructor
  · rintro ⟨k, hk⟩
    obtain ⟨x, hx, hid, -⟩ := mem_of_clubOf hk
    exact ⟨x, hx, decide_eq_true hid⟩
  · rintro ⟨x, hx, hid⟩
    obtain ⟨u, hu⟩ := h.clubOf_of_mem hx
    rw [of_decide_eq_true hid] at hu
    exact ⟨_, hu⟩

theorem Keyed.any_name (h : Keyed d) (name : String) : (∃ g k, clubOf d g = some k ∧ same k.name name = true) ↔
    (d.group.groups.any fun x => same x.groupname name) = true := by
  rw [List.any_eq_true]
  constructor
  · rintro ⟨g, k, hk, hn⟩
    obtain ⟨x, hx, -, hname, -⟩ := mem_of_clubOf hk
    exact ⟨x, hx, hname ▸ hn⟩
  · rintro ⟨x, hx, hn⟩
    obtain ⟨u, hu⟩ := h.clubOf_of_mem hx
    exact ⟨x.id, _, hu, hn⟩

theorem Keyed.founder_mem (h : Keyed d) (hk : clubOf d g = some k) :
    ⟨g, u, some "creator"⟩ ∈ d.group.members ↔ k.founder = u := by
  obtain ⟨x, hx, rfl, -⟩ := mem_of_clubOf hk
  rw [← creatorOf_eq_some (h.creator x hx), creatorOf_of_clubOf hk, Option.some.injEq]

theorem creatorOf_enter (x : Int) (role : Role) (d : Tables) : creatorOf x (enter g u role d) =
    (creatorOf x d).or (if g = x ∧ role = .creator then some u else none) := by
  rw [creatorOf, creatorOf, enter, List.find?_append, List.find?_singleton]
  cases d.group.members.find? fun b => b.groupid = x && b.grouprole = some "creator" with
  | some b => rfl
  | none => cases role <;> by_cases hx : g = x <;> simp [hx, Role.text]

theorem clubOf_enter_normal (d : Tables) : clubOf (enter g u .normal d) = clubOf d := by
  funext x
  rw [clubOf, clubOf, creatorOf_enter, if_neg fun h => Role.noConfusion h.2, Option.or_none]
  rfl

theorem Keyed.clubOf_create (h : Keyed d) {name desc : String} (hn : d.nextGroupId ≤ g)
    (hd : d'.group = { d.group with groups := d.group.groups ++ [⟨g, name, some desc⟩] }) :
    clubOf (enter g u .creator d') = Function.update (clubOf d) g (some ⟨name, some desc, u⟩) := by
  funext x
  have hg : (enter g u .creator d').group.groups = d.group.groups ++ [⟨g, name, some desc⟩] := by
    rw [enter, hd]
  have hc : creatorOf x d' = creatorOf x d := by
    rw [creatorOf, hd, creatorOf]
  rw [clubOf, hg, creatorOf_enter, hc, List.find?_append, List.find?_singleton]
  by_cases hx : x = g
  · subst hx
    have hfind : (d.group.groups.find? fun y => y.id = x) = none := by
      refine List.find?_eq_none.mpr fun y hy he => ?_
      have hlt := h.below y hy
      have hid := of_decide_eq_true he
      omega
    have hno : creatorOf x d = none := by
      rw [creatorOf, Option.map_eq_none_iff, List.find?_eq_none]
      exact List.countP_eq_zero.mp (h.creators_fresh hn)
    rw [hfind, hno, Function.update_self]
    simp
  · have hne : ¬ (g = x ∧ Role.creator = .creator) := fun hc => hx hc.1.symm
    rw [Function.update_of_ne hx, if_neg hne, Option.or_none, clubOf]
    simp [Ne.symm hx]

/-- The server `w`, which was `w₀` at the start, shows the groups and the
requests, and has passed on what users have been told. -/
structure Models (E : Engines) (w₀ w : Setting) (c : Roster) : Prop where
  passed : Passed E w₀ w c.told
  club : c.club = clubOf w.db
  status : ∀ x, (w.db.requests .group).status x = (c.status x).map some
  next : c.next = w.db.nextGroupId

theorem Models.put (h : Models E w₀ w c) (hu : d.users = w.db.users) (hg : d.group = w.db.group)
    (hn : d.nextGroupId = w.db.nextGroupId) (hr : d.requests .group = w.db.requests .group) :
    Models E w₀ (w.put d) c where
  passed := h.passed.put hu
  club := h.club.trans (clubOf_congr hg).symm
  status x := by
    rw [← h.status, ← hr]
    rfl
  next := h.next.trans hn.symm

theorem Models.tick (h : Models E w₀ w c) (now : Int) : Models E w₀ (w.put (w.db.tick now)) c := h.put rfl rfl rfl rfl

theorem Models.club_ne_none (h : Models E w₀ w c) (hk : Keyed w.db) :
    c.club g ≠ none ↔ (w.db.group.groups.any fun x => x.id = g) = true := by
  rw [h.club]
  exact hk.clubOf_ne_none

theorem Models.status_eq (h : Models E w₀ w c) (s : Status) :
    (w.db.requests .group).status (u, g) = some (some s) ↔ c.status (u, g) = some s := by
  rw [h.status, Option.map_eq_some_iff]
  simp

theorem Models.member (h : Models E w₀ w c) (hk : Keyed w.db) : hasMember g u w.db = true ↔ c.Member u g := by
  rw [hasMember_eq_true, Roster.Member, ← h.status_eq, hk.accepted, h.club]
  constructor
  · rintro ⟨⟨_, _, role⟩, hb, rfl, rfl⟩
    obtain ⟨r, hr⟩ := hk.role _ hb
    cases hr
    cases r with
    | normal => exact Or.inr hb
    | creator =>
      obtain ⟨x, hx, hid⟩ := hk.housed _ hb
      obtain ⟨v, hv⟩ := hk.clubOf_of_mem hx
      rw [hid] at hv
      exact Or.inl ⟨_, hv, (hk.founder_mem hv).mp hb⟩
  · rintro (⟨k, hc, hf⟩ | hn)
    · exact ⟨_, (hk.founder_mem hc).mpr hf, rfl, rfl⟩
    · exact ⟨_, hn, rfl, rfl⟩

theorem Models.move (h : Models E w₀ w c) {s : Status} (hk : ∃ k, c.club g = some k ∧ k.founder ≠ u)
    (hu : d.users = w.db.users) (hg : clubOf d = clubOf w.db) (hn : d.nextGroupId = w.db.nextGroupId)
    (hr : ∀ x, (d.requests .group).status x = if x = (u, g) then some (some s) else (w.db.requests .group).status x) :
    Models E w₀ (w.put d) (c.move u g s hk) where
  passed := h.passed.put hu
  club := h.club.trans hg.symm
  status x := by
    apply (hr x).trans
    rw [Roster.status_move]
    by_cases hx : x = (u, g)
    · rw [if_pos hx, if_pos hx]
      rfl
    · rw [if_neg hx, if_neg hx, h.status]
  next := h.next.trans hn.symm

def Done (E : Engines) (w₀ : Setting) (x : Answer × Setting) (y : Heard × Roster) : Prop :=
  x.1 = y.1.answer ∧ Models E w₀ x.2 y.2

theorem done_answer (h : Models E w₀ w c) (type : EnMsgType) (errno : Int) (errmsg : String) :
    Done E w₀ (Program.run (Call.exec E) (answer type errno errmsg) os w) (.said type errno errmsg, c) :=
  ⟨rfl, h⟩

theorem insertGroup_eq {name desc : String} (hn : (d.group.groups.any fun x => same x.groupname name) = false) :
    d.insertGroup same g name desc =
      if d.nextGroupId ≤ g ∧ Fits g name desc then some { d with
        group := { d.group with groups := d.group.groups ++ [⟨g, name, some desc⟩] }, nextGroupId := g + 1 }
      else none := by
  have hall : (d.group.groups.all fun x => !same x.groupname name) = true := by
    rw [List.all_eq_not_any_not]
    simp only [Bool.not_not, hn, Bool.not_false]
  rw [Tables.insertGroup, hall]
  refine if_congr ?_ rfl rfl
  constructor
  · rintro ⟨h0, hle, hlt, hx, hy, -⟩
    exact ⟨hle, h0, hlt, hx, hy⟩
  · rintro ⟨hle, h0, hlt, hx, hy⟩
    exact ⟨h0, hle, hlt, hx, hy, rfl⟩

section

variable (hE : E.Rules same) (hos : ∀ n, (os n).Ok)

include hE hos

theorem done_deliver (h : Models E w₀ w c) (u : Int) (text : String) :
    Done E w₀ ((deliverMessage u text).run (Call.exec E) os w) (.nothing, c.tell u text) := by
  obtain ⟨ha, hd, hp⟩ := deliver_passed hE hos h.passed u text
  refine ⟨ha, hp, ?_, ?_, ?_⟩
  · rw [hd]
    exact h.club
  · rw [hd]
    exact h.status
  · rw [hd]
    exact h.next

theorem done_forward (h : Models E w₀ w c) (hg : c.club g ≠ none) (payload : String) :
    Done E w₀ ((forwardToOwner g payload).run (Call.exec E) os w) (.nothing, c.tellFounder g payload) := by
  obtain ⟨k, hk⟩ := Option.ne_none_iff_exists'.mp hg
  rw [forwardToOwner, run_group ((GroupCall.queryGroupOwnerId g).exec_of_ok hE.db (hos 0) trivial w.db),
    creatorOf_of_clubOf (h.club ▸ hk), Option.elim_some, Roster.tellFounder, hk, Option.elim_some]
  exact done_deliver hE (fun n => hos (n + 1)) (h.tick _) k.founder payload

theorem done_request (h : Models E w₀ w c) (payload : String) (hu : IsInt u) (hg : IsInt g) (hm : ¬ c.Member u g)
    (hc : c.club g ≠ none) :
    Done E w₀ (Program.run (Call.exec E) (.call (.group (.queryRequestStatus u g)) (requestGroup u g payload)) os w)
      (if c.status (u, g) = some .pending then
        (.said .addGroupResponse 1 "The request has been sent, please wait for approval!", c)
      else (.nothing, (c.move u g .pending (Roster.founder_ne hm hc)).tellFounder g payload)) := by
  rw [run_group ((GroupCall.queryRequestStatus u g).exec_of_ok hE.db (hos 0) trivial w.db)]
  have hst := h.status (u, g)
  have hmove : (c.move u g .pending (Roster.founder_ne hm hc)).club g ≠ none := hc
  cases hs : c.status (u, g) with
  | none =>
    rw [hs] at hst
    have hl : (w.db.requests .group).lookup (u, g) = none := Requests.Table.status_eq_none.mp hst
    obtain ⟨t, ht⟩ : ∃ t, (w.db.requests .group).insertPending (u, g) = some t :=
      ⟨_, Requests.Table.insertPending_eq_some.mpr ⟨⟨hu, hg, hl⟩, rfl⟩⟩
    rw [hl, rowStatus, Option.elim_none, requestGroup,
      run_group ((GroupCall.addGroupRequest u g).exec_of_ok hE.db (hos (0 + 1)) trivial (w.db.tick (os 0).now)),
      Tables.tick_requests, ht, Tables.addRequest_of_some (d := (w.db.tick (os 0).now).tick (os (0 + 1)).now) ht]
    rw [if_neg (by simp)]
    apply done_forward hE (fun n => hos (n + 1 + 1)) _ hmove
    exact (h.tick _).move _ rfl rfl rfl (Requests.Table.status_insertPending ht)
  | some s =>
    rw [hs] at hst
    obtain ⟨⟨_, handledAt⟩, hl, rfl⟩ := Option.map_eq_some_iff.mp hst
    rw [hl, rowStatus, Option.elim_some]
    cases s with
    | accepted => exact absurd (Or.inr hs) hm
    | pending =>
      rw [if_pos rfl]
      exact done_answer (h.tick _) _ _ _
    | rejected =>
      have hk : (w.db.requests .group).status (u, g) ≠ none := by rw [hst]; exact Option.some_ne_none _
      have hup := ((GroupCall.updateRequestStatus u g "pending").exec_of_ok hE.db (hos (0 + 1)) trivial
        (w.db.tick (os 0).now)).trans (setText_eq (s := .pending) rfl _)
      rw [if_neg (by decide)]
      refine (congrArg (Done E w₀ · _) (run_group hup)).mpr ?_
      apply done_forward hE (fun n => hos (n + 1 + 1)) _ hmove
      exact (h.tick _).move _ rfl rfl rfl (Requests.Table.status_setStatus hk .pending _)

theorem done_addGroup (h : Models E w₀ w c) (hk : Keyed w.db) (js : Json) :
    Done E w₀ ((addGroup js).run (Call.exec E) os w) ((clubs same).step c (op E w (.addGroup js, os))) := by
  unfold addGroup
  dsimp only [op]
  cases hu : (js.get? "userid").bind Json.toInt? with
  | none => exact ⟨rfl, h⟩
  | some u =>
  cases hg : (js.get? "groupid").bind Json.toInt? with
  | none => exact ⟨rfl, h⟩
  | some g =>
    change Done E w₀ _ (c.ask u g js.dump)
    have h₀ : (GroupCall.isUserInGroup u g).exec E.db (os 0) w.db =
        (foundStatus (hasMember g u w.db), w.db.tick (os 0).now) :=
      (GroupCall.isUserInGroup u g).exec_of_ok hE.db (hos 0) trivial w.db
    have h₁ := (GroupCall.isGroupExist g).exec_of_ok hE.db (hos (0 + 1)) trivial (w.db.tick (os 0).now)
    refine (congrArg (Done E w₀ · _) (run_group h₀)).mpr ?_
    unfold Roster.ask
    by_cases hm : c.Member u g
    · rw [(h.member hk).mpr hm, dif_pos hm]
      exact done_answer (h.tick _) _ _ _
    · have hno : hasMember g u w.db = false := Bool.eq_false_iff.mpr (mt (h.member hk).mp hm)
      rw [hno, dif_neg hm]
      refine (congrArg (Done E w₀ · _) (run_group (w := w.put (w.db.tick (os 0).now)) h₁)).mpr ?_
      by_cases hc : c.club g = none
      · have hf := Bool.eq_false_iff.mpr (mt (h.club_ne_none hk).mpr (not_not.mpr hc))
        rw [dif_pos hc, Tables.tick_group, hf]
        exact done_answer ((h.tick _).tick _) _ _ _
      · rw [dif_neg hc, Tables.tick_group, (h.club_ne_none hk).mp hc]
        exact done_request hE (fun n => hos (n + 1 + 1)) ((h.tick _).tick _) js.dump (isInt_of_field hu)
          (isInt_of_field hg) hm hc

theorem done_join (h : Models E w₀ w c) (hu : IsInt u) (hg : IsInt g) :
    Done E w₀ ((join u g).run (Call.exec E) os w) (.nothing, c.tell u acceptGroupResponse.dump) := by
  have h₀ : (GroupCall.addGroup u g "normal").exec E.db (os 0) w.db =
      ((), (w.db.tick (os 0).now).addMember g u .normal) :=
    (GroupCall.addGroup u g "normal").exec_of_ok hE.db (hos 0) ⟨.normal, rfl⟩ w.db
  rw [join, run_group h₀]
  apply done_deliver hE (fun n => hos (n + 1))
  rw [addMember_eq hg hu]
  split
  · exact h.tick _
  · exact ⟨h.passed.put rfl, h.club.trans (clubOf_enter_normal _).symm, h.status, h.next⟩

theorem done_addGroupHandle (h : Models E w₀ w c) (js : Json) :
    Done E w₀ ((addGroupHandle js).run (Call.exec E) os w) ((clubs same).step c (op E w (.addGroupHandle js, os))) := by
  unfold addGroupHandle
  dsimp only [op]
  cases hu : (js.get? "userid").bind Json.toInt? with
  | none => exact ⟨rfl, h⟩
  | some u =>
  cases hg : (js.get? "groupid").bind Json.toInt? with
  | none => exact ⟨rfl, h⟩
  | some g =>
    change Done E w₀ _ (c.answer u g ((js.get? "action").bind Json.toStr?))
    have h₀ : (GroupCall.isPendingRequest u g).exec E.db (os 0) w.db =
        (decide ((w.db.requests .group).status (u, g) = some (some .pending)), w.db.tick (os 0).now) :=
      (GroupCall.isPendingRequest u g).exec_of_ok hE.db (hos 0) trivial w.db
    refine (congrArg (Done E w₀ · _) (run_group h₀)).mpr ?_
    unfold Roster.answer
    by_cases hs : c.status (u, g) = some .pending
    · have hw := (h.status_eq .pending).mpr hs
      have hk : (w.db.requests .group).status (u, g) ≠ none := by rw [hw]; exact Option.some_ne_none _
      rw [decide_eq_true hw, dif_pos hs, if_pos rfl]
      cases (js.get? "action").bind Json.toStr? with
      | none => exact ⟨rfl, h.tick _⟩
      | some action =>
        change Done E w₀ (Program.run (Call.exec E) (if action = "accept" then acceptGroup u g else rejectGroup u g)
          (fun n => os (n + 1)) (w.put (w.db.tick (os 0).now))) (if action = "accept" then _ else _)
        by_cases hc : action = "accept"
        · have hup := ((GroupCall.updateRequestStatus u g "accepted").exec_of_ok hE.db (hos (0 + 1)) trivial
            (w.db.tick (os 0).now)).trans (setText_eq (s := .accepted) rfl _)
          rw [if_pos hc, if_pos hc]
          refine (congrArg (Done E w₀ · _) (run_group hup)).mpr ?_
          apply done_join hE (fun n => hos (n + 1 + 1)) _ (isInt_of_field hu) (isInt_of_field hg)
          exact (h.tick _).move _ rfl rfl rfl (Requests.Table.status_setStatus hk .accepted _)
        · have hup := ((GroupCall.updateRequestStatus u g "rejected").exec_of_ok hE.db (hos (0 + 1)) trivial
            (w.db.tick (os 0).now)).trans (setText_eq (s := .rejected) rfl _)
          rw [if_neg hc, if_neg hc]
          refine (congrArg (Done E w₀ · _) (run_group hup)).mpr ?_
          apply done_deliver hE (fun n => hos (n + 1 + 1))
          exact (h.tick _).move _ rfl rfl rfl (Requests.Table.status_setStatus hk .rejected _)
    · rw [decide_eq_false (mt (h.status_eq .pending).mp hs), dif_neg hs, if_neg Bool.false_ne_true]
      exact done_answer (h.tick _) _ _ _

theorem done_create (h : Models E w₀ w c) (hk : Keyed w.db) (hu : IsInt u) {name desc : String} (hle : c.next ≤ g)
    (hf : Fits g name desc) (hd : d = { w.db with
      group := { w.db.group with groups := w.db.group.groups ++ [⟨g, name, some desc⟩] }, nextGroupId := g + 1 }) :
    Done E w₀ (Program.run (Call.exec E) (.call (.group (.addGroup u g "creator")) fun _ =>
        answer .createGroupMsgAck 0 ("Create group success! Your groupid is " ++ decimal g)) os (w.put d))
      (.said .createGroupMsgAck 0 ("Create group success! Your groupid is " ++ decimal g),
        c.found g ⟨name, some desc, u⟩ hle) := by
  have hid : IsInt g := by
    obtain ⟨h0, hlt, -⟩ := hf
    unfold IsInt
    omega
  have hno : hasMember g u (d.tick (os 0).now) = false := by
    rw [hd]
    exact hk.hasMember_fresh (h.next ▸ hle) u
  have h₀ : (GroupCall.addGroup u g "creator").exec E.db (os 0) d = ((), enter g u .creator (d.tick (os 0).now)) := by
    rw [(GroupCall.addGroup u g "creator").exec_of_ok hE.db (hos 0) ⟨.creator, rfl⟩ d]
    exact congrArg ((), ·) ((addMember_eq hid hu _ _).trans (if_neg (Bool.eq_false_iff.mp hno)))
  rw [run_group h₀]
  refine ⟨rfl, ?_⟩
  subst hd
  exact ⟨h.passed.put rfl, (congrArg (Function.update · g _) h.club).trans (hk.clubOf_create (h.next ▸ hle) rfl).symm,
    h.status, rfl⟩

theorem done_createGroup (h : Models E w₀ w c) (hk : Keyed w.db) {js : Json}
    (hp : ∀ name desc, (js.get? "groupname").bind Json.toStr? = some name →
      (js.get? "groupdesc").bind Json.toStr? = some desc → Plain name ∧ Plain desc) :
    Done E w₀ ((createGroup js).run (Call.exec E) os w) ((clubs same).step c (op E w (.createGroup js, os))) := by
  unfold createGroup
  dsimp only [op]
  cases hu : (js.get? "userid").bind Json.toInt? with
  | none => exact ⟨rfl, h⟩
  | some u =>
  cases hn : (js.get? "groupname").bind Json.toStr? with
  | none => exact ⟨rfl, h⟩
  | some name =>
  cases hd : (js.get? "groupdesc").bind Json.toStr? with
  | none => exact ⟨rfl, h⟩
  | some desc =>
    change Done E w₀ _ (c.create same (offered E os name desc w) u name desc)
    obtain ⟨hpn, hpd⟩ := hp name desc hn hd
    dsimp only
    rw [run_group ((GroupCall.isGroupExistName name).exec_of_ok hE.db (hos 0) hpn w.db)]
    unfold Roster.create
    cases hany : w.db.group.groups.any fun x => same x.groupname name with
    | true =>
      rw [if_pos (by rw [h.club]; exact hk.any_name name |>.mpr hany)]
      exact done_answer (h.tick _) _ _ _
    | false =>
      rw [if_neg (by rw [h.club, hk.any_name name, hany]; decide)]
      let d₁ := (w.db.tick (os 0).now).tick (os 1).now
      have hi : d₁.insertGroup same (offered E os name desc w) name desc =
          if c.next ≤ offered E os name desc w ∧ Fits (offered E os name desc w) name desc then some { d₁ with
            group := { d₁.group with groups := d₁.group.groups ++ [⟨offered E os name desc w, name, some desc⟩] },
            nextGroupId := offered E os name desc w + 1 } else none := by
        rw [h.next]
        exact insertGroup_eq hany
      have h₁ : (GroupCall.createGroup name desc).exec E.db (os (0 + 1)) (w.db.tick (os 0).now) =
          (d₁.insertGroup same (offered E os name desc w) name desc).elim (none, d₁) fun d' =>
            (some (offered E os name desc w), d') :=
        (GroupCall.createGroup name desc).exec_of_ok hE.db (hos (0 + 1)) ⟨hpn, hpd⟩ (w.db.tick (os 0).now)
      rw [hi] at h₁
      by_cases hf : c.next ≤ offered E os name desc w ∧ Fits (offered E os name desc w) name desc
      · rw [if_pos hf, Option.elim_some] at h₁
        rw [dif_pos hf]
        refine (congrArg (Done E w₀ · _) (run_group h₁)).mpr ?_
        exact done_create hE (fun n => hos (n + 1 + 1)) ((h.tick (os 0).now).tick (os 1).now)
          ((hk.tick _).tick _) (isInt_of_field hu) hf.1 hf.2 rfl
      · rw [if_neg hf, Option.elim_none] at h₁
        rw [dif_neg hf]
        refine (congrArg (Done E w₀ · _) (run_group h₁)).mpr ?_
        exact done_answer ((h.tick _).tick _) _ _ _

end

/-- A handled request is an operation on the groups. -/
theorem server_step (hE : E.Rules same) (hsame : ∀ s, same s s = true) (w₀ : Setting) :
    (server E).Follows (clubs same) (op E) (fun x => x.1.Texts ∧ ∀ n, (x.2 n).Ok)
      (fun w c => Keyed w.db ∧ Models E w₀ w c) fun a r => a = r.answer := by
  rintro w c ⟨q, os⟩ ⟨hk, h⟩ ⟨ht, hos⟩
  have hd : Done E w₀ (q.handler.run (Call.exec E) os w) ((clubs same).step c (op E w (q, os))) := by
    cases q with
    | createGroup js => exact done_createGroup hE hos h hk ht
    | addGroup js => exact done_addGroup hE hos h hk js
    | addGroupHandle js => exact done_addGroupHandle hE hos h js
  exact ⟨hd.1, hk.step hsame (handler_served hE ht hos w).effect, hd.2⟩

def shown (w : Setting) (h : Keyed w.db) : Roster where
  club := clubOf w.db
  status x := ((w.db.requests .group).status x).join
  next := w.db.nextGroupId
  below g hg := by
    obtain ⟨x, hx, hid⟩ := List.any_eq_true.mp (h.clubOf_ne_none.mp hg)
    exact of_decide_eq_true hid ▸ h.below x hx
  asked u g hs := by
    have hne : (w.db.requests .group).status (u, g) ≠ none := fun hn => hs (by rw [hn]; rfl)
    obtain ⟨x, hx, rfl⟩ := h.known u g hne
    obtain ⟨v, hv⟩ := h.clubOf_of_mem hx
    exact ⟨_, hv, fun hf => h.asked u x.id hne ((h.founder_mem hv).mpr hf)⟩

theorem models_shown (E : Engines) (h : Keyed w.db) : Models E w w (shown w h) where
  passed := passed_refl E w
  club := rfl
  status x := by
    change _ = ((w.db.requests .group).status x).join.map some
    cases hx : (w.db.requests .group).status x with
    | none => rfl
    | some s =>
      cases s with
      | none => exact absurd hx (h.named x)
      | some s => rfl
  next := rfl

/-- A text that its column takes as it is or refuses: an excess of trailing spaces
is cut off. -/
def Uncut (n : Nat) (s : String) : Prop := s.length ≤ n ∨ ∃ c ∈ s.toList.drop n, c ≠ ' '

def Untrimmed : GroupRequest → Prop
  | .createGroup js => ∀ name desc, (js.get? "groupname").bind Json.toStr? = some name →
    (js.get? "groupdesc").bind Json.toStr? = some desc → Uncut 50 name ∧ Uncut 200 desc
  | _ => True

/-- The server does what the groups do: for any requests, one after the other,
it answers what they answer, and ends with their founders, their members, their
requests and their notices. -/
theorem server_keeps_clubs (hE : E.Rules same) (hsame : ∀ s, same s s = true) (w : Setting) (h : Keyed w.db)
    (xs : List (GroupRequest × (Nat → Outcome))) (hxs : ∀ x ∈ xs, x.1.Texts ∧ Untrimmed x.1 ∧ ∀ n, (x.2 n).Ok) :
    let y := (clubs same).run (shown w h) ((server E).inputs (op E) w xs)
    ((server E).run w xs).1 = y.1.map Heard.answer ∧ Models E w ((server E).run w xs).2 y.2 ∧
      ∀ u g, hasMember g u ((server E).run w xs).2.db = true ↔ y.2.Member u g := by
  obtain ⟨ha, hk, hm⟩ := (server_step hE hsame w).run (fun x hx => ⟨(hxs x hx).1, (hxs x hx).2.2⟩) ⟨h, models_shown E h⟩
  refine ⟨?_, hm, fun u g => hm.member hk⟩
  rw [← List.forall₂_eq_eq_eq]
  exact List.forall₂_map_right_iff.mpr ha

open Founders

theorem server_keeps_clubs_visits : ∃ h : Keyed world.db,
    let y := (clubs fun a b => a = b).run (shown world h) ((server engines).inputs (op engines) world visits)
    ((server engines).run world visits).1 = y.1.map Heard.answer ∧
      Models engines world ((server engines).run world visits).2 y.2 ∧
      ∀ u g, hasMember g u ((server engines).run world visits).2.db = true ↔ y.2.Member u g := by
  have h : Keyed world.db := keyed_of_empty rfl rfl
  have hv : ∀ x ∈ visits, x.1.Texts ∧ Untrimmed x.1 ∧ ∀ n, (x.2 n).Ok := by
    rw [visits, List.forall_mem_cons, List.forall_mem_cons, List.forall_mem_singleton]
    refine ⟨⟨?_, ?_, fun _ => rfl⟩, ⟨trivial, trivial, fun _ => rfl⟩, trivial, trivial, fun _ => rfl⟩
    · rintro _ _ ⟨⟩ ⟨⟩
      decide +kernel
    · rintro _ _ ⟨⟩ ⟨⟩
      exact ⟨Or.inl (by decide), Or.inl (by decide)⟩
  exact ⟨h, server_keeps_clubs engines_rules (fun s => decide_eq_true rfl) world h visits hv⟩

end BridgeIM.Server.Clubs
