import BridgeIM.Server.Groups

namespace BridgeIM.Server.Membership

open CString Db Lib Lib.SqlText Model Model.Requests Model.Database Model.GroupModel Services RequestHandlers Groups
open Friendship (isInt_of_field run_deliverMessage deliverMessage_delivered)

variable {same : String → String → Bool} {E : Engines} {os : Nat → Outcome} {w : Setting} {d d' : Tables}

/-- What one request does to the groups and the group requests. -/
inductive Effect (same : String → String → Bool) (d d' : Tables) : Prop
  | nothing (hg : d'.group = d.group) (hn : d'.nextGroupId = d.nextGroupId)
      (hr : d'.requests .group = d.requests .group)
  | create (id userid : Int) (name desc : String) (d₁ : Tables) (hi : d.insertGroup same id name desc = some d₁)
      (hg : d'.group = (d₁.addMember id userid .creator).group) (hn : d'.nextGroupId = id + 1) (hu : IsInt userid)
      (hr : d'.requests .group = d.requests .group)
  | request (userid groupid : Int) (hm : hasMember groupid userid d = false) (he : ∃ g ∈ d.group.groups, g.id = groupid)
      (ht : (d.requests .group).insertPending (userid, groupid) = some (d'.requests .group)) (hg : d'.group = d.group)
      (hn : d'.nextGroupId = d.nextGroupId)
  | renew (userid groupid now : Int) (hm : hasMember groupid userid d = false)
      (hs : (d.requests .group).status (userid, groupid) = some (some .rejected))
      (hr : d'.requests .group = (d.requests .group).setStatus (userid, groupid) .pending now) (hg : d'.group = d.group)
      (hn : d'.nextGroupId = d.nextGroupId)
  | accept (userid groupid now : Int) (hu : IsInt userid) (hi : IsInt groupid)
      (hs : (d.requests .group).status (userid, groupid) = some (some .pending))
      (hr : d'.requests .group = (d.requests .group).setStatus (userid, groupid) .accepted now)
      (hg : d'.group = (d.addMember groupid userid .normal).group) (hn : d'.nextGroupId = d.nextGroupId)
  | reject (userid groupid now : Int) (hs : (d.requests .group).status (userid, groupid) = some (some .pending))
      (hr : d'.requests .group = (d.requests .group).setStatus (userid, groupid) .rejected now) (hg : d'.group = d.group)
      (hn : d'.nextGroupId = d.nextGroupId)

/-- Groups, members and group requests agree. -/
structure Consistent (d : Tables) : Prop where
  names : (d.group.groups.map AllGroup.groupname).Nodup
  creator : ∀ g ∈ d.group.groups, creators g.id d = 1
  accepted : ∀ userid groupid, (d.requests .group).status (userid, groupid) = some (some .accepted) ↔
    NormalMember userid groupid d
  asked : ∀ userid groupid, (d.requests .group).status (userid, groupid) ≠ none →
    ⟨groupid, userid, some "creator"⟩ ∉ d.group.members
  known : ∀ userid groupid, (d.requests .group).status (userid, groupid) ≠ none → ∃ g ∈ d.group.groups, g.id = groupid
  single : (d.group.members.map fun b => (b.groupid, b.userid)).Nodup

/-- What the handlers keep besides. -/
structure Inv (d : Tables) : Prop extends Consistent d where
  named : ∀ k, (d.requests .group).status k ≠ some none
  role : ∀ b ∈ d.group.members, ∃ r : Role, b.grouprole = some r.text
  below : ∀ g ∈ d.group.groups, g.id < d.nextGroupId
  housed : ∀ b ∈ d.group.members, ∃ g ∈ d.group.groups, g.id = b.groupid

theorem Inv.hasMember_fresh (h : Inv d) {id : Int} (hi : d.nextGroupId ≤ id) (userid : Int) :
    hasMember id userid d = false := by
  rw [Bool.eq_false_iff, Ne, hasMember_eq_true]
  rintro ⟨b, hb, hg, -⟩
  obtain ⟨g, hm, he⟩ := h.housed b hb
  have hlt := h.below g hm
  omega

theorem Inv.creators_fresh (h : Inv d) {id : Int} (hi : d.nextGroupId ≤ id) : creators id d = 0 := by
  refine List.countP_eq_zero.mpr fun b hb hc => ?_
  rw [Bool.and_eq_true, decide_eq_true_eq] at hc
  obtain ⟨g, hm, he⟩ := h.housed b hb
  have hlt := h.below g hm
  omega

theorem Inv.hasMember_asked (h : Inv d) {userid groupid : Int}
    (hs : (d.requests .group).status (userid, groupid) ≠ none)
    (ha : (d.requests .group).status (userid, groupid) ≠ some (some .accepted)) : hasMember groupid userid d = false := by
  rw [Bool.eq_false_iff, Ne, hasMember_eq_true]
  rintro ⟨⟨_, _, role⟩, hb, rfl, rfl⟩
  obtain ⟨r, hr⟩ := h.role _ hb
  cases hr
  cases r with
  | creator => exact h.asked _ _ hs hb
  | normal => exact ha ((h.accepted _ _).mpr hb)

theorem role_enter {groupid userid : Int} {role : Role} (h : ∀ b ∈ d.group.members, ∃ r : Role, b.grouprole = some r.text) :
    ∀ b ∈ (enter groupid userid role d).group.members, ∃ r : Role, b.grouprole = some r.text := by
  intro b hb
  rw [enter, List.mem_append, List.mem_singleton] at hb
  obtain hb | rfl := hb
  · exact h b hb
  · exact ⟨role, rfl⟩

theorem Inv.move {k : Int × Int} {s : Status} (h : Inv d) (hg : d'.group = d.group) (hn : d'.nextGroupId = d.nextGroupId)
    (hs : s ≠ .accepted) (ha : (d.requests .group).status k ≠ some (some .accepted))
    (hm : ⟨k.2, k.1, some "creator"⟩ ∉ d.group.members) (he : ∃ g ∈ d.group.groups, g.id = k.2)
    (hr : ∀ x, (d'.requests .group).status x = if x = k then some (some s) else (d.requests .group).status x) :
    Inv d' where
  names := hg ▸ h.names
  creator g := by
    rw [hg, creators_congr hg]
    exact h.creator g
  accepted u g := by
    rw [normal_congr hg, ← h.accepted, hr]
    split
    · rename_i hx
      rw [hx]
      exact iff_of_false (fun he => hs (Option.some.inj (Option.some.inj he))) ha
    · rfl
  asked u g := by
    rw [hr, hg]
    split
    · rename_i hx
      cases hx
      exact fun _ => hm
    · exact h.asked u g
  known u g := by
    rw [hr, hg]
    split
    · rename_i hx
      cases hx
      exact fun _ => he
    · exact h.known u g
  single := hg ▸ h.single
  named x := by
    rw [hr]
    split
    · exact fun he => by cases he
    · exact h.named x
  role := hg ▸ h.role
  below := by
    rw [hg, hn]
    exact h.below
  housed := hg ▸ h.housed

theorem Inv.accept {userid groupid now : Int} (h : Inv d) (hu : IsInt userid) (hi : IsInt groupid)
    (hs : (d.requests .group).status (userid, groupid) = some (some .pending))
    (hr : d'.requests .group = (d.requests .group).setStatus (userid, groupid) .accepted now)
    (hg : d'.group = (d.addMember groupid userid .normal).group) (hn : d'.nextGroupId = d.nextGroupId) : Inv d' := by
  have hk : (d.requests .group).status (userid, groupid) ≠ none := by
    rw [hs]
    exact Option.some_ne_none _
  have hmem := h.hasMember_asked hk (by rw [hs]; decide)
  have hst (x : Int × Int) := Requests.Table.status_setStatus hk .accepted now x
  have hkn (x : Int × Int) : (d'.requests .group).status x ≠ none → (d.requests .group).status x ≠ none := by
    rw [hr, hst]
    split
    · rename_i hx
      exact fun _ => hx ▸ hk
    · exact id
  rw [addMember_eq hi hu, hmem, if_neg Bool.false_ne_true] at hg
  have hgr : d'.group.groups = d.group.groups := by rw [hg, enter]
  refine ⟨⟨?_, fun g => ?_, fun u g => ?_, fun u g hx => ?_, fun u g hx => ?_, ?_⟩, fun x => ?_, ?_, ?_, fun b hb => ?_⟩
  · rw [hgr]
    exact h.names
  · rw [hgr, creators_congr hg, creators_enter, if_neg fun he => Role.noConfusion he.2]
    exact h.creator g
  · rw [normal_congr hg, normal_enter, ← h.accepted, hr, hst]
    split
    · rename_i hx
      cases hx
      exact iff_of_true rfl (Or.inr ⟨rfl, rfl, rfl⟩)
    · rename_i hx
      exact (or_iff_left fun he => hx (by rw [he.2.1, he.2.2])).symm
  · rw [hg, enter, List.mem_append, List.mem_singleton]
    rintro (hc | hc)
    · exact h.asked u g (hkn _ hx) hc
    · exact absurd (Option.some.inj (Member.mk.inj hc).2.2) (by decide)
  · rw [hgr]
    exact h.known u g (hkn _ hx)
  · rw [hg]
    exact nodup_enter h.single hmem
  · rw [hr, hst]
    split
    · exact fun he => by cases he
    · exact h.named x
  · rw [hg]
    exact role_enter h.role
  · rw [hgr, hn]
    exact h.below
  · rw [hg, enter, List.mem_append, List.mem_singleton] at hb
    rw [hgr]
    obtain hb | rfl := hb
    · exact h.housed b hb
    · exact h.known userid groupid hk

theorem Inv.create {id userid : Int} {name desc : String} {d₁ : Tables} (hsame : ∀ s, same s s = true) (h : Inv d)
    (hi : d.insertGroup same id name desc = some d₁) (hg : d'.group = (d₁.addMember id userid .creator).group)
    (hn : d'.nextGroupId = id + 1) (hu : IsInt userid) (hr : d'.requests .group = d.requests .group) : Inv d' := by
  obtain ⟨hid, hle, hnames, hd₁⟩ := insertGroup_some hi
  have hmem : hasMember id userid d₁ = false := by
    rw [hd₁]
    exact h.hasMember_fresh hle userid
  rw [addMember_eq hid hu, hmem, if_neg Bool.false_ne_true, hd₁] at hg
  have hgr : d'.group.groups = d.group.groups ++ [⟨id, name, some desc⟩] := by rw [hg, enter]
  have hms : d'.group.members = d.group.members ++ [⟨id, userid, some Role.creator.text⟩] := by rw [hg, enter]
  have hcr (g : Int) : creators g d' = creators g d + if id = g ∧ Role.creator = .creator then 1 else 0 := by
    rw [creators_congr hg, creators_enter]
    rfl
  have hne {g : Int} {x : Model.GroupModel.AllGroup} (hx : x ∈ d.group.groups) (he : x.id = g) : g ≠ id := by
    have hlt := h.below x hx
    omega
  refine ⟨⟨?_, fun g hm => ?_, fun u g => ?_, fun u g hx => ?_, fun u g hx => ?_, ?_⟩, ?_, ?_, fun g hm => ?_, fun b hb => ?_⟩
  · rw [hgr, List.map_append, List.map_singleton]
    refine h.names.append (List.nodup_singleton _) ?_
    rw [List.disjoint_singleton, List.mem_map]
    rintro ⟨g, hm, he⟩
    have hdiff := hnames g hm
    rw [he, hsame] at hdiff
    cases hdiff
  · rw [hgr, List.mem_append, List.mem_singleton] at hm
    obtain hm | rfl := hm
    · rw [hcr, if_neg fun he => hne hm rfl he.1.symm]
      exact h.creator g hm
    · rw [hcr, if_pos ⟨rfl, rfl⟩, h.creators_fresh hle]
  · rw [hr, h.accepted, normal_congr hg, normal_enter]
    exact (or_iff_left fun he => Role.noConfusion he.1).symm
  · rw [hr] at hx
    rw [hms, List.mem_append, List.mem_singleton]
    obtain ⟨x, hm, he⟩ := h.known u g hx
    rintro (hc | hc)
    · exact h.asked u g hx hc
    · exact hne hm he (congrArg Member.groupid hc)
  · rw [hr] at hx
    obtain ⟨x, hm, he⟩ := h.known u g hx
    exact ⟨x, by rw [hgr]; exact List.mem_append_left _ hm, he⟩
  · rw [hg]
    exact nodup_enter h.single (h.hasMember_fresh hle userid)
  · rw [hr]
    exact h.named
  · rw [hg]
    exact role_enter h.role
  · rw [hgr, List.mem_append, List.mem_singleton] at hm
    rw [hn]
    obtain hm | rfl := hm
    · have hlt := h.below g hm
      omega
    · exact Int.lt_succ id
  · rw [hms, List.mem_append, List.mem_singleton] at hb
    rw [hgr]
    obtain hb | rfl := hb
    · obtain ⟨g, hm, he⟩ := h.housed b hb
      exact ⟨g, List.mem_append_left _ hm, he⟩
    · exact ⟨_, List.mem_append_right _ (List.mem_singleton.mpr rfl), rfl⟩

theorem creator_not_mem {userid groupid : Int} (hm : hasMember groupid userid d = false) :
    ⟨groupid, userid, some "creator"⟩ ∉ d.group.members := by
  intro hc
  rw [Bool.eq_false_iff, Ne, hasMember_eq_true] at hm
  exact hm ⟨_, hc, rfl, rfl⟩

theorem Inv.step (hsame : ∀ s, same s s = true) (h : Inv d) : Effect same d d' → Inv d'
  | .nothing hg hn hr => ⟨⟨hg ▸ h.names, by simp only [hg, creators_congr hg]; exact h.creator,
      by simp only [hr, normal_congr hg]; exact h.accepted, by rw [hr, hg]; exact h.asked, by rw [hr, hg]; exact h.known,
      hg ▸ h.single⟩, hr ▸ h.named, hg ▸ h.role, by rw [hg, hn]; exact h.below, hg ▸ h.housed⟩
  | .create id userid name desc d₁ hi hg hn hu hr => h.create hsame hi hg hn hu hr
  | .request userid groupid hm he ht hg hn => by
    have hno : (d.requests .group).status (userid, groupid) ≠ some (some .accepted) := by
      rw [Requests.Table.status, (Requests.Table.insertPending_eq_some.mp ht).1.2.2]
      exact fun he => by cases he
    exact h.move (s := .pending) hg hn (by decide) hno (creator_not_mem hm) he (Requests.Table.status_insertPending ht)
  | .renew userid groupid now hm hs hr hg hn => by
    have hk : (d.requests .group).status (userid, groupid) ≠ none := by rw [hs]; exact Option.some_ne_none _
    exact h.move (s := .pending) hg hn (by decide) (by rw [hs]; decide) (creator_not_mem hm) (h.known _ _ hk)
      (hr ▸ Requests.Table.status_setStatus hk _ _)
  | .accept userid groupid now hu hi hs hr hg hn => h.accept hu hi hs hr hg hn
  | .reject userid groupid now hs hr hg hn => by
    have hk : (d.requests .group).status (userid, groupid) ≠ none := by rw [hs]; exact Option.some_ne_none _
    exact h.move (s := .rejected) hg hn (by decide) (by rw [hs]; decide) (h.asked _ _ hk) (h.known _ _ hk)
      (hr ▸ Requests.Table.status_setStatus hk _ _)

def ownerless : Answer := .sendJson (reply .addGroupResponse 1 "The group owner does not exist.")

theorem reply_ne_ownerless {type : EnMsgType} {errmsg : String}
    (h : type ≠ .addGroupResponse ∨ errmsg ≠ "The group owner does not exist.") (errno : Int) :
    .sendJson (reply type errno errmsg) ≠ ownerless := by
  intro he
  have hj := Answer.sendJson.inj he
  obtain ht | hm := h
  · have hc := congrArg (fun j => j.get? "msgid") hj
    simp only [reply, Json.mkObj, List.foldl_cons, List.foldl_nil, Json.set_obj, Json.get?_setField, if_pos] at hc
    cases type <;> first | exact ht rfl | cases hc
  · have hc := congrArg (fun j => j.get? "errmsg") hj
    simp [reply, Json.mkObj] at hc
    exact hm hc

/-- What a handled request has done, and how the tables must have been for the
answers that should not occur. -/
structure Served (same : String → String → Bool) (d : Tables) (x : Answer × Setting) : Prop where
  effect : Effect same d x.2.db
  status : x.1 = .invalidStatus → ∃ u g r, hasMember g u d = false ∧ (d.requests .group).lookup (u, g) = some r ∧
    r.status ≠ some .pending ∧ r.status ≠ some .rejected
  owner : x.1 = ownerless → ∃ g ∈ d.group.groups, creators g.id d = 0

theorem Effect.tick (now : Int) : Effect same d d' → Effect same d (d'.tick now)
  | .nothing hg hn hr => .nothing hg hn hr
  | .create id userid name desc d₁ hi hg hn hu hr => .create id userid name desc d₁ hi hg hn hu hr
  | .request userid groupid hm he ht hg hn => .request userid groupid hm he ht hg hn
  | .renew userid groupid now hm hs hr hg hn => .renew userid groupid now hm hs hr hg hn
  | .accept userid groupid now hu hi hs hr hg hn => .accept userid groupid now hu hi hs hr hg hn
  | .reject userid groupid now hs hr hg hn => .reject userid groupid now hs hr hg hn

theorem Effect.of_tick {now : Int} : Effect same (d.tick now) d' → Effect same d d'
  | .nothing hg hn hr => .nothing hg hn hr
  | .create id userid name desc d₁ hi hg hn hu hr => by
    obtain ⟨d₂, hi₂⟩ := Option.isSome_iff_exists.mp ((isSome_insertGroup_tick now id name desc d).symm.trans (by rw [hi]; rfl))
    refine .create id userid name desc d₂ hi₂ ?_ hn hu hr
    obtain ⟨hid, -, -, h₁⟩ := insertGroup_some hi
    obtain ⟨-, -, -, h₂⟩ := insertGroup_some hi₂
    rw [hg, addMember_eq hid hu, addMember_eq hid hu, h₁, h₂, apply_ite Tables.group, apply_ite Tables.group]
    rfl
  | .request userid groupid hm he ht hg hn => .request userid groupid hm he ht hg hn
  | .renew userid groupid now hm hs hr hg hn => .renew userid groupid now hm hs hr hg hn
  | .accept userid groupid now hu hi hs hr hg hn => .accept userid groupid now hu hi hs hr (by
      rw [hg, addMember_eq hi hu, addMember_eq hi hu, apply_ite Tables.group, apply_ite Tables.group]
      rfl) hn
  | .reject userid groupid now hs hr hg hn => .reject userid groupid now hs hr hg hn

theorem Served.of_tick {x : Answer × Setting} {now : Int} (h : Served same (d.tick now) x) : Served same d x :=
  ⟨h.effect.of_tick, h.status, h.owner⟩

theorem served_answer {type : EnMsgType} {errmsg : String}
    (h : type ≠ .addGroupResponse ∨ errmsg ≠ "The group owner does not exist.") (errno : Int) (he : Effect same d w.db) :
    Served same d (Program.run (Call.exec E) (answer type errno errmsg) os w) :=
  ⟨he, fun hi => Answer.noConfusion hi, fun ho => absurd ho (reply_ne_ownerless h errno)⟩

theorem served_deliver (targetId : Int) (payload : String) (he : Effect same d w.db) :
    Served same d ((deliverMessage targetId payload).run (Call.exec E) os w) := by
  have hd := run_deliverMessage E targetId payload os w
  have ha : ((deliverMessage targetId payload).run (Call.exec E) os w).1 = .delivered :=
    Program.run_returns (deliverMessage_delivered targetId payload) os w
  refine ⟨by rw [hd]; exact he, fun hi => ?_, fun ho => ?_⟩
  · rw [ha] at hi
    cases hi
  · rw [ha] at ho
    cases ho

section

variable (hE : E.Rules same) (hos : ∀ n, (os n).Ok)

include hE hos

theorem forwardToOwner_served (groupid : Int) (payload : String) (he : Effect same d w.db)
    (hg : ∃ g ∈ d.group.groups, g.id = groupid) (hm : w.db.group = d.group) :
    Served same d ((forwardToOwner groupid payload).run (Call.exec E) os w) := by
  have ho := (GroupCall.queryGroupOwnerId groupid).exec_of_ok hE.db (hos 0) trivial w.db
  rw [forwardToOwner, run_group ho, creatorOf, hm]
  cases hf : d.group.members.find? fun b => b.groupid = groupid && b.grouprole = some "creator" with
  | some b => exact served_deliver b.userid payload (he.tick (os 0).now)
  | none =>
    refine ⟨he.tick (os 0).now, fun hi => Answer.noConfusion hi, fun _ => ?_⟩
    obtain ⟨g, hm, rfl⟩ := hg
    refine ⟨g, hm, List.countP_eq_zero.mpr fun b hb => ?_⟩
    exact List.find?_eq_none.mp hf b hb

theorem requestGroup_served {userid groupid : Int} (payload : String) (hm : hasMember groupid userid w.db = false)
    (hg : ∃ g ∈ w.db.group.groups, g.id = groupid) :
    Served same w.db (Program.run (Call.exec E)
      (.call (.group (.queryRequestStatus userid groupid)) (requestGroup userid groupid payload)) os w) := by
  rw [run_group ((GroupCall.queryRequestStatus userid groupid).exec_of_ok hE.db (hos 0) trivial w.db)]
  cases hl : (w.db.requests .group).lookup (userid, groupid) with
  | none =>
    have ha := (GroupCall.addGroupRequest userid groupid).exec_of_ok hE.db (hos (0 + 1)) trivial (w.db.tick (os 0).now)
    rw [rowStatus, Option.elim_none, requestGroup, run_group ha, Tables.tick_requests]
    cases ht : (w.db.requests .group).insertPending (userid, groupid) with
    | none =>
      rw [Tables.addRequest_of_none (d := (w.db.tick (os 0).now).tick (os (0 + 1)).now) ht]
      exact served_answer (by decide) _ (.nothing rfl rfl rfl)
    | some t =>
      rw [Tables.addRequest_of_some (d := (w.db.tick (os 0).now).tick (os (0 + 1)).now) ht]
      exact forwardToOwner_served hE (fun n => hos (n + 2)) groupid payload (.request userid groupid hm hg ht rfl rfl) hg rfl
  | some r =>
    obtain ⟨status, handledAt⟩ := r
    rw [rowStatus, Option.elim_some]
    have hs : (w.db.requests .group).status (userid, groupid) = some status := by
      rw [Requests.Table.status, hl, Option.map_some]
    cases status with
    | none => exact ⟨.nothing rfl rfl rfl, fun _ => ⟨userid, groupid, _, hm, hl, by simp, by simp⟩, fun h => Answer.noConfusion h⟩
    | some s =>
      cases s with
      | accepted =>
        exact ⟨.nothing rfl rfl rfl, fun _ => ⟨userid, groupid, _, hm, hl, by simp, by simp⟩, fun h => Answer.noConfusion h⟩
      | pending => exact served_answer (by decide) _ (.nothing rfl rfl rfl)
      | rejected =>
        have hu := ((GroupCall.updateRequestStatus userid groupid "pending").exec_of_ok hE.db (hos (0 + 1)) trivial
          (w.db.tick (os 0).now)).trans (setText_eq (s := .pending) rfl _)
        refine (congrArg (Served same w.db) (run_group hu)).mpr ?_
        exact forwardToOwner_served hE (fun n => hos (n + 2)) groupid payload (.renew userid groupid _ hm hs rfl rfl rfl) hg rfl

theorem addGroup_served (js : Json) : Served same w.db ((addGroup js).run (Call.exec E) os w) := by
  unfold addGroup
  split
  case h_2 => exact ⟨.nothing rfl rfl rfl, fun h => Answer.noConfusion h, fun h => Answer.noConfusion h⟩
  case h_1 userid groupid _ _ =>
    have h₀ : (GroupCall.isUserInGroup userid groupid).exec E.db (os 0) w.db =
        (foundStatus (hasMember groupid userid w.db), w.db.tick (os 0).now) :=
      (GroupCall.isUserInGroup userid groupid).exec_of_ok hE.db (hos 0) trivial w.db
    have h₁ := (GroupCall.isGroupExist groupid).exec_of_ok hE.db (hos (0 + 1)) trivial (w.db.tick (os 0).now)
    rw [run_group h₀]
    cases hm : hasMember groupid userid w.db with
    | true => exact served_answer (by decide) _ (.nothing rfl rfl rfl)
    | false =>
      refine (congrArg (Served same w.db) (run_group (w := w.put (w.db.tick (os 0).now)) h₁)).mpr ?_
      rw [Tables.tick_group]
      cases hg : w.db.group.groups.any fun g => g.id = groupid with
      | false => exact served_answer (by decide) _ (.nothing rfl rfl rfl)
      | true =>
        have hg : ∃ g ∈ w.db.group.groups, g.id = groupid := by simpa using hg
        exact (requestGroup_served hE (fun n => hos (n + 1 + 1)) js.dump hm hg).of_tick.of_tick

theorem join_served {userid groupid : Int} {d : Tables} (hu : IsInt userid) (hi : IsInt groupid) (now : Int)
    (hs : (d.requests .group).status (userid, groupid) = some (some .pending))
    (hr : w.db.requests .group = (d.requests .group).setStatus (userid, groupid) .accepted now)
    (hg : w.db.group = d.group) (hn : w.db.nextGroupId = d.nextGroupId) :
    Served same d ((join userid groupid).run (Call.exec E) os w) := by
  have hmem : hasMember groupid userid (w.db.tick (os 0).now) = hasMember groupid userid d := by
    rw [hasMember, hasMember, Tables.tick_group, hg]
  have h₀ : (GroupCall.addGroup userid groupid "normal").exec E.db (os 0) w.db =
      ((), (w.db.tick (os 0).now).addMember groupid userid .normal) :=
    (GroupCall.addGroup userid groupid "normal").exec_of_ok hE.db (hos 0) ⟨.normal, rfl⟩ w.db
  rw [join, run_group h₀]
  refine served_deliver _ _ (.accept userid groupid now hu hi hs ?_ ?_ ?_)
  · rw [← hr]
    exact congrFun (Tables.addMember_requests _ _ _ _) _
  · change ((w.db.tick (os 0).now).addMember groupid userid .normal).group = _
    rw [addMember_eq hi hu, addMember_eq hi hu, hmem, apply_ite Tables.group, apply_ite Tables.group, enter, enter,
      Tables.tick_group, hg]
  · change ((w.db.tick (os 0).now).addMember groupid userid .normal).nextGroupId = _
    rw [addMember_eq hi hu, apply_ite Tables.nextGroupId, ← hn]
    exact ite_self _

theorem addGroupHandle_served (js : Json) : Served same w.db ((addGroupHandle js).run (Call.exec E) os w) := by
  unfold addGroupHandle
  split
  case h_2 => exact ⟨.nothing rfl rfl rfl, fun h => Answer.noConfusion h, fun h => Answer.noConfusion h⟩
  case h_1 userid groupid hu hg =>
    have h₀ : (GroupCall.isPendingRequest userid groupid).exec E.db (os 0) w.db =
        (decide ((w.db.requests .group).status (userid, groupid) = some (some .pending)), w.db.tick (os 0).now) :=
      (GroupCall.isPendingRequest userid groupid).exec_of_ok hE.db (hos 0) trivial w.db
    rw [run_group h₀]
    by_cases hs : (w.db.requests .group).status (userid, groupid) = some (some .pending)
    · rw [decide_eq_true hs, if_pos rfl]
      cases (js.get? "action").bind Json.toStr? with
      | none => exact ⟨.nothing rfl rfl rfl, fun h => Answer.noConfusion h, fun h => Answer.noConfusion h⟩
      | some action =>
        by_cases hc : action = "accept"
        · have h₁ := ((GroupCall.updateRequestStatus userid groupid "accepted").exec_of_ok hE.db (hos (0 + 1)) trivial
            (w.db.tick (os 0).now)).trans (setText_eq (s := .accepted) rfl _)
          refine (congrArg (fun p : Handler => Served same w.db (p.run (Call.exec E) _ _)) (if_pos hc)).mpr ?_
          refine (congrArg (Served same w.db) (run_group h₁)).mpr ?_
          exact join_served hE (fun n => hos (n + 1 + 1)) (isInt_of_field hu) (isInt_of_field hg) _ hs rfl rfl rfl
        · have h₁ := ((GroupCall.updateRequestStatus userid groupid "rejected").exec_of_ok hE.db (hos (0 + 1)) trivial
            (w.db.tick (os 0).now)).trans (setText_eq (s := .rejected) rfl _)
          refine (congrArg (fun p : Handler => Served same w.db (p.run (Call.exec E) _ _)) (if_neg hc)).mpr ?_
          refine (congrArg (Served same w.db) (run_group h₁)).mpr ?_
          exact served_deliver _ _ (.reject userid groupid _ hs rfl rfl rfl)
    · rw [decide_eq_false hs, if_neg Bool.false_ne_true]
      exact served_answer (by decide) _ (.nothing rfl rfl rfl)

theorem createGroup_served {js : Json}
    (hp : ∀ name desc, (js.get? "groupname").bind Json.toStr? = some name →
      (js.get? "groupdesc").bind Json.toStr? = some desc → Plain name ∧ Plain desc) :
    Served same w.db ((createGroup js).run (Call.exec E) os w) := by
  unfold createGroup
  split
  case h_2 => exact ⟨.nothing rfl rfl rfl, fun h => Answer.noConfusion h, fun h => Answer.noConfusion h⟩
  case h_1 userid name desc hu hn hd =>
    obtain ⟨hpn, hpd⟩ := hp name desc hn hd
    rw [run_group ((GroupCall.isGroupExistName name).exec_of_ok hE.db (hos 0) hpn w.db)]
    cases w.db.group.groups.any fun g => same g.groupname name with
    | true => exact served_answer (by decide) _ (.nothing rfl rfl rfl)
    | false =>
      have h₁ := (GroupCall.createGroup name desc).exec_of_ok hE.db (hos (0 + 1)) ⟨hpn, hpd⟩ (w.db.tick (os 0).now)
      rw [GroupCall.effect] at h₁
      generalize E.db.insertId (Update.insertGroup name desc).tokens _ = id at h₁
      cases hi : ((w.db.tick (os 0).now).tick (os (0 + 1)).now).insertGroup same id name desc with
      | none =>
        rw [hi, Option.elim_none] at h₁
        refine (congrArg (Served same w.db) (run_group h₁)).mpr ?_
        exact served_answer (by decide) _ (.nothing rfl rfl rfl)
      | some d' =>
        rw [hi, Option.elim_some] at h₁
        obtain ⟨hid, -, -, hd'⟩ := insertGroup_some hi
        have h₂ : (GroupCall.addGroup userid id "creator").exec E.db (os (0 + 1 + 1)) d' =
            ((), (d'.tick (os (0 + 1 + 1)).now).addMember id userid .creator) :=
          (GroupCall.addGroup userid id "creator").exec_of_ok hE.db (hos (0 + 1 + 1)) ⟨.creator, rfl⟩ d'
        refine (congrArg (Served same w.db) (run_group h₁)).mpr ?_
        refine (congrArg (Served same w.db) (run_group (w := (w.put (w.db.tick (os 0).now)).put d') h₂)).mpr ?_
        have htick : (d'.tick (os (0 + 1 + 1)).now).addMember id userid .creator =
            (d'.addMember id userid .creator).tick (os (0 + 1 + 1)).now := by
          rw [addMember_eq hid (isInt_of_field hu), addMember_eq hid (isInt_of_field hu), apply_ite (Tables.tick _)]
          rfl
        have hrest : (d'.addMember id userid .creator).nextGroupId = id + 1 ∧
            (d'.addMember id userid .creator).requests = w.db.requests := by
          rw [addMember_eq hid (isInt_of_field hu), hd']
          split <;> exact ⟨rfl, rfl⟩
        have he : Effect same ((w.db.tick (os 0).now).tick (os (0 + 1)).now) (d'.addMember id userid .creator) :=
          .create id userid name desc d' hi rfl hrest.1 (isInt_of_field hu) (congrFun hrest.2 _)
        rw [htick]
        exact served_answer (Or.inl (by decide)) 0 (he.of_tick.of_tick.tick _)

end

inductive GroupRequest
  | createGroup (js : Json)
  | addGroup (js : Json)
  | addGroupHandle (js : Json)

def GroupRequest.handler : GroupRequest → Handler
  | createGroup js => RequestHandlers.createGroup js
  | addGroup js => RequestHandlers.addGroup js
  | addGroupHandle js => RequestHandlers.addGroupHandle js

/-- The name and the description of a new group are one literal each. -/
def GroupRequest.Texts : GroupRequest → Prop
  | createGroup js => ∀ name desc, (js.get? "groupname").bind Json.toStr? = some name →
    (js.get? "groupdesc").bind Json.toStr? = some desc → Plain name ∧ Plain desc
  | _ => True

def handling (E : Engines) : Machine Setting (GroupRequest × (Nat → Outcome)) where
  step w x := some (x.1.handler.run (Call.exec E) x.2 w).2

theorem handler_served (hE : E.Rules same) {x : GroupRequest} (hx : x.Texts) (hos : ∀ n, (os n).Ok) (w : Setting) :
    Served same w.db (x.handler.run (Call.exec E) os w) := by
  cases x with
  | createGroup js => exact createGroup_served hE hos hx
  | addGroup js => exact addGroup_served hE hos js
  | addGroupHandle js => exact addGroupHandle_served hE hos js

theorem inv_of_empty (hg : d.group = {}) (hr : d.requests .group = ∅) : Inv d := by
  have hs (k : Int × Int) : (d.requests .group).status k = none := by
    rw [hr]
    rfl
  refine ⟨⟨?_, ?_, fun u g => ?_, fun u g h => absurd (hs _) h, fun u g h => absurd (hs _) h, ?_⟩, fun k h => ?_, ?_, ?_, ?_⟩
  · simp [hg]
  · simp [hg]
  · simp [hs, NormalMember, hg]
  · simp [hg]
  · rw [hs] at h
    cases h
  · simp [hg]
  · simp [hg]
  · simp [hg]

theorem inv_run (hE : E.Rules same) (hsame : ∀ s, same s s = true) {xs : List (GroupRequest × (Nat → Outcome))}
    {w' : Setting} (hx : ∀ x ∈ xs, x.1.Texts ∧ ∀ n, (x.2 n).Ok) (h : Inv w.db)
    (hr : (handling E).run w xs = some w') : Inv w'.db := by
  have hm := Machine.meets_of_forall (M := handling E) w hx
  refine Machine.run_invariant (I := fun w => Inv w.db) h ?_ hm hr
  rintro w x t hi hx ⟨⟩
  exact hi.step hsame (handler_served hE hx.1 hx.2 w).effect

/-- The tables of groups agree after any requests whose texts are one literal
each, and no request comes to the answers that should not occur. -/
theorem membership_invariant (hE : E.Rules same) (hsame : ∀ s, same s s = true)
    {xs : List (GroupRequest × (Nat → Outcome))} {w₀ w : Setting} (hx : ∀ x ∈ xs, x.1.Texts ∧ ∀ n, (x.2 n).Ok)
    (hg : w₀.db.group = {}) (hr : w₀.db.requests .group = ∅) (hw : (handling E).run w₀ xs = some w) :
    Consistent w.db ∧ ∀ (x : GroupRequest) (os : Nat → Outcome), x.Texts → (∀ n, (os n).Ok) →
      (x.handler.run (Call.exec E) os w).1 ≠ .invalidStatus ∧ (x.handler.run (Call.exec E) os w).1 ≠ ownerless := by
  have h := inv_run hE hsame hx (inv_of_empty hg hr) hw
  refine ⟨h.toConsistent, fun x os ht hos => ⟨fun hi => ?_, fun ho => ?_⟩⟩
  · obtain ⟨u, g, r, hm, hl, hp, hj⟩ := (handler_served hE ht hos w).status hi
    have hst : (w.db.requests .group).status (u, g) = some r.status := by rw [Requests.Table.status, hl, Option.map_some]
    cases hs : r.status with
    | none => exact h.named (u, g) (by rw [hst, hs])
    | some s =>
      cases s with
      | pending => exact hp hs
      | rejected => exact hj hs
      | accepted =>
        have hn := hasMember_of_normal ((h.accepted u g).mp (by rw [hst, hs]))
        rw [hm] at hn
        cases hn
  · obtain ⟨g, hm, hc⟩ := (handler_served hE ht hos w).owner ho
    rw [h.creator g hm] at hc
    cases hc

namespace Founders

def found (name desc : String) : Json := .obj [("groupdesc", .str desc), ("groupname", .str name), ("userid", .int 1)]

def readRows : List Token → Option ((String × String) × (String × String))
  | [.lit a, .sym ',', .lit b, .sym ')', .sym ',', .sym '(', .lit c, .sym ',', .lit e, .sym ')'] =>
    some ((String.ofList a, String.ofList b), String.ofList c, String.ofList e)
  | _ => none

def mysql (same : String → String → Bool) : Db.Mysql Tables where
  update ts d :=
    match Form.read updateForms ts with
    | some u => u.apply same d.nextGroupId d
    | none => (Form.read [⟨insertGroupHead, readRows⟩] ts).bind fun rows =>
      (d.insertGroup same d.nextGroupId rows.1.1 rows.1.2).bind fun d' =>
        d'.insertGroup same d'.nextGroupId rows.2.1 rows.2.2
  query ts d := (Form.read queryForms ts).map fun q => q.rows same d
  insertId _ d := d.nextGroupId

theorem mysql_rules (same : String → String → Bool) : Database.Rules same (mysql same) where
  update u d := by
    simp only [mysql, read_update]
  query q d := by
    simp only [mysql, read_query, Option.map_some]

def engines : Engines :=
  ⟨mysql fun a b => a = b, UserModel.strictMysql fun a b => a = b, OfflineMsgModel.strictMysql⟩

theorem engines_rules : engines.Rules fun a b => a = b :=
  ⟨mysql_rules _, UserModel.strictMysql_rules _, OfflineMsgModel.strictMysql_rules⟩

/-- A description that makes two rows of one insert. -/
def second : String := "d'),('y','e"

def secondTokens : List Token :=
  insertGroupHead ++ [.lit "x".toList, .sym ',', .lit "d".toList, .sym ')', .sym ',', .sym '(', .lit "y".toList, .sym ',',
    .lit "e".toList, .sym ')']

theorem sent_second : sent (Services.GroupModel.createGroupSql "x" second) = some secondTokens := by
  have h : Opens "insert into AllGroup (groupname , groupdesc) value ('" insertGroupHead :=
    opens_of String.toList_ofList (by decide) (by decide)
  have hx : Plain "x" := by decide
  refine ((h.append hx between_comma).sent (x := second) (s := "')") (by decide) (by decide)).trans ?_
  decide

def world : Setting := { db := { users := Friendship.Persons.accounts } }

theorem update_second : ∃ d', (mysql fun a b => a = b).update secondTokens (world.db.tick 0) = some d' ∧
    d'.group = { groups := [⟨1, "x", some "d"⟩, ⟨2, "y", some "e"⟩] } := by
  have h : ((mysql fun a b => a = b).update secondTokens (world.db.tick 0)).map Tables.group =
      some { groups := [⟨1, "x", some "d"⟩, ⟨2, "y", some "e"⟩] } := by decide
  exact Option.map_eq_some_iff.mp h

theorem createGroup_second : ∃ d', (GroupCall.createGroup "x" second).exec engines.db {} (world.db.tick 0) = (some 1, d') ∧
    d'.group = { groups := [⟨1, "x", some "d"⟩, ⟨2, "y", some "e"⟩] } := by
  obtain ⟨d', h, hg⟩ := update_second
  refine ⟨d', ?_, hg⟩
  have hid : DbSession.lastInsertId (Outcome.session engines.db {}) (Services.GroupModel.createGroupSql "x" second)
      (world.db.tick 0) = 1 := by
    rw [DbSession.lastInsertId]
    change Mysql.lastInsertId _ _ _ = _
    rw [Mysql.lastInsertId, sent_second]
    rfl
  have hup : DbSession.update (Outcome.session engines.db {}) (Services.GroupModel.createGroupSql "x" second)
      (world.db.tick 0) = (true, d') := by
    rw [Outcome.session_update _ sent_second]
    exact congrArg (fun x => Option.elim x (false, world.db.tick 0) fun d' => (true, d')) h
  have htick : (world.db.tick 0).tick (Outcome.now {}) = world.db.tick 0 := rfl
  rw [GroupCall.exec, GroupCall.serve, Services.GroupModel.createGroup, htick, hup, hid]

def visits : List (GroupRequest × (Nat → Outcome)) :=
  [(.createGroup (found "x" "d"), fun _ => {}), (.addGroup (.obj [("groupid", .int 1), ("userid", .int 2)]), fun _ => {}),
    (.addGroupHandle (.obj [("action", .str "accept"), ("groupid", .int 1), ("userid", .int 2)]), fun _ => {})]

end Founders

open Founders

theorem membership_invariant_visits : ∃ w, (handling engines).run world visits = some w ∧
    w.db.group.members = [⟨1, 1, some "creator"⟩, ⟨1, 2, some "normal"⟩] ∧ Consistent w.db := by
  have hv : ∀ x ∈ visits, x.1.Texts ∧ ∀ n, (x.2 n).Ok := by
    rw [visits, List.forall_mem_cons, List.forall_mem_cons, List.forall_mem_singleton]
    refine ⟨⟨?_, fun _ => rfl⟩, ⟨trivial, fun _ => rfl⟩, trivial, fun _ => rfl⟩
    rintro _ _ ⟨⟩ ⟨⟩
    decide +kernel
  have hm : ((handling engines).run world visits).map (fun w => w.db.group.members) =
      some [⟨1, 1, some "creator"⟩, ⟨1, 2, some "normal"⟩] := by
    unfold handling
    rw [Call.exec_eq engines_rules]
    decide +kernel
  obtain ⟨w, hw, hm⟩ := Option.map_eq_some_iff.mp hm
  exact ⟨w, hw, hm, (membership_invariant engines_rules (fun s => decide_eq_true rfl) hv rfl rfl hw).1⟩

theorem second_without_creator : ¬ ∀ (same : String → String → Bool) (E : Engines), E.Rules same → (∀ s, same s s = true) →
    ∀ (xs : List (GroupRequest × (Nat → Outcome))) (w₀ w : Setting), (∀ x ∈ xs, ∀ n, (x.2 n).Ok) →
    w₀.db.group = {} → w₀.db.requests .group = ∅ → (handling E).run w₀ xs = some w → Consistent w.db := by
  intro h
  obtain ⟨d', h₁, hg⟩ := createGroup_second
  have hok : Outcome.Ok {} := rfl
  have h₀ : (GroupCall.isGroupExistName "x").exec engines.db {} world.db = (foundStatus false, world.db.tick 0) :=
    (GroupCall.isGroupExistName "x").exec_of_ok engines_rules.db hok (by decide) world.db
  have h₂ : (GroupCall.addGroup 1 1 "creator").exec engines.db {} d' = ((), (d'.tick 0).addMember 1 1 .creator) :=
    (GroupCall.addGroup 1 1 "creator").exec_of_ok engines_rules.db hok ⟨.creator, rfl⟩ d'
  have hw : ((createGroup (found "x" second)).run (Call.exec engines) (fun _ => {}) world).2.db =
      (d'.tick 0).addMember 1 1 .creator := by
    rw [createGroup, show ((found "x" second).get? "userid").bind Json.toInt? = some 1 from rfl,
      show ((found "x" second).get? "groupname").bind Json.toStr? = some "x" from rfl,
      show ((found "x" second).get? "groupdesc").bind Json.toStr? = some second from rfl]
    dsimp only
    rw [run_group h₀]
    refine (congrArg (fun x => x.2.db) (@run_group engines (fun _ => {}) (world.put (world.db.tick 0)) _ _ _ _ h₁)).trans ?_
    exact congrArg (fun x => x.2.db) (@run_group engines (fun _ => {}) (world.put d') _ _ _ _ h₂)
  have hc := h _ engines engines_rules (fun s => decide_eq_true rfl) [(.createGroup (found "x" second), fun _ => {})] world _
    (by rw [List.forall_mem_singleton]; exact fun _ => rfl) rfl rfl rfl
  change Consistent ((createGroup (found "x" second)).run (Call.exec engines) (fun _ => {}) world).2.db at hc
  have hone := hc.creator ⟨2, "y", some "e"⟩
  have hm : hasMember 1 1 (d'.tick 0) = false := by
    rw [hasMember, Tables.tick_group, hg]
    rfl
  rw [hw, addMember_eq (by decide) (by decide), hm, if_neg Bool.false_ne_true, creators_enter, creators, enter,
    Tables.tick_group, hg] at hone
  exact absurd (hone (by simp)) (by decide)

end BridgeIM.Server.Membership
