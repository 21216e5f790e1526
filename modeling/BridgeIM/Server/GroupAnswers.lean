import BridgeIM.Server.Answering
import BridgeIM.Server.Groups

namespace BridgeIM.Server.GroupAnswers

open CString Db Lib Lib.SqlText Model Model.Requests Model.Database Services RequestHandlers Friendship Answering Groups

variable {same : String → String → Bool} {E : Engines} {os : Nat → Outcome} {w : Setting} {d d' : Tables}

/-- Every group has one creator, and the accepted requests are the normal members. -/
structure Sound (d : Tables) : Prop where
  creator : ∀ g ∈ d.group.groups, creators g.id d = 1
  accepted : ∀ userid groupid, (d.requests .group).status (userid, groupid) = some (some .accepted) ↔
    NormalMember userid groupid d

inductive GroupOperation
  | createGroup (js : Json)
  | addGroupHandle (js : Json)

def GroupOperation.handler : GroupOperation → Handler
  | createGroup js => RequestHandlers.createGroup js
  | addGroupHandle js => RequestHandlers.addGroupHandle js

def Founded (userid : Int) (name desc : String) (d d' : Tables) : Prop :=
  ∃ id, d'.group.groups = d.group.groups ++ [⟨id, name, some desc⟩] ∧
    d'.group.members = d.group.members ++ [⟨id, userid, some "creator"⟩]

def Joined (userid groupid : Int) (d d' : Tables) : Prop :=
  (d'.requests .group).status (userid, groupid) = some (some .accepted) ∧
    d'.group.members = d.group.members ++ [⟨groupid, userid, some "normal"⟩]

def Success : Answer → Prop
  | .sendJson response => response.get? "errno" = some (.int 0)
  | _ => False

/-- The operation keeps the tables sound, and success is told only of what is in them. -/
def AllOrNothing (w : Setting) (x : Answer × Setting) : GroupOperation → Prop
  | .createGroup js => Sound x.2.db ∧ (Success x.1 →
    ∃ userid name desc, (js.get? "userid").bind Json.toInt? = some userid ∧
      (js.get? "groupname").bind Json.toStr? = some name ∧ (js.get? "groupdesc").bind Json.toStr? = some desc ∧
      Founded userid name desc w.db x.2.db)
  | .addGroupHandle js => Sound x.2.db ∧ ∀ userid groupid, (js.get? "userid").bind Json.toInt? = some userid →
    (js.get? "groupid").bind Json.toInt? = some groupid → Told w x.2 userid acceptGroupResponse.dump →
      Joined userid groupid w.db x.2.db

/-- The failures that leave the creation of a group with this id all or nothing. -/
def FoundHarmless (same : String → String → Bool) (userid id : Int) (name desc : String) (d : Tables)
    (os : Nat → Outcome) : Prop :=
  (d.insertGroup same id name desc).isSome = true →
    if (os 0).reported = true then (os 1).runs = true ∧ hasMember id userid d = false ∧ creators id d = 0
    else creators id d = 1

def CreateHarmless (same : String → String → Bool) (m : Db.Mysql Tables) (userid : Int) (name desc : String)
    (d : Tables) (os : Nat → Outcome) : Prop :=
  ((os 0).runs && (os 0).reported) = true → (d.group.groups.any fun g => same g.groupname name) = false →
    (os 1).runs = true →
      FoundHarmless same userid (m.insertId (Update.insertGroup name desc).tokens (d.tick (os 1).now)) name desc d
        fun n => os (n + 1)

/-- The failures that leave an answer to a request all or nothing. -/
def AnswerHarmless (userid groupid : Int) (action : String) (w : Setting) (os : Nat → Outcome) : Prop :=
  ((os 0).runs && (os 0).reported) = true → (w.db.requests .group).status (userid, groupid) = some (some .pending) →
    action = "accept" →
      if (os 1).runs = true then (os 2).runs = true ∧ hasMember groupid userid w.db = false
      else ((os 2).runs && !hasMember groupid userid w.db) = false ∧ ¬ Reaches w userid (fun n => os (n + 3))

theorem errno_reply (type : EnMsgType) (errno : Int) (errmsg : String) :
    (reply type errno errmsg).get? "errno" = some (.int errno) := by
  simp [reply, Json.mkObj]

theorem not_success {type : EnMsgType} {errno : Int} (h : errno ≠ 0) (errmsg : String) :
    ¬ Success (.sendJson (reply type errno errmsg)) := by
  rw [Success, errno_reply]
  intro he
  cases he
  exact h rfl

theorem run_answer (type : EnMsgType) (errno : Int) (errmsg : String) (w : Setting) :
    Program.run (Call.exec E) (answer type errno errmsg) os w = (.sendJson (reply type errno errmsg), w) := rfl

theorem Sound.of_eq (h : Sound d) (hg : d'.group = d.group) (hr : d'.requests .group = d.requests .group) : Sound d' := by
  refine ⟨fun g => ?_, fun u g => ?_⟩
  · rw [hg, creators, hg]
    exact h.creator g
  · rw [hr, NormalMember, hg]
    exact h.accepted u g

theorem sound_founded {id : Int} {name desc : String} (h : Sound d)
    (hg : d'.group.groups = d.group.groups ++ [⟨id, name, some desc⟩]) (hr : d'.requests .group = d.requests .group)
    (hn : ∀ u g, NormalMember u g d' ↔ NormalMember u g d) (hc : ∀ g, g ≠ id → creators g d' = creators g d) :
    Sound d' ↔ creators id d' = 1 := by
  refine ⟨fun h' => h'.creator ⟨id, name, some desc⟩ (by simp [hg]), fun h' => ⟨fun g hm => ?_, fun u g => ?_⟩⟩
  · by_cases hid : g.id = id
    · rwa [hid]
    · rw [hg, List.mem_append, List.mem_singleton] at hm
      obtain hm | rfl := hm
      · rw [hc _ hid]
        exact h.creator g hm
      · exact absurd rfl hid
  · rw [hr, hn]
    exact h.accepted u g

section

variable {js : Json} {userid : Int} {name desc : String} (hu : (js.get? "userid").bind Json.toInt? = some userid)
  (hn : (js.get? "groupname").bind Json.toStr? = some name) (hd : (js.get? "groupdesc").bind Json.toStr? = some desc)

include hu hn hd

theorem allOrNothing_createGroup {x : Answer × Setting} : AllOrNothing w x (.createGroup js) ↔
    Sound x.2.db ∧ (Success x.1 → Founded userid name desc w.db x.2.db) := by
  rw [AllOrNothing, hu, hn, hd]
  refine and_congr_right fun _ => imp_congr_right fun _ => ⟨?_, fun h => ⟨userid, name, desc, rfl, rfl, rfl, h⟩⟩
  rintro ⟨_, _, _, ⟨⟩, ⟨⟩, ⟨⟩, h⟩
  exact h

theorem createFailed_iff {errno : Int} (hne : errno ≠ 0) (errmsg : String) :
    AllOrNothing w (Program.run (Call.exec E) (answer .createGroupMsgAck errno errmsg) os (w.put d)) (.createGroup js) ↔
      Sound d := by
  rw [run_answer, allOrNothing_createGroup hu hn hd]
  exact and_iff_left fun h => absurd h (not_success hne errmsg)

variable (hE : E.Rules same) (hs : Sound w.db)

include hE hs

theorem addCreator_iff {id : Int} (hi : IsInt id)
    (hg : d.group = { w.db.group with groups := w.db.group.groups ++ [⟨id, name, some desc⟩] })
    (hr : d.requests = w.db.requests) :
    AllOrNothing w (Program.run (Call.exec E) (.call (.group (.addGroup userid id "creator")) fun _ =>
      answer .createGroupMsgAck 0 ("Create group success! Your groupid is " ++ decimal id)) os (w.put d)) (.createGroup js) ↔
      (os 0).runs = true ∧ hasMember id userid w.db = false ∧ creators id w.db = 0 := by
  obtain ⟨d₂, h₂, hr₂, -, hg₂⟩ := addGroup_cases hE hi (isInt_of_field hu) "creator" (show _ = Role.creator.text from rfl) (os 0) d
  have hsuccess : Success (.sendJson (reply .createGroupMsgAck 0 ("Create group success! Your groupid is " ++ decimal id))) :=
    errno_reply _ _ _
  have hmem : hasMember id userid d = hasMember id userid w.db := by rw [hasMember, hg, hasMember]
  have hcr (g : Int) : creators g d = creators g w.db := by rw [creators, hg, creators]
  rw [run_group (w := w.put d) h₂, run_answer, allOrNothing_createGroup hu hn hd, imp_iff_right hsuccess]
  rw [hmem] at hg₂
  change Sound d₂ ∧ Founded userid name desc w.db d₂ ↔ _
  cases hb : (os 0).runs && !hasMember id userid w.db with
  | false =>
    rw [hb, if_neg Bool.false_ne_true] at hg₂
    refine iff_of_false ?_ ?_
    · rintro ⟨-, _, -, hm⟩
      rw [hg₂, hg] at hm
      exact List.cons_ne_nil _ _ (List.self_eq_append_right.mp hm)
    · rintro ⟨hrun, hnew, -⟩
      rw [hrun, hnew] at hb
      cases hb
  | true =>
    rw [hb, if_pos rfl] at hg₂
    obtain ⟨hrun, hnew⟩ := Bool.and_eq_true_iff.mp hb
    rw [Bool.not_eq_true'] at hnew
    have hgroups : d₂.group.groups = w.db.group.groups ++ [⟨id, name, some desc⟩] := by rw [hg₂, enter, hg]
    have hcr₂ (g : Int) : creators g d₂ = creators g w.db + if id = g ∧ Role.creator = .creator then 1 else 0 := by
      rw [creators_congr hg₂, creators_enter, hcr]
    rw [sound_founded hs hgroups (by rw [hr₂, hr]), hcr₂, if_pos ⟨rfl, rfl⟩, and_iff_right hrun, and_iff_right hnew]
    · exact ⟨fun h => by omega, fun h => ⟨by omega, id, hgroups, by rw [hg₂, enter, hg]; rfl⟩⟩
    · intro u g
      rw [normal_congr hg₂, normal_enter, NormalMember, hg, NormalMember]
      exact or_iff_left (fun h => by cases h.1)
    · intro g hne
      rw [hcr₂, if_neg fun h => hne h.1.symm, Nat.add_zero]

theorem insertGroup_iff {now : Int} {next : Option Int → Handler} (hpn : Plain name) (hpd : Plain desc)
    (hsome : ∀ id, next (some id) = .call (.group (.addGroup userid id "creator")) fun _ =>
      answer .createGroupMsgAck 0 ("Create group success! Your groupid is " ++ decimal id))
    (hnone : next none = answer .createGroupMsgAck 1 "Create group failed!") :
    AllOrNothing w (Program.run (Call.exec E) (.call (.group (.createGroup name desc)) next) os (w.put (w.db.tick now)))
      (.createGroup js) ↔ ((os 0).runs = true → FoundHarmless same userid
        (E.db.insertId (Update.insertGroup name desc).tokens (w.db.tick (os 0).now)) name desc w.db os) := by
  have hsound (now : Int) : Sound (w.db.tick now) := hs.of_eq rfl rfl
  have h₁ : (GroupCall.createGroup name desc).exec E.db (os 0) (w.db.tick now) = if (os 0).runs then
      ((w.db.tick (os 0).now).insertGroup same
        (E.db.insertId (Update.insertGroup name desc).tokens (w.db.tick (os 0).now)) name desc).elim
          (none, w.db.tick (os 0).now) fun d' =>
            (if (os 0).reported then some (E.db.insertId (Update.insertGroup name desc).tokens (w.db.tick (os 0).now))
              else none, d')
      else (none, w.db.tick (os 0).now) := exec_createGroup hE.db hpn hpd (w.db.tick now)
  generalize E.db.insertId (Update.insertGroup name desc).tokens (w.db.tick (os 0).now) = id at h₁ ⊢
  rw [FoundHarmless, ← isSome_insertGroup_tick (os 0).now]
  cases hrun : (os 0).runs with
  | false =>
    rw [hrun, if_neg Bool.false_ne_true] at h₁
    rw [run_group (w := w.put (w.db.tick now)) h₁, hnone]
    exact iff_of_true ((createFailed_iff hu hn hd (by decide) _).mpr (hsound _)) fun h => by cases h
  | true =>
    rw [hrun, if_pos rfl] at h₁
    rw [imp_iff_right rfl]
    cases hrow : (w.db.tick (os 0).now).insertGroup same id name desc with
    | none =>
      rw [hrow, Option.elim_none] at h₁
      rw [run_group (w := w.put (w.db.tick now)) h₁, hnone]
      exact iff_of_true ((createFailed_iff hu hn hd (by decide) _).mpr (hsound _)) fun h => by cases h
    | some d' =>
      obtain ⟨hi, -, -, hd'⟩ := insertGroup_some hrow
      have hg : d'.group = { w.db.group with groups := w.db.group.groups ++ [⟨id, name, some desc⟩] } := by rw [hd']; rfl
      have hr : d'.requests = w.db.requests := by rw [hd']; rfl
      rw [hrow, Option.elim_some] at h₁
      rw [imp_iff_right Option.isSome_some]
      cases hrep : (os 0).reported with
      | false =>
        rw [hrep, if_neg Bool.false_ne_true] at h₁
        rw [run_group (w := w.put (w.db.tick now)) h₁, hnone, if_neg Bool.false_ne_true]
        refine (createFailed_iff hu hn hd (by decide) _).trans ?_
        have hcr (g : Int) : creators g d' = creators g w.db := by rw [creators, hg, creators]
        rw [sound_founded hs (by rw [hg]) (by rw [hr]) (fun u g => ?_) fun g _ => hcr g, hcr]
        rw [NormalMember, hg, NormalMember]
      | true =>
        rw [hrep, if_pos rfl] at h₁
        rw [run_group (w := w.put (w.db.tick now)) h₁, hsome, if_pos rfl]
        exact addCreator_iff hu hn hd hE hs hi hg hr

theorem createGroup_iff (hpn : Plain name) (hpd : Plain desc) :
    AllOrNothing w ((RequestHandlers.createGroup js).run (Call.exec E) os w) (.createGroup js) ↔
      CreateHarmless same E.db userid name desc w.db os := by
  have h₀ := exec_isGroupExistName (o := os 0) hE.db hpn w.db
  have hsound (now : Int) : Sound (w.db.tick now) := hs.of_eq rfl rfl
  rw [RequestHandlers.createGroup, hu, hn, hd, CreateHarmless]
  dsimp only
  rw [run_group h₀]
  cases hread : (os 0).runs && (os 0).reported with
  | false => exact iff_of_true ((createFailed_iff hu hn hd (by decide) _).mpr (hsound _)) fun h => by cases h
  | true =>
    rw [if_pos rfl, imp_iff_right rfl]
    cases hname : w.db.group.groups.any fun g => same g.groupname name with
    | true => exact iff_of_true ((createFailed_iff hu hn hd (by decide) _).mpr (hsound _)) fun h => by cases h
    | false =>
      rw [imp_iff_right rfl]
      exact insertGroup_iff hu hn hd hE hs hpn hpd (fun _ => rfl) rfl

end

theorem groupResponses_storable :
    ('\x00' ∉ acceptGroupResponse.dump.toList ∧ OfflineMsgModel.Storable acceptGroupResponse.dump) ∧
    ('\x00' ∉ rejectGroupResponse.dump.toList ∧ OfflineMsgModel.Storable rejectGroupResponse.dump) ∧
    acceptGroupResponse.dump ≠ rejectGroupResponse.dump := by
  decide +kernel

theorem sound_answered {userid groupid : Int} {b : Prop} (h : Sound d)
    (hp : (d.requests .group).status (userid, groupid) = some (some .pending))
    (hst : ∀ k, k ≠ (userid, groupid) → (d'.requests .group).status k = (d.requests .group).status k)
    (hgr : d'.group.groups = d.group.groups) (hcr : ∀ g, creators g d' = creators g d)
    (hn : ∀ u g, NormalMember u g d' ↔ NormalMember u g d ∨ b ∧ u = userid ∧ g = groupid) :
    Sound d' ↔ ((d'.requests .group).status (userid, groupid) = some (some .accepted) ↔ b) := by
  have hno : ¬ NormalMember userid groupid d := by
    rw [← h.accepted, hp]
    decide
  have hself : NormalMember userid groupid d' ↔ b := by
    rw [hn, or_iff_right hno]
    exact and_iff_left ⟨rfl, rfl⟩
  refine ⟨fun h' => by rw [h'.accepted, hself], fun h' => ⟨fun g hg => ?_, fun u g => ?_⟩⟩
  · rw [hcr]
    exact h.creator g (hgr ▸ hg)
  · by_cases hk : (u, g) = (userid, groupid)
    · cases hk
      rw [h', hself]
    · rw [hst _ hk, hn, h.accepted]
      exact (or_iff_left fun hb => hk (by rw [hb.2.1, hb.2.2])).symm

theorem updateGroup_cases (hE : E.Rules same) {userid groupid : Int} (s : Status) (text : String) (hs : text = s.text)
    (o : Outcome) (hp : (d.requests .group).status (userid, groupid) = some (some .pending)) :
    ∃ ok d', (GroupCall.updateRequestStatus userid groupid text).exec E.db o d = (ok, d') ∧ d'.group = d.group ∧
      d'.users = d.users ∧
      (d'.requests .group).status (userid, groupid) = (if o.runs then some (some s) else some (some .pending)) ∧
      ∀ k, k ≠ (userid, groupid) → (d'.requests .group).status k = (d.requests .group).status k := by
  rw [exec_updateGroupStatus hE.db userid groupid hs]
  cases o.runs with
  | false => exact ⟨_, _, rfl, rfl, rfl, hp, fun _ _ => rfl⟩
  | true =>
    have hk : (d.requests .group).status (userid, groupid) ≠ none := by
      rw [hp]
      exact Option.some_ne_none _
    refine ⟨_, _, rfl, rfl, rfl, ?_, fun k hne => ?_⟩
    · rw [Tables.setRequests_self]
      exact Requests.Table.status_setStatus_self hk
    · rw [Tables.setRequests_self]
      exact Requests.Table.status_setStatus_ne hne

section

variable (hE : E.Rules same) {js : Json} {userid groupid : Int}
  (hu : (js.get? "userid").bind Json.toInt? = some userid) (hg : (js.get? "groupid").bind Json.toInt? = some groupid)

include hu hg

theorem allOrNothing_addGroupHandle {x : Answer × Setting} : AllOrNothing w x (.addGroupHandle js) ↔
    Sound x.2.db ∧ (Told w x.2 userid acceptGroupResponse.dump → Joined userid groupid w.db x.2.db) := by
  rw [AllOrNothing, hu, hg]
  refine and_congr_right fun _ => ⟨fun h => h _ _ rfl rfl, ?_⟩
  rintro h _ _ ⟨⟩ ⟨⟩
  exact h

include hE

theorem allOrNothing_told {text : String} (hq : '\x00' ∉ text.toList) (hst : OfflineMsgModel.Storable text)
    (hus : d.users = w.db.users) :
    AllOrNothing w ((deliverMessage userid text).run (Call.exec E) os (w.put d)) (.addGroupHandle js) ↔
      Sound d ∧ (acceptGroupResponse.dump = text ∧ Reaches w userid os → Joined userid groupid w.db d) := by
  have ht := told_deliver hE (isInt_of_field hu) hq hst (w.put d) os acceptGroupResponse.dump
  rw [reaches_put hus] at ht
  rw [allOrNothing_addGroupHandle hu hg, run_deliverMessage]
  exact and_congr_right fun _ => imp_congr_left ht

theorem rejectGroup_sound (hs : Sound w.db) (hp : (w.db.requests .group).status (userid, groupid) = some (some .pending))
    (now : Int) : AllOrNothing w ((rejectGroup userid groupid).run (Call.exec E) os (w.put (w.db.tick now)))
      (.addGroupHandle js) := by
  obtain ⟨ok, d₁, h₁, hg₁, hu₁, hst, hne⟩ := updateGroup_cases (d := w.db.tick now) hE .rejected "rejected" rfl (os 0) hp
  rw [rejectGroup, run_group (w := w.put (w.db.tick now)) h₁]
  refine (allOrNothing_told hE hu hg groupResponses_storable.2.1.1 groupResponses_storable.2.1.2 hu₁).mpr ?_
  refine ⟨?_, fun h => absurd h.1 groupResponses_storable.2.2⟩
  refine (sound_answered (b := False) hs hp hne (by rw [hg₁]; rfl) (creators_congr hg₁) fun u g => ?_).mpr ?_
  · rw [normal_congr hg₁]
    simp [NormalMember]
  · rw [hst]
    split <;> simp

theorem acceptGroup_iff (hs : Sound w.db) (hp : (w.db.requests .group).status (userid, groupid) = some (some .pending))
    (now : Int) : AllOrNothing w ((acceptGroup userid groupid).run (Call.exec E) os (w.put (w.db.tick now)))
      (.addGroupHandle js) ↔
        if (os 0).runs = true then (os 1).runs = true ∧ hasMember groupid userid w.db = false
        else ((os 1).runs && !hasMember groupid userid w.db) = false ∧ ¬ Reaches w userid (fun n => os (n + 2)) := by
  obtain ⟨ok, d₁, h₁, hg₁, hu₁, hst, hne⟩ := updateGroup_cases (d := w.db.tick now) hE .accepted "accepted" rfl (os 0) hp
  obtain ⟨d₂, h₂, hr₂, hu₂, hg₂⟩ := addGroup_cases hE (isInt_of_field hg) (isInt_of_field hu) "normal"
    (show _ = Role.normal.text from rfl) (os 1) d₁
  have hmem : hasMember groupid userid d₁ = hasMember groupid userid w.db := by
    rw [hasMember, hg₁, hasMember]
    rfl
  rw [hmem] at hg₂
  have hrun : (acceptGroup userid groupid).run (Call.exec E) os (w.put (w.db.tick now)) =
      (deliverMessage userid acceptGroupResponse.dump).run (Call.exec E) (fun n => os (n + 2)) (w.put d₂) :=
    (show _ = (join userid groupid).run (Call.exec E) (fun n => os (n + 1)) (w.put d₁) from
      run_group (w := w.put (w.db.tick now)) h₁).trans
      (show (join userid groupid).run (Call.exec E) (fun n => os (n + 1)) (w.put d₁) = _ from run_group (w := w.put d₁) h₂)
  rw [hrun, allOrNothing_told hE hu hg groupResponses_storable.1.1 groupResponses_storable.1.2 (hu₂.trans hu₁)]
  rw [← hr₂] at hst hne
  have hsound : Sound d₂ ↔ ((d₂.requests .group).status (userid, groupid) = some (some .accepted) ↔
      ((os 1).runs && !hasMember groupid userid w.db) = true) := by
    cases hb : (os 1).runs && !hasMember groupid userid w.db with
    | false =>
      rw [hb, if_neg Bool.false_ne_true] at hg₂
      refine sound_answered hs hp hne (by rw [hg₂, hg₁]; rfl) (creators_congr (hg₂.trans hg₁)) fun u g => ?_
      rw [normal_congr (hg₂.trans hg₁)]
      simp [NormalMember]
    | true =>
      rw [hb, if_pos rfl] at hg₂
      refine sound_answered hs hp hne (by rw [hg₂, enter, hg₁]; rfl) (fun g => ?_) fun u g => ?_
      · rw [creators_congr hg₂, creators_enter, creators_congr hg₁, if_neg fun h => Role.noConfusion h.2]
        rfl
      · rw [normal_congr hg₂, normal_enter, normal_congr hg₁, eq_self, true_and, eq_self, true_and]
        rfl
  have hjoined : Joined userid groupid w.db d₂ ↔ (os 0).runs = true ∧
      ((os 1).runs && !hasMember groupid userid w.db) = true := by
    rw [Joined, hst, hg₂]
    cases (os 0).runs with
    | false => simp
    | true =>
      cases (os 1).runs && !hasMember groupid userid w.db with
      | false => simp [hg₁]
      | true => simp [enter, hg₁, Role.text]
  rw [hsound, hjoined, hst]
  cases (os 0).runs with
  | false => simp
  | true => simp +contextual

/-- An answer to a group request is all or nothing exactly when the failures are harmless. -/
theorem addGroupHandle_iff (hs : Sound w.db) : AllOrNothing w ((RequestHandlers.addGroupHandle js).run (Call.exec E) os w)
    (.addGroupHandle js) ↔ ∀ action, (js.get? "action").bind Json.toStr? = some action →
      AnswerHarmless userid groupid action w os := by
  have h₀ := exec_isPendingGroup (o := os 0) hE.db userid groupid w.db
  have hquiet : AllOrNothing w (.thrown, w.put (w.db.tick (os 0).now)) (.addGroupHandle js) :=
    (allOrNothing_addGroupHandle hu hg).mpr ⟨hs.of_eq rfl rfl, fun h => absurd h (not_told_self _ _)⟩
  rw [RequestHandlers.addGroupHandle, hu, hg]
  dsimp only
  rw [run_group h₀]
  cases hpend : (os 0).runs && (os 0).reported && decide ((w.db.requests .group).status (userid, groupid) = some (some .pending)) with
  | false =>
    refine iff_of_true hquiet fun action _ hread hp => ?_
    rw [hread, hp] at hpend
    cases hpend
  | true =>
    obtain ⟨hread, hp⟩ := Bool.and_eq_true_iff.mp hpend
    have hp := of_decide_eq_true hp
    rw [if_pos rfl]
    cases (js.get? "action").bind Json.toStr? with
    | none => exact iff_of_true hquiet fun _ h => by cases h
    | some action =>
      simp only [Option.some.injEq, forall_eq']
      rw [AnswerHarmless, imp_iff_right hread, imp_iff_right hp]
      by_cases hc : action = "accept"
      · rw [imp_iff_right hc]
        exact (congrArg (fun p : Handler => AllOrNothing w (p.run (Call.exec E) _ _) _) (if_pos hc)).to_iff.trans
          (acceptGroup_iff hE hu hg hs hp (os 0).now)
      · refine iff_of_true ?_ fun h => absurd h hc
        exact (congrArg (fun p : Handler => AllOrNothing w (p.run (Call.exec E) _ _) _) (if_neg hc)).mpr
          (rejectGroup_sound hE hu hg hs hp (os 0).now)

end

/-- The name and the description of a new group are one literal each. -/
def GroupOperation.Texts : GroupOperation → Prop
  | createGroup js => ∀ name desc, (js.get? "groupname").bind Json.toStr? = some name →
    (js.get? "groupdesc").bind Json.toStr? = some desc → Plain name ∧ Plain desc
  | addGroupHandle _ => True

/-- The failures that leave an operation all or nothing. -/
def Harmless (same : String → String → Bool) (m : Db.Mysql Tables) (w : Setting) (os : Nat → Outcome) :
    GroupOperation → Prop
  | .createGroup js => ∀ userid name desc, (js.get? "userid").bind Json.toInt? = some userid →
    (js.get? "groupname").bind Json.toStr? = some name → (js.get? "groupdesc").bind Json.toStr? = some desc →
      CreateHarmless same m userid name desc w.db os
  | .addGroupHandle js => ∀ userid groupid action, (js.get? "userid").bind Json.toInt? = some userid →
    (js.get? "groupid").bind Json.toInt? = some groupid → (js.get? "action").bind Json.toStr? = some action →
      AnswerHarmless userid groupid action w os

theorem allOrNothing_thrown (x : GroupOperation) (hs : Sound w.db) : AllOrNothing w (.thrown, w) x := by
  cases x with
  | createGroup js => exact ⟨hs, fun h => h.elim⟩
  | addGroupHandle js => exact ⟨hs, fun _ _ _ _ h => absurd h (not_told_self _ _)⟩

/-- A group operation is all or nothing exactly when the failures of its
statements are harmless. -/
theorem groupOperation_all_or_nothing (hE : E.Rules same) (x : GroupOperation) (hx : x.Texts) (hs : Sound w.db)
    (os : Nat → Outcome) : AllOrNothing w (x.handler.run (Call.exec E) os w) x ↔ Harmless same E.db w os x := by
  cases x with
  | createGroup js =>
    rw [Harmless, GroupOperation.handler]
    cases hu : (js.get? "userid").bind Json.toInt? with
    | none =>
      rw [RequestHandlers.createGroup, hu]
      exact iff_of_true (allOrNothing_thrown (.createGroup js) hs) fun _ _ _ h => by cases h
    | some userid =>
      cases hn : (js.get? "groupname").bind Json.toStr? with
      | none =>
        rw [RequestHandlers.createGroup, hu, hn]
        exact iff_of_true (allOrNothing_thrown (.createGroup js) hs) fun _ _ _ _ h => by cases h
      | some name =>
        cases hd : (js.get? "groupdesc").bind Json.toStr? with
        | none =>
          rw [RequestHandlers.createGroup, hu, hn, hd]
          exact iff_of_true (allOrNothing_thrown (.createGroup js) hs) fun _ _ _ _ _ h => by cases h
        | some desc =>
          obtain ⟨hpn, hpd⟩ := hx name desc hn hd
          refine (createGroup_iff hu hn hd hE hs hpn hpd).trans ⟨?_, fun h => h _ _ _ rfl rfl rfl⟩
          rintro h _ _ _ ⟨⟩ ⟨⟩ ⟨⟩
          exact h
  | addGroupHandle js =>
    rw [Harmless, GroupOperation.handler]
    cases hu : (js.get? "userid").bind Json.toInt? with
    | none =>
      rw [RequestHandlers.addGroupHandle, hu]
      exact iff_of_true (allOrNothing_thrown (.addGroupHandle js) hs) fun _ _ _ h => by cases h
    | some userid =>
      cases hg : (js.get? "groupid").bind Json.toInt? with
      | none =>
        rw [RequestHandlers.addGroupHandle, hu, hg]
        exact iff_of_true (allOrNothing_thrown (.addGroupHandle js) hs) fun _ _ _ _ h => by cases h
      | some groupid =>
        refine (addGroupHandle_iff hE hu hg hs).trans ⟨?_, fun h action => h _ _ action rfl rfl⟩
        rintro h _ _ action ⟨⟩ ⟨⟩
        exact h action

open Friendship.Persons

def founding : Json := .obj [("groupdesc", .str "d"), ("groupname", .str "g"), ("userid", .int 1)]

def uncreated (n : Nat) : Outcome := { executes := n ≠ 2 }

theorem sound_world : Sound world.db :=
  ⟨fun _ h => absurd h List.not_mem_nil, fun _ _ => iff_of_false (fun h => by cases h) List.not_mem_nil⟩

theorem founding_texts : (GroupOperation.createGroup founding).Texts := by
  intro name desc hn hd
  cases hn
  cases hd
  decide

theorem groupOperation_all_or_nothing_founding : AllOrNothing world
    ((GroupOperation.createGroup founding).handler.run (Call.exec engines) (fun _ => {}) world) (.createGroup founding) := by
  refine (groupOperation_all_or_nothing engines_rules _ founding_texts sound_world _).mpr ?_
  rintro _ _ _ ⟨⟩ ⟨⟩ ⟨⟩ _ _ _ _
  exact ⟨rfl, rfl, rfl⟩

theorem createGroup_half_done : ¬ ∀ (same : String → String → Bool) (E : Engines), E.Rules same →
    ∀ (x : GroupOperation) (w : Setting), Sound w.db → ∀ os : Nat → Outcome,
      AllOrNothing w (x.handler.run (Call.exec E) os w) x := by
  intro h
  have hall := h _ engines engines_rules (.createGroup founding) world sound_world uncreated
  have ht : Plain "g" ∧ Plain "d" := founding_texts _ _ rfl rfl
  have hu : (founding.get? "userid").bind Json.toInt? = some 1 := rfl
  have hn : (founding.get? "groupname").bind Json.toStr? = some "g" := rfl
  have hd : (founding.get? "groupdesc").bind Json.toStr? = some "d" := rfl
  have hc := (createGroup_iff hu hn hd engines_rules sound_world ht.1 ht.2).mp hall
  have hrun := hc rfl rfl rfl (by decide +kernel)
  exact absurd hrun.1 (by decide)

end BridgeIM.Server.GroupAnswers
