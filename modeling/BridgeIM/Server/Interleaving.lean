import BridgeIM.Server.Groups

namespace BridgeIM.Server.Interleaving

open CString Db Lib Model Model.Requests Model.Database Services RequestHandlers Groups
open Friendship (isInt_of_field exec_aside engines_rules)

variable {same : String → String → Bool} {E : Engines} {w w' : Setting} {d d' : Tables}

inductive Request
  | addFriend (js : Json)
  | addFriendHandle (js : Json)
  | addGroup (js : Json)
  | addGroupHandle (js : Json)

def Request.handler : Request → Handler
  | addFriend js => RequestHandlers.addFriend js
  | addFriendHandle js => RequestHandlers.addFriendHandle js
  | addGroup js => RequestHandlers.addGroup js
  | addGroupHandle js => RequestHandlers.addGroupHandle js

abbrev server (E : Engines) : Machine (Threads Call Call.Value Answer Setting) (ThreadMove Request Outcome) :=
  Threads.interleave Request.handler (Call.exec E)

def Accepted (c : Kind) (k : Int × Int) (d : Tables) : Prop := (d.requests c).status k = some (some .accepted)

/-- The rows that an accepted request leads to, as the calls that insert them. -/
def entries : Kind → Int × Int → List Call
  | .friend, k => [.friend (.insertFriend k.1 k.2), .friend (.insertFriend k.2 k.1)]
  | .group, k => [.group (.addGroup k.1 k.2 "normal")]

def Reason (x : Call) (w : Setting) : Prop := ∃ c k, x ∈ entries c k ∧ Accepted c k w.db

def Entered : Call → Setting → Prop
  | .friend (.insertFriend a b), w => (a, b) ∈ w.db.friends
  | .group (.addGroup userid groupid role), w => role = "normal" ∧ NormalMember userid groupid w.db
  | _, _ => False

def Complete : Call → Setting → Prop
  | .friend (.insertFriend a b), w => (a, b) ∈ w.db.friends ∧ (b, a) ∈ w.db.friends
  | .group (.addGroup userid groupid role), w => role = "normal" ∧ NormalMember userid groupid w.db
  | _, _ => False

def owes : Handler → Call → Prop
  | .call (.friend (.insertFriend a b)) next, x => x = .friend (.insertFriend a b) ∨ owes (next ()) x
  | .call (.group (.addGroup userid groupid role)) next, x =>
    x = .group (.addGroup userid groupid role) ∨ owes (next ()) x
  | _, _ => False

/-- How a handler makes its calls: an update to accepted comes right before the
inserts of its rows, and nothing else does. -/
def Shape : (op : Call) → (op.Value → Handler) → Prop
  | .friend (.insertFriend a b), _ => IsInt a ∧ IsInt b
  | .group (.addGroup userid groupid role), _ => role = "normal" ∧ IsInt userid ∧ IsInt groupid
  | .group (.createGroup ..), _ | .group (.isGroupExistName _), _ => False
  | .friend (.updateRequestStatus a b text), next =>
    ∃ s : Status, text = s.text ∧ ∀ x, owes (next true) x ↔ s = .accepted ∧ x ∈ entries .friend (a, b)
  | .group (.updateRequestStatus userid groupid text), next =>
    ∃ s : Status, text = s.text ∧ ∀ x, owes (next true) x ↔ s = .accepted ∧ x ∈ entries .group (userid, groupid)
  | _, next => ∀ v x, ¬ owes (next v) x

/-- The user has a row of the group that no request has led to. -/
def Foreign (userid groupid : Int) (d : Tables) : Prop :=
  ∃ b ∈ d.group.members, b.groupid = groupid ∧ b.userid = userid ∧ b.grouprole ≠ some "normal"

def Allowed (foreign : Int → Int → Prop) : Call → Prop
  | .group (.addGroupRequest userid groupid) => ¬ foreign userid groupid
  | _ => True

/-- A handler asks for nobody with a foreign row, or it still has to look whether
there is one. -/
def Stage (foreign : Int → Int → Prop) (p : Handler) : Prop :=
  p.Only (Allowed foreign) ∨ ∃ userid groupid next, p = .call (.group (.isUserInGroup userid groupid)) next ∧
    ∀ v, (v.status = .notFound → ¬ foreign userid groupid) → (next v).Only (Allowed foreign)

variable {foreign : Int → Int → Prop}

/-- A part of a handler that makes its calls as it should, and no insert first. -/
structure Tidy (foreign : Int → Int → Prop) (p : Handler) : Prop where
  each : p.Each Shape
  only : p.Only (Allowed foreign)
  quiet : ∀ x, ¬ owes p x

theorem tidy_ret (r : Answer) : Tidy foreign (.ret r) := ⟨trivial, trivial, fun _ => id⟩

theorem tidy_call {op : Call} {next : op.Value → Handler} (ha : Allowed foreign op)
    (hs : (∀ v x, ¬ owes (next v) x) → Shape op next ∧ ∀ x, ¬ owes (.call op next) x) (hn : ∀ v, Tidy foreign (next v)) :
    Tidy foreign (.call op next) :=
  ⟨⟨(hs fun v => (hn v).quiet).1, fun v => (hn v).each⟩, ⟨ha, fun v => (hn v).only⟩, (hs fun v => (hn v).quiet).2⟩

theorem deliverMessage_tidy (targetId : Int) (payload : String) : Tidy foreign (deliverMessage targetId payload) := by
  refine tidy_call trivial (fun h => ⟨h, fun _ => id⟩) fun found => ?_
  cases found with
  | true => exact tidy_call trivial (fun h => ⟨h, fun _ => id⟩) fun _ => tidy_ret _
  | false =>
    refine tidy_call trivial (fun h => ⟨h, fun _ => id⟩) fun user => ?_
    split <;> exact tidy_call trivial (fun h => ⟨h, fun _ => id⟩) fun _ => tidy_ret _

theorem quiet_iff {p : Handler} (h : Tidy foreign p) {s : Status} (hs : s ≠ .accepted) (l : List Call) (x : Call) :
    owes p x ↔ s = .accepted ∧ x ∈ l := iff_of_false (h.quiet x) fun he => hs he.1

theorem requestFriend_tidy (userid friendid : Int) (payload : String) (result : RequestStatusResult) :
    Tidy foreign (requestFriend userid friendid payload result) := by
  rw [requestFriend]
  split
  · exact tidy_ret _
  · refine tidy_call trivial (fun h => ⟨h, fun _ => id⟩) fun ok => ?_
    cases ok with
    | false => exact tidy_ret _
    | true => exact deliverMessage_tidy _ _
  · split
    · exact tidy_ret _
    · split
      · have hd : Tidy foreign _ := deliverMessage_tidy friendid payload
        refine ⟨⟨⟨.pending, rfl, quiet_iff hd (by decide) _⟩, fun ok => ?_⟩, ⟨trivial, fun ok => ?_⟩, fun _ => id⟩
        · cases ok with
          | false => exact trivial
          | true => exact hd.each
        · cases ok with
          | false => exact trivial
          | true => exact hd.only
      · exact tidy_ret _

theorem addFriend_tidy (js : Json) : Tidy foreign (addFriend js) := by
  rw [addFriend]
  split
  · split
    · exact tidy_ret _
    · refine tidy_call trivial (fun h => ⟨h, fun _ => id⟩) fun found => ?_
      cases found with
      | false => exact tidy_ret _
      | true =>
        refine tidy_call trivial (fun h => ⟨h, fun _ => id⟩) fun isFriend => ?_
        cases isFriend with
        | true => exact tidy_ret _
        | false => exact tidy_call trivial (fun h => ⟨h, fun _ => id⟩) fun _ => requestFriend_tidy _ _ _ _
  · exact tidy_ret _

theorem befriend_owes (userid friendid : Int) (x : Call) :
    owes (befriend userid friendid) x ↔ x ∈ entries .friend (userid, friendid) := by
  have ht : Tidy (fun _ _ => False) _ := deliverMessage_tidy userid acceptFriendResponse.dump
  have hd := ht.quiet x
  rw [befriend, owes, owes, entries, List.mem_cons, List.mem_singleton, or_iff_left hd]

theorem answerFriend_tidy {userid friendid : Int} (hu : IsInt userid) (hf : IsInt friendid) (action : String) :
    Tidy foreign (answerFriend userid friendid action) := by
  refine tidy_call trivial (fun h => ⟨h, fun _ => id⟩) fun result => ?_
  split
  · exact tidy_ret _
  · exact tidy_ret _
  · split
    · have hd : Tidy foreign _ := deliverMessage_tidy userid acceptFriendResponse.dump
      refine ⟨⟨⟨.accepted, rfl, fun x => ?_⟩, fun ok => ?_⟩, ⟨trivial, fun ok => ?_⟩, fun _ => id⟩
      · exact (befriend_owes userid friendid x).trans (and_iff_right rfl).symm
      · cases ok with
        | false => exact trivial
        | true => exact ⟨⟨hu, hf⟩, fun _ => ⟨⟨hf, hu⟩, fun _ => hd.each⟩⟩
      · cases ok with
        | false => exact trivial
        | true => exact ⟨trivial, fun _ => ⟨trivial, fun _ => hd.only⟩⟩
    · have hd : Tidy foreign _ := deliverMessage_tidy userid rejectFriendResponse.dump
      exact ⟨⟨⟨.rejected, rfl, quiet_iff hd (by decide) _⟩, fun _ => hd.each⟩, ⟨trivial, fun _ => hd.only⟩, fun _ => id⟩

theorem addFriendHandle_tidy (js : Json) : Tidy foreign (addFriendHandle js) := by
  rw [addFriendHandle]
  split
  case h_1 userid friendid action hu hf _ => exact answerFriend_tidy (isInt_of_field hu) (isInt_of_field hf) action
  case h_2 => exact tidy_ret _

theorem forwardToOwner_tidy (groupid : Int) (payload : String) : Tidy foreign (forwardToOwner groupid payload) := by
  refine tidy_call trivial (fun h => ⟨h, fun _ => id⟩) fun owner => ?_
  split
  · exact tidy_ret _
  · exact tidy_ret _
  · exact deliverMessage_tidy _ _

theorem requestGroup_tidy {userid groupid : Int} (hf : ¬ foreign userid groupid) (payload : String) (result : RequestStatusResult) :
    Tidy foreign (requestGroup userid groupid payload result) := by
  rw [requestGroup]
  split
  · exact tidy_ret _
  · refine tidy_call hf (fun h => ⟨h, fun _ => id⟩) fun ok => ?_
    cases ok with
    | false => exact tidy_ret _
    | true => exact forwardToOwner_tidy _ _
  · split
    · exact tidy_ret _
    · split
      · have hd : Tidy foreign _ := forwardToOwner_tidy groupid payload
        refine ⟨⟨⟨.pending, rfl, quiet_iff hd (by decide) _⟩, fun ok => ?_⟩, ⟨trivial, fun ok => ?_⟩, fun _ => id⟩
        · cases ok with
          | false => exact trivial
          | true => exact hd.each
        · cases ok with
          | false => exact trivial
          | true => exact hd.only
      · exact tidy_ret _

theorem addGroup_cases (js : Json) : (∃ r, addGroup js = .ret r) ∨
    ∃ userid groupid next, addGroup js = .call (.group (.isUserInGroup userid groupid)) next ∧
      ∀ (foreign : Int → Int → Prop) v, (v.status = .notFound → ¬ foreign userid groupid) → Tidy foreign (next v) := by
  rw [addGroup]
  split
  case h_2 => exact Or.inl ⟨_, rfl⟩
  case h_1 userid groupid _ _ =>
    refine Or.inr ⟨userid, groupid, _, rfl, fun foreign inGroup hf => ?_⟩
    cases hs : inGroup.status with
    | dbError => exact tidy_ret _
    | ok => exact tidy_ret _
    | notFound =>
      refine tidy_call trivial (fun h => ⟨h, fun _ => id⟩) fun groupExist => ?_
      cases groupExist.status with
      | dbError => exact tidy_ret _
      | notFound => exact tidy_ret _
      | ok => exact tidy_call trivial (fun h => ⟨h, fun _ => id⟩) fun _ => requestGroup_tidy (hf hs) _ _

theorem join_owes (userid groupid : Int) (x : Call) :
    owes (join userid groupid) x ↔ x ∈ entries .group (userid, groupid) := by
  have ht : Tidy (fun _ _ => False) _ := deliverMessage_tidy userid acceptGroupResponse.dump
  have hd := ht.quiet x
  rw [join, owes, entries, List.mem_singleton, or_iff_left hd]

theorem addGroupHandle_tidy (js : Json) : Tidy foreign (addGroupHandle js) := by
  rw [addGroupHandle]
  split
  case h_2 => exact tidy_ret _
  case h_1 userid groupid hu hg =>
    refine tidy_call trivial (fun h => ⟨h, fun _ => id⟩) fun pending => ?_
    cases pending with
    | false => exact tidy_ret _
    | true =>
      rw [if_pos rfl]
      split
      · split
        · have hd : Tidy foreign _ := deliverMessage_tidy userid acceptGroupResponse.dump
          refine ⟨⟨⟨.accepted, rfl, fun x => ?_⟩, fun _ => ?_⟩, ⟨trivial, fun _ => ⟨trivial, fun _ => hd.only⟩⟩, fun _ => id⟩
          · exact (join_owes userid groupid x).trans (and_iff_right rfl).symm
          · exact ⟨⟨rfl, isInt_of_field hu, isInt_of_field hg⟩, fun _ => hd.each⟩
        · have hd : Tidy foreign _ := deliverMessage_tidy userid rejectGroupResponse.dump
          exact ⟨⟨⟨.rejected, rfl, quiet_iff hd (by decide) _⟩, fun _ => hd.each⟩, ⟨trivial, fun _ => hd.only⟩, fun _ => id⟩
      · exact tidy_ret _

theorem handler_starts (foreign : Int → Int → Prop) (q : Request) : q.handler.Each Shape ∧ (∀ x, ¬ owes q.handler x) ∧ Stage foreign q.handler := by
  have htidy (h : ∀ foreign, Tidy foreign q.handler) :
      q.handler.Each Shape ∧ (∀ x, ¬ owes q.handler x) ∧ Stage foreign q.handler :=
    ⟨(h foreign).each, (h foreign).quiet, Or.inl (h foreign).only⟩
  cases q with
  | addFriend js => exact htidy fun _ => addFriend_tidy js
  | addFriendHandle js => exact htidy fun _ => addFriendHandle_tidy js
  | addGroupHandle js => exact htidy fun _ => addGroupHandle_tidy js
  | addGroup js =>
    rw [Request.handler]
    obtain ⟨r, h⟩ | ⟨userid, groupid, next, h, hn⟩ := addGroup_cases js
    · rw [h]
      exact ⟨trivial, fun _ => id, Or.inl trivial⟩
    · have hn₀ (v : BoolQueryResult) := hn (fun _ _ => False) v fun _ => id
      rw [h]
      exact ⟨⟨fun v => (hn₀ v).quiet, fun v => (hn₀ v).each⟩, fun _ => id,
        Or.inr ⟨userid, groupid, next, rfl, fun v hf => (hn foreign v hf).only⟩⟩

def before : Status → Status
  | .pending => .rejected
  | .accepted | .rejected => .pending

/-- The row has still the status that the handler has read, or already the one
that it writes. -/
def InTime (s : Status) (row : Option (Option Status)) : Prop := row = some (some s) ∨ row = some (some (before s))

instance (s : Status) (row : Option (Option Status)) : Decidable (InTime s row) := inferInstanceAs (Decidable (_ ∨ _))

def Timely : Call → Tables → Prop
  | .friend (.updateRequestStatus a b text), d =>
    ∀ s ∈ Status.ofText text, InTime s ((d.requests .friend).status (a, b))
  | .group (.updateRequestStatus userid groupid text), d =>
    ∀ s ∈ Status.ofText text, InTime s ((d.requests .group).status (userid, groupid))
  | _, _ => True

instance (op : Call) (d : Tables) : Decidable (Timely op d) := by
  unfold Timely
  split <;> infer_instance

/-- What a call does to the tables, and which inserts its handler owes before and after it. -/
inductive Wrote (op : Call) (next : op.Value → Handler) (v : op.Value) (d d' : Tables) : Prop
  | nothing (hf : d'.friends = d.friends) (hg : d'.group = d.group) (hr : d'.requests = d.requests)
      (hop : ∀ x, ¬ owes (.call op next) x) (hn : ∀ x, ¬ owes (next v) x)
  | request (c : Kind) (k : Int × Int) (hf : d'.friends = d.friends) (hg : d'.group = d.group)
      (hs : c = .group → ¬ Foreign k.1 k.2 d)
      (hr : ∀ c' k', (d'.requests c').status k' = (d.requests c').status k' ∨ c' = c ∧ k' = k ∧
        (d.requests c').status k' = none ∧ (d'.requests c').status k' = some (some .pending))
      (hop : ∀ x, ¬ owes (.call op next) x) (hn : ∀ x, ¬ owes (next v) x)
  | status (c : Kind) (k : Int × Int) (s : Status) (hf : d'.friends = d.friends) (hg : d'.group = d.group)
      (hs : InTime s ((d.requests c).status k)) (hself : (d'.requests c).status k = some (some s))
      (hr : ∀ c' k', (d'.requests c').status k' = (d.requests c').status k' ∨ c' = c ∧ k' = k)
      (hop : ∀ x, ¬ owes (.call op next) x) (hn : ∀ x, owes (next v) x ↔ s = .accepted ∧ x ∈ entries c k)
  | friend (a b : Int) (hf : ∀ k, k ∈ d'.friends ↔ k ∈ d.friends ∨ k = (a, b)) (hg : d'.group = d.group)
      (hr : d'.requests = d.requests)
      (hop : ∀ x, owes (.call op next) x ↔ x = .friend (.insertFriend a b) ∨ owes (next v) x)
  | member (userid groupid : Int) (hf : d'.friends = d.friends)
      (hg : d'.group = if hasMember groupid userid d then d.group else (enter groupid userid .normal d).group)
      (hr : d'.requests = d.requests)
      (hop : ∀ x, owes (.call op next) x ↔ x = .group (.addGroup userid groupid "normal") ∨ owes (next v) x)

theorem addRequest_status (c : Kind) (k : Int × Int) (d : Tables) (c' : Kind) (k' : Int × Int) :
    ((d.addRequest c k).requests c').status k' = (d.requests c').status k' ∨ c' = c ∧ k' = k ∧
      (d.requests c').status k' = none ∧ ((d.addRequest c k).requests c').status k' = some (some .pending) := by
  cases ht : (d.requests c).insertPending k with
  | none =>
    rw [Tables.addRequest_of_none ht]
    exact Or.inl rfl
  | some t =>
    rw [Tables.addRequest_of_some ht]
    by_cases hc : c' = c
    · subst hc
      rw [Tables.setRequests_self, Requests.Table.status_insertPending ht]
      by_cases hk : k' = k
      · subst hk
        rw [if_pos rfl]
        exact Or.inr ⟨rfl, rfl, Requests.Table.status_eq_none.mpr (Requests.Table.insertPending_eq_some.mp ht).1.2.2, rfl⟩
      · rw [if_neg hk]
        exact Or.inl rfl
    · rw [Tables.setRequests_ne _ _ hc]
      exact Or.inl rfl

theorem setStatus_status {c : Kind} {k : Int × Int} {s : Status} (hs : InTime s ((d.requests c).status k)) (now : Int) :
    ((d.setRequests c ((d.requests c).setStatus k s now)).requests c).status k = some (some s) ∧
    ∀ c' k', ((d.setRequests c ((d.requests c).setStatus k s now)).requests c').status k' = (d.requests c').status k' ∨
      c' = c ∧ k' = k := by
  have hk : (d.requests c).status k ≠ none := by
    obtain h | h := hs <;> rw [h] <;> exact Option.some_ne_none _
  refine ⟨?_, fun c' k' => ?_⟩
  · rw [Tables.setRequests_self]
    exact Requests.Table.status_setStatus_self hk
  · by_cases hc : c' = c
    · subst hc
      rw [Tables.setRequests_self]
      by_cases he : k' = k
      · exact Or.inr ⟨rfl, he⟩
      · exact Or.inl (Requests.Table.status_setStatus_ne he)
    · rw [Tables.setRequests_ne _ _ hc]
      exact Or.inl rfl

theorem intended_of_shape {op : Call} {next : op.Value → Handler} (hs : Shape op next) : op.Intended := by
  cases op with
  | group c =>
    cases c with
    | createGroup name desc => exact hs.elim
    | isGroupExistName name => exact hs.elim
    | addGroup userid groupid role => exact ⟨.normal, hs.1⟩
    | _ => trivial
  | _ => trivial

open Friendship in
theorem owes_aside {op : Call} {next : op.Value → Handler} (ha : Aside op) (hs : Shape op next) :
    (∀ x, ¬ owes (.call op next) x) ∧ ∀ v x, ¬ owes (next v) x := by
  cases op with
  | friend c => exact ha.elim
  | group c => exact ha.elim
  | _ => exact ⟨fun _ => id, hs⟩

theorem member_wrote {userid groupid : Int} (hg : IsInt groupid) (hu : IsInt userid) (now : Int) (d : Tables) :
    ((d.tick now).addMember groupid userid .normal).friends = d.friends ∧
    ((d.tick now).addMember groupid userid .normal).group =
      (if hasMember groupid userid d then d.group else (enter groupid userid .normal d).group) ∧
    ((d.tick now).addMember groupid userid .normal).requests = d.requests := by
  have hm : hasMember groupid userid (d.tick now) = hasMember groupid userid d := rfl
  rw [addMember_eq hg hu, hm]
  cases hasMember groupid userid d <;> exact ⟨rfl, rfl, rfl⟩

theorem call_wrote {o : Outcome} {op : Call} {next : op.Value → Handler} (hE : E.Rules same) (ho : o.Ok)
    (hs : Shape op next) (ht : Timely op w.db) (ha : Allowed (fun u g => Foreign u g w.db) op) :
    Wrote op next (op.exec E o w).1 w.db (op.exec E o w).2.db := by
  by_cases haside : Friendship.Aside op
  · have hd := exec_aside haside (E := E) o w
    obtain ⟨hop, hn⟩ := owes_aside haside hs
    exact .nothing (by rw [hd]) (by rw [hd]) (by rw [hd]) hop (hn _)
  rw [Call.exec_of_ok hE ho (intended_of_shape hs)]
  cases op with
  | friend c =>
    cases c with
    | insertFriend a b =>
      refine .friend a b (fun k => ?_) ?_ ?_ fun x => Iff.rfl
      · exact Tables.mem_addFriend (k := (a, b)) _ hs.1 hs.2 k
      · exact Tables.addFriend_group _ _
      · exact Tables.addFriend_requests _ _
    | addFriendRequest a b =>
      refine .request .friend (a, b) ?_ ?_ (fun h => Kind.noConfusion h) (fun c' k' => ?_) (fun _ => id) (hs _)
      · exact Tables.addRequest_friends _ _ _
      · exact Tables.addRequest_group _ _ _
      · exact addRequest_status .friend (a, b) (w.db.tick o.now) c' k'
    | updateRequestStatus a b text =>
      obtain ⟨s, rfl, hn⟩ := hs
      have hin := ht s (Status.ofText_text s)
      obtain ⟨hself, hr⟩ := setStatus_status (d := w.db.tick o.now) hin o.now
      rw [Call.effect, FriendCall.effect, setText_eq rfl]
      exact .status .friend (a, b) s rfl rfl hin hself hr (fun _ => id) hn
    | _ => exact .nothing rfl rfl rfl (fun _ => id) (hs _)
  | group c =>
    cases c with
    | createGroup name desc => exact hs.elim
    | isGroupExistName name => exact hs.elim
    | addGroup userid groupid role =>
      obtain ⟨rfl, hu, hg⟩ := hs
      obtain ⟨hf, hgr, hr⟩ := member_wrote hg hu o.now w.db
      exact .member userid groupid hf hgr hr fun x => Iff.rfl
    | addGroupRequest userid groupid =>
      refine .request .group (userid, groupid) ?_ ?_ (fun _ => ha) (fun c' k' => ?_) (fun _ => id) (hs _)
      · exact Tables.addRequest_friends _ _ _
      · exact Tables.addRequest_group _ _ _
      · exact addRequest_status .group (userid, groupid) (w.db.tick o.now) c' k'
    | updateRequestStatus userid groupid text =>
      obtain ⟨s, rfl, hn⟩ := hs
      have hin := ht s (Status.ofText_text s)
      obtain ⟨hself, hr⟩ := setStatus_status (d := w.db.tick o.now) hin o.now
      rw [Call.effect, GroupCall.effect, setText_eq rfl]
      exact .status .group (userid, groupid) s rfl rfl hin hself hr (fun _ => id) hn
    | _ => exact .nothing rfl rfl rfl (fun _ => id) (hs _)
  | _ => exact absurd trivial haside

def Moves (row row' : Option (Option Status)) : Prop :=
  row = row' ∨ row = none ∧ row' = some (some .pending) ∨
    ∃ s s' : Status, row = some (some s) ∧ row' = some (some s') ∧ s.Legal s'

theorem Wrote.moves {op : Call} {next : op.Value → Handler} {v : op.Value} (h : Wrote op next v d d') (c : Kind)
    (k : Int × Int) : Moves ((d.requests c).status k) ((d'.requests c).status k) := by
  cases h with
  | nothing _ _ hr | friend _ _ _ _ hr | member _ _ _ _ hr => exact Or.inl (by rw [hr])
  | request c' k' _ _ _ hr =>
    obtain h | ⟨-, -, hn, hp⟩ := hr c k
    · exact Or.inl h.symm
    · exact Or.inr (Or.inl ⟨hn, hp⟩)
  | status c' k' s _ _ hs hself hr =>
    obtain h | ⟨rfl, rfl⟩ := hr c k
    · exact Or.inl h.symm
    · rw [hself]
      obtain h | h := hs
      · exact Or.inl h
      · refine Or.inr (Or.inr ⟨before s, s, h, rfl, ?_⟩)
        cases s <;> decide

theorem Wrote.accepted_mono {op : Call} {next : op.Value → Handler} {v : op.Value} (h : Wrote op next v d d') {c : Kind}
    {k : Int × Int} (ha : Accepted c k d) : Accepted c k d' := by
  have hm := h.moves c k
  rw [Moves, ha] at hm
  obtain he | ⟨hn, -⟩ | ⟨s, s', hs, hs', hl⟩ := hm
  · exact he.symm
  · cases hn
  · cases hs
    rw [Accepted, hs']
    obtain rfl | ⟨hs, -⟩ | ⟨hs, -⟩ | ⟨hs, -⟩ := hl <;> first | rfl | cases hs

theorem Wrote.accepted_fresh {op : Call} {next : op.Value → Handler} {v : op.Value} (h : Wrote op next v d d') {c : Kind}
    {k : Int × Int} (ha : Accepted c k d') : Accepted c k d ∨ ∀ x ∈ entries c k, owes (next v) x := by
  cases h with
  | nothing _ _ hr | friend _ _ _ _ hr | member _ _ _ _ hr =>
    rw [Accepted, hr] at ha
    exact Or.inl ha
  | request c' k' _ _ _ hr =>
    obtain h | ⟨-, -, -, hp⟩ := hr c k
    · exact Or.inl (h.symm.trans ha)
    · rw [Accepted, hp] at ha
      cases ha
  | status c' k' s _ _ hs hself hr _ hn =>
    obtain h | ⟨rfl, rfl⟩ := hr c k
    · exact Or.inl (h.symm.trans ha)
    · rw [Accepted, hself] at ha
      cases ha
      exact Or.inr fun x hx => (hn x).mpr ⟨rfl, hx⟩

theorem Wrote.foreign_iff {op : Call} {next : op.Value → Handler} {v : op.Value} (h : Wrote op next v d d') (u g : Int) :
    Foreign u g d' ↔ Foreign u g d := by
  cases h with
  | nothing _ hg | request _ _ _ hg | status _ _ _ _ hg | friend _ _ _ hg => rw [Foreign, hg, Foreign]
  | member userid groupid _ hg =>
    rw [Foreign, hg, Foreign]
    split
    · rfl
    · simp [enter, Role.text]

theorem Wrote.asked {op : Call} {next : op.Value → Handler} {v : op.Value} (h : Wrote op next v d d')
    (hd : ∀ u g, Foreign u g d → (d.requests .group).status (u, g) = none) (u g : Int) (hf : Foreign u g d') :
    (d'.requests .group).status (u, g) = none := by
  rw [h.foreign_iff] at hf
  have hn := hd u g hf
  obtain he | ⟨-, hp⟩ | ⟨s, -, hs, -⟩ := h.moves .group (u, g)
  · rw [← he, hn]
  · cases h with
    | request c k _ _ hs hr =>
      obtain he | ⟨rfl, rfl, -⟩ := hr .group (u, g)
      · rw [he, hn]
      · exact absurd hf (hs rfl)
    | nothing _ _ hr | friend _ _ _ _ hr | member _ _ _ _ hr => rw [hr, hn]
    | status c k s _ _ hs _ hr =>
      obtain he | ⟨rfl, rfl⟩ := hr .group (u, g)
      · rw [he, hn]
      · rw [hn] at hs
        obtain hs | hs := hs <;> cases hs
  · rw [hn] at hs
    cases hs

theorem entered_congr (hf : w'.db.friends = w.db.friends) (hg : w'.db.group = w.db.group) (x : Call) :
    (Entered x w' ↔ Entered x w) ∧ (Complete x w' ↔ Complete x w) := by
  cases x with
  | friend c => cases c <;> simp [Entered, Complete, hf]
  | group c => cases c <;> simp [Entered, Complete, NormalMember, hg]
  | _ => exact ⟨Iff.rfl, Iff.rfl⟩

theorem Wrote.entered {op : Call} {next : op.Value → Handler} {v : op.Value} (h : Wrote op next v w.db w'.db) {x : Call}
    (hx : Entered x w) : Entered x w' := by
  cases h with
  | nothing hf hg | request _ _ hf hg | status _ _ _ hf hg => exact (entered_congr hf hg x).1.mpr hx
  | friend a b hf hg =>
    cases x with
    | friend c =>
      cases c with
      | insertFriend a' b' => exact (hf (a', b')).mpr (Or.inl hx)
      | _ => exact hx
    | group c =>
      cases c with
      | addGroup userid groupid role => exact ⟨hx.1, (normal_congr hg _ _).mpr hx.2⟩
      | _ => exact hx
    | _ => exact hx
  | member userid groupid hf hg =>
    cases x with
    | friend c =>
      cases c with
      | insertFriend a' b' =>
        rw [Entered, hf]
        exact hx
      | _ => exact hx
    | group c =>
      cases c with
      | addGroup u g role =>
        refine ⟨hx.1, ?_⟩
        split at hg
        · exact (normal_congr hg _ _).mpr hx.2
        · rw [normal_congr hg, normal_enter]
          exact Or.inl hx.2
      | _ => exact hx
    | _ => exact hx

theorem normal_of_hasMember {u g : Int} (hm : hasMember g u d = true) (hf : ¬ Foreign u g d) : NormalMember u g d := by
  obtain ⟨⟨g', u', role⟩, hb, hk⟩ := List.any_eq_true.mp hm
  rw [Bool.and_eq_true, decide_eq_true_eq, decide_eq_true_eq] at hk
  obtain ⟨rfl, rfl⟩ := hk
  by_cases hr : role = some "normal"
  · exact hr ▸ hb
  · exact absurd ⟨_, hb, rfl, rfl, hr⟩ hf

theorem Wrote.normal_iff {userid groupid : Int}
    (hg : d'.group = if hasMember groupid userid d then d.group else (enter groupid userid .normal d).group)
    (hf : ¬ Foreign userid groupid d) (u g : Int) :
    NormalMember u g d' ↔ NormalMember u g d ∨ u = userid ∧ g = groupid := by
  cases hm : hasMember groupid userid d with
  | true =>
    rw [hm, if_pos rfl] at hg
    rw [normal_congr hg]
    refine ⟨Or.inl, fun h => h.elim id ?_⟩
    rintro ⟨rfl, rfl⟩
    exact normal_of_hasMember hm hf
  | false =>
    rw [hm, if_neg Bool.false_ne_true] at hg
    rw [normal_congr hg, normal_enter, and_iff_right rfl]

theorem reason_friend {a b : Int} : Reason (.friend (.insertFriend a b)) w ↔
    Accepted .friend (a, b) w.db ∨ Accepted .friend (b, a) w.db := by
  constructor
  · rintro ⟨c, k, hx, ha⟩
    cases c with
    | friend =>
      simp only [entries, List.mem_cons, Call.friend.injEq, FriendCall.insertFriend.injEq, List.not_mem_nil, or_false] at hx
      obtain ⟨rfl, rfl⟩ | ⟨rfl, rfl⟩ := hx
      · exact Or.inl ha
      · exact Or.inr ha
    | group => simp [entries] at hx
  · rintro (h | h)
    · exact ⟨.friend, (a, b), by simp [entries], h⟩
    · exact ⟨.friend, (b, a), by simp [entries], h⟩

theorem reason_group {userid groupid : Int} {role : String} : Reason (.group (.addGroup userid groupid role)) w ↔
    role = "normal" ∧ Accepted .group (userid, groupid) w.db := by
  constructor
  · rintro ⟨c, k, hx, ha⟩
    cases c with
    | friend => simp [entries] at hx
    | group =>
      simp only [entries, List.mem_singleton, Call.group.injEq, GroupCall.addGroup.injEq] at hx
      obtain ⟨rfl, rfl, rfl⟩ := hx
      exact ⟨rfl, ha⟩
  · rintro ⟨rfl, h⟩
    exact ⟨.group, (userid, groupid), by simp [entries], h⟩

theorem Wrote.settles {op : Call} {next : op.Value → Handler} {v : op.Value} (h : Wrote op next v w.db w'.db)
    (howed : ∀ x, owes (.call op next) x → Reason x w)
    (hask : ∀ u g, Foreign u g w.db → (w.db.requests .group).status (u, g) = none) :
    Threads.Settles owes Reason Entered Complete (.call op next) (next v) w w' := by
  have hreason (x : Call) (hx : Reason x w) : Reason x w' := by
    obtain ⟨c, k, he, ha⟩ := hx
    exact ⟨c, k, he, h.accepted_mono ha⟩
  have hfresh (x : Call) (hx : Reason x w') : Reason x w ∨ owes (next v) x := by
    obtain ⟨c, k, he, ha⟩ := hx
    exact (h.accepted_fresh ha).imp (fun ha => ⟨c, k, he, ha⟩) fun hn => hn x he
  have hforeign {u g : Int} (ha : Accepted .group (u, g) w.db) : ¬ Foreign u g w.db := fun hf => by
    rw [Accepted, hask u g hf] at ha
    cases ha
  cases h with
  | nothing hf hg hr hop hn =>
    exact ⟨hreason, hfresh, fun x => (entered_congr hf hg x).1.mpr, fun x hx => Or.inl ((entered_congr hf hg x).2.mp hx),
      fun x hx => absurd hx (hop x), fun x hx => absurd hx (hn x)⟩
  | request c k hf hg hs hr hop hn =>
    exact ⟨hreason, hfresh, fun x => (entered_congr hf hg x).1.mpr, fun x hx => Or.inl ((entered_congr hf hg x).2.mp hx),
      fun x hx => absurd hx (hop x), fun x hx => absurd hx (hn x)⟩
  | status c k s hf hg hs hself hr hop hn =>
    refine ⟨hreason, hfresh, fun x => (entered_congr hf hg x).1.mpr, fun x hx => Or.inl ((entered_congr hf hg x).2.mp hx),
      fun x hx => absurd hx (hop x), fun x hx => ?_⟩
    obtain ⟨rfl, hx⟩ := (hn x).mp hx
    exact ⟨c, k, hx, hself⟩
  | friend a b hf hg hr hop =>
    have hop' : Reason (.friend (.insertFriend a b)) w := howed _ ((hop _).mpr (Or.inl rfl))
    refine ⟨hreason, hfresh, fun x => (Wrote.friend a b hf hg hr hop).entered, fun x hx => ?_, fun x hx => ?_, fun x hx => ?_⟩
    · cases x with
      | friend c =>
        cases c with
        | insertFriend a' b' =>
          obtain ⟨h₁, h₂⟩ := hx
          rw [hf] at h₁ h₂
          obtain h₁ | h₁ := h₁
          · obtain h₂ | h₂ := h₂
            · exact Or.inl ⟨h₁, h₂⟩
            · cases h₂
              exact Or.inr (hreason _ (reason_friend.mpr (reason_friend.mp hop').symm))
          · cases h₁
            exact Or.inr (hreason _ hop')
        | _ => exact hx.elim
      | group c =>
        cases c with
        | addGroup u g role => exact Or.inl ⟨hx.1, (normal_congr hg _ _).mp hx.2⟩
        | _ => exact hx.elim
      | _ => exact hx.elim
    · obtain rfl | hx := (hop x).mp hx
      · exact Or.inl ((hf _).mpr (Or.inr rfl))
      · exact Or.inr hx
    · exact hreason x (howed x ((hop x).mpr (Or.inr hx)))
  | member userid groupid hf hg hr hop =>
    have hop' : Reason (.group (.addGroup userid groupid "normal")) w := howed _ ((hop _).mpr (Or.inl rfl))
    have hn := Wrote.normal_iff hg (hforeign (reason_group.mp hop').2)
    refine ⟨hreason, hfresh, fun x => (Wrote.member userid groupid hf hg hr hop).entered, fun x hx => ?_, fun x hx => ?_,
      fun x hx => ?_⟩
    · cases x with
      | friend c =>
        cases c with
        | insertFriend a b =>
          rw [Complete, hf] at hx
          exact Or.inl hx
        | _ => exact hx.elim
      | group c =>
        cases c with
        | addGroup u g role =>
          obtain ⟨rfl, hx⟩ := hx
          obtain hx | ⟨rfl, rfl⟩ := (hn u g).mp hx
          · exact Or.inl ⟨rfl, hx⟩
          · exact Or.inr (hreason _ hop')
        | _ => exact hx.elim
      | _ => exact hx.elim
    · obtain rfl | hx := (hop x).mp hx
      · exact Or.inl ⟨rfl, (hn userid groupid).mpr (Or.inr ⟨rfl, rfl⟩)⟩
      · exact Or.inr hx
    · exact hreason x (howed x ((hop x).mpr (Or.inr hx)))

/-- Accepted requests are what the friends and the normal members say. -/
structure Agreed (d : Tables) : Prop where
  friend : ∀ a b, (Accepted .friend (a, b) d ∨ Accepted .friend (b, a) d) ↔ (a, b) ∈ d.friends ∧ (b, a) ∈ d.friends
  group : ∀ userid groupid, Accepted .group (userid, groupid) d ↔ NormalMember userid groupid d

structure Inv (s : Threads Call Call.Value Answer Setting) : Prop where
  settled : Threads.Settled owes Reason Entered Complete s
  asked : ∀ u g, Foreign u g s.state.db → (s.state.db.requests .group).status (u, g) = none
  shape : ∀ p ∈ s.threads, p.Each Shape
  stage : ∀ p ∈ s.threads, Stage (fun u g => Foreign u g s.state.db) p

/-- The statements succeed, and every update of a request finds the row as its
handler has read it, or as it writes it. -/
def Fair (s : Threads Call Call.Value Answer Setting) (a : ThreadMove Request Outcome) : Prop :=
  (∀ o ∈ a.outcome, o.Ok) ∧ ∀ op ∈ s.callOf a, Timely op s.state.db

instance (s : Threads Call Call.Value Answer Setting) (a : ThreadMove Request Outcome) : Decidable (Fair s a) :=
  inferInstanceAs (Decidable (_ ∧ _))

theorem stage_call {op : Call} {next : op.Value → Handler} (h : Stage foreign (.call op next)) : Allowed foreign op := by
  obtain h | ⟨u, g, next', h, -⟩ := h
  · exact h.1
  · cases h
    exact trivial

theorem step_wrote {s : Threads Call Call.Value Answer Setting} {i : Nat} {o : Outcome} {op : Call}
    {next : op.Value → Handler} (hE : E.Rules same) (h : Inv s) {a : ThreadMove Request Outcome} (ha : a = .step i o)
    (hf : Fair s a) (hc : s.callOf a = some op) (hp : .call op next ∈ s.threads) :
    Wrote op next (op.exec E o s.state).1 s.state.db (op.exec E o s.state).2.db :=
  call_wrote hE (hf.1 o (ha ▸ rfl)) (h.shape _ hp).1 (hf.2 op hc) (stage_call (h.stage _ hp))

theorem not_foreign_of_notFound {o : Outcome} {u g : Int} (hE : E.Rules same) (ho : o.Ok)
    (hv : ((Call.group (.isUserInGroup u g)).exec E o w).1.status = .notFound) : ¬ Foreign u g w.db := by
  rintro ⟨b, hb, hg, hu, -⟩
  have hm : hasMember g u w.db = true := List.any_eq_true.mpr ⟨b, hb, by simp [hg, hu]⟩
  rw [(Call.group (.isUserInGroup u g)).exec_of_ok hE ho trivial] at hv
  change (foundStatus (hasMember g u w.db)).status = .notFound at hv
  rw [hm] at hv
  cases hv

theorem Stage.next {o : Outcome} {op : Call} {next : op.Value → Handler} (hE : E.Rules same) (ho : o.Ok)
    (h : Stage (fun u g => Foreign u g w.db) (.call op next)) :
    Stage (fun u g => Foreign u g w.db) (next (op.exec E o w).1) := by
  obtain h | ⟨u, g, next', he, hn⟩ := h
  · exact Or.inl (h.2 _)
  · cases he
    exact Or.inl (hn _ (not_foreign_of_notFound hE ho))

theorem Inv.step {s s' : Threads Call Call.Value Answer Setting} {a : ThreadMove Request Outcome} (hE : E.Rules same)
    (h : Inv s) (hf : Fair s a) (hs : (server E).step s a = some s') : Inv s' := by
  have hsettled := h.settled.step hs (fun q x => (handler_starts (fun _ _ => False) q).2.1 x)
    fun i o op next ha hc hp => (step_wrote hE h ha hf hc hp).settles (h.settled.owed _ hp) h.asked
  obtain ⟨q, rfl, rfl⟩ | ⟨i, o, op, next, rfl, hc, ht, rfl⟩ := Threads.step_cases hs
  · have hq := handler_starts (fun u g => Foreign u g s.state.db) q
    refine ⟨hsettled, h.asked, fun p hp => ?_, fun p hp => ?_⟩
    · obtain hp | hp := List.mem_append.mp hp
      · exact h.shape p hp
      · rw [List.mem_singleton.mp hp]
        exact hq.1
    · obtain hp | hp := List.mem_append.mp hp
      · exact h.stage p hp
      · rw [List.mem_singleton.mp hp]
        exact hq.2.2
  · have hp := List.mem_of_getElem? ht
    have hw := step_wrote hE h rfl hf hc hp
    have hforeign : (fun u g => Foreign u g (op.exec E o s.state).2.db) = fun u g => Foreign u g s.state.db := by
      funext u g
      exact propext (hw.foreign_iff u g)
    refine ⟨hsettled, hw.asked h.asked, fun p hm => ?_, fun p hm => ?_⟩
    · obtain hm | rfl := List.mem_or_eq_of_mem_set hm
      · exact h.shape p hm
      · exact (h.shape _ hp).2 _
    · dsimp only
      rw [hforeign]
      obtain hm | rfl := List.mem_or_eq_of_mem_set hm
      · exact h.stage p hm
      · exact (h.stage _ hp).next hE (hf.1 o rfl)

theorem inv_of_agreed (ha : Agreed w.db) (hf : ∀ u g, Foreign u g w.db → (w.db.requests .group).status (u, g) = none) :
    Inv ⟨w, []⟩ := by
  refine ⟨⟨fun x hx => Or.inl ?_, fun x hx => ?_, fun p hp => absurd hp List.not_mem_nil⟩, hf,
    fun p hp => absurd hp List.not_mem_nil, fun p hp => absurd hp List.not_mem_nil⟩
  · obtain ⟨c, k, he, hk⟩ := hx
    cases c with
    | friend =>
      have hb := (ha.friend k.1 k.2).mp (Or.inl hk)
      simp only [entries, List.mem_cons, List.not_mem_nil, or_false] at he
      obtain rfl | rfl := he
      · exact hb.1
      · exact hb.2
    | group =>
      rw [List.mem_singleton.mp he]
      exact ⟨rfl, (ha.group k.1 k.2).mp hk⟩
  · cases x with
    | friend c =>
      cases c with
      | insertFriend a b => exact reason_friend.mpr ((ha.friend a b).mpr hx)
      | _ => exact hx.elim
    | group c =>
      cases c with
      | addGroup u g role => exact reason_group.mpr ⟨hx.1, (ha.group u g).mpr hx.2⟩
      | _ => exact hx.elim
    | _ => exact hx.elim

theorem Inv.agreed {s : Threads Call Call.Value Answer Setting} (h : Inv s) (hi : s.Idle) : Agreed s.state.db := by
  have hidle := h.settled.idle hi (fun _ _ => id)
  refine ⟨fun a b => ⟨fun hx => ?_, fun hx => ?_⟩, fun u g => ⟨fun hx => ?_, fun hx => ?_⟩⟩
  · exact ⟨hidle _ (reason_friend.mpr hx), hidle _ (reason_friend.mpr hx.symm)⟩
  · exact reason_friend.mp (h.settled.reason _ (show Complete (.friend (.insertFriend a b)) s.state from hx))
  · exact (hidle _ (reason_group.mpr ⟨rfl, hx⟩)).2
  · exact (reason_group.mp (h.settled.reason (.group (.addGroup u g "normal")) ⟨rfl, hx⟩)).2

/-- In every run whose updates find their rows in time the statuses move as they
should, an accepted request stays accepted, and the tables agree whenever no
handler is running. -/
theorem interleaving_invariant (hE : E.Rules same) {w₀ : Setting} (ha : Agreed w₀.db)
    (hf : ∀ u g, Foreign u g w₀.db → (w₀.db.requests .group).status (u, g) = none)
    {as : List (ThreadMove Request Outcome)} {s : Threads Call Call.Value Answer Setting}
    (hm : (server E).Meets Fair ⟨w₀, []⟩ as) (hr : (server E).run ⟨w₀, []⟩ as = some s) :
    (s.Idle → Agreed s.state.db) ∧ ∀ a s', Fair s a → (server E).step s a = some s' → ∀ c k,
      Moves ((s.state.db.requests c).status k) ((s'.state.db.requests c).status k) ∧
        (Accepted c k s.state.db → Accepted c k s'.state.db) := by
  have h : Inv s := Machine.run_invariant (I := Inv) (inv_of_agreed ha hf) (fun s a t hi hf hs => hi.step hE hf hs) hm hr
  refine ⟨h.agreed, fun a s' hf hs c k => ?_⟩
  obtain ⟨q, rfl, rfl⟩ | ⟨i, o, op, next, rfl, hc, ht, rfl⟩ := Threads.step_cases hs
  · exact ⟨Or.inl rfl, id⟩
  · have hw := step_wrote hE h rfl hf hc (List.mem_of_getElem? ht)
    exact ⟨hw.moves c k, hw.accepted_mono⟩

open Friendship.Persons

def asked : Setting :=
  { db := Tables.setRequests .friend ((∅ : Requests.Table).insert (1, 2) ⟨some .pending, none⟩) { users := accounts }
    connections := fun _ => true }

theorem not_accepted_asked (c : Kind) (k : Int × Int) : ¬ Accepted c k asked.db := by
  rw [Accepted, asked]
  cases c with
  | group =>
    rw [Tables.setRequests_ne _ _ (by decide)]
    exact fun h => by cases h
  | friend =>
    rw [Tables.setRequests_self, Requests.Table.status]
    by_cases hk : k = (1, 2)
    · rw [hk, AList.lookup_insert]
      exact fun h => by cases h
    · rw [AList.lookup_insert_ne hk]
      exact fun h => by cases h

theorem agreed_asked : Agreed asked.db := by
  refine ⟨fun a b => iff_of_false ?_ ?_, fun u g => iff_of_false (not_accepted_asked _ _) List.not_mem_nil⟩
  · exact fun h => h.elim (not_accepted_asked _ _) (not_accepted_asked _ _)
  · exact fun h => List.not_mem_nil h.1

theorem not_foreign_asked (u g : Int) (h : Foreign u g asked.db) : (asked.db.requests .group).status (u, g) = none := by
  obtain ⟨b, hb, -⟩ := h
  exact absurd hb List.not_mem_nil

/-- Bob gives two answers, and the second one has been checked when the first is written. -/
def answers (action : String) : List (ThreadMove Request Outcome) :=
  [.start (.addFriendHandle (Friendship.Persons.reply 1 2 "accept")),
    .start (.addFriendHandle (Friendship.Persons.reply 1 2 action)), .step 0 {}, .step 1 {}, .step 0 {}]

def finish : List (ThreadMove Request Outcome) :=
  [.step 1 {}, .step 0 {}, .step 1 {}, .step 1 {}, .step 0 {}, .step 0 {}, .step 0 {}, .step 1 {}, .step 1 {}]

theorem interleaving_invariant_answers : ∃ s, (server engines).run ⟨asked, []⟩ (answers "accept" ++ finish) = some s ∧
    s.state.db.friends = [(1, 2), (2, 1)] ∧ Agreed s.state.db := by
  have h : (server engines).Meets Fair ⟨asked, []⟩ (answers "accept" ++ finish) ∧
      ((server engines).run ⟨asked, []⟩ (answers "accept" ++ finish)).map
        (fun s => (s.state.db.friends, decide s.Idle)) = some ([(1, 2), (2, 1)], true) := by
    unfold server
    rw [Call.exec_eq engines_rules]
    decide +kernel
  obtain ⟨s, hs, hf⟩ := Option.map_eq_some_iff.mp h.2
  obtain ⟨hf, hi⟩ := Prod.mk.inj hf
  exact ⟨s, hs, hf, (interleaving_invariant engines_rules agreed_asked not_foreign_asked h.1 hs).1 (of_decide_eq_true hi)⟩

theorem rejected_after_accepted : ¬ ∀ (same : String → String → Bool) (E : Engines), E.Rules same → ∀ w₀ : Setting,
    Agreed w₀.db → (∀ u g, Foreign u g w₀.db → (w₀.db.requests .group).status (u, g) = none) →
    ∀ (as : List (ThreadMove Request Outcome)) (s : Threads Call Call.Value Answer Setting),
    (∀ a ∈ as, ∀ o ∈ a.outcome, o.Ok) → (server E).run ⟨w₀, []⟩ as = some s →
    (s.Idle → Agreed s.state.db) ∧ ∀ a s', (∀ o ∈ a.outcome, o.Ok) → (server E).step s a = some s' → ∀ c k,
      Moves ((s.state.db.requests c).status k) ((s'.state.db.requests c).status k) ∧
        (Accepted c k s.state.db → Accepted c k s'.state.db) := by
  intro h
  have hrun : ((server engines).run ⟨asked, []⟩ (answers "no")).bind (fun s => ((server engines).step s (.step 1 {})).map
      fun s' => ((s.state.db.requests .friend).status (1, 2), (s'.state.db.requests .friend).status (1, 2))) =
        some (some (some .accepted), some (some .rejected)) := by
    unfold server
    rw [Call.exec_eq engines_rules]
    decide +kernel
  obtain ⟨s, hs, hrun⟩ := Option.bind_eq_some_iff.mp hrun
  obtain ⟨s', hs', hrun⟩ := Option.map_eq_some_iff.mp hrun
  obtain ⟨ha, hr⟩ := Prod.mk.inj hrun
  have hok := (h _ engines engines_rules asked agreed_asked not_foreign_asked (answers "no") s (by decide) hs).2
  have hacc := (hok (.step 1 {}) s' (by decide) hs' .friend (1, 2)).2 ha
  rw [Accepted, hr] at hacc
  cases hacc

end BridgeIM.Server.Interleaving
