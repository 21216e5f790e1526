import BridgeIM.Server.RequestHandlers

namespace BridgeIM.Server.Friendship

open Db Lib Model Model.Requests Model.Database Services RequestHandlers

variable {same : String → String → Bool} {E : Engines} {os : Nat → Outcome} {w : Setting} {d d' : Tables}

def Aside : Call → Prop
  | .friend _ | .group _ => False
  | _ => True

theorem exec_aside {op : Call} (h : Aside op) (o : Outcome) (w : Setting) : (op.exec E o w).2.db = w.db := by
  cases op with
  | friend c | group c => exact h.elim
  | publish channel message =>
    simp only [Call.exec]
    split <;> rfl
  | _ => rfl

theorem deliverMessage_aside (targetId : Int) (payload : String) : (deliverMessage targetId payload).Only Aside := by
  refine ⟨trivial, fun found => ?_⟩
  cases found with
  | true => exact ⟨trivial, fun _ => trivial⟩
  | false =>
    refine ⟨trivial, fun user => ?_⟩
    dsimp only
    split <;> exact ⟨trivial, fun _ => trivial⟩

theorem run_deliverMessage (E : Engines) (targetId : Int) (payload : String) (os : Nat → Outcome) (w : Setting) :
    ((deliverMessage targetId payload).run (Call.exec E) os w).2.db = w.db :=
  Program.run_invariant (I := fun w' : Setting => w'.db = w.db) (fun _ _ _ hop hi => (exec_aside hop _ _).trans hi)
    (deliverMessage_aside targetId payload) os rfl

/-- What one request does to the friends and the friend requests. -/
inductive Effect (d d' : Tables) : Prop
  | nothing (hf : d'.friends = d.friends) (hr : d'.requests .friend = d.requests .friend)
  | request (a b : Int) (hne : a ≠ b) (hb : ∃ r ∈ d.users.rows, r.id = b) (hab : (a, b) ∉ d.friends)
      (ht : (d.requests .friend).insertPending (a, b) = some (d'.requests .friend)) (hf : d'.friends = d.friends)
  | renew (a b now : Int) (hs : (d.requests .friend).status (a, b) = some (some .rejected))
      (hr : d'.requests .friend = (d.requests .friend).setStatus (a, b) .pending now) (hf : d'.friends = d.friends)
  | accept (a b now : Int) (ha : IsInt a) (hb : IsInt b)
      (hs : (d.requests .friend).status (a, b) = some (some .pending))
      (hr : d'.requests .friend = (d.requests .friend).setStatus (a, b) .accepted now)
      (hf : ∀ k, k ∈ d'.friends ↔ k ∈ d.friends ∨ k = (a, b) ∨ k = (b, a))
  | reject (a b now : Int) (hs : (d.requests .friend).status (a, b) = some (some .pending))
      (hr : d'.requests .friend = (d.requests .friend).setStatus (a, b) .rejected now) (hf : d'.friends = d.friends)

theorem isInt_of_toInt? {j : Json} {n : Int} (h : j.toInt? = some n) : IsInt n := by
  unfold Json.toInt? at h
  split at h
  · cases h
    exact isInt_wrap _
  · cases h
    exact isInt_truncate _
  · rename_i b
    cases h
    cases b <;> decide
  · cases h

theorem isInt_of_field {js : Json} {key : String} {n : Int} (h : (js.get? key).bind Json.toInt? = some n) : IsInt n := by
  obtain ⟨j, _, hj⟩ := Option.bind_eq_some_iff.mp h
  exact isInt_of_toInt? hj

theorem deliverMessage_delivered (targetId : Int) (payload : String) :
    (deliverMessage targetId payload).Returns (· = .delivered) := by
  intro found
  cases found with
  | true => exact fun _ => rfl
  | false =>
    intro user
    dsimp only
    split <;> exact fun _ => rfl

theorem run_friend {c : FriendCall} {next : c.Value → Handler} {v : c.Value} (h : c.exec E.db (os 0) w.db = (v, d)) :
    Program.run (Call.exec E) (.call (.friend c) next) os w =
      (next v).run (Call.exec E) (fun n => os (n + 1)) (w.put d) := by
  refine Program.run_call ?_
  rw [Call.exec, h]

/-- What a handled request has done, and the status that a request must have had
for the branch that logs an invalid status. -/
structure Served (d : Tables) (x : Answer × Setting) : Prop where
  effect : Effect d x.2.db
  users : x.2.db.users = d.users
  status : x.1 = .invalidStatus → ∃ a b r, (a, b) ∉ d.friends ∧ (d.requests .friend).lookup (a, b) = some r ∧
    r.status ≠ some .pending ∧ r.status ≠ some .rejected

theorem Effect.of_tick {now : Int} : Effect (d.tick now) d' → Effect d d'
  | .nothing hf hr => .nothing hf hr
  | .request a b hne hb hab ht hf => .request a b hne hb hab ht hf
  | .renew a b now hs hr hf => .renew a b now hs hr hf
  | .accept a b now ha hb hs hr hf => .accept a b now ha hb hs hr hf
  | .reject a b now hs hr hf => .reject a b now hs hr hf

theorem Served.of_tick {x : Answer × Setting} {now : Int} (h : Served (d.tick now) x) : Served d x :=
  ⟨h.effect.of_tick, h.users, h.status⟩

theorem served_answer (type : EnMsgType) (errno : Int) (errmsg : String) (hf : w.db.friends = d.friends)
    (hr : w.db.requests .friend = d.requests .friend) (hu : w.db.users = d.users) :
    Served d (Program.run (Call.exec E) (answer type errno errmsg) os w) := ⟨.nothing hf hr, hu, nofun⟩

theorem served_deliver (targetId : Int) (payload : String) (he : Effect d w.db) (hu : w.db.users = d.users) :
    Served d ((deliverMessage targetId payload).run (Call.exec E) os w) := by
  have hd := run_deliverMessage E targetId payload os w
  have ha : ((deliverMessage targetId payload).run (Call.exec E) os w).1 = .delivered :=
    Program.run_returns (deliverMessage_delivered targetId payload) os w
  refine ⟨by rw [hd]; exact he, by rw [hd]; exact hu, fun hi => ?_⟩
  rw [ha] at hi
  cases hi

section

variable (hE : E.Rules same) (hos : ∀ n, (os n).Ok)

include hE hos

theorem requestFriend_served {a b : Int} (payload : String) (hne : a ≠ b) (hb : ∃ r ∈ w.db.users.rows, r.id = b)
    (hab : (a, b) ∉ w.db.friends) :
    Served w.db (Program.run (Call.exec E)
      (.call (.friend (.queryRequestStatus a b)) (requestFriend a b payload)) os w) := by
  rw [run_friend ((FriendCall.queryRequestStatus a b).exec_of_ok hE.db (hos 0) w.db)]
  cases hl : (w.db.requests .friend).lookup (a, b) with
  | none =>
    rw [rowStatus, Option.elim_none, requestFriend,
      run_friend ((FriendCall.addFriendRequest a b).exec_of_ok hE.db (hos (0 + 1)) (w.db.tick (os 0).now)), Tables.tick_requests]
    cases ht : (w.db.requests .friend).insertPending (a, b) with
    | none =>
      rw [Tables.addRequest_of_none (d := (w.db.tick (os 0).now).tick (os (0 + 1)).now) ht]
      exact served_answer _ _ _ rfl rfl rfl
    | some t =>
      rw [Tables.addRequest_of_some (d := (w.db.tick (os 0).now).tick (os (0 + 1)).now) ht]
      exact served_deliver _ _ (.request a b hne hb hab ht rfl) rfl
  | some r =>
    obtain ⟨status, handledAt⟩ := r
    rw [rowStatus, Option.elim_some]
    have hs : (w.db.requests .friend).status (a, b) = some status := by rw [Requests.Table.status, hl, Option.map_some]
    cases status with
    | none => exact ⟨.nothing rfl rfl, rfl, fun _ => ⟨a, b, _, hab, hl, by simp, by simp⟩⟩
    | some s =>
      cases s with
      | accepted => exact ⟨.nothing rfl rfl, rfl, fun _ => ⟨a, b, _, hab, hl, by simp, by simp⟩⟩
      | pending => exact served_answer _ _ _ rfl rfl rfl
      | rejected =>
        have hu := ((FriendCall.updateRequestStatus a b "pending").exec_of_ok hE.db (hos (0 + 1))
          (w.db.tick (os 0).now)).trans (setText_eq (s := .pending) rfl _)
        refine (congrArg (Served w.db) (run_friend hu)).mpr ?_
        exact served_deliver _ _ (.renew a b _ hs rfl rfl) rfl

theorem addFriend_served (js : Json) : Served w.db ((addFriend js).run (Call.exec E) os w) := by
  unfold addFriend
  split
  case h_2 => exact ⟨.nothing rfl rfl, rfl, nofun⟩
  case h_1 a b _ _ =>
    by_cases hne : a = b
    · rw [if_pos hne]
      exact served_answer _ _ _ rfl rfl rfl
    rw [if_neg hne, run_friend ((FriendCall.isUserExist b).exec_of_ok hE.db (hos 0) w.db)]
    cases hb : w.db.users.rows.any fun r => r.id = b with
    | false => exact served_answer _ _ _ rfl rfl rfl
    | true =>
      rw [Bool.not_true, if_neg Bool.false_ne_true,
        run_friend ((FriendCall.isFriend a b).exec_of_ok hE.db (hos (0 + 1)) (w.db.tick (os 0).now)), Tables.areFriends,
        Tables.tick_friends]
      by_cases hab : (a, b) ∈ w.db.friends
      · rw [if_pos (decide_eq_true hab)]
        exact served_answer _ _ _ rfl rfl rfl
      · rw [if_neg (by rwa [decide_eq_true_eq])]
        exact (requestFriend_served hE (fun n => hos (n + 1 + 1)) js.dump hne (by simpa using hb) hab).of_tick.of_tick

theorem befriend_served {a b : Int} {d : Tables} (ha : IsInt a) (hb : IsInt b) (hf : w.db.friends = d.friends)
    (hu : w.db.users = d.users) (now : Int) (hs : (d.requests .friend).status (a, b) = some (some .pending))
    (hr : w.db.requests .friend = (d.requests .friend).setStatus (a, b) .accepted now) :
    Served d ((befriend a b).run (Call.exec E) os w) := by
  have h₁ : (befriend a b).run (Call.exec E) os w = Program.run (Call.exec E)
      (.call (.friend (.insertFriend b a)) fun _ => deliverMessage a acceptFriendResponse.dump) (fun n => os (n + 1)) _ :=
    run_friend ((FriendCall.insertFriend a b).exec_of_ok hE.db (hos 0) w.db)
  rw [h₁, run_friend ((FriendCall.insertFriend b a).exec_of_ok hE.db (hos (0 + 1)) _)]
  refine served_deliver _ _ (.accept a b now ha hb hs ?_ fun k => ?_) ?_
  · rw [← hr]
    simp [Setting.put]
  · simp only [Setting.put, Tables.mem_addFriend (k := (b, a)) _ hb ha, Tables.mem_addFriend (k := (a, b)) _ ha hb,
      Tables.tick_friends, hf, or_assoc]
  · rw [← hu]
    simp [Setting.put]

theorem answerFriend_served {a b : Int} (ha : IsInt a) (hb : IsInt b) (action : String) :
    Served w.db ((answerFriend a b action).run (Call.exec E) os w) := by
  rw [answerFriend, run_friend ((FriendCall.isPendingRequest a b).exec_of_ok hE.db (hos 0) w.db)]
  by_cases hs : (w.db.requests .friend).status (a, b) = some (some .pending)
  · rw [decide_eq_true hs]
    by_cases hc : action = "accept"
    · have hu := ((FriendCall.updateRequestStatus a b "accepted").exec_of_ok hE.db (hos (0 + 1)) (w.db.tick (os 0).now)).trans (setText_eq (s := .accepted) rfl _)
      refine (congrArg (Served w.db) ((congrArg (fun p : Handler => p.run (Call.exec E) _ _) (if_pos hc)).trans (run_friend hu))).mpr ?_
      exact befriend_served hE (fun n => hos (n + 1 + 1)) ha hb rfl rfl _ hs rfl
    · have hu := ((FriendCall.updateRequestStatus a b "rejected").exec_of_ok hE.db (hos (0 + 1)) (w.db.tick (os 0).now)).trans (setText_eq (s := .rejected) rfl _)
      refine (congrArg (Served w.db) ((congrArg (fun p : Handler => p.run (Call.exec E) _ _) (if_neg hc)).trans (run_friend hu))).mpr ?_
      exact served_deliver _ _ (.reject a b _ hs rfl rfl) rfl
  · rw [decide_eq_false hs]
    exact served_answer _ _ _ rfl rfl rfl

theorem addFriendHandle_served (js : Json) : Served w.db ((addFriendHandle js).run (Call.exec E) os w) := by
  unfold addFriendHandle
  split
  case h_2 => exact ⟨.nothing rfl rfl, rfl, nofun⟩
  case h_1 a b action ha hb _ => exact answerFriend_served hE hos (isInt_of_field ha) (isInt_of_field hb) action

end

/-- Friends and friend requests agree. -/
structure Consistent (d : Tables) : Prop where
  symm : ∀ a b, (a, b) ∈ d.friends → (b, a) ∈ d.friends
  irrefl : ∀ a, (a, a) ∉ d.friends
  accepted : ∀ a b, (a, b) ∈ d.friends ↔ (d.requests .friend).status (a, b) = some (some .accepted) ∨
    (d.requests .friend).status (b, a) = some (some .accepted)
  named : ∀ k, (d.requests .friend).status k ≠ some none
  request : ∀ k, (d.requests .friend).status k ≠ none → k.1 ≠ k.2 ∧ ∃ r ∈ d.users.rows, r.id = k.2

theorem Consistent.move {k : Int × Int} {s : Status} (h : Consistent d) (hu : d'.users = d.users)
    (hf : d'.friends = d.friends) (hs : s ≠ .accepted)
    (hk : (d.requests .friend).status k ≠ some (some .accepted)) (hne : k.1 ≠ k.2) (hb : ∃ r ∈ d.users.rows, r.id = k.2)
    (hr : ∀ x, (d'.requests .friend).status x = if x = k then some (some s) else (d.requests .friend).status x) :
    Consistent d' where
  symm := hf ▸ h.symm
  irrefl := hf ▸ h.irrefl
  accepted := by
    have ha (x : Int × Int) : (d'.requests .friend).status x = some (some .accepted) ↔
        (d.requests .friend).status x = some (some .accepted) := by
      rw [hr]
      split
      · rename_i hx
        subst hx
        exact ⟨fun he => absurd (Option.some.inj (Option.some.inj he)) hs, fun he => absurd he hk⟩
      · rfl
    intro a b
    rw [hf, ha, ha]
    exact h.accepted a b
  named x := by
    rw [hr]
    split
    · nofun
    · exact h.named x
  request x := by
    rw [hr, hu]
    split
    · rename_i hx
      exact fun _ => hx ▸ ⟨hne, hb⟩
    · exact h.request x

theorem Consistent.accept {a b now : Int} (h : Consistent d) (hu : d'.users = d.users)
    (hs : (d.requests .friend).status (a, b) = some (some .pending))
    (hr : d'.requests .friend = (d.requests .friend).setStatus (a, b) .accepted now)
    (hf : ∀ k, k ∈ d'.friends ↔ k ∈ d.friends ∨ k = (a, b) ∨ k = (b, a)) : Consistent d' := by
  have hk : (d.requests .friend).status (a, b) ≠ none := by
    rw [hs]
    nofun
  have hm (x : Int × Int) := Requests.Table.status_setStatus hk .accepted now x
  have hne := (h.request _ hk).1
  refine ⟨fun x y hx => ?_, fun x hx => ?_, fun x y => ?_, fun x => ?_, fun x => ?_⟩
  · rw [hf] at hx ⊢
    obtain hx | he | he := hx
    · exact Or.inl (h.symm x y hx)
    · exact Or.inr (Or.inr (congrArg Prod.swap he))
    · exact Or.inr (Or.inl (congrArg Prod.swap he))
  · obtain hx | he | he := (hf _).mp hx
    · exact h.irrefl x hx
    · exact hne ((Prod.mk.inj he).1.symm.trans (Prod.mk.inj he).2)
    · exact hne ((Prod.mk.inj he).2.symm.trans (Prod.mk.inj he).1)
  · rw [hf, h.accepted, hr, hm, hm]
    have hsw : (y, x) = (a, b) ↔ (x, y) = (b, a) := ⟨congrArg Prod.swap, congrArg Prod.swap⟩
    by_cases h₁ : (x, y) = (a, b)
    · simp [h₁]
    · by_cases h₂ : (y, x) = (a, b)
      · simp [h₂, hsw.mp h₂]
      · simp [h₁, h₂, mt hsw.mpr h₂]
  · rw [hr, hm]
    split
    · nofun
    · exact h.named x
  · rw [hr, hm, hu]
    split
    · rename_i hx
      exact fun _ => hx ▸ h.request _ hk
    · exact h.request x

theorem Consistent.step (h : Consistent d) (hu : d'.users = d.users) : Effect d d' → Consistent d'
  | .nothing hf hr => ⟨hf ▸ h.symm, hf ▸ h.irrefl, by rw [hf, hr]; exact h.accepted, hr ▸ h.named, by
      rw [hr, hu]
      exact h.request⟩
  | .request a b hne hb hab ht hf =>
    h.move (s := .pending) hu hf (by decide) (fun hs => hab ((h.accepted a b).mpr (Or.inl hs))) hne hb
      (Requests.Table.status_insertPending ht)
  | .renew a b now hs hr hf => by
    have hk : (d.requests .friend).status (a, b) ≠ none := by rw [hs]; exact Option.some_ne_none _
    obtain ⟨hne, hb⟩ := h.request _ hk
    exact h.move (s := .pending) hu hf (by decide) (by rw [hs]; decide) hne hb (hr ▸ Requests.Table.status_setStatus hk _ _)
  | .accept a b now _ _ hs hr hf => h.accept hu hs hr hf
  | .reject a b now hs hr hf => by
    have hk : (d.requests .friend).status (a, b) ≠ none := by rw [hs]; exact Option.some_ne_none _
    obtain ⟨hne, hb⟩ := h.request _ hk
    exact h.move (s := .rejected) hu hf (by decide) (by rw [hs]; decide) hne hb (hr ▸ Requests.Table.status_setStatus hk _ _)

theorem Effect.accepted_stays {k : Int × Int} {r : Request} (he : Effect d d')
    (hl : (d.requests .friend).lookup k = some r) (hs : r.status = some .accepted) :
    (d'.requests .friend).lookup k = some r := by
  have hst : (d.requests .friend).status k = some (some .accepted) := by rw [Requests.Table.status, hl, Option.map_some, hs]
  have hne {x : Int × Int} {s : Status} (hx : (d.requests .friend).status x = some (some s)) (hc : s ≠ .accepted) : k ≠ x :=
    fun hk => hc (Option.some.inj (Option.some.inj (hx.symm.trans (hk ▸ hst))))
  cases he with
  | nothing hf hr => rw [hr, hl]
  | request a b _ _ _ ht _ =>
    have hk : k ≠ (a, b) := fun hk => by
      rw [hk, (Requests.Table.insertPending_eq_some.mp ht).1.2.2] at hl
      cases hl
    rw [Requests.Table.lookup_insertPending_ne ht hk, hl]
  | renew a b now hx hr _ => rw [hr, Requests.Table.lookup_setStatus_ne (hne hx (by decide)), hl]
  | accept a b now _ _ hx hr _ => rw [hr, Requests.Table.lookup_setStatus_ne (hne hx (by decide)), hl]
  | reject a b now hx hr _ => rw [hr, Requests.Table.lookup_setStatus_ne (hne hx (by decide)), hl]

inductive FriendRequest
  | addFriend (js : Json)
  | addFriendHandle (js : Json)

def FriendRequest.handler : FriendRequest → Handler
  | addFriend js => RequestHandlers.addFriend js
  | addFriendHandle js => RequestHandlers.addFriendHandle js

def handling (E : Engines) : Machine Setting (FriendRequest × (Nat → Outcome)) where
  step w x := some (x.1.handler.run (Call.exec E) x.2 w).2

theorem handler_served (hE : E.Rules same) (x : FriendRequest) (hos : ∀ n, (os n).Ok) (w : Setting) :
    Served w.db (x.handler.run (Call.exec E) os w) := by
  cases x with
  | addFriend js => exact addFriend_served hE hos js
  | addFriendHandle js => exact addFriendHandle_served hE hos js

theorem consistent_of_empty (hf : d.friends = []) (hr : d.requests .friend = ∅) : Consistent d := by
  have hs (k : Int × Int) : (d.requests .friend).status k = none := by rw [hr]; rfl
  refine ⟨?_, ?_, ?_, fun k => ?_, fun k hk => absurd (hs k) hk⟩
  · simp [hf]
  · simp [hf]
  · simp [hf, hs]
  · rw [hs]
    nofun

theorem consistent_run (hE : E.Rules same) {xs : List (FriendRequest × (Nat → Outcome))} {w' : Setting}
    (hok : ∀ x ∈ xs, ∀ n, (x.2 n).Ok) (h : Consistent w.db) (hr : (handling E).run w xs = some w') : Consistent w'.db := by
  have hm := Machine.meets_of_forall (M := handling E) w hok
  refine Machine.run_invariant (I := fun w => Consistent w.db) h ?_ hm hr
  rintro w x t hi hx ⟨⟩
  have hs := handler_served hE x.1 hx w
  exact hi.step hs.users hs.effect

/-- Friendship is symmetric and irreflexive, and what the accepted requests say,
after any requests. An accepted request stays, every request is to another and
existing user, and no request comes to the branch that logs an invalid status. -/
theorem friendship_invariant (hE : E.Rules same) {xs ys : List (FriendRequest × (Nat → Outcome))} {w₀ w w' : Setting}
    (hx : ∀ x ∈ xs, ∀ n, (x.2 n).Ok) (hy : ∀ y ∈ ys, ∀ n, (y.2 n).Ok) (hf : w₀.db.friends = [])
    (hr : w₀.db.requests .friend = ∅) (hw : (handling E).run w₀ xs = some w) (hw' : (handling E).run w ys = some w') :
    Consistent w.db ∧
    (∀ k r, (w.db.requests .friend).lookup k = some r → r.status = some .accepted →
      (w'.db.requests .friend).lookup k = some r) ∧
    ∀ (x : FriendRequest) (os : Nat → Outcome), (∀ n, (os n).Ok) →
      (x.handler.run (Call.exec E) os w).1 ≠ .invalidStatus := by
  have hc := consistent_run hE hx (consistent_of_empty hf hr) hw
  refine ⟨hc, fun k r hl hs => ?_, fun x os hos hi => ?_⟩
  · have hm := Machine.meets_of_forall (M := handling E) w hy
    refine Machine.run_invariant (I := fun w => (w.db.requests .friend).lookup k = some r) hl ?_ hm hw'
    rintro w x t hi hx ⟨⟩
    exact (handler_served hE x.1 hx w).effect.accepted_stays hi hs
  · obtain ⟨a, b, r, hab, hl, hp, hj⟩ := (handler_served hE x hos w).status hi
    have hst : (w.db.requests .friend).status (a, b) = some r.status := by rw [Requests.Table.status, hl, Option.map_some]
    cases hs : r.status with
    | none => exact hc.named (a, b) (by rw [hst, hs])
    | some s =>
      cases s with
      | pending => exact hp hs
      | rejected => exact hj hs
      | accepted => exact hab ((hc.accepted a b).mpr (Or.inl (by rw [hst, hs])))

namespace Persons

def accounts : UserModel.Table where
  rows := [⟨1, "alice", "a", some .online⟩, ⟨2, "bob", "b", some .offline⟩]
  nextId := 3
  ids := by decide
  unique := by decide

def engines : Engines := Engines.strict fun a b => a = b

def world : Setting := { db := { users := accounts }, connections := fun _ => true }

def ask (userid friendid : Int) : Json := .obj [("friendid", .int friendid), ("userid", .int userid)]

def reply (userid friendid : Int) (action : String) : Json :=
  .obj [("action", .str action), ("friendid", .int friendid), ("userid", .int userid)]

def visits : List (FriendRequest × (Nat → Outcome)) :=
  [(.addFriend (ask 1 2), fun _ => {}), (.addFriendHandle (reply 1 2 "no"), fun _ => {}),
    (.addFriend (ask 1 2), fun _ => {}), (.addFriendHandle (reply 1 2 "accept"), fun _ => {})]

end Persons

open Persons in
theorem engines_rules : engines.Rules fun a b => a = b := Engines.strict_rules _

open Persons in
theorem friendship_invariant_visits : ∃ w, (handling engines).run world visits = some w ∧
    w.db.friends = [(1, 2), (2, 1)] ∧ Consistent w.db := by
  have hv : ∀ x ∈ visits, ∀ n, (x.2 n).Ok := by
    simp [visits, Outcome.Ok, Outcome.succeeds, Outcome.applied]
  have hf : ((handling engines).run world visits).map (fun w => w.db.friends) = some [(1, 2), (2, 1)] := by
    unfold handling
    rw [Call.exec_eq engines_rules]
    decide +kernel
  obtain ⟨w, hw, hf⟩ := Option.map_eq_some_iff.mp hf
  have h := friendship_invariant engines_rules hv (fun _ hy => absurd hy List.not_mem_nil) rfl rfl hw rfl
  exact ⟨w, hw, hf, h.1⟩

end BridgeIM.Server.Friendship
