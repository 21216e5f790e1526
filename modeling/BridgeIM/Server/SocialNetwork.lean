import BridgeIM.Lib.Transducer
import BridgeIM.Server.Notices
import Mathlib.Data.Set.Insert

namespace BridgeIM.Server.SocialNetwork

open Db Lib Model Model.Requests Model.Database Services RequestHandlers Friendship Notices

/-- Who is a friend of whom, what has become of the requests, and who has been
told what. -/
structure Network where
  friends : Set (Int × Int)
  status : Int × Int → Option Status
  told : List (Int × String) := []

inductive Op
  | ask (a b : Int) (payload : String)
  | answer (a b : Int) (action : String)
  | broken

namespace Network

def tell (u : Int) (text : String) (g : Network) : Network := { g with told := g.told ++ [(u, text)] }

def move (k : Int × Int) (s : Status) (g : Network) : Network := { g with status := Function.update g.status k (some s) }

def befriend (a b : Int) (g : Network) : Network := { g with friends := g.friends ∪ {(a, b), (b, a)} }

theorem status_move (k x : Int × Int) (s : Status) (g : Network) :
    (g.move k s).status x = if x = k then some s else g.status x := Function.update_apply _ _ _ _

open Classical in
/-- A request reaches the other user when it is new or when the one before has
been rejected. -/
noncomputable def ask (known : Set Int) (a b : Int) (payload : String) (g : Network) : Option (Int × String) × Network :=
  if a = b then (some (1, "You cannot add yourself!"), g)
  else if b ∉ known then (some (1, "User does not exist!"), g)
  else if (a, b) ∈ g.friends then (some (2, "This user is already your friend!"), g)
  else match g.status (a, b) with
    | none | some .rejected => (none, (g.move (a, b) .pending).tell b payload)
    | some .pending => (some (2, "The request has been sent!"), g)
    | some .accepted => (none, g)

def answer (a b : Int) (action : String) (g : Network) : Option (Int × String) × Network :=
  if g.status (a, b) = some .pending then
    if action = "accept" then (none, ((g.move (a, b) .accepted).befriend a b).tell a acceptFriendResponse.dump)
    else (none, (g.move (a, b) .rejected).tell a rejectFriendResponse.dump)
  else (some (4, "The user has not sent a friend request to you!"), g)

end Network

/-- What the two handlers are for, with the users that there are. The output is
what the user who has asked is refused with. -/
noncomputable def network (known : Set Int) : Transducer Network Op (Option (Int × String)) where
  step g
    | .ask a b payload => g.ask known a b payload
    | .answer a b action => g.answer a b action
    | .broken => (none, g)

def op : FriendRequest → Op
  | .addFriend js =>
    match (js.get? "userid").bind Json.toInt?, (js.get? "friendid").bind Json.toInt? with
    | some a, some b => .ask a b js.dump
    | _, _ => .broken
  | .addFriendHandle js =>
    match (js.get? "userid").bind Json.toInt?, (js.get? "friendid").bind Json.toInt?,
      (js.get? "action").bind Json.toStr? with
    | some a, some b, some action => .answer a b action
    | _, _, _ => .broken

def server (E : Engines) : Transducer Setting (FriendRequest × (Nat → Outcome)) Answer where
  step w x := x.1.handler.run (Call.exec E) x.2 w

/-- The server `w`, which was `w₀` at the start, has the friends and the
requests of the network, and has passed on what users have been told. -/
structure Models (E : Engines) (w₀ w : Setting) (g : Network) : Prop where
  passed : Passed E w₀ w g.told
  friends : ∀ k, k ∈ w.db.friends ↔ k ∈ g.friends
  status : ∀ k, (w.db.requests .friend).status k = (g.status k).map some

def Says : Answer → Option (Int × String) → Prop
  | .sendJson response, r => ∃ errno errmsg, r = some (errno, errmsg) ∧ response = reply .addFriendResponse errno errmsg
  | _, r => r = none

def known (w : Setting) : Set Int := {u | ∃ r ∈ w.db.users.rows, r.id = u}

variable {same : String → String → Bool} {E : Engines} {os : Nat → Outcome} {w₀ w : Setting} {d : Tables} {g : Network}
  {a b : Int}

theorem Models.put (h : Models E w₀ w g) (hu : d.users = w.db.users) (hf : d.friends = w.db.friends)
    (hr : d.requests .friend = w.db.requests .friend) : Models E w₀ (w.put d) g where
  passed := h.passed.put hu
  friends k := by
    rw [← h.friends, ← hf]
    rfl
  status k := by
    rw [← h.status, ← hr]
    rfl

theorem Models.tick (h : Models E w₀ w g) (now : Int) : Models E w₀ (w.put (w.db.tick now)) g := h.put rfl rfl rfl

theorem Models.move (h : Models E w₀ w g) {k : Int × Int} {s : Status} (hu : d.users = w.db.users)
    (hf : d.friends = w.db.friends)
    (hr : ∀ x, (d.requests .friend).status x = if x = k then some (some s) else (w.db.requests .friend).status x) :
    Models E w₀ (w.put d) (g.move k s) where
  passed := h.passed.put hu
  friends x := by
    apply Iff.trans _ (h.friends x)
    rw [← hf]
    rfl
  status x := by
    apply (hr x).trans
    rw [Network.status_move]
    by_cases hx : x = k
    · rw [if_pos hx, if_pos hx]
      rfl
    · rw [if_neg hx, if_neg hx, h.status]

def Done (E : Engines) (w₀ : Setting) (x : Answer × Setting) (y : Option (Int × String) × Network) : Prop :=
  Says x.1 y.1 ∧ Models E w₀ x.2 y.2

theorem done_answer (h : Models E w₀ w g) (errno : Int) (errmsg : String) :
    Done E w₀ (Program.run (Call.exec E) (answer .addFriendResponse errno errmsg) os w) (some (errno, errmsg), g) :=
  ⟨⟨errno, errmsg, rfl, rfl⟩, h⟩

section

variable (hE : E.Rules same) (hos : ∀ n, (os n).Ok)

include hE hos

theorem done_deliver (h : Models E w₀ w g) (u : Int) (text : String) :
    Done E w₀ ((deliverMessage u text).run (Call.exec E) os w) (none, g.tell u text) := by
  obtain ⟨ha, hd, hp⟩ := deliver_passed hE hos h.passed u text
  refine ⟨?_, hp, ?_, ?_⟩
  · rw [ha]
    rfl
  · rw [hd]
    exact h.friends
  · rw [hd]
    exact h.status

theorem done_request (h : Models E w₀ w g) (payload : String) (ha : IsInt a) (hb : IsInt b) :
    Done E w₀ (Program.run (Call.exec E) (.call (.friend (.queryRequestStatus a b)) (requestFriend a b payload)) os w)
      (match g.status (a, b) with
        | none | some .rejected => (none, (g.move (a, b) .pending).tell b payload)
        | some .pending => (some (2, "The request has been sent!"), g)
        | some .accepted => (none, g)) := by
  rw [run_friend ((FriendCall.queryRequestStatus a b).exec_of_ok hE.db (hos 0) w.db)]
  have hst := h.status (a, b)
  cases hg : g.status (a, b) with
  | none =>
    rw [hg] at hst
    have hl : (w.db.requests .friend).lookup (a, b) = none := Requests.Table.status_eq_none.mp hst
    obtain ⟨t, ht⟩ : ∃ t, (w.db.requests .friend).insertPending (a, b) = some t :=
      ⟨_, Requests.Table.insertPending_eq_some.mpr ⟨⟨ha, hb, hl⟩, rfl⟩⟩
    rw [hl, rowStatus, Option.elim_none, requestFriend,
      run_friend ((FriendCall.addFriendRequest a b).exec_of_ok hE.db (hos (0 + 1)) (w.db.tick (os 0).now)),
      Tables.tick_requests, ht, Tables.addRequest_of_some (d := (w.db.tick (os 0).now).tick (os (0 + 1)).now) ht]
    apply done_deliver hE (fun n => hos (n + 1 + 1))
    exact (h.tick _).move rfl rfl (Requests.Table.status_insertPending ht)
  | some s =>
    rw [hg] at hst
    obtain ⟨⟨_, handledAt⟩, hl, rfl⟩ := Option.map_eq_some_iff.mp hst
    rw [hl, rowStatus, Option.elim_some]
    cases s with
    | accepted => exact ⟨rfl, h.tick _⟩
    | pending => exact done_answer (h.tick _) _ _
    | rejected =>
      have hk : (w.db.requests .friend).status (a, b) ≠ none := by rw [hst]; exact Option.some_ne_none _
      have hu := ((FriendCall.updateRequestStatus a b "pending").exec_of_ok hE.db (hos (0 + 1))
        (w.db.tick (os 0).now)).trans (setText_eq (s := .pending) rfl _)
      refine (congrArg (Done E w₀ · _) (run_friend hu)).mpr ?_
      apply done_deliver hE (fun n => hos (n + 1 + 1))
      exact (h.tick _).move rfl rfl (Requests.Table.status_setStatus hk .pending _)

theorem done_addFriend (h : Models E w₀ w g) (js : Json) :
    Done E w₀ ((addFriend js).run (Call.exec E) os w) ((network (known w₀)).step g (op (.addFriend js))) := by
  unfold addFriend
  dsimp only [op]
  cases hja : (js.get? "userid").bind Json.toInt? with
  | none => exact ⟨rfl, h⟩
  | some a =>
  cases hjb : (js.get? "friendid").bind Json.toInt? with
  | none => exact ⟨rfl, h⟩
  | some b =>
    change Done E w₀ _ (g.ask (known w₀) a b js.dump)
    unfold Network.ask
    dsimp only
    by_cases hab : a = b
    · rw [if_pos hab, if_pos hab]
      exact done_answer h _ _
    rw [if_neg hab, if_neg hab, run_friend ((FriendCall.isUserExist b).exec_of_ok hE.db (hos 0) w.db)]
    have hknown : b ∈ known w₀ ↔ (w.db.users.rows.any fun r => r.id = b) = true := by
      rw [known, ← h.passed.users]
      simp
    cases hb : w.db.users.rows.any fun r => r.id = b with
    | false =>
      have hno : b ∉ known w₀ := by rw [hknown, hb]; decide
      rw [Bool.not_false, if_pos rfl, if_pos hno]
      exact done_answer (h.tick _) _ _
    | true =>
      rw [if_neg (not_not.mpr (hknown.mpr hb)), Bool.not_true, if_neg Bool.false_ne_true,
        run_friend ((FriendCall.isFriend a b).exec_of_ok hE.db (hos (0 + 1)) (w.db.tick (os 0).now)), Tables.areFriends,
        Tables.tick_friends]
      by_cases hf : (a, b) ∈ w.db.friends
      · rw [if_pos (decide_eq_true hf), if_pos ((h.friends (a, b)).mp hf)]
        exact done_answer ((h.tick _).tick _) _ _
      · rw [if_neg (by rwa [decide_eq_true_eq]), if_neg (mt (h.friends (a, b)).mpr hf)]
        exact done_request hE (fun n => hos (n + 1 + 1)) ((h.tick _).tick _) js.dump (isInt_of_field hja) (isInt_of_field hjb)

theorem done_befriend (h : Models E w₀ w g) (ha : IsInt a) (hb : IsInt b) :
    Done E w₀ ((befriend a b).run (Call.exec E) os w) (none, (g.befriend a b).tell a acceptFriendResponse.dump) := by
  have h₁ : (befriend a b).run (Call.exec E) os w = Program.run (Call.exec E)
      (.call (.friend (.insertFriend b a)) fun _ => deliverMessage a acceptFriendResponse.dump) (fun n => os (n + 1)) _ :=
    run_friend ((FriendCall.insertFriend a b).exec_of_ok hE.db (hos 0) w.db)
  rw [h₁, run_friend ((FriendCall.insertFriend b a).exec_of_ok hE.db (hos (0 + 1)) _)]
  apply done_deliver hE (fun n => hos (n + 1 + 1))
  refine ⟨(h.passed.put ?_).put ?_, fun k => ?_, fun k => ?_⟩
  · simp
  · simp
  · simp only [Setting.put, Tables.mem_addFriend (k := (b, a)) _ hb ha, Tables.mem_addFriend (k := (a, b)) _ ha hb,
      Tables.tick_friends, h.friends, Network.befriend, Set.mem_union, Set.mem_insert_iff, Set.mem_singleton_iff, or_assoc]
  · apply Eq.trans _ (h.status k)
    simp [Setting.put]

theorem done_answerFriend (h : Models E w₀ w g) (ha : IsInt a) (hb : IsInt b) (action : String) :
    Done E w₀ ((answerFriend a b action).run (Call.exec E) os w) (g.answer a b action) := by
  rw [answerFriend, run_friend ((FriendCall.isPendingRequest a b).exec_of_ok hE.db (hos 0) w.db)]
  have hpending : (w.db.requests .friend).status (a, b) = some (some .pending) ↔ g.status (a, b) = some .pending := by
    rw [h.status]
    constructor
    · intro hs
      obtain ⟨s, hg, hs⟩ := Option.map_eq_some_iff.mp hs
      rw [hg, hs]
    · intro hs
      rw [hs]
      rfl
  unfold Network.answer
  by_cases hs : (w.db.requests .friend).status (a, b) = some (some .pending)
  · have hk : (w.db.requests .friend).status (a, b) ≠ none := by rw [hs]; exact Option.some_ne_none _
    rw [decide_eq_true hs, if_pos (hpending.mp hs)]
    change Done E w₀ (Program.run (Call.exec E) (if action = "accept" then acceptFriend a b else rejectFriend a b)
      (fun n => os (n + 1)) (w.put (w.db.tick (os 0).now))) _
    by_cases hc : action = "accept"
    · have hu := ((FriendCall.updateRequestStatus a b "accepted").exec_of_ok hE.db (hos (0 + 1))
        (w.db.tick (os 0).now)).trans (setText_eq (s := .accepted) rfl _)
      rw [if_pos hc, if_pos hc]
      refine (congrArg (Done E w₀ · _) (run_friend hu)).mpr ?_
      apply done_befriend hE (fun n => hos (n + 1 + 1)) _ ha hb
      exact (h.tick _).move rfl rfl (Requests.Table.status_setStatus hk .accepted _)
    · have hu := ((FriendCall.updateRequestStatus a b "rejected").exec_of_ok hE.db (hos (0 + 1))
        (w.db.tick (os 0).now)).trans (setText_eq (s := .rejected) rfl _)
      rw [if_neg hc, if_neg hc]
      refine (congrArg (Done E w₀ · _) (run_friend hu)).mpr ?_
      apply done_deliver hE (fun n => hos (n + 1 + 1))
      exact (h.tick _).move rfl rfl (Requests.Table.status_setStatus hk .rejected _)
  · rw [decide_eq_false hs, if_neg (mt hpending.mpr hs)]
    exact done_answer (h.tick _) _ _

theorem done_addFriendHandle (h : Models E w₀ w g) (js : Json) :
    Done E w₀ ((addFriendHandle js).run (Call.exec E) os w) ((network (known w₀)).step g (op (.addFriendHandle js))) := by
  unfold addFriendHandle
  dsimp only [op]
  cases ha : (js.get? "userid").bind Json.toInt? with
  | none => exact ⟨rfl, h⟩
  | some a =>
  cases hb : (js.get? "friendid").bind Json.toInt? with
  | none => exact ⟨rfl, h⟩
  | some b =>
  cases (js.get? "action").bind Json.toStr? with
  | none => exact ⟨rfl, h⟩
  | some action => exact done_answerFriend hE hos h (isInt_of_field ha) (isInt_of_field hb) action

end

theorem server_step (hE : E.Rules same) (w₀ : Setting) : (server E).Refines (network (known w₀)) (Models E w₀)
    (fun x y => (∀ n, (x.2 n).Ok) ∧ y = op x.1) Says := by
  rintro w g ⟨q, os⟩ _ h ⟨hos, rfl⟩
  cases q with
  | addFriend js => exact done_addFriend hE hos h js
  | addFriendHandle js => exact done_addFriendHandle hE hos h js

def shown (w : Setting) : Network where
  friends := {k | k ∈ w.db.friends}
  status k := ((w.db.requests .friend).status k).join

theorem models_shown (E : Engines) (hs : ∀ k, (w.db.requests .friend).status k ≠ some none) : Models E w w (shown w) where
  passed := passed_refl E w
  friends _ := Iff.rfl
  status k := by
    change _ = ((w.db.requests .friend).status k).join.map some
    cases hk : (w.db.requests .friend).status k with
    | none => rfl
    | some s =>
      cases s with
      | none => exact absurd hk (hs k)
      | some s => rfl

/-- The server does what the network does: for any requests, one after the
other, it refuses what the network refuses, and ends with its friends, its
requests and its notices. -/
theorem server_refines (hE : E.Rules same) (w : Setting) (hs : ∀ k, (w.db.requests .friend).status k ≠ some none)
    (xs : List (FriendRequest × (Nat → Outcome))) (hos : ∀ x ∈ xs, ∀ n, (x.2 n).Ok) :
    let y := (network (known w)).run (shown w) (xs.map fun x => op x.1)
    List.Forall₂ Says ((server E).run w xs).1 y.1 ∧ Models E w ((server E).run w xs).2 y.2 := by
  apply (server_step hE w).run _ (models_shown E hs)
  rw [List.forall₂_map_right_iff]
  exact List.forall₂_same.mpr fun x hx => ⟨hos x hx, rfl⟩

open Persons

theorem server_refines_visits : let y := (network (known world)).run (shown world) (visits.map fun x => op x.1)
    List.Forall₂ Says ((server engines).run world visits).1 y.1 ∧ Models engines world ((server engines).run world visits).2 y.2 := by
  apply server_refines engines_rules world
  · intro k
    exact nofun
  · simp [visits, Outcome.Ok, Outcome.succeeds, Outcome.applied]

end BridgeIM.Server.SocialNetwork
