import BridgeIM.Server.Friendship

namespace BridgeIM.Server.Notices

open Db Lib Model Model.Database Services RequestHandlers Friendship

/-- How a text gets to a user. -/
inductive Route
  | connection | channel | store
  deriving DecidableEq

def route (w : Setting) (u : Int) : Route :=
  if w.connections u then .connection else if w.db.users.stateOf u = some .online then .channel else .store

def routed (w : Setting) (r : Route) (told : List (Int × String)) : List (Int × String) :=
  told.filter fun x => route w x.1 = r

/-- The server `w`, which was `w₀` at the start, has passed on what users have
been told, and the users are where they were. -/
structure Passed (E : Engines) (w₀ w : Setting) (told : List (Int × String)) : Prop where
  users : w.db.users = w₀.db.users
  connections : w.connections = w₀.connections
  sent : w.sent = w₀.sent ++ routed w₀ .connection told
  published : w.published = w₀.published ++ routed w₀ .channel told
  offline : w.offline =
    (routed w₀ .store told).foldl (fun t x => OfflineMsgModel.insert E.offline x.1 x.2 t) w₀.offline

variable {same : String → String → Bool} {E : Engines} {os : Nat → Outcome} {w₀ w : Setting} {d : Tables}
  {told : List (Int × String)}

theorem passed_refl (E : Engines) (w : Setting) : Passed E w w [] where
  users := rfl
  connections := rfl
  sent := (List.append_nil _).symm
  published := (List.append_nil _).symm
  offline := rfl

theorem Passed.put (h : Passed E w₀ w told) (hu : d.users = w.db.users) : Passed E w₀ (w.put d) told :=
  ⟨hu.trans h.users, h.connections, h.sent, h.published, h.offline⟩

theorem Passed.route_eq (h : Passed E w₀ w told) (u : Int) : route w u = route w₀ u := by
  rw [route, route, h.connections, h.users]

theorem routed_concat (w : Setting) (r : Route) (told : List (Int × String)) (u : Int) (text : String) :
    routed w r (told ++ [(u, text)]) = routed w r told ++ if route w u = r then [(u, text)] else [] := by
  rw [routed, List.filter_append, routed, List.filter_singleton]
  congr 1
  by_cases h : route w u = r <;> simp [h]

theorem deliver_route (hE : E.Rules same) (hos : ∀ n, (os n).Ok) (w : Setting) (u : Int) (text : String) :
    (deliverMessage u text).run (Call.exec E) os w = (.delivered, match route w u with
      | .connection => { w with sent := w.sent ++ [(u, text)] }
      | .channel => { w with published := w.published ++ [(u, text)] }
      | .store => { w with offline := OfflineMsgModel.insert E.offline u text w.offline }) := by
  have hq : ((os (0 + 1)).borrows && (os (0 + 1)).executes && (os (0 + 1)).reported) = true := by
    rw [(ok_session (hos _)).1, (ok_session (hos _)).2]
    rfl
  have hp : (os (0 + 1 + 1)).executes = true := by
    have h := (ok_session (hos (0 + 1 + 1))).1
    simp only [Bool.and_eq_true] at h
    exact h.2
  have hi : ((OfflineMessageCall.insert u text).exec E.offline (os (0 + 1 + 1)) w.offline).2 =
      OfflineMsgModel.insert E.offline u text w.offline := by
    rw [exec_insertOffline, if_pos (Outcome.applied_of_ok (hos _))]
  have hon := UserModel.queryId_online hE.users u w.db.users
  cases hc : w.connections u with
  | true => simp [deliverMessage, Program.run, Call.exec, route, hc]
  | false =>
    by_cases hst : w.db.users.stateOf u = some .online
    · simp only [deliverMessage, Program.run, Call.exec, route, hc, hq, hst, hon.mpr hst, hp, if_true, if_false,
        Bool.false_eq_true]
    · simp only [deliverMessage, Program.run, Call.exec, route, hc, hq, hst, mt hon.mp hst, hi, if_true, if_false,
        Bool.false_eq_true]

theorem deliver_passed (hE : E.Rules same) (hos : ∀ n, (os n).Ok) (h : Passed E w₀ w told) (u : Int) (text : String) :
    ((deliverMessage u text).run (Call.exec E) os w).1 = .delivered ∧
      ((deliverMessage u text).run (Call.exec E) os w).2.db = w.db ∧
      Passed E w₀ ((deliverMessage u text).run (Call.exec E) os w).2 (told ++ [(u, text)]) := by
  rw [deliver_route hE hos]
  refine ⟨rfl, ?_, ?_⟩
  · dsimp only
    split <;> rfl
  · have hr := h.route_eq u
    cases hx : route w u with
    | connection =>
      rw [hx] at hr
      refine ⟨h.users, h.connections, ?_, ?_, ?_⟩
      · rw [routed_concat, if_pos hr.symm, ← List.append_assoc, ← h.sent]
      · rw [routed_concat, if_neg (by rw [← hr]; decide), List.append_nil, ← h.published]
      · rw [routed_concat, if_neg (by rw [← hr]; decide), List.append_nil, ← h.offline]
    | channel =>
      rw [hx] at hr
      refine ⟨h.users, h.connections, ?_, ?_, ?_⟩
      · rw [routed_concat, if_neg (by rw [← hr]; decide), List.append_nil, ← h.sent]
      · rw [routed_concat, if_pos hr.symm, ← List.append_assoc, ← h.published]
      · rw [routed_concat, if_neg (by rw [← hr]; decide), List.append_nil, ← h.offline]
    | store =>
      rw [hx] at hr
      refine ⟨h.users, h.connections, ?_, ?_, ?_⟩
      · rw [routed_concat, if_neg (by rw [← hr]; decide), List.append_nil, ← h.sent]
      · rw [routed_concat, if_neg (by rw [← hr]; decide), List.append_nil, ← h.published]
      · rw [routed_concat, if_pos hr.symm, List.foldl_append, ← h.offline]
        rfl

end BridgeIM.Server.Notices
