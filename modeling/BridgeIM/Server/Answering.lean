import BridgeIM.Server.Friendship

namespace BridgeIM.Server.Answering

open Db Lib Model Model.Requests Model.Database Services RequestHandlers Friendship

variable {same : String → String → Bool} {E : Engines} {os : Nat → Outcome} {w : Setting} {d : Tables}

/-- A user has got a text: on his connection, over Redis or as an offline message. -/
def Told (w w' : Setting) (userid : Int) (text : String) : Prop :=
  w.sent.count (userid, text) < w'.sent.count (userid, text) ∨
  w.published.count (userid, text) < w'.published.count (userid, text) ∨
  w.offline.count (userid, text) < w'.offline.count (userid, text)

/-- The answer to a friend request has had no effect, or its whole effect. -/
def AllOrNothing (userid friendid : Int) (action : String) (w w' : Setting) : Prop :=
  ((w'.db.requests .friend).lookup (userid, friendid) = (w.db.requests .friend).lookup (userid, friendid) ∧
    w'.db.friends = w.db.friends ∧ ¬ Told w w' userid acceptFriendResponse.dump ∧
    ¬ Told w w' userid rejectFriendResponse.dump) ∨
  (action = "accept" ∧ (w'.db.requests .friend).status (userid, friendid) = some (some .accepted) ∧
    (userid, friendid) ∈ w'.db.friends ∧ (friendid, userid) ∈ w'.db.friends ∧
    Told w w' userid acceptFriendResponse.dump) ∨
  (action ≠ "accept" ∧ (w'.db.requests .friend).status (userid, friendid) = some (some .rejected) ∧
    Told w w' userid rejectFriendResponse.dump)

/-- `deliverMessage` gets through to the user when its calls have these outcomes. -/
def Reaches (w : Setting) (userid : Int) (os : Nat → Outcome) : Prop :=
  w.connections userid = true ∨
  if ((os 1).borrows && (os 1).executes && (os 1).reported) = true ∧ w.db.users.stateOf userid = some .online then
    (os 2).executes = true
  else (os 2).applied = true

def Entered (w : Setting) (userid friendid : Int) (os : Nat → Outcome) : Prop :=
  ∀ k ∈ [(userid, friendid), (friendid, userid)], k ∈ w.db.friends ∨
    ((os 0).applied = true ∧ k = (userid, friendid)) ∨ ((os 1).applied = true ∧ k = (friendid, userid))

instance (w : Setting) (userid friendid : Int) (os : Nat → Outcome) : Decidable (Entered w userid friendid os) :=
  inferInstanceAs (Decidable (∀ k ∈ _, _))

/-- The failures that leave an answer all or nothing. -/
def Harmless (userid friendid : Int) (action : String) (w : Setting) (os : Nat → Outcome) : Prop :=
  (os 0).succeeds = true → (w.db.requests .friend).status (userid, friendid) = some (some .pending) →
    if action = "accept" then (os 1).applied = true → (os 1).succeeds = true ∧
      Entered w userid friendid (fun n => os (n + 2)) ∧ Reaches w userid (fun n => os (n + 4))
    else ((os 1).applied = true ↔ Reaches w userid (fun n => os (n + 2)))

theorem not_told_self (userid : Int) (text : String) : ¬ Told w w userid text := by
  simp [Told]

theorem deliverMessage_eq (hE : E.Rules same) {userid : Int} (hu : IsInt userid) {text : String}
    (hq : '\x00' ∉ text.toList) (hs : OfflineMsgModel.Storable text) :
    ((deliverMessage userid text).run (Call.exec E) os w).2 =
      if w.connections userid = true then { w with sent := w.sent ++ [(userid, text)] }
      else if ((os 1).borrows && (os 1).executes && (os 1).reported) = true ∧
        w.db.users.stateOf userid = some .online then
        if (os 2).executes then { w with published := w.published ++ [(userid, text)] } else w
      else { w with offline := if (os 2).applied then w.offline ++ [(userid, text)] else w.offline } := by
  have hin : ((OfflineMessageCall.insert userid text).exec E.offline (os 2) w.offline).2 =
      if (os 2).applied then w.offline ++ [(userid, text)] else w.offline := by
    rw [exec_insertOffline, OfflineMsgModel.insert_storable hE.offline hu hq hs]
  cases hc : w.connections userid with
  | true => simp [deliverMessage, Program.run, Call.exec, hc]
  | false =>
    have hon := UserModel.queryId_online hE.users userid w.db.users
    cases ho : (os 1).borrows && (os 1).executes && (os 1).reported with
    | false =>
      simp [deliverMessage, Program.run, Call.exec, hc, ho, hin]
    | true =>
      by_cases hst : w.db.users.stateOf userid = some .online
      · simp [deliverMessage, Program.run, Call.exec, hc, ho, hon.mpr hst, hst]
      · simp [deliverMessage, Program.run, Call.exec, hc, ho, mt hon.mp hst, hst, hin]

theorem told_deliver (hE : E.Rules same) {userid : Int} (hu : IsInt userid) {text : String}
    (hq : '\x00' ∉ text.toList) (hs : OfflineMsgModel.Storable text) (w : Setting) (os : Nat → Outcome)
    (text' : String) : Told w ((deliverMessage userid text).run (Call.exec E) os w).2 userid text' ↔ text' = text ∧ Reaches w userid os := by
  rw [deliverMessage_eq hE hu hq hs, Reaches]
  split
  · simp [Told, *]
  · split
    · split <;> simp [Told, *]
    · split <;> simp [Told, *]

theorem responses_storable :
    ('\x00' ∉ acceptFriendResponse.dump.toList ∧ OfflineMsgModel.Storable acceptFriendResponse.dump) ∧
    ('\x00' ∉ rejectFriendResponse.dump.toList ∧ OfflineMsgModel.Storable rejectFriendResponse.dump) ∧
    acceptFriendResponse.dump ≠ rejectFriendResponse.dump := by
  decide +kernel

theorem insertFriend_cases (hE : E.Rules same) {a b : Int} (ha : IsInt a) (hb : IsInt b) (o : Outcome) (d : Tables) :
    ∃ d', (FriendCall.insertFriend a b).exec E.db o d = ((), d') ∧ d'.requests = d.requests ∧ d'.users = d.users ∧
      ∀ k, k ∈ d'.friends ↔ k ∈ d.friends ∨ o.applied = true ∧ k = (a, b) := by
  refine ⟨_, exec_insertFriend hE.db a b d, ?_⟩
  cases o.applied with
  | false => simp
  | true => simp [Tables.mem_addFriend (k := (a, b)) _ ha hb]

theorem reaches_put (hd : d.users = w.db.users) (userid : Int) :
    Reaches (w.put d) userid os ↔ Reaches w userid os := by
  simp only [Reaches, Setting.put, hd]

theorem status_of_lookup {k : Int × Int} (h : (d.requests .friend).lookup k = (w.db.requests .friend).lookup k) :
    (d.requests .friend).status k = (w.db.requests .friend).status k := by
  rw [Requests.Table.status, h, Requests.Table.status]

section

variable {userid friendid : Int} {action : String} {w' : Setting}
  (hp : (w.db.requests .friend).status (userid, friendid) = some (some .pending))

include hp

theorem allOrNothing_accepted (hs : (w'.db.requests .friend).status (userid, friendid) = some (some .accepted)) :
    AllOrNothing userid friendid action w w' ↔ action = "accept" ∧ (userid, friendid) ∈ w'.db.friends ∧
      (friendid, userid) ∈ w'.db.friends ∧ Told w w' userid acceptFriendResponse.dump := by
  constructor
  · rintro (⟨hl, -⟩ | ⟨hc, -, h⟩ | ⟨-, hj, -⟩)
    · rw [status_of_lookup hl, hp] at hs
      cases hs
    · exact ⟨hc, h⟩
    · rw [hs] at hj
      cases hj
  · rintro ⟨hc, h⟩
    exact Or.inr (Or.inl ⟨hc, hs, h⟩)

theorem allOrNothing_rejected (hs : (w'.db.requests .friend).status (userid, friendid) = some (some .rejected)) :
    AllOrNothing userid friendid action w w' ↔ action ≠ "accept" ∧ Told w w' userid rejectFriendResponse.dump := by
  constructor
  · rintro (⟨hl, -⟩ | ⟨-, hj, -⟩ | ⟨hc, -, h⟩)
    · rw [status_of_lookup hl, hp] at hs
      cases hs
    · rw [hs] at hj
      cases hj
    · exact ⟨hc, h⟩
  · rintro ⟨hc, h⟩
    exact Or.inr (Or.inr ⟨hc, hs, h⟩)

theorem allOrNothing_pending (hr : w'.db.requests .friend = w.db.requests .friend)
    (hf : w'.db.friends = w.db.friends) : AllOrNothing userid friendid action w w' ↔
      ¬ Told w w' userid acceptFriendResponse.dump ∧ ¬ Told w w' userid rejectFriendResponse.dump := by
  constructor
  · rintro (⟨-, -, h⟩ | ⟨-, hs, -⟩ | ⟨-, hs, -⟩)
    · exact h
    · rw [hr, hp] at hs
      cases hs
    · rw [hr, hp] at hs
      cases hs
  · exact fun h => Or.inl ⟨by rw [hr], hf, h⟩

end

theorem update_cases (hE : E.Rules same) {userid friendid : Int} (s : Status) (text : String) (hs : text = s.text) (o : Outcome)
    (hp : (d.requests .friend).status (userid, friendid) = some (some .pending)) :
    ∃ d', (FriendCall.updateRequestStatus userid friendid text).exec E.db o d = (o.succeeds, d') ∧
      d'.friends = d.friends ∧ d'.users = d.users ∧
      (if o.applied then (d'.requests .friend).status (userid, friendid) = some (some s)
        else d'.requests .friend = d.requests .friend) := by
  refine ⟨_, exec_updateRequestStatus hE.db userid friendid hs d, ?_⟩
  cases o.applied with
  | false => exact ⟨rfl, rfl, rfl⟩
  | true =>
    refine ⟨rfl, rfl, ?_⟩
    have hk : (d.requests .friend).status (userid, friendid) ≠ none := by
      rw [hp]
      nofun
    rw [if_pos rfl, if_pos rfl, Tables.setRequests_self]
    exact Requests.Table.status_setStatus_self hk

section

variable (hE : E.Rules same) {userid friendid : Int} (hu : IsInt userid) (hv : IsInt friendid)

include hE hu hv

theorem befriend_iff (hp : (w.db.requests .friend).status (userid, friendid) = some (some .pending))
    (hd : (d.requests .friend).status (userid, friendid) = some (some .accepted)) (hf : d.friends = w.db.friends)
    (hus : d.users = w.db.users) :
    AllOrNothing userid friendid "accept" w ((befriend userid friendid).run (Call.exec E) os (w.put d)).2 ↔
      Entered w userid friendid os ∧ Reaches w userid (fun n => os (n + 2)) := by
  obtain ⟨d₁, h₁, hr₁, hu₁, hm₁⟩ := insertFriend_cases hE hu hv (os 0) d
  obtain ⟨d₂, h₂, hr₂, hu₂, hm₂⟩ := insertFriend_cases hE hv hu (os (0 + 1)) d₁
  have hst : (d₂.requests .friend).status (userid, friendid) = some (some .accepted) := by rw [hr₂, hr₁, hd]
  have hmem (k : Int × Int) : k ∈ d₂.friends ↔ k ∈ w.db.friends ∨
      (os 0).applied = true ∧ k = (userid, friendid) ∨ (os 1).applied = true ∧ k = (friendid, userid) := by
    rw [hm₂, hm₁, hf, or_assoc]
  have ht := told_deliver hE hu responses_storable.1.1 responses_storable.1.2 (w.put d₂)
    (fun n => os (n + 2)) acceptFriendResponse.dump
  have hdb := run_deliverMessage E userid acceptFriendResponse.dump (fun n => os (n + 2)) (w.put d₂)
  have hrun : (befriend userid friendid).run (Call.exec E) os (w.put d) =
      (deliverMessage userid acceptFriendResponse.dump).run (Call.exec E) (fun n => os (n + 2)) (w.put d₂) :=
    (show _ = Program.run (Call.exec E) (.call (.friend (.insertFriend friendid userid)) fun _ =>
      deliverMessage userid acceptFriendResponse.dump) (fun n => os (n + 1)) (w.put d₁) from
      run_friend (w := w.put d) h₁).trans (run_friend h₂)
  rw [hrun, allOrNothing_accepted hp (by rw [hdb]; exact hst), hdb]
  have hreach : Told w ((deliverMessage userid acceptFriendResponse.dump).run (Call.exec E) (fun n => os (n + 2))
      (w.put d₂)).2 userid acceptFriendResponse.dump ↔ Reaches w userid fun n => os (n + 2) :=
    ht.trans ((and_iff_right rfl).trans (reaches_put (hu₂.trans (hu₁.trans hus)) userid))
  rw [hreach, Entered, List.forall_mem_cons, List.forall_mem_singleton, ← hmem, ← hmem]
  exact ⟨fun h => ⟨⟨h.2.1, h.2.2.1⟩, h.2.2.2⟩, fun h => ⟨rfl, h.1.1, h.1.2, h.2⟩⟩

theorem acceptFriend_iff (hp : (w.db.requests .friend).status (userid, friendid) = some (some .pending))
    (hd : d.requests .friend = w.db.requests .friend) (hf : d.friends = w.db.friends) (hus : d.users = w.db.users) :
    AllOrNothing userid friendid "accept" w ((acceptFriend userid friendid).run (Call.exec E) os (w.put d)).2 ↔
      ((os 0).applied = true → (os 0).succeeds = true ∧ Entered w userid friendid (fun n => os (n + 1)) ∧
        Reaches w userid (fun n => os (n + 3))) := by
  obtain ⟨d', h, hf', hus', hd'⟩ := update_cases hE .accepted "accepted" rfl (os 0) (hd ▸ hp)
  rw [acceptFriend, run_friend (w := w.put d) h]
  cases hs : (os 0).succeeds with
  | true =>
    have ha := Outcome.applied_of_ok hs
    rw [if_pos ha] at hd'
    rw [imp_iff_right ha, and_iff_right rfl]
    exact befriend_iff hE hu hv hp hd' (hf'.trans hf) (hus'.trans hus)
  | false =>
    have ht (text : String) : ¬ Told w (w.put d') userid text := not_told_self userid text
    cases ha : (os 0).applied with
    | false =>
      rw [if_neg (by rw [ha]; exact Bool.false_ne_true)] at hd'
      exact iff_of_true ((allOrNothing_pending hp (hd'.trans hd) (hf'.trans hf)).mpr ⟨ht _, ht _⟩)
        fun h => absurd h Bool.false_ne_true
    | true =>
      rw [if_pos ha] at hd'
      exact iff_of_false (fun hall => ht _ ((allOrNothing_accepted hp hd').mp hall).2.2.2)
        fun hall => Bool.false_ne_true (hall rfl).1

omit hv in
theorem rejectFriend_iff {action : String} (hc : action ≠ "accept")
    (hp : (w.db.requests .friend).status (userid, friendid) = some (some .pending))
    (hd : d.requests .friend = w.db.requests .friend) (hf : d.friends = w.db.friends) (hus : d.users = w.db.users) :
    AllOrNothing userid friendid action w ((rejectFriend userid friendid).run (Call.exec E) os (w.put d)).2 ↔
      ((os 0).applied = true ↔ Reaches w userid (fun n => os (n + 1))) := by
  obtain ⟨d', h, hf', hus', hd'⟩ := update_cases hE .rejected "rejected" rfl (os 0) (hd ▸ hp)
  have hrun : (rejectFriend userid friendid).run (Call.exec E) os (w.put d) =
      (deliverMessage userid rejectFriendResponse.dump).run (Call.exec E) (fun n => os (n + 1)) (w.put d') :=
    run_friend (w := w.put d) h
  rw [hrun]
  have ht := told_deliver hE hu responses_storable.2.1.1 responses_storable.2.1.2 (w.put d')
    (fun n => os (n + 1))
  have hdb := run_deliverMessage E userid rejectFriendResponse.dump (fun n => os (n + 1)) (w.put d')
  have htold (text : String) : Told w ((deliverMessage userid rejectFriendResponse.dump).run (Call.exec E)
      (fun n => os (n + 1)) (w.put d')).2 userid text ↔
        text = rejectFriendResponse.dump ∧ Reaches w userid fun n => os (n + 1) :=
    (ht text).trans (and_congr_right fun _ => reaches_put (hus'.trans hus) userid)
  cases ha : (os 0).applied with
  | true =>
    rw [if_pos ha] at hd'
    rw [allOrNothing_rejected hp (by rw [hdb]; exact hd'), htold, and_iff_right hc, and_iff_right rfl, eq_self,
      true_iff]
  | false =>
    rw [if_neg (by rw [ha]; exact Bool.false_ne_true)] at hd'
    rw [allOrNothing_pending hp (by rw [hdb]; exact hd'.trans hd) (by rw [hdb]; exact hf'.trans hf), htold, htold,
      and_iff_right rfl]
    exact ⟨fun h => iff_of_false Bool.false_ne_true h.2, fun h => ⟨fun ht => responses_storable.2.2 ht.1, 
      fun hr => absurd (h.mpr hr) Bool.false_ne_true⟩⟩

/-- An answer is all or nothing exactly when the failures are harmless. -/
theorem answerFriend_iff (action : String) :
    AllOrNothing userid friendid action w ((answerFriend userid friendid action).run (Call.exec E) os w).2 ↔
      Harmless userid friendid action w os := by
  have h₀ := exec_isPendingRequest (o := os 0) hE.db userid friendid w.db
  have hfail (type : EnMsgType) (errno : Int) (errmsg : String) : AllOrNothing userid friendid action w
      (Program.run (Call.exec E) (answer type errno errmsg) (fun n => os (n + 1)) (w.put (w.db.tick (os 0).now))).2 :=
    Or.inl ⟨rfl, rfl, not_told_self userid _, not_told_self userid _⟩
  rw [answerFriend, run_friend h₀, Harmless]
  cases hs : (os 0).succeeds with
  | false => exact iff_of_true (hfail _ _ _) fun h => absurd h Bool.false_ne_true
  | true =>
    rw [if_pos rfl]
    by_cases hp : (w.db.requests .friend).status (userid, friendid) = some (some .pending)
    · rw [decide_eq_true hp, imp_iff_right rfl, imp_iff_right hp]
      by_cases hc : action = "accept"
      · subst hc
        rw [if_pos rfl, if_pos rfl]
        exact acceptFriend_iff hE hu hv hp rfl rfl rfl
      · rw [if_neg hc, if_neg hc]
        exact rejectFriend_iff hE hu hc hp rfl rfl rfl
    · rw [decide_eq_false hp]
      exact iff_of_true (hfail _ _ _) fun _ h => absurd h hp

end

/-- The handler of an answer to a friend request is all or nothing exactly when
the failures of its calls are harmless. -/
theorem addFriendHandle_all_or_nothing (hE : E.Rules same) {js : Json} {userid friendid : Int} {action : String}
    (hu : (js.get? "userid").bind Json.toInt? = some userid)
    (hv : (js.get? "friendid").bind Json.toInt? = some friendid)
    (ha : (js.get? "action").bind Json.toStr? = some action) (w : Setting) (os : Nat → Outcome) :
    AllOrNothing userid friendid action w ((addFriendHandle js).run (Call.exec E) os w).2 ↔
      Harmless userid friendid action w os := by
  have h : addFriendHandle js = answerFriend userid friendid action := by rw [addFriendHandle, hu, hv, ha]
  rw [h]
  exact answerFriend_iff hE (isInt_of_field hu) (isInt_of_field hv) action

/-- An accepted request without friends stays so whatever `addFriend` is asked. -/
theorem addFriend_stuck (hE : E.Rules same) {js : Json} {userid friendid : Int}
    (hu : (js.get? "userid").bind Json.toInt? = some userid)
    (hv : (js.get? "friendid").bind Json.toInt? = some friendid)
    (hs : (w.db.requests .friend).status (userid, friendid) = some (some .accepted))
    (hf : (userid, friendid) ∉ w.db.friends) (os : Nat → Outcome) :
    ((addFriend js).run (Call.exec E) os w).2.db.requests = w.db.requests ∧
      ((addFriend js).run (Call.exec E) os w).2.db.friends = w.db.friends := by
  have h₀ := exec_isUserExist (o := os 0) hE.db friendid w.db
  have h₁ := exec_isFriend (o := os (0 + 1)) hE.db userid friendid (w.db.tick (os 0).now)
  have h₂ := exec_queryRequestStatus (o := os (0 + 1 + 1)) hE.db userid friendid
    ((w.db.tick (os 0).now).tick (os (0 + 1)).now)
  rw [Tables.tick_friends, decide_eq_false hf, Bool.and_false] at h₁
  rw [addFriend, hu, hv]
  dsimp only
  split
  · exact ⟨rfl, rfl⟩
  · rw [run_friend h₀]
    cases (os 0).succeeds && w.db.users.rows.any fun r => r.id = friendid with
    | false => exact ⟨rfl, rfl⟩
    | true =>
      rw [Bool.not_true, if_neg Bool.false_ne_true, run_friend h₁, if_neg Bool.false_ne_true, run_friend h₂]
      cases (os (0 + 1 + 1)).succeeds with
      | false => exact ⟨rfl, rfl⟩
      | true =>
        obtain ⟨⟨status, handledAt⟩, hl, rfl⟩ := Option.map_eq_some_iff.mp hs
        rw [if_pos rfl, Tables.tick_requests, Tables.tick_requests, hl]
        exact ⟨rfl, rfl⟩

open Friendship.Persons

def asked : Setting :=
  { db := { users := accounts, requests := fun _ => (∅ : Requests.Table).insert (1, 2) ⟨some .pending, none⟩ }
    connections := fun _ => true }

def unfriended (n : Nat) : Outcome := { arrives := n ≠ 2 && n ≠ 3 }

theorem addFriendHandle_all_or_nothing_asked :
    AllOrNothing 1 2 "accept" asked ((addFriendHandle (reply 1 2 "accept")).run (Call.exec engines) (fun _ => {}) asked).2 := by
  refine (addFriendHandle_all_or_nothing engines_rules (by decide) (by decide) (by decide) asked _).mpr ?_
  exact fun _ _ _ => ⟨rfl, by decide, Or.inl rfl⟩

theorem addFriendHandle_half_done : ¬ ∀ (same : String → String → Bool) (E : Engines), E.Rules same →
    ∀ (js : Json) (userid friendid : Int) (action : String), (js.get? "userid").bind Json.toInt? = some userid →
    (js.get? "friendid").bind Json.toInt? = some friendid → (js.get? "action").bind Json.toStr? = some action →
    ∀ (w : Setting) (os : Nat → Outcome),
      AllOrNothing userid friendid action w ((addFriendHandle js).run (Call.exec E) os w).2 := by
  intro h
  have hall := h _ engines engines_rules (reply 1 2 "accept") 1 2 "accept" (by decide) (by decide) (by decide) asked unfriended
  have hh : Harmless 1 2 "accept" asked unfriended := (answerFriend_iff engines_rules (by decide) (by decide) "accept").mp hall
  obtain ⟨-, he, -⟩ := hh (by decide) (by decide) (by decide)
  exact absurd he (by decide)

end BridgeIM.Server.Answering
