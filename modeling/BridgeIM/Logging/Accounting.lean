import BridgeIM.Logging.Logger
import Mathlib.Algebra.GroupWithZero.Nat
import Mathlib.Data.List.Induction

namespace BridgeIM.Logging.Accounting

open Lib

/-- The message that the consumer has popped and not yet written. -/
def inHand : Place → List String
  | .pop | .left => []
  | .loadEpoch msg | .lockConfig msg _ | .copyDir msg _ | .copyName msg _ | .copyTag msg _ | .count msg | .note msg _
  | .write msg => [msg]

/-- The consumer has the look at the counter before it that belongs to its
message. -/
def looks : Place → Bool
  | .loadEpoch _ | .lockConfig .. | .copyDir .. | .copyName .. | .copyTag .. | .count _ => true
  | _ => false

/-- The drops that the consumer has seen. -/
def seen (s : Consumer) : Nat :=
  match s.place with
  | .note _ dropped => dropped
  | _ => s.reportedDropped

def messages (lines : List Line) : List String :=
  lines.filterMap fun
    | .message msg => some msg
    | .note _ => none

def notes (lines : List Line) : List Nat :=
  lines.filterMap fun
    | .note dropped => some dropped
    | .message _ => none

/-- Every accepted message is written, in hand, queued or dropped, and a drop
that the consumer has not seen leaves something for it to pop. -/
structure Books (s : Logger) : Prop where
  order : (messages s.consumer.lines ++ inHand s.consumer.place ++ s.lockQueue.queue).Sublist s.accepted
  count : (messages s.consumer.lines).length + (inHand s.consumer.place).length + s.lockQueue.queue.length +
    s.lockQueue.dropped = s.accepted.length
  reported : (notes s.consumer.lines).sum = s.consumer.reportedDropped
  shown : s.consumer.reportedDropped ≤ seen s.consumer
  known : seen s.consumer ≤ s.lockQueue.dropped
  due : seen s.consumer < s.lockQueue.dropped → looks s.consumer.place = false → s.lockQueue.queue ≠ []
  left : s.consumer.place = .left → s.lockQueue.stop = true ∧ s.lockQueue.queue = []

variable {s s' : Logger}

theorem caller_cases {i : Nat} {sys : System} (h : s.caller i sys = some s') :
    s'.consumer = s.consumer ∧
      (s'.lockQueue = s.lockQueue ∧ s'.accepted = s.accepted ∨
      (∃ msg, s'.lockQueue = s.lockQueue.push msg ∧
        s'.accepted = if s.lockQueue.stop then s.accepted else s.accepted ++ [msg]) ∨
      (∃ capacity, s'.lockQueue = s.lockQueue.setCapacity capacity ∧ s'.accepted = s.accepted) ∨
      s'.lockQueue = s.lockQueue.stopped ∧ s'.accepted = s.accepted) := by
  unfold Logger.caller at h
  split at h
  case h_2 msg _ =>
    cases h
    exact ⟨rfl, Or.inr (Or.inl ⟨msg, rfl, rfl⟩)⟩
  case h_9 c _ =>
    cases h
    exact ⟨rfl, Or.inr (Or.inr (Or.inl ⟨sys.capacity, rfl, rfl⟩))⟩
  case h_12 _ =>
    cases h
    exact ⟨rfl, Or.inr (Or.inr (Or.inr ⟨rfl, rfl⟩))⟩
  all_goals
    try unfold Logger.checked at h
    repeat' split at h
    all_goals
      cases h
      try exact ⟨rfl, Or.inl ⟨rfl, rfl⟩⟩

/-- A caller drops the oldest messages of the queue and appends accepted ones. -/
theorem Books.feed (h : Books s) (hc : s'.consumer = s.consumer) (gone : List String) {rest : List String} (news : List String)
    (hq : s.lockQueue.queue = gone ++ rest) (hq' : s'.lockQueue.queue = rest ++ news)
    (hd : s'.lockQueue.dropped = s.lockQueue.dropped + gone.length) (ha : s'.accepted = s.accepted ++ news)
    (hn : gone ≠ [] → s'.lockQueue.queue ≠ [])
    (hs : s.lockQueue.stop = true → s'.lockQueue.stop = true ∧ news = []) : Books s' := by
  refine ⟨?_, ?_, ?_, ?_, ?_, ?_, ?_⟩
  · have ho := h.order
    rw [hq] at ho
    rw [hc, hq', ha, ← List.append_assoc]
    refine (List.Sublist.trans ?_ ho).append (List.Sublist.refl news)
    exact List.Sublist.append (List.Sublist.refl _) (List.sublist_append_right gone rest)
  · have hl := h.count
    rw [hq] at hl
    rw [hc, hq', hd, ha]
    simp only [List.length_append] at hl ⊢
    omega
  · rw [hc]
    exact h.reported
  · rw [hc]
    exact h.shown
  · rw [hc, hd]
    exact Nat.le_trans h.known (Nat.le_add_right _ _)
  · intro hlt hlook
    rw [hc] at hlt hlook
    by_cases hg : gone = []
    · subst hg
      rw [hd] at hlt
      have hr := h.due hlt hlook
      rw [hq, List.nil_append] at hr
      rw [hq']
      exact List.append_ne_nil_of_left_ne_nil hr news
    · exact hn hg
  · intro hp
    rw [hc] at hp
    obtain ⟨hst, hnil⟩ := h.left hp
    obtain ⟨hst', rfl⟩ := hs hst
    obtain ⟨-, rfl⟩ := List.append_eq_nil_iff.mp (hq.symm.trans hnil)
    exact ⟨hst', hq'⟩

theorem books_caller (h : Books s) {i : Nat} {sys : System} (hs : s.caller i sys = some s') : Books s' := by
  obtain ⟨hc, ⟨hq, ha⟩ | ⟨msg, hq, ha⟩ | ⟨capacity, hq, ha⟩ | ⟨hq, ha⟩⟩ := caller_cases hs
  · exact h.feed hc [] [] rfl (by simp [hq]) (by simp [hq]) (by simp [ha]) (fun hn => absurd rfl hn)
      fun hst => ⟨hq ▸ hst, rfl⟩
  · cases hst : s.lockQueue.stop with
    | true =>
      rw [LockQueue.push_of_stop hst] at hq
      rw [if_pos hst] at ha
      exact h.feed hc [] [] rfl (by simp [hq]) (by simp [hq]) (by simp [ha])
        (fun hn => absurd rfl hn) fun hst => ⟨hq ▸ hst, rfl⟩
    | false =>
      obtain ⟨gone, rest, hg, hq', hd, -⟩ := LockQueue.push_of_running hst msg
      rw [← hq] at hq' hd
      rw [if_neg (by simp [hst])] at ha
      exact h.feed hc gone [msg] hg hq' hd ha (fun _ => by rw [hq]; exact LockQueue.push_queue_ne_nil hst msg)
        fun ht => Bool.noConfusion (hst.symm.trans ht)
  · obtain ⟨gone, hg, hd, hn⟩ := LockQueue.setCapacity_spec capacity s.lockQueue
    rw [← hq] at hg hd hn
    exact h.feed hc gone [] hg (List.append_nil _).symm hd (by simp [ha]) hn fun hst =>
      ⟨by rw [hq, LockQueue.setCapacity_stop, hst], rfl⟩
  · exact h.feed hc [] [] rfl (by simp [hq]) (by simp [hq]) (by simp [ha]) (fun hn => absurd rfl hn)
      fun _ => ⟨by rw [hq]; rfl, rfl⟩

theorem Books.refresh (h : Books s) (hq : s'.lockQueue = s.lockQueue) (ha : s'.accepted = s.accepted)
    (hr : s'.consumer.reportedDropped = s.consumer.reportedDropped) (hl : s'.consumer.lines = s.consumer.lines)
    (hm : inHand s'.consumer.place = inHand s.consumer.place) (hp : looks s.consumer.place = true)
    (hp' : looks s'.consumer.place = true) : Books s' := by
  have hs : seen s.consumer = s.consumer.reportedDropped := by
    unfold seen
    split
    · simp_all [looks]
    · rfl
  have hs' : seen s'.consumer = s'.consumer.reportedDropped := by
    unfold seen
    split
    · simp_all [looks]
    · rfl
  refine ⟨?_, ?_, ?_, Nat.le_of_eq hs'.symm, ?_, fun _ hn => Bool.noConfusion (hn.symm.trans hp'), fun he => ?_⟩
  · rw [hl, hm, hq, ha]
    exact h.order
  · rw [hl, hm, hq, ha]
    exact h.count
  · rw [hl, hr]
    exact h.reported
  · rw [hs', hr, hq, ← hs]
    exact h.known
  · rw [he] at hp'
    cases hp'

theorem messages_message (lines : List Line) (msg : String) :
    messages (lines ++ [.message msg]) = messages lines ++ [msg] := by
  simp [messages]

theorem messages_note (lines : List Line) (dropped : Nat) : messages (lines ++ [.note dropped]) = messages lines := by
  simp [messages]

theorem notes_message (lines : List Line) (msg : String) : notes (lines ++ [.message msg]) = notes lines := by
  simp [notes]

theorem notes_note (lines : List Line) (dropped : Nat) : notes (lines ++ [.note dropped]) = notes lines ++ [dropped] := by
  simp [notes]

theorem books_consume (h : Books s) (hs : s.consume = some s') : Books s' := by
  unfold Logger.consume at hs
  split at hs
  case h_1 hp =>
    have hseen : seen s.consumer = s.consumer.reportedDropped := by rw [seen, hp]
    have hd := h.due
    have hk := h.known
    rw [hseen] at hd hk
    split at hs
    · rename_i msg q hq
      obtain ⟨m, rest, hl, hm, rfl⟩ | ⟨_, _, hm, _⟩ := LockQueue.pop_cases hq
      · cases hm
        cases hs
        have ho := h.order
        have hc := h.count
        rw [hp, hl] at ho hc
        refine ⟨?_, ?_, h.reported, Nat.le_refl _, hk, fun _ hn => Bool.noConfusion hn, Place.noConfusion⟩
        · simpa [Logger.goto, inHand] using ho
        · simp only [Logger.goto, inHand, List.length_cons, List.length_nil] at hc ⊢
          omega
      · cases hm
    · rename_i q hq
      obtain ⟨_, _, _, hm, _⟩ | ⟨hl, hst, _, rfl⟩ := LockQueue.pop_cases hq
      · cases hm
      · cases hs
        have ho := h.order
        have hc := h.count
        rw [hp] at ho hc
        exact ⟨ho, hc, h.reported, Nat.le_refl _, hk, fun hlt _ => hd hlt (by rw [hp]; rfl), fun _ => ⟨hst, hl⟩⟩
    · cases hs
  case h_2 msg hp =>
    cases hs
    refine h.refresh rfl rfl rfl rfl ?_ ?_ ?_
    all_goals grind [Logger.goto, inHand, looks]
  case h_3 msg epoch hp =>
    obtain ⟨_, hs⟩ := Option.ite_none_left_eq_some.mp hs
    cases hs
    refine h.refresh rfl rfl rfl rfl ?_ ?_ ?_
    all_goals grind [Logger.goto, inHand, looks]
  case h_4 msg epoch hp | h_5 msg epoch hp | h_6 msg epoch hp =>
    cases hs
    refine h.refresh rfl rfl rfl rfl ?_ ?_ ?_
    all_goals grind [Logger.goto, inHand, looks]
  case h_7 msg hp =>
    have hseen : seen s.consumer = s.consumer.reportedDropped := by rw [seen, hp]
    have ho := h.order
    have hc := h.count
    have hk := h.known
    rw [hseen] at hk
    rw [hp] at ho hc
    cases hs
    by_cases hlt : s.consumer.reportedDropped < s.lockQueue.dropped
    · rw [if_pos hlt]
      exact ⟨ho, hc, h.reported, Nat.le_of_lt hlt, Nat.le_refl _, fun he => absurd he (Nat.lt_irrefl _),
        Place.noConfusion⟩
    · rw [if_neg hlt]
      exact ⟨ho, hc, h.reported, Nat.le_refl _, hk, fun he => absurd he hlt, Place.noConfusion⟩
  case h_8 msg dropped hp =>
    have hseen : seen s.consumer = dropped := by rw [seen, hp]
    have ho := h.order
    have hc := h.count
    have hsh := h.shown
    have hk := h.known
    have hd := h.due
    rw [hseen] at hsh hk hd
    rw [hp] at ho hc hd
    cases hs
    refine ⟨?_, ?_, ?_, Nat.le_refl _, hk, fun hlt _ => hd hlt rfl, Place.noConfusion⟩
    · rw [messages_note]
      exact ho
    · rw [messages_note]
      exact hc
    · rw [notes_note, List.sum_append, h.reported]
      simp only [List.sum_cons, List.sum_nil]
      omega
  case h_9 msg hp =>
    have hseen : seen s.consumer = s.consumer.reportedDropped := by rw [seen, hp]
    have ho := h.order
    have hc := h.count
    have hd := h.due
    have hk := h.known
    rw [hseen] at hk hd
    rw [hp] at ho hc hd
    cases hs
    refine ⟨?_, ?_, ?_, Nat.le_refl _, hk, fun hlt _ => hd hlt rfl, Place.noConfusion⟩
    · simpa [messages_message, inHand] using ho
    · simp only [messages_message, inHand, List.length_append, List.length_cons, List.length_nil] at hc ⊢
      omega
    · rw [notes_message]
      exact h.reported
  case h_10 hp => cases hs

theorem books_step (h : Books s) {a : Move} (hs : step s a = some s') : Books s' := by
  cases a with
  | log msg level | init c | shutdown =>
    cases hs
    exact ⟨h.order, h.count, h.reported, h.shown, h.known, h.due, h.left⟩
  | caller i sys => exact books_caller h hs
  | consume => exact books_consume h hs

theorem books_construct (capacity : Nat) : Books (Logger.construct capacity) :=
  ⟨List.Sublist.refl [], rfl, rfl, Nat.le_refl 0, Nat.le_refl 0, fun h => absurd h (Nat.lt_irrefl 0), Place.noConfusion⟩

structure Settled (s : Logger) : Prop where
  order : (messages s.consumer.lines).Sublist s.accepted
  count : (messages s.consumer.lines).length + s.lockQueue.dropped = s.accepted.length
  notes : (notes s.consumer.lines).sum = s.lockQueue.dropped

/-- In every run of the logger, a consumer that has left its loop has written or
reported every accepted message. -/
theorem log_accounted (capacity : Nat) (as : List Move) (s : Logger)
    (hr : logger.run (Logger.construct capacity) as = some s) (hl : s.consumer.place = .left) : Settled s := by
  have h : Books s := Machine.run_invariant (books_construct capacity) (fun _ _ _ hi _ hs => books_step hi hs)
    (Machine.meets_true _ as) hr
  obtain ⟨_, hq⟩ := h.left hl
  have hseen : seen s.consumer = s.consumer.reportedDropped := by rw [seen, hl]
  have ho := h.order
  have hc := h.count
  have hk := h.known
  have hd : ¬ seen s.consumer < s.lockQueue.dropped := fun hlt => h.due hlt (by rw [hl]; rfl) hq
  rw [hl, hq] at ho hc
  refine ⟨by simpa [inHand] using ho, by simpa [inHand] using hc, ?_⟩
  rw [h.reported, ← hseen]
  omega

def busy : List Move :=
  [.init ⟨"logs", "chatserver", ""⟩, .caller 0 {}, .caller 0 {}, .caller 0 {}, .caller 0 {}, .caller 0 {}, .caller 0 {},
    .caller 0 { capacity := 1 }, .caller 0 {}, .log "a" .INFO, .log "b" .INFO, .log "c" .ERROR, .caller 1 {}, .caller 1 {},
    .caller 2 {}, .caller 2 {}, .consume, .caller 3 {}, .caller 3 {}, .shutdown, .caller 4 {}, .caller 4 {}, .consume,
    .consume, .consume, .consume, .consume, .consume, .consume, .consume, .consume, .consume, .consume, .consume,
    .consume, .caller 4 {}]

theorem log_accounted_busy : ∃ s, logger.run (Logger.construct 10000) busy = some s ∧
    s.consumer.lines = [.note 1, .message "[INFO] => b\n", .message "[ERROR] => c\n"] ∧ Settled s := by
  have h : (logger.run (Logger.construct 10000) busy).map (fun s => (s.consumer.place, s.consumer.lines)) =
      some (.left, [.note 1, .message "[INFO] => b\n", .message "[ERROR] => c\n"]) := by decide +kernel
  obtain ⟨s, hs, he⟩ := Option.map_eq_some_iff.mp h
  obtain ⟨hp, hl⟩ := Prod.mk.inj he
  exact ⟨s, hs, hl, log_accounted 10000 busy s hs hp⟩

end BridgeIM.Logging.Accounting
