import BridgeIM.Lib.Slots
import BridgeIM.Logging.Logger

namespace BridgeIM.Logging.Refresh

open Lib

def written (c : Config) : Config :=
  ⟨c.logDir, if c.programName = "" then "log" else c.programName, c.instanceTag⟩

/-- The triple of the last of the locked writes, each with the call that made it. -/
def stored (ws : List (Nat × Config)) : Config := (ws.getLast?.map fun x => written x.2).getD ⟨".", "log", ""⟩

def wrote (s : Logger) : Move → Option (Nat × Config)
  | .caller i _ =>
    match s.callers[i]? with
    | some (.setTag c) => some (i, c)
    | _ => none
  | _ => none

def writes (capacity : Nat) (as : List Move) : List (Nat × Config) := logger.trace wrote (Logger.construct capacity) as

def effective (s : Logger) : Config :=
  if s.initialized then ⟨s.logDir, s.programName, s.instanceTag⟩ else ⟨".", "log", ""⟩

def cache (s : Logger) : Config := ⟨s.consumer.logDir, s.consumer.programName, s.consumer.instanceTag⟩

def inside : Caller → Nat
  | .setDir _ | .setName _ | .setTag _ => 1
  | _ => 0

/-- The caller has written a part of its triple. -/
def midway : Caller → Bool
  | .setName _ | .setTag _ => true
  | _ => false

def past : Caller → Option Config
  | .setCapacity c | .setEpoch c | .initReturned c true => some c
  | _ => none

def returned : Caller → Bool
  | .initReturned _ ok => ok
  | _ => false

def copying : Place → Nat
  | .copyDir .. | .copyName .. | .copyTag .. => 1
  | _ => 0

/-- The epoch that the consumer has loaded and not yet stored. -/
def loaded : Place → Option Nat
  | .lockConfig _ epoch | .copyDir _ epoch | .copyName _ epoch | .copyTag _ epoch => some epoch
  | _ => none

/-- The consumer has copied a part of the triple. -/
def torn : Place → Bool
  | .copyName .. | .copyTag .. => true
  | _ => false

def refreshing : Place → Bool
  | .loadEpoch _ | .lockConfig .. | .copyDir .. | .copyName .. | .copyTag .. => true
  | _ => false

def refreshed : Place → Bool
  | .count _ | .note .. | .write _ => true
  | _ => false

/-- The mutex is held by one party at most, and the fields hold the last triple
unless a caller has written a part of its own. -/
structure Guarded (ws : List (Nat × Config)) (s : Logger) : Prop where
  held : total inside s.callers + copying s.consumer.place = if s.configMutex then 1 else 0
  fields : (∀ x ∈ s.callers, midway x = false) → effective s = stored ws
  name : ∀ c, .setName c ∈ s.callers → s.logDir = c.logDir
  tag : ∀ c, .setTag c ∈ s.callers → s.logDir = c.logDir ∧ s.programName = (written c).programName
  past : ∀ i x c, s.callers[i]? = some x → past x = some c → (i, c) ∈ ws
  copiedDir : torn s.consumer.place = true → s.consumer.logDir = (stored ws).logDir
  copiedName : (∃ msg epoch, s.consumer.place = .copyTag msg epoch) → s.consumer.programName = (stored ws).programName

/-- The copy is the triple after some of the writes; with the present epoch it is
past the writes of all calls that have returned. -/
structure Current (ws : List (Nat × Config)) (s : Logger) : Prop where
  positive : 0 < s.configEpoch
  le : s.consumer.localEpoch ≤ s.configEpoch
  loaded : ∀ epoch, loaded s.consumer.place = some epoch → s.consumer.localEpoch < epoch ∧ epoch ≤ s.configEpoch
  refreshed : refreshed s.consumer.place = true → s.consumer.localEpoch ≠ 0
  copy : s.consumer.localEpoch ≠ 0 → torn s.consumer.place = false → ∃ ws', ws' <+: ws ∧ cache s = stored ws' ∧
    (s.consumer.localEpoch = s.configEpoch → ∀ i c, s.callers[i]? = some (.initReturned c true) → (i, c) ∈ ws')

variable {ws : List (Nat × Config)} {s s' : Logger} {i : Nat} {x y : Caller} {c : Config}

/-! What a step can do. -/

/-- A caller goes on without the mutex. -/
structure Quiet (x y : Caller) : Prop where
  before : inside x = 0
  after : inside y = 0
  whole : midway y = false
  past : past y = none ∨ past y = past x
  returned : returned y = false

theorem checked_cases {yes no : Caller} (h : s.checked i yes no = some s') :
    s' = s.setCaller i yes ∨ s' = s.setCaller i no := by
  obtain ⟨-, h⟩ := Option.ite_none_left_eq_some.mp h
  cases h
  cases s.isShutdown with
  | true => exact Or.inl rfl
  | false => exact Or.inr rfl

theorem caller_cases {sys : System} (h : s.caller i sys = some s') :
    (∃ x y q a l b, s.callers[i]? = some x ∧ Quiet x y ∧ s' = { s with
      lockQueue := q, accepted := a, lifecycleMutex := l, isShutdown := b }.setCaller i y) ∨
    (∃ c, s.callers[i]? = some (.lockConfig c) ∧ s.configMutex = false ∧
      s' = { s with configMutex := true }.setCaller i (.setDir c)) ∨
    (∃ c, s.callers[i]? = some (.setDir c) ∧ s' = { s with logDir := c.logDir }.setCaller i (.setName c)) ∨
    (∃ c, s.callers[i]? = some (.setName c) ∧
      s' = { s with programName := (written c).programName }.setCaller i (.setTag c)) ∨
    (∃ c, s.callers[i]? = some (.setTag c) ∧ s' = { s with
      instanceTag := c.instanceTag, initialized := true, configMutex := false }.setCaller i (.setCapacity c)) ∨
    (∃ c, s.callers[i]? = some (.setEpoch c) ∧
      s' = { s with configEpoch := s.configEpoch + 1 }.setCaller i (.initReturned c true)) := by
  have hquiet {x y : Caller} (hx : s.callers[i]? = some x) (hq : Quiet x y) (q a l b)
      (he : s' = { s with lockQueue := q, accepted := a, lifecycleMutex := l, isShutdown := b }.setCaller i y) :
      ∃ x y q a l b, s.callers[i]? = some x ∧ Quiet x y ∧ s' = { s with
        lockQueue := q, accepted := a, lifecycleMutex := l, isShutdown := b }.setCaller i y :=
    ⟨x, y, q, a, l, b, hx, hq, he⟩
  have hnone {x y : Caller} (hx : s.callers[i]? = some x) (hin : inside x = 0) (hout : inside y = 0)
      (hw : midway y = false) (hp : past y = none) (hr : returned y = false) (he : s' = s.setCaller i y) :=
    hquiet hx ⟨hin, hout, hw, Or.inl hp, hr⟩ _ _ _ _ he
  unfold Logger.caller at h
  split at h
  case h_1 msg level hx | h_3 c hx =>
    obtain he | he := checked_cases h
    · exact Or.inl (hnone hx rfl rfl rfl rfl rfl he)
    · exact Or.inl (hnone hx rfl rfl rfl rfl rfl he)
  case h_2 msg hx =>
    cases h
    exact Or.inl (hquiet hx ⟨rfl, rfl, rfl, Or.inl rfl, rfl⟩ _ _ _ _ rfl)
  case h_4 c hx =>
    split at h
    · cases h
      exact Or.inl (hnone hx rfl rfl rfl rfl rfl rfl)
    · cases h
      exact Or.inl (hnone hx rfl rfl rfl rfl rfl rfl)
  case h_5 c hx =>
    obtain ⟨hm, h⟩ := Option.ite_none_left_eq_some.mp h
    cases h
    exact Or.inr (Or.inl ⟨c, hx, Bool.eq_false_iff.mpr hm, rfl⟩)
  case h_6 c hx =>
    cases h
    exact Or.inr (Or.inr (Or.inl ⟨c, hx, rfl⟩))
  case h_7 c hx =>
    cases h
    exact Or.inr (Or.inr (Or.inr (Or.inl ⟨c, hx, rfl⟩)))
  case h_8 c hx =>
    cases h
    exact Or.inr (Or.inr (Or.inr (Or.inr (Or.inl ⟨c, hx, rfl⟩))))
  case h_9 c hx =>
    cases h
    exact Or.inl (hquiet (y := .setEpoch c) hx ⟨rfl, rfl, rfl, Or.inr rfl, rfl⟩ _ _ _ _ rfl)
  case h_10 c hx =>
    cases h
    exact Or.inr (Or.inr (Or.inr (Or.inr (Or.inr ⟨c, hx, rfl⟩))))
  case h_11 hx =>
    obtain ⟨-, h⟩ := Option.ite_none_left_eq_some.mp h
    split at h
    · cases h
      exact Or.inl (hnone hx rfl rfl rfl rfl rfl rfl)
    · cases h
      exact Or.inl (hquiet hx ⟨rfl, rfl, rfl, Or.inl rfl, rfl⟩ _ _ _ _ rfl)
  case h_12 hx =>
    cases h
    exact Or.inl (hquiet hx ⟨rfl, rfl, rfl, Or.inl rfl, rfl⟩ _ _ _ _ rfl)
  case h_13 hx =>
    obtain ⟨-, h⟩ := Option.ite_none_right_eq_some.mp h
    cases h
    exact Or.inl (hquiet hx ⟨rfl, rfl, rfl, Or.inl rfl, rfl⟩ _ _ _ _ rfl)
  all_goals cases h

/-- The consumer goes on outside a refresh, its epoch and its copy as they are. -/
structure Idle (p p' : Place) : Prop where
  outside : refreshing p = false
  before : copying p = 0
  after : copying p' = 0
  loaded : loaded p' = none
  whole : torn p = false
  whole' : torn p' = false
  refreshed : refreshed p' = true → refreshed p = true

theorem consume_cases (h : s.consume = some s') :
    (∃ p q r lines, Idle s.consumer.place p ∧ s' = { s with
      lockQueue := q, consumer := { s.consumer with place := p, reportedDropped := r, lines := lines } }) ∨
    (∃ msg, s.consumer.place = .loadEpoch msg ∧ s.configEpoch = s.consumer.localEpoch ∧ s' = s.goto (.count msg)) ∨
    (∃ msg, s.consumer.place = .loadEpoch msg ∧ s.configEpoch ≠ s.consumer.localEpoch ∧
      s' = s.goto (.lockConfig msg s.configEpoch)) ∨
    (∃ msg epoch, s.consumer.place = .lockConfig msg epoch ∧ s.configMutex = false ∧
      s' = { s with configMutex := true }.goto (.copyDir msg epoch)) ∨
    (∃ msg epoch, s.consumer.place = .copyDir msg epoch ∧
      s' = { s with consumer := { s.consumer with logDir := (effective s).logDir } }.goto (.copyName msg epoch)) ∨
    (∃ msg epoch, s.consumer.place = .copyName msg epoch ∧
      s' = { s with consumer := { s.consumer with programName := (effective s).programName } }.goto (.copyTag msg epoch)) ∨
    (∃ msg epoch, s.consumer.place = .copyTag msg epoch ∧ s' = { s with
      consumer := { s.consumer with instanceTag := (effective s).instanceTag, localEpoch := epoch },
      configMutex := false }.goto (.count msg)) := by
  have hidle {p : Place} (hp : Idle s.consumer.place p) (q r lines)
      (he : s' = { s with
        lockQueue := q, consumer := { s.consumer with place := p, reportedDropped := r, lines := lines } }) :
      ∃ p q r lines, Idle s.consumer.place p ∧ s' = { s with
        lockQueue := q, consumer := { s.consumer with place := p, reportedDropped := r, lines := lines } } :=
    ⟨p, q, r, lines, hp, he⟩
  have heff : (effective s).logDir = (if s.initialized then s.logDir else ".") ∧
      (effective s).programName = (if s.initialized then s.programName else "log") ∧
      (effective s).instanceTag = (if s.initialized then s.instanceTag else "") := by
    unfold effective
    cases s.initialized <;> exact ⟨rfl, rfl, rfl⟩
  obtain ⟨hdir, hname, htag⟩ := heff
  unfold Logger.consume at h
  split at h
  case h_1 hp =>
    split at h
    · cases h
      exact Or.inl (hidle (by rw [hp]; exact ⟨rfl, rfl, rfl, rfl, rfl, rfl, Bool.noConfusion⟩) _ _ _ rfl)
    · cases h
      exact Or.inl (hidle (by rw [hp]; exact ⟨rfl, rfl, rfl, rfl, rfl, rfl, Bool.noConfusion⟩) _ _ _ rfl)
    · cases h
  case h_2 msg hp =>
    split at h
    · rename_i he
      cases h
      exact Or.inr (Or.inl ⟨msg, hp, he, rfl⟩)
    · rename_i hn
      cases h
      exact Or.inr (Or.inr (Or.inl ⟨msg, hp, hn, rfl⟩))
  case h_3 msg epoch hp =>
    obtain ⟨hm, h⟩ := Option.ite_none_left_eq_some.mp h
    cases h
    exact Or.inr (Or.inr (Or.inr (Or.inl ⟨msg, epoch, hp, Bool.eq_false_iff.mpr hm, rfl⟩)))
  case h_4 msg epoch hp =>
    rw [← hdir] at h
    cases h
    exact Or.inr (Or.inr (Or.inr (Or.inr (Or.inl ⟨msg, epoch, hp, rfl⟩))))
  case h_5 msg epoch hp =>
    rw [← hname] at h
    cases h
    exact Or.inr (Or.inr (Or.inr (Or.inr (Or.inr (Or.inl ⟨msg, epoch, hp, rfl⟩)))))
  case h_6 msg epoch hp =>
    rw [← htag] at h
    cases h
    exact Or.inr (Or.inr (Or.inr (Or.inr (Or.inr (Or.inr ⟨msg, epoch, hp, rfl⟩)))))
  case h_7 msg hp =>
    split at h
    · cases h
      exact Or.inl (hidle (by rw [hp]; exact ⟨rfl, rfl, rfl, rfl, rfl, rfl, fun _ => rfl⟩) _ _ _ rfl)
    · cases h
      exact Or.inl (hidle (by rw [hp]; exact ⟨rfl, rfl, rfl, rfl, rfl, rfl, fun _ => rfl⟩) _ _ _ rfl)
  case h_8 msg dropped hp =>
    cases h
    exact Or.inl (hidle (by rw [hp]; exact ⟨rfl, rfl, rfl, rfl, rfl, rfl, fun _ => rfl⟩) _ _ _ rfl)
  case h_9 msg hp =>
    cases h
    exact Or.inl (hidle (by rw [hp]; exact ⟨rfl, rfl, rfl, rfl, rfl, rfl, Bool.noConfusion⟩) _ _ _ rfl)
  case h_10 hp => cases h

/-! The mutex and the fields. -/

theorem inside_of_midway (h : midway x = true) : inside x = 1 := by
  cases x with
  | setName c => rfl
  | setTag c => rfl
  | _ => cases h

theorem copying_of_torn {p : Place} (h : torn p = true) : copying p = 1 := by
  cases p with
  | copyName msg epoch => rfl
  | copyTag msg epoch => rfl
  | _ => cases h

theorem Guarded.alone (h : Guarded ws s) (hx : s.callers[i]? = some x) (hi : inside x = 1) :
    s.configMutex = true ∧ total inside s.callers = 1 ∧ copying s.consumer.place = 0 := by
  have hle : inside x ≤ total inside s.callers := le_total (List.mem_of_getElem? hx)
  have hh := h.held
  cases hm : s.configMutex with
  | true =>
    simp only [hm, if_true] at hh
    exact ⟨rfl, by omega, by omega⟩
  | false =>
    simp only [hm, Bool.false_eq_true, if_false] at hh
    omega

theorem Guarded.free (h : Guarded ws s) (hm : s.configMutex = false) :
    total inside s.callers = 0 ∧ copying s.consumer.place = 0 := by
  have hh := h.held
  simp only [hm, Bool.false_eq_true, if_false] at hh
  omega

theorem Guarded.copies (h : Guarded ws s) (hc : copying s.consumer.place = 1) :
    s.configMutex = true ∧ total inside s.callers = 0 ∧ effective s = stored ws := by
  have hh := h.held
  have ht : s.configMutex = true ∧ total inside s.callers = 0 := by
    cases hm : s.configMutex with
    | true =>
      simp only [hm, if_true] at hh
      exact ⟨rfl, by omega⟩
    | false =>
      simp only [hm, Bool.false_eq_true, if_false] at hh
      omega
  refine ⟨ht.1, ht.2, h.fields fun z hz => ?_⟩
  rw [Bool.eq_false_iff]
  intro hmid
  have hle : inside z ≤ total inside s.callers := le_total hz
  have h1 := inside_of_midway hmid
  omega

theorem midway_of_set (hx : s.callers[i]? = some x) (h0 : midway x = false)
    (h : ∀ z ∈ s.callers.set i y, midway z = false) : ∀ z ∈ s.callers, midway z = false := by
  intro z hz
  have hset : z = x ∨ z ∈ s.callers.set i y := mem_set_of_mem hx hz
  obtain rfl | hz := hset
  · exact h0
  · exact h z hz

theorem midway_of_inside (h : inside x = 0) : midway x = false := by
  rw [Bool.eq_false_iff]
  intro hm
  have h1 := inside_of_midway hm
  omega

theorem past_of_set {ws' : List (Nat × Config)} (h : Guarded ws s) (hw : ws <+: ws')
    (hy : ∀ c, past y = some c → (i, c) ∈ ws') (j : Nat) (z : Caller) (c : Config) (hz : (s.callers.set i y)[j]? = some z)
    (hp : past z = some c) : (j, c) ∈ ws' := by
  obtain ⟨rfl, rfl⟩ | ⟨-, hz⟩ := getElem?_of_set hz
  · exact hy c hp
  · exact hw.subset (h.past j z c hz hp)

theorem Guarded.setCaller (h : Guarded ws s) (hx : s.callers[i]? = some x) (h0 : inside x = 0) (h1 : inside y = 0)
    (hy : ∀ c, Refresh.past y = some c → (i, c) ∈ ws) (hc : s'.callers = s.callers.set i y) (hp : s'.consumer = s.consumer)
    (hm : s'.configMutex = s.configMutex) (hd : s'.logDir = s.logDir) (hn : s'.programName = s.programName)
    (he : effective s' = effective s) : Guarded ws s' := by
  have hmem : ∀ z ∈ s'.callers, midway z = true → z ∈ s.callers := by
    intro z hz hmid
    rw [hc] at hz
    obtain hz | rfl := List.mem_or_eq_of_mem_set hz
    · exact hz
    · rw [midway_of_inside h1] at hmid
      cases hmid
  refine ⟨?_, ?_, fun c hz => ?_, fun c hz => ?_, ?_, ?_, ?_⟩
  · rw [hc, hp, hm, total_set_eq hx (h1.trans h0.symm)]
    exact h.held
  · rw [hc, he]
    exact fun hz => h.fields (midway_of_set hx (midway_of_inside h0) hz)
  · rw [hd]
    exact h.name c (hmem _ hz rfl)
  · rw [hd, hn]
    exact h.tag c (hmem _ hz rfl)
  · rw [hc]
    exact past_of_set h (List.prefix_refl ws) hy
  · rw [hp]
    exact h.copiedDir
  · rw [hp]
    exact h.copiedName

theorem Guarded.inner {ws' : List (Nat × Config)} (h : Guarded ws s) (hx : s.callers[i]? = some x)
    (ht : total inside s.callers = inside x) (hp : copying s'.consumer.place = 0) (hc : s'.callers = s.callers.set i y)
    (hm : inside y = if s'.configMutex then 1 else 0) (hf : midway y = false → effective s' = stored ws')
    (hn : ∀ c, y = .setName c → s'.logDir = c.logDir)
    (hg : ∀ c, y = .setTag c → s'.logDir = c.logDir ∧ s'.programName = (written c).programName)
    (hw : ws <+: ws') (hy : ∀ c, Refresh.past y = some c → (i, c) ∈ ws') : Guarded ws' s' := by
  have hmem : y ∈ s'.callers := by
    rw [hc]
    exact List.mem_set (List.getElem?_eq_some_iff.mp hx).1 y
  have hone : ∀ z ∈ s'.callers, midway z = true → z = y := by
    intro z hz hmid
    rw [hc] at hz
    refine (eq_or_zero_of_mem_set hx ht hz).resolve_right fun h0 => ?_
    rw [midway_of_inside h0] at hmid
    cases hmid
  have htorn : torn s'.consumer.place = false := by
    rw [Bool.eq_false_iff]
    intro htorn
    have h1 := copying_of_torn htorn
    omega
  refine ⟨?_, fun hz => hf (hz y hmem), fun c hz => hn c (hone _ hz rfl).symm, fun c hz => hg c (hone _ hz rfl).symm, ?_,
    fun he => ?_, ?_⟩
  · have hset := total_set (f := inside) hx y
    rw [← hm, hc, hp]
    omega
  · rw [hc]
    exact past_of_set h hw hy
  · rw [htorn] at he
    cases he
  · rintro ⟨msg, epoch, he⟩
    rw [he] at htorn
    cases htorn

theorem append_wrote {sys : System} (hx : s.callers[i]? = some x) (h : ∀ c, x ≠ .setTag c) :
    ws ++ (wrote s (.caller i sys)).toList = ws := by
  have hw : wrote s (.caller i sys) = none := by
    simp only [wrote, hx]
    split
    · rename_i c he
      exact absurd (Option.some.inj he) (h c)
    · rfl
  rw [hw, Option.toList_none, List.append_nil]

theorem stored_concat (ws : List (Nat × Config)) (i : Nat) (c : Config) : stored (ws ++ [(i, c)]) = written c := by
  rw [stored, List.getLast?_append]
  rfl

theorem guarded_caller {sys : System} (h : Guarded ws s) (hs : s.caller i sys = some s') :
    Guarded (ws ++ (wrote s (.caller i sys)).toList) s' := by
  obtain ⟨x, y, q, a, l, b, hx, hq, rfl⟩ | ⟨c, hx, hm, rfl⟩ | ⟨c, hx, rfl⟩ | ⟨c, hx, rfl⟩ | ⟨c, hx, rfl⟩ | ⟨c, hx, rfl⟩ :=
    caller_cases hs
  · have hw : ws ++ (wrote s (.caller i sys)).toList = ws := append_wrote hx fun c he => by
      have h0 := hq.before
      rw [he] at h0
      cases h0
    rw [hw]
    refine h.setCaller hx hq.before hq.after (fun c hy => ?_) rfl rfl rfl rfl rfl rfl
    obtain hn | he := hq.past
    · rw [hn] at hy
      cases hy
    · exact h.past i x c hx (he ▸ hy)
  · obtain ⟨ht, hp⟩ := h.free hm
    rw [append_wrote hx (fun c' he => by cases he)]
    refine h.inner hx ht hp rfl rfl (fun _ => ?_) (fun c' he => by cases he) (fun c' he => by cases he)
      (List.prefix_refl ws) fun c' he => by cases he
    refine h.fields fun z hz => midway_of_inside ?_
    have hle : inside z ≤ total inside s.callers := le_total hz
    omega
  · obtain ⟨hm, ht, hp⟩ := h.alone hx rfl
    rw [append_wrote hx (fun c' he => by cases he)]
    refine h.inner hx ht hp rfl (if_pos hm).symm (fun he => by cases he) (fun c' he => ?_) (fun c' he => by cases he)
      (List.prefix_refl ws) fun c' he => by cases he
    cases he
    rfl
  · obtain ⟨hm, ht, hp⟩ := h.alone hx rfl
    rw [append_wrote hx (fun c' he => by cases he)]
    refine h.inner hx ht hp rfl (if_pos hm).symm (fun he => by cases he) (fun c' he => by cases he) (fun c' he => ?_)
      (List.prefix_refl ws) fun c' he => by cases he
    cases he
    exact ⟨h.name c (List.mem_of_getElem? hx), rfl⟩
  · obtain ⟨hm, ht, hp⟩ := h.alone hx rfl
    obtain ⟨hdir, hname⟩ := h.tag c (List.mem_of_getElem? hx)
    have hw : wrote s (.caller i sys) = some (i, c) := by simp only [wrote, hx]
    rw [hw, Option.toList_some]
    refine h.inner hx ht hp rfl rfl (fun _ => ?_) (fun c' he => by cases he) (fun c' he => by cases he)
      (List.prefix_append ws _) fun c' he => ?_
    · rw [stored_concat]
      simp only [effective, Logger.setCaller, if_true, hdir, hname]
      rfl
    · cases he
      exact List.mem_append_right ws List.mem_cons_self
  · rw [append_wrote hx (fun c' he => by cases he)]
    exact h.setCaller (y := .initReturned c true) hx rfl rfl (fun c' he => h.past i _ c' hx he) rfl rfl rfl rfl rfl rfl

theorem Guarded.consumer (h : Guarded ws s) (hc : s'.callers = s.callers) (hd : s'.logDir = s.logDir)
    (hn : s'.programName = s.programName) (he : effective s' = effective s)
    (hh : total inside s.callers + copying s'.consumer.place = if s'.configMutex then 1 else 0)
    (hdir : torn s'.consumer.place = true → s'.consumer.logDir = (stored ws).logDir)
    (hname : (∃ msg epoch, s'.consumer.place = .copyTag msg epoch) →
      s'.consumer.programName = (stored ws).programName) : Guarded ws s' := by
  refine ⟨?_, ?_, fun c hz => ?_, fun c hz => ?_, ?_, hdir, hname⟩
  · rw [hc]
    exact hh
  · rw [hc, he]
    exact h.fields
  · rw [hd]
    exact h.name c (hc ▸ hz)
  · rw [hd, hn]
    exact h.tag c (hc ▸ hz)
  · rw [hc]
    exact h.past

theorem Guarded.idle (h : Guarded ws s) (hc : s'.callers = s.callers) (hd : s'.logDir = s.logDir)
    (hn : s'.programName = s.programName) (he : effective s' = effective s) (hm : s'.configMutex = s.configMutex)
    (hp : copying s.consumer.place = 0) (hp' : copying s'.consumer.place = 0) : Guarded ws s' := by
  have htorn : torn s'.consumer.place = false := by
    rw [Bool.eq_false_iff]
    intro ht
    have h1 := copying_of_torn ht
    omega
  refine h.consumer hc hd hn he ?_ (fun ht => ?_) ?_
  · have hh := h.held
    rw [hp] at hh
    rw [hp', hm]
    exact hh
  · rw [htorn] at ht
    cases ht
  · rintro ⟨msg, epoch, hp⟩
    rw [hp] at htorn
    cases htorn

theorem guarded_consume (h : Guarded ws s) (hs : s.consume = some s') : Guarded ws s' := by
  obtain ⟨p, q, r, lines, hp, rfl⟩ | ⟨msg, hp, -, rfl⟩ | ⟨msg, hp, -, rfl⟩ | ⟨msg, epoch, hp, hm, rfl⟩ |
    ⟨msg, epoch, hp, rfl⟩ | ⟨msg, epoch, hp, rfl⟩ | ⟨msg, epoch, hp, rfl⟩ := consume_cases hs
  · exact h.idle rfl rfl rfl rfl rfl hp.before hp.after
  · exact h.idle rfl rfl rfl rfl rfl (by rw [hp]; rfl) rfl
  · exact h.idle rfl rfl rfl rfl rfl (by rw [hp]; rfl) rfl
  · have ht := (h.free hm).1
    refine h.consumer rfl rfl rfl rfl ?_ (fun he => by cases he) ?_
    · rw [ht]
      rfl
    · rintro ⟨msg, epoch, he⟩
      cases he
  · obtain ⟨hm, ht, he⟩ := h.copies (by rw [hp]; rfl)
    refine h.consumer rfl rfl rfl rfl ?_ (fun _ => congrArg Config.logDir he) ?_
    · rw [ht]
      exact (if_pos hm).symm
    · rintro ⟨msg, epoch, he⟩
      cases he
  · obtain ⟨hm, ht, he⟩ := h.copies (by rw [hp]; rfl)
    refine h.consumer rfl rfl rfl rfl ?_ (fun _ => h.copiedDir (by rw [hp]; rfl)) fun _ => congrArg Config.programName he
    rw [ht]
    exact (if_pos hm).symm
  · have ht := (h.copies (by rw [hp]; rfl)).2.1
    refine h.consumer rfl rfl rfl rfl ?_ (fun he => by cases he) ?_
    · rw [ht]
      rfl
    · rintro ⟨msg, epoch, he⟩
      cases he

/-! The epochs. -/

theorem Current.setCaller {ws' : List (Nat × Config)} (h : Current ws s) (hw : ws <+: ws') (hy : returned y = false)
    (hc : s'.callers = s.callers.set i y) (hp : s'.consumer = s.consumer) (he : s'.configEpoch = s.configEpoch) :
    Current ws' s' := by
  refine ⟨?_, ?_, ?_, ?_, fun h0 ht => ?_⟩
  · rw [he]
    exact h.positive
  · rw [hp, he]
    exact h.le
  · rw [hp, he]
    exact h.loaded
  · rw [hp]
    exact h.refreshed
  · rw [hp] at h0 ht
    obtain ⟨ws₁, hpre, hcache, hret⟩ := h.copy h0 ht
    refine ⟨ws₁, hpre.trans hw, ?_, fun heq j c hj => ?_⟩
    · rw [cache, hp]
      exact hcache
    · rw [hp, he] at heq
      rw [hc] at hj
      obtain ⟨-, rfl⟩ | ⟨-, hj⟩ := getElem?_of_set hj
      · cases hy
      · exact hret heq j c hj

theorem Current.bump (h : Current ws s) (hp : s'.consumer = s.consumer) (he : s'.configEpoch = s.configEpoch + 1) :
    Current ws s' := by
  have hle := h.le
  refine ⟨by omega, ?_, fun epoch hl => ?_, ?_, fun h0 ht => ?_⟩
  · rw [hp, he]
    omega
  · rw [hp] at hl ⊢
    obtain ⟨hlt, hle⟩ := h.loaded epoch hl
    exact ⟨hlt, by omega⟩
  · rw [hp]
    exact h.refreshed
  · rw [hp] at h0 ht
    obtain ⟨ws₁, hpre, hcache, -⟩ := h.copy h0 ht
    refine ⟨ws₁, hpre, ?_, fun heq => ?_⟩
    · rw [cache, hp]
      exact hcache
    · rw [hp, he] at heq
      omega

theorem current_caller {sys : System} (h : Current ws s) (hs : s.caller i sys = some s') :
    Current (ws ++ (wrote s (.caller i sys)).toList) s' := by
  obtain ⟨x, y, q, a, l, b, hx, hq, rfl⟩ | ⟨c, hx, hm, rfl⟩ | ⟨c, hx, rfl⟩ | ⟨c, hx, rfl⟩ | ⟨c, hx, rfl⟩ | ⟨c, hx, rfl⟩ :=
    caller_cases hs
  · exact h.setCaller (List.prefix_append ws _) hq.returned rfl rfl rfl
  · exact h.setCaller (y := .setDir c) (List.prefix_append ws _) rfl rfl rfl rfl
  · exact h.setCaller (y := .setName c) (List.prefix_append ws _) rfl rfl rfl rfl
  · exact h.setCaller (y := .setTag c) (List.prefix_append ws _) rfl rfl rfl rfl
  · exact h.setCaller (y := .setCapacity c) (List.prefix_append ws _) rfl rfl rfl rfl
  · rw [append_wrote hx (fun c' he => by cases he)]
    exact h.bump rfl rfl

theorem Current.consumer (h : Current ws s) (hc : s'.callers = s.callers) (he : s'.configEpoch = s.configEpoch)
    (hl : s'.consumer.localEpoch = s.consumer.localEpoch)
    (hload : ∀ epoch, Refresh.loaded s'.consumer.place = some epoch →
      s.consumer.localEpoch < epoch ∧ epoch ≤ s.configEpoch)
    (href : Refresh.refreshed s'.consumer.place = true → s.consumer.localEpoch ≠ 0)
    (hcopy : torn s'.consumer.place = false → torn s.consumer.place = false ∧ cache s' = cache s) : Current ws s' := by
  refine ⟨?_, ?_, ?_, ?_, fun h0 ht => ?_⟩
  · rw [he]
    exact h.positive
  · rw [hl, he]
    exact h.le
  · rw [hl, he]
    exact hload
  · rw [hl]
    exact href
  · rw [hl] at h0
    obtain ⟨ht, hs⟩ := hcopy ht
    obtain ⟨ws₁, hpre, hcache, hret⟩ := h.copy h0 ht
    refine ⟨ws₁, hpre, hs.trans hcache, ?_⟩
    rw [hl, he, hc]
    exact hret

theorem cache_copied (hg : Guarded ws s) {msg : String} {epoch : Nat} (hp : s.consumer.place = .copyTag msg epoch) :
    (⟨s.consumer.logDir, s.consumer.programName, (effective s).instanceTag⟩ : Config) = stored ws := by
  rw [hg.copiedDir (by rw [hp]; rfl), hg.copiedName ⟨msg, epoch, hp⟩, (hg.copies (by rw [hp]; rfl)).2.2]

theorem current_consume (hg : Guarded ws s) (h : Current ws s) (hs : s.consume = some s') : Current ws s' := by
  have hpos := h.positive
  have hle := h.le
  obtain ⟨p, q, r, lines, hp, rfl⟩ | ⟨msg, hp, heq, rfl⟩ | ⟨msg, hp, hne, rfl⟩ | ⟨msg, epoch, hp, hm, rfl⟩ |
    ⟨msg, epoch, hp, rfl⟩ | ⟨msg, epoch, hp, rfl⟩ | ⟨msg, epoch, hp, rfl⟩ := consume_cases hs
  · refine h.consumer rfl rfl rfl (fun epoch hl => ?_) (fun hr => h.refreshed (hp.refreshed hr)) fun _ => ⟨hp.whole, rfl⟩
    rw [hp.loaded] at hl
    cases hl
  · refine h.consumer rfl rfl rfl (fun epoch hl => by cases hl) (fun _ => by omega) fun _ => ⟨by rw [hp]; rfl, rfl⟩
  · refine h.consumer rfl rfl rfl (fun epoch hl => ?_) (fun hr => by cases hr) fun _ => ⟨by rw [hp]; rfl, rfl⟩
    cases hl
    omega
  · refine h.consumer rfl rfl rfl (fun e hl => ?_) (fun hr => by cases hr) fun _ => ⟨by rw [hp]; rfl, rfl⟩
    cases hl
    exact h.loaded epoch (by rw [hp]; rfl)
  · refine h.consumer rfl rfl rfl (fun e hl => ?_) (fun hr => by cases hr) fun ht => by cases ht
    cases hl
    exact h.loaded epoch (by rw [hp]; rfl)
  · refine h.consumer rfl rfl rfl (fun e hl => ?_) (fun hr => by cases hr) fun ht => by cases ht
    cases hl
    exact h.loaded epoch (by rw [hp]; rfl)
  · obtain ⟨hlt, hle⟩ := h.loaded epoch (by rw [hp]; rfl)
    have hcopied := cache_copied hg hp
    refine ⟨hpos, hle, fun e hl => (by cases hl), fun _ => Nat.ne_of_gt (Nat.zero_lt_of_lt hlt), fun _ _ => ?_⟩
    exact ⟨ws, List.prefix_refl ws, hcopied, fun _ j c hj => hg.past j _ c hj rfl⟩

/-! A whole run. -/

theorem Guarded.call (h : Guarded ws s) (h0 : inside x = 0) (hp : Refresh.past x = none)
    (hs : s' = { s with callers := s.callers ++ [x] }) : Guarded ws s' := by
  subst hs
  have hmem : ∀ z ∈ s.callers ++ [x], midway z = true → z ∈ s.callers := by
    intro z hz hmid
    obtain hz | hz := List.mem_append.mp hz
    · exact hz
    · rw [List.mem_singleton.mp hz, midway_of_inside h0] at hmid
      cases hmid
  refine ⟨?_, fun hz => h.fields fun z hm => hz z (List.mem_append_left _ hm), fun c hz => h.name c (hmem _ hz rfl),
    fun c hz => h.tag c (hmem _ hz rfl), fun j z c hz hpz => ?_, h.copiedDir, h.copiedName⟩
  · rw [total_concat, h0]
    exact h.held
  · obtain hz | ⟨-, rfl⟩ := getElem?_of_concat hz
    · exact h.past j z c hz hpz
    · rw [hp] at hpz
      cases hpz

theorem Current.call (h : Current ws s) (hr : returned x = false) (hs : s' = { s with callers := s.callers ++ [x] }) :
    Current ws s' := by
  subst hs
  refine ⟨h.positive, h.le, h.loaded, h.refreshed, fun h0 ht => ?_⟩
  obtain ⟨ws₁, hpre, hcache, hret⟩ := h.copy h0 ht
  refine ⟨ws₁, hpre, hcache, fun heq j c hj => ?_⟩
  obtain hj | ⟨-, rfl⟩ := getElem?_of_concat hj
  · exact hret heq j c hj
  · cases hr

theorem step_inv {a : Move} (hg : Guarded ws s) (hc : Current ws s) (hs : logger.step s a = some s') :
    Guarded (ws ++ (wrote s a).toList) s' ∧ Current (ws ++ (wrote s a).toList) s' := by
  cases a with
  | log msg level | init c | shutdown =>
    cases hs
    simp only [wrote, Option.toList_none, List.append_nil]
    exact ⟨hg.call rfl rfl rfl, hc.call rfl rfl⟩
  | caller i sys => exact ⟨guarded_caller hg hs, current_caller hc hs⟩
  | consume =>
    simp only [wrote, Option.toList_none, List.append_nil]
    exact ⟨guarded_consume hg hs, current_consume hg hc hs⟩

theorem writes_concat {capacity : Nat} {as : List Move} (hr : logger.run (Logger.construct capacity) as = some s)
    (a : Move) : writes capacity (as ++ [a]) = writes capacity as ++ (wrote s a).toList := Machine.trace_concat hr a

theorem run_inv {capacity : Nat} {as : List Move} (hr : logger.run (Logger.construct capacity) as = some s) :
    Guarded (writes capacity as) s ∧ Current (writes capacity as) s := by
  refine Machine.reached_induction (P := fun as s => Guarded (writes capacity as) s ∧ Current (writes capacity as) s)
    ?_ ?_ hr
  · refine ⟨⟨rfl, fun _ => rfl, ?_, ?_, ?_, ?_, ?_⟩, ⟨Nat.zero_lt_one, Nat.zero_le 1, ?_, ?_, fun h0 => absurd rfl h0⟩⟩
    · exact fun c hc => absurd hc List.not_mem_nil
    · exact fun c hc => absurd hc List.not_mem_nil
    · intro i x c hx
      cases hx
    · intro ht
      cases ht
    · rintro ⟨msg, epoch, hp⟩
      cases hp
    · intro epoch hl
      cases hl
    · intro hl
      cases hl
  · intro as s a s' hr ⟨hg, hc⟩ hs
    rw [writes_concat hr]
    exact step_inv hg hc hs

/-! A refresh after a call has returned. -/

/-- The triple of the write `x` or of a later one. -/
def Since (ws : List (Nat × Config)) (x : Nat × Config) (c : Config) : Prop :=
  ∃ ws₁ ws₂, ws = ws₁ ++ x :: ws₂ ∧ ∃ y ∈ x :: ws₂, c = written y.2

theorem since_of_prefix {ws' : List (Nat × Config)} {x : Nat × Config} (h : ws' <+: ws) (hx : x ∈ ws') :
    Since ws x (stored ws') := by
  obtain ⟨r, rfl⟩ := h
  obtain ⟨ws₁, ws₂, rfl⟩ := List.append_of_mem hx
  have hne : x :: ws₂ ≠ [] := List.cons_ne_nil x ws₂
  have hlast : (ws₁ ++ x :: ws₂).getLast? = some ((x :: ws₂).getLast hne) := by
    rw [List.getLast?_append_of_ne_nil ws₁ hne, List.getLast?_eq_some_getLast hne]
  refine ⟨ws₁, ws₂ ++ r, List.append_assoc ws₁ (x :: ws₂) r, (x :: ws₂).getLast hne, ?_, ?_⟩
  · exact List.mem_append_left r (List.getLast_mem hne)
  · rw [stored, hlast]
    rfl

/-- The call `i` has returned, and the copy is past its write unless the consumer
is in a refresh, which began later. -/
structure Seen (ws : List (Nat × Config)) (i : Nat) (c : Config) (s : Logger) : Prop where
  returned : s.callers[i]? = some (.initReturned c true)
  copy : refreshing s.consumer.place = true ∨ ∃ ws', ws' <+: ws ∧ cache s = stored ws' ∧ (i, c) ∈ ws'

theorem caller_frame {j : Nat} {sys : System} (h : s.caller j sys = some s') :
    s'.consumer = s.consumer ∧ ∃ y, s'.callers = s.callers.set j y := by
  obtain ⟨x, y, q, a, l, b, -, -, rfl⟩ | ⟨c, -, -, rfl⟩ | ⟨c, -, rfl⟩ | ⟨c, -, rfl⟩ | ⟨c, -, rfl⟩ | ⟨c, -, rfl⟩ :=
    caller_cases h
  all_goals exact ⟨rfl, _, rfl⟩

theorem Seen.setCallers {ws' : List (Nat × Config)} (h : Seen ws i c s) (hw : ws <+: ws') (hp : s'.consumer = s.consumer)
    (hr : s'.callers[i]? = some (.initReturned c true)) : Seen ws' i c s' := by
  refine ⟨hr, ?_⟩
  rw [cache, hp]
  exact h.copy.imp_right fun ⟨ws₁, hpre, hs, hm⟩ => ⟨ws₁, hpre.trans hw, hs, hm⟩

theorem seen_caller {j : Nat} {sys : System} (h : Seen ws i c s) (hs : s.caller j sys = some s') :
    Seen (ws ++ (wrote s (.caller j sys)).toList) i c s' := by
  obtain ⟨hp, y, hc⟩ := caller_frame hs
  refine h.setCallers (List.prefix_append ws _) hp ?_
  have hne : j ≠ i := by
    rintro rfl
    simp only [Logger.caller, h.returned, reduceCtorEq] at hs
  rw [hc, List.getElem?_set_ne hne]
  exact h.returned

theorem seen_consume (hg : Guarded ws s) (hc : Current ws s) (h : Seen ws i c s) (hs : s.consume = some s') :
    Seen ws i c s' := by
  obtain ⟨p, q, r, lines, hp, rfl⟩ | ⟨msg, hp, heq, rfl⟩ | ⟨msg, hp, -, rfl⟩ | ⟨msg, epoch, hp, -, rfl⟩ |
    ⟨msg, epoch, hp, rfl⟩ | ⟨msg, epoch, hp, rfl⟩ | ⟨msg, epoch, hp, rfl⟩ := consume_cases hs
  · obtain hr | hcopy := h.copy
    · rw [hp.outside] at hr
      cases hr
    · exact ⟨h.returned, Or.inr hcopy⟩
  · obtain ⟨ws', hpre, hcache, hret⟩ := hc.copy (by have := hc.positive; omega) (by rw [hp]; rfl)
    exact ⟨h.returned, Or.inr ⟨ws', hpre, hcache, hret heq.symm i c h.returned⟩⟩
  · exact ⟨h.returned, Or.inl rfl⟩
  · exact ⟨h.returned, Or.inl rfl⟩
  · exact ⟨h.returned, Or.inl rfl⟩
  · exact ⟨h.returned, Or.inl rfl⟩
  · have hcopied := cache_copied hg hp
    exact ⟨h.returned, Or.inr ⟨ws, List.prefix_refl ws, hcopied, hg.past i _ c h.returned rfl⟩⟩

theorem seen_step {a : Move} (hg : Guarded ws s) (hc : Current ws s) (h : Seen ws i c s)
    (hs : logger.step s a = some s') : Seen (ws ++ (wrote s a).toList) i c s' := by
  cases a with
  | log msg level | init c' | shutdown =>
    cases hs
    refine h.setCallers (List.prefix_append ws _) rfl ?_
    rw [List.getElem?_append_left (List.getElem?_eq_some_iff.mp h.returned).1]
    exact h.returned
  | caller j sys => exact seen_caller h hs
  | consume =>
    simp only [wrote, Option.toList_none, List.append_nil]
    exact seen_consume hg hc h hs

theorem seen_run {capacity : Nat} {bs cs : List Move} {t : Logger}
    (hs : logger.run (Logger.construct capacity) bs = some s) (ht : logger.run s cs = some t)
    (h : Seen (writes capacity bs) i c s) : Seen (writes capacity (bs ++ cs)) i c t := by
  refine Machine.reached_induction (P := fun cs t => logger.run (Logger.construct capacity) (bs ++ cs) = some t ∧
    Seen (writes capacity (bs ++ cs)) i c t) ?_ ?_ ht |>.2
  · rw [List.append_nil]
    exact ⟨hs, h⟩
  · intro cs u a v hu ⟨hr, h⟩ hv
    obtain ⟨hg, hc⟩ := run_inv hr
    rw [← List.append_assoc, writes_concat hr]
    exact ⟨Machine.run_concat hr hv, seen_step hg hc h hv⟩

/-- After a refresh the copy is the initial triple or one that a call of `Init`
wrote. When the refresh began after a call had returned true, it is the triple of
that call or of one whose write came later. -/
theorem config_current (capacity : Nat) (bs cs : List Move) (s t : Logger)
    (hs : logger.run (Logger.construct capacity) bs = some s) (ht : logger.run s cs = some t) (msg : String)
    (hp : t.consumer.place = .count msg) :
    (cache t = ⟨".", "log", ""⟩ ∨ ∃ x ∈ writes capacity (bs ++ cs), cache t = written x.2) ∧
    ∀ msg' i c, s.consumer.place = .loadEpoch msg' → s.callers[i]? = some (.initReturned c true) →
      Since (writes capacity (bs ++ cs)) (i, c) (cache t) := by
  have hr : logger.run (Logger.construct capacity) (bs ++ cs) = some t := by
    rw [Machine.run_append, hs]
    exact ht
  obtain ⟨-, hc⟩ := run_inv hr
  refine ⟨?_, fun msg' i c hl hi => ?_⟩
  · obtain ⟨ws', hpre, hcache, -⟩ := hc.copy (hc.refreshed (by rw [hp]; rfl)) (by rw [hp]; rfl)
    rw [hcache, stored]
    cases hlast : ws'.getLast? with
    | none => exact Or.inl rfl
    | some x => exact Or.inr ⟨x, hpre.subset (List.mem_of_getLast? hlast), rfl⟩
  · have hseen : Seen (writes capacity (bs ++ cs)) i c t := seen_run hs ht ⟨hi, Or.inl (by rw [hl]; rfl)⟩
    obtain h | ⟨ws', hpre, hcache, hm⟩ := hseen.copy
    · rw [hp] at h
      cases h
    · rw [hcache]
      exact since_of_prefix hpre hm

/-- A call of `Init` and a message after it, up to the epoch that the consumer
loads. -/
def configured : List Move :=
  [.init ⟨"logs", "", "a"⟩, .caller 0 {}, .caller 0 {}, .caller 0 {}, .caller 0 {}, .caller 0 {}, .caller 0 {},
    .caller 0 {}, .caller 0 {}, .log "up" .INFO, .caller 1 {}, .caller 1 {}, .consume]

theorem config_current_configured : ∃ s t cs, logger.run (Logger.construct 10000) configured = some s ∧
    logger.run s cs = some t ∧ cache t = ⟨"logs", "log", "a"⟩ ∧
    Since (writes 10000 (configured ++ cs)) (0, ⟨"logs", "", "a"⟩) (cache t) := by
  obtain ⟨s, t, hs, ht, hc, hp, hl, hi⟩ : ∃ s t, logger.run (Logger.construct 10000) configured = some s ∧
      logger.run s (List.replicate 5 .consume) = some t ∧ cache t = ⟨"logs", "log", "a"⟩ ∧
      t.consumer.place = .count "[INFO] => up\n" ∧ s.consumer.place = .loadEpoch "[INFO] => up\n" ∧
      s.callers[0]? = some (.initReturned ⟨"logs", "", "a"⟩ true) :=
    ⟨_, _, rfl, rfl, rfl, rfl, rfl, rfl⟩
  exact ⟨s, t, _, hs, ht, hc, (config_current 10000 configured _ s t hs ht _ hp).2 _ 0 _ hl hi⟩

end BridgeIM.Logging.Refresh
