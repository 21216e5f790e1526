import BridgeIM.CString
import BridgeIM.Logging.Accounting
import BridgeIM.Logging.Refresh

namespace BridgeIM.Logging.Files

open CString Lib Accounting Refresh

def unsigned : List Char → List Char
  | '-' :: cs | '+' :: cs => cs
  | cs => cs

/-- `strtoul` of a text in base 10: the number and what is left after it. A number
that does not fit is clamped, and a negative one wraps around. -/
def strtoul (text : List Char) : Option (Nat × List Char) :=
  let rest := text.dropWhile isSpace
  let number := digits (unsigned rest)
  if (unsigned rest).takeWhile Char.isDigit = [] then none
  else
    let value := if 18446744073709551616 ≤ number then 18446744073709551615
      else if rest.head? = some '-' then (18446744073709551616 - number) % 18446744073709551616 else number
    some (value, (unsigned rest).dropWhile Char.isDigit)

def kDefaultLogQueueCapacity : Nat := 10000

/-- `LoadQueueCapacity` with the value of the environment variable. -/
def loadQueueCapacity (raw : Option String) : Nat :=
  match raw with
  | none => kDefaultLogQueueCapacity
  | some raw =>
    if raw = "" then kDefaultLogQueueCapacity
    else match strtoul raw.toList with
      | some (value, []) => value
      | _ => kDefaultLogQueueCapacity

/-- The fields of a `tm` that a path shows; the years count from 1900 and the
months from 0. -/
structure Date where
  year : Int
  mon : Nat
  mday : Nat
  deriving DecidableEq, Repr

def buildLogPath (c : Config) (d : Date) : String :=
  c.logDir ++ "/" ++ decimal (d.year + 1900) ++ "-" ++ twoDigits (d.mon + 1) ++ "-" ++ twoDigits d.mday ++
    (if c.programName = "" then "" else "-" ++ c.programName) ++ (if c.instanceTag = "" then "" else "-" ++ c.instanceTag) ++
    ".log"

/-- The file that the consumer has open, the texts that have been written to
each file, and what went to `std::cerr`. -/
structure Disk where
  pf : Option String := none
  currentPath : String := ""
  files : String → List String := fun _ => []
  cerr : List String := []

/-- What the system answers to a call of `writeLine`: the date, if it has one,
whether `fopen` succeeds, and what the file holds instead when `fputs` or `fflush`
fails, which nobody notices. -/
structure Answers where
  date : Option Date := none
  opens : Bool := true
  spoiled : Option (List String) := none
  deriving DecidableEq, Repr

namespace Disk

/-- `writeLine` opens another file when the path has changed. -/
def openFile (path : String) (opens : Bool) (d : Disk) : Disk :=
  if d.pf = none ∨ path ≠ d.currentPath then
    if opens then { d with pf := some (cstring path), currentPath := path }
    else { d with pf := none, cerr := d.cerr ++ ["open log file error: " ++ path ++ "\n"] }
  else d

/-- `fputs`, which ends at the first NUL. -/
def puts (line : String) (spoiled : Option (List String)) (d : Disk) : Disk :=
  match d.pf with
  | some file => { d with files := Function.update d.files file (spoiled.getD (d.files file ++ [cstring line])) }
  | none => d

def writeLine (c : Config) (line : String) (a : Answers) (d : Disk) : Disk :=
  match a.date with
  | none => { d with cerr := d.cerr ++ [line] }
  | some date => (d.openFile (buildLogPath c date) a.opens).puts line a.spoiled

def close (d : Disk) : Disk := { d with pf := none }

end Disk

structure Process where
  logger : Logger
  disk : Disk := {}

def written (s : Logger) : Move → Option Line
  | .consume =>
    match s.consumer.place with
    | .note _ dropped => some (.note (dropped - s.consumer.reportedDropped))
    | .write msg => some (.message msg)
    | _ => none
  | _ => none

/-- The consumer closes its file when it has left its loop. -/
def Disk.serve (c : Config) (line : Option Line) (place : Place) (a : Answers) (d : Disk) : Disk :=
  match line with
  | some line => d.writeLine c line.text a
  | none => if place = .left then d.close else d

def step (s : Process) (a : Move × Answers) : Option Process :=
  (Logging.step s.logger a.1).map fun logger =>
    ⟨logger, s.disk.serve (cache s.logger) (written s.logger a.1) logger.consumer.place a.2⟩

def process : Machine Process (Move × Answers) := ⟨step⟩

def start (raw : Option String) (files : String → List String) : Process :=
  ⟨Logger.construct (loadQueueCapacity raw), { files := files }⟩

/-- A call of `writeLine`, with the configuration that it has used, the date, the
file that has taken the line, and whether it has been written. -/
structure Record where
  line : Line
  config : Config
  date : Option Date
  file : Option String
  whole : Bool

/-- The line is not in a file: it is lost, or `std::cerr` has it. -/
def Record.complaint (r : Record) : Option String :=
  match r.date, r.file with
  | none, _ => some r.line.text
  | some date, none => some ("open log file error: " ++ buildLogPath r.config date ++ "\n")
  | some _, some _ => none

/-- The file that takes a line: an open file takes it without another `fopen`. -/
def taker (c : Config) (a : Answers) (d : Disk) : Option String :=
  a.date.bind fun date =>
    if a.opens ∨ d.pf.isSome ∧ buildLogPath c date = d.currentPath then some (cstring (buildLogPath c date)) else none

def record (s : Process) (a : Move × Answers) : Option Record :=
  (written s.logger a.1).map fun line =>
    { line := line, config := cache s.logger, date := a.2.date, file := taker (cache s.logger) a.2 s.disk,
      whole := a.2.spoiled.isNone }

def records (s₀ : Process) (as : List (Move × Answers)) : List Record := process.trace record s₀ as

def texts (rs : List Record) (file : String) : List String :=
  (rs.filter fun r => r.file = some file).map fun r => cstring r.line.text

def Unspoiled (rs : List Record) (file : String) : Prop := ∀ r ∈ rs, r.file = some file → r.whole = true

def Disk.Sound (d : Disk) : Prop := ∀ file, d.pf = some file → file = cstring d.currentPath

variable {files₀ : String → List String} {c : Config} {a : Answers} {d : Disk} {s t : Process} {m : Move × Answers}

theorem openFile_taken (hd : d.Sound) {path : String} {opens : Bool} (h : opens ∨ d.pf.isSome ∧ path = d.currentPath) :
    (d.openFile path opens).pf = some (cstring path) ∧ (d.openFile path opens).currentPath = path ∧
      (d.openFile path opens).files = d.files ∧ (d.openFile path opens).cerr = d.cerr := by
  unfold Disk.openFile
  split
  · rename_i hc
    obtain rfl | ⟨hs, rfl⟩ := h
    · exact ⟨rfl, rfl, rfl, rfl⟩
    · obtain hn | hn := hc
      · rw [hn] at hs
        cases hs
      · exact absurd rfl hn
  · rename_i hc
    rw [not_or, not_not] at hc
    obtain ⟨hne, rfl⟩ := hc
    obtain ⟨file, hf⟩ := Option.ne_none_iff_exists'.mp hne
    exact ⟨by rw [hf, hd file hf], rfl, rfl, rfl⟩

theorem openFile_failed {path : String} {opens : Bool} (h : ¬ (opens ∨ d.pf.isSome ∧ path = d.currentPath)) :
    d.openFile path opens = { d with pf := none, cerr := d.cerr ++ ["open log file error: " ++ path ++ "\n"] } := by
  rw [not_or, not_and] at h
  have hc : d.pf = none ∨ path ≠ d.currentPath := by
    by_cases hp : d.pf = none
    · exact Or.inl hp
    · exact Or.inr (h.2 (Option.isSome_iff_ne_none.mpr hp))
  rw [Disk.openFile, if_pos hc, if_neg h.1]

theorem puts_some {file : String} (h : d.pf = some file) (line : String) (spoiled : Option (List String)) :
    d.puts line spoiled =
      { d with files := Function.update d.files file (spoiled.getD (d.files file ++ [cstring line])) } := by
  rw [Disk.puts, h]

theorem puts_none (h : d.pf = none) (line : String) (spoiled : Option (List String)) : d.puts line spoiled = d := by
  rw [Disk.puts, h]

theorem writeLine_spec (hd : d.Sound) (c : Config) (line : Line) (a : Answers) {r : Record}
    (hr : r = { line := line, config := c, date := a.date, file := taker c a d, whole := a.spoiled.isNone }) :
    (d.writeLine c line.text a).Sound ∧ (d.writeLine c line.text a).cerr = d.cerr ++ r.complaint.toList ∧
      ∀ file, Unspoiled [r] file → (d.writeLine c line.text a).files file = d.files file ++ texts [r] file := by
  subst hr
  unfold Disk.writeLine
  cases hdate : a.date with
  | none =>
    have ht : taker c a d = none := by rw [taker, hdate, Option.bind_none]
    refine ⟨hd, by simp [Record.complaint], fun file _ => ?_⟩
    simp [texts, ht]
  | some date =>
    dsimp only
    by_cases hc : a.opens ∨ d.pf.isSome ∧ buildLogPath c date = d.currentPath
    · have ht : taker c a d = some (cstring (buildLogPath c date)) := by rw [taker, hdate, Option.bind_some, if_pos hc]
      obtain ⟨hpf, hcur, hfiles, hcerr⟩ := openFile_taken hd hc
      rw [puts_some hpf, ht]
      refine ⟨?_, by simp [hcerr, Record.complaint], fun file hu => ?_⟩
      · intro file hf
        change file = cstring (d.openFile (buildLogPath c date) a.opens).currentPath
        rw [hcur]
        exact Option.some.inj (hf.symm.trans hpf)
      · by_cases hp : file = cstring (buildLogPath c date)
        · have hwhole : a.spoiled = none := Option.isNone_iff_eq_none.mp (hu _ List.mem_cons_self (by rw [hp]))
          subst hp
          simp [texts, hfiles, hwhole]
        · have hne : cstring (buildLogPath c date) ≠ file := Ne.symm hp
          simp [texts, hfiles, hp, hne]
    · have ht : taker c a d = none := by rw [taker, hdate, Option.bind_some, if_neg hc]
      rw [openFile_failed hc, puts_none rfl, ht]
      refine ⟨?_, rfl, fun file _ => ?_⟩
      · intro file hf
        cases hf
      · simp [texts]

structure Filed (files₀ : String → List String) (rs : List Record) (s : Process) : Prop where
  sound : s.disk.Sound
  files : ∀ file, Unspoiled rs file → s.disk.files file = files₀ file ++ texts rs file
  cerr : s.disk.cerr = rs.filterMap Record.complaint
  lines : rs.map Record.line = s.logger.consumer.lines
  named : ∀ r ∈ rs, ∀ file, r.file = some file → ∃ date, r.date = some date ∧ file = cstring (buildLogPath r.config date)

theorem texts_append (rs rs' : List Record) (file : String) : texts (rs ++ rs') file = texts rs file ++ texts rs' file := by
  rw [texts, List.filter_append, List.map_append]
  rfl

theorem lines_step {s s' : Logger} {m : Move} (h : Logging.step s m = some s') :
    s'.consumer.lines = s.consumer.lines ++ (written s m).toList := by
  cases m with
  | consume =>
    have h : s.consume = some s' := h
    unfold Logger.consume at h
    unfold written
    split at h
    case h_1 hp =>
      rw [hp]
      split at h
      · cases h
        exact (List.append_nil _).symm
      · cases h
        exact (List.append_nil _).symm
      · cases h
    case h_3 msg epoch hp =>
      obtain ⟨-, h⟩ := Option.ite_none_left_eq_some.mp h
      cases h
      rw [hp]
      exact (List.append_nil _).symm
    case h_8 msg dropped hp =>
      cases h
      rw [hp]
      rfl
    case h_9 msg hp =>
      cases h
      rw [hp]
      rfl
    all_goals
      rename_i hp
      cases h
      try
        rw [hp]
        exact (List.append_nil _).symm
  | caller i sys =>
    obtain ⟨hc, -⟩ := Accounting.caller_cases h
    rw [hc]
    exact (List.append_nil _).symm
  | _ =>
    cases h
    exact (List.append_nil _).symm

theorem filed_step {rs : List Record} (h : Filed files₀ rs s) (hs : step s m = some t) :
    Filed files₀ (rs ++ (record s m).toList) t := by
  obtain ⟨logger, hl, rfl⟩ := Option.map_eq_some_iff.mp hs
  have hlines := lines_step hl
  rw [record]
  cases hw : written s.logger m.1 with
  | none =>
    rw [hw, Option.toList_none, List.append_nil] at hlines
    rw [Option.map_none, Option.toList_none, List.append_nil, Disk.serve]
    have hsame : ∀ d : Disk, d.Sound → d.files = s.disk.files → d.cerr = s.disk.cerr → Filed files₀ rs ⟨logger, d⟩ :=
      fun d hd hf hc => ⟨hd, fun file hu => by rw [hf, h.files file hu], by rw [hc, h.cerr], by rw [h.lines, hlines], h.named⟩
    split
    · refine hsame _ ?_ rfl rfl
      intro file hf
      cases hf
    · exact hsame _ h.sound rfl rfl
  | some line =>
    rw [Disk.serve]
    obtain ⟨hd, hc, hf⟩ := writeLine_spec h.sound (cache s.logger) line m.2 rfl
    rw [hw] at hlines
    refine ⟨hd, ?_, ?_, ?_, ?_⟩
    · intro file hu
      rw [Option.map_some, Option.toList_some] at hu ⊢
      rw [hf file fun r hr => hu r (List.mem_append_right _ hr), h.files file fun r hr => hu r (List.mem_append_left _ hr),
        texts_append, List.append_assoc]
    · rw [hc, h.cerr, Option.map_some, Option.toList_some, List.filterMap_append]
      rfl
    · rw [Option.map_some, Option.toList_some, List.map_append, h.lines, hlines]
      rfl
    · intro r hr file hfile
      rw [Option.map_some, Option.toList_some, List.mem_append, List.mem_singleton] at hr
      obtain hr | rfl := hr
      · exact h.named r hr file hfile
      · obtain ⟨date, hdate, ht⟩ := Option.bind_eq_some_iff.mp hfile
        obtain ⟨-, ht⟩ := Option.ite_none_right_eq_some.mp ht
        exact ⟨date, hdate, (Option.some.inj ht).symm⟩

/-! The paths. -/

theorem append_cons_inj {α : Type*} {x : α} {a a' b b' : List α} (hb : x ∉ b) (hb' : x ∉ b')
    (h : a ++ x :: b = a' ++ x :: b') : a = a' ∧ b = b' := by
  obtain ⟨c, rfl, hc⟩ | ⟨c, rfl, hc⟩ := List.append_eq_append_iff.mp h
  · cases c with
    | nil => exact ⟨(List.append_nil a).symm, (List.cons.inj hc).2⟩
    | cons y c =>
      obtain ⟨-, rfl⟩ := List.cons.inj hc
      exact absurd (List.mem_append_right c List.mem_cons_self) hb
  · cases c with
    | nil => exact ⟨List.append_nil a', (List.cons.inj hc).2.symm⟩
    | cons y c =>
      obtain ⟨-, rfl⟩ := List.cons.inj hc
      exact absurd (List.mem_append_right c List.mem_cons_self) hb'

theorem toList_twoDigits (n : Nat) :
    (twoDigits n).toList = if n < 10 then '0' :: Nat.toDigits 10 n else Nat.toDigits 10 n := by
  unfold twoDigits
  split
  · rw [String.toList_append]
    exact congrArg ('0' :: ·) (toList_decimal_ofNat n)
  · exact toList_decimal_ofNat n

theorem twoDigits_injective : Function.Injective twoDigits := by
  have hd (n : Nat) : digits (twoDigits n).toList = n := by
    rw [toList_twoDigits]
    split
    · have hzero : digits ('0' :: Nat.toDigits 10 n) = digits (Nat.toDigits 10 n) := rfl
      rw [hzero, digits_toDigits]
    · exact digits_toDigits n
  intro m n h
  rw [← hd m, h, hd]

theorem not_mem_twoDigits {c : Char} (hc : c.isDigit = false) (n : Nat) : c ∉ (twoDigits n).toList := by
  have hd : c ∉ Nat.toDigits 10 n := by
    intro h
    have hdigit := Nat.isDigit_of_mem_toDigits (by omega) (by omega) h
    exact Bool.noConfusion (hc.symm.trans hdigit)
  rw [toList_twoDigits]
  split
  · rw [List.mem_cons, not_or]
    refine ⟨?_, hd⟩
    rintro rfl
    cases hc
  · exact hd

/-- Under one configuration every day has a path of its own. -/
theorem buildLogPath_injective (c : Config) : Function.Injective (buildLogPath c) := by
  intro d d' h
  have htext (d : Date) : (buildLogPath c d).toList = (c.logDir ++ "/").toList ++
      ((decimal (d.year + 1900)).toList ++ '-' :: (twoDigits (d.mon + 1)).toList ++ '-' :: (twoDigits d.mday).toList) ++
      ((if c.programName = "" then "" else "-" ++ c.programName) ++
        (if c.instanceTag = "" then "" else "-" ++ c.instanceTag) ++ ".log").toList := by
    have hdash : "-".toList = ['-'] := rfl
    simp only [buildLogPath, String.toList_append, hdash, List.append_assoc, List.cons_append, List.nil_append]
  have h := congrArg String.toList h
  rw [htext, htext] at h
  have h := List.append_cancel_left (List.append_cancel_right h)
  obtain ⟨h, hday⟩ := append_cons_inj (not_mem_twoDigits rfl _) (not_mem_twoDigits rfl _) h
  obtain ⟨hyear, hmon⟩ := append_cons_inj (not_mem_twoDigits rfl _) (not_mem_twoDigits rfl _) h
  have hy := decimal_injective (String.toList_inj.mp hyear)
  have hm := twoDigits_injective (String.toList_inj.mp hmon)
  have hd := twoDigits_injective (String.toList_inj.mp hday)
  obtain ⟨year, mon, mday⟩ := d
  obtain ⟨year', mon', mday'⟩ := d'
  simp only [Date.mk.injEq]
  dsimp only at hy hm hd
  omega

def Clean (c : Config) : Prop :=
  '\x00' ∉ c.logDir.toList ∧ '\x00' ∉ c.programName.toList ∧ '\x00' ∉ c.instanceTag.toList

theorem nul_not_mem_path (h : Clean c) (d : Date) : '\x00' ∉ (buildLogPath c d).toList := by
  have hopt {s : String} (hs : '\x00' ∉ s.toList) : '\x00' ∉ (if s = "" then "" else "-" ++ s).toList := by
    split
    · decide
    · rw [String.toList_append, List.mem_append, not_or]
      exact ⟨by decide, hs⟩
  have hyear : '\x00' ∉ (decimal (d.year + 1900)).toList := by
    intro hm
    obtain hm | hm := isDigit_of_mem_decimal hm
    · cases hm
    · cases hm
  simp only [buildLogPath, String.toList_append, List.mem_append, not_or]
  exact ⟨⟨⟨⟨⟨⟨⟨⟨⟨h.1, by decide⟩, hyear⟩, by decide⟩, not_mem_twoDigits rfl _⟩, by decide⟩, not_mem_twoDigits rfl _⟩,
    hopt h.2.1⟩, hopt h.2.2⟩, by decide⟩

/-- What the files hold of the accepted messages: each file in the order in which
they were accepted, and every day in a file of its own. -/
structure Kept (files₀ : String → List String) (rs : List Record) (s : Process) : Prop extends Filed files₀ rs s where
  order : ∀ file, (messages ((rs.filter fun r => r.file = some file).map Record.line)).Sublist s.logger.accepted
  count : (messages (rs.map Record.line)).length + (inHand s.logger.consumer.place).length +
    s.logger.lockQueue.queue.length + s.logger.lockQueue.dropped = s.logger.accepted.length
  daily : ∀ r ∈ rs, ∀ r' ∈ rs, r.config = r'.config → Clean r.config → r.file.isSome → r.file = r'.file → r.date = r'.date

theorem kept_of_filed {rs : List Record} (h : Filed files₀ rs s) (hb : Books s.logger) : Kept files₀ rs s where
  toFiled := h
  order file := by
    refine List.Sublist.trans ?_ hb.order
    rw [← h.lines, List.append_assoc]
    exact ((List.filter_sublist.map Record.line).filterMap _).trans (List.sublist_append_left _ _)
  count := by
    rw [h.lines]
    exact hb.count
  daily r hr r' hr' hc hclean hsome hsame := by
    obtain ⟨file, hfile⟩ := Option.isSome_iff_exists.mp hsome
    obtain ⟨date, hdate, hp⟩ := h.named r hr file hfile
    obtain ⟨date', hdate', hp'⟩ := h.named r' hr' file (hsame ▸ hfile)
    have hpath := hp.symm.trans hp'
    rw [← hc, cstring_of_not_mem (nul_not_mem_path hclean date), cstring_of_not_mem (nul_not_mem_path hclean date')] at hpath
    rw [hdate, hdate', buildLogPath_injective r.config hpath]

/-- In every run, whatever the clock and the file system answer, the files hold
what the consumer was able to write of the accepted messages. -/
theorem log_filed (raw : Option String) (files₀ : String → List String) (as : List (Move × Answers)) (s : Process)
    (hr : process.run (start raw files₀) as = some s) : Kept files₀ (records (start raw files₀) as) s := by
  have h : Filed files₀ (records (start raw files₀) as) s ∧ Books s.logger := by
    refine Machine.reached_induction (P := fun as s => Filed files₀ (records (start raw files₀) as) s ∧ Books s.logger)
      ⟨⟨?_, ?_, rfl, rfl, ?_⟩, books_construct _⟩ ?_ hr
    · intro file hf
      cases hf
    · exact fun file _ => (List.append_nil _).symm
    · exact fun r hm => absurd hm List.not_mem_nil
    · intro as s m t hr ⟨hf, hb⟩ hs
      rw [records, Machine.trace_concat hr]
      refine ⟨filed_step hf hs, ?_⟩
      obtain ⟨logger, hl, rfl⟩ := Option.map_eq_some_iff.mp hs
      exact books_step hb hl
  exact kept_of_filed h.1 h.2

/-- Three messages are logged; before the second is written the day ends, and its
file cannot be opened at first. -/
def midnight : List (Move × Answers) :=
  let today : Answers := { date := some ⟨126, 0, 9⟩ }
  let tomorrow : Answers := { date := some ⟨126, 0, 10⟩ }
  [(.log "a" .INFO, today), (.log "b" .INFO, today), (.log "c" .INFO, today), (.caller 0 {}, today), (.caller 0 {}, today),
    (.caller 1 {}, today), (.caller 1 {}, today), (.caller 2 {}, today), (.caller 2 {}, today)] ++
    List.replicate 8 (.consume, today) ++ List.replicate 4 (.consume, { tomorrow with opens := false }) ++
    List.replicate 4 (.consume, tomorrow)

theorem log_filed_midnight : ∃ s, process.run (start none fun _ => []) midnight = some s ∧
    s.disk.files "./2026-01-09-log.log" = ["[INFO] => a\n"] ∧ s.disk.files "./2026-01-10-log.log" = ["[INFO] => c\n"] ∧
      Kept (fun _ => []) (records (start none fun _ => []) midnight) s := by
  have h : (process.run (start none fun _ => []) midnight).map (fun s =>
      (s.disk.files "./2026-01-09-log.log", s.disk.files "./2026-01-10-log.log")) =
      some (["[INFO] => a\n"], ["[INFO] => c\n"]) := by decide +kernel
  obtain ⟨s, hs, he⟩ := Option.map_eq_some_iff.mp h
  obtain ⟨ha, hc⟩ := Prod.mk.inj he
  exact ⟨s, hs, ha, hc, log_filed none (fun _ => []) midnight s hs⟩

end BridgeIM.Logging.Files
