import Mathlib.Data.List.DropRight
import BridgeIM.CString
import BridgeIM.Lib.Lines

namespace BridgeIM.Db.ConfigFile

open CString Lib.Lines

@[ext] structure DbConfig where
  ip : String := ""
  port : Nat
  username : String := ""
  password : String := ""
  dbname : String := ""
  deriving DecidableEq, Repr

@[ext] structure PoolConfig where
  initSize : Int := 0
  maxSize : Int := 0
  connectionTimeout : Int := 0
  deriving DecidableEq, Repr

structure ConnectionPoolConfig where
  dbConfig : DbConfig
  poolConfig : PoolConfig := {}
  hasIp : Bool := false
  hasPort : Bool := false
  hasUsername : Bool := false
  hasPassword : Bool := false
  hasDbName : Bool := false
  hasInitSize : Bool := false
  hasMaxSize : Bool := false
  hasConnectionTimeout : Bool := false
  deriving DecidableEq, Repr

def fresh (port : Nat) : ConnectionPoolConfig := { dbConfig := { port := port } }

def isBlank (c : Char) : Bool := c = ' ' || c = '\t' || c = '\r' || c = '\n'

def trim (text : String) : String := String.ofList ((text.toList.dropWhile isBlank).rdropWhile isBlank)

def sign : List Char → List Char
  | '-' :: _ => ['-']
  | '+' :: _ => ['+']
  | _ => []

/-- `std::stoi` with the number of chars that it reads; it throws without digits
and when the number is no `int`. -/
def stoi (text : String) : Option (Int × Nat) :=
  let spaces := text.toList.takeWhile isSpace
  let rest := text.toList.dropWhile isSpace
  let unsigned := rest.drop (sign rest).length
  let number : Int := if sign rest = ['-'] then -(digits unsigned : Int) else digits unsigned
  if unsigned.takeWhile Char.isDigit = [] then none
  else if number < -2147483648 ∨ 2147483647 < number then none
  else some (number, spaces.length + (sign rest).length + (unsigned.takeWhile Char.isDigit).length)

def parseInt (text : String) : Option Int :=
  match stoi text with
  | some (number, pos) => if pos ≠ text.toList.length then none else some number
  | none => none

namespace ConnectionPoolConfig

/-- The result is `none` when the function returns false; the object is then
unchanged. -/
def assignConfigItem (key value : String) (s : ConnectionPoolConfig) : Option ConnectionPoolConfig :=
  if key = "ip" then some { s with dbConfig := { s.dbConfig with ip := value }, hasIp := true }
  else if key = "port" then
    match parseInt value with
    | some port =>
      if port ≤ 0 ∨ 65535 < port then none
      else some { s with dbConfig := { s.dbConfig with port := (port % 65536).toNat }, hasPort := true }
    | none => none
  else if key = "username" then some { s with dbConfig := { s.dbConfig with username := value }, hasUsername := true }
  else if key = "password" then some { s with dbConfig := { s.dbConfig with password := value }, hasPassword := true }
  else if key = "dbname" then some { s with dbConfig := { s.dbConfig with dbname := value }, hasDbName := true }
  else if key = "initSize" then
    match parseInt value with
    | some initSize =>
      if initSize ≤ 0 then none
      else some { s with poolConfig := { s.poolConfig with initSize := initSize }, hasInitSize := true }
    | none => none
  else if key = "maxSize" then
    match parseInt value with
    | some maxSize =>
      if maxSize ≤ 0 then none
      else some { s with poolConfig := { s.poolConfig with maxSize := maxSize }, hasMaxSize := true }
    | none => none
  else if key = "connectionTimeout" then
    match parseInt value with
    | some timeout =>
      if timeout ≤ 0 then none
      else some { s with poolConfig := { s.poolConfig with connectionTimeout := timeout }, hasConnectionTimeout := true }
    | none => none
  else none

def validate (s : ConnectionPoolConfig) : Bool :=
  if !s.hasIp || s.dbConfig.ip = "" then false
  else if !s.hasPort then false
  else if !s.hasUsername || s.dbConfig.username = "" then false
  else if !s.hasPassword then false
  else if !s.hasDbName || s.dbConfig.dbname = "" then false
  else if !s.hasInitSize || s.poolConfig.initSize ≤ 0 then false
  else if !s.hasMaxSize || s.poolConfig.maxSize < s.poolConfig.initSize then false
  else if !s.hasConnectionTimeout || s.poolConfig.connectionTimeout ≤ 0 then false
  else true

def getEnvOrDefault (getenv : String → Option String) (name defaultValue : String) : String :=
  match getenv name with
  | some value => if value = "" then defaultValue else value
  | none => defaultValue

def loadFromEnvironment (getenv : String → Option String) (s : ConnectionPoolConfig) : ConnectionPoolConfig :=
  let ip := getEnvOrDefault getenv "MYSQL_HOST" "127.0.0.1"
  let username := getEnvOrDefault getenv "MYSQL_USER" "chatserver_app"
  let password := getEnvOrDefault getenv "MYSQL_PASSWORD" "chatserver_dev_password"
  let dbname := getEnvOrDefault getenv "MYSQL_DATABASE" "chatserver"
  let port := (parseInt (getEnvOrDefault getenv "MYSQL_PORT" "3306")).filter fun port => 0 < port ∧ port ≤ 65535
  { dbConfig :=
      { ip := ip, port := (port.map fun port => (port % 65536).toNat).getD s.dbConfig.port, username := username,
        password := password, dbname := dbname }
    poolConfig := { initSize := 10, maxSize := 1024, connectionTimeout := 1000 }
    hasIp := true, hasPort := s.hasPort || port.isSome, hasUsername := true, hasPassword := true, hasDbName := true
    hasInitSize := true, hasMaxSize := true, hasConnectionTimeout := true }

def splitEq (text : String) : Option (String × String) :=
  match text.toList.dropWhile (· ≠ '=') with
  | [] => none
  | _ :: rest => some (String.ofList (text.toList.takeWhile (· ≠ '=')), String.ofList rest)

def readLine (line : String) (s : ConnectionPoolConfig) : Option ConnectionPoolConfig :=
  let trimmedLine := trim line
  if trimmedLine = "" ∨ trimmedLine.toList.head? = some '#' then some s
  else match splitEq trimmedLine with
    | none => none
    | some (key, value) => if trim key = "" then none else assignConfigItem (trim key) (trim value) s

def readLines : List String → ConnectionPoolConfig → Bool × ConnectionPoolConfig
  | [], s => (true, s)
  | line :: lines, s =>
    match readLine line s with
    | some t => readLines lines t
    | none => (false, s)

/-- The lines that `std::getline` gives: the text after the last newline is a
line when it is not empty. -/
def lines (text : String) : List String :=
  let pieces := cut '\n' text.toList
  (pieces.1 ++ if pieces.2 = [] then [] else [pieces.2]).map String.ofList

/-- `file` is the text of the file, when it can be opened. -/
def loadConfig (file : Option String) (getenv : String → Option String) (s : ConnectionPoolConfig) :
    Bool × ConnectionPoolConfig :=
  match file with
  | none =>
    let t := loadFromEnvironment getenv s
    (t.validate, t)
  | some text =>
    match readLines (lines text) s with
    | (true, t) => (t.validate, t)
    | (false, t) => (false, t)

end ConnectionPoolConfig

/-! The grammar of the file. -/

open ConnectionPoolConfig

inductive Key
  | ip | port | username | password | dbname | initSize | maxSize | connectionTimeout
  deriving DecidableEq, Repr

def Key.name : Key → String
  | .ip => "ip"
  | .port => "port"
  | .username => "username"
  | .password => "password"
  | .dbname => "dbname"
  | .initSize => "initSize"
  | .maxSize => "maxSize"
  | .connectionTimeout => "connectionTimeout"

def Number (text : String) (n : Int) : Prop := stoi text = some (n, text.toList.length)

def Legal : Key → String → Prop
  | .port, value => ∃ n, Number value n ∧ 1 ≤ n ∧ n ≤ 65535
  | .initSize, value | .maxSize, value | .connectionTimeout, value => ∃ n, Number value n ∧ 1 ≤ n
  | .ip, _ | .username, _ | .password, _ | .dbname, _ => True

def Ignored (line : String) : Prop := trim line = "" ∨ (trim line).toList.head? = some '#'

instance (line : String) : Decidable (Ignored line) := inferInstanceAs (Decidable (_ ∨ _))

def valueOf (key : Key) (line : String) : Option String :=
  if Ignored line then none
  else (splitEq (trim line)).bind fun (k, v) => if trim k = key.name then some (trim v) else none

def last (key : Key) (ls : List String) : Option String := (ls.filterMap (valueOf key)).getLast?

/-- The line is for one of the keys and has a legal value. -/
def Assigns (line : String) : Prop := ∃ key value, valueOf key line = some value ∧ Legal key value

structure Grammar (ls : List String) : Prop where
  assigns : ∀ line ∈ ls, ¬ Ignored line → Assigns line
  all : ∀ key, ∃ value, last key ls = some value
  nonempty : last .ip ls ≠ some "" ∧ last .username ls ≠ some "" ∧ last .dbname ls ≠ some ""
  sizes : ∃ initSize maxSize i m, last .initSize ls = some initSize ∧ last .maxSize ls = some maxSize ∧
    Number initSize i ∧ Number maxSize m ∧ i ≤ m

/-- Every field is the value of the last line for its key. -/
structure Values (ls : List String) (s : ConnectionPoolConfig) : Prop where
  ip : last .ip ls = some s.dbConfig.ip
  port : ∃ value, last .port ls = some value ∧ Number value s.dbConfig.port
  username : last .username ls = some s.dbConfig.username
  password : last .password ls = some s.dbConfig.password
  dbname : last .dbname ls = some s.dbConfig.dbname
  initSize : ∃ value, last .initSize ls = some value ∧ Number value s.poolConfig.initSize
  maxSize : ∃ value, last .maxSize ls = some value ∧ Number value s.poolConfig.maxSize
  connectionTimeout : ∃ value, last .connectionTimeout ls = some value ∧ Number value s.poolConfig.connectionTimeout

variable {key key' : Key} {value line : String} {ls : List String} {s t : ConnectionPoolConfig}

theorem name_injective : Function.Injective Key.name := by
  intro key key' h
  cases key <;> cases key' <;> first | rfl | exact absurd h (by decide)

theorem parseInt_eq_some {text : String} {n : Int} : parseInt text = some n ↔ Number text n := by
  unfold parseInt Number
  split
  · rename_i number pos h
    rw [h]
    by_cases hp : pos = text.toList.length
    · simp [hp]
    · simp [hp]
  · rename_i h
    simp [h]

def has : Key → ConnectionPoolConfig → Bool
  | .ip, s => s.hasIp
  | .port, s => s.hasPort
  | .username, s => s.hasUsername
  | .password, s => s.hasPassword
  | .dbname, s => s.hasDbName
  | .initSize, s => s.hasInitSize
  | .maxSize, s => s.hasMaxSize
  | .connectionTimeout, s => s.hasConnectionTimeout

def field : Key → ConnectionPoolConfig → String ⊕ Int
  | .ip, s => .inl s.dbConfig.ip
  | .port, s => .inr s.dbConfig.port
  | .username, s => .inl s.dbConfig.username
  | .password, s => .inl s.dbConfig.password
  | .dbname, s => .inl s.dbConfig.dbname
  | .initSize, s => .inr s.poolConfig.initSize
  | .maxSize, s => .inr s.poolConfig.maxSize
  | .connectionTimeout, s => .inr s.poolConfig.connectionTimeout

def Means (value : String) : String ⊕ Int → Prop
  | .inl text => text = value
  | .inr n => Number value n

structure Stored (key : Key) (value : String) (s : ConnectionPoolConfig) : Prop where
  flag : has key s = true
  means : Means value (field key s)

structure Assigned (key : Key) (value : String) (s t : ConnectionPoolConfig) : Prop where
  stored : Stored key value t
  others : ∀ key', key' ≠ key → has key' t = has key' s ∧ field key' t = field key' s

theorem assigned_of (hs : Stored key value t)
    (h : ∀ key', key' = key ∨ has key' t = has key' s ∧ field key' t = field key' s) : Assigned key value s t :=
  ⟨hs, fun key' hne => (h key').resolve_left hne⟩

theorem assign_number (bad : Int → Prop) [DecidablePred bad] (set : Int → ConnectionPoolConfig)
    (hl : Legal key value ↔ ∃ n, Number value n ∧ ¬ bad n)
    (he : s.assignConfigItem key.name value = match parseInt value with
      | some n => if bad n then none else some (set n)
      | none => none)
    (hs : ∀ n, Number value n → ¬ bad n → Assigned key value s (set n)) :
    (Legal key value ∧ ∃ t, s.assignConfigItem key.name value = some t ∧ Assigned key value s t) ∨
    (¬ Legal key value ∧ s.assignConfigItem key.name value = none) := by
  rw [hl, he]
  cases hp : parseInt value with
  | none =>
    refine Or.inr ⟨fun ⟨n, hn, _⟩ => ?_, rfl⟩
    rw [parseInt_eq_some.mpr hn] at hp
    cases hp
  | some n =>
    have hn := parseInt_eq_some.mp hp
    by_cases hb : bad n
    · refine Or.inr ⟨fun ⟨m, hm, hg⟩ => ?_, if_pos hb⟩
      rw [← parseInt_eq_some, hp] at hm
      cases hm
      exact hg hb
    · exact Or.inl ⟨⟨n, hn, hb⟩, set n, if_neg hb, hs n hn hb⟩

theorem assignConfigItem_cases (key : Key) (value : String) (s : ConnectionPoolConfig) :
    (Legal key value ∧ ∃ t, s.assignConfigItem key.name value = some t ∧ Assigned key value s t) ∨
    (¬ Legal key value ∧ s.assignConfigItem key.name value = none) := by
  cases key with
  | ip | username | password | dbname =>
    simp only [assignConfigItem, Key.name, String.reduceEq, if_false, if_true]
    refine Or.inl ⟨trivial, _, rfl, assigned_of ⟨rfl, rfl⟩ fun key' => ?_⟩
    cases key' <;> first | exact Or.inl rfl | exact Or.inr ⟨rfl, rfl⟩
  | port =>
    refine assign_number (fun port => port ≤ 0 ∨ 65535 < port)
      (fun port => { s with dbConfig := { s.dbConfig with port := (port % 65536).toNat }, hasPort := true }) ?_ ?_
      fun n hn hb => assigned_of ⟨rfl, ?_⟩ fun key' => ?_
    · simp only [Legal, not_or, Int.not_le, Int.not_lt]
      rfl
    · simp only [assignConfigItem, Key.name, String.reduceEq, if_false, if_true]
    · have hm : ((n % 65536).toNat : Int) = n := by omega
      change Number value ((n % 65536).toNat : Int)
      rw [hm]
      exact hn
    · cases key' <;> first | exact Or.inl rfl | exact Or.inr ⟨rfl, rfl⟩
  | initSize =>
    refine assign_number (fun n => n ≤ 0)
      (fun n => { s with poolConfig := { s.poolConfig with initSize := n }, hasInitSize := true }) ?_ ?_
      fun n hn _ => assigned_of ⟨rfl, hn⟩ fun key' => ?_
    · simp only [Legal, Int.not_le]
      rfl
    · simp only [assignConfigItem, Key.name, String.reduceEq, if_false, if_true]
    · cases key' <;> first | exact Or.inl rfl | exact Or.inr ⟨rfl, rfl⟩
  | maxSize =>
    refine assign_number (fun n => n ≤ 0)
      (fun n => { s with poolConfig := { s.poolConfig with maxSize := n }, hasMaxSize := true }) ?_ ?_
      fun n hn _ => assigned_of ⟨rfl, hn⟩ fun key' => ?_
    · simp only [Legal, Int.not_le]
      rfl
    · simp only [assignConfigItem, Key.name, String.reduceEq, if_false, if_true]
    · cases key' <;> first | exact Or.inl rfl | exact Or.inr ⟨rfl, rfl⟩
  | connectionTimeout =>
    refine assign_number (fun n => n ≤ 0)
      (fun n => { s with poolConfig := { s.poolConfig with connectionTimeout := n }, hasConnectionTimeout := true }) ?_ ?_
      fun n hn _ => assigned_of ⟨rfl, hn⟩ fun key' => ?_
    · simp only [Legal, Int.not_le]
      rfl
    · simp only [assignConfigItem, Key.name, String.reduceEq, if_false, if_true]
    · cases key' <;> first | exact Or.inl rfl | exact Or.inr ⟨rfl, rfl⟩

theorem assignConfigItem_unknown {name : String} (h : ∀ key : Key, name ≠ key.name) (value : String)
    (s : ConnectionPoolConfig) : s.assignConfigItem name value = none := by
  have hip := h .ip
  have hport := h .port
  have husername := h .username
  have hpassword := h .password
  have hdbname := h .dbname
  have hinitSize := h .initSize
  have hmaxSize := h .maxSize
  have htimeout := h .connectionTimeout
  simp only [Key.name] at *
  simp only [assignConfigItem, hip, hport, husername, hpassword, hdbname, hinitSize, hmaxSize, htimeout,
    if_false]

/-! A line, and then all lines. -/

theorem valueOf_ignored (h : Ignored line) (key : Key) : valueOf key line = none := if_pos h

theorem valueOf_eq_some {k v : String} (h : ¬ Ignored line)
    (hs : splitEq (trim line) = some (k, v)) :
    valueOf key line = some value ↔ trim k = key.name ∧ trim v = value := by
  rw [valueOf, if_neg h, hs, Option.bind_some]
  exact Option.ite_none_right_eq_some.trans (and_congr_right fun _ => Option.some_inj)

theorem valueOf_none (h : ¬ Ignored line) (hs : splitEq (trim line) = none) (key : Key) :
    valueOf key line = none := by
  rw [valueOf, if_neg h, hs, Option.bind_none]

theorem key_unique {value' : String} (h : valueOf key line = some value) (h' : valueOf key' line = some value') :
    key' = key := by
  have hi : ¬ Ignored line := fun hi => by
    rw [valueOf_ignored hi] at h
    cases h
  cases hs : splitEq (trim line) with
  | none =>
    rw [valueOf_none hi hs] at h
    cases h
  | some kv =>
    obtain ⟨hk, -⟩ := (valueOf_eq_some hi hs).mp h
    obtain ⟨hk', -⟩ := (valueOf_eq_some hi hs).mp h'
    exact name_injective (hk'.symm.trans hk)

/-- What the loop does with a line. -/
theorem readLine_cases (line : String) (s : ConnectionPoolConfig) :
    (Ignored line ∧ s.readLine line = some s) ∨
    (¬ Ignored line ∧ ∃ key value t, valueOf key line = some value ∧ Legal key value ∧ s.readLine line = some t ∧
      Assigned key value s t) ∨
    (¬ Ignored line ∧ ¬ Assigns line ∧ s.readLine line = none) := by
  by_cases hi : Ignored line
  · exact Or.inl ⟨hi, if_pos hi⟩
  refine Or.inr ?_
  have hread : s.readLine line = match splitEq (trim line) with
      | none => none
      | some (key, value) => if trim key = "" then none else s.assignConfigItem (trim key) (trim value) := if_neg hi
  cases hs : splitEq (trim line) with
  | none =>
    rw [hs] at hread
    refine Or.inr ⟨hi, fun ⟨key, value, hv, _⟩ => ?_, hread⟩
    rw [valueOf_none hi hs] at hv
    cases hv
  | some kv =>
    obtain ⟨k, v⟩ := kv
    rw [hs] at hread
    by_cases hk : ∃ key : Key, trim k = key.name
    · obtain ⟨key, hk⟩ := hk
      have hv : valueOf key line = some (trim v) := (valueOf_eq_some hi hs).mpr ⟨hk, rfl⟩
      have hne : ¬ trim k = "" := by
        rw [hk]
        cases key <;> decide
      obtain ⟨hl, t, ht, ha⟩ | ⟨hl, hn⟩ := assignConfigItem_cases key (trim v) s
      · exact Or.inl ⟨hi, key, trim v, t, hv, hl, hread.trans ((if_neg hne).trans (hk ▸ ht)), ha⟩
      · refine Or.inr ⟨hi, fun ⟨key', value', hv', hl'⟩ => hl ?_, hread.trans ((if_neg hne).trans (hk ▸ hn))⟩
        cases key_unique hv hv'
        rw [hv] at hv'
        cases hv'
        exact hl'
    · have hun := assignConfigItem_unknown (fun key h => hk ⟨key, h⟩) (trim v) s
      refine Or.inr ⟨hi, fun ⟨key, value, hv, _⟩ => hk ⟨key, ((valueOf_eq_some hi hs).mp hv).1⟩, hread.trans ?_⟩
      change (if trim k = "" then none else _) = none
      rw [hun]
      exact ite_self none

theorem last_concat (key : Key) (ls : List String) (line : String) :
    last key (ls ++ [line]) = (valueOf key line).or (last key ls) := by
  rw [last, List.filterMap_append, List.getLast?_append, last, List.filterMap_cons, List.filterMap_nil]
  cases valueOf key line with
  | none => rfl
  | some v => rfl

structure Filled (ls : List String) (s : ConnectionPoolConfig) : Prop where
  missing : ∀ key, last key ls = none → has key s = false
  stored : ∀ key value, last key ls = some value → Stored key value s

theorem filled_ignored (h : Filled ls s) (hi : Ignored line) : Filled (ls ++ [line]) s := by
  have hl : ∀ key, last key (ls ++ [line]) = last key ls := fun key => by
    rw [last_concat, valueOf_ignored hi]
    rfl
  refine ⟨fun key hn => h.missing key ?_, fun key value hs => h.stored key value ?_⟩
  · rw [← hl, hn]
  · rw [← hl, hs]

theorem filled_assigned (h : Filled ls s) (hv : valueOf key line = some value) (ha : Assigned key value s t) :
    Filled (ls ++ [line]) t := by
  have hkey : last key (ls ++ [line]) = some value := by
    rw [last_concat, hv]
    rfl
  have hother : ∀ key', key' ≠ key → last key' (ls ++ [line]) = last key' ls := by
    intro key' hne
    rw [last_concat]
    cases hv' : valueOf key' line with
    | none => rfl
    | some value' => exact absurd (key_unique hv hv') hne
  refine ⟨fun key' hn => ?_, fun key' value' hs => ?_⟩
  · by_cases hk : key' = key
    · rw [hk, hkey] at hn
      cases hn
    · rw [(ha.others key' hk).1]
      exact h.missing key' ((hother key' hk).symm.trans hn)
  · by_cases hk : key' = key
    · rw [hk, hkey] at hs
      cases hs
      rw [hk]
      exact ha.stored
    · obtain ⟨hflag, hmeans⟩ := h.stored key' value' ((hother key' hk).symm.trans hs)
      obtain ⟨hhas, hfield⟩ := ha.others key' hk
      exact ⟨hhas.trans hflag, by rw [hfield]; exact hmeans⟩

/-- The loop comes to the end just when every line is ignored or assigns. -/
theorem readLines_iff (ls : List String) (s : ConnectionPoolConfig) :
    (readLines ls s).1 = true ↔ ∀ line ∈ ls, ¬ Ignored line → Assigns line := by
  induction ls generalizing s with
  | nil => exact iff_of_true rfl fun line hl => absurd hl List.not_mem_nil
  | cons line ls ih =>
    rw [List.forall_mem_cons, readLines]
    obtain ⟨hi, hr⟩ | ⟨-, key, value, t, hv, hl, hr, -⟩ | ⟨hi, ha, hr⟩ := readLine_cases line s
    · simp only [hr]
      rw [ih]
      exact (and_iff_right fun hn => absurd hi hn).symm
    · simp only [hr]
      rw [ih]
      exact (and_iff_right fun _ => ⟨key, value, hv, hl⟩).symm
    · simp only [hr]
      exact iff_of_false Bool.false_ne_true fun h => ha (h.1 hi)

theorem readLines_filled {done : List String} (hf : Filled done s) (h : (readLines ls s).1 = true) :
    Filled (done ++ ls) (readLines ls s).2 := by
  induction ls generalizing done s with
  | nil =>
    rw [List.append_nil]
    exact hf
  | cons line ls ih =>
    rw [readLines] at h ⊢
    have hd : done ++ line :: ls = done ++ [line] ++ ls := by rw [List.append_assoc, List.singleton_append]
    rw [hd]
    obtain ⟨hi, hr⟩ | ⟨-, key, value, t, hv, hl, hr, ha⟩ | ⟨hi, ha, hr⟩ := readLine_cases line s
    · simp only [hr] at h ⊢
      exact ih (filled_ignored hf hi) h
    · simp only [hr] at h ⊢
      exact ih (filled_assigned hf hv ha) h
    · simp only [hr] at h
      cases h

/-! The checks at the end. -/

theorem validate_iff (s : ConnectionPoolConfig) : s.validate = true ↔ (∀ key, has key s = true) ∧
    s.dbConfig.ip ≠ "" ∧ s.dbConfig.username ≠ "" ∧ s.dbConfig.dbname ≠ "" ∧ 0 < s.poolConfig.initSize ∧
    s.poolConfig.initSize ≤ s.poolConfig.maxSize ∧ 0 < s.poolConfig.connectionTimeout := by
  have hall : (∀ key, has key s = true) ↔ s.hasIp = true ∧ s.hasPort = true ∧ s.hasUsername = true ∧
      s.hasPassword = true ∧ s.hasDbName = true ∧ s.hasInitSize = true ∧ s.hasMaxSize = true ∧
      s.hasConnectionTimeout = true := by
    refine ⟨fun h => ⟨h .ip, h .port, h .username, h .password, h .dbname, h .initSize, h .maxSize, h .connectionTimeout⟩,
      fun ⟨hip, hport, huser, hpass, hdb, hinit, hmax, htime⟩ key => ?_⟩
    cases key <;> assumption
  rw [hall, validate]
  grind

theorem legal_of_last (ha : ∀ line ∈ ls, ¬ Ignored line → Assigns line) (h : last key ls = some value) :
    Legal key value := by
  obtain ⟨line, hm, hv⟩ := List.mem_filterMap.mp (List.mem_of_getLast? h)
  have hi : ¬ Ignored line := fun hi => by
    rw [valueOf_ignored hi] at hv
    cases hv
  obtain ⟨key', value', hv', hl⟩ := ha line hm hi
  cases key_unique hv hv'
  rw [hv] at hv'
  cases hv'
  exact hl

theorem number_of_filled (hf : Filled ls s) (h : last key ls = some value) {n : Int} (hn : field key s = .inr n) :
    Number value n := by
  have hm := (hf.stored key value h).means
  rw [hn] at hm
  exact hm

theorem text_of_filled (hf : Filled ls s) (h : last key ls = some value) {text : String} (ht : field key s = .inl text) :
    last key ls = some text := by
  have hm := (hf.stored key value h).means
  rw [ht] at hm
  rw [h]
  exact congrArg some (Eq.symm hm)

theorem number_unique {n m : Int} (h : Number value n) (h' : Number value m) : n = m :=
  congrArg Prod.fst (Option.some.inj (Eq.trans (Eq.symm h) h'))

theorem values_of_filled (hf : Filled ls s) (hall : ∀ key, ∃ value, last key ls = some value) : Values ls s := by
  have htext {key : Key} {text : String} (ht : field key s = .inl text) : last key ls = some text := by
    obtain ⟨value, h⟩ := hall key
    exact text_of_filled hf h ht
  have hnumber {key : Key} {n : Int} (hn : field key s = .inr n) :
      ∃ value, last key ls = some value ∧ Number value n := by
    obtain ⟨value, h⟩ := hall key
    exact ⟨value, h, number_of_filled hf h hn⟩
  exact ⟨htext rfl, hnumber rfl, htext rfl, htext rfl, htext rfl, hnumber rfl, hnumber rfl, hnumber rfl⟩

theorem grammar_iff (hf : Filled ls s) (ha : ∀ line ∈ ls, ¬ Ignored line → Assigns line) :
    s.validate = true ↔ Grammar ls := by
  rw [validate_iff]
  constructor
  · intro ⟨hflag, hip, huser, hdb, hinit, hle, htime⟩
    have hall : ∀ key, ∃ value, last key ls = some value := by
      intro key
      rw [← Option.isSome_iff_exists, Option.isSome_iff_ne_none]
      intro hn
      have hm := hf.missing key hn
      rw [hflag key] at hm
      cases hm
    have hv := values_of_filled hf hall
    have hne {key : Key} {text : String} (hl : last key ls = some text) (ht : text ≠ "") : last key ls ≠ some "" := by
      rw [hl]
      exact fun h => ht (Option.some.inj h)
    obtain ⟨initSize, hi, hni⟩ := hv.initSize
    obtain ⟨maxSize, hm, hnm⟩ := hv.maxSize
    exact ⟨ha, hall, ⟨hne hv.ip hip, hne hv.username huser, hne hv.dbname hdb⟩,
      ⟨initSize, maxSize, _, _, hi, hm, hni, hnm, hle⟩⟩
  · intro hg
    have hv := values_of_filled hf hg.all
    have hne {key : Key} {text : String} (hl : last key ls = some text) (hn : last key ls ≠ some "") : text ≠ "" := by
      rintro rfl
      exact hn hl
    have hpos {value : String} {n : Int} (hl : ∃ m, Number value m ∧ 1 ≤ m) (hn : Number value n) : 0 < n := by
      obtain ⟨m, hm, h1⟩ := hl
      rw [number_unique hn hm]
      exact h1
    obtain ⟨vi, hi, hni⟩ := hv.initSize
    obtain ⟨vm, hm, hnm⟩ := hv.maxSize
    obtain ⟨vt, ht, hnt⟩ := hv.connectionTimeout
    refine ⟨fun key => ?_, hne hv.ip hg.nonempty.1, hne hv.username hg.nonempty.2.1, hne hv.dbname hg.nonempty.2.2,
      hpos (legal_of_last ha hi) hni, ?_, hpos (legal_of_last ha ht) hnt⟩
    · obtain ⟨value, h⟩ := hg.all key
      exact (hf.stored key value h).flag
    · obtain ⟨vi', vm', i, m, hi', hm', hni', hnm', hle⟩ := hg.sizes
      cases hi.symm.trans hi'
      cases hm.symm.trans hm'
      rw [number_unique hni hni', number_unique hnm hnm']
      exact hle

theorem filled_fresh (port : Nat) : Filled [] (fresh port) := by
  refine ⟨fun key _ => ?_, fun key value h => ?_⟩
  · cases key <;> rfl
  · cases h

theorem loadConfig_some (text : String) (getenv : String → Option String) (s : ConnectionPoolConfig) :
    loadConfig (some text) getenv s =
      ((readLines (lines text) s).1 &&
        (readLines (lines text) s).2.validate,
      (readLines (lines text) s).2) := by
  rcases h : readLines (lines text) s with ⟨ok, t⟩
  cases ok with
  | true => simp only [loadConfig, h, Bool.true_and]
  | false => simp only [loadConfig, h, Bool.false_and]

theorem loadConfig_iff (text : String) (getenv : String → Option String) (port : Nat) :
    (loadConfig (some text) getenv (fresh port)).1 = true ↔
      Grammar (lines text) := by
  have hiff := readLines_iff (lines text) (fresh port)
  rw [loadConfig_some, Bool.and_eq_true]
  constructor
  · intro ⟨hok, hv⟩
    exact (grammar_iff (readLines_filled (filled_fresh port) hok) (hiff.mp hok)).mp hv
  · intro hg
    have hok := hiff.mpr hg.assigns
    exact ⟨hok, (grammar_iff (readLines_filled (filled_fresh port) hok) hg.assigns).mpr hg⟩

theorem loadConfig_values {text : String} {getenv : String → Option String} {port : Nat}
    (h : (loadConfig (some text) getenv (fresh port)).1 = true) :
    Values (lines text) (loadConfig (some text) getenv (fresh port)).2 := by
  have hg := (loadConfig_iff text getenv port).mp h
  have hok := (readLines_iff (lines text) (fresh port)).mpr hg.assigns
  rw [loadConfig_some]
  exact values_of_filled (readLines_filled (filled_fresh port) hok) hg.all

theorem getEnvOrDefault_ne {getenv : String → Option String} {name defaultValue : String} (h : defaultValue ≠ "") :
    getEnvOrDefault getenv name defaultValue ≠ "" := by
  unfold getEnvOrDefault
  split
  · split
    · exact h
    · assumption
  · exact h

/-- Without a file the port is the only value that the checks can refuse. -/
theorem environment_iff (getenv : String → Option String) (port : Nat) :
    (loadConfig none getenv (fresh port)).1 = true ↔
      Legal .port (getEnvOrDefault getenv "MYSQL_PORT" "3306") := by
  have hload : (loadConfig none getenv (fresh port)).1 =
      (loadFromEnvironment getenv (fresh port)).validate := rfl
  have hport : (loadFromEnvironment getenv (fresh port)).hasPort = true ↔
      Legal .port (getEnvOrDefault getenv "MYSQL_PORT" "3306") := by
    simp [loadFromEnvironment, fresh, Legal, ← parseInt_eq_some, Option.isSome_filter,
      Option.any_eq_true]
    rfl
  rw [hload, validate_iff, ← hport]
  constructor
  · exact fun h => h.1 .port
  · intro hp
    refine ⟨fun key => ?_, getEnvOrDefault_ne (by decide), getEnvOrDefault_ne (by decide), getEnvOrDefault_ne (by decide),
      ?_, ?_, ?_⟩
    rotate_left
    · exact (by decide : (0 : Int) < 10)
    · exact (by decide : (10 : Int) ≤ 1024)
    · exact (by decide : (0 : Int) < 1000)
    cases key with
    | port => exact hp
    | _ => rfl

theorem values_unique {ls' : List String} (h : Values ls s) (h' : Values ls' t) (he : ∀ key, last key ls = last key ls') :
    s.dbConfig = t.dbConfig ∧ s.poolConfig = t.poolConfig := by
  have htext {key : Key} {a b : String} (ha : last key ls = some a) (hb : last key ls' = some b) : a = b :=
    Option.some.inj (ha.symm.trans ((he key).trans hb))
  have hnumber {key : Key} {n m : Int} (hn : ∃ value, last key ls = some value ∧ Number value n)
      (hm : ∃ value, last key ls' = some value ∧ Number value m) : n = m := by
    obtain ⟨v, hv, hn⟩ := hn
    obtain ⟨v', hv', hm⟩ := hm
    cases htext hv hv'
    exact number_unique hn hm
  have hport : s.dbConfig.port = t.dbConfig.port := Int.ofNat.inj (hnumber h.port h'.port)
  constructor
  · exact DbConfig.ext (htext h.ip h'.ip) hport (htext h.username h'.username) (htext h.password h'.password)
      (htext h.dbname h'.dbname)
  · exact PoolConfig.ext (hnumber h.initSize h'.initSize) (hnumber h.maxSize h'.maxSize)
      (hnumber h.connectionTimeout h'.connectionTimeout)

theorem grammar_congr {ls' : List String} (hg : Grammar ls) (hl : ∀ line, ¬ Ignored line → (line ∈ ls ↔ line ∈ ls'))
    (he : ∀ key, last key ls = last key ls') : Grammar ls' := by
  refine ⟨fun line hm hi => hg.assigns line ((hl line hi).mpr hm) hi, fun key => ?_, ?_, ?_⟩
  · rw [← he]
    exact hg.all key
  · rw [← he, ← he, ← he]
    exact hg.nonempty
  · rw [← he, ← he]
    exact hg.sizes

/-- A text is accepted just when it keeps to the grammar, and then every field is
the value of the last line for its key. Comments, blank lines and the order of
the lines make no difference where they leave these values. -/
theorem config_parsed (text : String) (getenv : String → Option String) (port : Nat) :
    ((loadConfig (some text) getenv (fresh port)).1 = true ↔
      Grammar (lines text)) ∧
    ((loadConfig (some text) getenv (fresh port)).1 = true →
      Values (lines text) (loadConfig (some text) getenv (fresh port)).2 ∧
      ∀ text' getenv' port',
        (∀ key, last key (lines text) = last key (lines text')) →
        ((∀ line, ¬ Ignored line → (line ∈ lines text ↔ line ∈ lines text')) →
          (loadConfig (some text') getenv' (fresh port')).1 = true) ∧
        ((loadConfig (some text') getenv' (fresh port')).1 = true →
          (loadConfig (some text) getenv (fresh port)).2.dbConfig =
            (loadConfig (some text') getenv' (fresh port')).2.dbConfig ∧
          (loadConfig (some text) getenv (fresh port)).2.poolConfig =
            (loadConfig (some text') getenv' (fresh port')).2.poolConfig)) := by
  refine ⟨loadConfig_iff text getenv port, fun h => ⟨loadConfig_values h, ?_⟩⟩
  refine fun text' getenv' port' he => ⟨fun hl => ?_, ?_⟩
  · exact (loadConfig_iff text' getenv' port').mpr (grammar_congr ((loadConfig_iff text getenv port).mp h) hl he)
  · exact fun h' => values_unique (loadConfig_values h) (loadConfig_values h') he

def sample : String :=
  "# pool\nip = 127.0.0.1\r\nport=3306\nusername=u\npassword=a=b\n\ndbname=chat\n" ++
    "initSize=5\nmaxSize=3\nmaxSize= +9\nconnectionTimeout=100"

theorem config_parsed_sample : ∃ s, loadConfig (some sample) (fun _ => none) (fresh 0) = (true, s) ∧
    Values (lines sample) s ∧ s.dbConfig = ⟨"127.0.0.1", 3306, "u", "a=b", "chat"⟩ ∧
    s.poolConfig = ⟨5, 9, 100⟩ := by
  have hs : loadConfig (some sample) (fun _ => none) (fresh 0) =
      (true, ⟨⟨"127.0.0.1", 3306, "u", "a=b", "chat"⟩, ⟨5, 9, 100⟩, true, true, true, true, true, true, true, true⟩) := by
    decide +kernel
  have hv := ((config_parsed sample (fun _ => none) 0).2 (congrArg Prod.fst hs)).1
  rw [hs] at hv
  exact ⟨_, hs, hv, rfl, rfl⟩

end BridgeIM.Db.ConfigFile
