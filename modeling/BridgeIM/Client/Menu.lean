import BridgeIM.Client.LoginData
import BridgeIM.Client.Requests
import BridgeIM.Lib.Machine
import Mathlib.Algebra.GroupWithZero.Nat

namespace BridgeIM.Client

open CString Db Lib Model.UserModel Server Requests

def size (cs : List Char) : Nat := (cs.map Char.utf8Size).sum

/-- What follows the first `n` bytes of a text; a char that they cut is left in it. -/
def skip : Nat → List Char → List Char
  | _, [] => []
  | n, c :: cs => if c.utf8Size ≤ n then skip (n - c.utf8Size) cs else c :: cs

/-- `mainMenu` with the rest of the standard input, which is UTF-8 text, the flags
of `std::cin`, and the buffers that `send` has been called with. -/
structure Menu where
  input : List Char
  eof : Bool := false
  fail : Bool := false
  isMainMenuRuning : Bool := true
  sends : List String := []
  deriving DecidableEq, Repr

namespace Menu

/-- `std::cin.getline(buffer, n)`. A line of `n` bytes or more makes it fail; what
is then in the buffer is not used. -/
def getline (n : Nat) (s : Menu) : String × Menu :=
  let line := s.input.takeWhile (· ≠ '\n')
  if s.eof ∨ s.fail then ("", { s with fail := true })
  else if n ≤ size line then ("", { s with input := skip (n - 1) s.input, fail := true })
  else match s.input.dropWhile (· ≠ '\n') with
    | [] => (String.ofList line, { s with input := [], eof := true, fail := line = [] })
    | _ :: rest => (String.ofList line, { s with input := rest })

/-- What a turn of the loop finds: the current user, the time, and whether `send`
succeeds. -/
structure Turn where
  g_currentUser : User := {}
  currentTime : String := ""
  sent : Bool := true

def command (commandbuf : String) : String :=
  match splitColon commandbuf with
  | some (command, _) => command
  | none => commandbuf

/-- A turn of the loop of `mainMenu`. Only the handler of `loginout` ends the loop. -/
def turn (s : Menu) (e : Turn) : Option Menu :=
  if s.isMainMenuRuning then
    let (buffer, s) := s.getline 1024
    if s.fail then some { s with isMainMenuRuning := false }
    else
      let commandbuf := cstring buffer
      match mainMenu e.g_currentUser e.currentTime commandbuf with
      | none => some s
      | some js =>
        some { s with sends := s.sends ++ [js.dump ++ "\n"],
                      isMainMenuRuning := !(command commandbuf = "loginout" && e.sent) }
  else none

def menu : Machine Menu Turn := ⟨turn⟩

def start (input : List Char) : Menu := { input := input }

inductive Command
  | chat (n : Int) (m : String)
  | groupchat (n : Int) (m : String)
  | creategroup (name m : String)
  deriving DecidableEq, Repr

namespace Command

def line : Command → String
  | chat n m => "chat:" ++ decimal n ++ ":" ++ m
  | groupchat n m => "groupchat:" ++ decimal n ++ ":" ++ m
  | creategroup name m => "creategroup:" ++ name ++ ":" ++ m

def Valid : Command → Prop
  | chat n _ | groupchat n _ => IsInt n
  | creategroup name _ => ':' ∉ name.toList

/-- The request has what was typed. -/
def Holds : Command → Json → Prop
  | chat n m, js => Sending.msgid js = some EnMsgType.oneChatMsg.code ∧ js.get? "to" = some (.int n) ∧
      js.get? "msg" = some (.str m)
  | groupchat n m, js => Sending.msgid js = some EnMsgType.groupChatMsg.code ∧ js.get? "groupid" = some (.int n) ∧
      js.get? "msg" = some (.str m)
  | creategroup name m, js => Sending.msgid js = some EnMsgType.createGroupMsg.code ∧
      js.get? "groupname" = some (.str name) ∧ js.get? "groupdesc" = some (.str m)

end Command

/-- In a turn a command that is the next line is sent, and the loop goes on with
what follows; the loop ends only at the end of the input and by `loginout`. -/
structure Faithful (s : Menu) (e : Turn) (s' : Menu) : Prop where
  delivers : ∀ c : Command, c.Valid → '\n' ∉ c.line.toList → '\x00' ∉ c.line.toList → ∀ rest,
    s.input = c.line.toList ++ rest → rest = [] ∨ rest.head? = some '\n' → ∃ js, c.Holds js ∧
      s'.sends = s.sends ++ [js.dump ++ "\n"] ∧ s'.isMainMenuRuning = true ∧ s'.input = rest.tail
  leaves : s'.isMainMenuRuning = false →
    s.input = [] ∨ e.sent = true ∧ s'.sends = s.sends ++ [(loginout e.g_currentUser).dump ++ "\n"]

def Fits (input : List Char) : Prop := size (input.takeWhile (· ≠ '\n')) < 1024

/-! The commands. -/

theorem splitColon_append {a : String} (h : ':' ∉ a.toList) (b : String) : splitColon (a ++ ":" ++ b) = some (a, b) := by
  have hc : ∀ c ∈ a.toList, decide (c ≠ ':') = true := fun c hm => by
    rw [decide_eq_true_eq]
    rintro rfl
    exact h hm
  have ht : (a ++ ":" ++ b).toList = a.toList ++ ':' :: b.toList := by
    rw [String.toList_append, String.toList_append, List.append_assoc]
    rfl
  rw [splitColon, ht, List.dropWhile_append_of_pos hc, List.takeWhile_append_of_pos hc]
  simp

theorem colon_not_mem_decimal (n : Int) : ':' ∉ (decimal n).toList := by
  intro h
  obtain h | h := isDigit_of_mem_decimal h
  · exact absurd h (by decide)
  · exact absurd h (by decide)

theorem atoi_decimal {n : Int} (h : IsInt n) : atoi (decimal n) = n := by
  rw [atoi_of_range (by rwa [leadingInt_decimal]), leadingInt_decimal]

theorem mainMenu_command (name : String) (hname : ':' ∉ name.toList) (g_currentUser : User) (currentTime str : String) :
    mainMenu g_currentUser currentTime (name ++ ":" ++ str) = commandHandler g_currentUser currentTime str name ∧
    command (name ++ ":" ++ str) = name := by
  rw [mainMenu, command, splitColon_append hname]
  exact ⟨rfl, rfl⟩

theorem mainMenu_line {c : Command} (hc : c.Valid) (g_currentUser : User) (currentTime : String) :
    ∃ js, mainMenu g_currentUser currentTime c.line = some js ∧ c.Holds js ∧ command c.line ≠ "loginout" := by
  have hassoc : ∀ (command a b : String), command ++ ":" ++ a ++ ":" ++ b = command ++ ":" ++ (a ++ ":" ++ b) := by
    intro command a b
    simp only [String.append_assoc]
  cases c with
  | chat n m =>
    have hl : (Command.chat n m).line = "chat" ++ ":" ++ (decimal n ++ ":" ++ m) := hassoc "chat" (decimal n) m
    obtain ⟨hm, hcmd⟩ := mainMenu_command "chat" (by decide) g_currentUser currentTime (decimal n ++ ":" ++ m)
    rw [hl, hm, hcmd]
    simp only [commandHandler, chat, splitColon_append (colon_not_mem_decimal n), Option.map_some, if_true]
    refine ⟨_, rfl, ⟨?_, ?_, ?_⟩, by decide⟩
    · simp [Sending.msgid, Json.get?_mkObj, EnMsgType.json, EnMsgType.code, Json.toInt?, Json.wrap]
    · simp [Json.get?_mkObj, atoi_decimal hc]
    · simp [Json.get?_mkObj]
  | groupchat n m =>
    have hl : (Command.groupchat n m).line = "groupchat" ++ ":" ++ (decimal n ++ ":" ++ m) :=
      hassoc "groupchat" (decimal n) m
    obtain ⟨hm, hcmd⟩ := mainMenu_command "groupchat" (by decide) g_currentUser currentTime (decimal n ++ ":" ++ m)
    rw [hl, hm, hcmd]
    simp only [commandHandler, groupchat, splitColon_append (colon_not_mem_decimal n), Option.map_some, String.reduceEq,
      if_false, if_true]
    refine ⟨_, rfl, ⟨?_, ?_, ?_⟩, by decide⟩
    · simp [Sending.msgid, Json.get?_mkObj, EnMsgType.json, EnMsgType.code, Json.toInt?, Json.wrap]
    · simp [Json.get?_mkObj, atoi_decimal hc]
    · simp [Json.get?_mkObj]
  | creategroup name m =>
    have hl : (Command.creategroup name m).line = "creategroup" ++ ":" ++ (name ++ ":" ++ m) := hassoc "creategroup" name m
    obtain ⟨hm, hcmd⟩ := mainMenu_command "creategroup" (by decide) g_currentUser currentTime (name ++ ":" ++ m)
    rw [hl, hm, hcmd]
    simp only [commandHandler, creategroup, splitColon_append hc, Option.map_some, String.reduceEq, if_false, if_true]
    refine ⟨_, rfl, ⟨?_, ?_, ?_⟩, by decide⟩
    · simp [Sending.msgid, Json.get?_mkObj, EnMsgType.json, EnMsgType.code, Json.toInt?, Json.wrap]
    · simp [Json.get?_mkObj]
    · simp [Json.get?_mkObj]

theorem loginout_of_command {g_currentUser : User} {currentTime commandbuf : String} {js : Json}
    (h : mainMenu g_currentUser currentTime commandbuf = some js) (hc : command commandbuf = "loginout") :
    js = loginout g_currentUser := by
  have hh : ∀ str, commandHandler g_currentUser currentTime str "loginout" = some (loginout g_currentUser) := fun str => by
    simp only [commandHandler, String.reduceEq, if_false, if_true]
  unfold mainMenu at h
  unfold command at hc
  split at h
  · rename_i command str hs
    rw [hs] at hc
    obtain rfl : command = "loginout" := hc
    rw [hh] at h
    exact (Option.some.inj h).symm
  · rename_i hs
    rw [hs] at hc
    obtain rfl : commandbuf = "loginout" := hc
    rw [hh] at h
    exact (Option.some.inj h).symm

/-! A turn. -/

variable {s s' : Menu} {e : Turn}

/-- While the loop runs, `std::cin` has not failed; after the end of the input
nothing is left of it. -/
structure Live (s : Menu) : Prop where
  fail : s.isMainMenuRuning = true → s.fail = false
  eof : s.eof = true → s.input = []

def next (input : List Char) : List Char := input.takeWhile (· ≠ '\n')

theorem getline_cases (hf : s.fail = false) (he : s.eof = true → s.input = []) :
    ((s.getline 1024).2.fail = true ∧ (s.input = [] ∨ ¬ Fits s.input) ∧
      ((s.getline 1024).2.eof = true → (s.getline 1024).2.input = []) ∧ (s.getline 1024).2.sends = s.sends) ∨
    (s.input ≠ [] ∧ Fits s.input ∧ ∃ eof, s.getline 1024 = (String.ofList (next s.input),
      { s with input := (s.input.dropWhile (· ≠ '\n')).tail, eof := eof }) ∧
      (eof = true → (s.input.dropWhile (· ≠ '\n')).tail = [])) := by
  unfold getline
  by_cases heof : s.eof = true
  · rw [if_pos (Or.inl heof)]
    exact Or.inl ⟨rfl, Or.inl (he heof), fun _ => he heof, rfl⟩
  rw [if_neg (by simp [heof, hf])]
  by_cases hfit : Fits s.input
  · rw [if_neg (Nat.not_le.mpr hfit)]
    cases hd : s.input.dropWhile (· ≠ '\n') with
    | nil =>
      by_cases hn : next s.input = []
      · have hi : s.input = [] := by
          rw [← List.takeWhile_append_dropWhile (p := (· ≠ '\n')) (l := s.input), hd]
          exact (List.append_nil _).trans hn
        refine Or.inl ⟨?_, Or.inl hi, fun _ => rfl, rfl⟩
        exact decide_eq_true hn
      · refine Or.inr ⟨fun hi => hn ?_, hfit, true, ?_, fun _ => rfl⟩
        · rw [hi]
          rfl
        · have hline : decide (s.input.takeWhile (· ≠ '\n') = []) = s.fail := by
            rw [hf]
            exact decide_eq_false hn
          simp only [hline]
          rfl
    | cons c rest =>
      refine Or.inr ⟨fun hi => ?_, hfit, s.eof, rfl, fun h => absurd h heof⟩
      rw [hi] at hd
      cases hd
  · rw [if_pos (Nat.not_lt.mp hfit)]
    exact Or.inl ⟨rfl, Or.inr hfit, fun h => absurd h heof, rfl⟩

theorem turn_cases (h : s.turn e = some s') (hs : Live s) : Live s' ∧
    ((s'.isMainMenuRuning = false ∧ s'.sends = s.sends ∧ (s.input = [] ∨ ¬ Fits s.input)) ∨
      (s.input ≠ [] ∧ Fits s.input ∧ s'.input = (s.input.dropWhile (· ≠ '\n')).tail ∧
        ((mainMenu e.g_currentUser e.currentTime (cstring (String.ofList (next s.input))) = none ∧
          s'.isMainMenuRuning = true ∧ s'.sends = s.sends) ∨
        ∃ js, mainMenu e.g_currentUser e.currentTime (cstring (String.ofList (next s.input))) = some js ∧
          s'.isMainMenuRuning = !(command (cstring (String.ofList (next s.input))) = "loginout" && e.sent) ∧
          s'.sends = s.sends ++ [js.dump ++ "\n"]))) := by
  obtain ⟨hrun, h⟩ := Option.ite_none_right_eq_some.mp h
  have hf := hs.fail hrun
  obtain ⟨hfail, hnot, heof, hsends⟩ | ⟨hne, hfit, eof, hg, heof⟩ := getline_cases hf hs.eof
  · rcases hg : s.getline 1024 with ⟨buffer, u⟩
    rw [hg] at h hfail heof hsends
    simp only at h hfail
    rw [if_pos hfail] at h
    cases h
    exact ⟨⟨fun hr => absurd hr Bool.false_ne_true, heof⟩, Or.inl ⟨rfl, hsends, hnot⟩⟩
  · rw [hg] at h
    simp only [hf, Bool.false_eq_true, if_false] at h
    split at h
    · rename_i hm
      cases h
      exact ⟨⟨fun _ => rfl, heof⟩, Or.inr ⟨hne, hfit, rfl, Or.inl ⟨hm, hrun, rfl⟩⟩⟩
    · rename_i js hm
      cases h
      refine ⟨⟨fun _ => rfl, heof⟩, Or.inr ⟨hne, hfit, rfl, Or.inr ⟨js, hm, ?_, rfl⟩⟩⟩
      dsimp only

theorem next_append {line : List Char} (hn : '\n' ∉ line) {rest : List Char}
    (hr : rest = [] ∨ rest.head? = some '\n') : next (line ++ rest) = line ∧
      (line ++ rest).dropWhile (· ≠ '\n') = rest := by
  have hc : ∀ c ∈ line, decide (c ≠ '\n') = true := fun c hm => by
    rw [decide_eq_true_eq]
    rintro rfl
    exact hn hm
  rw [next, List.takeWhile_append_of_pos hc, List.dropWhile_append_of_pos hc]
  obtain rfl | hr := hr
  · exact ⟨List.append_nil _, rfl⟩
  · obtain ⟨rest', rfl⟩ := List.head?_eq_some_iff.mp hr
    rw [List.takeWhile_cons_of_neg (by decide), List.dropWhile_cons_of_neg (by decide)]
    exact ⟨List.append_nil _, rfl⟩

theorem line_ne_nil (c : Command) : c.line.toList ≠ [] := by
  cases c <;> simp [Command.line, String.toList_append]

theorem faithful_iff (h : menu.step s e = some s') (hs : Live s) : Faithful s e s' ↔ Fits s.input := by
  obtain ⟨hrun, hsends, hnot⟩ | ⟨hne, hfit, hinput, hread⟩ := (turn_cases h hs).2
  · constructor
    · intro hf
      obtain hi | ⟨-, hl⟩ := hf.leaves hrun
      · rw [hi]
        exact Nat.zero_lt_succ 1023
      · rw [hsends] at hl
        exact absurd hl (by simp)
    · intro hfit
      have hi : s.input = [] := hnot.resolve_right fun hn => hn hfit
      refine ⟨fun c _ _ _ rest he _ => ?_, fun _ => Or.inl hi⟩
      rw [hi] at he
      exact absurd (List.append_eq_nil_iff.mp he.symm).1 (line_ne_nil c)
  · refine iff_of_true ⟨fun c hc hn h₀ rest he hr => ?_, fun hrun => Or.inr ?_⟩ hfit
    · obtain ⟨hnext, hdrop⟩ := next_append hn hr
      obtain ⟨js, hm, hh, hcmd⟩ := mainMenu_line hc e.g_currentUser e.currentTime
      rw [he, hdrop] at hinput
      rw [he, hnext, String.ofList_toList, cstring_of_not_mem h₀, hm] at hread
      obtain ⟨hm', -⟩ | ⟨js', hm', hrun, hsends⟩ := hread
      · cases hm'
      · cases hm'
        refine ⟨js, hh, hsends, ?_, hinput⟩
        rw [hrun, decide_eq_false hcmd]
        rfl
    · obtain ⟨-, hrun', -⟩ | ⟨js, hm, hrun', hsends⟩ := hread
      · rw [hrun] at hrun'
        cases hrun'
      · rw [hrun, eq_comm, Bool.not_eq_false', Bool.and_eq_true, decide_eq_true_eq] at hrun'
        refine ⟨hrun'.2, ?_⟩
        rw [hsends, loginout_of_command hm hrun'.1]

theorem turn_runs (h : s.isMainMenuRuning = true) : ∃ s', menu.step s e = some s' := by
  change ∃ s', s.turn e = some s'
  rw [turn, if_pos h]
  dsimp only
  split
  · exact ⟨_, rfl⟩
  · split
    · exact ⟨_, rfl⟩
    · exact ⟨_, rfl⟩

theorem live_run {input : List Char} {es : List Turn} (hr : menu.run (start input) es = some s) : Live s := by
  have h₀ : Live (start input) := ⟨fun _ => rfl, fun h => absurd h Bool.false_ne_true⟩
  have hstep : ∀ s e s', Live s → True → menu.step s e = some s' → Live s' := fun s e s' hl _ h => (turn_cases h hl).1
  exact Machine.run_invariant h₀ hstep (Machine.meets_true _ es) hr

/-- In every turn of every session at the menu. -/
theorem menu_faithful (input : List Char) (es : List Turn) (s : Menu) (hr : menu.run (start input) es = some s) (e : Turn)
    (s' : Menu) (hs : menu.step s e = some s') : Faithful s e s' ↔ Fits s.input := faithful_iff hs (live_run hr)

def typed : List Char := (Command.chat (-7) "a: b").line.toList ++ "\nloginout\n".toList

theorem menu_faithful_typed : ∃ s' js, menu.step (start typed) {} = some s' ∧ (Command.chat (-7) "a: b").Holds js ∧
    s'.sends = [js.dump ++ "\n"] ∧ s'.isMainMenuRuning = true := by
  obtain ⟨s', hs⟩ := turn_runs (s := start typed) (e := {}) rfl
  have hf := (menu_faithful typed [] (start typed) rfl {} s' hs).mpr (by unfold Fits; decide)
  have hi : IsInt (-7) := by decide
  have hn : '\n' ∉ (Command.chat (-7) "a: b").line.toList ∧ '\x00' ∉ (Command.chat (-7) "a: b").line.toList := by decide
  have hr : "\nloginout\n".toList.head? = some '\n' := by decide
  obtain ⟨js, hh, hsends, hrun, -⟩ := hf.delivers (.chat (-7) "a: b") hi hn.1 hn.2 _ rfl (Or.inr hr)
  exact ⟨s', js, hs, hh, hsends, hrun⟩

def long (n : Nat) : List Char := "chat:1:".toList ++ List.replicate n 'a' ++ ['\n']

theorem size_append (a b : List Char) : size (a ++ b) = size a + size b := by
  rw [size, List.map_append, List.sum_append, ← size, ← size]

theorem size_next_long (n : Nat) : size (next (long n)) = 7 + n := by
  have hn : '\n' ∉ "chat:1:".toList ++ List.replicate n 'a' := by
    intro h
    obtain h | h := List.mem_append.mp h
    · exact absurd h (by decide)
    · exact absurd (List.mem_replicate.mp h).2 (by decide)
  have ha : size "chat:1:".toList = 7 := by decide
  have hr : size (List.replicate n 'a') = n := by
    rw [size, List.map_replicate, List.sum_replicate]
    exact Nat.mul_one n
  have hl : next (long n) = "chat:1:".toList ++ List.replicate n 'a' := (next_append hn (Or.inr rfl)).1
  rw [hl, size_append, ha, hr]

/-- A message of 1100 chars is not sent, and the menu is left before the end of
the input. -/
theorem line_dropped : ¬ ∀ (input : List Char) (es : List Turn) (s : Menu), menu.run (start input) es = some s →
    ∀ (e : Turn) (s' : Menu), menu.step s e = some s' → Faithful s e s' := by
  intro h
  obtain ⟨s', hs⟩ := turn_runs (s := start (long 1100)) (e := {}) rfl
  have hr : menu.run (start (long 1100)) [] = some (start (long 1100)) := rfl
  have hl : Live (start (long 1100)) := live_run hr
  have hfit : size (next (long 1100)) < 1024 := (faithful_iff hs hl).mp (h (long 1100) [] _ hr {} s' hs)
  rw [size_next_long] at hfit
  exact absurd hfit (by decide)

end Menu

end BridgeIM.Client
