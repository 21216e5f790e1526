import BridgeIM.Client.Menu
import BridgeIM.Client.Session

namespace BridgeIM.Client.Menu

open CString

def word (s : Menu) : String × Menu :=
  let rest := s.input.dropWhile isSpace
  let input := rest.dropWhile fun c => !isSpace c
  if s.eof ∨ s.fail then ("", { s with fail := true })
  else if rest = [] then ("", { s with input := [], eof := true, fail := true })
  else (String.ofList (rest.takeWhile fun c => !isSpace c), { s with input := input, eof := input = [] })

/-- `std::cin.get()`, where the next char is a blank. -/
def get (s : Menu) : Menu :=
  if s.eof ∨ s.fail then { s with fail := true }
  else match s.input with
    | [] => { s with eof := true, fail := true }
    | _ :: rest => { s with input := rest }

/-- The text in the first `n` bytes; `none` when they end within a char. -/
def fill : Nat → List Char → Option (List Char)
  | _, [] => some []
  | 0, _ => some []
  | n, c :: cs => if c.utf8Size ≤ n then (fill (n - c.utf8Size) cs).map (c :: ·) else none

/-- A `char` array of 50 zeros after `getline`, as a C string. -/
def field (s : Menu) : Option String × Menu :=
  (if s.eof ∨ s.fail then some "" else (fill 49 ((next s.input).takeWhile (· ≠ '\x00'))).map String.ofList,
    (s.getline 50).2)

variable {s s' : Menu} {n : Nat}

theorem skip_suffix (n : Nat) (cs : List Char) : skip n cs <:+ cs := by
  induction cs generalizing n with
  | nil => exact List.suffix_refl _
  | cons c cs ih =>
    rw [skip]
    split
    · exact (ih _).trans (List.suffix_cons c cs)
    · exact List.suffix_refl _

/-- What reading from `std::cin` leaves: less of the input, unless it fails. -/
structure Reads (s s' : Menu) : Prop where
  suffix : s'.input <:+ s.input
  shorter : s'.fail = false → s'.input.length < s.input.length
  fail : s.fail = true → s'.fail = true
  eof : (s.eof = true → s.input = []) → s'.eof = true → s'.input = []
  sends : s'.sends = s.sends
  isMainMenuRuning : s'.isMainMenuRuning = s.isMainMenuRuning

theorem Reads.length (h : Reads s s') : s'.input.length ≤ s.input.length := h.suffix.length_le

theorem Reads.trans {s₁ s₂ s₃ : Menu} (h : Reads s₁ s₂) (h' : Reads s₂ s₃) : Reads s₁ s₃ where
  suffix := h'.suffix.trans h.suffix
  shorter hf := (h'.shorter hf).trans_le h.length
  fail hf := h'.fail (h.fail hf)
  eof he := h'.eof (h.eof he)
  sends := h'.sends.trans h.sends
  isMainMenuRuning := h'.isMainMenuRuning.trans h.isMainMenuRuning

theorem reads_fail {input : List Char} {eof : Bool} (hl : input <:+ s.input)
    (he : (s.eof = true → s.input = []) → eof = true → input = []) :
    Reads s { s with input := input, eof := eof, fail := true } :=
  ⟨hl, nofun, fun _ => rfl, he, rfl, rfl⟩

theorem reads_some {input : List Char} {eof : Bool} (hf : s.fail = false) (hs : input <:+ s.input)
    (hl : input.length < s.input.length) (he : eof = true → input = []) : Reads s { s with input := input, eof := eof } :=
  ⟨hs, fun _ => hl, fun h => absurd (h.symm.trans hf) nofun, fun _ => he, rfl, rfl⟩

theorem reads_getline (n : Nat) (s : Menu) : Reads s (s.getline n).2 := by
  have hle := List.dropWhile_suffix (l := s.input) (· ≠ '\n')
  unfold getline
  dsimp only
  split
  · exact reads_fail (List.suffix_refl _) id
  rename_i hn
  obtain ⟨heof, hfail⟩ := not_or.mp hn
  rw [Bool.not_eq_true] at hfail
  split
  · exact reads_fail (skip_suffix _ _) fun _ he => absurd he heof
  split
  · by_cases hline : s.input.takeWhile (· ≠ '\n') = []
    · rw [decide_eq_true hline]
      exact reads_fail List.nil_suffix fun _ _ => rfl
    · rw [decide_eq_false hline, ← hfail]
      refine reads_some hfail List.nil_suffix (List.length_pos_iff.mpr fun hnil => hline ?_) fun _ => rfl
      rw [hnil]
      rfl
  · rename_i c rest hd
    rw [hd] at hle
    exact reads_some hfail ((List.suffix_cons c rest).trans hle) hle.length_le fun he => absurd he heof

theorem reads_field (s : Menu) : Reads s s.field.2 := reads_getline 50 s

theorem reads_word (s : Menu) : Reads s s.word.2 := by
  have hle := List.dropWhile_suffix (l := s.input) isSpace
  unfold word
  dsimp only
  split
  · exact reads_fail (List.suffix_refl _) id
  rename_i hn
  obtain ⟨-, hfail⟩ := not_or.mp hn
  split
  · exact reads_fail List.nil_suffix fun _ _ => rfl
  · rename_i hne
    obtain ⟨c, cs, hc⟩ := List.exists_cons_of_ne_nil hne
    have hspace : isSpace c = false := by
      have hd := List.head_dropWhile_not isSpace (l := s.input) hne
      simpa [hc] using hd
    have hrest := List.dropWhile_suffix (l := s.input.dropWhile isSpace) fun c => !isSpace c
    refine reads_some (Bool.not_eq_true _ ▸ hfail) (hrest.trans hle) ?_ of_decide_eq_true
    rw [hc] at hle ⊢
    rw [List.dropWhile_cons_of_pos (by rw [hspace]; rfl)]
    exact (List.dropWhile_suffix _).length_le.trans_lt hle.length_le

theorem reads_get (s : Menu) : Reads s s.get := by
  unfold get
  split
  · exact reads_fail (List.suffix_refl _) id
  rename_i hn
  obtain ⟨heof, hfail⟩ := not_or.mp hn
  split
  · rename_i hi
    exact reads_fail (List.suffix_refl _) fun _ _ => hi
  · rename_i c rest hi
    refine reads_some (Bool.not_eq_true _ ▸ hfail) ?_ ?_ fun he => absurd he heof
    · rw [hi]
      exact List.suffix_cons c rest
    · rw [hi]
      exact Nat.lt_succ_self _

theorem fill_eq {n : Nat} {cs : List Char} (h : size cs ≤ n) : fill n cs = some cs := by
  induction cs generalizing n with
  | nil => cases n <;> rfl
  | cons c cs ih =>
    have hc : size (c :: cs) = c.utf8Size + size cs := rfl
    have hpos := c.utf8Size_pos
    rw [hc] at h
    cases n with
    | zero => omega
    | succ n =>
      rw [fill, if_pos (by omega), ih (by omega), Option.map_some]
      exact Nat.succ_ne_zero n

structure Line (line : String) : Prop where
  newline : '\n' ∉ line.toList
  nul : '\x00' ∉ line.toList

theorem field_line {line : String} {rest : List Char} (hl : Line line) (hi : s.input = line.toList ++ '\n' :: rest)
    (hf : s.fail = false) (he : s.eof = false) (hs : size line.toList < 50) :
    s.field = (some line, { s with input := rest }) := by
  have hr : '\n' :: rest = [] ∨ ('\n' :: rest).head? = some '\n' := Or.inr rfl
  obtain ⟨hnext, hdrop⟩ := next_append hl.newline hr
  have hn : ¬ (s.eof = true ∨ s.fail = true) := by
    rw [he, hf]
    decide
  have hnul : line.toList.takeWhile (· ≠ '\x00') = line.toList := by
    rw [← toList_cstring, cstring_of_not_mem hl.nul]
  unfold field getline
  dsimp only
  rw [if_neg hn, if_neg hn, hi, hnext, hnul, fill_eq (Nat.le_of_lt_succ hs), Option.map_some, String.ofList_toList]
  change (_, (if 50 ≤ size (next (line.toList ++ '\n' :: rest)) then _ else _ : String × Menu).2) = _
  rw [hnext, if_neg (Nat.not_le.mpr hs), hdrop]

theorem field_long {line : String} {rest : List Char} (hl : Line line) (hi : s.input = line.toList ++ '\n' :: rest)
    (hf : s.fail = false) (he : s.eof = false) (hs : ¬ size line.toList < 50) :
    s.field.1 = (fill 49 line.toList).map String.ofList ∧ s.field.2.fail = true := by
  have hr : '\n' :: rest = [] ∨ ('\n' :: rest).head? = some '\n' := Or.inr rfl
  obtain ⟨hnext, -⟩ := next_append hl.newline hr
  have hle : 50 ≤ size (next s.input) := by
    rw [hi, hnext]
    exact Nat.not_lt.mp hs
  have hn : ¬ (s.eof = true ∨ s.fail = true) := by
    rw [he, hf]
    decide
  have hnul : line.toList.takeWhile (· ≠ '\x00') = line.toList := by
    rw [← toList_cstring, cstring_of_not_mem hl.nul]
  unfold field getline
  dsimp only
  rw [if_neg hn, if_neg hn, if_pos (show 50 ≤ size (s.input.takeWhile _) from hle), hi, hnext, hnul]
  exact ⟨rfl, rfl⟩

theorem field_failed (hf : s.fail = true) : s.field.1 = some "" ∧ s.field.2.fail = true := by
  unfold field getline
  dsimp only
  rw [if_pos (Or.inr hf), if_pos (Or.inr hf)]
  exact ⟨rfl, rfl⟩

theorem turn_reads {e : Turn} (h : s.turn e = some s') : ∃ r, Reads s r ∧
    (r.fail = true ∧ s' = { r with isMainMenuRuning := false } ∨ r.fail = false ∧
      (r.isMainMenuRuning = true ∧ s' = r ∨ ∃ line js running,
      Requests.mainMenu e.g_currentUser e.currentTime line = some js ∧
        s' = { r with sends := r.sends ++ [js.dump ++ "\n"], isMainMenuRuning := running } ∧
        (running = false → js = Requests.loginout e.g_currentUser ∧ e.sent = true))) := by
  obtain ⟨hrun, h⟩ := Option.ite_none_right_eq_some.mp h
  refine ⟨(s.getline 1024).2, reads_getline 1024 s, ?_⟩
  dsimp only at h
  split at h
  · rename_i hf
    exact Or.inl ⟨hf, (Option.some.inj h).symm⟩
  rename_i hf
  refine Or.inr ⟨Bool.not_eq_true _ ▸ hf, ?_⟩
  split at h
  · exact Or.inl ⟨(reads_getline 1024 s).isMainMenuRuning.trans hrun, (Option.some.inj h).symm⟩
  · rename_i js hm
    refine Or.inr ⟨_, js, _, hm, (Option.some.inj h).symm, fun hr => ?_⟩
    rw [Bool.not_eq_false', Bool.and_eq_true, decide_eq_true_eq] at hr
    exact ⟨loginout_of_command hm hr.1, hr.2⟩

end BridgeIM.Client.Menu

namespace BridgeIM.Client.FrontPage

open CString Lib Model.UserModel Menu
open Server.Framing (Bytes)
open Session (Place Move Process process)

/-- The client behind its standard input: the main thread, and the globals that
the receiving thread writes. The place is `none` once the process has ended. -/
structure Terminal where
  menu : Menu
  place : Option Place := some .choice
  waits : Nat := 0
  client : ChatClient := {}

/-- A step of the main thread, with the time and what `send` returns; a message
that the receiving thread takes; or the end of the connection, at which it exits. -/
inductive Act
  | main (currentTime : String) (sent : Bool)
  | message (message : Bytes)
  | closed
  deriving DecidableEq, Repr

inductive Kind
  | login | reg
  deriving DecidableEq, Repr

def Kind.choice : Kind → String
  | login => "1"
  | reg => "2"

def Kind.place : Kind → Place
  | login => .login
  | reg => .reg

def Kind.request : Kind → String → String → Json
  | login => Requests.login
  | reg => Requests.reg

namespace Terminal

/-- `case '1'` and `case '2'`. The text of a name or password that ends within a
char is no UTF-8, so that `dump` throws. -/
def sign (k : Kind) (m : Menu) (s : Terminal) : Terminal :=
  match m.field.1, m.field.2.field.1 with
  | some name, some pwd =>
    let m := m.field.2.field.2
    { s with menu := { m with sends := m.sends ++ [(k.request name pwd).dump ++ "\n"] }, place := some k.place }
  | _, _ => { s with menu := m.field.2.field.2, place := none }

def front (s : Terminal) : Terminal :=
  let choice := s.menu.word.1
  let m := s.menu.word.2.get
  if m.fail then { s with menu := m, place := none }
  else if choice = Kind.login.choice then s.sign .login m
  else if choice = Kind.reg.choice then s.sign .reg m
  else if choice = "3" then { s with menu := m, place := none }
  else { s with menu := m }

end Terminal

/-- A form stands next in the input: the choice, and what the two fields take of
the lines after it. -/
structure Form (m : Menu) (k : Kind) (name pwd : String) : Prop where
  choice : m.word.1 = k.choice
  fail : m.word.2.get.fail = false
  name : m.word.2.get.field.1 = some name
  pwd : m.word.2.get.field.2.field.1 = some pwd

namespace Terminal

def loggedIn (s : Terminal) : Terminal :=
  if s.client.isLoginSuccess then
    { s with menu := { s.menu with isMainMenuRuning := true }, place := some .mainMenu }
  else { s with place := some .choice }

/-- The main thread is in `sem_wait`, and there is nothing to wake it. -/
structure Waiting (s : Terminal) : Prop where
  place : s.place = some .login ∨ s.place = some .reg
  posts : s.client.posts ≤ s.waits

end Terminal

variable (parse : Bytes → Option Json)

def step (s : Terminal) : Act → Option Terminal
  | .main currentTime sent =>
    match s.place with
    | none => none
    | some .choice => some s.front
    | some .login => if s.waits < s.client.posts then some { s with waits := s.waits + 1 }.loggedIn else none
    | some .reg =>
      if s.waits < s.client.posts then some { s with waits := s.waits + 1, place := some .choice } else none
    | some .mainMenu => (s.menu.turn ⟨s.client.currentUser, currentTime, sent⟩).map fun m =>
      { s with menu := m, place := some (if m.isMainMenuRuning then .mainMenu else .choice) }
  | .message message =>
    if s.place = none then none
    else match onMessage parse message s.client with
      | some client => some { s with client := client }
      | none => some { s with place := none }
  | .closed => if s.place = none then none else some { s with place := none }

def program : Machine Terminal Act := ⟨step parse⟩

def start (input : List Char) : Terminal where
  menu := { input := input, isMainMenuRuning := false }

variable {parse} {s t : Terminal} {m : Menu}

theorem sign_cases (k : Kind) (m : Menu) (s : Terminal) : ∃ r, Reads m r ∧
    (s.sign k m = { s with menu := r, place := none } ∨ ∃ name pwd, m.field.1 = some name ∧ m.field.2.field.1 = some pwd ∧
      s.sign k m = { s with menu := { r with sends := r.sends ++ [(k.request name pwd).dump ++ "\n"] },
                            place := some k.place }) := by
  refine ⟨m.field.2.field.2, (reads_field m).trans (reads_field m.field.2), ?_⟩
  unfold Terminal.sign
  split
  · rename_i name pwd hname hpwd
    exact Or.inr ⟨name, pwd, hname, hpwd, rfl⟩
  · exact Or.inl rfl

theorem front_cases (s : Terminal) : ∃ m, Reads s.menu m ∧
    (s.front = { s with menu := m, place := none } ∨ m.fail = false ∧ s.front = { s with menu := m } ∨
      s.menu.fail = false ∧ m.input.length < s.menu.input.length ∧ ∃ k name pwd, Form s.menu k name pwd ∧ s.front =
        { s with menu := { m with sends := m.sends ++ [(Kind.request k name pwd).dump ++ "\n"] },
                 place := some k.place }) := by
  have hm : Reads s.menu s.menu.word.2.get := (reads_word s.menu).trans (reads_get s.menu.word.2)
  unfold Terminal.front
  dsimp only
  split
  · exact ⟨_, hm, Or.inl rfl⟩
  rename_i hf
  rw [Bool.not_eq_true] at hf
  have hs : s.menu.fail = false := Bool.eq_false_iff.mpr fun h => absurd (hm.fail h) (Bool.eq_false_iff.mp hf)
  have hsign (k : Kind) (hk : s.menu.word.1 = k.choice) :
      ∃ m, Reads s.menu m ∧ (s.sign k s.menu.word.2.get = { s with menu := m, place := none } ∨
      m.fail = false ∧ s.sign k s.menu.word.2.get = { s with menu := m } ∨
      s.menu.fail = false ∧ m.input.length < s.menu.input.length ∧ ∃ k' name pwd, Form s.menu k' name pwd ∧
        s.sign k s.menu.word.2.get =
          { s with menu := { m with sends := m.sends ++ [(Kind.request k' name pwd).dump ++ "\n"] },
                   place := some k'.place }) := by
    obtain ⟨r, hr, he | ⟨name, pwd, hname, hpwd, he⟩⟩ := sign_cases k s.menu.word.2.get s
    · exact ⟨r, hm.trans hr, Or.inl he⟩
    · refine ⟨r, hm.trans hr, Or.inr (Or.inr ⟨hs, hr.length.trans_lt (hm.shorter hf), k, name, pwd, ?_, he⟩)⟩
      exact ⟨hk, hf, hname, hpwd⟩
  split
  · rename_i hk
    exact hsign .login hk
  split
  · rename_i hk
    exact hsign .reg hk
  split
  · exact ⟨_, hm, Or.inl rfl⟩
  · exact ⟨_, hm, Or.inr (Or.inl ⟨hf, rfl⟩)⟩

variable (parse) in
/-- What the two threads can do. -/
inductive Does (s : Terminal) : Act → Terminal → Prop
  | front (currentTime : String) (sent : Bool) (hp : s.place = some .choice) : Does s (.main currentTime sent) s.front
  | loggedIn (currentTime : String) (sent : Bool) (hp : s.place = some .login) (hw : s.waits < s.client.posts) :
    Does s (.main currentTime sent) { s with waits := s.waits + 1 }.loggedIn
  | registered (currentTime : String) (sent : Bool) (hp : s.place = some .reg) (hw : s.waits < s.client.posts) :
    Does s (.main currentTime sent) { s with waits := s.waits + 1, place := some .choice }
  | turn (currentTime : String) (sent : Bool) (hp : s.place = some .mainMenu) (m : Menu)
      (hm : s.menu.turn ⟨s.client.currentUser, currentTime, sent⟩ = some m) : Does s (.main currentTime sent)
        { s with menu := m, place := some (if m.isMainMenuRuning then .mainMenu else .choice) }
  | took (message : Bytes) (client : ChatClient) (hp : s.place ≠ none)
      (hc : onMessage parse message s.client = some client) : Does s (.message message) { s with client := client }
  | threw (message : Bytes) (hp : s.place ≠ none) (hc : onMessage parse message s.client = none) :
    Does s (.message message) { s with place := none }
  | closed (hp : s.place ≠ none) : Does s .closed { s with place := none }

theorem step_cases {a : Act} (h : (program parse).step s a = some t) : Does parse s a t := by
  cases a with
  | main currentTime sent =>
    dsimp only [program, step] at h
    split at h
    · cases h
    · rename_i hp
      cases h
      exact .front currentTime sent hp
    · rename_i hp
      obtain ⟨hw, h⟩ := Option.ite_none_right_eq_some.mp h
      cases h
      exact .loggedIn currentTime sent hp hw
    · rename_i hp
      obtain ⟨hw, h⟩ := Option.ite_none_right_eq_some.mp h
      cases h
      exact .registered currentTime sent hp hw
    · rename_i hp
      obtain ⟨m, hm, rfl⟩ := Option.map_eq_some_iff.mp h
      exact .turn currentTime sent hp m hm
  | message message =>
    obtain ⟨hp, h⟩ := Option.ite_none_left_eq_some.mp h
    split at h
    · rename_i client hc
      cases h
      exact .took message client hp hc
    · rename_i hc
      cases h
      exact .threw message hp hc
  | closed =>
    obtain ⟨hp, h⟩ := Option.ite_none_left_eq_some.mp h
    cases h
    exact .closed hp

theorem sends_step {a : Act} (h : (program parse).step s a = some t) : t.menu.sends = s.menu.sends ∨
    (∃ k name pwd, Form s.menu k name pwd ∧ t.menu.sends = s.menu.sends ++ [(Kind.request k name pwd).dump ++ "\n"]) ∨
    (s.place = some .mainMenu ∧ ∃ currentTime line js,
      Requests.mainMenu s.client.currentUser currentTime line = some js ∧
        t.menu.sends = s.menu.sends ++ [js.dump ++ "\n"]) := by
  cases step_cases h with
  | front currentTime sent hp =>
    obtain ⟨m, hm, he | ⟨-, he⟩ | ⟨-, -, k, name, pwd, hform, he⟩⟩ := front_cases s
    · rw [he]
      exact Or.inl hm.sends
    · rw [he]
      exact Or.inl hm.sends
    · rw [he]
      exact Or.inr (Or.inl ⟨k, name, pwd, hform, congrArg (· ++ _) hm.sends⟩)
  | turn currentTime sent hp m hm =>
    obtain ⟨r, hr, ⟨-, rfl⟩ | ⟨-, ⟨-, rfl⟩ | ⟨line, js, running, hj, rfl, -⟩⟩⟩ := turn_reads hm
    · exact Or.inl hr.sends
    · exact Or.inl hr.sends
    · exact Or.inr (Or.inr ⟨hp, currentTime, line, js, hj, congrArg (· ++ _) hr.sends⟩)
  | loggedIn currentTime sent hp =>
    unfold Terminal.loggedIn
    split <;> exact Or.inl rfl
  | registered currentTime sent hp => exact Or.inl rfl
  | took message client hp => exact Or.inl rfl
  | threw message hp => exact Or.inl rfl
  | closed hp => exact Or.inl rfl

theorem suffix_step {a : Act} (h : (program parse).step s a = some t) : t.menu.input <:+ s.menu.input := by
  cases step_cases h with
  | front currentTime sent hp =>
    obtain ⟨m, hm, he | ⟨-, he⟩ | ⟨-, -, k, name, pwd, -, he⟩⟩ := front_cases s <;> rw [he] <;> exact hm.suffix
  | turn currentTime sent hp m hm =>
    obtain ⟨r, hr, ⟨-, rfl⟩ | ⟨-, ⟨-, rfl⟩ | ⟨line, js, running, hj, rfl, -⟩⟩⟩ := turn_reads hm <;> exact hr.suffix
  | loggedIn currentTime sent hp =>
    unfold Terminal.loggedIn
    split <;> exact List.suffix_refl _
  | registered | took | threw | closed => exact List.suffix_refl _

theorem suffix_run {input : List Char} {as : List Act} (h : (program parse).run (start input) as = some s) :
    s.menu.input <:+ input :=
  Machine.run_invariant (I := fun s => s.menu.input <:+ input) (List.suffix_refl _)
    (fun _ _ _ hi _ hs => (suffix_step hs).trans hi) (Machine.meets_true _ as) h

/-! The main thread comes to an end. -/

def weight : Place → Nat
  | .choice => 1
  | .mainMenu => 2
  | .login | .reg => 3

def rank (s : Terminal) : Nat := s.place.elim 0 fun p => 3 * s.menu.input.length + weight p

def Act.isMain : Act → Bool
  | main .. => true
  | _ => false

theorem rank_of_place {p : Place} (h : s.place = some p) : rank s = 3 * s.menu.input.length + weight p := by
  rw [rank, h, Option.elim_some]

theorem rank_front (h : s.place = some .choice) : rank s.front < rank s := by
  rw [rank_of_place h]
  obtain ⟨m, hm, he | ⟨hf, he⟩ | ⟨-, hlt, k, name, pwd, -, he⟩⟩ := front_cases s
  · rw [he]
    exact Nat.succ_pos _
  · have hlt := hm.shorter hf
    rw [he, rank_of_place (s := { s with menu := m }) h]
    dsimp only
    omega
  · rw [he, rank_of_place rfl]
    cases k <;> simp only [Kind.place, weight] <;> omega

theorem rank_loggedIn (h : s.place = some .login) : rank s.loggedIn < rank s := by
  rw [rank_of_place h, Terminal.loggedIn]
  split
  · exact Nat.lt_succ_self _
  · exact Nat.lt_succ_of_lt (Nat.lt_succ_self _)

theorem rank_turn {e : Turn} (h : s.place = some .mainMenu) (ht : s.menu.turn e = some m) :
    rank { s with menu := m, place := some (if m.isMainMenuRuning then .mainMenu else .choice) } < rank s := by
  have hw : weight (if m.isMainMenuRuning then .mainMenu else .choice) ≤ 2 ∧
      (m.isMainMenuRuning = false → weight (if m.isMainMenuRuning then .mainMenu else .choice) = 1) := by
    cases m.isMainMenuRuning <;> exact ⟨by decide, by decide⟩
  rw [rank_of_place h, rank_of_place rfl]
  change 3 * m.input.length + _ < _ + 2
  obtain ⟨r, hr, ⟨-, rfl⟩ | ⟨hf, ⟨-, rfl⟩ | ⟨line, js, running, -, rfl, -⟩⟩⟩ := turn_reads ht
  · have hle := hr.length
    have hone := hw.2 rfl
    dsimp only at hone ⊢
    omega
  · have hlt := hr.shorter hf
    omega
  · have hlt := hr.shorter hf
    dsimp only at hw ⊢
    omega

theorem rank_step {a : Act} (h : (program parse).step s a = some t) :
    rank t + (if a.isMain then 1 else 0) ≤ rank s := by
  cases step_cases h with
  | front currentTime sent hp => exact rank_front hp
  | loggedIn currentTime sent hp => exact rank_loggedIn (s := { s with waits := s.waits + 1 }) hp
  | registered currentTime sent hp =>
    rw [rank_of_place hp, rank_of_place rfl]
    simp only [weight, Act.isMain, if_true]
    omega
  | turn currentTime sent hp m hm => exact rank_turn hp hm
  | took message client hp => exact Nat.le_refl _
  | threw message hp => exact Nat.zero_le _
  | closed hp => exact Nat.zero_le _

/-! What is typed at the front page. -/

def typed (k : Kind) (name pwd : String) : List Char :=
  k.choice.toList ++ '\n' :: name.toList ++ '\n' :: pwd.toList ++ ['\n']

structure Sends (k : Kind) (name pwd : String) (rest : List Char) (s t : Terminal) : Prop where
  place : t.place = some k.place
  sends : t.menu.sends = s.menu.sends ++ [(k.request name pwd).dump ++ "\n"]
  input : t.menu.input = rest
  fail : t.menu.fail = false

theorem front_typed (k : Kind) {name pwd : String} {rest : List Char} (hi : s.menu.input = typed k name pwd ++ rest)
    (hf : s.menu.fail = false) (he : s.menu.eof = false) :
    s.front = s.sign k { s.menu with input := name.toList ++ '\n' :: (pwd.toList ++ '\n' :: rest) } := by
  rw [typed] at hi
  cases k <;> simp [Terminal.front, Menu.word, Menu.get, hi, hf, he, Kind.choice, isSpace]

/-- What is read of a form with a line that is too long: 49 bytes of this line
and nothing after it; `none` when these bytes end within a char. -/
def cut (name pwd : String) : Option (String × String) :=
  if size name.toList < 50 then (fill 49 pwd.toList).map fun cs => (name, String.ofList cs)
  else (fill 49 name.toList).map fun cs => (String.ofList cs, "")

/-- Reading fails at the line that is too long. The form is sent with what has
been read, unless `dump` throws. -/
structure Cuts (k : Kind) (name pwd : String) (s t : Terminal) : Prop where
  fail : t.menu.fail = true
  sends : t.menu.sends = s.menu.sends ++ ((cut name pwd).map fun x => (k.request x.1 x.2).dump ++ "\n").toList
  place : t.place = (cut name pwd).map fun _ => k.place

theorem sign_cuts {k : Kind} {name pwd : String} {m : Menu}
    (h : m.field.1.bind (fun n => m.field.2.field.1.map (n, ·)) = cut name pwd)
    (hf : m.field.2.field.2.fail = true) (hs : m.sends = s.menu.sends) : Cuts k name pwd s (s.sign k m) := by
  have hsends : m.field.2.field.2.sends = s.menu.sends :=
    ((reads_field m).trans (reads_field m.field.2)).sends.trans hs
  unfold Terminal.sign
  split
  · rename_i n p hn hp
    rw [hn, hp, Option.bind_some, Option.map_some] at h
    refine ⟨hf, ?_, ?_⟩
    · show m.field.2.field.2.sends ++ [(k.request n p).dump ++ "\n"] = _
      rw [← h, hsends]
      rfl
    · rw [← h]
      rfl
  · rename_i hno
    have hc : cut name pwd = none := by
      rw [← h, Option.bind_eq_none_iff]
      intro n hn
      rw [Option.map_eq_none_iff]
      exact Option.eq_none_iff_forall_not_mem.mpr fun p hp => hno n p hn hp
    refine ⟨hf, ?_, ?_⟩
    · rw [hc]
      exact hsends.trans (List.append_nil _).symm
    · rw [hc]
      rfl

theorem front_sends {k : Kind} {name pwd : String} {rest : List Char} (hn : Line name) (hp : Line pwd)
    (hi : s.menu.input = typed k name pwd ++ rest) (hf : s.menu.fail = false) (he : s.menu.eof = false) :
    if size name.toList < 50 ∧ size pwd.toList < 50 then Sends k name pwd rest s s.front
    else Cuts k name pwd s s.front := by
  rw [front_typed k hi hf he]
  let m : Menu := { s.menu with input := name.toList ++ '\n' :: (pwd.toList ++ '\n' :: rest) }
  let m' : Menu := { s.menu with input := pwd.toList ++ '\n' :: rest }
  by_cases hname : size name.toList < 50
  · have h₁ : m.field = (some name, m') := field_line hn rfl hf he hname
    by_cases hpwd : size pwd.toList < 50
    · have h₂ : m'.field = (some pwd, { s.menu with input := rest }) := field_line hp rfl hf he hpwd
      rw [if_pos ⟨hname, hpwd⟩, Terminal.sign, h₁, h₂]
      exact ⟨rfl, rfl, rfl, hf⟩
    · obtain ⟨h₂, h₃⟩ := field_long (s := m') hp rfl hf he hpwd
      rw [if_neg fun h => hpwd h.2]
      refine sign_cuts (m := m) ?_ ?_ rfl
      · rw [h₁, h₂, cut, if_pos hname, Option.bind_some, Option.map_map]
        rfl
      · rw [h₁]
        exact h₃
  · obtain ⟨h₁, h₂⟩ := field_long (s := m) hn rfl hf he hname
    obtain ⟨h₃, h₄⟩ := field_failed h₂
    rw [if_neg fun h => hname h.1]
    refine sign_cuts (m := m) ?_ h₄ rfl
    rw [h₁, h₃, cut, if_neg hname]
    cases fill 49 name.toList <;> rfl

/-! After a line that is too long, or at the end of the input. -/

theorem failed_step {a : Act} (hf : s.menu.fail = true) (h : (program parse).step s a = some t) :
    t.menu.fail = true ∧ t.menu.sends = s.menu.sends := by
  cases step_cases h with
  | front currentTime sent hp =>
    obtain ⟨m, hm, he | ⟨hno, he⟩ | ⟨hno, -⟩⟩ := front_cases s
    · rw [he]
      exact ⟨hm.fail hf, hm.sends⟩
    · rw [hm.fail hf] at hno
      cases hno
    · rw [hf] at hno
      cases hno
  | loggedIn currentTime sent hp =>
    unfold Terminal.loggedIn
    split <;> exact ⟨hf, rfl⟩
  | turn currentTime sent hp m hm =>
    obtain ⟨r, hr, ⟨hfr, rfl⟩ | ⟨hno, -⟩⟩ := turn_reads hm
    · exact ⟨hfr, hr.sends⟩
    · rw [hr.fail hf] at hno
      cases hno
  | registered currentTime sent hp => exact ⟨hf, rfl⟩
  | took message client hp => exact ⟨hf, rfl⟩
  | threw message hp => exact ⟨hf, rfl⟩
  | closed hp => exact ⟨hf, rfl⟩

theorem failed_run {as : List Act} (hf : s.menu.fail = true) (h : (program parse).run s as = some t) :
    t.menu.sends = s.menu.sends := by
  have hstep : ∀ u a v, (u.menu.fail = true ∧ u.menu.sends = s.menu.sends) → True → (program parse).step u a = some v →
      v.menu.fail = true ∧ v.menu.sends = s.menu.sends := fun u a v hu _ hs =>
    ⟨(failed_step hu.1 hs).1, (failed_step hu.1 hs).2.trans hu.2⟩
  exact (Machine.run_invariant ⟨hf, rfl⟩ hstep (Machine.meets_true _ as) h).2

/-! The invariant of a run. -/

structure Inv (s : Terminal) : Prop where
  eof : s.menu.eof = true → s.menu.input = []
  running : s.place = some .mainMenu → s.menu.isMainMenuRuning = true

theorem inv_step {a : Act} (hi : Inv s) (h : (program parse).step s a = some t) : Inv t := by
  cases step_cases h with
  | front currentTime sent hp =>
    obtain ⟨m, hm, he | ⟨-, he⟩ | ⟨-, -, k, name, pwd, -, he⟩⟩ := front_cases s
    · rw [he]
      exact ⟨hm.eof hi.eof, nofun⟩
    · rw [he]
      exact ⟨hm.eof hi.eof, fun hm => absurd (hp.symm.trans hm) nofun⟩
    · rw [he]
      exact ⟨hm.eof hi.eof, fun hk => by cases k <;> cases hk⟩
  | loggedIn currentTime sent hp =>
    unfold Terminal.loggedIn
    split
    · exact ⟨hi.eof, fun _ => rfl⟩
    · exact ⟨hi.eof, nofun⟩
  | registered currentTime sent hp => exact ⟨hi.eof, nofun⟩
  | turn currentTime sent hp m hm =>
    refine ⟨?_, fun hr => ?_⟩
    · obtain ⟨r, hr, ⟨-, rfl⟩ | ⟨-, ⟨-, rfl⟩ | ⟨line, js, running, -, rfl, -⟩⟩⟩ := turn_reads hm
      · exact hr.eof hi.eof
      · exact hr.eof hi.eof
      · exact hr.eof hi.eof
    · dsimp only at hr ⊢
      cases hm : m.isMainMenuRuning with
      | true => rfl
      | false =>
        rw [hm] at hr
        cases hr
  | took message client hp => exact ⟨hi.eof, hi.running⟩
  | threw message hp => exact ⟨hi.eof, nofun⟩
  | closed hp => exact ⟨hi.eof, nofun⟩

theorem inv_run {input : List Char} {as : List Act} (h : (program parse).run (start input) as = some s) : Inv s := by
  have h₀ : Inv (start input) := ⟨nofun, nofun⟩
  exact Machine.run_invariant h₀ (fun _ _ _ hi _ hs => inv_step hi hs) (Machine.meets_true _ as) h

theorem waiting_of_none (hi : Inv s) (hp : s.place ≠ none) {currentTime : String} {sent : Bool}
    (h : (program parse).step s (.main currentTime sent) = none) : s.Waiting := by
  dsimp only [program, step] at h
  split at h
  · rename_i hn
    exact absurd hn hp
  · cases h
  · rename_i hl
    exact ⟨Or.inl hl, Nat.not_lt.mp fun hlt => by rw [if_pos hlt] at h; cases h⟩
  · rename_i hl
    exact ⟨Or.inr hl, Nat.not_lt.mp fun hlt => by rw [if_pos hlt] at h; cases h⟩
  · rename_i hm
    obtain ⟨m, ht⟩ := turn_runs (e := ⟨s.client.currentUser, currentTime, sent⟩) (hi.running hm)
    have ht : s.menu.turn ⟨s.client.currentUser, currentTime, sent⟩ = some m := ht
    rw [ht] at h
    cases h

theorem countP_run {input : List Char} {as : List Act} (h : (program parse).run (start input) as = some s) :
    as.countP Act.isMain + rank s ≤ 3 * input.length + 1 := by
  refine Machine.run_induction (P := fun as s => as.countP Act.isMain + rank s ≤ 3 * input.length + 1)
    (Nat.le_of_eq (Nat.zero_add _)) ?_ (Machine.meets_true _ as) h
  intro as u a v hle _ hs
  have hr := rank_step hs
  rw [List.countP_append, List.countP_singleton]
  omega

/-! The sessions of the two threads. -/

/-- The threads of a session that have come as far. A process that has left its
menu at the end of the input goes on nowhere. -/
structure Follows (p : Process) (s : Terminal) : Prop where
  client : p.client = s.client
  waits : p.waits = s.waits
  sent : (p.sent.map fun js => js.dump ++ "\n").Sublist s.menu.sends
  place : ∀ pl, s.place = some pl → p.place = pl ∨ s.menu.fail = true ∧ pl = .choice ∧ p.place = .mainMenu

def taken : Act → Option Bytes
  | .message message => some message
  | _ => none

def given : Move → Option Bytes
  | .message message => some message
  | _ => none

variable {p q : Process}

theorem place_of_follows (h : Follows p s) {pl : Place} (hp : s.place = some pl) (hne : pl ≠ .choice) : p.place = pl :=
  (h.place pl hp).resolve_right fun hr => hne hr.2.1

theorem follows_front (h : Follows p s) (hp : s.place = some .choice) :
    ∃ bs q, (process parse).run p bs = some q ∧ Follows q s.front ∧ bs.filterMap given = [] := by
  obtain ⟨m, hm, he | ⟨hf, he⟩ | ⟨hf, -, k, name, pwd, -, he⟩⟩ := front_cases s
  · rw [he]
    exact ⟨[], p, rfl, ⟨h.client, h.waits, hm.sends ▸ h.sent, nofun⟩, rfl⟩
  · rw [he]
    refine ⟨[], p, rfl, ⟨h.client, h.waits, hm.sends ▸ h.sent, fun pl hpl => ?_⟩, rfl⟩
    exact (h.place pl hpl).imp id fun hr => absurd ((hm.fail hr.1).symm.trans hf) nofun
  · have hplace : p.place = .choice := (h.place .choice hp).resolve_right fun hr => absurd (hr.1.symm.trans hf) nofun
    have hsent : ((p.sent ++ [k.request name pwd]).map fun js => js.dump ++ "\n").Sublist
        (m.sends ++ [(k.request name pwd).dump ++ "\n"]) := by
      rw [List.map_append, hm.sends]
      exact h.sent.append (List.Sublist.refl _)
    rw [he]
    cases k with
    | login =>
      refine ⟨[.login name pwd true], { p.send (Requests.login name pwd) true with place := .login }, ?_, ?_, rfl⟩
      · simp [Machine.run, process, Session.step, hplace]
      · exact ⟨h.client, h.waits, hsent, fun pl hpl => Or.inl (Option.some.inj hpl)⟩
    | reg =>
      refine ⟨[.reg name pwd true], { p.send (Requests.reg name pwd) true with place := .reg }, ?_, ?_, rfl⟩
      · simp [Machine.run, process, Session.step, hplace]
      · exact ⟨h.client, h.waits, hsent, fun pl hpl => Or.inl (Option.some.inj hpl)⟩

theorem follows_loggedIn (h : Follows p s) (hp : s.place = some .login) (hw : s.waits < s.client.posts) :
    ∃ q, (process parse).run p [.wake] = some q ∧ Follows q { s with waits := s.waits + 1 }.loggedIn := by
  have hplace := place_of_follows h hp nofun
  refine ⟨{ p with waits := p.waits + 1, place := if p.client.isLoginSuccess then .mainMenu else .choice }, ?_, ?_⟩
  · simp [Machine.run, process, Session.step, hplace, h.waits, h.client, hw]
  · rw [Terminal.loggedIn, h.client]
    split
    · exact ⟨rfl, congrArg (· + 1) h.waits, h.sent, fun pl hpl => Or.inl (Option.some.inj hpl)⟩
    · exact ⟨rfl, congrArg (· + 1) h.waits, h.sent, fun pl hpl => Or.inl (Option.some.inj hpl)⟩

theorem follows_turn (h : Follows p s) {e : Turn} (hp : s.place = some .mainMenu)
    (he : e.g_currentUser = s.client.currentUser) (ht : s.menu.turn e = some m) : ∃ bs q,
    (process parse).run p bs = some q ∧
      Follows q { s with menu := m, place := some (if m.isMainMenuRuning then .mainMenu else .choice) } ∧
      bs.filterMap given = [] := by
  have hplace := place_of_follows h hp nofun
  obtain ⟨r, hr, ⟨hf, rfl⟩ | ⟨-, ⟨hrun, rfl⟩ | ⟨line, js, running, -, rfl, hlog⟩⟩⟩ := turn_reads ht
  · refine ⟨[], p, rfl, ⟨h.client, h.waits, hr.sends ▸ h.sent, fun pl hpl => Or.inr ?_⟩, rfl⟩
    exact ⟨hf, (Option.some.inj hpl).symm, hplace⟩
  · refine ⟨[], p, rfl, ⟨h.client, h.waits, hr.sends ▸ h.sent, fun pl hpl => Or.inl ?_⟩, rfl⟩
    rw [hrun] at hpl
    exact hplace.trans (Option.some.inj hpl)
  · cases running with
    | true =>
      refine ⟨[], p, rfl, ⟨h.client, h.waits, ?_, fun pl hpl => Or.inl (hplace.trans (Option.some.inj hpl))⟩, rfl⟩
      exact (hr.sends ▸ h.sent).trans (List.sublist_append_left _ _)
    | false =>
      refine ⟨[.loginout true], { p.send (Requests.loginout p.client.currentUser) true with place := .choice }, ?_, ?_,
        rfl⟩
      · simp [Machine.run, process, Session.step, hplace]
      · refine ⟨h.client, h.waits, ?_, fun pl hpl => Or.inl (Option.some.inj hpl)⟩
        change ((p.sent ++ [Requests.loginout p.client.currentUser]).map fun js => js.dump ++ "\n").Sublist
          (r.sends ++ [js.dump ++ "\n"])
        rw [List.map_append, hr.sends, (hlog rfl).1, he, h.client]
        exact h.sent.append (List.Sublist.refl _)

theorem follows_step {a : Act} (h : Follows p s) (hs : (program parse).step s a = some t) :
    ∃ bs q, (process parse).run p bs = some q ∧ Follows q t ∧
      (t.place ≠ none → bs.filterMap given = (taken a).toList) := by
  cases step_cases hs with
  | front currentTime sent hp =>
    obtain ⟨bs, q, hb, hq, hg⟩ := follows_front h hp
    exact ⟨bs, q, hb, hq, fun _ => hg⟩
  | loggedIn currentTime sent hp hw =>
    obtain ⟨q, hb, hq⟩ := follows_loggedIn h hp hw
    exact ⟨[.wake], q, hb, hq, fun _ => rfl⟩
  | registered currentTime sent hp hw =>
    have hplace := place_of_follows h hp (by decide)
    refine ⟨[.wake], { p with waits := p.waits + 1, place := .choice }, ?_, ?_, fun _ => rfl⟩
    · simp [Machine.run, process, Session.step, hplace, h.waits, h.client, hw]
    · exact ⟨h.client, congrArg (· + 1) h.waits, h.sent, fun pl hpl => Or.inl (Option.some.inj hpl)⟩
  | turn currentTime sent hp m hm =>
    obtain ⟨bs, q, hb, hq, hg⟩ := follows_turn h hp rfl hm
    exact ⟨bs, q, hb, hq, fun _ => hg⟩
  | took message client hp hc =>
    refine ⟨[.message message], { p with client := client }, ?_, ⟨rfl, h.waits, h.sent, h.place⟩, fun _ => rfl⟩
    simp [Machine.run, process, Session.step, h.client, hc]
  | threw message hp hc => exact ⟨[], p, rfl, ⟨h.client, h.waits, h.sent, fun _ hn => by cases hn⟩, fun hn => absurd rfl hn⟩
  | closed hp => exact ⟨[], p, rfl, ⟨h.client, h.waits, h.sent, fun _ hn => by cases hn⟩, fun hn => absurd rfl hn⟩

theorem place_of_step {a : Act} (h : (program parse).step s a = some t) : s.place ≠ none := by
  cases step_cases h with
  | front currentTime sent hp | loggedIn currentTime sent hp
  | registered currentTime sent hp | turn currentTime sent hp =>
    rw [hp]
    exact Option.some_ne_none _
  | took message client hp | threw message hp | closed hp => exact hp

/-- A run of the program is a session of its two threads. -/
theorem session_of_run {input : List Char} {as : List Act} (h : (program parse).run (start input) as = some s) :
    ∃ bs p, (process parse).run {} bs = some p ∧ Follows p s ∧
      (s.place ≠ none → bs.filterMap given = as.filterMap taken) := by
  have h₀ : Follows {} (start input) :=
    ⟨rfl, rfl, List.nil_sublist _, fun pl hpl => Or.inl (Option.some.inj hpl)⟩
  refine Machine.run_induction (P := fun as s => ∃ bs p, (process parse).run {} bs = some p ∧ Follows p s ∧
    (s.place ≠ none → bs.filterMap given = as.filterMap taken)) ⟨[], {}, rfl, h₀, fun _ => rfl⟩ ?_
    (Machine.meets_true _ as) h
  rintro as u a v ⟨bs, p, hb, hp, hg⟩ - hs
  obtain ⟨cs, q, hc, hq, hg'⟩ := follows_step hp hs
  refine ⟨bs ++ cs, q, ?_, hq, fun hn => ?_⟩
  · rw [Machine.run_append, hb]
    exact hc
  · rw [List.filterMap_append, List.filterMap_append, hg (place_of_step hs), hg' hn]
    cases a <;> rfl

/-- The main thread takes at most three steps for each char of the input and one
more, and only a response that has not come holds it up before its end; a form of
the front page is sent as typed when both lines have less than 50 bytes; else it is
sent as far as it has been read, and then reading has failed; and once reading has
failed nothing more is sent. -/
theorem program_reads (parse : Bytes → Option Json) (input : List Char) (as : List Act) (s : Terminal)
    (h : (program parse).run (start input) as = some s) :
    as.countP Act.isMain ≤ 3 * input.length + 1 ∧
      (s.place ≠ none → ∀ currentTime sent, (program parse).step s (.main currentTime sent) = none → s.Waiting) ∧
      (s.place = some .choice → s.menu.fail = false → ∀ k name pwd rest, Line name → Line pwd →
        s.menu.input = typed k name pwd ++ rest → ∀ currentTime sent, ∃ t,
          (program parse).step s (.main currentTime sent) = some t ∧
          if size name.toList < 50 ∧ size pwd.toList < 50 then Sends k name pwd rest s t else Cuts k name pwd s t) ∧
      (s.menu.fail = true → ∀ bs t, (program parse).run s bs = some t → t.menu.sends = s.menu.sends) := by
  have hi := inv_run h
  refine ⟨(Nat.le_add_right _ _).trans (countP_run h), fun hp _ _ hn => waiting_of_none hi hp hn, ?_,
    fun hf bs t hb => failed_run hf hb⟩
  intro hp hf k name pwd rest hn hw hin currentTime sent
  refine ⟨s.front, ?_, front_sends hn hw hin hf ?_⟩
  · dsimp only [program, step]
    rw [hp]
  · rw [← Bool.not_eq_true]
    intro he
    rw [hi.eof he, typed] at hin
    cases k <;> cases hin

def visit : List Char := typed .login "anna" "pw"

theorem program_reads_visit : ∃ t, (program fun _ => none).step (start visit) (.main "" true) = some t ∧
    Sends .login "anna" "pw" [] (start visit) t ∧ t.menu.sends = [(Requests.login "anna" "pw").dump ++ "\n"] := by
  have hr : (program fun _ => none).run (start visit) [] = some (start visit) := rfl
  obtain ⟨-, -, hread, -⟩ := program_reads (fun _ => none) visit [] (start visit) hr
  obtain ⟨t, ht, hs⟩ := hread rfl rfl .login "anna" "pw" [] ⟨by decide, by decide⟩ ⟨by decide, by decide⟩ rfl "" true
  rw [if_pos (by decide)] at hs
  exact ⟨t, ht, hs, hs.sends⟩

end BridgeIM.Client.FrontPage
