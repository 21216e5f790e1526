import Mathlib.Data.List.Induction

namespace BridgeIM.Lib.SqlText

/-- The tokens of a MySQL statement under the default `sql_mode`. A literal
carries its decoded value. -/
inductive Token
  | word (text : List Char)
  | name (text : List Char)
  | lit (text : List Char)
  | sym (c : Char)
  deriving DecidableEq, Repr

inductive Mode
  | text
  | word (acc : List Char)
  | str (q : Char) (acc : List Char)
  | esc (q : Char) (acc : List Char)
  | quote (q : Char) (acc : List Char)
  | name (acc : List Char)
  | nameQuote (acc : List Char)
  | dash
  | dashDash
  | lineComment
  | slash
  | blockOpen
  | block
  | blockStar
  deriving DecidableEq, Repr

abbrev Lexer := List Token × Mode

def isSpace (c : Char) : Bool := c = ' ' || (9 ≤ c.toNat && c.toNat ≤ 13)

def isWordChar (c : Char) : Bool := c.isAlphanum || c = '_' || c = '$' || 128 ≤ c.toNat

def unescape (c : Char) : List Char :=
  match c with
  | '0' => ['\x00']
  | 'b' => ['\x08']
  | 'n' => ['\n']
  | 'r' => ['\r']
  | 't' => ['\t']
  | 'Z' => ['\x1a']
  | '%' => ['\\', '%']
  | '_' => ['\\', '_']
  | c => [c]

def start (ts : List Token) (c : Char) : Lexer :=
  if isSpace c then (ts, .text)
  else if c = '\'' ∨ c = '"' then (ts, .str c [])
  else if c = '`' then (ts, .name [])
  else if c = '#' then (ts, .lineComment)
  else if c = '-' then (ts, .dash)
  else if c = '/' then (ts, .slash)
  else if isWordChar c then (ts, .word [c])
  else (ts ++ [.sym c], .text)

/-- One character of the statement. A comment opened by `/*!` is executed by
MySQL, so that its opening leaves a token. -/
def step : Lexer → Char → Lexer
  | (ts, .text), c => start ts c
  | (ts, .word acc), c =>
    if isWordChar c then (ts, .word (acc ++ [c])) else start (ts ++ [.word acc]) c
  | (ts, .str q acc), c =>
    if c = '\\' then (ts, .esc q acc)
    else if c = q then (ts, .quote q acc)
    else (ts, .str q (acc ++ [c]))
  | (ts, .esc q acc), c => (ts, .str q (acc ++ unescape c))
  | (ts, .quote q acc), c =>
    if c = q then (ts, .str q (acc ++ [q])) else start (ts ++ [.lit acc]) c
  | (ts, .name acc), c => if c = '`' then (ts, .nameQuote acc) else (ts, .name (acc ++ [c]))
  | (ts, .nameQuote acc), c =>
    if c = '`' then (ts, .name (acc ++ [c])) else start (ts ++ [.name acc]) c
  | (ts, .dash), c => if c = '-' then (ts, .dashDash) else start (ts ++ [.sym '-']) c
  | (ts, .dashDash), c =>
    if c = '-' then (ts ++ [.sym '-'], .dashDash)
    else if c = '\n' then (ts, .text)
    else if c = ' ' ∨ c.toNat < 32 then (ts, .lineComment)
    else start (ts ++ [.sym '-', .sym '-']) c
  | (ts, .lineComment), c => if c = '\n' then (ts, .text) else (ts, .lineComment)
  | (ts, .slash), c => if c = '*' then (ts, .blockOpen) else start (ts ++ [.sym '/']) c
  | (ts, .blockOpen), c =>
    if c = '!' then (ts ++ [.sym '!'], .text)
    else if c = '*' then (ts, .blockStar) else (ts, .block)
  | (ts, .block), c => if c = '*' then (ts, .blockStar) else (ts, .block)
  | (ts, .blockStar), c =>
    if c = '/' then (ts, .text) else if c = '*' then (ts, .blockStar) else (ts, .block)

def finish : Lexer → Option (List Token)
  | (ts, .text) | (ts, .lineComment) | (ts, .dashDash) => some ts
  | (ts, .word acc) => some (ts ++ [.word acc])
  | (ts, .quote _ acc) => some (ts ++ [.lit acc])
  | (ts, .nameQuote acc) => some (ts ++ [.name acc])
  | (ts, .dash) => some (ts ++ [.sym '-'])
  | (ts, .slash) => some (ts ++ [.sym '/'])
  | (_, .str ..) | (_, .esc ..) | (_, .name _) | (_, .blockOpen) | (_, .block) | (_, .blockStar) => none

/-- The tokens of a statement, or `none` for one that ends inside a literal, a
quoted name or a comment. -/
def tokens (s : List Char) : Option (List Token) := finish (s.foldl step ([], .text))

def Lexer.after (ts : List Token) (l : Lexer) : Lexer := (ts ++ l.1, l.2)

theorem start_after (ts us : List Token) (c : Char) :
    start (ts ++ us) c = Lexer.after ts (start us c) := by
  unfold start
  repeat' split
  all_goals first
    | rfl
    | simp [Lexer.after]

theorem step_after (ts : List Token) (l : Lexer) (c : Char) :
    step (l.after ts) c = (step l c).after ts := by
  obtain ⟨us, m⟩ := l
  cases m <;> simp only [step, Lexer.after, List.append_assoc, start_after] <;> repeat' split
  all_goals rfl

theorem foldl_after (cs : List Char) (ts : List Token) (l : Lexer) :
    cs.foldl step (l.after ts) = (cs.foldl step l).after ts := by
  induction cs generalizing l with
  | nil => rfl
  | cons c cs ih => rw [List.foldl_cons, step_after, ih, List.foldl_cons]

theorem finish_after (ts : List Token) (l : Lexer) :
    finish (l.after ts) = (finish l).map (fun us => ts ++ us) := by
  obtain ⟨us, m⟩ := l
  cases m <;> simp [finish, Lexer.after]

theorem foldl_close {q c : Char} (hq : q ≠ '\\') (hc : c ≠ q) (cs : List Char) (ts : List Token)
    (acc : List Char) : (q :: c :: cs).foldl step (ts, .str q acc) =
      Lexer.after (ts ++ [.lit acc]) ((c :: cs).foldl step ([], .text)) := by
  have h : start (ts ++ [.lit acc]) c = Lexer.after (ts ++ [.lit acc]) (start [] c) := by
    rw [← start_after, List.append_nil]
  simp only [List.foldl_cons, step, hq, hc, if_false, if_true, h, foldl_after]

/-- Whether a text decodes to itself between two quotes `q`. -/
def verbatim (q : Char) : List Char → Bool
  | [] => true
  | ['\\'] => false
  | '\\' :: c :: cs => (c = '%' || c = '_') && verbatim q cs
  | c :: cs => c ≠ q && verbatim q cs

theorem verbatim_cons {q c : Char} (hc : c ≠ '\\') (cs : List Char) :
    verbatim q (c :: cs) = (c ≠ q && verbatim q cs) := by
  rw [verbatim.eq_4]
  · exact fun h => absurd h hc
  · exact fun _ _ h => absurd h hc

theorem verbatim_of_forall {q : Char} {cs : List Char} (h : ∀ c ∈ cs, c ≠ '\\' ∧ c ≠ q) :
    verbatim q cs = true := by
  induction cs with
  | nil => rfl
  | cons c cs ih =>
    have hc := h c (by simp)
    rw [verbatim_cons hc.1, ih fun d hd => h d (by simp [hd])]
    simpa using hc.2

theorem start_tokens (ts : List Token) (c : Char) : ts <+: (start ts c).1 := by
  unfold start
  repeat' split
  all_goals first
    | exact List.prefix_rfl
    | exact List.prefix_append _ _

theorem step_tokens (l : Lexer) (c : Char) : l.1 <+: (step l c).1 := by
  obtain ⟨ts, m⟩ := l
  have hs (t : Token) : ts <+: (start (ts ++ [t]) c).1 :=
    (List.prefix_append ts [t]).trans (start_tokens _ c)
  have hd : ts <+: (start (ts ++ [.sym '-', .sym '-']) c).1 :=
    (List.prefix_append ts _).trans (start_tokens _ c)
  cases m <;> simp only [step] <;> repeat' split
  all_goals first
    | exact List.prefix_rfl
    | exact List.prefix_append _ _
    | exact start_tokens ts c
    | exact hs _
    | exact hd

theorem foldl_tokens (cs : List Char) (l : Lexer) : l.1 <+: (cs.foldl step l).1 := by
  induction cs generalizing l with
  | nil => exact List.prefix_rfl
  | cons c cs ih => exact (step_tokens l c).trans (ih (step l c))

theorem finish_tokens {l : Lexer} {out : List Token} (h : finish l = some out) : l.1 <+: out := by
  obtain ⟨ts, m⟩ := l
  cases m <;> simp only [finish, Option.some.injEq, reduceCtorEq] at h <;> subst h
  all_goals first
    | exact List.prefix_rfl
    | exact List.prefix_append _ _

theorem ne_backslash {c : Char} {cs : List Char} (hn : c = '\\' → cs = [] → False)
    (hc : ∀ d ds, c = '\\' → cs = d :: ds → False) : c ≠ '\\' := by
  rintro rfl
  cases cs with
  | nil => exact hn rfl rfl
  | cons d ds => exact hc d ds rfl rfl

theorem foldl_verbatim {q : Char} {cs : List Char} (h : verbatim q cs = true)
    (ts : List Token) (acc : List Char) :
    cs.foldl step (ts, .str q acc) = (ts, .str q (acc ++ cs)) := by
  fun_induction verbatim q cs generalizing acc with
  | case1 => simp
  | case2 => cases h
  | case3 c cs ih =>
    simp only [Bool.and_eq_true, Bool.or_eq_true, decide_eq_true_eq] at h
    have hu : unescape c = ['\\', c] := by rcases h.1 with rfl | rfl <;> rfl
    simp [step, hu, ih h.2]
  | case4 c cs hn hc ih =>
    simp only [Bool.and_eq_true, decide_eq_true_eq] at h
    have hb := ne_backslash hn hc
    simp [step, h.1, hb, ih h.2]

theorem length_unescape_le (c : Char) : (unescape c).length ≤ 2 := by
  unfold unescape
  split <;> simp

theorem length_unescape {c : Char} (h₁ : c ≠ '%') (h₂ : c ≠ '_') : (unescape c).length = 1 := by
  unfold unescape
  split <;> first | rfl | contradiction

/-- A literal that has read `n` characters but no longer decodes to all of
them: it is shorter, or it has ended early. -/
inductive Short (q : Char) (ts : List Token) (n : Nat) : Lexer → Prop
  | done {l : Lexer} (t : List Char) (ht : t.length < n) (hl : ts ++ [.lit t] <+: l.1) : Short q ts n l
  | str {acc : List Char} (h : acc.length < n) : Short q ts n (ts, .str q acc)
  | esc {acc : List Char} (h : acc.length + 1 < n) : Short q ts n (ts, .esc q acc)
  | quote {acc : List Char} (h : acc.length < n) : Short q ts n (ts, .quote q acc)

theorem Short.step {q : Char} {ts : List Token} {n : Nat} {l : Lexer} (h : Short q ts n l) (c : Char) :
    Short q ts (n + 1) (step l c) := by
  cases h with
  | done t ht hl => exact .done t (by omega) (hl.trans (step_tokens l c))
  | @str acc h =>
    simp only [SqlText.step]
    split
    · exact .esc (by omega)
    · split
      · exact .quote (by omega)
      · exact .str (by simp; omega)
  | @esc acc h =>
    have hu := length_unescape_le c
    exact .str (by simp; omega)
  | @quote acc h =>
    simp only [SqlText.step]
    split
    · exact .str (by simp; omega)
    · exact .done acc (by omega) (start_tokens _ c)

theorem Short.foldl {q : Char} {ts : List Token} {n : Nat} {l : Lexer} (h : Short q ts n l)
    (cs : List Char) : Short q ts (n + cs.length) (cs.foldl SqlText.step l) := by
  induction cs generalizing n l with
  | nil => exact h
  | cons c cs ih =>
    have h' := ih (h.step c)
    rwa [Nat.add_assoc, Nat.add_comm 1] at h'

theorem Short.finish {q : Char} {ts out : List Token} {n : Nat} {l : Lexer} (h : Short q ts n l)
    (hf : finish l = some out) : ∃ t, t.length < n ∧ ts ++ [.lit t] <+: out := by
  cases h with
  | done t ht hl => exact ⟨t, ht, hl.trans (finish_tokens hf)⟩
  | str h => cases hf
  | esc h => cases hf
  | @quote acc h =>
    cases hf
    exact ⟨acc, h, List.prefix_rfl⟩

theorem foldl_not_verbatim {q : Char} {cs : List Char} (h : verbatim q cs = false)
    (ts : List Token) (acc : List Char) :
    Short q ts (acc.length + cs.length) (cs.foldl step (ts, .str q acc)) ∨
      ∃ acc', cs.foldl step (ts, .str q acc) = (ts, .esc q acc') := by
  fun_induction verbatim q cs generalizing acc with
  | case1 => cases h
  | case2 => exact Or.inr ⟨acc, rfl⟩
  | case3 c cs ih =>
    by_cases hc : c = '%' ∨ c = '_'
    · have hu : unescape c = ['\\', c] := by rcases hc with rfl | rfl <;> rfl
      have hv : verbatim q cs = false := by
        rcases hc with rfl | rfl <;> simpa using h
      have h' := ih hv (acc ++ ['\\', c])
      have hl : (acc ++ ['\\', c]).length + cs.length = acc.length + ('\\' :: c :: cs).length := by
        simp; omega
      rw [hl] at h'
      simpa [step, hu] using h'
    · have hu := length_unescape (fun h => hc (Or.inl h)) (fun h => hc (Or.inr h))
      have hs : Short q ts (acc.length + 2) (ts, .str q (acc ++ unescape c)) := .str (by simp [hu])
      have hl : acc.length + 2 + cs.length = acc.length + ('\\' :: c :: cs).length := by simp; omega
      exact Or.inl (hl ▸ hs.foldl cs)
  | case4 c cs hn hc ih =>
    have hb := ne_backslash hn hc
    by_cases hq : c = q
    · subst hq
      have hs : Short c ts (acc.length + 1) (ts, .quote c acc) := .quote (by omega)
      have hl : acc.length + 1 + cs.length = acc.length + (c :: cs).length := by simp; omega
      left
      rw [← hl]
      simpa [step, hb] using hs.foldl cs
    · have hv : verbatim q cs = false := by simpa [hq] using h
      have h' := ih hv (acc ++ [c])
      have hl : (acc ++ [c]).length + cs.length = acc.length + (c :: cs).length := by simp; omega
      rw [hl] at h'
      simpa [step, hb, hq] using h'

theorem finish_open {q : Char} {rest : List Char} (hr : q ∉ rest) (ts : List Token) (acc : List Char) :
    finish (rest.foldl step (ts, .str q acc)) = none ∧
      finish (rest.foldl step (ts, .esc q acc)) = none := by
  induction rest generalizing acc with
  | nil => exact ⟨rfl, rfl⟩
  | cons c rest ih =>
    have hq : c ≠ q := fun h => hr (h ▸ List.mem_cons_self)
    have hr' : q ∉ rest := fun h => hr (List.mem_cons_of_mem c h)
    refine ⟨?_, (ih hr' _).1⟩
    by_cases hb : c = '\\'
    · simpa [step, hb] using (ih hr' acc).2
    · simpa [step, hb, hq] using (ih hr' (acc ++ [c])).1

/-- A literal built from a text that is not verbatim: the statement has no
tokens, or the literal has decoded to something shorter. -/
theorem tokens_not_verbatim {q : Char} {cs rest : List Char} (h : verbatim q cs = false)
    (hr : q ∉ rest) {ts out : List Token}
    (ho : finish ((cs ++ q :: rest).foldl step (ts, .str q [])) = some out) :
    ∃ t, t.length < cs.length ∧ ts ++ [.lit t] <+: out := by
  rw [List.foldl_append, List.foldl_cons] at ho
  have hopen {acc : List Char} :
      finish (rest.foldl step (ts, .str q acc)) ≠ some out := by
    rw [(finish_open hr ts acc).1]
    exact nofun
  rcases foldl_not_verbatim h ts [] with hs | ⟨acc', he⟩
  · rw [List.length_nil, Nat.zero_add] at hs
    generalize cs.foldl step (ts, .str q []) = l at hs ho
    cases hs with
    | done t ht hl =>
      have hp := (step_tokens l q).trans ((foldl_tokens rest _).trans (finish_tokens ho))
      exact ⟨t, ht, hl.trans hp⟩
    | @str acc h =>
      by_cases hb : q = '\\'
      · simp only [step, hb, if_true] at ho
        rw [(finish_open (hb ▸ hr) ts acc).2] at ho
        cases ho
      · refine ⟨acc, h, ?_⟩
        simp only [step, hb, if_false, if_true] at ho
        cases rest with
        | nil =>
          cases ho
          exact List.prefix_rfl
        | cons c rest =>
          have hq : c ≠ q := fun h => hr (h ▸ List.mem_cons_self)
          simp only [List.foldl_cons, step, hq, if_false] at ho
          exact (start_tokens _ c).trans ((foldl_tokens rest _).trans (finish_tokens ho))
    | esc h => exact absurd ho hopen
    | quote h =>
      simp only [step, if_true] at ho
      exact absurd ho hopen
  · rw [he] at ho
    exact absurd ho hopen

theorem foldl_of_not_mem {q : Char} {cs : List Char} (h : q ∉ cs) (ts : List Token) (acc : List Char) :
    ∃ acc', cs.foldl step (ts, .str q acc) = (ts, .str q acc') ∨
      cs.foldl step (ts, .str q acc) = (ts, .esc q acc') := by
  induction cs using List.reverseRecOn with
  | nil => exact ⟨acc, Or.inl rfl⟩
  | append_singleton cs c ih =>
    have hq : c ≠ q := fun he => h (by simp [he])
    obtain ⟨acc', he | he⟩ := ih fun hm => h (by simp [hm])
    · rw [List.foldl_append, he]
      by_cases hb : c = '\\'
      · exact ⟨acc', Or.inr (by simp [step, hb])⟩
      · exact ⟨acc' ++ [c], Or.inl (by simp [step, hb, hq])⟩
    · rw [List.foldl_append, he]
      exact ⟨acc' ++ unescape c, Or.inl rfl⟩

/-- A literal cut off before its closing quote never decodes to its text. -/
theorem tokens_cut {q : Char} {cs : List Char} {ts out : List Token}
    (ho : finish (cs.foldl step (ts, .str q [])) = some out) :
    ∃ t, t.length < cs.length ∧ ts ++ [.lit t] <+: out := by
  cases hv : verbatim q cs with
  | true =>
    rw [foldl_verbatim hv] at ho
    cases ho
  | false =>
    rcases foldl_not_verbatim hv ts [] with hs | ⟨acc', he⟩
    · simpa using hs.finish ho
    · rw [he] at ho
      cases ho

end BridgeIM.Lib.SqlText
