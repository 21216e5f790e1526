import BridgeIM.Db.Session
import BridgeIM.Lib.Forms

namespace BridgeIM.Db

open CString Lib Lib.SqlText

/-- The tokens of a number that stands in a statement without quotes. -/
def intTokens : Int → List Token
  | .ofNat n => [.word (Nat.toDigits 10 n)]
  | .negSucc n => [.sym '-', .word (Nat.toDigits 10 (n + 1))]

def Begins (a : String) (ts : List Token) : Prop :=
  '\x00' ∉ a.toList ∧ a.toList.foldl step ([], .text) = (ts, .text)

instance (a : String) (ts : List Token) : Decidable (Begins a ts) := inferInstanceAs (Decidable (_ ∧ _))

theorem toList_concat {a b : String} {as bs : List Char} (ha : a.toList = as) (hb : b.toList = bs) :
    (a ++ b).toList = as ++ bs := by
  rw [String.toList_append, ha, hb]

theorem begins_of {a : String} {cs : List Char} {ts : List Token} (ha : a.toList = cs) (h₀ : '\x00' ∉ cs)
    (h : cs.foldl step ([], .text) = (ts, .text)) : Begins a ts := by
  rw [Begins, ha]
  exact ⟨h₀, h⟩

theorem opens_of {a : String} {cs : List Char} {ts : List Token} (ha : a.toList = cs) (h₀ : '\x00' ∉ cs)
    (h : cs.foldl step ([], .text) = (ts, .str '\'' [])) : Opens a ts := by
  rw [Opens, ha]
  exact ⟨h₀, h⟩

def Gap (s : String) (us : List Token) : Prop :=
  '\x00' ∉ s.toList ∧ s.toList.head?.map isWordChar = some false ∧ s.toList.foldl step ([], .text) = (us, .text)

instance (s : String) (us : List Token) : Decidable (Gap s us) := inferInstanceAs (Decidable (_ ∧ _ ∧ _))

def Ends (s : String) (us : List Token) : Prop :=
  '\x00' ∉ s.toList ∧ s.toList.head?.map isWordChar ≠ some true ∧ finish (s.toList.foldl step ([], .text)) = some us

instance (s : String) (us : List Token) : Decidable (Ends s us) := inferInstanceAs (Decidable (_ ∧ _ ∧ _))

theorem isWordChar_of_isDigit {c : Char} (h : c.isDigit = true) : Lib.SqlText.isWordChar c = true := by
  simp [Lib.SqlText.isWordChar, Char.isAlphanum, h]

theorem start_digit {c : Char} (h : c.isDigit = true) (ts : List Token) : start ts c = (ts, .word [c]) := by
  have hw := isWordChar_of_isDigit h
  have hs : Lib.SqlText.isSpace c = false := by
    by_contra hs
    simp only [Lib.SqlText.isSpace, Bool.not_eq_false, Bool.or_eq_true, decide_eq_true_eq, Bool.and_eq_true] at hs
    simp only [Char.isDigit, Bool.and_eq_true, decide_eq_true_eq, ge_iff_le, UInt32.le_iff_toNat_le] at h
    obtain rfl | hs := hs
    · exact absurd h (by decide)
    · have hc : c.val.toNat = c.toNat := rfl
      have h48 : '0'.val.toNat = 48 := rfl
      omega
  have hne : ∀ d : Char, d.isDigit = false → c ≠ d := by
    rintro d hd rfl
    rw [h] at hd
    cases hd
  rw [start, hs, if_neg Bool.false_ne_true, if_neg (by simp [hne '\'' rfl, hne '"' rfl]), if_neg (hne '`' rfl),
    if_neg (hne '#' rfl), if_neg (hne '-' rfl), if_neg (hne '/' rfl), if_pos hw]

theorem foldl_wordChars {cs : List Char} (h : ∀ c ∈ cs, Lib.SqlText.isWordChar c = true) (ts : List Token)
    (acc : List Char) : cs.foldl step (ts, .word acc) = (ts, .word (acc ++ cs)) := by
  induction cs generalizing acc with
  | nil => rw [List.append_nil]; rfl
  | cons c cs ih =>
    rw [List.foldl_cons, step, if_pos (h c List.mem_cons_self), ih fun d hd => h d (List.mem_cons_of_mem c hd),
      List.append_assoc, List.singleton_append]

theorem foldl_toDigits (n : Nat) {c : Char} {cs : List Char} (hl : Nat.toDigits 10 n = c :: cs) {l : Lexer}
    {ts : List Token} (hs : step l c = start ts c) : (Nat.toDigits 10 n).foldl step l = (ts, .word (Nat.toDigits 10 n)) := by
  have hd : ∀ d ∈ Nat.toDigits 10 n, d.isDigit = true :=
    fun d hd => Nat.isDigit_of_mem_toDigits (by omega) (by omega) hd
  have hc : c.isDigit = true := hd c (by rw [hl]; exact List.mem_cons_self)
  have hcs : ∀ d ∈ cs, Lib.SqlText.isWordChar d = true :=
    fun d hm => isWordChar_of_isDigit (hd d (by rw [hl]; exact List.mem_cons_of_mem c hm))
  rw [hl, List.foldl_cons, hs, start_digit hc, foldl_wordChars hcs, List.singleton_append]

theorem foldl_decimal (n : Int) (ts : List Token) : ∃ us acc, intTokens n = us ++ [.word acc] ∧
    (decimal n).toList.foldl step (ts, .text) = (ts ++ us, .word acc) := by
  cases n with
  | ofNat n =>
    refine ⟨[], Nat.toDigits 10 n, rfl, ?_⟩
    rw [toList_decimal_ofNat, List.append_nil]
    cases hl : Nat.toDigits 10 n with
    | nil => exact absurd hl Nat.toDigits_ne_nil
    | cons c cs =>
      rw [← hl]
      exact foldl_toDigits n hl rfl
  | negSucc n =>
    refine ⟨[.sym '-'], Nat.toDigits 10 (n + 1), rfl, ?_⟩
    rw [toList_decimal_negSucc, List.foldl_cons]
    have hdash : step (ts, .text) '-' = (ts, .dash) := rfl
    rw [hdash]
    cases hl : Nat.toDigits 10 (n + 1) with
    | nil => exact absurd hl Nat.toDigits_ne_nil
    | cons c cs =>
      have hc : c.isDigit = true := Nat.isDigit_of_mem_toDigits (b := 10) (n := n + 1) (by omega) (by omega) (by simp [hl])
      have hne : c ≠ '-' := by
        rintro rfl
        exact absurd hc (by decide)
      rw [← hl]
      refine foldl_toDigits (n + 1) hl ?_
      rw [step, if_neg hne]

theorem nul_not_mem_decimal (n : Int) : '\x00' ∉ (decimal n).toList := (plain_decimal n).1

theorem foldl_after_word {s : String} (hs : s.toList.head?.map isWordChar = some false) (ts : List Token)
    (acc : List Char) :
    s.toList.foldl step (ts, .word acc) = Lexer.after (ts ++ [.word acc]) (s.toList.foldl step ([], .text)) := by
  cases hl : s.toList with
  | nil =>
    rw [hl] at hs
    cases hs
  | cons c cs =>
    rw [hl, List.head?_cons, Option.map_some, Option.some.injEq] at hs
    have hc : start (ts ++ [.word acc]) c = Lexer.after (ts ++ [.word acc]) (start [] c) := by
      rw [← start_after, List.append_nil]
    simp only [List.foldl_cons, step, hs, Bool.false_eq_true, if_false, hc, foldl_after]

theorem Begins.num {a s : String} {ts us : List Token} (ha : Begins a ts) (n : Int) (hs : Gap s us) :
    Begins (a ++ decimal n ++ s) (ts ++ intTokens n ++ us) := by
  obtain ⟨vs, acc, hn, hf⟩ := foldl_decimal n ts
  constructor
  · simp only [String.toList_append, List.mem_append, ha.1, nul_not_mem_decimal, hs.1, or_self, not_false_eq_true]
  · rw [String.toList_append, String.toList_append, List.foldl_append, List.foldl_append, ha.2, hf,
      foldl_after_word hs.2.1, hs.2.2, Lexer.after, hn, ← List.append_assoc]

theorem Begins.sent {a s : String} {ts us : List Token} (ha : Begins a ts) (n : Int) (hs : Ends s us) :
    sent (a ++ decimal n ++ s) = some (ts ++ intTokens n ++ us) := by
  obtain ⟨vs, acc, hn, hf⟩ := foldl_decimal n ts
  have hnul : '\x00' ∉ (a ++ decimal n ++ s).toList := by
    simp only [String.toList_append, List.mem_append, ha.1, nul_not_mem_decimal, hs.1, or_self, not_false_eq_true]
  rw [Db.sent, cstring_of_not_mem hnul, tokens, String.toList_append, String.toList_append, List.foldl_append,
    List.foldl_append, ha.2, hf]
  cases hl : s.toList with
  | nil =>
    have hu : us = [] := by
      have h := hs.2.2
      rw [hl] at h
      cases h
      rfl
    rw [hn, hu, List.foldl_nil, finish, List.append_nil, List.append_assoc]
  | cons c cs =>
    have hc : s.toList.head?.map isWordChar = some false := by
      have h := hs.2.1
      rw [hl, List.head?_cons, Option.map_some] at h ⊢
      rw [Option.some.injEq]
      exact Bool.eq_false_iff.mpr fun ht => h (congrArg some ht)
    rw [← hl, foldl_after_word hc, finish_after, hs.2.2, Option.map_some, hn, ← List.append_assoc]

theorem Begins.sent_last {a : String} {ts : List Token} (ha : Begins a ts) (n : Int) :
    Db.sent (a ++ decimal n) = some (ts ++ intTokens n) := by
  have h : Ends "" [] := by decide
  have hs := ha.sent n h
  rwa [String.append_empty, List.append_nil] at hs

def readInt : List Token → Option (Int × List Token)
  | .sym '-' :: .word ds :: ts => some (-(digits ds : Int), ts)
  | .word ds :: ts => some (digits ds, ts)
  | _ => none

theorem readInt_intTokens (n : Int) (ts : List Token) : readInt (intTokens n ++ ts) = some (n, ts) := by
  cases n with
  | ofNat n =>
    have hd := digits_toDigits n
    simp [intTokens, readInt, hd]
  | negSucc n =>
    have hd := digits_toDigits (n + 1)
    simp only [intTokens, List.cons_append, List.nil_append, readInt, hd]
    rfl

def readTwo (mid ts : List Token) : Option ((Int × Int) × List Token) :=
  (readInt ts).bind fun x => (Form.readFixed mid x.2).bind fun ts => (readInt ts).map fun y => ((x.1, y.1), y.2)

theorem readTwo_eq (mid : List Token) (a b : Int) (ts : List Token) :
    readTwo mid (intTokens a ++ mid ++ intTokens b ++ ts) = some ((a, b), ts) := by
  simp only [readTwo, List.append_assoc, readInt_intTokens, Option.bind_some, Form.readFixed_append, Option.map_some]

end BridgeIM.Db
