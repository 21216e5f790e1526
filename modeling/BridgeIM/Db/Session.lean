import BridgeIM.CString
import BridgeIM.Lib.SqlText

namespace BridgeIM.Db

open CString Lib.SqlText

/-- One row of a result set: the texts of its columns, `none` for `NULL`. -/
abbrev Row := List (Option String)

/-- What a MySQL server holding data `D` does with a statement, given by its
tokens. A refused statement has no result. -/
structure Mysql (D : Type) where
  update : List Token → D → Option D
  query : List Token → D → Option (List Row)
  insertId : List Token → D → Int := fun _ _ => 0

variable {D : Type}

/-- The tokens of the text that `mysql_query(conn, sql.c_str())` sends. -/
@[irreducible] def sent (sql : String) : Option (List Token) := tokens (cstring sql).toList

def Mysql.execUpdate (m : Mysql D) (sql : String) (d : D) : Option D :=
  (sent sql).bind (fun ts => m.update ts d)

def Mysql.execQuery (m : Mysql D) (sql : String) (d : D) : Option (List Row) :=
  (sent sql).bind (fun ts => m.query ts d)

/-- The value of `mysql_insert_id` after the statement. -/
def Mysql.lastInsertId (m : Mysql D) (sql : String) (d : D) : Int :=
  (sent sql).elim 0 (fun ts => m.insertId ts d)

def getString (row : Row) (index : Nat) : String :=
  match row[index]? with
  | some (some value) => cstring value
  | _ => ""

/-- `atoi` of a column, where the columns that are read are those of type `INT`. -/
def getInt (row : Row) (index : Nat) : Int :=
  match row[index]? with
  | some (some value) => leadingInt value
  | _ => 0

def IsInt (n : Int) : Prop := -2147483648 ≤ n ∧ n < 2147483648

instance (n : Int) : Decidable (IsInt n) := inferInstanceAs (Decidable (_ ∧ _))

def kw (s : String) : Token := .word s.toList

/-- A text between two apostrophes is one literal with that text as its value. -/
def Plain (s : String) : Prop := '\x00' ∉ s.toList ∧ verbatim '\'' s.toList = true

instance (s : String) : Decidable (Plain s) := inferInstanceAs (Decidable (_ ∧ _))

def Opens (a : String) (ts : List Token) : Prop :=
  '\x00' ∉ a.toList ∧ a.toList.foldl step ([], .text) = (ts, .str '\'' [])

instance (a : String) (ts : List Token) : Decidable (Opens a ts) := inferInstanceAs (Decidable (_ ∧ _))

def Between (s : String) (us : List Token) : Prop :=
  '\x00' ∉ s.toList ∧ ∀ ts acc, s.toList.foldl step (ts, .str '\'' acc) = (ts ++ .lit acc :: us, .str '\'' [])

def Closes (s : String) (us : List Token) : Prop :=
  '\x00' ∉ s.toList ∧ ∀ ts acc, finish (s.toList.foldl step (ts, .str '\'' acc)) = some (ts ++ .lit acc :: us)

theorem between_of_foldl {s : String} {c : Char} {cs : List Char} (hs : s.toList = '\'' :: c :: cs)
    (hn : '\x00' ∉ s.toList) (hc : c ≠ '\'') {us : List Token}
    (h : (c :: cs).foldl step ([], .text) = (us, .str '\'' [])) : Between s us := by
  refine ⟨hn, fun ts acc => ?_⟩
  rw [hs, foldl_close (by decide) hc, h, Lexer.after, List.append_assoc, List.singleton_append]

theorem closes_of_foldl {s : String} {c : Char} {cs : List Char} (hs : s.toList = '\'' :: c :: cs)
    (hn : '\x00' ∉ s.toList) (hc : c ≠ '\'') {us : List Token}
    (h : finish ((c :: cs).foldl step ([], .text)) = some us) : Closes s us := by
  refine ⟨hn, fun ts acc => ?_⟩
  rw [hs, foldl_close (by decide) hc, finish_after, h, Option.map_some, List.append_assoc,
    List.singleton_append]

theorem between_comma : Between "','" [.sym ','] := by
  have h : "','".toList = ['\'', ',', '\''] := rfl
  exact between_of_foldl h (by decide) (by decide) (by decide)

theorem closes_paren : Closes "')" [.sym ')'] := by
  have h : "')".toList = ['\'', ')'] := rfl
  exact closes_of_foldl h (by decide) (by decide) (by decide)

theorem closes_quote : Closes "'" [] := by
  have h : "'".toList = ['\''] := rfl
  refine ⟨by decide, fun ts acc => ?_⟩
  rw [h]
  simp [step, finish]

theorem Opens.append {a x s : String} {ts us : List Token} (ha : Opens a ts) (hx : Plain x)
    (hs : Between s us) : Opens (a ++ x ++ s) (ts ++ .lit x.toList :: us) := by
  constructor
  · simp only [String.toList_append, List.mem_append, ha.1, hx.1, hs.1, or_self, not_false_eq_true]
  · rw [String.toList_append, String.toList_append, List.foldl_append, List.foldl_append, ha.2,
      foldl_verbatim hx.2, List.nil_append, hs.2]

theorem Opens.sent {a x s : String} {ts : List Token} (ha : Opens a ts) (hx : '\x00' ∉ x.toList)
    (hs : '\x00' ∉ s.toList) :
    sent (a ++ x ++ s) = finish ((x.toList ++ s.toList).foldl step (ts, .str '\'' [])) := by
  have hn : '\x00' ∉ (a ++ x ++ s).toList := by
    simp only [String.toList_append, List.mem_append, ha.1, hx, hs, or_self, not_false_eq_true]
  rw [Db.sent, cstring_of_not_mem hn, String.toList_append, String.toList_append, List.append_assoc, tokens,
    List.foldl_append, ha.2]

theorem Opens.sent_cut {a x s : String} {ts : List Token} (ha : Opens a ts) (hx : '\x00' ∈ x.toList) :
    Db.sent (a ++ x ++ s) = finish ((x.toList.takeWhile (· ≠ '\x00')).foldl step (ts, .str '\'' [])) := by
  have h₁ : ∀ c ∈ a.toList, decide (c ≠ '\x00') = true := by
    intro c hc
    exact decide_eq_true fun he => ha.1 (he ▸ hc)
  have h₂ : (x.toList ++ s.toList).takeWhile (· ≠ '\x00') = x.toList.takeWhile (· ≠ '\x00') := by
    rw [List.takeWhile_append, if_neg]
    intro h
    have he := (List.takeWhile_prefix (l := x.toList) (· ≠ '\x00')).eq_of_length h
    have hc := List.takeWhile_eq_self_iff.mp he '\x00' hx
    exact absurd hc (by decide)
  rw [Db.sent, toList_cstring, String.toList_append, String.toList_append, List.append_assoc,
    List.takeWhile_append_of_pos h₁, h₂, tokens, List.foldl_append, ha.2]

theorem Opens.sent_plain {a x s : String} {ts us : List Token} (ha : Opens a ts) (hx : Plain x)
    (hs : Closes s us) : Db.sent (a ++ x ++ s) = some (ts ++ .lit x.toList :: us) := by
  rw [ha.sent hx.1 hs.1, List.foldl_append, foldl_verbatim hx.2, List.nil_append, hs.2]

theorem Opens.begins {a x s : String} {ts out : List Token} (ha : Opens a ts) (hs : '\x00' ∉ s.toList)
    (h : Db.sent (a ++ x ++ s) = some out) : ts <+: out := by
  by_cases hx : '\x00' ∈ x.toList
  · rw [ha.sent_cut hx] at h
    exact (foldl_tokens _ (ts, .str '\'' [])).trans (finish_tokens h)
  · rw [ha.sent hx hs] at h
    exact (foldl_tokens _ (ts, .str '\'' [])).trans (finish_tokens h)

/-- A statement with one spliced text has the intended tokens exactly when the
text is plain. -/
theorem Opens.sent_eq_iff {a x : String} {ts : List Token} (ha : Opens a ts) :
    Db.sent (a ++ x ++ "'") = some (ts ++ [.lit x.toList]) ↔ Plain x := by
  refine ⟨fun h => ?_, fun hx => ha.sent_plain hx closes_quote⟩
  have hlit {t : List Char} (hl : t.length < x.toList.length)
      (hp : ts ++ [.lit t] <+: ts ++ [.lit x.toList]) : False := by
    rw [List.prefix_append_right_inj, List.cons_prefix_cons] at hp
    cases hp.1
    exact absurd hl (Nat.lt_irrefl _)
  by_cases hn : '\x00' ∈ x.toList
  · rw [ha.sent_cut hn] at h
    obtain ⟨t, ht, hp⟩ := tokens_cut h
    exact (hlit (ht.trans_le (List.takeWhile_prefix _).length_le) hp).elim
  · refine ⟨hn, ?_⟩
    by_contra hv
    rw [Bool.not_eq_true] at hv
    rw [ha.sent hn closes_quote.1] at h
    obtain ⟨t, ht, hp⟩ := tokens_not_verbatim hv List.not_mem_nil h
    exact hlit ht hp

theorem plain_decimal (n : Int) : Plain (decimal n) := by
  have h : ∀ c ∈ (decimal n).toList, c ≠ '\\' ∧ c ≠ '\'' := by
    intro c hc
    obtain rfl | hd := isDigit_of_mem_decimal hc
    · decide
    · constructor <;> rintro rfl <;> exact absurd hd (by decide)
  refine ⟨fun hn => ?_, verbatim_of_forall h⟩
  obtain hn | hn := isDigit_of_mem_decimal hn <;> exact absurd hn (by decide)

end BridgeIM.Db
