import BridgeIM.CString
import Mathlib.Data.List.Basic
import Mathlib.Data.List.Induction

namespace BridgeIM

/-- A finite double given by the decimal digits that print it. -/
structure Decimal where
  neg : Bool
  digits : Nat
  exp : Int
  deriving DecidableEq, Repr

/-- The values of `nlohmann::json`. The fields of an object are kept in the
order of its `std::map`. -/
inductive Json
  | null
  | bool (b : Bool)
  | int (n : Int)
  | float (x : Decimal)
  | str (s : String)
  | arr (xs : List Json)
  | obj (fields : List (String × Json))
  deriving Repr

namespace Decimal

def sign (x : Decimal) : List Char := if x.neg then ['-'] else []

def exponent (e : Int) : List Char :=
  let k := Nat.toDigits 10 e.natAbs
  (if e < 0 then '-' else '+') :: (if k.length < 2 then '0' :: k else k)

def text (x : Decimal) : List Char :=
  let ds := Nat.toDigits 10 x.digits
  let n : Int := ds.length + x.exp
  x.sign ++
    if x.digits = 0 then ['0', '.', '0']
    else if ds.length ≤ n ∧ n ≤ 15 then ds ++ List.replicate x.exp.toNat '0' ++ ['.', '0']
    else if 0 < n ∧ n ≤ 15 then ds.take n.toNat ++ '.' :: ds.drop n.toNat
    else if -4 < n ∧ n ≤ 0 then '0' :: '.' :: List.replicate (-n).toNat '0' ++ ds
    else match ds with
      | [d] => d :: 'e' :: exponent (n - 1)
      | ds => ds.take 1 ++ '.' :: ds.drop 1 ++ 'e' :: exponent (n - 1)

def trunc (x : Decimal) : Int :=
  let n : Nat := if 0 ≤ x.exp then x.digits * Nat.pow 10 x.exp.toNat else x.digits / Nat.pow 10 (-x.exp).toNat
  if x.neg then -n else n

end Decimal

namespace Json

open CString

/-- The conversion of a number to a 32-bit `int`. -/
def wrap (n : Int) : Int := (n + 2147483648) % 4294967296 - 2147483648

/-- The conversion of a double to a 32-bit `int`. Outside the range it is
undefined; on x86-64 it gives the least `int`. -/
def truncate (x : Decimal) : Int :=
  if -2147483648 ≤ x.trunc ∧ x.trunc < 2147483648 then x.trunc else -2147483648

/-- What `get<int>()` returns; it throws for the other types. -/
def toInt? : Json → Option Int
  | int n => some (wrap n)
  | float x => some (truncate x)
  | bool b => some (if b then 1 else 0)
  | _ => none

def toStr? : Json → Option String
  | str s => some s
  | _ => none

def get? (j : Json) (key : String) : Option Json :=
  match j with
  | obj fields => (fields.find? (fun f => f.1 = key)).map Prod.snd
  | _ => none

def contains (j : Json) (key : String) : Bool := (j.get? key).isSome

def setField (key : String) (v : Json) : List (String × Json) → List (String × Json)
  | [] => [(key, v)]
  | f :: fs =>
    if f.1 = key then (key, v) :: fs
    else if key < f.1 then (key, v) :: f :: fs
    else f :: setField key v fs

def set (j : Json) (key : String) (v : Json) : Json :=
  match j with
  | obj fields => obj (setField key v fields)
  | null => obj [(key, v)]
  | j => j

def mkObj (fields : List (String × Json)) : Json := fields.foldl (fun j f => j.set f.1 f.2) (obj [])

def strs (xs : List String) : Json := arr (xs.map str)

def hexDigit (n : Nat) : Char := if n < 10 then Char.ofNat (48 + n) else Char.ofNat (87 + n)

def escape (c : Char) : List Char :=
  if c = '\x08' then ['\\', 'b']
  else if c = '\t' then ['\\', 't']
  else if c = '\n' then ['\\', 'n']
  else if c = '\x0c' then ['\\', 'f']
  else if c = '\r' then ['\\', 'r']
  else if c = '"' then ['\\', '"']
  else if c = '\\' then ['\\', '\\']
  else if c.toNat < 32 then ['\\', 'u', '0', '0', hexDigit (c.toNat / 16), hexDigit (c.toNat % 16)]
  else [c]

def quote (s : String) : List Char := '"' :: s.toList.flatMap escape ++ ['"']

mutual

def text : Json → List Char
  | .null => ['n', 'u', 'l', 'l']
  | .bool true => ['t', 'r', 'u', 'e']
  | .bool false => ['f', 'a', 'l', 's', 'e']
  | .int n => (decimal n).toList
  | .float x => x.text
  | .str s => quote s
  | .arr xs => '[' :: elemsText xs ++ [']']
  | .obj fields => '{' :: fieldsText fields ++ ['}']

def elemsText : List Json → List Char
  | [] => []
  | [x] => text x
  | x :: xs => text x ++ ',' :: elemsText xs

def fieldsText : List (String × Json) → List Char
  | [] => []
  | [(k, v)] => quote k ++ ':' :: text v
  | (k, v) :: fs => quote k ++ ':' :: text v ++ ',' :: fieldsText fs

end

def dump (j : Json) : String := String.ofList j.text

theorem find?_setField (key k : String) (v : Json) (fs : List (String × Json)) :
    ((setField key v fs).find? (fun f => f.1 = k)).map Prod.snd =
      if key = k then some v else (fs.find? (fun f => f.1 = k)).map Prod.snd := by
  induction fs with
  | nil =>
    by_cases h : key = k
    · simp [setField, h]
    · simp [setField, h]
  | cons f fs ih =>
    rw [setField]
    by_cases h : key = k
    · subst h
      by_cases hf : f.1 = key
      · simp [hf]
      · by_cases hlt : key < f.1
        · simp [hf, hlt]
        · simp [hf, hlt, ih]
    · by_cases hf : f.1 = key
      · have hk : f.1 ≠ k := fun he => h (hf.symm.trans he)
        simp [hf, h]
      · by_cases hlt : key < f.1
        · simp [hf, hlt, h]
        · rw [if_neg hf, if_neg hlt, List.find?_cons, List.find?_cons]
          cases decide (f.1 = k) with
          | true => simp [h]
          | false => simpa [h] using ih

@[simp] theorem set_obj (key : String) (v : Json) (fields : List (String × Json)) :
    (obj fields).set key v = obj (setField key v fields) := rfl

@[simp] theorem get?_setField (key k : String) (v : Json) (fields : List (String × Json)) :
    (obj (setField key v fields)).get? k = if key = k then some v else (obj fields).get? k :=
  find?_setField key k v fields

theorem get?_set_ne {key k : String} (h : key ≠ k) (j v : Json) : (j.set key v).get? k = j.get? k := by
  cases j with
  | obj fields => rw [set_obj, get?_setField, if_neg h]
  | null => simp [set, get?, h]
  | _ => rfl

theorem mkObj_concat (fields : List (String × Json)) (f : String × Json) :
    mkObj (fields ++ [f]) = (mkObj fields).set f.1 f.2 := by
  rw [mkObj, List.foldl_append, mkObj, List.foldl_cons, List.foldl_nil]

theorem mkObj_eq_obj (fields : List (String × Json)) : ∃ fs, mkObj fields = obj fs := by
  induction fields using List.reverseRecOn with
  | nil => exact ⟨[], rfl⟩
  | append_singleton fields f ih =>
    obtain ⟨fs, h⟩ := ih
    exact ⟨setField f.1 f.2 fs, by rw [mkObj_concat, h, set_obj]⟩

theorem get?_mkObj (fields : List (String × Json)) (k : String) :
    (mkObj fields).get? k = (fields.reverse.find? fun f => f.1 = k).map Prod.snd := by
  induction fields using List.reverseRecOn with
  | nil => rfl
  | append_singleton fields f ih =>
    obtain ⟨fs, h⟩ := mkObj_eq_obj fields
    rw [mkObj_concat, h, set_obj, get?_setField, ← h, ih, List.reverse_append, List.reverse_singleton,
      List.singleton_append, List.find?_cons]
    by_cases hk : f.1 = k <;> simp [hk]

/-- Every backslash is the first of a pair whose second character is none of
`%` and `_`. -/
def Escaped : List Char → Prop
  | [] => True
  | ['\\'] => False
  | '\\' :: c :: cs => (c ≠ '%' ∧ c ≠ '_') ∧ Escaped cs
  | _ :: cs => Escaped cs

theorem Escaped.append {xs ys : List Char} (hx : Escaped xs) (hy : Escaped ys) : Escaped (xs ++ ys) := by
  fun_induction Escaped xs with
  | case1 => exact hy
  | case2 => exact hx.elim
  | case3 c cs ih => exact ⟨hx.1, ih hx.2⟩
  | case4 c cs hn hc ih =>
    have hb : c ≠ '\\' := by
      rintro rfl
      cases cs with
      | nil => exact hn rfl rfl
      | cons d ds => exact hc d ds rfl rfl
    rw [List.cons_append, Escaped.eq_4]
    · exact ih hx
    · exact fun h => absurd h hb
    · exact fun _ _ h => absurd h hb

theorem Escaped.cons {c : Char} {cs : List Char} (hc : c ≠ '\\') (h : Escaped cs) : Escaped (c :: cs) := by
  rw [Escaped.eq_4]
  · exact h
  · exact fun h => absurd h hc
  · exact fun _ _ h => absurd h hc

theorem escaped_of_ne {cs : List Char} (h : ∀ c ∈ cs, c ≠ '\\') : Escaped cs := by
  induction cs with
  | nil => trivial
  | cons c cs ih => exact (ih fun d hd => h d (by simp [hd])).cons (h c (by simp))

/-- A text without control characters whose backslashes are JSON escapes. -/
structure Clean (cs : List Char) : Prop where
  escaped : Escaped cs
  printable : ∀ c ∈ cs, 32 ≤ c.toNat

theorem Clean.append {xs ys : List Char} (hx : Clean xs) (hy : Clean ys) : Clean (xs ++ ys) where
  escaped := hx.escaped.append hy.escaped
  printable := fun c hc => (List.mem_append.mp hc).elim (hx.printable c) (hy.printable c)

theorem clean_nil : Clean [] := ⟨trivial, fun _ hc => absurd hc List.not_mem_nil⟩

theorem Clean.cons {c : Char} {cs : List Char} (hc : c ≠ '\\') (hp : 32 ≤ c.toNat) (h : Clean cs) :
    Clean (c :: cs) where
  escaped := h.escaped.cons hc
  printable := fun d hd => (List.mem_cons.mp hd).elim (fun he => he ▸ hp) (h.printable d)

theorem clean_of_forall {cs : List Char} (h : ∀ c ∈ cs, c ≠ '\\' ∧ 32 ≤ c.toNat) : Clean cs :=
  ⟨escaped_of_ne fun c hc => (h c hc).1, fun c hc => (h c hc).2⟩

theorem clean_of_all {cs : List Char} (h : cs.all (fun c => c ≠ '\\' && 32 ≤ c.toNat) = true) : Clean cs := by
  rw [List.all_eq_true] at h
  exact clean_of_forall fun c hc => by simpa using h c hc

theorem isDigit_plain {c : Char} (h : c.isDigit = true) : c ≠ '\\' ∧ 32 ≤ c.toNat := by
  simp only [Char.isDigit, Bool.and_eq_true, decide_eq_true_eq] at h
  have h₁ : 48 ≤ c.toNat := by simpa using UInt32.le_iff_toNat_le.mp h.1
  refine ⟨?_, by omega⟩
  rintro rfl
  exact absurd h.2 (by decide)

theorem clean_toDigits (n : Nat) : Clean (Nat.toDigits 10 n) :=
  clean_of_forall fun _ hc => isDigit_plain (Nat.isDigit_of_mem_toDigits (by omega) (by omega) hc)

theorem clean_decimal (n : Int) : Clean (decimal n).toList :=
  clean_of_forall fun c hc => by
    rcases isDigit_of_mem_decimal hc with rfl | hd
    · decide
    · exact isDigit_plain hd

theorem Clean.sublist {xs ys : List Char} (h : ∀ c ∈ ys, c ≠ '\\' ∧ 32 ≤ c.toNat)
    (hs : xs.Sublist ys) : Clean xs :=
  clean_of_forall fun c hc => h c (hs.subset hc)

theorem clean_exponent (e : Int) : Clean (Decimal.exponent e) := by
  have hk : Clean (if (Nat.toDigits 10 e.natAbs).length < 2 then '0' :: Nat.toDigits 10 e.natAbs
      else Nat.toDigits 10 e.natAbs) := by
    split
    · exact (clean_toDigits _).cons (by decide) (by decide)
    · exact clean_toDigits _
  rw [Decimal.exponent]
  split
  · exact hk.cons (by decide) (by decide)
  · exact hk.cons (by decide) (by decide)

theorem clean_decimalText (x : Decimal) : Clean x.text := by
  have hd : ∀ c ∈ Nat.toDigits 10 x.digits, c ≠ '\\' ∧ 32 ≤ c.toNat := fun _ hc =>
    isDigit_plain (Nat.isDigit_of_mem_toDigits (by omega) (by omega) hc)
  have hz (n : Nat) : Clean (List.replicate n '0') :=
    clean_of_forall fun c hc => by
      rw [List.eq_of_mem_replicate hc]
      decide
  have hdot {ys : List Char} (h : Clean ys) : Clean ('.' :: ys) := h.cons (by decide) (by decide)
  have he (e : Int) : Clean ('e' :: Decimal.exponent e) := (clean_exponent e).cons (by decide) (by decide)
  have hs : Clean x.sign := by
    rw [Decimal.sign]
    split
    · exact clean_nil.cons (by decide) (by decide)
    · exact clean_nil
  refine hs.append ?_
  split
  · exact clean_of_all (by decide)
  split
  · exact ((clean_of_forall hd).append (hz _)).append (clean_of_all (by decide))
  split
  · exact (Clean.sublist hd (List.take_sublist _ _)).append (hdot (Clean.sublist hd (List.drop_sublist _ _)))
  split
  · exact ((hdot (hz _)).cons (c := '0') (by decide) (by decide)).append (clean_of_forall hd)
  split
  · rename_i d hl
    exact (he _).cons (hd d (by simp [hl])).1 (hd d (by simp [hl])).2
  · exact ((Clean.sublist hd (List.take_sublist _ _)).append
      (hdot (Clean.sublist hd (List.drop_sublist _ _)))).append (he _)

theorem hexDigit_plain : ∀ n < 16, hexDigit n ≠ '\\' ∧ 32 ≤ (hexDigit n).toNat := by decide

theorem clean_escape (c : Char) : Clean (escape c) := by
  have hpair (d : Char) (h₁ : d ≠ '%' ∧ d ≠ '_') (h₂ : 32 ≤ d.toNat) {cs : List Char} (h : Clean cs) :
      Clean ('\\' :: d :: cs) := by
    refine ⟨⟨h₁, h.escaped⟩, ?_⟩
    intro e he
    simp only [List.mem_cons] at he
    rcases he with rfl | rfl | he
    · decide
    · exact h₂
    · exact h.printable e he
  unfold escape
  split
  · exact hpair 'b' (by decide) (by decide) clean_nil
  split
  · exact hpair 't' (by decide) (by decide) clean_nil
  split
  · exact hpair 'n' (by decide) (by decide) clean_nil
  split
  · exact hpair 'f' (by decide) (by decide) clean_nil
  split
  · exact hpair 'r' (by decide) (by decide) clean_nil
  split
  · exact hpair '"' (by decide) (by decide) clean_nil
  split
  · exact hpair '\\' (by decide) (by decide) clean_nil
  split
  · have h₁ := hexDigit_plain (c.toNat / 16) (by omega)
    have h₂ := hexDigit_plain (c.toNat % 16) (by omega)
    refine hpair 'u' (by decide) (by decide) (clean_of_forall ?_)
    intro d hd
    simp only [List.mem_cons, List.not_mem_nil, or_false] at hd
    rcases hd with rfl | rfl | rfl | rfl
    · decide
    · decide
    · exact h₁
    · exact h₂
  · rename_i hb hn
    exact clean_nil.cons hb (by omega)

theorem clean_quote (s : String) : Clean (quote s) := by
  have h : Clean (s.toList.flatMap escape) := by
    induction s.toList with
    | nil => exact clean_nil
    | cons c cs ih => exact (clean_escape c).append ih
  exact (h.append (clean_of_all (by decide))).cons (by decide) (by decide)

mutual

theorem clean_text : ∀ j : Json, Clean j.text
  | .null => clean_of_all (by decide)
  | .bool true => clean_of_all (by decide)
  | .bool false => clean_of_all (by decide)
  | .int n => clean_decimal n
  | .float x => clean_decimalText x
  | .str s => clean_quote s
  | .arr xs => ((clean_elemsText xs).append (clean_of_all (by decide))).cons (by decide) (by decide)
  | .obj fields =>
    ((clean_fieldsText fields).append (clean_of_all (by decide))).cons (by decide) (by decide)

theorem clean_elemsText : ∀ xs : List Json, Clean (elemsText xs)
  | [] => clean_nil
  | [x] => clean_text x
  | x :: y :: xs => (clean_text x).append ((clean_elemsText (y :: xs)).cons (by decide) (by decide))

theorem clean_fieldsText : ∀ fs : List (String × Json), Clean (fieldsText fs)
  | [] => clean_nil
  | [(k, v)] => (clean_quote k).append ((clean_text v).cons (by decide) (by decide))
  | (k, v) :: f :: fs => by
    have h := (clean_quote k).append ((clean_text v).cons (c := ':') (by decide) (by decide))
    exact h.append ((clean_fieldsText (f :: fs)).cons (by decide) (by decide))

end

/-- The text of a value has no control characters, so no newline and no zero byte. -/
theorem clean_dump (j : Json) : Clean j.dump.toList := by
  rw [dump, String.toList_ofList]
  exact clean_text j

theorem nul_not_mem_dump (j : Json) : '\x00' ∉ j.dump.toList :=
  fun h => absurd ((clean_dump j).printable _ h) (by decide)

end Json

end BridgeIM
