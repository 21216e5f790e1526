import BridgeIM.Client.Responses
import BridgeIM.Db.Session

namespace BridgeIM.Client.Objects

open CString Db Server.Framing

inductive Leaf : Json → Prop
  | int {n : Int} (h : IsInt n) : Leaf (.int n)
  | str (s : String) : Leaf (.str s)
  | strs (xs : List String) : Leaf (.strs xs)

/-- An object whose fields are ints, strings and lists of strings. -/
def Flat (j : Json) : Prop := ∃ fields, j = .mkObj fields ∧ ∀ f ∈ fields, Leaf f.2

/-- A parser that reads back what `dump` has written of such an object. -/
def ReadsBack (parse : Bytes → Option Json) : Prop := ∀ j, Flat j → parse (utf8 j.dump) = some j

theorem flat_mkObj {fields : List (String × Json)} (h : ∀ f ∈ fields, Leaf f.2) : Flat (.mkObj fields) :=
  ⟨fields, rfl, h⟩

theorem Flat.set {j : Json} (h : Flat j) {key : String} {v : Json} (hv : Leaf v) : Flat (j.set key v) := by
  obtain ⟨fields, rfl, h⟩ := h
  refine ⟨fields ++ [(key, v)], (Json.mkObj_concat fields (key, v)).symm, fun f hf => ?_⟩
  obtain hf | hf := List.mem_append.mp hf
  · exact h f hf
  · rw [List.mem_singleton.mp hf]
    exact hv

/-! A parser for these objects. -/

def hexValue (c : Char) : Nat := if c.isDigit then c.toNat - 48 else c.toNat - 87

def unescape : Char → Char
  | 'b' => '\x08'
  | 't' => '\t'
  | 'n' => '\n'
  | 'f' => '\x0c'
  | 'r' => '\r'
  | c => c

def readQuoted : List Char → Option (List Char × List Char)
  | '"' :: cs => some ([], cs)
  | '\\' :: 'u' :: '0' :: '0' :: a :: b :: cs =>
    (readQuoted cs).map fun r => (Char.ofNat (16 * hexValue a + hexValue b) :: r.1, r.2)
  | '\\' :: c :: cs => (readQuoted cs).map fun r => (unescape c :: r.1, r.2)
  | c :: cs => (readQuoted cs).map fun r => (c :: r.1, r.2)
  | [] => none

/-- The rest of a list of strings. The number bounds the tokens. -/
def readStrings : Nat → List Char → Option (List String × List Char)
  | _ + 1, ']' :: cs => some ([], cs)
  | n + 1, ',' :: cs => readStrings n cs
  | n + 1, '"' :: cs => (readQuoted cs).bind fun s => (readStrings n s.2).map fun r => (String.ofList s.1 :: r.1, r.2)
  | _, _ => none

def ofNumber (c : Char) : Bool := c.isDigit || c = '-'

def readLeaf : List Char → Option (Json × List Char)
  | '"' :: cs => (readQuoted cs).map fun s => (.str (String.ofList s.1), s.2)
  | '[' :: cs => (readStrings (cs.length + 1) cs).map fun r => (.strs r.1, r.2)
  | cs => some (.int (leadingInt (String.ofList (cs.takeWhile ofNumber))), cs.dropWhile ofNumber)

def readFields : Nat → List Char → Option (List (String × Json))
  | _ + 1, ['}'] => some []
  | n + 1, ',' :: cs => readFields n cs
  | n + 1, '"' :: cs => (readQuoted cs).bind fun k =>
    match k.2 with
    | ':' :: cs => (readLeaf cs).bind fun v => (readFields n v.2).map fun fs => (String.ofList k.1, v.1) :: fs
    | _ => none
  | _, _ => none

def readObject : List Char → Option Json
  | '{' :: cs => (readFields (cs.length + 1) cs).map .obj
  | _ => none

def parseFlat (text : Bytes) : Option Json :=
  text.toByteArray.utf8Decode?.bind fun cs => readObject cs.toList

theorem hexValue_hexDigit : ∀ n < 16, hexValue (Json.hexDigit n) = n := by decide

theorem readQuoted_escape (c : Char) (cs : List Char) :
    readQuoted (Json.escape c ++ cs) = (readQuoted cs).map fun r => (c :: r.1, r.2) := by
  unfold Json.escape
  iterate 7
    split
    · rename_i h
      rw [h]
      rfl
  split
  · rename_i h
    have hc : Char.ofNat (16 * hexValue (Json.hexDigit (c.toNat / 16)) + hexValue (Json.hexDigit (c.toNat % 16))) = c := by
      rw [hexValue_hexDigit _ (by omega), hexValue_hexDigit _ (by omega), Nat.div_add_mod]
      exact Char.ofNat_toNat c
    simp only [List.cons_append, List.nil_append, readQuoted, hc]
  · rename_i h₁ h₂ h₃ h₄ h₅ hq hb h
    rw [List.singleton_append, readQuoted]
    · exact fun he => absurd he hq
    · exact fun _ _ _ he _ => absurd he hb
    · exact fun _ _ he _ => absurd he hb

theorem readQuoted_quote (s : String) (cs : List Char) :
    readQuoted (s.toList.flatMap Json.escape ++ '"' :: cs) = some (s.toList, cs) := by
  induction s.toList with
  | nil => rfl
  | cons c s ih => rw [List.flatMap_cons, List.append_assoc, readQuoted_escape, ih, Option.map_some]

theorem quote_append (s : String) (cs : List Char) :
    Json.quote s ++ cs = '"' :: (s.toList.flatMap Json.escape ++ '"' :: cs) := by
  rw [Json.quote, ← List.cons_append, List.append_assoc, List.singleton_append, List.cons_append]

theorem readStrings_quote (n : Nat) (s : String) (cs : List Char) :
    readStrings (n + 1) (Json.quote s ++ cs) = (readStrings n cs).map fun r => (s :: r.1, r.2) := by
  rw [quote_append, readStrings, readQuoted_quote, Option.bind_some, String.ofList_toList]

theorem readStrings_elemsText (xs : List String) (cs : List Char) {n : Nat} (h : 2 * xs.length < n) :
    readStrings n (Json.elemsText (xs.map .str) ++ ']' :: cs) = some (xs, cs) := by
  induction xs generalizing n with
  | nil =>
    obtain ⟨n, rfl⟩ := Nat.exists_eq_succ_of_ne_zero (Nat.ne_of_gt h)
    rfl
  | cons x xs ih =>
    rw [List.length_cons] at h
    obtain ⟨n, rfl⟩ := Nat.exists_eq_add_of_le' (show 2 ≤ n by omega)
    cases xs with
    | nil =>
      rw [List.map_singleton, Json.elemsText, Json.text, readStrings_quote]
      rfl
    | cons y ys =>
      have hr := ih (n := n) (by omega)
      rw [List.map_cons] at hr ⊢
      rw [List.map_cons, Json.elemsText, Json.text, List.append_assoc, readStrings_quote, List.cons_append, readStrings,
        hr, Option.map_some]
      exact List.cons_ne_nil _ _

theorem length_elemsText (xs : List String) : 2 * xs.length ≤ (Json.elemsText (xs.map .str)).length := by
  induction xs with
  | nil => exact Nat.zero_le _
  | cons x xs ih =>
    have hq : 2 ≤ (Json.quote x).length := by simp [Json.quote]
    cases xs with
    | nil => simpa [Json.elemsText, Json.text] using hq
    | cons y ys =>
      rw [List.map_cons] at ih ⊢
      rw [List.map_cons, Json.elemsText, Json.text, List.length_append, @List.length_cons _ _ (y :: ys)]
      · rw [List.length_cons (a := ',')]
        omega
      · exact List.cons_ne_nil _ _

def Ends (cs : List Char) : Prop := ∃ c rest, cs = c :: rest ∧ ofNumber c = false

theorem ofNumber_decimal {n : Int} {c : Char} (h : c ∈ (decimal n).toList) : ofNumber c = true := by
  obtain rfl | hd := isDigit_of_mem_decimal h
  · rfl
  · rw [ofNumber, hd, Bool.true_or]

theorem span_decimal (n : Int) {cs : List Char} (h : Ends cs) :
    ((decimal n).toList ++ cs).takeWhile ofNumber = (decimal n).toList ∧
      ((decimal n).toList ++ cs).dropWhile ofNumber = cs := by
  obtain ⟨c, rest, rfl, hc⟩ := h
  have hn : ¬ ofNumber c = true := by rw [hc]; exact Bool.false_ne_true
  rw [List.takeWhile_append_of_pos fun _ => ofNumber_decimal, List.dropWhile_append_of_pos fun _ => ofNumber_decimal,
    List.takeWhile_cons_of_neg hn, List.dropWhile_cons_of_neg hn, List.append_nil]
  exact ⟨rfl, rfl⟩

theorem decimal_ne_nil (n : Int) : (decimal n).toList ≠ [] := by
  cases n with
  | ofNat n =>
    rw [toList_decimal_ofNat]
    exact Nat.toDigits_ne_nil
  | negSucc n =>
    rw [toList_decimal_negSucc]
    exact List.cons_ne_nil _ _

theorem readLeaf_text {v : Json} (hv : Leaf v) {cs : List Char} (h : Ends cs) : readLeaf (v.text ++ cs) = some (v, cs) := by
  cases hv with
  | @int n _ =>
    obtain ⟨ht, hd⟩ := span_decimal n h
    obtain ⟨c, ds, hc⟩ := List.exists_cons_of_ne_nil (decimal_ne_nil n)
    have hn : ofNumber c = true := ofNumber_decimal (hc ▸ List.mem_cons_self)
    have hne : ∀ d rest, (decimal n).toList ++ cs = d :: rest → ofNumber d = true := by
      intro d rest he
      rw [hc] at he
      cases he
      exact hn
    rw [Json.text, readLeaf, ht, hd, String.ofList_toList, leadingInt_decimal]
    · exact fun rest he => absurd (hne '"' rest he) (by decide)
    · exact fun rest he => absurd (hne '[' rest he) (by decide)
  | str s => rw [Json.text, quote_append, readLeaf, readQuoted_quote, Option.map_some, String.ofList_toList]
  | strs xs =>
    have hl := length_elemsText xs
    rw [Json.strs, Json.text, List.append_assoc, List.singleton_append, List.cons_append, readLeaf, readStrings_elemsText]
    · rfl
    · rw [List.length_append]
      omega

theorem readFields_field (n : Nat) (k : String) {v : Json} (hv : Leaf v) {cs : List Char} (h : Ends cs) :
    readFields (n + 1) (Json.quote k ++ ':' :: v.text ++ cs) = (readFields n cs).map fun fs => (k, v) :: fs := by
  rw [List.append_assoc, quote_append, readFields, readQuoted_quote, Option.bind_some, List.cons_append]
  simp only [readLeaf_text hv h, Option.bind_some, String.ofList_toList]

theorem readFields_fieldsText (fs : List (String × Json)) (hf : ∀ f ∈ fs, Leaf f.2) {n : Nat} (h : 2 * fs.length < n) :
    readFields n (Json.fieldsText fs ++ ['}']) = some fs := by
  induction fs generalizing n with
  | nil =>
    obtain ⟨n, rfl⟩ := Nat.exists_eq_succ_of_ne_zero (Nat.ne_of_gt h)
    rfl
  | cons f fs ih =>
    obtain ⟨k, v⟩ := f
    have hv : Leaf v := hf (k, v) List.mem_cons_self
    rw [List.length_cons] at h
    obtain ⟨n, rfl⟩ := Nat.exists_eq_add_of_le' (show 2 ≤ n by omega)
    cases fs with
    | nil =>
      rw [Json.fieldsText, readFields_field _ _ hv ⟨'}', [], rfl, rfl⟩]
      rfl
    | cons g gs =>
      have hr := ih (fun f hm => hf f (List.mem_cons_of_mem _ hm)) (n := n) (by omega)
      rw [Json.fieldsText, List.append_assoc, List.cons_append, readFields_field _ _ hv ⟨',', _, rfl, rfl⟩, readFields,
        hr, Option.map_some]
      exact List.cons_ne_nil _ _

theorem length_fieldsText (fs : List (String × Json)) : 2 * fs.length ≤ (Json.fieldsText fs).length := by
  induction fs with
  | nil => exact Nat.zero_le _
  | cons f fs ih =>
    obtain ⟨k, v⟩ := f
    have hq : 2 ≤ (Json.quote k).length := by simp [Json.quote]
    cases fs with
    | nil =>
      rw [Json.fieldsText, List.length_append]
      simpa using Nat.le_add_right_of_le hq
    | cons g gs =>
      rw [Json.fieldsText, List.length_append, List.length_append, @List.length_cons _ _ (g :: gs)]
      · rw [List.length_cons (a := ',')]
        omega
      · exact List.cons_ne_nil _ _

theorem mem_setField {key : String} {v : Json} {fs : List (String × Json)} {f : String × Json}
    (h : f ∈ Json.setField key v fs) : f = (key, v) ∨ f ∈ fs := by
  induction fs with
  | nil => exact Or.inl (List.mem_singleton.mp h)
  | cons g fs ih =>
    rw [Json.setField] at h
    split at h
    · exact (List.mem_cons.mp h).imp_right (List.mem_cons_of_mem g)
    split at h
    · exact List.mem_cons.mp h
    · obtain rfl | h := List.mem_cons.mp h
      · exact Or.inr List.mem_cons_self
      · exact (ih h).imp_right (List.mem_cons_of_mem g)

theorem Flat.fields {j : Json} (h : Flat j) : ∃ fs, j = .obj fs ∧ ∀ f ∈ fs, Leaf f.2 := by
  obtain ⟨fields, rfl, h⟩ := h
  induction fields using List.reverseRecOn with
  | nil => exact ⟨[], rfl, fun f hf => absurd hf List.not_mem_nil⟩
  | append_singleton fields f ih =>
    obtain ⟨fs, he, hfs⟩ := ih fun f hf => h f (List.mem_append_left _ hf)
    refine ⟨Json.setField f.1 f.2 fs, by rw [Json.mkObj_concat, he, Json.set_obj], fun g hg => ?_⟩
    obtain rfl | hg := mem_setField hg
    · exact h f (List.mem_append_right _ (List.mem_singleton.mpr rfl))
    · exact hfs g hg

theorem readsBack_parseFlat : ReadsBack parseFlat := by
  intro j hj
  obtain ⟨fs, rfl, hf⟩ := hj.fields
  have hu : (utf8 (Json.obj fs).dump).toByteArray = (Json.obj fs).text.utf8Encode := by
    rw [Json.dump, utf8, String.toList_ofList, List.utf8Encode]
  have hl := length_fieldsText fs
  rw [parseFlat, hu, List.utf8Decode?_utf8Encode, Option.bind_some, Json.text, List.cons_append, readObject,
    readFields_fieldsText fs hf]
  · rfl
  · rw [List.length_append]
    omega

end BridgeIM.Client.Objects
