import Mathlib.Data.List.TakeWhile

namespace BridgeIM.CString

/-- What a C function reads of a `std::string` handed over by `c_str()`. -/
def cstring (s : String) : String := String.ofList (s.toList.takeWhile (· ≠ '\x00'))

/-- The text that `%d` and `std::ostream` print for an integer. -/
def decimal (n : Int) : String := toString n

def isSpace (c : Char) : Bool :=
  c = ' ' || c = '\t' || c = '\n' || c = '\x0b' || c = '\x0c' || c = '\r'

def digits (cs : List Char) : Nat := Nat.ofDigitChars 10 (cs.takeWhile Char.isDigit) 0

/-- The integer that a text begins with; 0 if it begins with none. -/
def leadingInt (s : String) : Int :=
  match s.toList.dropWhile isSpace with
  | '-' :: cs => -(digits cs : Int)
  | '+' :: cs => digits cs
  | cs => digits cs

/-- `atoi` clamps the integer to a `long` and converts that to an `int`. -/
def atoi (s : String) : Int :=
  (max (-9223372036854775808) (min 9223372036854775807 (leadingInt s)) + 2147483648) % 4294967296 - 2147483648

theorem cstring_of_not_mem {s : String} (h : '\x00' ∉ s.toList) : cstring s = s := by
  have hs : s.toList.takeWhile (· ≠ '\x00') = s.toList := by
    rw [List.takeWhile_eq_self_iff]
    intro c hc
    have hne : c ≠ '\x00' := fun he => h (he ▸ hc)
    simpa using hne
  rw [cstring, hs, String.ofList_toList]

theorem not_mem_cstring (s : String) : '\x00' ∉ (cstring s).toList := by
  intro h
  rw [cstring, String.toList_ofList] at h
  simpa using List.mem_takeWhile_imp h

theorem toList_cstring (s : String) : (cstring s).toList = s.toList.takeWhile (· ≠ '\x00') := by
  rw [cstring, String.toList_ofList]

theorem length_cstring_le (s : String) : (cstring s).toList.length ≤ s.toList.length := by
  rw [toList_cstring]
  exact (List.takeWhile_prefix _).length_le

theorem cstring_idem (s : String) : cstring (cstring s) = cstring s :=
  cstring_of_not_mem (not_mem_cstring s)

theorem digits_toDigits (n : Nat) : digits (Nat.toDigits 10 n) = n := by
  have h : (Nat.toDigits 10 n).takeWhile Char.isDigit = Nat.toDigits 10 n := by
    rw [List.takeWhile_eq_self_iff]
    intro c hc
    exact Nat.isDigit_of_mem_toDigits (by omega) (by omega) hc
  rw [digits, h, Nat.ofDigitChars_ten_toDigits]

theorem isSpace_of_isDigit {c : Char} (h : c.isDigit = true) : isSpace c = false := by
  by_contra hs
  simp only [isSpace, Bool.not_eq_false, Bool.or_eq_true, decide_eq_true_eq] at hs
  rcases hs with ((((rfl | rfl) | rfl) | rfl) | rfl) | rfl <;> exact absurd h (by decide)

theorem toList_decimal_ofNat (n : Nat) : (decimal (Int.ofNat n)).toList = Nat.toDigits 10 n := by
  change (n.repr).toList = _
  exact Nat.toList_repr

theorem toList_decimal_negSucc (n : Nat) :
    (decimal (Int.negSucc n)).toList = '-' :: Nat.toDigits 10 (n + 1) := by
  change ("-" ++ (n + 1).repr).toList = _
  rw [String.toList_append, Nat.toList_repr]
  rfl

theorem leadingInt_digit {c : Char} {cs : List Char} (hc : c.isDigit = true) {s : String}
    (hs : s.toList = c :: cs) : leadingInt s = digits (c :: cs) := by
  rw [leadingInt, hs, List.dropWhile_cons_of_neg (by simp [isSpace_of_isDigit hc])]
  split
  · rename_i he
    cases he
    exact absurd hc (by decide)
  · rename_i he
    cases he
    exact absurd hc (by decide)
  · rfl

@[simp] theorem leadingInt_decimal (n : Int) : leadingInt (decimal n) = n := by
  cases n with
  | ofNat n =>
    cases hl : Nat.toDigits 10 n with
    | nil => exact absurd hl Nat.toDigits_ne_nil
    | cons c cs =>
      have hc : c.isDigit = true :=
        Nat.isDigit_of_mem_toDigits (b := 10) (n := n) (by omega) (by omega) (by simp [hl])
      rw [leadingInt_digit hc (by rw [toList_decimal_ofNat, hl]), ← hl, digits_toDigits]
      rfl
  | negSucc n =>
    rw [leadingInt, toList_decimal_negSucc, List.dropWhile_cons_of_neg (by decide)]
    simp only [digits_toDigits]
    rfl

theorem atoi_of_range {s : String} (h : -2147483648 ≤ leadingInt s ∧ leadingInt s < 2147483648) :
    atoi s = leadingInt s := by
  unfold atoi
  omega

theorem decimal_injective : Function.Injective decimal := by
  intro a b h
  simpa only [leadingInt_decimal] using congrArg leadingInt h

theorem isDigit_of_mem_decimal {n : Int} {c : Char} (h : c ∈ (decimal n).toList) :
    c = '-' ∨ c.isDigit = true := by
  cases n with
  | ofNat n =>
    rw [toList_decimal_ofNat] at h
    exact Or.inr (Nat.isDigit_of_mem_toDigits (by omega) (by omega) h)
  | negSucc n =>
    rw [toList_decimal_negSucc] at h
    exact (List.mem_cons.mp h).imp_right (Nat.isDigit_of_mem_toDigits (by omega) (by omega))

end BridgeIM.CString
