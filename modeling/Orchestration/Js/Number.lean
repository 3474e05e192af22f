import Mathlib.Data.Rat.Floor
import Mathlib.Data.List.TakeWhile
import Mathlib.Data.Int.Log
import Mathlib.Tactic

/-!
# Strings read as numbers

JavaScript's `Number(text)` followed by `Number.isSafeInteger`: the text is
trimmed, read as a numeric literal, rounded to the nearest double, and kept
when the result is an integer of at most 53 bits. The one fact the store needs
is that a safe integer survives being printed and read back.
-/

namespace Js

/-- `Number.MAX_SAFE_INTEGER`. -/
def maxSafeInteger : ℕ := 2 ^ 53 - 1

/-- The white space and line terminators that `Number` strips from both ends. -/
def isStrWhiteSpace (c : Char) : Bool :=
  c.toNat ∈ [0x09, 0x0A, 0x0B, 0x0C, 0x0D, 0x20, 0xA0, 0x1680, 0x2028, 0x2029, 0x202F,
    0x205F, 0x3000, 0xFEFF] || (0x2000 ≤ c.toNat && c.toNat ≤ 0x200A)

def trim (cs : List Char) : List Char :=
  ((cs.dropWhile isStrWhiteSpace).reverse.dropWhile isStrWhiteSpace).reverse

/-- `text.trim()`. -/
def trimString (text : String) : String := String.ofList (trim text.toList)

/-- The value of `c` as a digit of radix `b`. -/
def digit? (b : ℕ) (c : Char) : Option ℕ :=
  let d :=
    if '0' ≤ c ∧ c ≤ '9' then c.toNat - '0'.toNat
    else if 'a' ≤ c ∧ c ≤ 'f' then c.toNat - 'a'.toNat + 10
    else if 'A' ≤ c ∧ c ≤ 'F' then c.toNat - 'A'.toNat + 10
    else b
  if d < b then some d else none

/-- A non-empty run of digits of radix `b` and nothing else. -/
def natLiteral? (b : ℕ) (cs : List Char) : Option ℕ :=
  if cs = [] then none
  else cs.foldlM (fun n c => (digit? b c).map (n * b + ·)) 0

/-- `e` or `E`, an optional sign, and digits. -/
def exponent? : List Char → Option ℤ
  | [] => some 0
  | e :: rest =>
    if e = 'e' ∨ e = 'E' then
      match rest with
      | '+' :: ds => (natLiteral? 10 ds).map Int.ofNat
      | '-' :: ds => (natLiteral? 10 ds).map fun n => -(n : ℤ)
      | ds => (natLiteral? 10 ds).map Int.ofNat
    else none

/-- An unsigned decimal literal; `Infinity` is no integer and reads as `none`, like `NaN`. -/
def unsignedDecimal? (cs : List Char) : Option ℚ :=
  let (whole, rest) := cs.span Char.isDigit
  let (fraction, rest) :=
    match rest with
    | '.' :: rest => rest.span Char.isDigit
    | rest => ([], rest)
  match natLiteral? 10 (whole ++ fraction), exponent? rest with
  | some n, some e => some (n * 10 ^ (e - fraction.length))
  | _, _ => none

/-- The mathematical value of a string numeric literal. -/
def numeric? (text : String) : Option ℚ :=
  match trim text.toList with
  | [] => some 0
  | '0' :: 'x' :: ds | '0' :: 'X' :: ds => (natLiteral? 16 ds).map Nat.cast
  | '0' :: 'o' :: ds | '0' :: 'O' :: ds => (natLiteral? 8 ds).map Nat.cast
  | '0' :: 'b' :: ds | '0' :: 'B' :: ds => (natLiteral? 2 ds).map Nat.cast
  | '+' :: ds => unsignedDecimal? ds
  | '-' :: ds => (unsignedDecimal? ds).map Neg.neg
  | ds => unsignedDecimal? ds

/-- The nearest integer, a tie going to the even one. -/
def roundHalfEven (q : ℚ) : ℤ :=
  let d := q - ⌊q⌋
  if d < 1 / 2 ∨ d = 1 / 2 ∧ Even ⌊q⌋ then ⌊q⌋ else ⌊q⌋ + 1

/-- The nearest double: 53 significant bits, and no bit below `2 ^ (-1074)`. Doubles past the
largest finite one are past every safe integer, so overflow is not told apart. -/
def toDouble (q : ℚ) : ℚ :=
  if q = 0 then 0
  else
    let ulp : ℚ := 2 ^ (max (Int.log 2 |q|) (-1022) - 52)
    roundHalfEven (q / ulp) * ulp

/-- `Number(text)` when `Number.isSafeInteger` holds of it. -/
def safeInteger? (text : String) : Option ℤ :=
  match numeric? text with
  | some q =>
    let d := toDouble q
    if d.den = 1 ∧ d.num.natAbs ≤ maxSafeInteger then some d.num else none
  | none => none

/-! ## Reading back a printed integer -/

theorem isDigit_of_mem_toString {n : ℕ} {c : Char} (hc : c ∈ (toString n).toList) :
    c.isDigit = true := by
  rw [Nat.toString_eq_repr, Nat.toList_repr] at hc
  exact Nat.isDigit_of_mem_toDigits (by decide) (by decide) hc

theorem toString_toList_ne_nil (n : ℕ) : (toString n).toList ≠ [] := by
  rw [Nat.toString_eq_repr, Nat.toList_repr]
  exact Nat.toDigits_ne_nil

theorem toString_injective {m n : ℕ} (h : toString m = toString n) : m = n := by
  have hdigits := congrArg (fun s : String => Nat.ofDigitChars 10 s.toList 0) h
  simpa only [Nat.toString_eq_repr, Nat.toList_repr, Nat.ofDigitChars_ten_toDigits] using hdigits

theorem toNat_of_isDigit {c : Char} (h : c.isDigit = true) : 48 ≤ c.toNat ∧ c.toNat ≤ 57 :=
  Char.isDigit_iff_toNat.1 h

theorem not_isStrWhiteSpace_of_isDigit {c : Char} (h : c.isDigit = true) :
    isStrWhiteSpace c = false := by
  have hrange := toNat_of_isDigit h
  rw [Bool.eq_false_iff]
  intro hspace
  simp only [isStrWhiteSpace, Bool.or_eq_true, Bool.and_eq_true, decide_eq_true_eq,
    List.mem_cons, List.not_mem_nil, or_false] at hspace
  omega

theorem dropWhile_eq_self {p : Char → Bool} {cs : List Char} (h : ∀ c ∈ cs, p c = false) :
    cs.dropWhile p = cs := by
  cases cs with
  | nil => rfl
  | cons c cs => simp [List.dropWhile, h c List.mem_cons_self]

theorem trim_of_isDigit {cs : List Char} (h : ∀ c ∈ cs, c.isDigit = true) : trim cs = cs := by
  have hspace : ∀ c ∈ cs, isStrWhiteSpace c = false := fun c hc =>
    not_isStrWhiteSpace_of_isDigit (h c hc)
  rw [trim, dropWhile_eq_self hspace, dropWhile_eq_self, List.reverse_reverse]
  simpa using hspace

/-- Nothing is trimmed from a text with no white space at its ends. -/
theorem trim_eq_self {cs : List Char} (hhead : ∀ c ∈ cs.head?, isStrWhiteSpace c = false)
    (hlast : ∀ c ∈ cs.getLast?, isStrWhiteSpace c = false) : trim cs = cs := by
  have hdrop : ∀ {cs : List Char}, (∀ c ∈ cs.head?, isStrWhiteSpace c = false) →
      cs.dropWhile isStrWhiteSpace = cs := by
    intro cs h
    cases cs with
    | nil => rfl
    | cons c cs => simp [List.dropWhile, h c rfl]
  rw [trim, hdrop hhead, hdrop (by simpa using hlast), List.reverse_reverse]

theorem digit?_of_isDigit {c : Char} (h : c.isDigit = true) :
    digit? 10 c = some (c.toNat - '0'.toNat) := by
  have hrange := toNat_of_isDigit h
  have hle : '0' ≤ c ∧ c ≤ '9' := by
    simpa [Char.isDigit, Char.le_def] using h
  have hzero : '0'.toNat = 48 := rfl
  simp only [digit?, hle, and_self, if_true]
  rw [if_pos (by omega)]

theorem natLiteral?_of_isDigit {cs : List Char} (hne : cs ≠ [])
    (h : ∀ c ∈ cs, c.isDigit = true) : natLiteral? 10 cs = some (Nat.ofDigitChars 10 cs 0) := by
  have hfold : ∀ (cs : List Char) (n : ℕ), (∀ c ∈ cs, c.isDigit = true) →
      cs.foldlM (fun n c => (digit? 10 c).map (n * 10 + ·)) n =
        some (Nat.ofDigitChars 10 cs n) := by
    intro cs
    induction cs with
    | nil => intro n _; simp
    | cons c cs ih =>
      intro n h
      rw [List.foldlM_cons, digit?_of_isDigit (h c List.mem_cons_self)]
      change cs.foldlM _ (n * 10 + (c.toNat - '0'.toNat)) = _
      rw [ih _ fun d hd => h d (List.mem_cons_of_mem _ hd), Nat.ofDigitChars_cons,
        Nat.mul_comm 10 n]
  rw [natLiteral?, if_neg hne, hfold cs 0 h]

theorem unsignedDecimal?_of_isDigit {cs : List Char} (hne : cs ≠ [])
    (h : ∀ c ∈ cs, c.isDigit = true) :
    unsignedDecimal? cs = some ((Nat.ofDigitChars 10 cs 0 : ℕ) : ℚ) := by
  have hspan : cs.span Char.isDigit = (cs, []) := by
    rw [List.span_eq_takeWhile_dropWhile, List.takeWhile_eq_self_iff.2 h,
      List.dropWhile_eq_nil_iff.2 h]
  rw [unsignedDecimal?, hspan]
  simp [natLiteral?_of_isDigit hne h, exponent?]

theorem numeric?_toString (n : ℕ) : numeric? (toString n) = some ((n : ℕ) : ℚ) := by
  have hdigit : ∀ c ∈ (toString n).toList, c.isDigit = true := fun c => isDigit_of_mem_toString
  have hvalue : unsignedDecimal? (toString n).toList = some ((n : ℕ) : ℚ) := by
    rw [unsignedDecimal?_of_isDigit (toString_toList_ne_nil n) hdigit, Nat.toString_eq_repr,
      Nat.toList_repr, Nat.ofDigitChars_ten_toDigits]
  have hne := toString_toList_ne_nil n
  unfold numeric?
  rw [trim_of_isDigit hdigit]
  generalize (toString n).toList = cs at hdigit hvalue hne
  split <;> first
    | exact absurd rfl hne
    | exact hvalue
    | (exfalso; revert hdigit; simp)

theorem roundHalfEven_intCast (n : ℤ) : roundHalfEven n = n := by
  simp [roundHalfEven]

theorem toDouble_natCast {n : ℕ} (h : n ≤ maxSafeInteger) : toDouble n = n := by
  rcases Nat.eq_zero_or_pos n with rfl | hpos
  · simp [toDouble]
  have hlog : Int.log 2 (n : ℚ) = (Nat.log 2 n : ℤ) := Int.log_natCast 2 n
  have hlt : Nat.log 2 n < 53 := by
    apply Nat.log_lt_of_lt_pow hpos.ne'
    have : maxSafeInteger = 2 ^ 53 - 1 := rfl
    omega
  -- a safe integer is a whole multiple of its last significant bit
  have hscaled : (n : ℚ) / 2 ^ ((Nat.log 2 n : ℤ) - 52) =
      ((n * 2 ^ (52 - Nat.log 2 n) : ℕ) : ℤ) := by
    have hexp : ((Nat.log 2 n : ℤ) - 52) = -((52 - Nat.log 2 n : ℕ) : ℤ) := by omega
    rw [hexp, zpow_neg, zpow_natCast, div_inv_eq_mul]
    push_cast
    rfl
  have hne : (n : ℚ) ≠ 0 := by exact_mod_cast hpos.ne'
  have hmax : max (Int.log 2 |(n : ℚ)|) (-1022) = (Nat.log 2 n : ℤ) := by
    rw [Nat.abs_cast, hlog]
    omega
  rw [toDouble, if_neg hne, hmax]
  dsimp only
  rw [hscaled, roundHalfEven_intCast, ← hscaled]
  exact div_mul_cancel₀ _ (zpow_ne_zero _ (by norm_num))

/-- A safe integer survives being printed and read back. -/
theorem safeInteger?_toString {n : ℕ} (h : n ≤ maxSafeInteger) :
    safeInteger? (toString n) = some (n : ℤ) := by
  rw [safeInteger?, numeric?_toString]
  simp [toDouble_natCast h, h]

example : safeInteger? " 0x1F " = some 31 := by decide +kernel

end Js
