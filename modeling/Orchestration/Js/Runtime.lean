import Mathlib.Data.List.Sort
import Mathlib.Tactic.Common

/-!
# What a program asks of its JavaScript runtime

Dates, numbers and names are read, printed and ordered by the runtime, partly
according to its locale. A program that only compares the outcomes is modelled
over any runtime.
-/

namespace Js

/-- The functions of the standard library that a runtime may answer in its own way. -/
structure Runtime where
  /-- `Date.parse(text)` in epoch milliseconds; `none` stands for `NaN`. -/
  dateParse : String → Option Float
  /-- `a.localeCompare(b)`. -/
  localeCompare : String → String → Ordering
  /-- The text of a number inside a template literal. -/
  numberText : Float → String

/-- `Math.max(a, b)`, which is `NaN` when either is. -/
def mathMax (a b : Float) : Float :=
  if a.isNaN then a else if b.isNaN then b else if a < b then b else a

/-- `Math.min(a, b)`, which is `NaN` when either is. -/
def mathMin (a b : Float) : Float :=
  if a.isNaN then a else if b.isNaN then b else if b < a then b else a

/-! ## Strings in order

`Array.prototype.sort` without a comparison orders strings by their UTF-16 code units.
-/

/-- The UTF-16 code units of a character. -/
def charUnits (c : Char) : List ℕ :=
  if c.toNat < 0x10000 then [c.toNat]
  else [0xD800 + (c.toNat - 0x10000) / 0x400, 0xDC00 + (c.toNat - 0x10000) % 0x400]

/-- The UTF-16 code units of a string. -/
def codeUnits (text : String) : List ℕ := text.toList.flatMap charUnits

/-- The order of two texts, unit by unit. -/
def unitsLe : List ℕ → List ℕ → Bool
  | [], _ => true
  | _ :: _, [] => false
  | a :: as, b :: bs => decide (a < b) || a == b && unitsLe as bs

/-- `[...texts].sort()`. -/
def sorted (texts : List String) : List String :=
  texts.mergeSort fun a b => unitsLe (codeUnits a) (codeUnits b)

@[simp] theorem mem_sorted {text : String} {texts : List String} :
    text ∈ sorted texts ↔ text ∈ texts :=
  List.mem_mergeSort

@[simp] theorem sorted_eq_nil {texts : List String} : sorted texts = [] ↔ texts = [] := by
  simp only [List.eq_nil_iff_forall_not_mem, mem_sorted]

end Js
