import Orchestration.Js.Json

/-!
# JSON on one line

`JSON.stringify(value)`. It writes no control character: those of a string are escaped.
-/

namespace Js

/-- The characters that `Number.prototype.toString` writes a finite number with. -/
def IsNumberChar (c : Char) : Prop := c.isDigit = true ∨ c ∈ ['+', '-', '.', 'e']

/-- `Number.prototype.toString`. -/
structure NumberText where
  write : ℚ → List Char
  isNumberChar : ∀ value, ∀ c ∈ write value, IsNumberChar c

mutual

/-- `JSON.stringify(value)`. -/
def jsonLine (numbers : NumberText) : Json → List Char
  | .null => "null".toList
  | .bool b => (if b then "true" else "false").toList
  | .num value => numbers.write value
  | .str text => quoteText text
  | .arr [] => ['[', ']']
  | .arr (item :: items) => '[' :: jsonLine numbers item ++ jsonLineItems numbers items ++ [']']
  | .obj [] => ['{', '}']
  | .obj ((key, value) :: fields) =>
    '{' :: quoteText key ++ ':' :: jsonLine numbers value ++ jsonLineFields numbers fields ++ ['}']

def jsonLineItems (numbers : NumberText) : List Json → List Char
  | [] => []
  | item :: items => ',' :: jsonLine numbers item ++ jsonLineItems numbers items

def jsonLineFields (numbers : NumberText) : List (String × Json) → List Char
  | [] => []
  | (key, value) :: fields =>
    ',' :: quoteText key ++ ':' :: jsonLine numbers value ++ jsonLineFields numbers fields

end

/-- No control character is in a text. -/
def Printed (text : List Char) : Prop := ∀ c ∈ text, 0x20 ≤ c.toNat

theorem printed_of_all {text : List Char}
    (h : text.all (fun c => decide (0x20 ≤ c.toNat)) = true) : Printed text :=
  fun c hc => of_decide_eq_true (List.all_eq_true.1 h c hc)

theorem Printed.append {text other : List Char} (h : Printed text) (hother : Printed other) :
    Printed (text ++ other) := by
  intro c hc
  obtain hc | hc := List.mem_append.1 hc
  · exact h c hc
  · exact hother c hc

theorem Printed.cons {c : Char} {text : List Char} (hc : 0x20 ≤ c.toNat) (h : Printed text) :
    Printed (c :: text) := by
  intro d hd
  obtain rfl | hd := List.mem_cons.1 hd
  · exact hc
  · exact h d hd

theorem printed_hexDigit {n : ℕ} (h : n < 16) : 0x20 ≤ (hexDigit n).toNat := by
  have hall : ∀ n < 16, 0x20 ≤ (hexDigit n).toNat := by decide
  exact hall n h

theorem printed_quoteChar (c : Char) : Printed (quoteChar c) := by
  rw [quoteChar]
  split_ifs with h1 h2 h3 h4 h5 h6 h7 hcontrol
  · exact printed_of_all (by decide)
  · exact printed_of_all (by decide)
  · exact printed_of_all (by decide)
  · exact printed_of_all (by decide)
  · exact printed_of_all (by decide)
  · exact printed_of_all (by decide)
  · exact printed_of_all (by decide)
  · refine .cons (by decide) (.cons (by decide) (.cons (by decide) (.cons (by decide) ?_)))
    refine .cons (printed_hexDigit (by omega)) (.cons (printed_hexDigit (by omega)) ?_)
    exact fun d hd => absurd hd List.not_mem_nil
  · exact .cons (by omega) fun d hd => absurd hd List.not_mem_nil

theorem printed_quoteText (text : String) : Printed (quoteText text) := by
  refine .append (.cons (by decide) fun c hc => ?_) (printed_of_all (by decide))
  obtain ⟨d, -, hd⟩ := List.mem_flatMap.1 hc
  exact printed_quoteChar d c hd

theorem printed_number (numbers : NumberText) (value : ℚ) : Printed (numbers.write value) := by
  intro c hc
  obtain hdigit | hmark := numbers.isNumberChar value c hc
  · rw [Char.isDigit, Bool.and_eq_true, decide_eq_true_eq] at hdigit
    exact le_trans (by decide) (UInt32.le_iff_toNat_le.1 hdigit.1)
  · have hmarks : Printed ['+', '-', '.', 'e'] := printed_of_all (by decide)
    exact hmarks c hmark

mutual

theorem printed_jsonLine (numbers : NumberText) : ∀ value, Printed (jsonLine numbers value)
  | .null => by simp only [jsonLine]; exact printed_of_all (by decide)
  | .bool b => by
    simp only [jsonLine]
    cases b <;> exact printed_of_all (by decide)
  | .num value => by simpa only [jsonLine] using printed_number numbers value
  | .str text => by simpa only [jsonLine] using printed_quoteText text
  | .arr [] => by simp only [jsonLine]; exact printed_of_all (by decide)
  | .arr (item :: items) => by
    simp only [jsonLine]
    exact ((printed_jsonLine numbers item).cons (by decide)).append
      (printed_jsonLineItems numbers items) |>.append (printed_of_all (by decide))
  | .obj [] => by simp only [jsonLine]; exact printed_of_all (by decide)
  | .obj ((key, value) :: fields) => by
    simp only [jsonLine]
    exact (((printed_quoteText key).cons (by decide)).append
      ((printed_jsonLine numbers value).cons (by decide))).append
      (printed_jsonLineFields numbers fields) |>.append (printed_of_all (by decide))

theorem printed_jsonLineItems (numbers : NumberText) :
    ∀ items, Printed (jsonLineItems numbers items)
  | [] => fun c hc => absurd hc List.not_mem_nil
  | item :: items => by
    simp only [jsonLineItems]
    exact ((printed_jsonLine numbers item).cons (by decide)).append
      (printed_jsonLineItems numbers items)

theorem printed_jsonLineFields (numbers : NumberText) :
    ∀ fields, Printed (jsonLineFields numbers fields)
  | [] => fun c hc => absurd hc List.not_mem_nil
  | (key, value) :: fields => by
    simp only [jsonLineFields]
    exact (((printed_quoteText key).cons (by decide)).append
      ((printed_jsonLine numbers value).cons (by decide))).append
      (printed_jsonLineFields numbers fields)

end

/-- A JSON text is one line, without the line feed that ends it. -/
theorem lineFeed_notMem_jsonLine (numbers : NumberText) (value : Json) :
    '\n' ∉ jsonLine numbers value := by
  intro hmem
  exact absurd (printed_jsonLine numbers value _ hmem) (by decide)

theorem getLast?_jsonLine_ne (numbers : NumberText) (value : Json) :
    (jsonLine numbers value).getLast? ≠ some '\r' := by
  intro hlast
  exact absurd (printed_jsonLine numbers value _ (List.mem_of_getLast? hlast)) (by decide)

end Js
