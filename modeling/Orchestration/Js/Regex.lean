import Orchestration.Js.Number

/-!
# Regular expressions

The part of JavaScript's regular expressions that redaction rules are written in:
classes, sequences, alternatives, greedy and reluctant repetitions, word
boundaries and negative look-ahead. A match is the first one backtracking finds.
-/

namespace Js

/-- A regular expression over classes of characters. -/
inductive Regex where
  | one (matchesClass : Char → Bool)
  | seq (first rest : Regex)
  | alt (first other : Regex)
  /-- From `least` to `most` times, `most = none` for any number; the body is never empty. -/
  | times (least : ℕ) (most : Option ℕ) (reluctant : Bool) (body : Regex)
  /-- `\b`, for the given word characters. -/
  | boundary (isWord : Char → Bool)
  /-- `(?!body)`. -/
  | notAhead (body : Regex)

/-- A place in a text: the character before it, and what follows it. -/
structure Cursor where
  before : Option Char
  rest : List Char
deriving DecidableEq, Repr

/-- Up to `more` repetitions, the longest first unless they are reluctant. -/
def upTo (step : Cursor → List Cursor) (reluctant : Bool) : ℕ → Cursor → List Cursor
  | 0, at' => [at']
  | more + 1, at' =>
    let longer := (step at').flatMap (upTo step reluctant more)
    if reluctant then at' :: longer else longer ++ [at']

/-- `least` repetitions, and up to `more` others. -/
def repeated (step : Cursor → List Cursor) (reluctant : Bool) (more : ℕ) : ℕ → Cursor → List Cursor
  | 0, at' => upTo step reluctant more at'
  | least + 1, at' => (step at').flatMap (repeated step reluctant more least)

/-- Where a match that starts here may end, in the order of backtracking. -/
def Regex.ends : Regex → Cursor → List Cursor
  | .one _, ⟨_, []⟩ => []
  | .one matchesClass, ⟨_, c :: rest⟩ => if matchesClass c then [⟨some c, rest⟩] else []
  | .seq first second, at' => (first.ends at').flatMap second.ends
  | .alt first other, at' => first.ends at' ++ other.ends at'
  | .times least most reluctant body, at' =>
    let more := match most with
      | some most => most - least
      | none => at'.rest.length
    repeated body.ends reluctant more least at'
  | .boundary isWord, at' =>
    if at'.before.any isWord != at'.rest.head?.any isWord then [at'] else []
  | .notAhead body, at' => if body.ends at' = [] then [at'] else []

/-- `text.replace(pattern, replacer)` with the flag `g`, for a pattern that never matches nothing. -/
def Regex.replaceFrom (pattern : Regex) (replacer : List Char → List Char) :
    ℕ → Cursor → List Char
  | 0, at' => at'.rest
  | _ + 1, ⟨_, []⟩ => []
  | n + 1, ⟨before, c :: rest⟩ =>
    match pattern.ends ⟨before, c :: rest⟩ with
    | stop :: _ =>
      replacer ((c :: rest).take (rest.length + 1 - stop.rest.length)) ++
        pattern.replaceFrom replacer n stop
    | [] => c :: pattern.replaceFrom replacer n ⟨some c, rest⟩

def Regex.replaceAll (pattern : Regex) (replacer : List Char → List Char) (text : List Char) :
    List Char :=
  pattern.replaceFrom replacer text.length ⟨none, text⟩

/-- The first match of `^pattern`. -/
def Regex.execAtStart (pattern : Regex) (text : List Char) : Option (List Char) :=
  (pattern.ends ⟨none, text⟩).head?.map fun stop => text.take (text.length - stop.rest.length)

/-! ## Building blocks -/

namespace Regex

/-- The characters of `text`, one after the other. -/
def literally (text : String) : Regex :=
  match text.toList.reverse with
  | [] => .times 0 (some 0) false (.one fun _ => false)
  | last :: start =>
    start.foldl (fun rest c => .seq (.one fun d => d = c) rest) (.one fun d => d = last)

/-- `body*`. -/
def star (body : Regex) : Regex := .times 0 none false body

/-- `body+`. -/
def plus (body : Regex) : Regex := .times 1 none false body

/-- `body{n,}`. -/
def atLeast (n : ℕ) (body : Regex) : Regex := .times n none false body

/-- `body{n}`. -/
def exactly (n : ℕ) (body : Regex) : Regex := .times n (some n) false body

end Regex

/-- `[A-Za-z0-9]`. -/
def isAsciiAlphanumeric (c : Char) : Bool :=
  'a' ≤ c && c ≤ 'z' || 'A' ≤ c && c ≤ 'Z' || '0' ≤ c && c ≤ '9'

/-- `\w`. -/
def isWordChar (c : Char) : Bool := isAsciiAlphanumeric c || c = '_'

/-- `\w` under the flags `i` and `u`: the long s and the Kelvin sign fold to letters. -/
def isWordCharFolded (c : Char) : Bool := isWordChar c || c.toNat = 0x17F || c.toNat = 0x212A

end Js
