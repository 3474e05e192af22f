import Orchestration.Js.Number

/-!
# JSON texts

`JSON.stringify(value, null, 2)` and `JSON.parse`. A text is read in two passes:
the characters into tokens, which forgets the white space, and the tokens into a
value. What was written is read back as it was.
-/

namespace Js

/-- A value of JSON. -/
inductive Json where
  | null
  | bool (b : Bool)
  | num (value : ℚ)
  | str (text : String)
  | arr (items : List Json)
  | obj (fields : List (String × Json))

/-- The value under a key: the last one counts. -/
def Json.field? (key : String) : Json → Option Json
  | .obj fields => (fields.reverse.find? fun f => f.1 = key).map Prod.snd
  | _ => none

/-! ## Writing -/

def hexDigit (n : ℕ) : Char := if n < 10 then Char.ofNat (48 + n) else Char.ofNat (87 + n)

/-- A character between the quotes. -/
def quoteChar (c : Char) : List Char :=
  if c = '"' then ['\\', '"']
  else if c = '\\' then ['\\', '\\']
  else if c = '\x08' then ['\\', 'b']
  else if c = '\t' then ['\\', 't']
  else if c = '\n' then ['\\', 'n']
  else if c = '\x0c' then ['\\', 'f']
  else if c = '\r' then ['\\', 'r']
  else if c.toNat < 32 then ['\\', 'u', '0', '0', hexDigit (c.toNat / 16), hexDigit (c.toNat % 16)]
  else [c]

def quoteText (text : String) : List Char := '"' :: text.toList.flatMap quoteChar ++ ['"']

/-- A new line at a depth, two spaces a level. -/
def lineBreak (depth : ℕ) : List Char := '\n' :: List.replicate (2 * depth) ' '

mutual

/-- `JSON.stringify(value, null, 2)` inside `depth` brackets. Numbers are whole here: no document
of the program has another. -/
def writeJson (depth : ℕ) : Json → List Char
  | .null => "null".toList
  | .bool b => (if b then "true" else "false").toList
  | .num value => (toString value.num).toList
  | .str text => quoteText text
  | .arr [] => ['[', ']']
  | .arr (item :: items) =>
    '[' :: lineBreak (depth + 1) ++ writeJson (depth + 1) item ++ writeItems (depth + 1) items ++
      lineBreak depth ++ [']']
  | .obj [] => ['{', '}']
  | .obj ((key, value) :: fields) =>
    '{' :: lineBreak (depth + 1) ++ quoteText key ++ ':' :: ' ' :: writeJson (depth + 1) value ++
      writeFields (depth + 1) fields ++ lineBreak depth ++ ['}']

def writeItems (depth : ℕ) : List Json → List Char
  | [] => []
  | item :: items => ',' :: lineBreak depth ++ writeJson depth item ++ writeItems depth items

def writeFields (depth : ℕ) : List (String × Json) → List Char
  | [] => []
  | (key, value) :: fields =>
    ',' :: lineBreak depth ++ quoteText key ++ ':' :: ' ' :: writeJson depth value ++
      writeFields depth fields

end

def stringify (value : Json) : String := String.ofList (writeJson 0 value)

/-! ## Reading -/

inductive JsonToken where
  | openBracket
  | closeBracket
  | openBrace
  | closeBrace
  | comma
  | colon
  | str (text : String)
  | null
  | bool (b : Bool)
  | num (value : ℚ)
deriving DecidableEq

/-- A number by JSON's grammar, as the nearest double. -/
def jsonNumber? (word : List Char) : Option ℚ :=
  let digits := if word.head? = some '-' then word.tail else word
  let whole := digits.takeWhile Char.isDigit
  let rest := digits.dropWhile Char.isDigit
  if whole = [] ∨ whole.head? = some '0' ∧ whole ≠ ['0'] ∨
      rest.head? = some '.' ∧ (rest.tail.head?.all fun c => !c.isDigit) = true then none
  else (unsignedDecimal? digits).map fun q => toDouble (if word.head? = some '-' then -q else q)

/-- What a run of letters and digits stands for. -/
def wordToken? (word : List Char) : Option JsonToken :=
  if word = "null".toList then some .null
  else if word = "true".toList then some (.bool true)
  else if word = "false".toList then some (.bool false)
  else (jsonNumber? word).map .num

/-- Where the reader stands: between two tokens, in a word, or in a string with what it read so
far, the last character first. -/
inductive LexMode where
  | between
  | word (seen : List Char)
  | string (seen : List Char)
  | escape (seen : List Char)
  | unicode (seen digits : List Char)
deriving DecidableEq

/-- The tokens so far, the last one first, and where the reader stands. -/
structure LexState where
  tokens : List JsonToken := []
  mode : LexMode := .between
deriving DecidableEq

def isJsonWordChar (c : Char) : Bool := c.isAlphanum || c = '+' || c = '-' || c = '.'

def isJsonSpace (c : Char) : Bool := c = ' ' || c = '\n' || c = '\r' || c = '\t'

/-- The token that is a character of its own. -/
def punctuation? (c : Char) : Option JsonToken :=
  if c = '[' then some .openBracket
  else if c = ']' then some .closeBracket
  else if c = '{' then some .openBrace
  else if c = '}' then some .closeBrace
  else if c = ',' then some .comma
  else if c = ':' then some .colon
  else none

/-- A character outside words and strings. -/
def lexBetween (tokens : List JsonToken) (c : Char) : Option LexState :=
  if c = '"' then some { tokens, mode := .string [] }
  else if isJsonSpace c then some { tokens, mode := .between }
  else if isJsonWordChar c then some { tokens, mode := .word [c] }
  else (punctuation? c).map fun token => { tokens := token :: tokens, mode := .between }

/-- The character that stands behind a backslash. -/
def unescape? (c : Char) : Option Char :=
  if c = '"' ∨ c = '\\' ∨ c = '/' then some c
  else if c = 'b' then some '\x08'
  else if c = 't' then some '\t'
  else if c = 'n' then some '\n'
  else if c = 'f' then some '\x0c'
  else if c = 'r' then some '\r'
  else none

def lexStep (s : LexState) (c : Char) : Option LexState :=
  match s.mode with
  | .between => lexBetween s.tokens c
  | .word seen =>
    if isJsonWordChar c then some { s with mode := .word (c :: seen) }
    else (wordToken? seen.reverse).bind fun token => lexBetween (token :: s.tokens) c
  | .string seen =>
    if c = '"' then some { tokens := .str (String.ofList seen.reverse) :: s.tokens, mode := .between }
    else if c = '\\' then some { s with mode := .escape seen }
    else if c.toNat < 32 then none
    else some { s with mode := .string (c :: seen) }
  | .escape seen =>
    if c = 'u' then some { s with mode := .unicode seen [] }
    else (unescape? c).map fun d => { s with mode := .string (d :: seen) }
  | .unicode seen digits =>
    if digits.length < 3 then
      (digit? 16 c).map fun _ => { s with mode := .unicode seen (digits ++ [c]) }
    else (natLiteral? 16 (digits ++ [c])).bind fun n =>
      -- a surrogate is half a character, and no text holds it
      if n < 0xD800 ∨ 0xDFFF < n then some { s with mode := .string (Char.ofNat n :: seen) }
      else none

/-- The tokens of a text that ends where a token may end. -/
def lexEnd (s : LexState) : Option (List JsonToken) :=
  match s.mode with
  | .between => some s.tokens.reverse
  | .word seen => (wordToken? seen.reverse).map fun token => (token :: s.tokens).reverse
  | _ => none

def lex (text : String) : Option (List JsonToken) := (text.toList.foldlM lexStep {}).bind lexEnd

mutual

/-- The value at the front of the tokens, and the tokens behind it. -/
def parseValue : ℕ → List JsonToken → Option (Json × List JsonToken)
  | _ + 1, .null :: tokens => some (.null, tokens)
  | _ + 1, .bool b :: tokens => some (.bool b, tokens)
  | _ + 1, .num value :: tokens => some (.num value, tokens)
  | _ + 1, .str text :: tokens => some (.str text, tokens)
  | _ + 1, .openBracket :: .closeBracket :: tokens => some (.arr [], tokens)
  | n + 1, .openBracket :: tokens => (parseItems n tokens).map fun r => (.arr r.1, r.2)
  | _ + 1, .openBrace :: .closeBrace :: tokens => some (.obj [], tokens)
  | n + 1, .openBrace :: tokens => (parseFields n tokens).map fun r => (.obj r.1, r.2)
  | _, _ => none

def parseItems : ℕ → List JsonToken → Option (List Json × List JsonToken)
  | 0, _ => none
  | n + 1, tokens =>
    (parseValue n tokens).bind fun (item, rest) =>
      match rest with
      | .closeBracket :: rest => some ([item], rest)
      | .comma :: rest => (parseItems n rest).map fun r => (item :: r.1, r.2)
      | _ => none

def parseFields : ℕ → List JsonToken → Option (List (String × Json) × List JsonToken)
  | n + 1, .str key :: .colon :: tokens =>
    (parseValue n tokens).bind fun (value, rest) =>
      match rest with
      | .closeBrace :: rest => some ([(key, value)], rest)
      | .comma :: rest => (parseFields n rest).map fun r => ((key, value) :: r.1, r.2)
      | _ => none
  | _, _ => none

end

/-- `JSON.parse(text)`; `none` is its `SyntaxError`. Every second call takes a token, so twice
their number is fuel enough. -/
def parse (text : String) : Option Json :=
  (lex text).bind fun tokens =>
    match parseValue (2 * tokens.length) tokens with
    | some (value, []) => some value
    | _ => none

/-! ## Reading back what was written -/

/-- The documents of the program: their numbers are safe natural ones. -/
inductive Json.Written : Json → Prop
  | null : Written .null
  | bool (b : Bool) : Written (.bool b)
  | num {n : ℕ} (h : n ≤ maxSafeInteger) : Written (.num n)
  | str (text : String) : Written (.str text)
  | arr {items : List Json} (h : ∀ item ∈ items, Written item) : Written (.arr items)
  | obj {fields : List (String × Json)} (h : ∀ field ∈ fields, Written field.2) :
    Written (.obj fields)

mutual

/-- The tokens of a value. -/
def tokensOf : Json → List JsonToken
  | .null => [.null]
  | .bool b => [.bool b]
  | .num value => [.num value]
  | .str text => [.str text]
  | .arr [] => [.openBracket, .closeBracket]
  | .arr (item :: items) => .openBracket :: tokensOf item ++ tokensOfItems items ++ [.closeBracket]
  | .obj [] => [.openBrace, .closeBrace]
  | .obj ((key, value) :: fields) =>
    .openBrace :: .str key :: .colon :: tokensOf value ++ tokensOfFields fields ++ [.closeBrace]

def tokensOfItems : List Json → List JsonToken
  | [] => []
  | item :: items => .comma :: tokensOf item ++ tokensOfItems items

def tokensOfFields : List (String × Json) → List JsonToken
  | [] => []
  | (key, value) :: fields =>
    .comma :: .str key :: .colon :: tokensOf value ++ tokensOfFields fields

end

/-! ### The tokens of what was written -/

/-- The tokens of the rest of a text, from where the reader stands. -/
def readOn (s : LexState) (text : List Char) : Option (List JsonToken) :=
  (text.foldlM lexStep s).bind lexEnd

theorem readOn_cons (s : LexState) (c : Char) (text : List Char) :
    readOn s (c :: text) = (lexStep s c).bind (readOn · text) := by
  cases h : lexStep s c <;> simp [readOn, h]

theorem readOn_of_step {s : LexState} (s' : LexState) {c : Char} (h : lexStep s c = some s')
    (text : List Char) : readOn s (c :: text) = readOn s' text := by
  rw [readOn_cons, h]
  rfl

/-- No word goes on into the text. -/
def Delimited (text : List Char) : Prop := ∀ c ∈ text.head?, isJsonWordChar c = false

theorem Delimited.cons {c : Char} {text : List Char} (h : isJsonWordChar c = false) :
    Delimited (c :: text) := by
  intro d hd
  simp only [List.head?_cons, Option.mem_def, Option.some.injEq] at hd
  rw [← hd]
  exact h

theorem isJsonWordChar_spec {c : Char} (h : isJsonWordChar c = true) :
    c ≠ '"' ∧ isJsonSpace c = false := by
  constructor
  · rintro rfl
    revert h
    decide
  · rw [Bool.eq_false_iff]
    intro hspace
    simp only [isJsonSpace, Bool.or_eq_true, decide_eq_true_eq] at hspace
    rcases hspace with ((rfl | rfl) | rfl) | rfl <;> revert h <;> decide

variable {tokens : List JsonToken} {rest : List Char}

theorem readOn_space {c : Char} (h : isJsonSpace c = true) :
    readOn ⟨tokens, .between⟩ (c :: rest) = readOn ⟨tokens, .between⟩ rest := by
  apply readOn_of_step
  have hquote : c ≠ '"' := by
    rintro rfl
    revert h
    decide
  simp [lexStep, lexBetween, hquote, h]

theorem readOn_spaces (n : ℕ) :
    readOn ⟨tokens, .between⟩ (List.replicate n ' ' ++ rest) = readOn ⟨tokens, .between⟩ rest := by
  induction n with
  | zero => rfl
  | succ n ih =>
    rw [List.replicate_succ, List.cons_append, readOn_space (by decide), ih]

theorem readOn_lineBreak (depth : ℕ) :
    readOn ⟨tokens, .between⟩ (lineBreak depth ++ rest) = readOn ⟨tokens, .between⟩ rest := by
  rw [lineBreak, List.cons_append, readOn_space (by decide), readOn_spaces]

/-- A word is one token, which its delimiter ends. -/
theorem readOn_word {word : List Char} {token : JsonToken} (hne : word ≠ [])
    (hword : ∀ c ∈ word, isJsonWordChar c = true) (htoken : wordToken? word = some token)
    (hrest : Delimited rest) :
    readOn ⟨tokens, .between⟩ (word ++ rest) = readOn ⟨token :: tokens, .between⟩ rest := by
  have hseen : ∀ (word seen : List Char), (∀ c ∈ word, isJsonWordChar c = true) →
      readOn ⟨tokens, .word seen⟩ (word ++ rest) =
        readOn ⟨tokens, .word (word.reverse ++ seen)⟩ rest := by
    intro word
    induction word with
    | nil => intro seen _; rfl
    | cons c word ih =>
      intro seen h
      rw [List.cons_append, readOn_of_step ⟨tokens, .word (c :: seen)⟩,
        ih _ fun d hd => h d (List.mem_cons_of_mem _ hd)]
      · simp
      · simp [lexStep, h c List.mem_cons_self]
  have hend : readOn ⟨tokens, .word word.reverse⟩ rest = readOn ⟨token :: tokens, .between⟩ rest := by
    cases rest with
    | nil => simp [readOn, lexEnd, htoken]
    | cons c rest =>
      rw [readOn_cons, readOn_cons]
      have hc : isJsonWordChar c = false := hrest c rfl
      simp [lexStep, hc, htoken]
  cases word with
  | nil => exact absurd rfl hne
  | cons c word =>
    have hc := hword c List.mem_cons_self
    obtain ⟨hquote, hspace⟩ := isJsonWordChar_spec hc
    rw [List.cons_append, readOn_of_step ⟨tokens, .word [c]⟩,
      hseen word [c] fun d hd => hword d (List.mem_cons_of_mem _ hd), ← hend, List.reverse_cons]
    simp [lexStep, lexBetween, hquote, hspace, hc]

/-- What stands for a control character is read as it. -/
theorem natLiteral?_hexDigits (n : ℕ) (h : n < 32) :
    natLiteral? 16 ['0', '0', hexDigit (n / 16), hexDigit (n % 16)] = some n ∧
      (digit? 16 (hexDigit (n / 16))).isSome = true := by
  revert n
  decide +kernel

theorem readOn_quoteChar (c : Char) (seen : List Char) :
    readOn ⟨tokens, .string seen⟩ (quoteChar c ++ rest) =
      readOn ⟨tokens, .string (c :: seen)⟩ rest := by
  have hescape : ∀ d e, unescape? d = some e → d ≠ 'u' →
      readOn ⟨tokens, .string seen⟩ ('\\' :: d :: rest) =
        readOn ⟨tokens, .string (e :: seen)⟩ rest := by
    intro d e hd hu
    rw [readOn_of_step ⟨tokens, .escape seen⟩ rfl, readOn_of_step]
    simp [lexStep, hd, hu]
  rw [quoteChar]
  split
  · next hc => exact hc ▸ hescape '"' '"' rfl (by decide)
  split
  · next hc => exact hc ▸ hescape '\\' '\\' rfl (by decide)
  split
  · next hc => exact hc ▸ hescape 'b' '\x08' rfl (by decide)
  split
  · next hc => exact hc ▸ hescape 't' '\t' rfl (by decide)
  split
  · next hc => exact hc ▸ hescape 'n' '\n' rfl (by decide)
  split
  · next hc => exact hc ▸ hescape 'f' '\x0c' rfl (by decide)
  split
  · next hc => exact hc ▸ hescape 'r' '\r' rfl (by decide)
  split
  · next hcontrol =>
    obtain ⟨hvalue, hdigit⟩ := natLiteral?_hexDigits c.toNat hcontrol
    obtain ⟨digit, hdigit⟩ := Option.isSome_iff_exists.1 hdigit
    change readOn _ ('\\' :: 'u' :: '0' :: '0' :: hexDigit (c.toNat / 16) ::
      hexDigit (c.toNat % 16) :: rest) = _
    rw [readOn_of_step ⟨tokens, .escape seen⟩ rfl,
      readOn_of_step ⟨tokens, .unicode seen []⟩ rfl,
      readOn_of_step ⟨tokens, .unicode seen ['0']⟩ rfl,
      readOn_of_step ⟨tokens, .unicode seen ['0', '0']⟩ rfl,
      readOn_of_step ⟨tokens, .unicode seen ['0', '0', hexDigit (c.toNat / 16)]⟩,
      readOn_of_step]
    · simp only [lexStep, List.length_cons, List.length_nil, List.cons_append, List.nil_append,
        hvalue]
      have hlow : c.toNat < 0xD800 := by omega
      simp [hlow]
    · simp [lexStep, hdigit]
  · next hquote hbackslash _ _ _ _ _ hcontrol =>
    apply readOn_of_step
    simp [lexStep, hquote, hbackslash, hcontrol]

theorem readOn_quoteText (text : String) :
    readOn ⟨tokens, .between⟩ (quoteText text ++ rest) =
      readOn ⟨.str text :: tokens, .between⟩ rest := by
  have hseen : ∀ (cs seen : List Char),
      readOn ⟨tokens, .string seen⟩ (cs.flatMap quoteChar ++ '"' :: rest) =
        readOn ⟨.str (String.ofList (seen.reverse ++ cs)) :: tokens, .between⟩ rest := by
    intro cs
    induction cs with
    | nil =>
      intro seen
      apply readOn_of_step
      simp [lexStep]
    | cons c cs ih =>
      intro seen
      rw [List.flatMap_cons, List.append_assoc, readOn_quoteChar, ih]
      simp
  have hquoted : quoteText text ++ rest = '"' :: (text.toList.flatMap quoteChar ++ '"' :: rest) := by
    simp [quoteText]
  rw [hquoted, readOn_of_step ⟨tokens, .string []⟩ rfl, hseen]
  simp

/-- A natural number in decimal has no zero in front. -/
theorem head_toDigits {n : ℕ} (h : n ≠ 0) : (Nat.toDigits 10 n).head? ≠ some '0' := by
  induction n using Nat.strong_induction_on with
  | _ n ih =>
    by_cases hsmall : n < 10
    · rw [Nat.toDigits_of_lt_base hsmall]
      interval_cases n <;> first | exact absurd rfl h | decide
    · rw [Nat.toDigits_of_base_le (by decide) (by omega)]
      have hne : Nat.toDigits 10 (n / 10) ≠ [] := Nat.toDigits_ne_nil
      rw [List.head?_append_of_ne_nil _ hne]
      exact ih (n / 10) (by omega) (by omega)

theorem wordToken?_toString {n : ℕ} (h : n ≤ maxSafeInteger) :
    wordToken? (toString n).toList = some (.num n) := by
  have hdigit : ∀ c ∈ (toString n).toList, c.isDigit = true := fun c => isDigit_of_mem_toString
  have hne := toString_toList_ne_nil n
  have hzero : (toString n).toList.head? = some '0' → (toString n).toList = ['0'] := by
    intro hhead
    by_cases hn : n = 0
    · rw [hn]
      rfl
    · rw [Nat.toString_eq_repr, Nat.toList_repr] at hhead
      exact absurd hhead (head_toDigits hn)
  have hvalue : unsignedDecimal? (toString n).toList = some (n : ℚ) := by
    rw [unsignedDecimal?_of_isDigit hne hdigit, Nat.toString_eq_repr, Nat.toList_repr,
      Nat.ofDigitChars_ten_toDigits]
  generalize (toString n).toList = word at hdigit hne hzero hvalue
  cases word with
  | nil => exact absurd rfl hne
  | cons c word =>
    have hc := hdigit c List.mem_cons_self
    have hletter : ∀ d, d.isDigit = false → c ≠ d := by
      rintro d hd rfl
      exact absurd hc (by simp [hd])
    have hminus : c ≠ '-' := hletter '-' rfl
    have hwhole : (c :: word).takeWhile Char.isDigit = c :: word :=
      List.takeWhile_eq_self_iff.2 hdigit
    have hbehind : (c :: word).dropWhile Char.isDigit = [] := List.dropWhile_eq_nil_iff.2 hdigit
    have hnumber : jsonNumber? (c :: word) = some n := by
      have hplain : ¬ ((c :: word).head? = some '0' ∧ c :: word ≠ ['0']) := fun hlead =>
        hlead.2 (hzero hlead.1)
      simp only [jsonNumber?, List.head?_cons, Option.some.injEq, hminus, if_false, hwhole, hbehind]
      simp only [List.head?_cons] at hplain
      have hlead : ¬ (c = '0' ∧ c :: word ≠ ['0']) := fun hlead =>
        hplain ⟨congrArg some hlead.1, hlead.2⟩
      simp only [hlead, hvalue]
      simp [toDouble_natCast h]
    have hnull : c :: word ≠ "null".toList := fun heq => hletter 'n' rfl (List.cons.inj heq).1
    have htrue : c :: word ≠ "true".toList := fun heq => hletter 't' rfl (List.cons.inj heq).1
    have hfalse : c :: word ≠ "false".toList := fun heq => hletter 'f' rfl (List.cons.inj heq).1
    rw [wordToken?, if_neg hnull, if_neg htrue, if_neg hfalse, hnumber]
    rfl

/-- The text of a value, at any depth, gives its tokens. -/
def ReadsBack (value : Json) : Prop :=
  ∀ (depth : ℕ) (tokens : List JsonToken) (rest : List Char), Delimited rest →
    readOn ⟨tokens, .between⟩ (writeJson depth value ++ rest) =
      readOn ⟨(tokensOf value).reverse ++ tokens, .between⟩ rest

theorem Delimited.writeItems (hrest : Delimited rest) (depth : ℕ) (items : List Json) :
    Delimited (writeItems depth items ++ rest) := by
  cases items with
  | nil => exact hrest
  | cons item items => exact .cons (by decide)

theorem Delimited.writeFields (hrest : Delimited rest) (depth : ℕ) (fields : List (String × Json)) :
    Delimited (writeFields depth fields ++ rest) := by
  cases fields with
  | nil => exact hrest
  | cons field fields => exact .cons (by decide)

theorem readOn_writeItems {items : List Json} (h : ∀ item ∈ items, ReadsBack item) (depth : ℕ)
    (tokens : List JsonToken) (hrest : Delimited rest) :
    readOn ⟨tokens, .between⟩ (writeItems depth items ++ rest) =
      readOn ⟨(tokensOfItems items).reverse ++ tokens, .between⟩ rest := by
  induction items generalizing tokens with
  | nil => rfl
  | cons item items ih =>
    have hitem := h item List.mem_cons_self depth (.comma :: tokens) _
      (hrest.writeItems depth items)
    simp only [writeItems, tokensOfItems, List.cons_append, List.append_assoc]
    rw [readOn_of_step ⟨.comma :: tokens, .between⟩ rfl, readOn_lineBreak, hitem,
      ih fun item' hmem => h item' (List.mem_cons_of_mem _ hmem)]
    simp

theorem readOn_writeFields {fields : List (String × Json)}
    (h : ∀ field ∈ fields, ReadsBack field.2) (depth : ℕ) (tokens : List JsonToken)
    (hrest : Delimited rest) :
    readOn ⟨tokens, .between⟩ (writeFields depth fields ++ rest) =
      readOn ⟨(tokensOfFields fields).reverse ++ tokens, .between⟩ rest := by
  induction fields generalizing tokens with
  | nil => rfl
  | cons field fields ih =>
    obtain ⟨key, value⟩ := field
    have hvalue := h (key, value) List.mem_cons_self depth (.colon :: .str key :: .comma :: tokens) _
      (hrest.writeFields depth fields)
    simp only [writeFields, tokensOfFields, List.cons_append, List.append_assoc]
    rw [readOn_of_step ⟨.comma :: tokens, .between⟩ rfl, readOn_lineBreak, readOn_quoteText,
      readOn_of_step ⟨.colon :: .str key :: .comma :: tokens, .between⟩ rfl,
      readOn_space (by decide), hvalue,
      ih fun field' hmem => h field' (List.mem_cons_of_mem _ hmem)]
    simp

theorem Json.Written.readsBack {value : Json} (h : value.Written) : ReadsBack value := by
  induction h with
  | null =>
    intro depth tokens rest hrest
    rw [writeJson]
    exact readOn_word (by decide) (List.all_eq_true.1 (by decide)) rfl hrest
  | bool b =>
    intro depth tokens rest hrest
    rw [writeJson]
    cases b with
    | true => exact readOn_word (by decide) (List.all_eq_true.1 (by decide)) rfl hrest
    | false => exact readOn_word (by decide) (List.all_eq_true.1 (by decide)) rfl hrest
  | @num n hn =>
    intro depth tokens rest hrest
    have htext : writeJson depth (.num n) = (toString n).toList := by
      rw [writeJson, Rat.num_natCast]
      rfl
    rw [htext]
    refine readOn_word (toString_toList_ne_nil n) (fun c hc => ?_) (wordToken?_toString hn) hrest
    have hdigit : c.isDigit = true := isDigit_of_mem_toString hc
    simp [isJsonWordChar, Char.isAlphanum, hdigit]
  | str text =>
    intro depth tokens rest hrest
    rw [writeJson, readOn_quoteText]
    rfl
  | @arr items _ ih =>
    intro depth tokens rest hrest
    cases items with
    | nil =>
      rw [writeJson]
      rfl
    | cons item items =>
      have hclose : Delimited (lineBreak depth ++ ']' :: rest) := .cons (by decide)
      have hitem := ih item List.mem_cons_self (depth + 1) (.openBracket :: tokens) _
        (hclose.writeItems (depth + 1) items)
      simp only [writeJson, tokensOf, List.cons_append, List.append_assoc, List.nil_append]
      rw [readOn_of_step ⟨.openBracket :: tokens, .between⟩ rfl, readOn_lineBreak, hitem,
        readOn_writeItems (fun item' hmem => ih item' (List.mem_cons_of_mem _ hmem)) _ _ hclose,
        readOn_lineBreak, readOn_of_step _ rfl]
      simp
  | @obj fields _ ih =>
    intro depth tokens rest hrest
    cases fields with
    | nil =>
      rw [writeJson]
      rfl
    | cons field fields =>
      obtain ⟨key, value⟩ := field
      have hclose : Delimited (lineBreak depth ++ '}' :: rest) := .cons (by decide)
      have hvalue := ih (key, value) List.mem_cons_self (depth + 1)
        (.colon :: .str key :: .openBrace :: tokens) _ (hclose.writeFields (depth + 1) fields)
      simp only [writeJson, tokensOf, List.cons_append, List.append_assoc, List.nil_append]
      rw [readOn_of_step ⟨.openBrace :: tokens, .between⟩ rfl, readOn_lineBreak,
        readOn_quoteText,
        readOn_of_step ⟨.colon :: .str key :: .openBrace :: tokens, .between⟩ rfl,
        readOn_space (by decide), hvalue,
        readOn_writeFields (fun field' hmem => ih field' (List.mem_cons_of_mem _ hmem)) _ _ hclose,
        readOn_lineBreak, readOn_of_step _ rfl]
      simp

/-! ### The value of the tokens -/

/-- The tokens of a value are read as the value, with twice their number for fuel. -/
def ParsesBack (value : Json) : Prop :=
  ∀ (n : ℕ) (rest : List JsonToken), 2 * (tokensOf value).length ≤ n →
    parseValue n (tokensOf value ++ rest) = some (value, rest)

/-- A value begins with no closing bracket. -/
theorem tokensOf_eq_cons (value : Json) : ∃ token tokens, tokensOf value = token :: tokens ∧
    token ≠ .closeBracket := by
  cases value with
  | arr items => cases items <;> exact ⟨_, _, rfl, by simp⟩
  | obj fields =>
    cases fields with
    | nil => exact ⟨_, _, rfl, by simp⟩
    | cons field fields => exact ⟨_, _, rfl, by simp⟩
  | _ => exact ⟨_, _, rfl, by simp⟩

theorem parseItems_tokens {item : Json} {items : List Json} (hitem : ParsesBack item)
    (h : ∀ item ∈ items, ParsesBack item) {n : ℕ} (rest : List JsonToken)
    (hn : 2 * (tokensOf item ++ tokensOfItems items).length + 3 ≤ n) :
    parseItems n (tokensOf item ++ tokensOfItems items ++ .closeBracket :: rest) =
      some (item :: items, rest) := by
  induction items generalizing item n with
  | nil =>
    obtain ⟨n, rfl⟩ : ∃ m, n = m + 1 := ⟨n - 1, by omega⟩
    simp only [tokensOfItems, List.append_nil] at hn ⊢
    rw [parseItems, hitem n _ (by omega)]
    rfl
  | cons next items ih =>
    obtain ⟨n, rfl⟩ : ∃ m, n = m + 1 := ⟨n - 1, by omega⟩
    simp only [tokensOfItems, List.cons_append, List.append_assoc, List.length_append,
      List.length_cons] at hn ⊢
    rw [parseItems, hitem n _ (by omega)]
    have hrest := ih (h next List.mem_cons_self)
      (fun item' hmem => h item' (List.mem_cons_of_mem _ hmem)) (n := n) (by simp; omega)
    simp only [List.append_assoc] at hrest
    simp [hrest]

theorem parseFields_tokens (key : String) {value : Json} {fields : List (String × Json)}
    (hvalue : ParsesBack value) (h : ∀ field ∈ fields, ParsesBack field.2) {n : ℕ}
    (rest : List JsonToken) (hn : 2 * (tokensOf value ++ tokensOfFields fields).length + 5 ≤ n) :
    parseFields n (.str key :: .colon :: tokensOf value ++ tokensOfFields fields ++
      .closeBrace :: rest) = some ((key, value) :: fields, rest) := by
  induction fields generalizing key value n with
  | nil =>
    obtain ⟨n, rfl⟩ : ∃ m, n = m + 1 := ⟨n - 1, by omega⟩
    simp only [tokensOfFields, List.append_nil, List.cons_append] at hn ⊢
    rw [parseFields, hvalue n _ (by omega)]
    rfl
  | cons next fields ih =>
    obtain ⟨n, rfl⟩ : ∃ m, n = m + 1 := ⟨n - 1, by omega⟩
    obtain ⟨nextKey, nextValue⟩ := next
    simp only [tokensOfFields, List.cons_append, List.append_assoc, List.length_append,
      List.length_cons] at hn ⊢
    rw [parseFields, hvalue n _ (by omega)]
    have hrest := @ih nextKey nextValue (h (nextKey, nextValue) List.mem_cons_self)
      (fun field' hmem => h field' (List.mem_cons_of_mem _ hmem)) n (by simp; omega)
    simp only [List.cons_append, List.append_assoc] at hrest
    simp [hrest]

theorem Json.Written.parsesBack {value : Json} (h : value.Written) : ParsesBack value := by
  have hpositive : ∀ {value : Json} {n : ℕ}, 2 * (tokensOf value).length ≤ n → ∃ m, n = m + 1 := by
    intro value n hn
    obtain ⟨token, tokens, htokens, -⟩ := tokensOf_eq_cons value
    rw [htokens, List.length_cons] at hn
    exact ⟨n - 1, by omega⟩
  induction h with
  | @arr items _ ih =>
    intro n rest hn
    obtain ⟨n, rfl⟩ := hpositive hn
    cases items with
    | nil => rfl
    | cons item items =>
      obtain ⟨token, tokens, htokens, hopen⟩ := tokensOf_eq_cons item
      have hitems := parseItems_tokens (ih item List.mem_cons_self)
        (fun item' hmem => ih item' (List.mem_cons_of_mem _ hmem)) (n := n) rest
        (by simp [tokensOf] at hn ⊢; omega)
      simp only [tokensOf, List.cons_append, List.append_assoc, List.nil_append] at hitems ⊢
      rw [htokens, List.cons_append] at hitems ⊢
      rw [parseValue, hitems]
      · rfl
      · intro _ heq
        exact hopen (List.cons.inj heq).1
  | @obj fields _ ih =>
    intro n rest hn
    obtain ⟨n, rfl⟩ := hpositive hn
    cases fields with
    | nil => rfl
    | cons field fields =>
      obtain ⟨key, value⟩ := field
      have hfields := parseFields_tokens key (ih (key, value) List.mem_cons_self)
        (fun field' hmem => ih field' (List.mem_cons_of_mem _ hmem)) (n := n) rest
        (by simp [tokensOf] at hn ⊢; omega)
      simp only [tokensOf, List.cons_append, List.append_assoc, List.nil_append] at hfields ⊢
      rw [parseValue, hfields]
      · rfl
      · intro _ heq
        cases heq
  | _ =>
    intro n rest hn
    obtain ⟨n, rfl⟩ := hpositive hn
    rfl

/-- What the program writes is read back as it was. -/
theorem parse_stringify {value : Json} (h : value.Written) : parse (stringify value) = some value := by
  have hlex : lex (stringify value) = some (tokensOf value) := by
    have hread := h.readsBack 0 [] [] (by simp [Delimited])
    rw [List.append_nil] at hread
    rw [lex, stringify, String.toList_ofList]
    change readOn ⟨[], .between⟩ _ = _
    rw [hread]
    simp [readOn, lexEnd]
  have hparse := h.parsesBack (2 * (tokensOf value).length) [] le_rfl
  rw [List.append_nil] at hparse
  rw [parse, hlex]
  simp [hparse]

/-- A line break at the end of the file changes nothing. -/
theorem parse_stringify_newline {value : Json} (h : value.Written) :
    parse (stringify value ++ "\n") = some value := by
  have hlex : lex (stringify value ++ "\n") = lex (stringify value) := by
    have hread := h.readsBack 0 [] ['\n'] (Delimited.cons (by decide))
    have hread' := h.readsBack 0 [] [] (by simp [Delimited])
    rw [List.append_nil] at hread'
    have hnewline : "\n".toList = ['\n'] := rfl
    rw [lex, lex, String.toList_append, hnewline, stringify, String.toList_ofList]
    change readOn ⟨[], .between⟩ _ = readOn ⟨[], .between⟩ _
    rw [hread, hread', readOn_space (by decide)]
  have hparse := parse_stringify h
  rw [parse] at hparse ⊢
  rwa [hlex]

end Js
