import Orchestration.Library.Splitting
import Orchestration.Permissions.IdentityGuard

/-!
# TOML, written and read by hand

The launch configuration of a pane is written line by line, and read back by a reader of its own.
A string survives the way there and back unless a backslash stands directly before an `n` or an
`r` in it: the reader undoes the escapes one kind after the other.
-/

namespace Orchestration.Permissions

open Js
open Splitting (forall_mem_of_all)

/-! ## Strings -/

/-- `text.replace(/c/g, replacement)`. -/
def replaceChar (c : Char) (replacement text : List Char) : List Char :=
  text.flatMap fun d => if d = c then replacement else [d]

/-- `text.replace(/ab/g, c)`. -/
def replacePair (a b c : Char) : List Char → List Char
  | x :: y :: rest =>
    if x = a ∧ y = b then c :: replacePair a b c rest else x :: replacePair a b c (y :: rest)
  | text => text

/-- Escape a value for a TOML string. -/
def tomlStringEscape (value : List Char) : List Char :=
  replaceChar '\r' ['\\', 'r'] <| replaceChar '\n' ['\\', 'n'] <|
    replaceChar '"' ['\\', '"'] <| replaceChar '\\' ['\\', '\\'] value

def tomlStringUnescape (value : List Char) : List Char :=
  replacePair '\\' '\\' '\\' <| replacePair '\\' '"' '"' <|
    replacePair '\\' 'n' '\n' <| replacePair '\\' 'r' '\r' value

/-- A value as it is written into a line. -/
def tomlString (value : List Char) : List Char := '"' :: tomlStringEscape value ++ ['"']

/-- The strings of an array, as they stand between its brackets. -/
def tomlStrings (values : List (List Char)) : List Char :=
  [',', ' '].intercalate (values.map tomlString)

def tomlArray (values : List (List Char)) : List Char := '[' :: tomlStrings values ++ [']']

/-- The inside of a string that ends where the text ends. -/
def tomlStringBody? : List Char → Option (List Char)
  | [] => none
  | ['"'] => some []
  | '"' :: _ :: _ => none
  | ['\\'] => none
  | '\\' :: c :: rest =>
    if isLineTerminator c then none else (tomlStringBody? rest).map ('\\' :: c :: ·)
  | c :: rest => (tomlStringBody? rest).map (c :: ·)

inductive TomlScalar where
  | text (value : List Char)
  | bool (value : Bool)
deriving DecidableEq, Repr

def tomlScalar? (value : List Char) : Option TomlScalar :=
  if value = "true".toList then some (.bool true)
  else if value = "false".toList then some (.bool false)
  else
    match value with
    | '"' :: rest => (tomlStringBody? rest).map fun body => .text (tomlStringUnescape body)
    | _ => none

/-- A string of an array up to its closing quote, and what follows. -/
def tomlStringEnd? : List Char → Option (List Char × List Char)
  | [] => none
  | '"' :: rest => some ([], rest)
  | ['\\'] => none
  | '\\' :: c :: rest => (tomlStringEnd? rest).map fun (body, after) => ('\\' :: c :: body, after)
  | c :: rest => (tomlStringEnd? rest).map fun (body, after) => (c :: body, after)

theorem length_of_tomlStringEnd? {text : List Char} : ∀ {body after : List Char},
    tomlStringEnd? text = some (body, after) → after.length < text.length := by
  induction text using tomlStringEnd?.induct with
  | case1 => nofun
  | case2 rest =>
    intro body after h
    rw [tomlStringEnd?] at h
    cases h
    exact Nat.lt_succ_self _
  | case3 => nofun
  | case4 c rest ih =>
    intro body after h
    rw [tomlStringEnd?] at h
    obtain ⟨⟨body', after'⟩, hrest, heq⟩ := Option.map_eq_some_iff.1 h
    cases heq
    exact (ih hrest).trans (Nat.lt_succ_of_lt (Nat.lt_succ_self _))
  | case5 c rest hquote hlone hpair ih =>
    intro body after h
    rw [tomlStringEnd?] at h
    · obtain ⟨⟨body', after'⟩, hrest, heq⟩ := Option.map_eq_some_iff.1 h
      cases heq
      exact (ih hrest).trans (Nat.lt_succ_self _)
    all_goals assumption

def skipWhitespace (text : List Char) : List Char := text.dropWhile isStrWhiteSpace

theorem length_skipWhitespace (text : List Char) :
    (skipWhitespace text).length ≤ text.length := (List.dropWhile_sublist _).length_le

/-- The strings of an array, one after the other. -/
def parseTomlStrings (text : List Char) : Option (List (List Char)) :=
  match text with
  | '"' :: rest =>
    match hend : tomlStringEnd? rest with
    | none => none
    | some (body, after) =>
      match hskip : skipWhitespace after with
      | [] => some [tomlStringUnescape body]
      | ',' :: more =>
        match hmore : skipWhitespace more with
        | [] => none
        | c :: next => (parseTomlStrings (c :: next)).map (tomlStringUnescape body :: ·)
      | _ => none
  | _ => none
termination_by text.length
decreasing_by
  have h1 := length_of_tomlStringEnd? hend
  have h2 := length_skipWhitespace after
  have h3 := length_skipWhitespace more
  rw [hskip] at h2
  rw [hmore] at h3
  simp only [List.length_cons] at *
  omega

def parseTomlStringArrayBody (raw : List Char) : Option (List (List Char)) :=
  match skipWhitespace raw with
  | [] => some []
  | text => parseTomlStrings text

/-- The strings of a value in square brackets. -/
def tomlStringArray? (value : List Char) : Option (List (List Char)) :=
  match value with
  | '[' :: rest =>
    if rest.getLast? = some ']' then parseTomlStringArrayBody rest.dropLast else none
  | _ => none

/-! ## Lines -/

/-- A line without its comment. -/
def stripTomlComment : Bool → List Char → List Char
  | _, [] => []
  | true, ['\\'] => ['\\']
  | true, '\\' :: c :: rest => '\\' :: c :: stripTomlComment true rest
  | inString, c :: rest =>
    if c = '"' then c :: stripTomlComment (!inString) rest
    else if inString = false ∧ c = '#' then []
    else c :: stripTomlComment inString rest

/-- `text.split(/\r?\n/)`. -/
def splitLines (text : List Char) : List (List Char) :=
  let parts := text.splitOn '\n'
  parts.dropLast.map (fun part => if part.getLast? = some '\r' then part.dropLast else part) ++
    parts.getLast?.toList

def isTomlKeyChar (c : Char) : Bool :=
  c.isAlphanum || c = '_' || c = '.' || c = '-'

/-- The name of a section between its brackets. -/
def sectionBody? (text : List Char) : Option (List Char) :=
  let name := text.takeWhile (· ≠ ']')
  let close := text.dropWhile (· ≠ ']')
  if name ≠ [] ∧ (close = [']'] ∨ close = [']', ']']) then some name else none

/-- The section that a line opens. -/
def sectionMatch? : List Char → Option (List Char)
  | '[' :: '[' :: rest => (sectionBody? rest).or (sectionBody? ('[' :: rest))
  | '[' :: rest => sectionBody? rest
  | _ => none

/-- The key and the value that a line assigns. -/
def assignment? (line : List Char) : Option (List Char × List Char) :=
  let key := line.takeWhile isTomlKeyChar
  match skipWhitespace (line.dropWhile isTomlKeyChar) with
  | '=' :: value =>
    if key = [] ∨ value = [] then none
    else some (key, trim value)
  | _ => none

inductive TomlLine where
  | blank
  | «section» (name : List Char)
  | assignment (key value : List Char)
  | other
deriving DecidableEq, Repr

def readTomlLine (rawLine : List Char) : TomlLine :=
  let line := trim (stripTomlComment false rawLine)
  if line = [] then .blank
  else
    match sectionMatch? line with
    | some name => .section name
    | none =>
      match assignment? line with
      | some (key, value) => .assignment key value
      | none => .other

/-- The only assignment of a key in a section, from the section that stands at the start. -/
def assignmentIn (name key : List Char) :
    List TomlLine → List Char → Option (List Char) → Option (List Char)
  | [], _, found => found
  | .section current :: lines, _, found => assignmentIn name key lines current found
  | .assignment k value :: lines, current, found =>
    if current = name ∧ k = key then
      if found.isSome then none else assignmentIn name key lines current (some value)
    else assignmentIn name key lines current found
  | _ :: lines, current, found => assignmentIn name key lines current found

def tomlActiveAssignmentValue (toml name key : List Char) : Option (List Char) :=
  assignmentIn name key ((splitLines toml).map readTomlLine) [] none

def tomlActiveScalar (toml name key : List Char) : Option TomlScalar :=
  (tomlActiveAssignmentValue toml name key).bind tomlScalar?

def tomlActiveStringArray (toml name key : List Char) : Option (List (List Char)) :=
  (tomlActiveAssignmentValue toml name key).bind tomlStringArray?

/-! ## Escapes -/

/-- How one character is escaped. -/
def tomlEscapeChar (c : Char) : List Char :=
  if c = '\\' then ['\\', '\\']
  else if c = '"' then ['\\', '"']
  else if c = '\n' then ['\\', 'n']
  else if c = '\r' then ['\\', 'r']
  else [c]

theorem tomlStringEscape_eq (value : List Char) :
    tomlStringEscape value = value.flatMap tomlEscapeChar := by
  simp only [tomlStringEscape, replaceChar, List.flatMap_assoc]
  refine List.flatMap_congr fun c _ => ?_
  rw [tomlEscapeChar]
  by_cases hslash : c = '\\'
  · simp [hslash]
  · by_cases hquote : c = '"'
    · simp [hquote]
    · by_cases hfeed : c = '\n'
      · simp [hfeed]
      · by_cases hreturn : c = '\r' <;> simp [*]

/-- A character stands for itself, or for a backslash and one of four characters. -/
theorem tomlEscapeChar_cases (c : Char) :
    (tomlEscapeChar c = [c] ∧ c ≠ '\\' ∧ c ≠ '"' ∧ c ≠ '\n' ∧ c ≠ '\r') ∨
      ∃ d ∈ ['\\', '"', 'n', 'r'], tomlEscapeChar c = ['\\', d] := by
  rw [tomlEscapeChar]
  split_ifs with hslash hquote hfeed hreturn
  · exact .inr ⟨'\\', by simp, rfl⟩
  · exact .inr ⟨'"', by simp, rfl⟩
  · exact .inr ⟨'n', by simp, rfl⟩
  · exact .inr ⟨'r', by simp, rfl⟩
  · exact .inl ⟨rfl, hslash, hquote, hfeed, hreturn⟩

theorem tomlEscapeChar_injective {c d : Char} (h : tomlEscapeChar c = tomlEscapeChar d) :
    c = d := by
  simp only [tomlEscapeChar] at h
  split_ifs at h <;> simp_all

section

variable {a b r x y : Char} {text : List Char}

theorem replacePair_cons_of_ne (h : x ≠ a) :
    replacePair a b r (x :: text) = x :: replacePair a b r text := by
  cases text with
  | nil => rfl
  | cons y text => rw [replacePair, if_neg fun heq => h heq.1]

theorem replacePair_cons_of_head (h : text.head? ≠ some b) :
    replacePair a b r (x :: text) = x :: replacePair a b r text := by
  cases text with
  | nil => rfl
  | cons y text => rw [replacePair, if_neg fun heq => h (congrArg some heq.2)]

theorem replacePair_pair : replacePair a b r (a :: b :: text) = r :: replacePair a b r text := by
  rw [replacePair, if_pos ⟨rfl, rfl⟩]

/-- Undoing one kind of escape in a text of escaped characters, when no escaped backslash stands
before what would complete the pair. -/
theorem replacePair_flatMap {code code' : Char → List Char}
    (hcode : ∀ c, (∃ d ≠ a, code c = [d] ∧ code' c = [d]) ∨
      ∃ d, code c = [a, d] ∧ code' c = if d = b then [r] else [a, d])
    (value : List Char)
    (hchain : value.IsChain fun c d => code c = [a, a] → a ≠ b → (code d).head? ≠ some b) :
    replacePair a b r (value.flatMap code) = value.flatMap code' := by
  induction value with
  | nil => rfl
  | cons c value ih =>
    have hrest := ih hchain.tail
    rw [List.flatMap_cons, List.flatMap_cons, ← hrest]
    rcases hcode c with ⟨d, hd, hplain, hplain'⟩ | ⟨d, hpair, hpair'⟩
    · rw [hplain, hplain', List.singleton_append, replacePair_cons_of_ne hd, List.singleton_append]
    · rw [hpair, hpair']
      by_cases hb : d = b
      · subst hb
        rw [if_pos rfl]
        exact replacePair_pair
      · rw [if_neg hb]
        change replacePair a b r (a :: d :: value.flatMap code) = _
        rw [replacePair_cons_of_head (by simpa using hb)]
        by_cases ha : d = a
        · subst ha
          refine congrArg (_ :: ·) (replacePair_cons_of_head ?_)
          cases value with
          | nil => simp
          | cons e value =>
            have hnext := hchain.rel hpair hb
            rw [List.flatMap_cons]
            rcases hcode e with ⟨f, -, he, -⟩ | ⟨f, he, -⟩ <;> rw [he] at hnext ⊢ <;>
              simpa using hnext
        · exact congrArg (_ :: ·) (replacePair_cons_of_ne ha)

end

/-- No backslash stands directly before an `n` or an `r`. -/
def Kept (value : List Char) : Prop := value.IsChain fun c d => c = '\\' → d ≠ 'n' ∧ d ≠ 'r'

instance (value : List Char) : Decidable (Kept value) :=
  inferInstanceAs (Decidable (value.IsChain _))

/-- The escapes that are left when those of some characters were undone. -/
def tomlEscapeRest (undone : List Char) (c : Char) : List Char :=
  if c ∈ undone then [c] else tomlEscapeChar c

/-- Undoing the escape of one more character. -/
theorem replacePair_escapeRest {undone : List Char} {b r : Char} {value : List Char}
    (hslash : '\\' ∉ undone) (hescape : tomlEscapeChar r = ['\\', b])
    (hchain : value.IsChain fun c d => c = '\\' → '\\' ≠ b →
      (tomlEscapeRest undone d).head? ≠ some b) :
    replacePair '\\' b r (value.flatMap (tomlEscapeRest undone)) =
      value.flatMap (tomlEscapeRest (r :: undone)) := by
  refine replacePair_flatMap (fun c => ?_) value (hchain.imp fun c d h hpair => h ?_)
  · by_cases hdone : c ∈ undone
    · have hne : c ≠ '\\' := fun heq => hslash (heq ▸ hdone)
      exact .inl ⟨c, hne, by simp [tomlEscapeRest, hdone], by simp [tomlEscapeRest, hdone]⟩
    · by_cases hr : c = r
      · subst hr
        refine .inr ⟨b, by simp [tomlEscapeRest, hdone, hescape], ?_⟩
        rw [if_pos rfl, tomlEscapeRest, if_pos List.mem_cons_self]
      · have hcode : tomlEscapeRest (r :: undone) c = tomlEscapeRest undone c := by
          simp [tomlEscapeRest, hr]
        rw [hcode, tomlEscapeRest, if_neg hdone]
        rcases tomlEscapeChar_cases c with ⟨hplain, hne, -⟩ | ⟨d, -, hpair⟩
        · exact .inl ⟨c, hne, hplain, hplain⟩
        · refine .inr ⟨d, hpair, ?_⟩
          rw [if_neg fun hdb => hr (tomlEscapeChar_injective ?_), hpair]
          rw [hpair, hescape, hdb]
  · by_cases hdone : c ∈ undone
    · simp [tomlEscapeRest, hdone] at hpair
    · rw [tomlEscapeRest, if_neg hdone] at hpair
      exact tomlEscapeChar_injective hpair

theorem tomlStringEscape_eq_rest (value : List Char) :
    tomlStringEscape value = value.flatMap (tomlEscapeRest []) := by
  rw [tomlStringEscape_eq]
  exact List.flatMap_congr fun c _ => by simp [tomlEscapeRest]

theorem head_tomlEscapeRest {undone : List Char} {c b : Char}
    (h : (tomlEscapeRest undone c).head? = some b) : b = c ∨ b = '\\' := by
  rw [tomlEscapeRest] at h
  split_ifs at h
  · exact .inl (Option.some.inj h).symm
  · rcases tomlEscapeChar_cases c with ⟨hplain, -⟩ | ⟨d, -, hpair⟩
    · rw [hplain] at h
      exact .inl (Option.some.inj h).symm
    · rw [hpair] at h
      exact .inr (Option.some.inj h).symm

/-- The first pass undoes the carriage returns, where no other pair looks like one. -/
theorem replacePair_return {value : List Char}
    (h : value.IsChain fun c d => c = '\\' → d ≠ 'r') :
    replacePair '\\' 'r' '\r' (value.flatMap (tomlEscapeRest [])) =
      value.flatMap (tomlEscapeRest ['\r']) := by
  refine replacePair_escapeRest (by simp) (by decide) (h.imp fun c d hkept hc _ hd => ?_)
  rcases head_tomlEscapeRest hd with heq | heq
  · exact hkept hc heq.symm
  · exact absurd heq (by decide)

/-- A kept value is read as it was written. -/
theorem tomlStringUnescape_escape {value : List Char} (h : Kept value) :
    tomlStringUnescape (tomlStringEscape value) = value := by
  have hend : value.flatMap (tomlEscapeRest ['\\', '"', '\n', '\r']) = value := by
    have hplain : ∀ c, tomlEscapeRest ['\\', '"', '\n', '\r'] c = [c] := by
      intro c
      rw [tomlEscapeRest]
      split_ifs with hdone
      · rfl
      · simp only [List.mem_cons, List.not_mem_nil, or_false, not_or] at hdone
        simp [tomlEscapeChar, hdone]
    rw [List.flatMap_congr fun c _ => hplain c]
    exact List.flatMap_singleton' value
  have hreturn := replacePair_return (h.imp fun c d hkept hc => (hkept hc).2)
  have hfeed : replacePair '\\' 'n' '\n' (value.flatMap (tomlEscapeRest ['\r'])) =
      value.flatMap (tomlEscapeRest ['\n', '\r']) := by
    refine replacePair_escapeRest (by simp) (by decide) (h.imp fun c d hkept hc _ hd => ?_)
    rcases head_tomlEscapeRest hd with heq | heq
    · exact (hkept hc).1 heq.symm
    · exact absurd heq (by decide)
  have hquote : replacePair '\\' '"' '"' (value.flatMap (tomlEscapeRest ['\n', '\r'])) =
      value.flatMap (tomlEscapeRest ['"', '\n', '\r']) := by
    refine replacePair_escapeRest (by simp) (by decide) (h.imp fun c d _ hc _ hd => ?_)
    rcases head_tomlEscapeRest hd with heq | heq
    · rw [← heq] at hd
      exact absurd hd (by decide)
    · exact absurd heq (by decide)
  have hslash : replacePair '\\' '\\' '\\' (value.flatMap (tomlEscapeRest ['"', '\n', '\r'])) =
      value.flatMap (tomlEscapeRest ['\\', '"', '\n', '\r']) :=
    replacePair_escapeRest (by simp) (by decide) (h.imp fun _ _ _ _ hne => absurd rfl hne)
  rw [tomlStringUnescape, tomlStringEscape_eq_rest, hreturn, hfeed, hquote, hslash, hend]

/-! ## What is lost -/

/-- How often a backslash stands directly before a character. -/
def slashesBefore (b : Char) : List Char → ℕ
  | c :: d :: value =>
    (if c = '\\' ∧ d = b then 1 else 0) + slashesBefore b (d :: value)
  | _ => 0

theorem isChain_of_slashesBefore {b : Char} {value : List Char} (h : slashesBefore b value = 0) :
    value.IsChain fun c d => c = '\\' → d ≠ b := by
  induction value with
  | nil => exact List.IsChain.nil
  | cons c value ih =>
    cases value with
    | nil => exact List.IsChain.singleton c
    | cons d value =>
      rw [slashesBefore, Nat.add_eq_zero_iff] at h
      refine List.isChain_cons_cons.2 ⟨fun hc hd => ?_, ih h.2⟩
      simp [hc, hd] at h

/-- Other characters are not touched. -/
theorem count_replacePair {a b r c : Char} (ha : c ≠ a) (hb : c ≠ b) (hr : c ≠ r)
    (text : List Char) : (replacePair a b r text).count c = text.count c := by
  induction text using replacePair.induct a b with
  | case1 x y rest hpair ih =>
    rw [replacePair, if_pos hpair, hpair.1, hpair.2, List.count_cons_of_ne hr.symm,
      List.count_cons_of_ne ha.symm, List.count_cons_of_ne hb.symm, ih]
  | case2 x y rest hpair ih =>
    rw [replacePair, if_neg hpair, List.count_cons, List.count_cons, ih]
  | case3 text hnot =>
    rw [replacePair]
    exact hnot

/-- Undoing an escape brings back what was escaped, and each pair of characters that looks like
it. -/
theorem count_replacePair_escapeRest {undone : List Char} {b r : Char}
    (hslash : '\\' ∉ undone) (hundone : r ∉ undone) (hescape : tomlEscapeChar r = ['\\', b])
    (hplain : tomlEscapeChar b = [b]) (hne : ∀ d ∈ ['\\', '"', 'n', 'r'], d ≠ r)
    (value : List Char) :
    (replacePair '\\' b r (value.flatMap (tomlEscapeRest undone))).count r =
      value.count r + slashesBefore b value := by
  have hslashRest : tomlEscapeRest undone '\\' = ['\\', '\\'] := by
    rw [tomlEscapeRest, if_neg hslash]
    rfl
  have hb : b ≠ '\\' := by
    rintro rfl
    exact absurd hplain (by decide)
  have hr : r ≠ '\\' := (hne '\\' (by simp)).symm
  have hbRest : tomlEscapeRest undone b = [b] := by
    rw [tomlEscapeRest, hplain, ite_self]
  have hbr : b ≠ r := by
    rintro rfl
    rw [hplain] at hescape
    cases hescape
  induction value with
  | nil => rfl
  | cons c value ih =>
    rw [List.flatMap_cons]
    by_cases hc : c = '\\'
    · subst hc
      have hfirst : replacePair '\\' b r (['\\', '\\'] ++ value.flatMap (tomlEscapeRest undone)) =
          '\\' :: replacePair '\\' b r ('\\' :: value.flatMap (tomlEscapeRest undone)) :=
        replacePair_cons_of_head (by simpa using hb.symm)
      rw [hslashRest, hfirst, List.count_cons_of_ne hr.symm, List.count_cons_of_ne hr.symm]
      cases value with
      | nil => simp [replacePair, slashesBefore, hr.symm]
      | cons d value =>
        rw [List.flatMap_cons] at ih ⊢
        by_cases hd : d = b
        · subst hd
          rw [hbRest, List.singleton_append, replacePair_cons_of_ne hb,
            List.count_cons_of_ne hbr] at ih
          rw [hbRest, List.singleton_append, replacePair_pair, List.count_cons_self, ih,
            slashesBefore, if_pos ⟨rfl, rfl⟩]
          omega
        · have hhead : (tomlEscapeRest undone d ++ value.flatMap (tomlEscapeRest undone)).head? ≠
              some b := by
            rw [tomlEscapeRest]
            split_ifs
            · simpa using hd
            · rcases tomlEscapeChar_cases d with ⟨hone, -⟩ | ⟨e, -, hpair⟩
              · simpa [hone] using hd
              · simpa [hpair] using hb.symm
          rw [replacePair_cons_of_head hhead, List.count_cons_of_ne hr.symm, ih, slashesBefore,
            if_neg fun heq => hd heq.2]
          omega
    · have hafter : slashesBefore b (c :: value) = slashesBefore b value := by
        cases value with
        | nil => rfl
        | cons d value => rw [slashesBefore, if_neg fun heq => hc heq.1, Nat.zero_add]
      rw [hafter]
      by_cases hcr : c = r
      · subst hcr
        have hpair : tomlEscapeRest undone c = ['\\', b] := by
          rw [tomlEscapeRest, if_neg hundone, hescape]
        rw [hpair]
        change (replacePair '\\' b c
          ('\\' :: b :: value.flatMap (tomlEscapeRest undone))).count c = _
        rw [replacePair_pair, List.count_cons_self, List.count_cons_self, ih]
        omega
      · rw [List.count_cons_of_ne hcr, ← ih, tomlEscapeRest]
        split_ifs with hdone
        · rw [List.singleton_append, replacePair_cons_of_ne hc, List.count_cons_of_ne hcr]
        · rcases tomlEscapeChar_cases c with ⟨hone, -⟩ | ⟨d, hd, hpair⟩
          · rw [hone, List.singleton_append, replacePair_cons_of_ne hc, List.count_cons_of_ne hcr]
          · have hdb : d ≠ b := by
              rintro rfl
              exact hcr (tomlEscapeChar_injective (hpair.trans hescape.symm))
            have hdslash : d ≠ '\\' := by
              rintro rfl
              have hself : tomlEscapeChar '\\' = ['\\', '\\'] := rfl
              exact hc (tomlEscapeChar_injective (hpair.trans hself.symm))
            have hfirst : replacePair '\\' b r (['\\', d] ++
                value.flatMap (tomlEscapeRest undone)) = '\\' :: replacePair '\\' b r
                  (d :: value.flatMap (tomlEscapeRest undone)) :=
              replacePair_cons_of_head (by simpa using hdb)
            rw [hpair, hfirst, replacePair_cons_of_ne hdslash, List.count_cons_of_ne hr.symm,
              List.count_cons_of_ne (hne d hd)]

theorem kept_of_chains {value : List Char} (hn : value.IsChain fun c d => c = '\\' → d ≠ 'n')
    (hr : value.IsChain fun c d => c = '\\' → d ≠ 'r') : Kept value := by
  induction value with
  | nil => exact List.IsChain.nil
  | cons c value ih =>
    cases value with
    | nil => exact List.IsChain.singleton c
    | cons d value =>
      obtain ⟨hcn, hn⟩ := List.isChain_cons_cons.1 hn
      obtain ⟨hcr, hr⟩ := List.isChain_cons_cons.1 hr
      exact List.isChain_cons_cons.2 ⟨fun hc => ⟨hcn hc, hcr hc⟩, ih hn hr⟩

/-- What is read as it was written has no backslash directly before an `n` or an `r`: each would
come back as a line break too many. -/
theorem kept_of_unescape_escape {value : List Char}
    (h : tomlStringUnescape (tomlStringEscape value) = value) : Kept value := by
  rw [tomlStringUnescape, tomlStringEscape_eq_rest] at h
  have hreturns := congrArg (List.count '\r') h
  rw [count_replacePair (by decide) (by decide) (by decide),
    count_replacePair (by decide) (by decide) (by decide),
    count_replacePair (by decide) (by decide) (by decide),
    count_replacePair_escapeRest (by simp) (by simp) rfl rfl (forall_mem_of_all (by decide))] at hreturns
  have hr := isChain_of_slashesBefore (Nat.add_eq_left.1 hreturns)
  rw [replacePair_return hr] at h
  have hfeeds := congrArg (List.count '\n') h
  rw [count_replacePair (by decide) (by decide) (by decide),
    count_replacePair (by decide) (by decide) (by decide),
    count_replacePair_escapeRest (by simp) (by simp) rfl rfl (forall_mem_of_all (by decide))] at hfeeds
  have hn := isChain_of_slashesBefore (Nat.add_eq_left.1 hfeeds)
  exact kept_of_chains hn hr

/-- A string, as it comes back from the file. -/
def reread (value : List Char) : List Char := tomlStringUnescape (tomlStringEscape value)

/-- A string survives the file exactly where it is kept. -/
theorem reread_eq_self {value : List Char} : reread value = value ↔ Kept value :=
  ⟨kept_of_unescape_escape, tomlStringUnescape_escape⟩

theorem map_reread_eq_self {values : List (List Char)} :
    values.map reread = values ↔ ∀ value ∈ values, Kept value := by
  induction values with
  | nil => simp
  | cons value values ih =>
    rw [List.map_cons, List.cons.injEq, reread_eq_self, ih, List.forall_mem_cons]

/-! ## What is written is read -/

/-- A text of escaped characters is gone through one by one. -/
theorem tomlStringEscape_cons (c : Char) (value : List Char) :
    tomlStringEscape (c :: value) = tomlEscapeChar c ++ tomlStringEscape value := by
  rw [tomlStringEscape_eq, tomlStringEscape_eq, List.flatMap_cons]

theorem tomlStringBody?_escape (value : List Char) :
    tomlStringBody? (tomlStringEscape value ++ ['"']) = some (tomlStringEscape value) := by
  induction value with
  | nil => rfl
  | cons c value ih =>
    rw [tomlStringEscape_cons]
    rcases tomlEscapeChar_cases c with ⟨hplain, hslash, hquote, -⟩ | ⟨d, hd, hpair⟩
    · rw [hplain, List.singleton_append, List.cons_append, tomlStringBody?, ih, Option.map_some] <;>
        simp_all
    · have hdot : ∀ d ∈ ['\\', '"', 'n', 'r'], isLineTerminator d = false :=
        forall_mem_of_all (by decide)
      simp only [hpair, List.cons_append, List.nil_append]
      rw [tomlStringBody?, if_neg (by simp [hdot d hd]), ih, Option.map_some]

theorem tomlStringEnd?_escape (value rest : List Char) :
    tomlStringEnd? (tomlStringEscape value ++ '"' :: rest) =
      some (tomlStringEscape value, rest) := by
  induction value with
  | nil => rfl
  | cons c value ih =>
    rw [tomlStringEscape_cons]
    rcases tomlEscapeChar_cases c with ⟨hplain, hslash, hquote, -⟩ | ⟨d, hd, hpair⟩
    · rw [hplain, List.singleton_append, List.cons_append, tomlStringEnd?, ih, Option.map_some] <;>
        simp_all
    · simp only [hpair, List.cons_append, List.nil_append]
      rw [tomlStringEnd?, ih, Option.map_some]

/-- A comment does not start within a string. -/
theorem stripTomlComment_escape (value rest : List Char) :
    stripTomlComment true (tomlStringEscape value ++ '"' :: rest) =
      tomlStringEscape value ++ '"' :: stripTomlComment false rest := by
  induction value with
  | nil =>
    change stripTomlComment true ('"' :: rest) = _
    rw [stripTomlComment] <;> simp [tomlStringEscape_eq]
  | cons c value ih =>
    rw [tomlStringEscape_cons]
    rcases tomlEscapeChar_cases c with ⟨hplain, hslash, hquote, -⟩ | ⟨d, hd, hpair⟩
    · rw [hplain, List.singleton_append, List.cons_append, stripTomlComment, if_neg hquote,
        if_neg (by simp), ih] <;> simp_all
    · simp only [hpair, List.cons_append, List.nil_append]
      rw [stripTomlComment, ih]

theorem tomlString_eq (value : List Char) :
    tomlString value = '"' :: (tomlStringEscape value ++ ['"']) := rfl

theorem stripTomlComment_string (value rest : List Char) :
    stripTomlComment false (tomlString value ++ rest) =
      tomlString value ++ stripTomlComment false rest := by
  have htext : ∀ rest, tomlString value ++ rest =
      '"' :: (tomlStringEscape value ++ '"' :: rest) := by
    simp [tomlString_eq]
  rw [htext, htext, stripTomlComment, if_pos rfl, Bool.not_false, stripTomlComment_escape]
  all_goals simp

/-- What has neither a quote nor a number sign is no comment. -/
theorem stripTomlComment_plain {text : List Char} (h : ∀ c ∈ text, c ≠ '"' ∧ c ≠ '#')
    (rest : List Char) :
    stripTomlComment false (text ++ rest) = text ++ stripTomlComment false rest := by
  induction text with
  | nil => rfl
  | cons c text ih =>
    obtain ⟨hquote, hsign⟩ := h c List.mem_cons_self
    rw [List.cons_append, stripTomlComment, if_neg hquote, if_neg (by simp [hsign]),
      ih fun d hd => h d (List.mem_cons_of_mem c hd), List.cons_append]
    all_goals simp

theorem tomlScalar?_string (value : List Char) :
    tomlScalar? (tomlString value) = some (.text (reread value)) := by
  rw [tomlString_eq, tomlScalar?, if_neg (by simp), if_neg (by simp)]
  simp only [tomlStringBody?_escape, Option.map_some, reread]

theorem tomlArray_nil : tomlStringArray? (tomlArray []) = some [] := by
  rfl

@[simp] theorem tomlStrings_nil : tomlStrings [] = [] := rfl

@[simp] theorem tomlStrings_singleton (value : List Char) :
    tomlStrings [value] = tomlString value := by
  simp [tomlStrings, List.intercalate]

theorem tomlStrings_cons_cons (value next : List Char) (values : List (List Char)) :
    tomlStrings (value :: next :: values) =
      tomlString value ++ ([',', ' '] ++ tomlStrings (next :: values)) := by
  simp [tomlStrings, List.intercalate]

theorem tomlStrings_eq_cons (value : List Char) (values : List (List Char)) :
    ∃ more, tomlStrings (value :: values) = '"' :: more := by
  cases values with
  | nil => exact ⟨_, tomlStrings_singleton value⟩
  | cons next values => exact ⟨_, tomlStrings_cons_cons value next values⟩

theorem parseTomlStrings_string (value rest : List Char) :
    parseTomlStrings (tomlString value ++ rest) =
      match skipWhitespace rest with
      | [] => some [reread value]
      | ',' :: more =>
        match skipWhitespace more with
        | [] => none
        | c :: next => (parseTomlStrings (c :: next)).map (reread value :: ·)
      | _ => none := by
  have htext : tomlString value ++ rest = '"' :: (tomlStringEscape value ++ '"' :: rest) := by
    simp [tomlString_eq]
  rw [htext, parseTomlStrings]
  split
  · next hend => exact nomatch (tomlStringEnd?_escape value rest).symm.trans hend
  · next body after hend =>
    obtain ⟨rfl, rfl⟩ := Prod.mk.inj
      (Option.some.inj ((tomlStringEnd?_escape value rest).symm.trans hend))
    have hreread : tomlStringUnescape (tomlStringEscape value) = reread value := rfl
    rw [hreread]
    split
    · next hskip => simp only [hskip]
    · next more hskip =>
      simp only [hskip]
      split
      · next hmore => simp only [hmore]
      · next hmore => simp only [hmore]
    · next hskip hcomma =>
      split
      · next heq => exact absurd heq hskip
      · next more heq => exact absurd heq (hcomma more)
      · rfl

theorem parseTomlStrings_strings (value : List Char) (values : List (List Char)) :
    parseTomlStrings (tomlStrings (value :: values)) = some ((value :: values).map reread) := by
  induction values generalizing value with
  | nil =>
    rw [tomlStrings_singleton, ← List.append_nil (tomlString value), parseTomlStrings_string]
    rfl
  | cons next values ih =>
    have hrest := ih next
    obtain ⟨more, hmore⟩ := tomlStrings_eq_cons next values
    rw [tomlStrings_cons_cons, parseTomlStrings_string]
    rw [hmore] at hrest ⊢
    change (parseTomlStrings ('"' :: more)).map (reread value :: ·) = _
    rw [hrest]
    rfl

/-- Each string of an array is read for itself. -/
theorem tomlStringArray?_array (values : List (List Char)) :
    tomlStringArray? (tomlArray values) = some (values.map reread) := by
  have hbody : tomlStringArray? (tomlArray values) =
      parseTomlStringArrayBody (tomlStrings values) := by
    change tomlStringArray? ('[' :: (tomlStrings values ++ [']'])) = _
    rw [tomlStringArray?, if_pos (by simp), List.dropLast_concat]
  rw [hbody]
  cases values with
  | nil => rfl
  | cons value values =>
    have hparse := parseTomlStrings_strings value values
    obtain ⟨more, hmore⟩ := tomlStrings_eq_cons value values
    rw [hmore] at hparse ⊢
    exact hparse

/-! ## Lines that are read -/

theorem stripTomlComment_array (values : List (List Char)) :
    stripTomlComment false (tomlArray values) = tomlArray values := by
  have hstrings : stripTomlComment false (tomlStrings values ++ [']']) =
      tomlStrings values ++ [']'] := by
    induction values with
    | nil => rfl
    | cons value values ih =>
      cases values with
      | nil =>
        rw [tomlStrings_singleton, stripTomlComment_string]
        rfl
      | cons next values =>
        rw [tomlStrings_cons_cons, List.append_assoc, List.append_assoc, stripTomlComment_string,
          stripTomlComment_plain (forall_mem_of_all (by decide)), ih]
  have hopen : tomlArray values = ['['] ++ (tomlStrings values ++ [']']) := rfl
  rw [hopen, stripTomlComment_plain (forall_mem_of_all (by decide)), hstrings]

/-- A value that is written behind a key: it has no comment and no white space at its ends. -/
structure TomlValue (value : List Char) : Prop where
  strip : stripTomlComment false value = value
  ne_nil : value ≠ []
  head : ∀ c ∈ value.head?, isStrWhiteSpace c = false
  last : ∀ c ∈ value.getLast?, isStrWhiteSpace c = false

theorem tomlValue_string (value : List Char) : TomlValue (tomlString value) where
  strip := by simpa [stripTomlComment] using stripTomlComment_string value []
  ne_nil := List.cons_ne_nil _ _
  head := by
    intro c hc
    obtain rfl := Option.some.inj hc
    decide
  last := by
    intro c hc
    rw [tomlString, List.getLast?_concat] at hc
    obtain rfl := Option.some.inj hc
    decide

theorem tomlValue_array (values : List (List Char)) : TomlValue (tomlArray values) where
  strip := stripTomlComment_array values
  ne_nil := List.cons_ne_nil _ _
  head := by
    intro c hc
    obtain rfl := Option.some.inj hc
    decide
  last := by
    intro c hc
    rw [tomlArray, List.getLast?_concat] at hc
    obtain rfl := Option.some.inj hc
    decide

theorem isTomlKeyChar_spec {c : Char} (h : isTomlKeyChar c = true) :
    c ≠ '"' ∧ c ≠ '#' ∧ c ≠ '[' ∧ isStrWhiteSpace c = false := by
  have hrange : 45 ≤ c.toNat ∧ c.toNat ≤ 122 ∧ c.toNat ≠ 91 := by
    simp only [isTomlKeyChar, Bool.or_eq_true, decide_eq_true_eq] at h
    rcases h with ((halphanum | rfl) | rfl) | rfl
    · obtain ⟨hlow, hhigh, hbracket⟩ := isAlphanum_range halphanum
      exact ⟨Nat.le_trans (by decide) hlow, hhigh, hbracket⟩
    all_goals decide
  refine ⟨?_, ?_, ?_, ?_⟩
  · rintro rfl
    exact absurd hrange (by decide)
  · rintro rfl
    exact absurd hrange (by decide)
  · rintro rfl
    exact absurd hrange (by decide)
  · simp only [isStrWhiteSpace, List.mem_cons, List.not_mem_nil, or_false, Bool.or_eq_false_iff,
      decide_eq_false_iff_not, Bool.and_eq_false_iff]
    omega

/-- An assignment, as it is written. -/
def assignmentLine (key value : List Char) : List Char := key ++ ' ' :: '=' :: ' ' :: value

theorem readTomlLine_assignment {key value : List Char} (hne : key ≠ [])
    (hkey : ∀ c ∈ key, isTomlKeyChar c = true) (hvalue : TomlValue value) :
    readTomlLine (assignmentLine key value) = .assignment key value := by
  obtain ⟨c, rest, rfl⟩ := List.exists_cons_of_ne_nil hne
  have hc := isTomlKeyChar_spec (hkey c List.mem_cons_self)
  have hstrip : stripTomlComment false (assignmentLine (c :: rest) value) =
      assignmentLine (c :: rest) value := by
    rw [assignmentLine, stripTomlComment_plain fun d hd =>
      ⟨(isTomlKeyChar_spec (hkey d hd)).1, (isTomlKeyChar_spec (hkey d hd)).2.1⟩]
    change _ ++ stripTomlComment false ([' ', '=', ' '] ++ value) = _
    rw [stripTomlComment_plain (forall_mem_of_all (by decide)), hvalue.strip]
    rfl
  have htrim : trim (assignmentLine (c :: rest) value) = assignmentLine (c :: rest) value := by
    refine trim_eq_self ?_ fun d hd => hvalue.last d ?_
    · intro d hd
      obtain rfl := Option.some.inj hd
      exact hc.2.2.2
    · have hline : assignmentLine (c :: rest) value = c :: rest ++ [' ', '=', ' '] ++ value := by
        simp [assignmentLine]
      rwa [hline, List.getLast?_append_of_ne_nil _ hvalue.ne_nil] at hd
  have hassign : assignment? (assignmentLine (c :: rest) value) = some (c :: rest, value) := by
    have htake : (assignmentLine (c :: rest) value).takeWhile isTomlKeyChar = c :: rest := by
      rw [assignmentLine, List.takeWhile_append_of_pos hkey]
      exact List.append_nil _
    have hdrop : (assignmentLine (c :: rest) value).dropWhile isTomlKeyChar =
        ' ' :: '=' :: ' ' :: value := by
      rw [assignmentLine, List.dropWhile_append_of_pos hkey]
      rfl
    have hskip : skipWhitespace (' ' :: '=' :: ' ' :: value) = '=' :: ' ' :: value := rfl
    have hvalueTrim : trim (' ' :: value) = value := by
      change trim value = value
      exact trim_eq_self hvalue.head hvalue.last
    simp only [assignment?, htake, hdrop, hskip, hvalueTrim]
    rw [if_neg (by simp)]
  have hsection : sectionMatch? (assignmentLine (c :: rest) value) = none := by
    rw [assignmentLine, List.cons_append, sectionMatch?]
    · exact fun _ hbracket => hc.2.2.1 (List.cons.inj hbracket).1
    · exact fun _ hbracket => hc.2.2.1 (List.cons.inj hbracket).1
  have hline : assignmentLine (c :: rest) value ≠ [] := List.cons_ne_nil _ _
  rw [readTomlLine, hstrip, htrim]
  simp only [if_neg hline, hsection, hassign]

/-! ## Texts of lines -/

/-- A line that no line break cuts. -/
def OneLine (line : List Char) : Prop := '\n' ∉ line ∧ '\r' ∉ line

instance (line : List Char) : Decidable (OneLine line) := inferInstanceAs (Decidable (_ ∧ _))

theorem OneLine.append {line rest : List Char} (h : OneLine line) (hrest : OneLine rest) :
    OneLine (line ++ rest) := by
  simp only [OneLine, List.mem_append, not_or]
  exact ⟨⟨h.1, hrest.1⟩, h.2, hrest.2⟩

theorem oneLine_flatMap {code : Char → List Char} (h : ∀ c, OneLine (code c)) (text : List Char) :
    OneLine (text.flatMap code) := by
  simp only [OneLine, List.mem_flatMap, not_exists, not_and]
  exact ⟨fun c _ => (h c).1, fun c _ => (h c).2⟩

theorem oneLine_string (value : List Char) : OneLine (tomlString value) := by
  have hquote : OneLine ['"'] := by decide
  have hcode : ∀ c, OneLine (tomlEscapeChar c) := by
    intro c
    rcases tomlEscapeChar_cases c with ⟨hplain, -, -, hfeed, hreturn⟩ | ⟨d, hd, hpair⟩
    · rw [hplain]
      simp [OneLine, hfeed.symm, hreturn.symm]
    · have hpairs : ∀ d ∈ ['\\', '"', 'n', 'r'], OneLine ['\\', d] :=
        forall_mem_of_all (by decide)
      rw [hpair]
      exact hpairs d hd
  have htext : tomlString value = ['"'] ++ (value.flatMap tomlEscapeChar ++ ['"']) := by
    rw [tomlString_eq, tomlStringEscape_eq]
    rfl
  rw [htext]
  exact hquote.append ((oneLine_flatMap hcode value).append hquote)

theorem oneLine_array (values : List (List Char)) : OneLine (tomlArray values) := by
  have hstrings : OneLine (tomlStrings values) := by
    induction values with
    | nil => decide
    | cons value values ih =>
      cases values with
      | nil =>
        rw [tomlStrings_singleton]
        exact oneLine_string value
      | cons next values =>
        have hcomma : OneLine [',', ' '] := by decide
        rw [tomlStrings_cons_cons]
        exact (oneLine_string value).append (hcomma.append ih)
  have hopen : OneLine ['['] := by decide
  have hclose : OneLine [']'] := by decide
  exact hopen.append (hstrings.append hclose)

/-- Lines are read back from the text that they are joined to. -/
theorem splitLines_lines {lines : List (List Char)} (h : ∀ line ∈ lines, OneLine line) :
    splitLines (lines.flatMap (· ++ ['\n'])) = lines ++ [[]] := by
  have hsplit : (lines.flatMap (· ++ ['\n'])).splitOn '\n' = lines ++ [[]] := by
    induction lines with
    | nil => rfl
    | cons line lines ih =>
      have hrest := ih fun l hl => h l (List.mem_cons_of_mem line hl)
      rw [List.flatMap_cons, List.append_assoc,
        Splitting.splitOn_append_of_not_mem (h line List.mem_cons_self).1, List.singleton_append,
        List.splitOn_cons_eq_if_modifyHead, if_pos (by simp), hrest]
      simp
  rw [splitLines, hsplit]
  simp only [List.dropLast_concat, List.getLast?_concat, Option.toList_some]
  have hsame : ∀ line ∈ lines,
      (if line.getLast? = some '\r' then line.dropLast else line) = id line := by
    intro line hline
    rw [if_neg fun hlast => (h line hline).2 (List.mem_of_getLast? hlast), id]
  rw [List.map_congr_left hsame, List.map_id]

/-! ## Sections -/

/-- All the values that a section gives to a key. -/
def valuesIn (name key : List Char) : List TomlLine → List Char → List (List Char)
  | [], _ => []
  | .section next :: lines, _ => valuesIn name key lines next
  | .assignment k value :: lines, current =>
    if current = name ∧ k = key then value :: valuesIn name key lines current
    else valuesIn name key lines current
  | _ :: lines, current => valuesIn name key lines current

section

variable {name key current value : List Char} {lines : List TomlLine}

/-- A key is read where it has one value. -/
theorem assignmentIn_eq (found : Option (List Char)) :
    assignmentIn name key lines current found =
      match found.toList ++ valuesIn name key lines current with
      | [value] => some value
      | _ => none := by
  induction lines generalizing current found with
  | nil => cases found <;> rfl
  | cons line lines ih =>
    cases line with
    | blank => exact ih found
    | other => exact ih found
    | «section» next => exact ih found
    | assignment k v =>
      rw [assignmentIn, valuesIn]
      by_cases hkey : current = name ∧ k = key
      · rw [if_pos hkey, if_pos hkey]
        cases found with
        | none => simpa using ih (some v)
        | some value => simp
      · rw [if_neg hkey, if_neg hkey]
        exact ih found

@[simp] theorem valuesIn_nil : valuesIn name key [] current = [] := rfl

@[simp] theorem valuesIn_blank :
    valuesIn name key (.blank :: lines) current = valuesIn name key lines current := rfl

@[simp] theorem valuesIn_other :
    valuesIn name key (.other :: lines) current = valuesIn name key lines current := rfl

@[simp] theorem valuesIn_section {next : List Char} :
    valuesIn name key (.section next :: lines) current = valuesIn name key lines next := rfl

theorem valuesIn_assignment {k : List Char} :
    valuesIn name key (.assignment k value :: lines) current =
      if current = name ∧ k = key then value :: valuesIn name key lines current
      else valuesIn name key lines current := rfl

theorem valuesIn_assignment_of_ne {k : List Char} (h : k ≠ key) :
    valuesIn name key (.assignment k value :: lines) current = valuesIn name key lines current := by
  rw [valuesIn_assignment, if_neg fun heq => h heq.2]

/-- What follows a line may be replaced by lines that are read alike in every section. -/
theorem valuesIn_cons_congr {line : TomlLine} {lines' : List TomlLine}
    (h : ∀ current, valuesIn name key lines current = valuesIn name key lines' current) :
    valuesIn name key (line :: lines) current = valuesIn name key (line :: lines') current := by
  cases line with
  | blank => exact h current
  | other => exact h current
  | «section» next => exact h next
  | assignment k v => rw [valuesIn_assignment, valuesIn_assignment, h]

/-- What another section assigns is not read. -/
theorem valuesIn_append_of_ne {block : List TomlLine} (hne : current ≠ name)
    (hblock : ∀ line ∈ block, ∃ k v, line = .assignment k v) :
    valuesIn name key (block ++ lines) current = valuesIn name key lines current := by
  induction block with
  | nil => rfl
  | cons line block ih =>
    obtain ⟨k, v, rfl⟩ := hblock line List.mem_cons_self
    rw [List.cons_append, valuesIn_assignment, if_neg fun heq => hne heq.1]
    exact ih fun l hl => hblock l (List.mem_cons_of_mem _ hl)

end

end Orchestration.Permissions
