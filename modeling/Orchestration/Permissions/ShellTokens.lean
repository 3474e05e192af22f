import Orchestration.Js.Number

/-!
# The words of a shell command

The block list splits a command into words, and quotes words to build the commands that
it looks into. Splitting undoes quoting, whatever the words hold.
-/

namespace Orchestration.Permissions

open Js (isStrWhiteSpace)

/-- A string of the block list, in UTF-16 code units. -/
abbrev Command := List UInt16

/-- The code unit of a character of the basic plane. -/
def unit (c : Char) : UInt16 := c.val.toUInt16

def QUOTE : UInt16 := unit '\''
def DOUBLE_QUOTE : UInt16 := unit '"'
def BACKSLASH : UInt16 := unit '\\'
def DOLLAR : UInt16 := unit '$'
def SPACE : UInt16 := unit ' '

/-- `/\s/u` on one code unit. -/
def isSpace (u : UInt16) : Bool := isStrWhiteSpace (Char.ofNat u.toNat)

def between (first last : Char) (u : UInt16) : Bool := unit first ≤ u && u ≤ unit last

def isOctalDigit (u : UInt16) : Bool := between '0' '7' u

def isHexDigit (u : UInt16) : Bool := between '0' '9' u || between 'a' 'f' u || between 'A' 'F' u

/-- The value of a digit in base 16. -/
def digitValue (u : UInt16) : ℕ :=
  if between '0' '9' u then u.toNat - '0'.toNat
  else if between 'a' 'f' u then u.toNat - 'a'.toNat + 10
  else u.toNat - 'A'.toNat + 10

def parseDigits (base : ℕ) (digits : Command) : ℕ :=
  digits.foldl (fun value digit => base * value + digitValue digit) 0

/-- `String.fromCodePoint`, which throws above the last code point. -/
def fromCodePoint (value : ℕ) : Option Command :=
  if value < 0x10000 then some [UInt16.ofNat value]
  else if value ≤ 0x10FFFF then
    some [UInt16.ofNat (0xD800 + (value - 0x10000) / 0x400),
      UInt16.ofNat (0xDC00 + (value - 0x10000) % 0x400)]
  else none

/-! ## Splitting -/

def simpleEscapes : List (UInt16 × UInt16) := [
  (unit 'a', 0x07), (unit 'b', 0x08), (unit 'e', 0x1B), (unit 'E', 0x1B), (unit 'f', 0x0C),
  (unit 'n', 0x0A), (unit 'r', 0x0D), (unit 't', 0x09), (unit 'v', 0x0B),
  (BACKSLASH, BACKSLASH), (QUOTE, QUOTE), (DOUBLE_QUOTE, DOUBLE_QUOTE)]

/-- How many hexadecimal digits may follow the letter of an escape. -/
def hexWidth (ch : UInt16) : ℕ :=
  if ch = unit 'x' then 2 else if ch = unit 'u' then 4 else if ch = unit 'U' then 8 else 0

/-- What the escape stands for that follows a backslash, and how many units it takes. -/
def decodeAnsiEscape : Command → Option (Command × ℕ)
  | [] => some ([BACKSLASH], 0)
  | ch :: rest =>
    match simpleEscapes.lookup ch with
    | some mapped => some ([mapped], 1)
    | none =>
      if isOctalDigit ch then
        let digits := ch :: (rest.take 2).takeWhile isOctalDigit
        (fromCodePoint (parseDigits 8 digits)).map fun value => (value, digits.length)
      else
        let digits := (rest.take (hexWidth ch)).takeWhile isHexDigit
        if digits = [] then some ([ch], 1)
        else (fromCodePoint (parseDigits 16 digits)).map fun value => (value, 1 + digits.length)

structure ShellWord where
  value : Command
  quoted : Bool
deriving DecidableEq, Repr

inductive Quote where
  | single
  | double
  | ansi
deriving DecidableEq, Repr

def Quote.closes : Quote → UInt16 → Bool
  | single, ch => ch = QUOTE
  | double, ch => ch = DOUBLE_QUOTE
  | ansi, ch => ch = QUOTE

/-- What the scan of a command has read so far. -/
structure Scan where
  tokens : List ShellWord
  current : Command
  currentQuoted : Bool
  quote : Option Quote
deriving DecidableEq, Repr

namespace Scan

def push (s : Scan) (value : Command) : Scan := { s with current := s.current ++ value }

def opened (s : Scan) (quote : Quote) : Scan :=
  { s with quote := some quote, currentQuoted := true }

/-- The word that is read, if there is one, is over. -/
def flush (s : Scan) : Scan :=
  if s.current = [] then s
  else
    { s with
      tokens := s.tokens ++ [⟨s.current, s.currentQuoted⟩], current := [], currentQuoted := false }

/-- One round of the scan, and how many units after `ch` it skips. -/
def step (s : Scan) (ch : UInt16) (rest : Command) : Option (Scan × ℕ) :=
  match s.quote with
  | some quote =>
    if quote.closes ch then some ({ s with quote := none }, 0)
    else if quote = .ansi && ch = BACKSLASH then
      (decodeAnsiEscape rest).map fun (value, taken) => (s.push value, taken)
    else if ch = BACKSLASH && quote = .double && rest ≠ [] then some (s.push (rest.take 1), 1)
    else some (s.push [ch], 0)
  | none =>
    if ch = DOLLAR && rest.head? = some QUOTE then some (s.opened .ansi, 1)
    else if ch = DOLLAR && rest.head? = some DOUBLE_QUOTE then some (s.opened .double, 1)
    else if ch = DOUBLE_QUOTE then some (s.opened .double, 0)
    else if ch = QUOTE then some (s.opened .single, 0)
    else if ch = BACKSLASH && rest ≠ [] then some (s.push (rest.take 1), 1)
    else if isSpace ch then some (s.flush, 0)
    else some (s.push [ch], 0)

/-- The scan of what is left of a command, its first `skip` units apart. -/
def run (s : Scan) : ℕ → Command → Option Scan
  | _, [] => some s
  | skip + 1, _ :: rest => s.run skip rest
  | 0, ch :: rest =>
    match s.step ch rest with
    | none => none
    | some (s', skip) => s'.run skip rest

end Scan

def rawTokenRecords (command : Command) : Option (List ShellWord) :=
  (Scan.run ⟨[], [], false, none⟩ 0 command).map fun s => s.flush.tokens

/-- The words of a command; nothing when a code point of it is out of range. -/
def rawTokens (command : Command) : Option (List Command) :=
  (rawTokenRecords command).map (List.map ShellWord.value)

/-! ## Quoting -/

/-- `[A-Za-z0-9_./:@%+=,-]`. -/
def isPlain (u : UInt16) : Bool :=
  between 'A' 'Z' u || between 'a' 'z' u || between '0' '9' u ||
    u ∈ ['_', '.', '/', ':', '@', '%', '+', '=', ',', '-'].map unit

/-- `text.replace(/'/gu, "'\\''")`. -/
def escapeQuotes (text : Command) : Command :=
  text.flatMap fun u => if u = QUOTE then [QUOTE, BACKSLASH, QUOTE, QUOTE] else [u]

def quoteShellToken (token : Command) : Command :=
  if token ≠ [] && token.all isPlain then token else QUOTE :: escapeQuotes token ++ [QUOTE]

/-- `args.map(quoteShellToken).join(' ')`. -/
def quoteAll (args : List Command) : Command := [SPACE].intercalate (args.map quoteShellToken)

/-! ## Splitting what was quoted -/

theorem between_bounds {first last : Char} {u : UInt16} (h : between first last u = true) :
    (unit first).toNat ≤ u.toNat ∧ u.toNat ≤ (unit last).toNat := by
  rw [between, Bool.and_eq_true, decide_eq_true_eq, decide_eq_true_eq] at h
  exact ⟨UInt16.le_iff_toNat_le.1 h.1, UInt16.le_iff_toNat_le.1 h.2⟩

/-- What needs no quotes lies between the space and the delete character. -/
theorem isPlain_bounds {u : UInt16} (h : isPlain u = true) : 0x20 < u.toNat ∧ u.toNat < 0x7F := by
  have hmarks : (['_', '.', '/', ':', '@', '%', '+', '=', ',', '-'].map unit).all
      (fun v => decide (0x20 < v.toNat ∧ v.toNat < 0x7F)) = true := by decide
  simp only [isPlain, Bool.or_eq_true, decide_eq_true_eq] at h
  obtain ((h | h) | h) | h := h
  · obtain ⟨hfirst, hlast⟩ := between_bounds h
    exact ⟨lt_of_lt_of_le (by decide) hfirst, lt_of_le_of_lt hlast (by decide)⟩
  · obtain ⟨hfirst, hlast⟩ := between_bounds h
    exact ⟨lt_of_lt_of_le (by decide) hfirst, lt_of_le_of_lt hlast (by decide)⟩
  · obtain ⟨hfirst, hlast⟩ := between_bounds h
    exact ⟨lt_of_lt_of_le (by decide) hfirst, lt_of_le_of_lt hlast (by decide)⟩
  · exact of_decide_eq_true (List.all_eq_true.1 hmarks u h)

theorem isSpace_of_isPlain {u : UInt16} (h : isPlain u = true) : isSpace u = false := by
  obtain ⟨hlow, hhigh⟩ := isPlain_bounds h
  have hvalid : (Char.ofNat u.toNat).toNat = u.toNat := by
    have hchar : u.toNat.isValidChar := Or.inl (by omega)
    rw [Char.ofNat, dif_pos hchar]
    exact UInt32.toNat_ofNatLT
  rw [isSpace, isStrWhiteSpace, hvalid]
  simp only [List.mem_cons, List.not_mem_nil, or_false, Bool.or_eq_false_iff,
    Bool.and_eq_false_iff, decide_eq_false_iff_not]
  omega

theorem ne_of_isPlain {u v : UInt16} (h : isPlain u = true)
    (hv : v ∈ [QUOTE, DOUBLE_QUOTE, BACKSLASH, DOLLAR]) : u ≠ v := by
  have hnone : [QUOTE, DOUBLE_QUOTE, BACKSLASH, DOLLAR].all (fun v => !isPlain v) = true := by
    decide
  rintro rfl
  have hspecial := List.all_eq_true.1 hnone u hv
  rw [h] at hspecial
  cases hspecial

namespace Scan

@[simp] theorem push_push (s : Scan) (value other : Command) :
    (s.push value).push other = s.push (value ++ other) := by
  simp [push, List.append_assoc]

@[simp] theorem push_nil (s : Scan) : s.push [] = s := by
  simp [push]

@[simp] theorem push_quote (s : Scan) (value : Command) : (s.push value).quote = s.quote := rfl

variable {s : Scan}

theorem run_cons {s' : Scan} {skip : ℕ} {ch : UInt16} {rest : Command}
    (h : s.step ch rest = some (s', skip)) : s.run 0 (ch :: rest) = s'.run skip rest := by
  rw [run, h]

/-- Outside quotes, a plain unit goes into the word. -/
theorem step_plain (hquote : s.quote = none) {u : UInt16} (hplain : isPlain u = true)
    (rest : Command) : s.step u rest = some (s.push [u], 0) := by
  have hne : ∀ v ∈ [QUOTE, DOUBLE_QUOTE, BACKSLASH, DOLLAR], u ≠ v :=
    fun v hv => ne_of_isPlain hplain hv
  simp only [List.forall_mem_cons] at hne
  obtain ⟨hsingle, hdouble, hback, hdollar, -⟩ := hne
  simp [step, hquote, hsingle, hdouble, hback, hdollar, isSpace_of_isPlain hplain]

theorem run_plain (hquote : s.quote = none) {token : Command} (hplain : token.all isPlain = true)
    (rest : Command) : s.run 0 (token ++ rest) = (s.push token).run 0 rest := by
  induction token generalizing s with
  | nil => rw [List.nil_append, push_nil]
  | cons u token ih =>
    rw [List.all_cons, Bool.and_eq_true] at hplain
    rw [List.cons_append, run_cons (step_plain hquote hplain.1 _),
      ih (s := s.push [u]) hquote hplain.2, push_push]
    rfl

/-- Within single quotes, what was escaped goes into the word. -/
theorem run_escaped (hquote : s.quote = some .single) (hquoted : s.currentQuoted = true)
    (token rest : Command) :
    s.run 0 (escapeQuotes token ++ rest) = (s.push token).run 0 rest := by
  induction token generalizing s with
  | nil => rw [push_nil]; rfl
  | cons u token ih =>
    have htail : (s.push [u]).run 0 (escapeQuotes token ++ rest) =
        (s.push (u :: token)).run 0 rest := by
      rw [ih (s := s.push [u]) hquote hquoted, push_push]
      rfl
    rw [← htail]
    by_cases hu : u = QUOTE
    · -- the quotes are closed, an escaped quote is read, and the quotes are opened again
      subst hu
      obtain ⟨tokens, current, currentQuoted, quote⟩ := s
      obtain rfl : quote = some .single := hquote
      obtain rfl : currentQuoted = true := hquoted
      rfl
    · have hescaped : escapeQuotes (u :: token) = u :: escapeQuotes token := by
        simp [escapeQuotes, hu]
      have hstep : s.step u (escapeQuotes token ++ rest) = some (s.push [u], 0) := by
        simp [step, hquote, Quote.closes, hu]
      rw [hescaped, List.cons_append, run_cons hstep]

/-- Outside quotes, a space ends the word. -/
theorem step_space (hquote : s.quote = none) (rest : Command) :
    s.step SPACE rest = some (s.flush, 0) := by
  have hdollar : SPACE ≠ DOLLAR := by decide
  have hdouble : SPACE ≠ DOUBLE_QUOTE := by decide
  have hsingle : SPACE ≠ QUOTE := by decide
  have hback : SPACE ≠ BACKSLASH := by decide
  have hspace : isSpace SPACE = true := by decide
  simp [step, hquote, hdollar, hdouble, hsingle, hback, hspace]

/-- A word that was quoted is read as it was, and it counts as quoted or not. -/
theorem run_quoteShellToken (hquote : s.quote = none) (hcurrent : s.current = [])
    (token rest : Command) :
    ∃ quoted, s.run 0 (quoteShellToken token ++ rest) =
      Scan.run { s with current := token, currentQuoted := quoted } 0 rest := by
  rw [quoteShellToken]
  split
  · next hplain =>
    rw [Bool.and_eq_true] at hplain
    refine ⟨s.currentQuoted, ?_⟩
    rw [run_plain hquote hplain.2, push, hcurrent, List.nil_append]
  · refine ⟨true, ?_⟩
    have hopen : s.step QUOTE (escapeQuotes token ++ [QUOTE] ++ rest) =
        some (s.opened .single, 0) := by
      simp [step, hquote, show QUOTE ≠ DOLLAR by decide, show QUOTE ≠ DOUBLE_QUOTE by decide]
    have hclose : ((s.opened .single).push token).step QUOTE rest =
        some ({ (s.opened .single).push token with quote := none }, 0) := rfl
    rw [List.cons_append, List.cons_append, run_cons hopen, List.append_assoc,
      run_escaped rfl rfl, List.singleton_append, run_cons hclose, push, opened, hcurrent, ← hquote]
    rfl

/-- The words of what was quoted follow the words that were read before. -/
theorem run_quoteAll (hquote : s.quote = none) (hcurrent : s.current = [])
    {args : List Command} (hargs : ∀ token ∈ args, token ≠ []) :
    ((s.run 0 (quoteAll args)).map fun last => last.flush.tokens.map ShellWord.value) =
      some (s.tokens.map ShellWord.value ++ args) := by
  induction args generalizing s with
  | nil =>
    show some (s.flush.tokens.map ShellWord.value) = _
    rw [flush, if_pos hcurrent, List.append_nil]
  | cons token args ih =>
    rw [List.forall_mem_cons] at hargs
    cases args with
    | nil =>
      obtain ⟨quoted, hrun⟩ := run_quoteShellToken hquote hcurrent token []
      rw [List.append_nil] at hrun
      show (s.run 0 (quoteShellToken token ++ [])).map _ = _
      rw [List.append_nil, hrun, run, Option.map_some, flush, if_neg hargs.1, List.map_append]
      rfl
    | cons next args =>
      have hjoin : quoteAll (token :: next :: args) =
          quoteShellToken token ++ SPACE :: quoteAll (next :: args) := rfl
      obtain ⟨quoted, hrun⟩ := run_quoteShellToken hquote hcurrent token
        (SPACE :: quoteAll (next :: args))
      have hspace := step_space (s := { s with current := token, currentQuoted := quoted }) hquote
        (quoteAll (next :: args))
      rw [hjoin, hrun, run_cons hspace, ih (s := flush _) ?_ ?_ hargs.2]
      · rw [flush, if_neg hargs.1, List.map_append, List.append_assoc]
        rfl
      · rw [flush, if_neg hargs.1]
        exact hquote
      · rw [flush, if_neg hargs.1]

end Scan

/-- Splitting undoes quoting. -/
theorem rawTokens_quoteAll (argv : List Command) (hargv : ∀ token ∈ argv, token ≠ []) :
    rawTokens (quoteAll argv) = some argv := by
  rw [rawTokens, rawTokenRecords, Option.map_map]
  exact Scan.run_quoteAll rfl rfl hargv

theorem rawTokens_quoteAll_marks :
    rawTokens (quoteAll ["it's".toList.map unit, "$'\\n".toList.map unit, "a/b".toList.map unit]) =
      some ["it's".toList.map unit, "$'\\n".toList.map unit, "a/b".toList.map unit] :=
  rawTokens_quoteAll _ (by decide)

end Orchestration.Permissions
