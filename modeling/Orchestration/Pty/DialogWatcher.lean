import Orchestration.Dispatch.Events
import Orchestration.Js.Number

/-!
# Pane output

Output of a pane is matched against prompt texts once its escape sequences are
gone and its white space is collapsed. The dialog watcher reads every chunk so
and answers a known dialog once, until the screen is reset or another one is up.
-/

namespace Orchestration.Pty

open Dispatch (Provider)
open Js (isStrWhiteSpace trim)

/-- A text of the pane or of a mail. -/
abbrev Text := List Char

/-! ## Regular expressions -/

/-- A regular expression over classes of characters. -/
inductive Regex where
  | one (matchesClass : Char → Bool)
  | seq (first rest : Regex)
  | alt (first other : Regex)
  /-- At most `n` times, as often as possible. -/
  | upTo (n : ℕ) (body : Regex)
  /-- Any number of times, as often as possible; the body is never empty. -/
  | star (body : Regex)

/-- What is left after at most `n` matches, the longest repetition first. -/
def iterateMatch (restsOfBody : Text → List Text) : ℕ → Text → List Text
  | 0, text => [text]
  | n + 1, text => (restsOfBody text).flatMap (iterateMatch restsOfBody n) ++ [text]

/-- What is left of `text` after a match at its start, in the order of backtracking. -/
def Regex.rests : Regex → Text → List Text
  | .one _, [] => []
  | .one matchesClass, c :: text => if matchesClass c then [text] else []
  | .seq first rest, text => (first.rests text).flatMap rest.rests
  | .alt first other, text => first.rests text ++ other.rests text
  | .upTo n body, text => iterateMatch body.rests n text
  | .star body, text => iterateMatch body.rests text.length text

/-- Every match replaced, from left to right; no match is empty. -/
def Regex.replaceAll (pattern : Regex) (replacement : Text) : ℕ → Text → Text
  | 0, text => text
  | _ + 1, [] => []
  | n + 1, c :: text =>
    match pattern.rests (c :: text) with
    | rest :: _ => replacement ++ pattern.replaceAll replacement n rest
    | [] => c :: pattern.replaceAll replacement n text

def ESC : Char := Char.ofNat 0x1B

def Regex.digit : Regex := .one Char.isDigit

def Regex.oneOf (cs : Text) : Regex := .one fun c => c ∈ cs

/-- `[\u001B\u009B]`. -/
def Regex.introducer : Regex := .oneOf [ESC, Char.ofNat 0x9B]

/-- `(?:\d{1,4}(?:;\d{0,4})*)?`. -/
def Regex.parameters : Regex :=
  .upTo 1 (.seq (.seq .digit (.upTo 3 .digit)) (.star (.seq (.oneOf [';']) (.upTo 4 .digit))))

/-- Cursor moves, which paint words into columns without a space between them. -/
def ANSI_LAYOUT_ESCAPE : Regex :=
  .seq .introducer (.seq (.oneOf ['[']) (.seq .parameters
    (.oneOf ['A', 'B', 'C', 'D', 'G', 'H', 'f'])))

/-- `[\dA-PR-TZcf-ntqry=><~]`. -/
def isFinalByte (c : Char) : Bool :=
  c.isDigit || 'A' ≤ c && c ≤ 'P' || 'R' ≤ c && c ≤ 'T' || 'f' ≤ c && c ≤ 'n' ||
    c ∈ ['Z', 'c', 't', 'q', 'r', 'y', '=', '>', '<', '~']

/-- `[a-zA-Z\d]`. -/
def isAsciiAlphanumeric (c : Char) : Bool :=
  'a' ≤ c && c ≤ 'z' || 'A' ≤ c && c ≤ 'Z' || c.isDigit

/-- Control sequences: those that end in a letter, and titles that end in a bell. -/
def ANSI_ESCAPE : Regex :=
  .seq .introducer (.seq (.star (.oneOf ['[', ']', '(', ')', '#', ';', '?'])) (.alt
    (.seq
      (.upTo 1 (.seq (.star (.one isAsciiAlphanumeric))
        (.star (.seq (.oneOf [';']) (.star (.one isAsciiAlphanumeric))))))
      (.oneOf [Char.ofNat 0x07]))
    (.seq .parameters (.one isFinalByte))))

/-- Every run of white space becomes one space. -/
def collapseWhiteSpace : Text → Text
  | [] => []
  | c :: text =>
    if isStrWhiteSpace c then
      match collapseWhiteSpace text with
      | ' ' :: rest => ' ' :: rest
      | rest => ' ' :: rest
    else c :: collapseWhiteSpace text

def normalizeStartupOutput (raw : Text) : Text :=
  let spaced := ANSI_LAYOUT_ESCAPE.replaceAll [' '] raw.length raw
  let plain := ANSI_ESCAPE.replaceAll [] spaced.length spaced
  trim (collapseWhiteSpace plain)

/-! ## Texts -/

/-- Lower case, for the comparison with needles that are ASCII and hold no `k`. -/
def toLowerCase (text : Text) : Text := text.map Char.toLower

def includes (text needle : Text) : Bool := decide (needle <:+: text)

def utf16Length (text : Text) : ℕ := (text.map fun c => if c.toNat < 0x10000 then 1 else 2).sum

/-- `text.slice(-n)`, up to half of a surrogate pair. -/
def sliceLast (n : ℕ) : Text → Text
  | [] => []
  | c :: text => if utf16Length (c :: text) ≤ n then c :: text else sliceLast n text

/-! ## Dialogs -/

inductive DialogName where
  | claudePermission
  | codexApproval
deriving DecidableEq, Repr

/-- A dialog: the bytes that answer it, and the texts that must all be on the screen. -/
structure DialogSig where
  name : DialogName
  answer : Text
  anchors : List Text
deriving DecidableEq, Repr

def DIALOG_SIGNATURES : Provider → List DialogSig
  | .claude => [
    ⟨.claudePermission, ['\r'],
      ["do you want to proceed".toList, "1. yes".toList, "2. no".toList]⟩]
  | .codex => [
    ⟨.codexApproval, ['1', '\r'],
      ["mcp server to run tool".toList, "1. yes".toList, "2. no".toList]⟩,
    ⟨.codexApproval, ['\r'],
      ["mcp server to run tool".toList, "1. allow".toList, "4. cancel".toList]⟩]

def classifyDialog (provider : Option Provider) (normalizedOutput : Text) : Option DialogSig :=
  let hay := toLowerCase normalizedOutput
  let providers := match provider with
    | some p => [p]
    | none => [.claude, .codex]
  (providers.flatMap DIALOG_SIGNATURES).find? fun sig => sig.anchors.all (includes hay)

def MAX_DIALOG_BUFFER_CHARS : ℕ := 64 * 1024

def SCREEN_RESET_PATTERNS : List Text := [[ESC, '[', '2', 'J'], [ESC, 'c']]

def SCREEN_RESET_TAIL_CHARS : ℕ := 3

def suffixAfterLastScreenReset : Text → Option Text
  | [] => none
  | c :: text =>
    match suffixAfterLastScreenReset text with
    | some suffix => some suffix
    | none => SCREEN_RESET_PATTERNS.findSome? fun pattern =>
      if pattern <+: c :: text then some ((c :: text).drop pattern.length) else none

/-- What `watchDialogs` keeps between two chunks. -/
structure DialogWatcher where
  provider : Option Provider
  buffer : Text
  activeDialog : Option DialogSig
  resetScanTail : Text
deriving DecidableEq, Repr

/-- The watcher when it attaches to a pane. -/
def watchDialogs (provider : Option Provider) : DialogWatcher where
  provider
  buffer := []
  activeDialog := none
  resetScanTail := []

/-- The watcher with a chunk in its buffer; a reset of the screen forgets what came before it. -/
def DialogWatcher.receive (watcher : DialogWatcher) (chunk : Text) : DialogWatcher :=
  let resetScanInput := watcher.resetScanTail ++ chunk
  let resetScanTail := sliceLast SCREEN_RESET_TAIL_CHARS resetScanInput
  match suffixAfterLastScreenReset resetScanInput with
  | some postResetChunk => { watcher with
      resetScanTail, activeDialog := none,
      buffer := sliceLast MAX_DIALOG_BUFFER_CHARS postResetChunk }
  | none => { watcher with
      resetScanTail, buffer := sliceLast MAX_DIALOG_BUFFER_CHARS (watcher.buffer ++ chunk) }

/-- The dialog that the buffer shows. -/
def DialogWatcher.match? (watcher : DialogWatcher) : Option DialogSig :=
  classifyDialog watcher.provider (normalizeStartupOutput watcher.buffer)

/-- A chunk of output, and what the watcher then writes to the pane. -/
def DialogWatcher.onData (watcher : DialogWatcher) (chunk : Text) : DialogWatcher × Option Text :=
  let watcher := watcher.receive chunk
  match watcher.match? with
  | none => (if watcher.activeDialog.isSome then { watcher with buffer := [] } else watcher, none)
  | some found =>
    if watcher.activeDialog = some found then ({ watcher with buffer := [] }, none)
    else ({ watcher with buffer := [], activeDialog := some found }, some found.answer)

/-- What a watcher writes answers a dialog that it has found. -/
theorem DialogWatcher.answers {watcher watcher' : DialogWatcher} {chunk answer : Text}
    (h : watcher.onData chunk = (watcher', some answer)) :
    ∃ sig, (watcher.receive chunk).match? = some sig ∧ sig.answer = answer ∧
      watcher'.activeDialog = some sig := by
  simp only [DialogWatcher.onData] at h
  split at h
  · split at h <;> cases h
  · rename_i found hfound
    split at h
    · cases h
    · obtain ⟨rfl, hanswer⟩ := Prod.mk.inj h
      exact ⟨found, hfound, Option.some.inj hanswer, rfl⟩

/-- A dialog that stays up is answered once. -/
theorem DialogWatcher.silent_of_active {watcher : DialogWatcher} {chunk : Text} {sig : DialogSig}
    (hactive : watcher.activeDialog = some sig)
    (hreset : suffixAfterLastScreenReset (watcher.resetScanTail ++ chunk) = none)
    (hsame : ∀ found, (watcher.receive chunk).match? = some found → found = sig) :
    (watcher.onData chunk).2 = none ∧ (watcher.onData chunk).1.activeDialog = some sig := by
  have hkept : (watcher.receive chunk).activeDialog = some sig := by
    simp only [DialogWatcher.receive, hreset, hactive]
  simp only [DialogWatcher.onData, hkept, Option.isSome_some, if_true]
  split
  · exact ⟨rfl, rfl⟩
  · rename_i found hfound
    have hsig : found = sig := hsame found hfound
    rw [hsig, if_pos rfl]
    exact ⟨rfl, rfl⟩

example : normalizeStartupOutput ("  a\r\n\tb ".toList ++ [ESC, '[', '5', 'G', 'c']) =
    "a b c".toList := by decide

end Orchestration.Pty
