import Orchestration.Js.Regex

/-!
# Scrubbing

The redaction pass over every text that leaves for a human or a remote: user
names in home directories, addresses, and what is shaped like a credential.
-/

namespace Orchestration.Issues

open Js (Regex isStrWhiteSpace isAsciiAlphanumeric isWordChar isWordCharFolded)
open Js.Regex

def REDACTED_PATH : List Char := "[redacted]".toList
def REDACTED_EMAIL : List Char := "[redacted-email]".toList
def REDACTED_TOKEN : List Char := "[redacted-token]".toList

/-- One of the characters. -/
def oneOf (cs : String) : Regex := .one fun c => c ∈ cs.toList

/-- An ASCII letter or digit, or one of the characters. -/
def alphanumericOr (cs : String) : Regex := .one fun c => isAsciiAlphanumeric c || c ∈ cs.toList

def wordEdge : Regex := .boundary isWordChar

/-- Home-directory username segments. -/
def HOME_PATH_RE : Regex :=
  .seq (literally "/") (.seq (.alt (literally "home") (literally "Users")) (.seq (literally "/")
    (.seq (.notAhead (literally "[redacted]")) (plus (.one fun c => c ≠ '/' && !isStrWhiteSpace c)))))

/-- RFC-ish addresses. -/
def EMAIL_RE : Regex :=
  .seq (plus (.one fun c => isWordChar c || c ∈ ['.', '+', '-'])) (.seq (literally "@")
    (.seq (plus (.one fun c => isWordChar c || c = '-'))
      (plus (.seq (literally ".") (plus (.one fun c => isWordChar c || c = '-'))))))

/-- Whether `d` is the letter `c`, which is in lower case, under the flags `i` and `u`. -/
def foldsTo (c d : Char) : Bool :=
  d = c || d = c.toUpper || c = 's' && d.toNat = 0x17F || c = 'k' && d.toNat = 0x212A

/-- The letters of `text` whatever their case. -/
def anyCase (text : String) : Regex :=
  match text.toList.reverse with
  | [] => literally ""
  | last :: start => start.foldl (fun rest c => .seq (.one (foldsTo c)) rest) (.one (foldsTo last))

/-- `[A-Z0-9]`. -/
def upperOrDigit (c : Char) : Bool := 'A' ≤ c && c ≤ 'Z' || '0' ≤ c && c ≤ '9'

def white : Regex := .one isStrWhiteSpace

/-- The characters of a header credential, `marks` besides letters and digits, with the flag `i`. -/
def credential (marks : String) : Regex :=
  plus (.one fun c => isAsciiAlphanumeric c || c ∈ marks.toList || c.toNat = 0x17F ||
    c.toNat = 0x212A)

/-- `-----BEGIN (?:[A-Z0-9]+ )*PRIVATE KEY-----`, and the same with `END`. -/
def keyFence (word : String) : Regex :=
  .seq (literally ("-----" ++ word ++ " "))
    (.seq (star (.seq (plus (.one upperOrDigit)) (literally " "))) (literally "PRIVATE KEY-----"))

/-- `/^bearer\b/iu`. -/
def BEARER_LABEL : Regex := .seq (anyCase "bearer") (.boundary isWordCharFolded)

/-- `/^Authorization:\s*Basic\b/iu`. -/
def BASIC_LABEL : Regex :=
  .seq (anyCase "authorization:") (.seq (star white)
    (.seq (anyCase "basic") (.boundary isWordCharFolded)))

/-- Credential-shaped tokens. -/
def TOKEN_RES : List Regex := [
  .seq wordEdge (.seq (literally "ghp_") (.seq (atLeast 16 (alphanumericOr "")) wordEdge)),
  .seq wordEdge (.seq (literally "github_pat_") (.seq (atLeast 16 (alphanumericOr "_")) wordEdge)),
  .seq wordEdge (.seq (literally "sk-") (.seq (atLeast 16 (alphanumericOr "_-")) wordEdge)),
  .seq wordEdge (.seq (literally "glpat-") (.seq (atLeast 16 (alphanumericOr "_-")) wordEdge)),
  .seq wordEdge (.seq (literally "xox") (.seq (.one fun c => 'a' ≤ c && c ≤ 'z')
    (.seq (literally "-") (.seq (atLeast 10 (alphanumericOr "-")) wordEdge)))),
  .seq wordEdge (.seq
    (.alt (literally "AKIA") (.alt (literally "ASIA") (.alt (literally "AROA") (literally "AIDA"))))
    (.seq (exactly 16 (.one upperOrDigit)) wordEdge)),
  .seq wordEdge (.seq (literally "AIza") (.seq (exactly 35 (alphanumericOr "_-")) wordEdge)),
  .seq wordEdge (.seq (literally "npm_") (.seq (exactly 36 (alphanumericOr "")) wordEdge)),
  .seq (keyFence "BEGIN") (.seq (.times 0 none true (.one fun _ => true)) (keyFence "END")),
  .seq (.boundary isWordCharFolded) (.seq (anyCase "bearer") (.seq (plus white)
    (.seq (.notAhead (anyCase "[redacted-token]")) (credential "._~+/=-")))),
  .seq (.boundary isWordCharFolded) (.seq (anyCase "authorization:") (.seq (star white)
    (.seq (anyCase "basic") (.seq (plus white)
      (.seq (.notAhead (anyCase "[redacted-token]")) (credential "+/=._-"))))))]

/-- A credential keeps its label, every other shape goes as a whole. -/
def redactTokenMatch (found : List Char) : List Char :=
  match BEARER_LABEL.execAtStart found with
  | some label => label ++ ' ' :: REDACTED_TOKEN
  | none =>
    match BASIC_LABEL.execAtStart found with
    | some label => label ++ ' ' :: REDACTED_TOKEN
    | none => REDACTED_TOKEN

/-- `$1[redacted]`: the first group of the pattern ends with the second slash. -/
def redactHomePath (found : List Char) : List Char :=
  '/' :: (found.drop 1).takeWhile (· ≠ '/') ++ '/' :: REDACTED_PATH

def scrubOutwardText (text : String) : String :=
  let scrubbed := HOME_PATH_RE.replaceAll redactHomePath text.toList
  let scrubbed := EMAIL_RE.replaceAll (fun _ => REDACTED_EMAIL) scrubbed
  String.ofList (TOKEN_RES.foldl (fun scrubbed re => re.replaceAll redactTokenMatch scrubbed) scrubbed)

def scrubIssueText (text : String) : String := scrubOutwardText text

end Orchestration.Issues
