import Orchestration.Js.Number

/-!
# The publish identity guard

Every commit of a range is read back from one `git log`, and its author, its
committer and its sign-offs are held against an allowlist of personas. Texts are
lists of characters here, as the regular expressions go through them.
-/

namespace Orchestration.Permissions

open Js (isStrWhiteSpace trim)

/-! ## What the regular expressions go by -/

/-- The characters that end a line for `^`, `$` and `.`. -/
def isLineTerminator (c : Char) : Bool :=
  c = '\n' || c = '\r' || c.toNat = 0x2028 || c.toNat = 0x2029

def trimEnd (text : List Char) : List Char := (text.reverse.dropWhile isStrWhiteSpace).reverse

/-- The letters and digits of ASCII lie between `0` and `z`, and none of them is a bracket. -/
theorem isAlphanum_range {c : Char} (h : c.isAlphanum = true) :
    48 ≤ c.toNat ∧ c.toNat ≤ 122 ∧ c.toNat ≠ 91 := by
  change ((decide ('A'.val ≤ c.val ∧ c.val ≤ 'Z'.val) ||
    decide ('a'.val ≤ c.val) && decide (c.val ≤ 'z'.val)) ||
    decide ('0'.val ≤ c.val) && decide (c.val ≤ '9'.val)) = true at h
  simp only [Bool.or_eq_true, Bool.and_eq_true, decide_eq_true_eq, UInt32.le_iff_toNat_le] at h
  have hupper : 'A'.val.toNat = 65 ∧ 'Z'.val.toNat = 90 := by decide
  have hlower : 'a'.val.toNat = 97 ∧ 'z'.val.toNat = 122 := by decide
  have hdigit : '0'.val.toNat = 48 ∧ '9'.val.toNat = 57 := by decide
  change 48 ≤ c.val.toNat ∧ c.val.toNat ≤ 122 ∧ c.val.toNat ≠ 91
  omega

/-- Whether `c` matches the lower-case letter or the sign `pattern` under the flags `i` and `u`. -/
def matchesIgnoringCase (pattern c : Char) : Bool :=
  c.toLower = pattern || pattern = 's' && c.toNat = 0x17F

/-- The text after a prefix that matches the pattern. -/
def afterPattern? : List Char → List Char → Option (List Char)
  | [], text => some text
  | _ :: _, [] => none
  | p :: pattern, c :: text =>
    if matchesIgnoringCase p c then afterPattern? pattern text else none

/-! ## Identities -/

structure ParsedIdentity where
  normalized : List Char
  email : List Char
  bareEmail : Bool
deriving DecidableEq, Repr

/-- `^[^\s@<>]+@[^\s@<>]+$`. -/
def isEmailAddress (email : List Char) : Bool :=
  match email.splitOn '@' with
  | [user, host] =>
    user ≠ [] && host ≠ [] &&
      (user ++ host).all fun c => !isStrWhiteSpace c && c ≠ '<' && c ≠ '>'
  | _ => false

/-- `^(?:(.*?)\s*)?<([^<>]+)>$`: what stands before the last `<`, and what is in the brackets. -/
def bracketed? (trimmed : List Char) : Option (List Char × List Char) :=
  match trimmed.reverse with
  | '>' :: rest =>
    let email := rest.takeWhile fun c => c ≠ '<' && c ≠ '>'
    match rest.dropWhile fun c => c ≠ '<' && c ≠ '>' with
    | '<' :: before =>
      let name := trimEnd before.reverse
      if email = [] ∨ name.any isLineTerminator then none else some (name, email.reverse)
    | _ => none
  | _ => none

/-- An identity as the commits carry it. -/
structure CommitIdentity where
  sha : List Char
  author : List Char
  committer : List Char
  signoffs : List (List Char)
deriving DecidableEq, Repr

inductive IdentityField where
  | author
  | committer
  | signedOffBy
deriving DecidableEq, Repr

/-- A field of a commit that the guard refuses. -/
structure IdentityViolation where
  sha : List Char
  field : IdentityField
  identity : List Char
  reason : String
deriving DecidableEq, Repr

section

-- how texts are lower-cased is the runtime's affair, and nothing here depends on it
variable (toLowerCase : List Char → List Char)

def parseIdentity (identity : List Char) : Option ParsedIdentity := do
  let (before, inBrackets) ← bracketed? (trim identity)
  let name := trim before
  let email := toLowerCase (trim inBrackets)
  if isEmailAddress email then
    some {
      normalized := if name = [] then '<' :: email ++ ['>'] else name ++ ' ' :: '<' :: email ++ ['>']
      email
      bareEmail := name = [] }
  else none

/-- `.replace(/<([^>]*)>/u, …)`: lower-case and trim what the first pair of brackets holds. -/
def lowerCaseBrackets (text : List Char) : List Char :=
  match text.dropWhile (· ≠ '<') with
  | '<' :: rest =>
    match rest.dropWhile (· ≠ '>') with
    | '>' :: after =>
      text.takeWhile (· ≠ '<') ++ '<' :: trim (toLowerCase (rest.takeWhile (· ≠ '>'))) ++ '>' :: after
    | _ => text
  | _ => text

def normalizeIdentity (identity : List Char) : List Char :=
  match parseIdentity toLowerCase identity with
  | some parsed => parsed.normalized
  | none => lowerCaseBrackets toLowerCase (trim identity)

/-- The entries of an allowlist that name an email only. -/
def bareEmailAllowlist (allowlist : List (List Char)) : List (List Char) :=
  allowlist.filterMap fun entry =>
    match parseIdentity toLowerCase entry with
    | some parsed => if parsed.bareEmail then some parsed.email else none
    | none => none

def normalizedAllowlist (allowlist : List (List Char)) : List (List Char) :=
  allowlist.filterMap fun entry =>
    match parseIdentity toLowerCase entry with
    | some parsed => if parsed.bareEmail then none else some (normalizeIdentity toLowerCase entry)
    | none => some (normalizeIdentity toLowerCase entry)

/-- The allowlist admits the identity, by its email or as a whole. -/
def allowed (allowlist : List (List Char)) (identity : List Char) : Bool :=
  let allowedByEmail :=
    (parseIdentity toLowerCase identity).any fun parsed =>
      (bareEmailAllowlist toLowerCase allowlist).contains parsed.email
  let allowedByIdentity :=
    (normalizedAllowlist toLowerCase allowlist).contains (normalizeIdentity toLowerCase identity)
  allowedByEmail || allowedByIdentity

def check (allowlist : List (List Char)) (sha : List Char) (field : IdentityField)
    (identity : List Char) : List IdentityViolation :=
  if allowed toLowerCase allowlist identity then []
  else [{
    sha, field, identity
    reason := s!"identity '{String.ofList identity}' is not in the configured persona allowlist" }]

/-- The violation of a commit without any sign-off. -/
def missingSignoff (sha : List Char) : IdentityViolation where
  sha
  field := .signedOffBy
  identity := "missing Signed-off-by trailer".toList
  reason := "commit is missing a Signed-off-by trailer"

/-- Hold every identity of every commit against the allowlist. -/
def checkPublishIdentities (commits : List CommitIdentity) (allowlist : List (List Char)) :
    List IdentityViolation :=
  commits.flatMap fun commit =>
    check toLowerCase allowlist commit.sha .author commit.author ++
      check toLowerCase allowlist commit.sha .committer commit.committer ++
      if commit.signoffs = [] then [missingSignoff commit.sha]
      else commit.signoffs.flatMap (check toLowerCase allowlist commit.sha .signedOffBy)

/-- The sign-off floor when no allowlist is configured. -/
def checkSignedOffCommits (commits : List CommitIdentity) : List IdentityViolation :=
  commits.flatMap fun commit =>
    if commit.signoffs = [] then [missingSignoff commit.sha]
    else commit.signoffs.flatMap fun signoff =>
      if (parseIdentity toLowerCase signoff).isSome then []
      else [{
        sha := commit.sha
        field := .signedOffBy
        identity := signoff
        reason := s!"Signed-off-by trailer '{String.ofList signoff}' is malformed" }]

variable {toLowerCase}

theorem check_eq_nil {allowlist : List (List Char)} {sha : List Char} {field : IdentityField}
    {identity : List Char} : check toLowerCase allowlist sha field identity = [] ↔
      allowed toLowerCase allowlist identity = true := by
  unfold check
  cases allowed toLowerCase allowlist identity with
  | true => simp
  | false => simp

/-- The guard reports nothing just if every commit is signed off and every identity is allowed. -/
theorem checkPublishIdentities_eq_nil {commits : List CommitIdentity}
    {allowlist : List (List Char)} : checkPublishIdentities toLowerCase commits allowlist = [] ↔
      ∀ commit ∈ commits, allowed toLowerCase allowlist commit.author = true ∧
        allowed toLowerCase allowlist commit.committer = true ∧ commit.signoffs ≠ [] ∧
        ∀ signoff ∈ commit.signoffs, allowed toLowerCase allowlist signoff = true := by
  rw [checkPublishIdentities, List.flatMap_eq_nil_iff]
  refine forall₂_congr fun commit _ => ?_
  rw [List.append_eq_nil_iff, List.append_eq_nil_iff, check_eq_nil, check_eq_nil, and_assoc]
  refine and_congr_right fun _ => and_congr_right fun _ => ?_
  by_cases hnone : commit.signoffs = []
  · simp [hnone]
  · rw [if_neg hnone, List.flatMap_eq_nil_iff]
    simp [hnone, check_eq_nil]

end

end Orchestration.Permissions
