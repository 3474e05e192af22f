import Orchestration.Permissions.IdentityGuard

/-!
# Commit identities from the log

`git log` prints every commit as one record, with the fields of a record and the
records themselves separated by control characters. A message may hold these
characters too.
-/

namespace Orchestration.Permissions

open Js (isStrWhiteSpace trim)

def FIELD_SEP : Char := Char.ofNat 0x1e

def COMMIT_SEP : Char := Char.ofNat 0x1f

/-- A commit as git has it. -/
structure Commit where
  sha : List Char
  authorName : List Char
  authorEmail : List Char
  committerName : List Char
  committerEmail : List Char
  body : List Char
  sha_ne : sha ≠ []
  sha_hex : ∀ c ∈ sha, c.isAlphanum = true

namespace Commit

variable (commit : Commit)

/-- `%an <%ae>`. -/
def author : List Char := commit.authorName ++ ' ' :: '<' :: commit.authorEmail ++ ['>']

/-- `%cn <%ce>`. -/
def committer : List Char := commit.committerName ++ ' ' :: '<' :: commit.committerEmail ++ ['>']

/-- The record up to the message. -/
def header : List Char :=
  commit.sha ++ FIELD_SEP :: commit.author ++ FIELD_SEP :: commit.committer ++ [FIELD_SEP]

/-- One entry of the log, with the newline that ends it. -/
def entry : List Char := commit.header ++ commit.body ++ [COMMIT_SEP, '\n']

end Commit

/-- What `git log` prints for the commits. -/
def gitLog (commits : List Commit) : List Char := commits.flatMap Commit.entry

/-! ## Sign-offs -/

/-- The pattern of the prefix, in lower case. -/
def SIGNOFF_PREFIX : List Char := "signed-off-by:".toList

/-- `\s*(.+)$` from where the prefix ends: the capture, and how much is consumed. -/
def captureSignoff? (text : List Char) : Option (List Char × ℕ) :=
  let spaces := text.takeWhile isStrWhiteSpace
  match text.dropWhile isStrWhiteSpace with
  | c :: rest =>
    let value := (c :: rest).takeWhile (!isLineTerminator ·)
    some (value, spaces.length + value.length)
  | [] =>
    -- only white space is left: `\s*` gives back down to the last character that `.` matches
    match spaces.reverse.dropWhile isLineTerminator with
    | [] => none
    | c :: before => some ([c], before.length + 1)

/-- `^Signed-off-by:\s*(.+)$` at the beginning of a line: the capture, and how much is matched. -/
def matchSignoff? (text : List Char) : Option (List Char × ℕ) := do
  let rest ← afterPattern? SIGNOFF_PREFIX text
  let (value, length) ← captureSignoff? rest
  some (value, SIGNOFF_PREFIX.length + length)

/-- All matches from here on. The first `skip` characters belong to the last match. -/
def signoffsFrom : ℕ → Bool → List Char → List (List Char)
  | _, _, [] => []
  | skip + 1, _, c :: text => signoffsFrom skip (isLineTerminator c) text
  | 0, atLineStart, c :: text =>
    match if atLineStart then matchSignoff? (c :: text) else none with
    | some (value, length) => trim value :: signoffsFrom (length - 1) (isLineTerminator c) text
    | none => signoffsFrom 0 (isLineTerminator c) text

/-- The sign-offs that the regular expression finds in a message. -/
def parseSignoffs (body : List Char) : List (List Char) := signoffsFrom 0 true body

/-! ## Records -/

/-- The identity record of one block of the log; a block without a sha has none. -/
def blockIdentity? (block : List Char) : Option CommitIdentity :=
  let trimmed := trim block
  if trimmed = [] then none
  else
    match trimmed.splitOn FIELD_SEP with
    | [] => none
    | sha :: fields =>
      if trim sha = [] then none
      else some {
        sha := trim sha
        author := (fields[0]?.map trim).getD []
        committer := (fields[1]?.map trim).getD []
        signoffs := parseSignoffs ([FIELD_SEP].intercalate (fields.drop 2)) }

/-- Read the identity records of a log. -/
def parseLog (raw : List Char) : List CommitIdentity :=
  (raw.splitOn COMMIT_SEP).filterMap blockIdentity?

/-! ## What a commit is -/

/-- The value of a line that signs off. -/
def signoffOfLine (line : List Char) : Option (List Char) :=
  match afterPattern? SIGNOFF_PREFIX line with
  | none => none
  | some rest => if trim rest = [] then none else some (trim rest)

/-- The sign-off lines of a message, by their values. -/
def signoffLines (body : List Char) : List (List Char) :=
  (body.splitOnP isLineTerminator).filterMap signoffOfLine

/-- The identity of a commit. -/
def Commit.identity (commit : Commit) : CommitIdentity where
  sha := commit.sha
  author := commit.author
  committer := commit.committer
  signoffs := signoffLines commit.body

end Orchestration.Permissions
