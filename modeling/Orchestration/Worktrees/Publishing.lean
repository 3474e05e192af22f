import Orchestration.Js.Number

/-!
# Publishing

The texts that a merge and a pull request carry, rendered from what the agent means to
say, and the seam through which the reviewed work reaches the repository.
-/

namespace Orchestration.Worktrees

/-- How a repository relates to its remote. -/
inductive RepoMode where
  | owner
  | contributor
  | offline
deriving DecidableEq, Repr

/-! ## Messages -/

structure MergeIntent where
  branch : String
  summary : String
  body : Option String := none
  reviewVerdict : String
  commits : Option ℕ := none
  regressions : Option ℕ := none
deriving DecidableEq, Repr

structure PrIntent where
  why : String
  whatChanged : String
  verification : String
  conventions : String
deriving DecidableEq, Repr

/-- What ends a line for `$` in a multi-line pattern. -/
def isLineTerminator (c : Char) : Bool := c.toNat ∈ [0x0A, 0x0D, 0x2028, 0x2029]

/-- Drop the blanks before the end of each line. -/
def stripLineEnds (cs : List Char) : List Char :=
  cs.foldr (fun c rest =>
    if (c = ' ' ∨ c = '\t') ∧ rest.head?.all isLineTerminator then rest else c :: rest) []

/-- A body without blanks at the ends of its lines or around it; the author's lines stay. -/
def normalizeBody (body : Option String) : String :=
  match body with
  | none => ""
  | some body => Js.trimString (String.ofList (stripLineEnds body.toList))

def plural (n : ℕ) (noun : String) : String := s!"{n} {noun}" ++ if n = 1 then "" else "s"

def mergeStatLine (intent : MergeIntent) : String :=
  match intent.commits, intent.regressions with
  | some commits, some regressions =>
    plural commits "commit" ++ " · " ++ plural regressions "regression" ++ " vs baseline."
  | _, _ => ""

def renderMergeMessage (intent : MergeIntent) : String :=
  let header :=
    s!"merge({intent.branch}): {Js.trimString intent.summary}  " ++
      s!"[reviewed: {Js.trimString intent.reviewVerdict}]"
  let body := " ".intercalate ([normalizeBody intent.body, mergeStatLine intent].filter (· ≠ ""))
  if body ≠ "" then header ++ "\n\n" ++ body else header

def renderPrMessage (intent : PrIntent) : String :=
  "\n\n".intercalate [
    "## Why", normalizeBody (some intent.why),
    "## What changed", normalizeBody (some intent.whatChanged),
    "## Verification", normalizeBody (some intent.verification),
    "## Conventions", normalizeBody (some intent.conventions)]

/-! ## The repo-mode gate -/

structure PublishRequest where
  branch : String
  into : String
  message : String
  repoCwd : String
deriving DecidableEq, Repr

structure PublishResult where
  merged : Bool
  commitSha : String
  mode : RepoMode
deriving DecidableEq, Repr

structure EnactPushRequest where
  branch : String
  into : String
  repoCwd : String
  remote : Option String := none
deriving DecidableEq, Repr

structure EnactPushResult where
  pushed : Bool
  remote : String
  mode : RepoMode
deriving DecidableEq, Repr

structure EnactPrMergeRequest where
  branch : String
  into : String
  title : String
  description : String
  repoCwd : String
deriving DecidableEq, Repr

structure EnactPrMergeResult where
  prUrl : String
  mode : RepoMode
deriving DecidableEq, Repr

/-- What the repository and its host answer when reviewed work is published. -/
structure RepoModeGate where
  enactPublish : PublishRequest → RepoMode → Except String PublishResult
  enactPush : EnactPushRequest → RepoMode → Except String EnactPushResult
  enactPrMerge : EnactPrMergeRequest → RepoMode → Except String EnactPrMergeResult

end Orchestration.Worktrees
