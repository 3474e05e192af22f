import Orchestration.Store.Event

/-!
# Review verdicts

A verdict is `PASS` or `ISSUES`. An `ISSUES` verdict names what blocks, a `PASS`
verdict blocks nothing, and a machine-verified `PASS` carries the marker of the
commands that were run.
-/

namespace Orchestration.Review

inductive Verdict where
  | pass
  | issues
deriving DecidableEq, Repr

instance : ToString Verdict where
  toString
    | .pass => "PASS"
    | .issues => "ISSUES"

structure Blocker where
  summary : String
deriving DecidableEq, Repr

structure Suggestion where
  summary : String
deriving DecidableEq, Repr

inductive SuiteResult where
  | pass
  | fail
deriving DecidableEq, Repr

structure VerificationMarker where
  commandsRun : List String
  suiteResult : SuiteResult
  baselineCompared : Bool
deriving DecidableEq, Repr

/-- An `ISSUES` verdict names at least one blocker and a `PASS` verdict names none. -/
def assertValidVerdict (verdict : Verdict) (blockers : List Blocker) : Except String Unit :=
  match verdict, blockers with
  | .issues, [] =>
    throw ("review verdict: an ISSUES verdict must name at least one blocker (AC-L5-1 — an ISSUES " ++
      "with no named blocker is the banned rubber-stamp inverse; Principle 9).")
  | .pass, _ :: _ =>
    throw (s!"review verdict: a PASS verdict must carry zero blockers (got {blockers.length}); a " ++
      "PASS with a blocker is a contradiction (AC-L5-1).")
  | _, _ => pure ()

end Orchestration.Review
