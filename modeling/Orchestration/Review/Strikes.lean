import Orchestration.Mail.Escalation

/-!
# The strike policy

Every `ISSUES` verdict costs its branch a strike. Below the budget the branch is kicked
back to its worker; from the budget on the loop stops, and the spawning parent hears of it
through one escalation. The notification goes out before the strike is recorded, so that a
failed delivery does not consume the signal.
-/

namespace Orchestration.Review

open Fallible Transaction
open Orchestration.Mail (Delivery ParentResolver DeliveredMail)

/-- What the loop does with a branch after one more strike. -/
inductive ReviewAction where
  | kickback
  | escalate
deriving DecidableEq, Repr

def nextReviewAction (strikeCount budget : ℕ) : ReviewAction :=
  if budget ≤ strikeCount then .escalate else .kickback

structure StrikeNotificationPlan where
  action : ReviewAction
  strikeCount : ℕ
  fireEscalation : Bool
  reason : String
  target : String
  branch : String
deriving DecidableEq, Repr

/-- The verdict a call answers. -/
structure StrikeEnforcementContext where
  reviewId : String
  target : String
  branch : String
  blockers : List Blocker
deriving DecidableEq, Repr

structure StrikeEnforcementDeps where
  mail : Delivery
  resolver : ParentResolver
  agentId : String
  budget : ℕ
  /-- Takes over the notification of the plan, if there is one. -/
  beforeRecordStrike : Option (StrikeNotificationPlan → StoreProc Unit) := none

inductive StrikePolicyAction where
  | took (action : ReviewAction)
  | alreadyStruck
deriving DecidableEq, Repr

structure EscalationRequest where
  «from» : String
  subject : String
  body : String
  idempotencyKey : Option String := none

/-- Raise an escalation to the parent of its sender. -/
def escalate (mail : Delivery) (resolver : ParentResolver) (req : EscalationRequest) :
    StoreProc DeliveredMail := do
  let parent ← resolver req.from
  Mail.MailStore.send mail {
    type := .escalation
    «to» := parent
    «from» := req.from
    subject := req.subject
    body := req.body
    idempotencyKey := req.idempotencyKey }

/-- The blockers of a verdict, as the strike records them. -/
def strikeReason (blockers : List Blocker) : String :=
  if blockers = [] then "ISSUES verdict (no named blockers)"
  else "; ".intercalate (blockers.map (·.summary))

/-- The plan for the next strike of a branch. -/
def planStrike (budget strikeCount : ℕ) (ctx : StrikeEnforcementContext) :
    StrikeNotificationPlan :=
  let action := nextReviewAction strikeCount budget
  { action
    strikeCount
    fireEscalation := action = .escalate ∧ strikeCount = budget
    reason := strikeReason ctx.blockers
    target := ctx.target
    branch := ctx.branch }

/-- Tell those concerned of a planned strike: through the hook, or by the one escalation. -/
def notifyStrike (deps : StrikeEnforcementDeps) (ctx : StrikeEnforcementContext)
    (plan : StrikeNotificationPlan) : StoreProc Unit := do
  match deps.beforeRecordStrike with
  | some hook => hook plan
  | none =>
    if plan.fireEscalation then
      let _ ← escalate deps.mail deps.resolver {
        «from» := deps.agentId
        subject := s!"review strike budget reached for '{ctx.branch}' into '{ctx.target}' " ++
          s!"({plan.strikeCount}/{deps.budget})"
        body := s!"The branch '{ctx.branch}' has accumulated {plan.strikeCount} consecutive " ++
          s!"ISSUES verdict(s) (budget: {deps.budget}) into '{ctx.target}'. The review loop " ++
          s!"stops kicking back. Blockers: {plan.reason}."
        idempotencyKey := some
          s!"review-strike-escalation:{ctx.target}:{ctx.branch}:{ctx.reviewId}" }

/-- Plan the strike of an `ISSUES` verdict, notify, and record it. -/
def applyStrikePolicy (deps : StrikeEnforcementDeps) (ctx : StrikeEnforcementContext) :
    StoreProc StrikePolicyAction := do
  if ← transaction (reading (selectReviewStrike · ctx.target ctx.branch ctx.reviewId)) then
    return .alreadyStruck
  else
    let strikes ← transaction (reading (selectStrikeCount · ctx.target ctx.branch))
    let plan := planStrike deps.budget (strikes + 1) ctx
    notifyStrike deps ctx plan
    transaction (recordStrike {
      reviewId := ctx.reviewId
      target := ctx.target
      branch := ctx.branch
      reason := plan.reason })
    return .took plan.action

/-! ## The hook of a kickback -/

/-- What `co_kickback` knows when it strikes a branch. -/
structure Kickback where
  mail : Delivery
  resolver : ParentResolver
  agent : String
  worker : String
  budget : ℕ
  latestVerdict : ReviewVerdictRecord
  suggestions : List String

/-- The items of a kickback mail, numbered from one. -/
def numbered (items : List String) : String :=
  "\n".intercalate (items.zipIdx.map fun (item, i) => s!"  {i + 1}. {item}")

/-- A kickback tells the worker below the budget, and the parent once at the budget. -/
def Kickback.beforeRecordStrike (k : Kickback) (plan : StrikeNotificationPlan) :
    StoreProc Unit := do
  let strikeKey := s!"{k.latestVerdict.target}:{k.latestVerdict.branch}:{k.latestVerdict.reviewId}"
  match plan.action with
  | .kickback =>
    let suggestions := k.latestVerdict.suggestions.map (·.summary) ++ k.suggestions
    let blockerLines := numbered (k.latestVerdict.blockers.map (·.summary))
    let suggestionLines :=
      if suggestions ≠ [] then "\n\nSuggestions (non-blocking):\n" ++ numbered suggestions else ""
    let _ ← Mail.MailStore.send k.mail {
      type := .chat
      «to» := k.worker
      «from» := k.agent
      subject := s!"kickback: {k.latestVerdict.branch}"
      body := s!"Branch '{k.latestVerdict.branch}' has been kicked back (strike " ++
        s!"{plan.strikeCount}).\n\nBlockers:\n{blockerLines}{suggestionLines}\n\nAddress all " ++
        "blockers and submit a fresh worker_done to close this round."
      idempotencyKey := some s!"kickback:{strikeKey}" }
  | .escalate =>
    if plan.fireEscalation then
      let _ ← escalate k.mail k.resolver {
        «from» := k.agent
        subject := s!"review strike budget reached for '{plan.branch}' into '{plan.target}' " ++
          s!"({plan.strikeCount}/{k.budget})"
        body := s!"The branch '{plan.branch}' has accumulated {plan.strikeCount} consecutive " ++
          s!"ISSUES verdict(s) (budget: {k.budget}) into '{plan.target}'. The review loop " ++
          s!"stops kicking back. Blockers: {plan.reason}."
        idempotencyKey := some s!"review-strike-escalation:{strikeKey}" }

/-- The policy as `co_kickback` applies it to its latest verdict. -/
def Kickback.deps (k : Kickback) : StrikeEnforcementDeps where
  mail := k.mail
  resolver := k.resolver
  agentId := k.agent
  budget := k.budget
  beforeRecordStrike := some k.beforeRecordStrike

def Kickback.ctx (k : Kickback) : StrikeEnforcementContext where
  reviewId := k.latestVerdict.reviewId
  target := k.latestVerdict.target
  branch := k.latestVerdict.branch
  blockers := k.latestVerdict.blockers

end Orchestration.Review
