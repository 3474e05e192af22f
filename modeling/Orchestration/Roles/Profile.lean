import Orchestration.Roles.Events

/-!
# Role profiles

What each base role may do, and how the sub-roles narrow it.
-/

namespace Orchestration.Roles

/-- What a role is allowed to write. -/
inductive WriteScope where
  | delegates
  | code
  | readOnlyForCode
  | nothing
deriving DecidableEq, Repr

inductive Capability where
  | webSearch
deriving DecidableEq, Repr

structure RoleProfile where
  baseRole : Role
  writeScope : WriteScope
  toolset : List String
  capabilities : List Capability
deriving DecidableEq, Repr

def UNIVERSAL : List String :=
  ["co_orient", "co_status", "co_mail_inbox", "co_mail_get", "co_mail_thread", "co_mail_send",
    "co_mail_ack", "co_spec_get", "co_issue_capture", "co_issue_list", "co_research_get"]

/-- The permission profile of each base role. -/
def ROLE_PROFILES : Role → RoleProfile
  | .coordinator => {
    baseRole := .coordinator
    writeScope := .delegates
    toolset := UNIVERSAL ++ ["co_mail_retract", "co_spec_draft", "co_spec_archive",
      "co_plan_ingest", "co_phase_status", "co_phase_update", "co_task_complete", "co_sling",
      "co_kickback", "co_merge", "co_push", "co_pr_merge", "co_issue_file"]
    capabilities := [] }
  | .lead => {
    baseRole := .lead
    writeScope := .delegates
    toolset := UNIVERSAL ++ ["co_mail_retract", "co_worktree_info", "co_phase_status", "co_sling",
      "co_finish", "co_merge", "co_kickback", "co_push", "co_pr_merge", "co_issue_file"]
    capabilities := [] }
  | .implementer => {
    baseRole := .implementer
    writeScope := .code
    toolset := UNIVERSAL ++ ["co_mail_retract", "co_worktree_info", "co_finish", "co_sling"]
    capabilities := [] }
  | .reviewer => {
    baseRole := .reviewer
    writeScope := .readOnlyForCode
    toolset := UNIVERSAL ++ ["co_worktree_info", "co_review_finalize"]
    capabilities := [] }
  | .researcher => {
    baseRole := .researcher
    writeScope := .nothing
    toolset := UNIVERSAL ++ ["co_issue_diagnose", "co_research_finalize"]
    capabilities := [.webSearch] }

def BASE_ROLES : List Role := [.coordinator, .lead, .implementer, .reviewer, .researcher]

/-- The verbs that a role drives its mandate with. -/
def lifecycleVerbsFor : Role → List String
  | .coordinator => ["co_spec_draft", "co_spec_archive", "co_plan_ingest", "co_phase_update",
    "co_task_complete", "co_sling", "co_kickback", "co_merge", "co_push", "co_pr_merge",
    "co_issue_file"]
  | .lead => ["co_sling", "co_finish", "co_merge", "co_kickback", "co_push", "co_pr_merge",
    "co_issue_file"]
  | .implementer => ["co_finish", "co_sling"]
  | .reviewer => ["co_review_finalize"]
  | .researcher => ["co_issue_diagnose", "co_research_finalize"]

/-- Every verb of a role is a tool of it. -/
theorem lifecycleVerbs_subset (role : Role) :
    lifecycleVerbsFor role ⊆ (ROLE_PROFILES role).toolset := by
  cases role <;> decide

/-! ## Sub-roles -/

structure SubRoleSpec where
  baseRole : Role
  name : String
  approach : String
  profile : RoleProfile
deriving DecidableEq, Repr

/-- A researcher without the web. -/
def researcherNoWebProfile : RoleProfile := { ROLE_PROFILES .researcher with capabilities := [] }

/-- The shipped sub-roles, with their profiles. -/
def SUB_ROLE_SPECS : List SubRoleSpec := [
  { baseRole := .implementer, name := "code", profile := ROLE_PROFILES .implementer
    approach := "implementation-first: write the change, then write tests that lock the " ++
      "decisions in against regression — tests follow code" },
  { baseRole := .implementer, name := "test", profile := ROLE_PROFILES .implementer
    approach := "test-first: write the test that captures the contract or reproduces the bug, " ++
      "watch it fail, then fix until it passes — code follows tests" },
  { baseRole := .implementer, name := "docs", profile := ROLE_PROFILES .implementer
    approach := "docs-only scope: touch only documentation files; do not modify production " ++
      "code or tests" },
  { baseRole := .implementer, name := "polish", profile := ROLE_PROFILES .implementer
    approach := "behavior-preserving cleanup: refactor for clarity, remove dead code, improve " ++
      "naming — test counts must match before and after" },
  { baseRole := .reviewer, name := "feature", profile := ROLE_PROFILES .reviewer
    approach := "feature review: assess architecture fit, completeness, and consistency with " ++
      "existing conventions" },
  { baseRole := .reviewer, name := "bugfix", profile := ROLE_PROFILES .reviewer
    approach := "bugfix review: verify the bug is fixed, check for regressions against the " ++
      "baseline, and assess scope creep" },
  { baseRole := .reviewer, name := "pr", profile := ROLE_PROFILES .reviewer
    approach := "PR review: external or random change with no in-house baseline to lean on — " ++
      "apply full scrutiny without assumed context" },
  { baseRole := .researcher, name := "codebase", profile := researcherNoWebProfile
    approach := "codebase locator: answer questions about repo structure, symbols, and " ++
      "call-graphs using only local search tools — no web search" },
  { baseRole := .researcher, name := "external", profile := ROLE_PROFILES .researcher
    approach := "external researcher: answer questions that require fetching information from " ++
      "the web using web-search tools" },
  { baseRole := .researcher, name := "diagnostic", profile := researcherNoWebProfile
    approach := "diagnostic researcher: trace bug root causes using only local signals — logs, " ++
      "traces, and code; no web search" },
  { baseRole := .researcher, name := "decision", profile := researcherNoWebProfile
    approach := "decision researcher: synthesize a cited, evidence-based answer to a scoped " ++
      "architectural or design question using only local sources; no web search" }]

/-- The names of the sub-roles are the ones that a registration accepts. -/
theorem names_subRoleSpecs : SUB_ROLE_SPECS.map (fun s => (s.baseRole, s.name)) = SUB_ROLES := rfl

def findSubRoleSpec (baseRole : Role) (name : String) : Option SubRoleSpec :=
  SUB_ROLE_SPECS.find? fun s => s.baseRole = baseRole ∧ s.name = name

/-- Whether an agent may reach the web. -/
def roleMayResearchWeb (role : Option Role) (subRole : Option String) : Bool :=
  match role, subRole with
  | some role, some subRole =>
    (findSubRoleSpec role subRole).any fun s => s.profile.capabilities.contains .webSearch
  | _, _ => false

/-! ## The base prompt -/

structure RoleBasePromptOptions where
  subRole : Option String := none
  subRoleApproach : Option String := none

/-- The first line of the prompt. -/
def openingLine (role : Role) : String :=
  s!"You are a co-orchestrated {role} working as one agent in a team."

/-- How a role works with the others. -/
def coordinationLines : List String := [
  "Coordinate only through typed, threaded mail — act solely as yourself, never on another",
  "agent’s behalf. Start by reading your inbox and acknowledging what you read.",
  "Call \x60co_orient\x60 for your role’s lifecycle, and trust the tool schemas as the only syntax",
  "reference. When you are blocked or intent is genuinely ambiguous, ask the agent above you and",
  "wait — do not guess, and do not drop a blocker silently; end your turn when waiting so " ++
    "replies arrive in your next inbox."]

/-- The verbs that a role may have to look for. -/
def deferredLines (role : Role) : List String :=
  let lifecycle := lifecycleVerbsFor role
  let verbs := ", ".intercalate lifecycle
  if lifecycle.length > 0 then
    [s!"Your lifecycle verbs ({verbs}) may be deferred behind tool_search — " ++
      "tool_search and load them up front before acting."]
  else []

def subRoleLines (role : Role) (options : RoleBasePromptOptions) : List String :=
  match options.subRole, options.subRoleApproach with
  | some subRole, some approach => [s!"Sub-role focus ({role}:{subRole}): {approach}."]
  | _, _ => []

def verdictLines (role : Role) : List String :=
  if role = .reviewer then
    ["Reviewer verdicts are recorded with co_review_finalize using the review id from " ++
      "your kickoff; PASS requires a verification marker, ISSUES requires at least one named " ++
      "blocker, and a mailed PASS is not a recorded verdict."]
  else []

/-- The prompt of a pane. -/
def roleBasePrompt (role : Role) (options : RoleBasePromptOptions := {}) : String :=
  "\n".intercalate (openingLine role :: (coordinationLines ++ deferredLines role ++
    subRoleLines role options ++ verdictLines role))

theorem head_openingLine (role : Role) : (openingLine role).toList.head? = some 'Y' := by
  have hopen : ∀ name : String, ("You are a co-orchestrated " ++ name ++
      " working as one agent in a team.").toList.head? = some 'Y' := by simp
  exact hopen (toString role)

/-- The prompt begins with its first line. -/
theorem head_roleBasePrompt (role : Role) (options : RoleBasePromptOptions) :
    (roleBasePrompt role options).toList.head? = some 'Y' := by
  have hopen := head_openingLine role
  rw [roleBasePrompt, String.toList_intercalate, List.map_cons]
  generalize coordinationLines ++ deferredLines role ++ subRoleLines role options ++
    verdictLines role = rest
  cases rest with
  | nil => simpa using hopen
  | cons next rest =>
    rw [List.map_cons, List.intercalate_cons_cons, List.append_assoc, List.head?_append, hopen]
    rfl

end Orchestration.Roles
