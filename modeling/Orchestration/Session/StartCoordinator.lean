import Orchestration.Dispatch.Balancer
import Orchestration.Dispatch.Store
import Orchestration.Mail.Idempotency
import Orchestration.Roles.Store
import Orchestration.Worktrees.Sling
import Orchestration.Worktrees.Teardown

/-!
# Starting a root coordinator

The operator starts a coordinator from a prompt or a draft spec: its sandbox is
cut, a kickoff is mailed to it, its seat is placed, and it is entered in the
roster. A start that fails on the way takes the sandbox and the kickoff back.
The kickoff carries a key that depends on the coordinator alone, so that a
repeated start does not mail it twice.
-/

namespace Orchestration.Session

open Fallible Transaction
open Dispatch Roles Worktrees
open Mail (OPERATOR MailEnvelope DeliveredMail KeyedAs outstandingForRecipient)

/-! ## What a start is called with -/

structure StartCoordinatorSessionParams where
  projectId : String
  repoCwd : String
  prompt : Option String := none
  specBody : Option String := none
  base : Option String := none
  coordinatorId : Option String := none
  name : Option String := none
deriving DecidableEq, Repr

/-- The dispatch configuration of a project, as the readers of the config store resolve it. -/
structure RootDispatchConfig where
  enabledProviders : Except String (List Provider)
  workSize : Except String WorkSize
  reasoningBudget : Except String ReasoningBudget
  pins : Except String PinTable
  models : Except String ModelOverrides

/-- The faults that strike the git commands of a start. -/
structure StartFaults where
  sling : SlingFaults := {}
  remove : Option Git.Fault := none
  branchDelete : Option Git.Fault := none

structure StartCoordinatorSessionDeps (File : Type) where
  sling : SlingDeps File
  js : Js.Runtime
  /-- `coord-root-` and the first eight hex digits of the SHA-256 digest of the project id. -/
  rootCoordinatorId : String → String
  config : String → RootDispatchConfig
  delivery : Mail.Delivery := .inProcess
  fs : SandboxFs := {}
  faults : StartFaults := {}

structure StartCoordinatorSessionResult where
  coordinator : String
  worktreePath : String
  branch : String
  baseRef : String
  baseSha : String
deriving DecidableEq, Repr

/-! ## The kickoff -/

/-- The thread of the one-shot kickoffs of an agent. -/
def turnKickoffCorrelationId (agent : String) : String := "turn-kickoff:" ++ agent

/-- A daemon kickoff, not an ordinary clarify. -/
def isTurnKickoffMail (mail : DeliveredMail) : Bool :=
  mail.type == .clarifyRequest && mail.causationId.isNone &&
    mail.correlationId == some (turnKickoffCorrelationId mail.recipient)

/-- The kickoff of a coordinator. -/
def kickoffEnvelope (coordinator : String) (fromPrompt : Bool) (body : String) : MailEnvelope where
  type := .clarifyRequest
  «to» := coordinator
  «from» := OPERATOR
  subject := if fromPrompt then "Operator kickoff" else "Operator kickoff (draft spec)"
  body
  correlationId := some (turnKickoffCorrelationId coordinator)
  idempotencyKey := some ("kickoff:" ++ coordinator)

/-! ## The placement -/

def defaultProviderAccounts : List (Provider × String) :=
  [(.claude, accountForProvider .claude), (.codex, accountForProvider .codex)]

def rootCoordinatorSyntheticResetAt : String := "9999-12-31T23:59:59.999Z"

/-- An account that the root may be placed on, whatever its usage. -/
def rootCandidate (account : Provider × String) : ProviderHeadroom where
  provider := account.1
  account := account.2
  available := true
  headroom := .known 0 rootCoordinatorSyntheticResetAt

/-- The placement of the root: a start by the operator is not gated by usage. -/
def rootCoordinatorPlacement (js : Js.Runtime) (projectId : String) (config : RootDispatchConfig) :
    Except String PlacementDecided := do
  let enabled ← config.enabledProviders
  let accounts := defaultProviderAccounts.filter fun account => enabled.contains account.1
  refuse (accounts = [])
    ("startCoordinatorSession: no enabled provider account is available for root coordinator " ++
      s!"placement (project '{projectId}').")
  let workSize ← config.workSize
  let reasoningBudget ← config.reasoningBudget
  let pins ← config.pins
  let models ← config.models
  let input : PlaceAgentInput := {
    role := "coordinator"
    workSize
    reasoningBudget
    pins
    candidates := accounts.map rootCandidate
    nowMs := 0
    modelOverrides := some models }
  match placeAgent js input with
  | .noCandidate reason _ _ =>
    throw s!"startCoordinatorSession: could not place root coordinator: {reason}"
  | .pinned placement _ | .floating placement _ _ =>
    return .placed
      { role := "coordinator", workSize, reasoningBudget }
      { provider := placement.provider
        account := some placement.account
        model := placement.model
        effort := placement.effort
        context := placement.context }

/-! ## The start -/

section

variable {File : Type} (deps : StartCoordinatorSessionDeps File)
  (params : StartCoordinatorSessionParams)

def trimmed (text : Option String) : String := String.ofList (Js.trim (text.getD "").toList)

/-- The text that the coordinator is started from. -/
def kickoffText : String :=
  if (trimmed params.prompt).isEmpty then trimmed params.specBody else trimmed params.prompt

def coordinatorOf : String := params.coordinatorId.getD (deps.rootCoordinatorId params.projectId)

/-- Exactly one text to start from, and a project with a repository. -/
def assertStartParams : Except String Unit := do
  refuse ((trimmed params.prompt).isEmpty = (trimmed params.specBody).isEmpty)
    ("startCoordinatorSession: exactly one of `prompt` / `specBody` is required " ++
      "(Principle 9 — fail loud; a root coordinator is started from a prompt OR a draft spec).")
  refuse (params.projectId.isEmpty ∨ params.repoCwd.isEmpty)
    "startCoordinatorSession: `projectId` and `repoCwd` are both required."

/-- The sandbox of the root. -/
def rootSling : SlingParams where
  parent := OPERATOR
  agent := some (coordinatorOf deps params)
  role := some "coordinator"
  branch := coBranchPrefix ++ coordinatorOf deps params
  base := params.base
  repoCwd := params.repoCwd
  projectId := params.projectId

/-- Mail the kickoff. -/
def sendKickoff : HostProc File DeliveredMail :=
  onStore (Mail.MailStore.send deps.delivery
    (kickoffEnvelope (coordinatorOf deps params) (!(trimmed params.prompt).isEmpty)
      (kickoffText params)))

/-- Place the root and enter it in the roster. -/
def placeAndRegister : HostProc File Unit := do
  let coordinator := coordinatorOf deps params
  let placement ← rootCoordinatorPlacement deps.js params.projectId (deps.config params.projectId)
  let _ ← onStore (transaction (recordPlacement coordinator placement))
  let _ ← onStore (transaction (recordAgent
    { agentId := coordinator, role := .coordinator, parent := OPERATOR, name := params.name }))

/-- Take the sandbox and the branch of a failed start back. -/
def cleanupFailedStartWorktree : HostProc File (List String) := do
  let branch := (rootSling deps params).branch
  let removeErrors ← attempt s!"remove root worktree '{branch}'" do
    let _ ← removeSandbox
      { repoCwd := params.repoCwd
        projectDataDir := deps.sling.projectDataDir params.projectId
        fs := deps.fs
        force := true
        fault := deps.faults.remove } branch
  let deleteErrors ← attempt s!"git branch -D '{branch}'"
    (gitExec params.repoCwd ["branch", "-D", branch]
      (Git.Repo.branchDelete deps.faults.branchDelete branch))
  return removeErrors ++ deleteErrors

/-- Withdraw the kickoff of a failed start, if it got that far. -/
def retractStartKickoff (kickoff : Option DeliveredMail) : HostProc File (List String) :=
  match kickoff with
  | none => return []
  | some kickoff => attempt s!"retract root kickoff seq {kickoff.seq}" do
      let _ ← onStore (Mail.MailStore.retract deps.delivery OPERATOR kickoff.seq)

/-- The `catch`: clean up, and throw. -/
def abandonStart {α : Type} (kickoff : Option DeliveredMail) (cause : String) : HostProc File α := do
  let worktreeErrors ← cleanupFailedStartWorktree deps params
  let kickoffErrors ← retractStartKickoff deps kickoff
  throwWithRollbackErrors "startCoordinatorSession: setup failed" cause
    (worktreeErrors ++ kickoffErrors)

/-- Start a root coordinator. -/
def startCoordinatorSession : HostProc File StartCoordinatorSessionResult := do
  assertStartParams params
  let slung ← slingWorktree deps.sling (rootSling deps params) deps.faults.sling
  let kickoff ← tryCatch (sendKickoff deps params) (abandonStart deps params none)
  tryCatch (placeAndRegister deps params) (abandonStart deps params (some kickoff))
  return {
    coordinator := coordinatorOf deps params
    worktreePath := slung.worktreePath
    branch := slung.branch
    baseRef := slung.baseRef
    baseSha := slung.baseSha }

/-! ## What a start leaves behind -/

/-- The daemon can drive the coordinator: it has a sandbox, a seat, a place in the roster, and a
kickoff to answer. -/
structure Drivable (coordinator text : String) (host : Host File) : Prop where
  worktree : ∃ row, selectWorktree host.db.worktrees (coBranchPrefix ++ coordinator) = some row ∧
    row.removed = false ∧ row.agent = some coordinator ∧
    ∃ w, host.repo.worktrees.find? row.path = some w ∧
      w.branch = some (coBranchPrefix ++ coordinator)
  placed : ∃ row ∈ host.db.placement.placements.rows, row.agent = coordinator ∧
    ∃ seat placed, row.decided = .placed seat placed
  registered : ∃ row, selectAgent host.db.roster coordinator = some row ∧ row.parent = OPERATOR
  kickoff : ∃ mail ∈ outstandingForRecipient host.db.mail coordinator,
    isTurnKickoffMail mail = true ∧ mail.sender = OPERATOR ∧ mail.body = text

variable {deps params} {host host' : Host File}

theorem onStore_eq_ok {α : Type} {p : StoreProc α} {a : α} :
    onStore p host = (.ok a, host') ↔ p host.db = (.ok a, host'.db) ∧ host'.repo = host.repo := by
  constructor
  · intro h
    obtain ⟨hok, rfl⟩ := Prod.mk.inj h
    exact ⟨Prod.ext hok rfl, rfl⟩
  · intro h
    obtain ⟨hok, hrepo⟩ := h
    rw [onStore, Proc.exec, hok, ← hrepo]

/-- The `catch` throws. -/
theorem abandonStart_ne_ok {α : Type} {kickoff : Option DeliveredMail} {cause : String} {a : α} :
    abandonStart deps params kickoff cause host ≠ (.ok a, host') := by
  intro h
  obtain ⟨worktreeErrors, cleaned, -, h⟩ := Proc.bind_eq_ok.1 h
  obtain ⟨kickoffErrors, retracted, -, h⟩ := Proc.bind_eq_ok.1 h
  obtain ⟨e, hthrow⟩ := throwWithRollbackErrors_apply (α := α)
    "startCoordinatorSession: setup failed" cause (worktreeErrors ++ kickoffErrors) retracted
  cases hthrow.symm.trans h

/-- The root is placed on a seat. -/
theorem rootCoordinatorPlacement_eq_ok {js : Js.Runtime} {projectId : String}
    {config : RootDispatchConfig} {decided : PlacementDecided}
    (h : rootCoordinatorPlacement js projectId config = .ok decided) :
    ∃ seat placed, decided = .placed seat placed := by
  obtain ⟨enabled, -, h⟩ := bind_eq_ok.1 h
  obtain ⟨_, -, h⟩ := bind_eq_ok.1 h
  obtain ⟨workSize, -, h⟩ := bind_eq_ok.1 h
  obtain ⟨reasoningBudget, -, h⟩ := bind_eq_ok.1 h
  obtain ⟨pins, -, h⟩ := bind_eq_ok.1 h
  obtain ⟨models, -, h⟩ := bind_eq_ok.1 h
  dsimp only at h
  split at h
  · cases h
  · cases h
    exact ⟨_, _, rfl⟩
  · cases h
    exact ⟨_, _, rfl⟩

/-- Placing and registering the root leaves its mail and its sandbox alone. -/
theorem placeAndRegister_eq_ok {u : Unit} (h : placeAndRegister deps params host = (.ok u, host')) :
    host'.repo = host.repo ∧ host'.db.mail = host.db.mail ∧
      host'.db.worktrees = host.db.worktrees ∧
      (∃ row ∈ host'.db.placement.placements.rows, row.agent = coordinatorOf deps params ∧
        ∃ seat placed, row.decided = .placed seat placed) ∧
      ∃ row, selectAgent host'.db.roster (coordinatorOf deps params) = some row ∧
        row.parent = OPERATOR := by
  obtain ⟨decided, hdecided, h⟩ := Proc.liftM_bind_eq_ok.1 h
  obtain ⟨_, placed, hplace, h⟩ := Proc.bind_eq_ok.1 h
  obtain ⟨_, registered, hregister, h⟩ := Proc.bind_eq_ok.1 h
  obtain rfl : registered = host' := (Prod.mk.inj h).2
  obtain ⟨hplace, hrepo⟩ := onStore_eq_ok.1 hplace
  obtain ⟨hregister, hrepo'⟩ := onStore_eq_ok.1 hregister
  rw [transaction_eq_ok] at hplace hregister
  have hdispatch := recordPlacement_spec hplace
  have hroster := recordAgent_spec hregister
  have hother : ∀ s e, DispatchEvents s e → e.payload.projector ≠ .mail ∧
      e.payload.projector ≠ .worktrees := by
    rintro s e ⟨payload, hpayload⟩
    rw [hpayload]
    cases payload <;> exact ⟨nofun, nofun⟩
  have hroles : ∀ s e, RosterEvents s e → e.payload.projector = .roster := by
    rintro s e ⟨payload, hpayload⟩
    rw [hpayload]
    rfl
  have hmail : placed.db.mail = host.db.mail :=
    hdispatch.same (p := .mail) fun s e he => (hother s e he).1
  have hworktrees : placed.db.worktrees = host.db.worktrees :=
    hdispatch.same (p := .worktrees) fun s e he => (hother s e he).2
  have hmail' : registered.db.mail = placed.db.mail :=
    hroster.same (p := .mail) fun s e he => by rw [hroles s e he]; nofun
  have hworktrees' : registered.db.worktrees = placed.db.worktrees :=
    hroster.same (p := .worktrees) fun s e he => by rw [hroles s e he]; nofun
  have hplacement : registered.db.placement = placed.db.placement :=
    hroster.same (p := .placement) fun s e he => by rw [hroles s e he]; nofun
  refine ⟨hrepo'.trans hrepo, hmail'.trans hmail, hworktrees'.trans hworktrees, ?_, ?_⟩
  · obtain ⟨row, hrow, -, hagent, hseat⟩ := placement_of_recorded hplace
    obtain ⟨seat, account, rfl⟩ := rootCoordinatorPlacement_eq_ok hdecided
    exact ⟨row, hplacement ▸ hrow, hagent, _, _, hseat⟩
  · obtain ⟨row, hrow, hparent, -⟩ := selectAgent_of_recorded hregister
    exact ⟨row, hrow, hparent⟩

/-- No mail carries the kickoff's key, open or closed; or the coordinator still has a kickoff with
this very text to answer. -/
def KickoffFree (coordinator text : String) (db : Db) : Prop :=
  (∀ row ∈ db.mail.inbox, ¬ KeyedAs (kickoffEnvelope coordinator true text) row) ∨
    ∃ mail ∈ outstandingForRecipient db.mail coordinator,
      isTurnKickoffMail mail = true ∧ mail.sender = OPERATOR ∧ mail.body = text

/-- The key is the same for a prompt and for a draft spec. -/
theorem keyedAs_kickoffEnvelope {coordinator text : String} {fromPrompt : Bool}
    {row : DeliveredMail} : KeyedAs (kickoffEnvelope coordinator fromPrompt text) row ↔
      KeyedAs (kickoffEnvelope coordinator true text) row := by
  constructor
  · intro h
    exact ⟨h.isSome, h.key, h.recipient, h.sender, h.type⟩
  · intro h
    exact ⟨h.isSome, h.key, h.recipient, h.sender, h.type⟩

/-- A kickoff that was added is there to answer. -/
theorem kickoff_outstanding {t : Mail.MailTables} {coordinator text : String} {fromPrompt : Bool}
    {seq ts : ℕ}
    (h : Mail.deliveredRow (kickoffEnvelope coordinator fromPrompt text) seq ts ∈ t.inbox) :
    ∃ mail ∈ outstandingForRecipient t coordinator,
      isTurnKickoffMail mail = true ∧ mail.sender = OPERATOR ∧ mail.body = text := by
  refine ⟨_, List.mem_filter.2 ⟨h, ?_⟩, ?_, rfl, rfl⟩
  · have hkind : (Mail.deliveredRow (kickoffEnvelope coordinator fromPrompt text) seq ts).kind =
        .actionable := rfl
    rw [hkind]
    simp [Mail.deliveredRow, kickoffEnvelope]
  · simp [Mail.deliveredRow, kickoffEnvelope, isTurnKickoffMail]

/-- After the kickoff was sent, the coordinator has it to answer just where the send could add it,
or found it open. -/
theorem sendKickoff_eq_ok {mail : DeliveredMail}
    (h : sendKickoff deps params host = (.ok mail, host')) :
    host'.repo = host.repo ∧ host'.db.worktrees = host.db.worktrees ∧
      ((∃ mail ∈ outstandingForRecipient host'.db.mail (coordinatorOf deps params),
          isTurnKickoffMail mail = true ∧ mail.sender = OPERATOR ∧
            mail.body = kickoffText params) ↔
        KickoffFree (coordinatorOf deps params) (kickoffText params) host.db) := by
  obtain ⟨hsend, hrepo⟩ := onStore_eq_ok.1 h
  refine ⟨hrepo, ?_⟩
  cases Mail.send_eq_ok hsend with
  | inl hfound =>
    obtain ⟨hsame, hold⟩ := hfound
    rw [hsame]
    refine ⟨rfl, ?_⟩
    constructor
    · exact .inr
    · intro hfree
      cases hfree with
      | inr hopen => exact hopen
      | inl hnone =>
        rw [Mail.existingForKey_eq_none_iff.2 fun row hrow hkeyed =>
          hnone row hrow (keyedAs_kickoffEnvelope.1 hkeyed)] at hold
        cases hold
  | inr hadded =>
    obtain ⟨hfresh, rfl, hmem, hemits⟩ := hadded
    refine ⟨hemits.same (p := .worktrees) fun s e he => by rw [he]; nofun, ?_⟩
    constructor
    · intro _
      refine .inl fun row hrow hkeyed => ?_
      exact Mail.existingForKey_eq_none_iff.1 hfresh row hrow (keyedAs_kickoffEnvelope.2 hkeyed)
    · intro _
      exact kickoff_outstanding hmem

/-- A start that returns leaves the coordinator drivable just where its kickoff could be added, or
was open already. -/
theorem started_drivable_iff {result : StartCoordinatorSessionResult}
    (h : startCoordinatorSession deps params host = (.ok result, host')) :
    Drivable (coordinatorOf deps params) (kickoffText params) host' ↔
      KickoffFree (coordinatorOf deps params) (kickoffText params) host.db := by
  obtain ⟨_, -, h⟩ := Proc.liftM_bind_eq_ok.1 h
  obtain ⟨slung, cut, hsling, h⟩ := Proc.bind_eq_ok.1 h
  obtain ⟨kickoff, mailed, hkickoff, h⟩ := Proc.bind_eq_ok.1 h
  obtain ⟨_, placed, hplace, h⟩ := Proc.bind_eq_ok.1 h
  obtain rfl : placed = host' := (Prod.mk.inj h).2
  have hkickoff : sendKickoff deps params cut = (.ok kickoff, mailed) := by
    cases Proc.tryCatch_eq_ok.1 hkickoff with
    | inl hsent => exact hsent
    | inr habandoned =>
      obtain ⟨e, failed, -, habandoned⟩ := habandoned
      exact absurd habandoned abandonStart_ne_ok
  have hplace : placeAndRegister deps params mailed = (.ok (), placed) := by
    cases Proc.tryCatch_eq_ok.1 hplace with
    | inl hplaced => exact hplaced
    | inr habandoned =>
      obtain ⟨e, failed, -, habandoned⟩ := habandoned
      exact absurd habandoned abandonStart_ne_ok
  obtain ⟨hslung, hemits, row, hrow, hlive, hagent, hpath⟩ := slingWorktree_eq_ok hsling
  obtain ⟨hrepo, hworktrees, hopen⟩ := sendKickoff_eq_ok hkickoff
  obtain ⟨hrepo', hmail, hworktrees', hseat, hregistered⟩ := placeAndRegister_eq_ok hplace
  have hmail' : cut.db.mail = host.db.mail :=
    hemits.same (p := .mail) fun s e he => by rw [he]; nofun
  have hfree : KickoffFree (coordinatorOf deps params) (kickoffText params) cut.db ↔
      KickoffFree (coordinatorOf deps params) (kickoffText params) host.db := by
    rw [KickoffFree, hmail', KickoffFree]
  rw [← hfree, ← hopen]
  constructor
  · intro hdrivable
    have hkickoff := hdrivable.kickoff
    rw [hmail] at hkickoff
    exact hkickoff
  · intro hkickoff
    refine ⟨⟨row, ?_, hlive, hagent, ?_⟩, hseat, hregistered, ?_⟩
    · rw [hworktrees', hworktrees]
      exact hrow
    · rw [hrepo', hrepo, hpath]
      exact hslung.registered
    · rw [hmail]
      exact hkickoff

end

/-! ## A start, and a second one -/

/-- A start of a project in which these providers are enabled. -/
def plainStart (enabled : List Provider) : StartCoordinatorSessionDeps String where
  sling := plainDeps
  js := {
    dateParse := fun _ => none
    localeCompare := fun a b => compare a b
    numberText := fun _ => "0" }
  rootCoordinatorId projectId := "coord-root-" ++ projectId
  config _ := {
    enabledProviders := .ok enabled
    workSize := .ok .average
    reasoningBudget := .ok .standard
    pins := .ok []
    models := .ok fun _ _ => none }

def writeParser : StartCoordinatorSessionParams where
  projectId := "p"
  repoCwd := "/repo"
  prompt := some "write the parser"
  base := some "main"

/-- A project that was never started. -/
def newProject : Host String where
  db := .atRest
  repo := leftBranch.repo.setHead "co/feature" none

/-- The first start on a new project leaves its coordinator drivable. -/
theorem started_drivable_iff_of_newProject : ∃ result host',
    startCoordinatorSession (plainStart [.claude]) writeParser newProject = (.ok result, host') ∧
      Drivable "coord-root-p" "write the parser" host' := by
  have hstarts : (startCoordinatorSession (plainStart [.claude]) writeParser
      newProject).1.toOption.isSome = true := by decide +kernel
  have hempty : newProject.db.mail.inbox = [] := rfl
  have hcoordinator : coordinatorOf (plainStart [.claude]) writeParser = "coord-root-p" := by
    decide +kernel
  have htext : kickoffText writeParser = "write the parser" := by decide +kernel
  cases hrun : startCoordinatorSession (plainStart [.claude]) writeParser newProject with
  | mk result host' =>
    rw [hrun] at hstarts
    obtain ⟨result, rfl⟩ := exists_eq_ok hstarts
    refine ⟨result, host', rfl, ?_⟩
    have hfree : KickoffFree (coordinatorOf (plainStart [.claude]) writeParser)
        (kickoffText writeParser) newProject.db := by
      refine .inl fun row hrow => ?_
      rw [hempty] at hrow
      cases hrow
    have hdrivable := (started_drivable_iff hrun).2 hfree
    rw [hcoordinator, htext] at hdrivable
    exact hdrivable

/-- The project after a start that no provider could take, and that was rolled back. -/
def rolledBackProject : Host String :=
  (startCoordinatorSession (plainStart []) writeParser).exec newProject

/-- The second start finds the kickoff that the first one withdrew, and returns without another. -/
theorem restarted_without_kickoff :
    (startCoordinatorSession (plainStart []) writeParser newProject).1.toOption = none ∧
    ∃ result host',
      startCoordinatorSession (plainStart [.claude]) writeParser rolledBackProject =
        (.ok result, host') ∧
      coordinatorOf (plainStart [.claude]) writeParser = "coord-root-p" ∧
      outstandingForRecipient host'.db.mail "coord-root-p" = [] ∧
      ¬ Drivable "coord-root-p" "write the parser" host' := by
  have hstarts : (startCoordinatorSession (plainStart [.claude]) writeParser
      rolledBackProject).1.toOption.isSome = true := by decide +kernel
  have hidle : outstandingForRecipient ((startCoordinatorSession (plainStart [.claude])
      writeParser).exec rolledBackProject).db.mail "coord-root-p" = [] := by decide +kernel
  refine ⟨by decide +kernel, ?_⟩
  cases hrun : startCoordinatorSession (plainStart [.claude]) writeParser rolledBackProject with
  | mk result host' =>
    rw [hrun] at hstarts
    rw [Proc.exec, hrun] at hidle
    obtain ⟨result, rfl⟩ := exists_eq_ok hstarts
    refine ⟨result, host', rfl, by decide +kernel, hidle, fun hdrivable => ?_⟩
    obtain ⟨mail, hmail, -⟩ := hdrivable.kickoff
    rw [hidle] at hmail
    cases hmail

end Orchestration.Session
