import Orchestration.Dispatch.Events
import Orchestration.Library.Table

/-!
# The usage read model

The latest sample of each window of a provider's account, and the latest status
of each account. An unavailable account keeps its windows, which its status then
shadows; a sample without a window forgets them.
-/

namespace Orchestration.Dispatch

open Fallible

/-- A row of `usage_buckets`. -/
structure UsageBucketRow where
  provider : Provider
  account : String
  windowKind : String
  usedPct : Float
  resetAt : String
  source : String
  sampledAt : String
  ts : ℕ
deriving DecidableEq, Repr

def UsageBucketRow.key (row : UsageBucketRow) : Provider × String × String :=
  (row.provider, row.account, row.windowKind)

/-- A row of `usage_accounts`. -/
structure UsageAccountRow where
  provider : Provider
  account : String
  available : Bool
  reason : Option String
  source : String
  sampledAt : String
  ts : ℕ
deriving DecidableEq, Repr

def UsageAccountRow.key (row : UsageAccountRow) : Provider × String := (row.provider, row.account)

structure UsageTables where
  buckets : Table UsageBucketRow.key := {}
  accounts : Table UsageAccountRow.key := {}

def selectUsageBucket (t : UsageTables) (provider : Provider) (account windowKind : String) :
    Option UsageBucketRow :=
  t.buckets.find? (provider, account, windowKind)

def selectUsageAccount (t : UsageTables) (provider : Provider) (account : String) :
    Option UsageAccountRow :=
  t.accounts.find? (provider, account)

/-- The provider that the label of an account begins with. `slice(0, indexOf(':'))` cuts the last
code unit when there is no colon, so a label that ends in a surrogate pair is no provider's. -/
def inferredProvider (account : String) : Option Provider :=
  let cs := account.toList
  let name :=
    if ':' ∈ cs then some (cs.takeWhile (· ≠ ':'))
    else if (cs.getLast?.map (·.toNat)).getD 0 < 0x10000 then some cs.dropLast
    else none
  match name.map String.ofList with
  | some "claude" => some .claude
  | some "codex" => some .codex
  | _ => none

/-- A sample lives in the stream of its account; the streams of older builds leave the provider
out. -/
def validateUsageEnvelope (event : StoredEvent DispatchEvent) (payload : UsageObserved) :
    Except String Unit := do
  let expected := usageScope s!"{payload.provider}:{payload.account}"
  if event.scope = expected then return
  else if event.scope = usageScope payload.account then
    whenSome (inferredProvider payload.account) fun provider =>
      refuse (provider ≠ payload.provider)
        (s!"usage-projector: legacy usage scope '{event.scope}' conflicts with payload " ++
          s!"provider '{payload.provider}'")
  else
    throw (s!"usage-projector: usage scope '{event.scope}' does not match payload identity " ++
      s!"'{expected}'")

/-- The latest status of an account stands. -/
def upsertAccount (t : UsageTables) (row : UsageAccountRow) : UsageTables :=
  { t with
    accounts := t.accounts.upsert row
      { run := fun old => { row with provider := old.provider, account := old.account } } }

/-- The first real sample of a provider removes the placeholders of its other accounts. -/
def removeSeedAccountsForProvider (t : UsageTables) (provider : Provider)
    (observedAccount source : String) : UsageTables :=
  if source = ACCOUNT_STATUS_SEED_SOURCE then t
  else
    { t with
      accounts := t.accounts.filter fun row =>
        !(row.provider == provider && row.account != observedAccount &&
          row.source == ACCOUNT_STATUS_SEED_SOURCE) }

/-- Fold the window of an available sample; without one the account's windows are forgotten. -/
def applyUsageWindow (t : UsageTables) (obs : UsageObservedAvailable) (ts : ℕ) : UsageTables :=
  match obs.windowKind, obs.usedPct, obs.resetAt with
  | some windowKind, some usedPct, some resetAt =>
    let row : UsageBucketRow := {
      provider := obs.provider
      account := obs.account
      windowKind
      usedPct
      resetAt
      source := obs.source
      sampledAt := obs.sampledAt
      ts }
    { t with
      buckets := t.buckets.upsert row
        { run := fun old => { row with
            provider := old.provider, account := old.account, windowKind := old.windowKind } } }
  | _, _, _ =>
    { t with
      buckets := t.buckets.filter fun row =>
        !(row.provider == obs.provider && row.account == obs.account) }

/-- The usage projector: fold one decoded sample into its tables. -/
def UsageProjector.apply (t : UsageTables) (event : StoredEvent DispatchEvent)
    (payload : UsageObserved) : Except String UsageTables := do
  validateUsageEnvelope event payload
  match payload with
  | .available obs =>
    let t := upsertAccount (applyUsageWindow t obs event.ts) {
      provider := obs.provider
      account := obs.account
      available := true
      reason := none
      source := obs.source
      sampledAt := obs.sampledAt
      ts := event.ts }
    return removeSeedAccountsForProvider t obs.provider obs.account obs.source
  | .unavailable obs =>
    let t := upsertAccount t {
      provider := obs.provider
      account := obs.account
      available := false
      reason := some obs.reason
      source := obs.source
      sampledAt := obs.sampledAt
      ts := event.ts }
    return removeSeedAccountsForProvider t obs.provider obs.account obs.source

end Orchestration.Dispatch
