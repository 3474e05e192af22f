import Mathlib.Data.List.Dedup
import Mathlib.Data.Rat.Defs
import Orchestration.Mail.Escalation

/-!
# The clarify-timeout tick

On every cadence the conductor looks at the clarify requests that its candidates
raised and still wait for. It starts a clock for each one it has not seen, and
passes one whose clock has run out on to its holder's parent.
-/

namespace Orchestration.Conductor

open Fallible Transaction
open Mail (DeliveredMail Delivery waitingItems forwardOnTimeout)

/-- An agent as the conductor hosts it. -/
structure HostedIdentity where
  projectId : String
  agent : String
deriving DecidableEq, Repr

/-- When the conductor first saw a clarify unanswered. -/
structure ClarifyClock where
  key : String
  firstSeen : ℚ
deriving DecidableEq, Repr

/-- The conductor's clocks, and the stores of the projects that it opens. -/
structure Engine where
  stores : String → Db
  clarifyFirstSeen : Table ClarifyClock.key

/-- A conductor that has just started. -/
def Engine.started (stores : String → Db) : Engine where
  stores
  clarifyFirstSeen := {}

abbrev EngineProc (α : Type) := Proc Engine String α

structure ConductorEngineDeps where
  clarifyTimeoutSeconds : String → ℚ
  /-- The delivery of the mail stores that the conductor opens. -/
  delivery : Delivery := .inProcess

/-! ## Clocks -/

/-- What the keys of an agent's clocks begin with. -/
def clarifyScope (identity : HostedIdentity) : String :=
  identity.projectId ++ ":" ++ identity.agent ++ ":"

def clarifyKey (identity : HostedIdentity) (seq : ℕ) : String :=
  clarifyScope identity ++ toString seq

namespace Engine

/-- `clarifyFirstSeen.get(key)`. -/
def getClock (engine : Engine) (key : String) : Option ℚ :=
  (engine.clarifyFirstSeen.find? key).map ClarifyClock.firstSeen

/-- `clarifyFirstSeen.set(key, observedAt)`. -/
def setClock (engine : Engine) (key : String) (observedAt : ℚ) : Engine :=
  { engine with
    clarifyFirstSeen := engine.clarifyFirstSeen.upsert { key, firstSeen := observedAt }
      { run := fun clock => { clock with firstSeen := observedAt } } }

/-- `clarifyFirstSeen.delete(key)`. -/
def deleteClock (engine : Engine) (key : String) : Engine :=
  { engine with clarifyFirstSeen := engine.clarifyFirstSeen.filter (·.key != key) }

/-- A clock of the agent whose clarify is no longer waited for. -/
def stale (identity : HostedIdentity) (currentWaitingKeys : List String) (key : String) : Bool :=
  (clarifyScope identity).toList.isPrefixOf key.toList && !currentWaitingKeys.contains key

/-- Drop the agent's stale clocks. -/
def pruneClocks (engine : Engine) (identity : HostedIdentity) (currentWaitingKeys : List String) :
    Engine :=
  { engine with
    clarifyFirstSeen :=
      engine.clarifyFirstSeen.filter fun clock => !stale identity currentWaitingKeys clock.key }

/-- The stores of one project in another state. -/
def setStore (engine : Engine) (projectId : String) (db : Db) : Engine :=
  { engine with stores := Function.update engine.stores projectId db }

variable {engine : Engine} {key k : String} {t : ℚ}

@[simp] theorem stores_setClock : (engine.setClock key t).stores = engine.stores := rfl

@[simp] theorem stores_deleteClock : (engine.deleteClock key).stores = engine.stores := rfl

@[simp] theorem stores_pruneClocks {identity : HostedIdentity} {keys : List String} :
    (engine.pruneClocks identity keys).stores = engine.stores := rfl

@[simp] theorem getClock_setStore {projectId : String} {db : Db} :
    (engine.setStore projectId db).getClock k = engine.getClock k := rfl

theorem stores_setStore {projectId : String} {db : Db} :
    (engine.setStore projectId db).stores projectId = db := Function.update_self ..

theorem stores_setStore_of_ne {projectId p : String} {db : Db} (h : p ≠ projectId) :
    (engine.setStore projectId db).stores p = engine.stores p := Function.update_of_ne h ..

theorem getClock_setClock :
    (engine.setClock key t).getClock k = if k = key then some t else engine.getClock k := by
  unfold getClock setClock
  dsimp only
  rw [Table.find?_upsert]
  by_cases hk : k = key
  · rw [if_pos hk, if_pos hk]
    cases engine.clarifyFirstSeen.find? k with
    | none => rfl
    | some clock => rfl
  · rw [if_neg hk, if_neg hk]

/-- The clocks that an update of the table by their keys keeps. -/
theorem getClock_filter (engine : Engine) (p : String → Bool) (k : String) :
    (Table.find? (engine.clarifyFirstSeen.filter fun clock => p clock.key) k).map
      ClarifyClock.firstSeen = if p k then engine.getClock k else none := by
  rw [Table.find?_filter, getClock]
  cases hclock : engine.clarifyFirstSeen.find? k with
  | none => simp
  | some clock =>
    obtain rfl : clock.key = k := (Table.find?_eq_some.1 hclock).2
    cases hp : p clock.key with
    | true => simp [hp]
    | false => simp [hp]

theorem getClock_deleteClock :
    (engine.deleteClock key).getClock k = if k = key then none else engine.getClock k := by
  have hkept := engine.getClock_filter (fun k => k != key) k
  rw [getClock, deleteClock, hkept]
  by_cases hk : k = key
  · simp [hk]
  · simp [hk]

theorem getClock_pruneClocks {identity : HostedIdentity} {keys : List String} :
    (engine.pruneClocks identity keys).getClock k =
      if stale identity keys k then none else engine.getClock k := by
  have hkept := engine.getClock_filter (fun k => !stale identity keys k) k
  rw [getClock, pruneClocks, hkept]
  cases stale identity keys k with
  | true => rfl
  | false => rfl

end Engine

/-- A call of the stores of one project. -/
def onProject {α : Type} (projectId : String) (p : StoreProc α) : EngineProc α := fun engine =>
  ((p (engine.stores projectId)).1,
    engine.setStore projectId (p.exec (engine.stores projectId)))

/-- A change of the clocks. -/
def onClocks (change : Engine → Engine) : EngineProc Unit := fun engine => (.ok (), change engine)

/-! ## The tick -/

section

variable (deps : ConductorEngineDeps) (observedAt : ℚ)

/-- How long a clarify of the project may go unanswered, in milliseconds. -/
def timeoutMs (projectId : String) : ℚ := deps.clarifyTimeoutSeconds projectId * 1000

/-- Start the clock of a clarify, or forward it once the clock has run out. -/
def tickItem (identity : HostedIdentity) (unanswered : DeliveredMail) :
    EngineProc (List DeliveredMail) := do
  let key := clarifyKey identity unanswered.seq
  match ← (fun engine => (.ok (engine.getClock key), engine) : EngineProc (Option ℚ)) with
  | none =>
    onClocks (·.setClock key observedAt)
    return []
  | some firstSeen =>
    if timeoutMs deps identity.projectId ≤ observedAt - firstSeen then
      let forwarded ← onProject identity.projectId (forwardOnTimeout deps.delivery unanswered)
      onClocks (·.deleteClock key)
      return [forwarded]
    else return []

/-- Every clarify that one agent waits for. -/
def tickAgent (identity : HostedIdentity) : EngineProc (List DeliveredMail) := do
  let waiting ← onProject identity.projectId
    (transaction (Mail.reading (waitingItems · identity.agent)))
  let forwarded ← Proc.collect (tickItem deps observedAt identity) waiting
  onClocks (·.pruneClocks identity
    (waiting.map fun unanswered => clarifyKey identity unanswered.seq))
  return forwarded

/-- The entries without repetitions, in the order in which they first appear. -/
def firsts {α : Type} [DecidableEq α] (entries : List α) : List α := entries.reverse.dedup.reverse

/-- The candidates by project; projects, and the agents of one, as they first appear. -/
def agentsByProject (candidates : List HostedIdentity) : List HostedIdentity :=
  (firsts (candidates.map HostedIdentity.projectId)).flatMap fun projectId =>
    firsts (candidates.filter (·.projectId = projectId))

/-- Forward the clarifies that the candidates have waited for too long. -/
def tickClarifyTimeouts (candidates : List HostedIdentity) : EngineProc (List DeliveredMail) :=
  Proc.collect (tickAgent deps observedAt) (agentsByProject candidates)

/-- A cadence of the daemon: the clarify tick, then the reconcile sweep. -/
def cadence {α : Type} (reconcile : EngineProc α) (candidates : List HostedIdentity) :
    EngineProc (List DeliveredMail × α) := do
  let clarifyForwarded ← tickClarifyTimeouts deps observedAt candidates
  let reconciled ← reconcile
  return (clarifyForwarded, reconciled)

end

end Orchestration.Conductor
