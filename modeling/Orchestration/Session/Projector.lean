import Orchestration.Dispatch.Events
import Orchestration.Library.Table

/-!
# Sessions

One row for each agent that a pane hosts at the moment. An agent has at most one
active session, and a pane hosts at most one agent.
-/

namespace Orchestration.Session

open Fallible
open Dispatch (Provider)

def sessionScope (agentId : String) : String := "session:" ++ agentId

/-- What a provider needs to resume a session. -/
inductive ResumeHandle where
  | claude (sessionId : String)
  | codex (codexHome : String)
deriving DecidableEq, Repr

def ResumeHandle.provider : ResumeHandle → Provider
  | claude _ => .claude
  | codex _ => .codex

structure SessionCreated where
  agentId : String
  pane : String
  cwd : String
  provider : Provider
  resume : ResumeHandle
deriving DecidableEq, Repr

structure SessionEnded where
  agentId : String
  pane : String
deriving DecidableEq, Repr

/-- What a session event carries. -/
inductive SessionEvent where
  | created (rec : SessionCreated)
  | ended (rec : SessionEnded)
deriving DecidableEq, Repr

def SessionEvent.typeName : SessionEvent → String
  | created _ => "session.created"
  | ended _ => "session.ended"

def resumeHandleSchema : ResumeHandle → Except String Unit
  | .claude sessionId => minLength1 "resume.sessionId" sessionId
  | .codex codexHome => minLength1 "resume.codexHome" codexHome

def sessionCreatedSchema (rec : SessionCreated) : Except String Unit := do
  minLength1 "agentId" rec.agentId
  minLength1 "pane" rec.pane
  minLength1 "cwd" rec.cwd
  resumeHandleSchema rec.resume
  refuse (rec.resume.provider ≠ rec.provider)
    "resume.provider must match provider (fail-loud: Principle 9)"

def sessionEndedSchema (rec : SessionEnded) : Except String Unit := do
  minLength1 "agentId" rec.agentId
  minLength1 "pane" rec.pane

/-- The payload schema of each session event, checked on append and on every read. -/
def sessionSchemas (event : SessionEvent) : Except String SessionEvent := do
  match event with
  | .created rec => sessionCreatedSchema rec
  | .ended rec => sessionEndedSchema rec
  return event

/-- A built event carries exactly what the schema accepted. -/
theorem sessionSchemas_eq {event event' : SessionEvent} (h : sessionSchemas event = .ok event') :
    event' = event := by
  unfold sessionSchemas at h
  cases event <;> simp only [bind_eq_ok, pure_eq_ok] at h <;> grind

def makeSessionCreatedEvent (rec : SessionCreated) : Except String (NewEvent SessionEvent) := do
  sessionCreatedSchema rec
  return { scope := sessionScope rec.agentId, v := 1, payload := .created rec, actor := rec.agentId }

def makeSessionEndedEvent (rec : SessionEnded) : Except String (NewEvent SessionEvent) := do
  sessionEndedSchema rec
  return { scope := sessionScope rec.agentId, v := 1, payload := .ended rec, actor := rec.agentId }

/-- A row of `sessions`. -/
structure SessionRecord where
  agentId : String
  pane : String
  cwd : String
  provider : Provider
  resume : ResumeHandle
  createdTs : ℕ
deriving DecidableEq, Repr

structure SessionTables where
  sessions : Table SessionRecord.agentId := {}

def selectSession (t : SessionTables) (agentId : String) : Option SessionRecord :=
  t.sessions.find? agentId

def selectSessionByPane (t : SessionTables) (pane : String) : Option SessionRecord :=
  t.sessions.rows.find? (·.pane = pane)

/-- Fold a new session; `pane` is unique as well. -/
def applySessionCreated (t : SessionTables) (ts : ℕ) (rec : SessionCreated) :
    Except String SessionTables := do
  whenSome (selectSession t rec.agentId) fun existing =>
    throw (s!"session-projector: agent '{rec.agentId}' already has an active session " ++
      s!"'{existing.pane}' — refusing duplicate host '{rec.pane}'.")
  whenSome (selectSessionByPane t rec.pane) fun existingPane =>
    throw (s!"session-projector: pane '{rec.pane}' is already hosted by agent " ++
      s!"'{existingPane.agentId}' — refusing duplicate pane claim by '{rec.agentId}'.")
  let sessions ← orThrow
    (t.sessions.insert? {
      agentId := rec.agentId
      pane := rec.pane
      cwd := rec.cwd
      provider := rec.provider
      resume := rec.resume
      createdTs := ts })
    "UNIQUE constraint failed: sessions.agent_id"
  return { t with sessions }

/-- Fold the end of a session. -/
def applySessionEnded (t : SessionTables) (rec : SessionEnded) : Except String SessionTables := do
  let existing ← orThrow (selectSession t rec.agentId)
    s!"session-projector: agent '{rec.agentId}' has no active session to end."
  refuse (existing.pane ≠ rec.pane)
    (s!"session-projector: pane '{rec.pane}' does not match active session '{existing.pane}' " ++
      s!"for agent '{rec.agentId}'.")
  return { t with sessions := t.sessions.filter (·.agentId != rec.agentId) }

/-- The session projector: fold one decoded event. -/
def SessionProjector.apply (t : SessionTables) (event : StoredEvent SessionEvent) :
    Except String SessionTables :=
  match event.payload with
  | .created rec => applySessionCreated t event.ts rec
  | .ended rec => applySessionEnded t rec

end Orchestration.Session
