import Mathlib.Tactic.Common

/-!
# The event envelope

An event is what a store operation appends to the project log. The payload type
is a parameter: each domain folds events whose payload is one of its own, and
the project log carries their sum. An event's type is the constructor of its
payload.
-/

namespace Orchestration

/-- What a caller supplies to append; the store assigns `seq` and `ts`. -/
structure NewEvent (α : Type) where
  scope : String
  v : ℕ
  payload : α
  actor : Option String := none
  causationId : Option String := none
  correlationId : Option String := none
  idempotencyKey : Option String := none
deriving DecidableEq, Repr

/-- A persisted event as it lives in the log. -/
structure StoredEvent (α : Type) extends NewEvent α where
  seq : ℕ
  ts : ℕ
deriving DecidableEq, Repr

/-- The same envelope around another payload. -/
def NewEvent.withPayload {α β : Type} (event : NewEvent α) (payload : β) : NewEvent β :=
  { event with payload }

/-- The same envelope around another payload. -/
def StoredEvent.withPayload {α β : Type} (event : StoredEvent α) (payload : β) :
    StoredEvent β :=
  { event with payload }

/-- What follows `head` in `text`, when `text` starts with it. -/
def afterPrefix? (head text : String) : Option String :=
  if head.toList.isPrefixOf text.toList then
    some (String.ofList (text.toList.drop head.toList.length))
  else none

@[simp] theorem afterPrefix?_append (head tail : String) :
    afterPrefix? head (head ++ tail) = some tail := by
  simp [afterPrefix?]

theorem eq_append_of_afterPrefix? {head text tail : String}
    (h : afterPrefix? head text = some tail) : text = head ++ tail := by
  unfold afterPrefix? at h
  split at h
  · next hprefix =>
    obtain ⟨rest, hrest⟩ := List.isPrefixOf_iff_prefix.1 hprefix
    cases h
    apply String.ext
    simp [← hrest]
  · exact nomatch h

/-- The schema check `z.string().min(1)` of the field `path`. -/
def minLength1 (path value : String) : Except String Unit :=
  if value = "" then throw s!"{path}: Too small: expected string to have >=1 characters"
  else pure ()

@[simp] theorem minLength1_eq_ok {path value : String} {u : Unit} :
    minLength1 path value = .ok u ↔ value ≠ "" := by
  by_cases h : value = "" <;> simp [minLength1, h, throw, throwThe, MonadExceptOf.throw, pure,
    Except.pure]

/-- An event whose version is past the current one was written by a newer build. No event
type of the project has an upcaster, so version 1 is current and its payload is read as it
was stored. -/
def upcast {α : Type} (typeName : String) (fromV : ℕ) (payload : α) : Except String α :=
  if fromV > 1 then
    throw s!"upcast: unsupported future event version for type '{typeName}': v{fromV} > current v1"
  else pure payload

@[simp] theorem upcast_eq_ok {α : Type} {typeName : String} {fromV : ℕ} {payload payload' : α} :
    upcast typeName fromV payload = .ok payload' ↔ fromV ≤ 1 ∧ payload = payload' := by
  by_cases h : fromV > 1
  · simp [upcast, h, throw, throwThe, MonadExceptOf.throw, Nat.not_le.2 h]
  · simp [upcast, h, pure, Except.pure, Nat.le_of_not_lt h]

end Orchestration
