import Mathlib.Data.List.Basic
import Mathlib.Data.List.Infix

/-!
# Serial chains

Tasks that are chained one behind the other: at most one of them runs, the
others wait in the order they came. What a chain has done is the list of its
marks, and two things are read off from it: which tasks are under way, and in
which order tasks were started.
-/

namespace Serial

variable {α : Type}

/-- A chain of tasks. -/
structure Chain (α : Type) where
  running : Option α := none
  waiting : List α := []
deriving DecidableEq, Repr

/-- What happens to a task. -/
inductive Mark (α : Type) where
  | enqueued (task : α)
  | started (task : α)
  | settled (task : α)
deriving DecidableEq, Repr

namespace Chain

/-- The tasks of the chain that did not settle. -/
def tasks (chain : Chain α) : List α := chain.running.toList ++ chain.waiting

/-- Put a task behind all others. -/
def enqueue (task : α) (chain : Chain α) : Chain α :=
  { chain with waiting := chain.waiting ++ [task] }

@[simp] theorem running_enqueue (task : α) (chain : Chain α) :
    (chain.enqueue task).running = chain.running := rfl

@[simp] theorem waiting_enqueue (task : α) (chain : Chain α) :
    (chain.enqueue task).waiting = chain.waiting ++ [task] := rfl

@[simp] theorem tasks_enqueue (task : α) (chain : Chain α) :
    (chain.enqueue task).tasks = chain.tasks ++ [task] := by
  simp [tasks]

end Chain

/-- The tasks in the order they were enqueued. -/
def enqueues (marks : List (Mark α)) : List α :=
  marks.filterMap fun
    | .enqueued task => some task
    | _ => none

/-- The tasks in the order they were started. -/
def starts (marks : List (Mark α)) : List α :=
  marks.filterMap fun
    | .started task => some task
    | _ => none

section

variable [DecidableEq α]

/-- The tasks under way after a mark. -/
def trackInFlight (inFlight : List α) : Mark α → List α
  | .enqueued _ => inFlight
  | .started task => inFlight ++ [task]
  | .settled task => inFlight.erase task

/-- The tasks that were started and did not settle yet. -/
def inFlight (marks : List (Mark α)) : List α := marks.foldl trackInFlight []

end

/-! ## One mark more -/

variable {marks : List (Mark α)} {task : α}

@[simp] theorem enqueues_nil : enqueues ([] : List (Mark α)) = [] := rfl

@[simp] theorem starts_nil : starts ([] : List (Mark α)) = [] := rfl

@[simp] theorem enqueues_enqueued : enqueues (marks ++ [.enqueued task]) = enqueues marks ++ [task] := by
  simp [enqueues]

@[simp] theorem enqueues_started : enqueues (marks ++ [.started task]) = enqueues marks := by
  simp [enqueues]

@[simp] theorem enqueues_settled : enqueues (marks ++ [.settled task]) = enqueues marks := by
  simp [enqueues]

@[simp] theorem starts_enqueued : starts (marks ++ [.enqueued task]) = starts marks := by
  simp [starts]

@[simp] theorem starts_started : starts (marks ++ [.started task]) = starts marks ++ [task] := by
  simp [starts]

@[simp] theorem starts_settled : starts (marks ++ [.settled task]) = starts marks := by
  simp [starts]

section

variable [DecidableEq α]

@[simp] theorem inFlight_nil : inFlight ([] : List (Mark α)) = [] := rfl

@[simp] theorem inFlight_concat (marks : List (Mark α)) (mark : Mark α) :
    inFlight (marks ++ [mark]) = trackInFlight (inFlight marks) mark := by
  simp [inFlight]

/-! ## What the marks say of a chain -/

/-- The chain is what its marks leave: those enqueued and not started wait, in that order, and
the one under way runs. -/
structure Explains (marks : List (Mark α)) (chain : Chain α) : Prop where
  order : enqueues marks = starts marks ++ chain.waiting
  running : inFlight marks = chain.running.toList

theorem Explains.nil : Explains ([] : List (Mark α)) {} := ⟨rfl, rfl⟩

theorem Explains.enqueue {chain : Chain α} (h : Explains marks chain) (task : α) :
    Explains (marks ++ [.enqueued task]) (chain.enqueue task) where
  order := by
    rw [enqueues_enqueued, starts_enqueued, h.order, Chain.waiting_enqueue, List.append_assoc]
  running := by
    rw [inFlight_concat, Chain.running_enqueue]
    exact h.running

theorem Explains.start {rest : List α} (h : Explains marks ⟨none, task :: rest⟩) :
    Explains (marks ++ [.started task]) ⟨some task, rest⟩ where
  order := by
    rw [enqueues_started, starts_started, h.order, List.append_assoc]
    rfl
  running := by
    rw [inFlight_concat, h.running]
    rfl

theorem Explains.settle {waiting : List α} (h : Explains marks ⟨some task, waiting⟩) :
    Explains (marks ++ [.settled task]) ⟨none, waiting⟩ where
  order := by rw [enqueues_settled, starts_settled, h.order]
  running := by
    rw [inFlight_concat, h.running]
    simp [trackInFlight]

/-- Tasks are started in the order they were enqueued. -/
theorem Explains.inOrder {chain : Chain α} (h : Explains marks chain) :
    starts marks <+: enqueues marks :=
  ⟨chain.waiting, h.order.symm⟩

/-- Nothing is under way where a chain starts its next task. -/
theorem Explains.idle {waiting : List α} (h : Explains marks ⟨none, waiting⟩) :
    inFlight marks = [] := h.running

/-- What comes first in an initial part comes first in the whole, in the same order. -/
theorem eraseDups_mono {xs ys : List α} (h : xs <+: ys) : xs.eraseDups <+: ys.eraseDups := by
  obtain ⟨rest, rfl⟩ := h
  rw [List.eraseDups_append]
  exact List.prefix_append _ _

end

end Serial
