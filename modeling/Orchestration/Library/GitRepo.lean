import Mathlib.Logic.Function.Basic
import Orchestration.Library.Table
import Orchestration.Library.Transaction

/-!
# A git repository and its linked worktrees

The part of a repository that commands on branches and worktrees read and write:
the branches, the checkout of the main worktree, the linked worktrees that git
has registered, and what stands in the directories. A command can be refused by
git itself, and a fault can strike it at any point; either way it throws, and
what it had done by then stays done.
-/

namespace Git

open Transaction

/-- A linked worktree in git's administration. -/
structure Worktree where
  path : String
  branch : Option String
  locked : Bool := false
deriving DecidableEq, Repr

/-- What stands in a directory: its files, and whether `git status` reports none of them. -/
structure Checkout (File : Type) where
  files : List File
  clean : Bool := true
deriving DecidableEq, Repr

/-- A repository together with the directories its worktrees can occupy. -/
structure Repo (File : Type) where
  heads : String → Option String := fun _ => none
  /-- The branch that the main worktree has checked out. -/
  head : Option String := none
  /-- What every other revision names: a tag, a remote-tracking branch, a commit. -/
  revisions : String → Option String := fun _ => none
  /-- The files of a commit. -/
  tree : String → List File := fun _ => []
  worktrees : Table Worktree.path := {}
  dirs : String → Option (Checkout File) := fun _ => none

/-- How a command fails for reasons of its own: at once, halfway, or with its work done. -/
inductive Fault where
  | before
  | midway
  | after
deriving DecidableEq, Repr

namespace Repo

variable {File : Type} {r r' : Repo File} {branch path base sha : String} {fault : Option Fault}

/-- The commit that a revision names. -/
def resolve (r : Repo File) (revision : String) : Option String :=
  (r.heads revision).or (r.revisions revision)

/-- Something stands in the way of a new worktree: one that is registered there, or files. -/
def occupied (r : Repo File) (path : String) : Bool :=
  (r.worktrees.find? path).isSome || (r.dirs path).any fun dir => !dir.files.isEmpty

/-- Some worktree has the branch checked out. -/
def inUse (r : Repo File) (branch : String) : Bool :=
  r.head == some branch || r.worktrees.rows.any (·.branch == some branch)

def setHead (r : Repo File) (branch : String) (sha : Option String) : Repo File :=
  { r with heads := Function.update r.heads branch sha }

def setDir (r : Repo File) (path : String) (dir : Option (Checkout File)) : Repo File :=
  { r with dirs := Function.update r.dirs path dir }

def register (r : Repo File) (path branch : String) : Repo File :=
  { r with worktrees := r.worktrees.upsert { path, branch } { run := fun w => { w with branch } } }

def unregister (r : Repo File) (path : String) : Repo File :=
  { r with worktrees := r.worktrees.filter (·.path != path) }

/-! ## Commands -/

/-- End a command: report the failure that struck it after its work, if one did. -/
def finish (fault : Option Fault) (r : Repo File) : Except String Unit × Repo File :=
  (if fault = some .after then .error "exit code 1" else .ok (), r)

/-- `git worktree add -b <branch> <path> <base>`: the branch is created first, then the directory,
so that an occupied path leaves the branch behind. -/
def worktreeAdd (fault : Option Fault) (branch path base : String) : Proc (Repo File) String Unit :=
  fun r =>
    if fault = some .before then (.error "exit code 1", r)
    else if (r.heads branch).isSome then
      (.error s!"fatal: a branch named '{branch}' already exists", r)
    else
      match r.resolve base with
      | none => (.error s!"fatal: invalid reference: {base}", r)
      | some sha =>
        let created := r.setHead branch (some sha)
        if r.occupied path then (.error s!"fatal: '{path}' already exists", created)
        else if fault = some .midway then (.error "exit code 1", created)
        else finish fault ((created.register path branch).setDir path (some { files := r.tree sha }))

/-- `git worktree remove [--force] <path>`: the directory goes first, then the registration. -/
def worktreeRemove (fault : Option Fault) (force : Bool) (path : String) :
    Proc (Repo File) String Unit := fun r =>
  if fault = some .before then (.error "exit code 1", r)
  else
    match r.worktrees.find? path with
    | none => (.error s!"fatal: '{path}' is not a working tree", r)
    | some w =>
      if w.locked then (.error "fatal: cannot remove a locked working tree", r)
      else if !force && (r.dirs path).any fun dir => !dir.clean then
        (.error s!"fatal: '{path}' contains modified or untracked files, use --force to delete it", r)
      else
        let emptied := r.setDir path none
        if fault = some .midway then (.error "exit code 1", emptied)
        else finish fault (emptied.unregister path)

/-- `git branch -D <branch>`. -/
def branchDelete (fault : Option Fault) (branch : String) : Proc (Repo File) String Unit := fun r =>
  if fault = some .before ∨ fault = some .midway then (.error "exit code 1", r)
  else if (r.heads branch).isNone then (.error s!"error: branch '{branch}' not found", r)
  else if r.inUse branch then
    (.error s!"error: cannot delete branch '{branch}' used by worktree", r)
  else finish fault (r.setHead branch none)

/-- A command that writes neither branches nor directories, such as `git config`. -/
def plain (fault : Option Fault) : Proc (Repo File) String Unit := fun r =>
  (if fault.isSome then .error "exit code 1" else .ok (), r)

/-! ## What a command leaves behind -/

/-- Every branch is still where it was, and every worktree that had its directory still has it. -/
structure Keeps (r r' : Repo File) : Prop where
  heads : ∀ b sha, r.heads b = some sha → r'.heads b = some sha
  worktrees : ∀ w ∈ r.worktrees.rows, ∀ dir, r.dirs w.path = some dir →
    w ∈ r'.worktrees.rows ∧ r'.dirs w.path = some dir

theorem Keeps.refl (r : Repo File) : r.Keeps r where
  heads := fun _ _ h => h
  worktrees := fun _ hw _ hdir => ⟨hw, hdir⟩

/-- Git lets `worktree remove` have an effect on this path. -/
def Removable (fault : Option Fault) (force : Bool) (path : String) (r : Repo File) : Prop :=
  fault ≠ some .before ∧ ∃ w, r.worktrees.find? path = some w ∧ w.locked = false ∧
    (force = true ∨ ∀ dir, r.dirs path = some dir → dir.clean = true)

/-- Git lets `branch -D` delete this branch. -/
def Deletable (fault : Option Fault) (branch : String) (r : Repo File) : Prop :=
  (fault ≠ some .before ∧ fault ≠ some .midway) ∧ (r.heads branch).isSome = true ∧
    r.inUse branch = false

/-- What `worktree add` can do: nothing, the branch alone, or the branch and its worktree, in
whose directory work may have gone on since. -/
inductive Added (branch path : String) (r : Repo File) : Repo File → Prop where
  | nothing : Added branch path r r
  | branch (sha : String) (hnew : r.heads branch = none) :
      Added branch path r (r.setHead branch (some sha))
  | worktree (sha : String) (dir : Option (Checkout File)) (hnew : r.heads branch = none)
      (hfree : r.occupied path = false) :
      Added branch path r (((r.setHead branch (some sha)).register path branch).setDir path dir)

theorem added_worktreeAdd (fault : Option Fault) (branch path base : String) (r : Repo File) :
    Added branch path r ((worktreeAdd fault branch path base).exec r) := by
  unfold worktreeAdd Proc.exec
  dsimp only
  by_cases hbefore : fault = some .before
  · simpa only [hbefore, if_true] using Added.nothing
  · rw [if_neg hbefore]
    cases hhead : r.heads branch with
    | some sha => simpa only [Option.isSome_some, if_true] using Added.nothing
    | none =>
      simp only [Option.isSome_none, Bool.false_eq_true, if_false]
      cases hbase : r.resolve base with
      | none => exact .nothing
      | some sha =>
        by_cases hoccupied : r.occupied path = true
        · simpa only [hoccupied, if_true] using Added.branch sha hhead
        · by_cases hmidway : fault = some .midway
          · simpa only [hoccupied, hmidway, Bool.false_eq_true, if_true, if_false]
              using Added.branch sha hhead
          · simp only [hoccupied, hmidway, Bool.false_eq_true, if_false]
            exact .worktree sha _ hhead (Bool.not_eq_true _ ▸ hoccupied)

/-- Work in the directory of the new worktree changes nothing else. -/
theorem setDir_setDir (dir dir' : Option (Checkout File)) :
    (r.setDir path dir).setDir path dir' = r.setDir path dir' := by
  simp [setDir]

/-- A successful `worktree add` made the branch and its worktree. -/
theorem worktreeAdd_ok {fault : Option Fault} {branch path base : String} {r r' : Repo File}
    (h : worktreeAdd fault branch path base r = (.ok (), r')) :
    ∃ sha, r.heads branch = none ∧ r.occupied path = false ∧
      r' = ((r.setHead branch (some sha)).register path branch).setDir path
        (some { files := r.tree sha }) := by
  unfold worktreeAdd at h
  by_cases hbefore : fault = some .before
  · simp [hbefore] at h
  · rw [if_neg hbefore] at h
    cases hhead : r.heads branch with
    | some sha => simp [hhead] at h
    | none =>
      simp only [hhead, Option.isSome_none, Bool.false_eq_true, if_false] at h
      cases hbase : r.resolve base with
      | none => simp [hbase] at h
      | some sha =>
        by_cases hoccupied : r.occupied path = true
        · simp [hbase, hoccupied] at h
        · by_cases hmidway : fault = some .midway
          · simp [hbase, hoccupied, hmidway] at h
          · simp only [hbase, hoccupied, hmidway, Bool.false_eq_true, if_false, finish,
              Prod.mk.injEq] at h
            exact ⟨sha, rfl, Bool.not_eq_true _ ▸ hoccupied, h.2.symm⟩

/-- Where git refuses to remove a worktree, nothing changes. -/
theorem worktreeRemove_of_not_removable {force : Bool} (h : ¬ Removable fault force path r) :
    (worktreeRemove fault force path).exec r = r := by
  unfold worktreeRemove Proc.exec
  dsimp only
  by_cases hbefore : fault = some .before
  · rw [if_pos hbefore]
  · rw [if_neg hbefore]
    cases hw : r.worktrees.find? path with
    | none => rfl
    | some w =>
      cases hlocked : w.locked with
      | true => simp [hlocked]
      | false =>
        have hdirty : force = false ∧ ∃ dir, r.dirs path = some dir ∧ dir.clean = false := by
          by_contra hclean
          refine h ⟨hbefore, w, hw, hlocked, ?_⟩
          cases force with
          | true => exact .inl rfl
          | false =>
            refine .inr fun dir hdir => ?_
            by_contra hne
            exact hclean ⟨rfl, dir, hdir, Bool.not_eq_true _ ▸ hne⟩
        obtain ⟨rfl, dir, hdir, hclean⟩ := hdirty
        simp [hlocked, hdir, hclean]

/-- Where it does not refuse, the directory goes, and with it the registration unless a fault
strikes in between. -/
theorem worktreeRemove_of_removable {force : Bool} (h : Removable fault force path r) :
    (worktreeRemove fault force path).exec r =
      if fault = some .midway then r.setDir path none else (r.setDir path none).unregister path := by
  obtain ⟨hbefore, w, hw, hlocked, hclean⟩ := h
  have hrefused : (!force && (r.dirs path).any fun dir => !dir.clean) = false := by
    cases hclean with
    | inl hforce => simp [hforce]
    | inr hclean =>
      cases hdir : r.dirs path with
      | none => simp
      | some dir => simp [hclean dir hdir]
  unfold worktreeRemove Proc.exec
  dsimp only
  rw [if_neg hbefore, hw]
  simp only [hlocked, hrefused, Bool.false_eq_true, if_false]
  by_cases hmidway : fault = some .midway
  · rw [if_pos hmidway, if_pos hmidway]
  · rw [if_neg hmidway, if_neg hmidway]
    rfl

theorem branchDelete_of_not_deletable (h : ¬ Deletable fault branch r) :
    (branchDelete fault branch).exec r = r := by
  unfold branchDelete Proc.exec
  dsimp only
  by_cases hfault : fault = some .before ∨ fault = some .midway
  · rw [if_pos hfault]
  · rw [if_neg hfault]
    cases hhead : r.heads branch with
    | none => rfl
    | some sha =>
      have huse : r.inUse branch = true := by
        by_contra huse
        exact h ⟨not_or.1 hfault, by rw [hhead]; rfl, Bool.not_eq_true _ ▸ huse⟩
      simp [huse]

theorem branchDelete_of_deletable (h : Deletable fault branch r) :
    (branchDelete fault branch).exec r = r.setHead branch none := by
  obtain ⟨hfault, hhead, huse⟩ := h
  obtain ⟨sha, hsha⟩ := Option.isSome_iff_exists.1 hhead
  unfold branchDelete Proc.exec
  dsimp only
  rw [if_neg (not_or.2 hfault)]
  simp [hsha, huse, finish]

/-! ## Undoing a worktree -/

/-- Only this branch and this path are touched. -/
structure Frame (branch path : String) (r r' : Repo File) : Prop where
  heads : ∀ b, b ≠ branch → r'.heads b = r.heads b
  worktrees : ∀ w ∈ r.worktrees.rows, w.path ≠ path → w ∈ r'.worktrees.rows
  dirs : ∀ p, p ≠ path → r'.dirs p = r.dirs p

namespace Frame

variable {r₁ r₂ r₃ : Repo File}

theorem refl : Frame branch path r r :=
  ⟨fun _ _ => rfl, fun _ hw _ => hw, fun _ _ => rfl⟩

theorem trans (h : Frame branch path r₁ r₂) (h' : Frame branch path r₂ r₃) :
    Frame branch path r₁ r₃ where
  heads b hb := (h'.heads b hb).trans (h.heads b hb)
  worktrees w hw hpath := h'.worktrees w (h.worktrees w hw hpath) hpath
  dirs p hp := (h'.dirs p hp).trans (h.dirs p hp)

theorem setHead (sha : Option String) : Frame branch path r (r.setHead branch sha) where
  heads _ hb := Function.update_of_ne hb _ _
  worktrees _ hw _ := hw
  dirs _ _ := rfl

theorem setDir (dir : Option (Checkout File)) : Frame branch path r (r.setDir path dir) where
  heads _ _ := rfl
  worktrees _ hw _ := hw
  dirs _ hp := Function.update_of_ne hp _ _

theorem register : Frame branch path r (r.register path branch) where
  heads _ _ := rfl
  worktrees w hw hpath := by
    have hfind : r.worktrees.find? w.path = some w := Table.find?_eq_some.2 ⟨hw, rfl⟩
    have hsame : (r.register path branch).worktrees.find? w.path = some w :=
      (Table.find?_upsert_of_ne hpath).trans hfind
    exact (Table.find?_eq_some.1 hsame).1
  dirs _ _ := rfl

theorem unregister : Frame branch path r (r.unregister path) where
  heads _ _ := rfl
  worktrees w hw hpath := Table.mem_filter.2 ⟨hw, by simpa using hpath⟩
  dirs _ _ := rfl

theorem added (h : Added branch path r r') : Frame branch path r r' := by
  cases h with
  | nothing => exact refl
  | branch sha => exact setHead _
  | worktree sha dir => exact ((setHead _).trans register).trans (setDir dir)

theorem worktreeRemove (fault : Option Fault) (force : Bool) :
    Frame branch path r ((Repo.worktreeRemove fault force path).exec r) := by
  by_cases h : Removable fault force path r
  · rw [worktreeRemove_of_removable h]
    by_cases hmidway : fault = some .midway
    · rw [if_pos hmidway]
      exact setDir none
    · rw [if_neg hmidway]
      exact (setDir none).trans unregister
  · rw [worktreeRemove_of_not_removable h]
    exact refl

theorem branchDelete (fault : Option Fault) :
    Frame branch path r ((Repo.branchDelete fault branch).exec r) := by
  by_cases h : Deletable fault branch r
  · rw [branchDelete_of_deletable h]
    exact setHead none
  · rw [branchDelete_of_not_deletable h]
    exact refl

/-- What a change of one branch and one path has to spare there. -/
theorem keeps_iff (h : Frame branch path r r') : r.Keeps r' ↔
    (∀ sha, r.heads branch = some sha → r'.heads branch = some sha) ∧
      ∀ w, r.worktrees.find? path = some w → ∀ dir, r.dirs path = some dir →
        w ∈ r'.worktrees.rows ∧ r'.dirs path = some dir := by
  constructor
  · intro hkeeps
    refine ⟨hkeeps.heads branch, fun w hw dir hdir => ?_⟩
    obtain ⟨hmem, rfl⟩ := Table.find?_eq_some.1 hw
    exact hkeeps.worktrees w hmem dir hdir
  · intro hspared
    constructor
    · intro b sha hsha
      by_cases hb : b = branch
      · subst hb
        exact hspared.1 sha hsha
      · rw [h.heads b hb]
        exact hsha
    · intro w hw dir hdir
      by_cases hpath : w.path = path
      · subst hpath
        exact hspared.2 w (Table.find?_eq_some.2 ⟨hw, rfl⟩) dir hdir
      · exact ⟨h.worktrees w hw hpath, (h.dirs _ hpath).trans hdir⟩

end Frame

/-- Remove the worktree at `path`, then the branch, whatever became of the first command. -/
def undo (remove delete : Option Fault) (branch path : String) (r : Repo File) : Repo File :=
  (branchDelete delete branch).exec ((worktreeRemove remove true path).exec r)

/-- The two commands of an undo find nothing here that they could take. -/
def Spared (remove delete : Option Fault) (branch path : String) (r : Repo File) : Prop :=
  ¬ (Removable remove true path r ∧ (r.dirs path).isSome = true) ∧
    ((r.heads branch).isSome = true →
      delete = some .before ∨ delete = some .midway ∨ r.head = some branch ∨
        ∃ w ∈ r.worktrees.rows, w.branch = some branch ∧
          ¬ (w.path = path ∧ remove ≠ some .midway ∧ Removable remove true path r))

theorem frame_undo (remove delete : Option Fault) :
    Frame branch path r (undo remove delete branch path r) :=
  (Frame.worktreeRemove remove true).trans (Frame.branchDelete delete)

theorem heads_worktreeRemove {force : Bool} :
    ((worktreeRemove fault force path).exec r).heads = r.heads := by
  by_cases h : Removable fault force path r
  · rw [worktreeRemove_of_removable h]
    by_cases hmidway : fault = some .midway
    · rw [if_pos hmidway]
      rfl
    · rw [if_neg hmidway]
      rfl
  · rw [worktreeRemove_of_not_removable h]

theorem head_worktreeRemove {force : Bool} :
    ((worktreeRemove fault force path).exec r).head = r.head := by
  by_cases h : Removable fault force path r
  · rw [worktreeRemove_of_removable h]
    by_cases hmidway : fault = some .midway
    · rw [if_pos hmidway]
      rfl
    · rw [if_neg hmidway]
      rfl
  · rw [worktreeRemove_of_not_removable h]

/-- The worktrees that a removal leaves registered. -/
theorem mem_worktreeRemove {force : Bool} {w : Worktree} :
    w ∈ ((worktreeRemove fault force path).exec r).worktrees.rows ↔
      w ∈ r.worktrees.rows ∧
        ¬ (w.path = path ∧ fault ≠ some .midway ∧ Removable fault force path r) := by
  by_cases h : Removable fault force path r
  · rw [worktreeRemove_of_removable h]
    by_cases hmidway : fault = some .midway
    · rw [if_pos hmidway]
      simp [hmidway, setDir]
    · rw [if_neg hmidway]
      simp only [unregister, setDir, Table.mem_filter, bne_iff_ne, hmidway, h, ne_eq, not_false_eq_true,
        and_true]
  · rw [worktreeRemove_of_not_removable h]
    simp [h]

theorem dirs_branchDelete :
    ((branchDelete fault branch).exec r).dirs = r.dirs ∧
      ((branchDelete fault branch).exec r).worktrees = r.worktrees := by
  by_cases h : Deletable fault branch r
  · rw [branchDelete_of_deletable h]
    exact ⟨rfl, rfl⟩
  · rw [branchDelete_of_not_deletable h]
    exact ⟨rfl, rfl⟩

/-- The branch survives the undo exactly where `branch -D` has no effect. -/
theorem heads_undo_iff {remove delete : Option Fault} (hsha : r.heads branch = some sha) :
    (undo remove delete branch path r).heads branch = some sha ↔
      ¬ Deletable delete branch ((worktreeRemove remove true path).exec r) := by
  constructor
  · intro hkept hdeletable
    rw [undo, branchDelete_of_deletable hdeletable] at hkept
    simp [setHead] at hkept
  · intro hrefused
    rw [undo, branchDelete_of_not_deletable hrefused, heads_worktreeRemove]
    exact hsha

/-- Where `branch -D` has no effect after the removal of the worktree. -/
theorem not_deletable_iff {remove delete : Option Fault} (hsha : r.heads branch = some sha) :
    ¬ Deletable delete branch ((worktreeRemove remove true path).exec r) ↔
      delete = some .before ∨ delete = some .midway ∨ r.head = some branch ∨
        ∃ w ∈ r.worktrees.rows, w.branch = some branch ∧
          ¬ (w.path = path ∧ remove ≠ some .midway ∧ Removable remove true path r) := by
  have huse : ((worktreeRemove remove true path).exec r).inUse branch = true ↔
      r.head = some branch ∨ ∃ w ∈ r.worktrees.rows, w.branch = some branch ∧
        ¬ (w.path = path ∧ remove ≠ some .midway ∧ Removable remove true path r) := by
    simp only [inUse, head_worktreeRemove, Bool.or_eq_true, beq_iff_eq, List.any_eq_true,
      mem_worktreeRemove]
    constructor
    · rintro (hhead | ⟨w, ⟨hw, hstays⟩, hbranch⟩)
      · exact .inl hhead
      · exact .inr ⟨w, hw, hbranch, hstays⟩
    · rintro (hhead | ⟨w, hw, hbranch, hstays⟩)
      · exact .inl hhead
      · exact .inr ⟨w, ⟨hw, hstays⟩, hbranch⟩
  rw [← huse, Deletable, heads_worktreeRemove, hsha]
  cases ((worktreeRemove remove true path).exec r).inUse branch with
  | true => simp
  | false => cases delete with
    | none => simp
    | some fault => cases fault <;> simp

/-- The worktree at `path` survives the undo exactly where `worktree remove` has no effect. -/
theorem worktree_undo_iff {remove delete : Option Fault} :
    (∀ w, r.worktrees.find? path = some w → ∀ dir, r.dirs path = some dir →
      w ∈ (undo remove delete branch path r).worktrees.rows ∧
        (undo remove delete branch path r).dirs path = some dir) ↔
      ¬ (Removable remove true path r ∧ (r.dirs path).isSome = true) := by
  rw [undo, dirs_branchDelete.1, dirs_branchDelete.2]
  constructor
  · rintro hkept ⟨hremovable, hdir⟩
    obtain ⟨dir, hdir⟩ := Option.isSome_iff_exists.1 hdir
    have hgone : ((worktreeRemove remove true path).exec r).dirs path = none := by
      rw [worktreeRemove_of_removable hremovable]
      by_cases hmidway : remove = some .midway
      · simp [hmidway, setDir]
      · simp [hmidway, setDir, unregister]
    obtain ⟨-, w, hw, -⟩ := hremovable
    rw [(hkept w hw dir hdir).2] at hgone
    cases hgone
  · intro hspared w hw dir hdir
    have hrefused : ¬ Removable remove true path r :=
      fun hremovable => hspared ⟨hremovable, by rw [hdir]; rfl⟩
    rw [worktreeRemove_of_not_removable hrefused]
    exact ⟨(Table.find?_eq_some.1 hw).1, hdir⟩

/-- What an undo takes: it spares what was there before the first command just where its two
commands find nothing to take. -/
theorem keeps_undo_iff (remove delete : Option Fault) (h : Added branch path r r') :
    r.Keeps (undo remove delete branch path r') ↔ Spared remove delete branch path r := by
  rw [((Frame.added h).trans (frame_undo remove delete)).keeps_iff]
  cases h with
  | nothing =>
    rw [worktree_undo_iff, Spared, and_comm]
    refine and_congr_right fun _ => ?_
    constructor
    · intro hkept hsome
      obtain ⟨sha, hsha⟩ := Option.isSome_iff_exists.1 hsome
      exact (not_deletable_iff hsha).1 ((heads_undo_iff hsha).1 (hkept sha hsha))
    · intro hspared sha hsha
      exact (heads_undo_iff hsha).2 ((not_deletable_iff hsha).2 (hspared (by rw [hsha]; rfl)))
  | branch sha hnew =>
    have hsame : (∀ w, r.worktrees.find? path = some w → ∀ dir, r.dirs path = some dir →
        w ∈ (undo remove delete branch path (r.setHead branch (some sha))).worktrees.rows ∧
          (undo remove delete branch path (r.setHead branch (some sha))).dirs path = some dir) ↔
        ¬ (Removable remove true path r ∧ (r.dirs path).isSome = true) :=
      worktree_undo_iff (r := r.setHead branch (some sha))
    rw [hsame, Spared, hnew]
    simp
  | worktree sha dir hnew hfree =>
    have hnone : r.worktrees.find? path = none := by
      have := (Bool.or_eq_false_iff.1 hfree).1
      simpa using this
    have hrefused : ¬ Removable remove true path r := by
      rintro ⟨-, w, hw, -⟩
      rw [hnone] at hw
      cases hw
    simp [Spared, hnew, hnone, hrefused]

end Repo

end Git
