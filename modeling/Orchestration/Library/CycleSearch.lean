import Mathlib.Data.List.Basic
import Mathlib.Data.List.Chain
import Mathlib.Data.List.Nodup
import Mathlib.Data.List.Perm.Basic
import Mathlib.Logic.Function.Basic
import Mathlib.Tactic.Common
import Orchestration.Library.Loop

/-!
# Searching a graph for a cycle

A graph is given by the list of the nodes that each node depends on. The search walks it depth
first: a node is in the stack while what it depends on is being searched, and done afterwards.
A dependency that is in the stack closes a cycle; a search that meets none leaves the nodes in
an order in which every dependency comes before what depends on it.
-/

namespace CycleSearch

variable {α : Type} {deps : α → List α}

/-! ## Cycles and orders -/

/-- The walk follows dependencies, and ends where it starts. -/
def Cycle (deps : α → List α) (walk : List α) : Prop :=
  walk.IsChain (fun a b => b ∈ deps a) ∧ ∃ x middle, walk = x :: (middle ++ [x])

/-- Every dependency comes before what depends on it. -/
def Topological (deps : α → List α) (order : List α) : Prop :=
  ∀ before x later, order = before ++ x :: later → ∀ d ∈ deps x, d ∈ before

theorem topological_nil : Topological deps [] := by
  intro before x later h
  cases before <;> cases h

/-- A node may come last when all that it depends on is there. -/
theorem Topological.append_one {order : List α} (h : Topological deps order) {x : α}
    (hx : ∀ d ∈ deps x, d ∈ order) : Topological deps (order ++ [x]) := by
  intro before y later heq
  rcases List.eq_nil_or_concat later with rfl | ⟨later', last, rfl⟩
  · obtain ⟨rfl, hone⟩ := List.append_inj' heq rfl
    obtain rfl : x = y := by simpa using hone
    exact hx
  · rw [List.concat_eq_append, ← List.cons_append, ← List.append_assoc] at heq
    obtain ⟨heq, -⟩ := List.append_inj' heq rfl
    exact h before y later' heq

section

variable [DecidableEq α]

/-- In an order, a dependency is found earlier. -/
theorem Topological.idxOf_lt {order : List α} (h : Topological deps order) {a b : α}
    (ha : a ∈ order) (hb : b ∈ deps a) : b ∈ order ∧ order.idxOf b < order.idxOf a := by
  obtain ⟨before, later, rfl, hnot⟩ := List.eq_append_cons_of_mem ha
  have hmem := h before a later rfl b hb
  refine ⟨List.mem_append_left _ hmem, ?_⟩
  rw [List.idxOf_append_of_mem hmem, List.idxOf_append_of_notMem hnot, List.idxOf_cons_self]
  have hlt := List.idxOf_lt_length_iff.2 hmem
  omega

/-- A walk from a node of an order stays in the order and comes to earlier nodes only. -/
theorem Topological.walk {order : List α} (h : Topological deps order) {a : α} {walk : List α}
    (ha : a ∈ order) (hwalk : (a :: walk).IsChain (fun a b => b ∈ deps a)) :
    ∀ b ∈ walk, order.idxOf b < order.idxOf a := by
  induction walk generalizing a with
  | nil => simp
  | cons next walk ih =>
    rw [List.isChain_cons_cons] at hwalk
    obtain ⟨hnext, hlt⟩ := h.idxOf_lt ha hwalk.1
    intro b hb
    rcases List.mem_cons.1 hb with rfl | hb
    · exact hlt
    · exact Nat.lt_trans (ih hnext hwalk.2 b hb) hlt

/-- What has an order has no cycle in it. -/
theorem Topological.no_cycle {order : List α} (h : Topological deps order) {walk : List α}
    (hcycle : Cycle deps walk) (hmem : ∀ x ∈ walk, x ∈ order) : False := by
  obtain ⟨hchain, x, middle, rfl⟩ := hcycle
  have hlt := h.walk (hmem x List.mem_cons_self) hchain x (by simp)
  exact Nat.lt_irrefl _ hlt

end

/-! ## The search -/

inductive Mark where
  | unvisited
  | inStack
  | done
deriving DecidableEq, Repr

/-- The marks of the nodes, and the path from the root of the search to the node that is being
searched. -/
structure Search (α : Type) where
  marks : α → Option Mark
  path : List α

section

variable [DecidableEq α]

def Search.set (s : Search α) (node : α) (mark : Mark) : α → Option Mark :=
  Function.update s.marks node (some mark)

/-- A node goes on the stack. -/
def Search.enter (s : Search α) (node : α) : Search α where
  marks := s.set node .inStack
  path := s.path ++ [node]

/-- A node leaves the stack. -/
def Search.leave (s : Search α) (node : α) : Search α where
  marks := s.set node .done
  path := s.path.dropLast

/-- Look at one dependency of the node on top of the stack. -/
def follow (visit : α → Search α → Except (List α) (Search α)) (s : Search α) (dep : α) :
    Except (List α) (Search α) :=
  match s.marks dep with
  | some .inStack => throw (s.path.drop (s.path.idxOf dep) ++ [dep])
  | some .unvisited => visit dep s
  | some .done | none => pure s

/-- Search a node and all that it depends on; the stack is never higher than `fuel`. -/
def visit (deps : α → List α) : ℕ → α → Search α → Except (List α) (Search α)
  | 0, _, s => pure s
  | fuel + 1, node, s => do
    let s ← (deps node).foldlM (follow (visit deps fuel)) (s.enter node)
    return s.leave node

/-- Search every node that no earlier search has come to. -/
def visitAll (deps : α → List α) (fuel : ℕ) (nodes : List α) (s : Search α) :
    Except (List α) (Search α) :=
  nodes.foldlM
    (fun s node =>
      if s.marks node = some .unvisited then visit deps fuel node { s with path := [] } else pure s)
    s

end

/-! ## What the search keeps -/

/-- The nodes on the stack are the path, which follows dependencies; the nodes that are done can
be put in order. -/
structure Searching (deps : α → List α) (nodes : List α) (s : Search α) : Prop where
  known : ∀ x, x ∈ nodes ↔ s.marks x ≠ none
  stacked : ∀ x, x ∈ s.path ↔ s.marks x = some .inStack
  nodup : s.path.Nodup
  chain : s.path.IsChain (fun a b => b ∈ deps a)
  ordered : ∃ order : List α, order.Nodup ∧ (∀ x, x ∈ order ↔ s.marks x = some .done) ∧
    Topological deps order

/-- The search went on: what was visited stays visited, and what was done stays done. -/
structure Later (s s' : Search α) : Prop where
  unvisited : ∀ x, s'.marks x = some .unvisited → s.marks x = some .unvisited
  done : ∀ x, s.marks x = some .done → s'.marks x = some .done

theorem Later.refl (s : Search α) : Later s s := ⟨fun _ h => h, fun _ h => h⟩

theorem Later.trans {s s' s'' : Search α} (h : Later s s') (h' : Later s' s'') : Later s s'' :=
  ⟨fun x hx => h.unvisited x (h'.unvisited x hx), fun x hx => h'.done x (h.done x hx)⟩

/-- How many nodes no search has come to. -/
def Search.unvisited (s : Search α) (nodes : List α) : ℕ :=
  nodes.countP fun x => s.marks x = some .unvisited

theorem Later.unvisited_le {s s' : Search α} (h : Later s s') (nodes : List α) :
    s'.unvisited nodes ≤ s.unvisited nodes :=
  List.countP_mono_left fun x _ hx => decide_eq_true (h.unvisited x (of_decide_eq_true hx))

theorem Searching.mem {nodes : List α} {s : Search α} {node : α} (h : Searching deps nodes s)
    {mark : Mark} (hnode : s.marks node = some mark) : node ∈ nodes := by
  rw [h.known, hnode]
  exact Option.some_ne_none _

/-- A search that stops has found a cycle; one that returns has searched all that it was to. -/
def Outcome (deps : α → List α) (nodes : List α) (s : Search α) (wanted : List α) :
    Except (List α) (Search α) → Prop
  | .error walk => Cycle deps walk ∧ ∀ x ∈ walk, x ∈ nodes
  | .ok s' => Searching deps nodes s' ∧ s'.path = s.path ∧ Later s s' ∧
      ∀ x ∈ wanted, s'.marks x = some .done

theorem Outcome.bind {nodes : List α} {s : Search α} {wanted wanted' : List α}
    {r : Except (List α) (Search α)} {f : Search α → Except (List α) (Search α)}
    (h : Outcome deps nodes s wanted r)
    (hf : ∀ s', Searching deps nodes s' → s'.path = s.path → Later s s' →
      Outcome deps nodes s' wanted' (f s')) :
    Outcome deps nodes s (wanted ++ wanted') (r >>= f) := by
  cases r with
  | error walk => exact h
  | ok s' =>
    obtain ⟨hs', hpath, hlater, hdone⟩ := h
    have hrest := hf s' hs' hpath hlater
    change Outcome deps nodes s (wanted ++ wanted') (f s')
    cases hrun : f s' with
    | error walk =>
      rw [hrun] at hrest
      exact hrest
    | ok last =>
      rw [hrun] at hrest
      obtain ⟨hlast, hpath', hlater', hdone'⟩ := hrest
      refine ⟨hlast, hpath'.trans hpath, hlater.trans hlater', fun x hx => ?_⟩
      rcases List.mem_append.1 hx with hx | hx
      · exact hlater'.done x (hdone x hx)
      · exact hdone' x hx

section

variable [DecidableEq α]

section

variable {nodes : List α} {s s' : Search α} {node : α}

theorem enter_marks (x : α) :
    (s.enter node).marks x = if x = node then some .inStack else s.marks x :=
  Function.update_apply ..

theorem leave_marks (x : α) :
    (s.leave node).marks x = if x = node then some .done else s.marks x :=
  Function.update_apply ..

theorem later_enter (hnode : s.marks node = some .unvisited) : Later s (s.enter node) := by
  constructor
  · intro x hx
    rw [enter_marks] at hx
    split at hx
    · cases hx
    · exact hx
  · intro x hx
    rw [enter_marks, if_neg, hx]
    rintro rfl
    rw [hnode] at hx
    cases hx

theorem unvisited_enter_lt (hmem : node ∈ nodes) (hnode : s.marks node = some .unvisited) :
    (s.enter node).unvisited nodes < s.unvisited nodes := by
  refine Loop.countP_lt_countP (fun x hx => ?_) hmem (decide_eq_true hnode) ?_
  · exact decide_eq_true ((later_enter hnode).unvisited x (of_decide_eq_true hx))
  · rw [enter_marks, if_pos rfl]
    rfl

theorem Searching.enter (h : Searching deps nodes s) (hnode : s.marks node = some .unvisited)
    (hentry : ∀ last ∈ s.path.getLast?, node ∈ deps last) :
    Searching deps nodes (s.enter node) := by
  have hfree : node ∉ s.path := by
    rw [h.stacked, hnode]
    simp
  constructor
  · intro x
    rw [enter_marks]
    split
    · next hx => exact ⟨fun _ => Option.some_ne_none _, fun _ => hx ▸ h.mem hnode⟩
    · exact h.known x
  · intro x
    rw [enter_marks, Search.enter, List.mem_append, List.mem_singleton, h.stacked]
    split
    · next hx => simp [hx]
    · next hx => simp [hx]
  · rw [Search.enter, List.nodup_append]
    refine ⟨h.nodup, List.nodup_singleton node, fun x hx y hy => ?_⟩
    rintro rfl
    exact hfree (List.mem_singleton.1 hy ▸ hx)
  · rw [Search.enter, List.isChain_append]
    refine ⟨h.chain, List.isChain_singleton node, fun last hlast y hy => ?_⟩
    obtain rfl : node = y := by simpa using hy
    exact hentry last hlast
  · obtain ⟨order, hnodup, hdone, htop⟩ := h.ordered
    refine ⟨order, hnodup, fun x => ?_, htop⟩
    rw [hdone, enter_marks]
    split
    · next hx => simp [hx, hnode]
    · rfl

/-- A node whose dependencies are done comes last in the order. -/
theorem Searching.leave (h : Searching deps nodes s) {path : List α}
    (hpath : s.path = path ++ [node]) (hdeps : ∀ d ∈ deps node, s.marks d = some .done) :
    Searching deps nodes (s.leave node) ∧ (s.leave node).path = path ∧ Later s (s.leave node) := by
  have hstack : s.marks node = some .inStack := by
    rw [← h.stacked, hpath]
    simp
  have hnodup := h.nodup
  rw [hpath, List.nodup_append] at hnodup
  have hfree : node ∉ path := fun hmem => hnodup.2.2 node hmem node (by simp) rfl
  have hleft : (s.leave node).path = path := by
    rw [Search.leave, hpath, List.dropLast_concat]
  have hlater : Later s (s.leave node) := by
    constructor
    · intro x hx
      rw [leave_marks] at hx
      split at hx
      · cases hx
      · exact hx
    · intro x hx
      rw [leave_marks]
      split
      · rfl
      · exact hx
  refine ⟨?_, hleft, hlater⟩
  constructor
  · intro x
    rw [leave_marks]
    split
    · next hx => exact ⟨fun _ => Option.some_ne_none _, fun _ => hx ▸ h.mem hstack⟩
    · exact h.known x
  · intro x
    have hstacked := h.stacked x
    rw [hpath, List.mem_append, List.mem_singleton] at hstacked
    rw [hleft, leave_marks]
    split
    · next hx => simp [hx, hfree]
    · next hx => simpa [hx] using hstacked
  · exact hleft ▸ hnodup.1
  · have hchain := h.chain
    rw [hpath, List.isChain_append] at hchain
    exact hleft ▸ hchain.1
  · obtain ⟨order, hnodup, hdone, htop⟩ := h.ordered
    have hnew : node ∉ order := by
      rw [hdone, hstack]
      simp
    refine ⟨order ++ [node], ?_, fun x => ?_, htop.append_one fun d hd => (hdone d).2 (hdeps d hd)⟩
    · rw [List.nodup_append]
      refine ⟨hnodup, List.nodup_singleton node, fun x hx y hy => ?_⟩
      rintro rfl
      exact hnew (List.mem_singleton.1 hy ▸ hx)
    · rw [List.mem_append, List.mem_singleton, hdone, leave_marks]
      split
      · next hx => simp [hx]
      · next hx => simp [hx]

/-- A dependency that is on the stack closes a cycle. -/
theorem Searching.cycle (h : Searching deps nodes s) {path : List α} {dep : α}
    (hpath : s.path = path ++ [node]) (hdep : dep ∈ deps node)
    (hstack : s.marks dep = some .inStack) :
    Cycle deps (s.path.drop (s.path.idxOf dep) ++ [dep]) ∧
      ∀ x ∈ s.path.drop (s.path.idxOf dep) ++ [dep], x ∈ nodes := by
  have hknown : ∀ x ∈ s.path, x ∈ nodes := fun x hx => h.mem ((h.stacked x).1 hx)
  have hmem : ∀ x ∈ s.path.drop (s.path.idxOf dep) ++ [dep], x ∈ nodes := by
    intro x hx
    rcases List.mem_append.1 hx with hx | hx
    · exact hknown x (List.mem_of_mem_drop hx)
    · exact hknown x (List.mem_singleton.1 hx ▸ (h.stacked dep).2 hstack)
  refine ⟨?_, hmem⟩
  obtain ⟨before, later, hsplit, hnot⟩ :=
    List.eq_append_cons_of_mem ((h.stacked dep).2 hstack)
  have hindex : s.path.idxOf dep = before.length := by
    rw [hsplit, List.idxOf_append_of_notMem hnot, List.idxOf_cons_self, Nat.add_zero]
  have hcut : s.path.drop (s.path.idxOf dep) = dep :: later := by
    rw [hindex, hsplit, List.drop_left]
  have hlast : (dep :: later).getLast? = some node := by
    have hsame := congrArg List.getLast? (hpath.symm.trans hsplit)
    rw [List.getLast?_append, List.getLast?_append] at hsame
    simpa using hsame.symm
  rw [hcut]
  refine ⟨?_, dep, later, rfl⟩
  have hchain := h.chain
  rw [hsplit, List.isChain_append] at hchain
  rw [List.isChain_append]
  refine ⟨hchain.2.1, List.isChain_singleton dep, fun x hx y hy => ?_⟩
  obtain rfl : node = x := by simpa [hlast] using hx
  obtain rfl : dep = y := by simpa using hy
  exact hdep

end

/-! ## What the search finds -/

section

variable {nodes : List α} {s : Search α}

/-- One step of the loop over the dependencies of the node on top of the stack. -/
theorem follow_outcome {visitNode : α → Search α → Except (List α) (Search α)} {fuel : ℕ}
    (hvisit : ∀ node s, Searching deps nodes s → s.marks node = some .unvisited →
      (∀ last ∈ s.path.getLast?, node ∈ deps last) → s.unvisited nodes ≤ fuel →
      Outcome deps nodes s [node] (visitNode node s))
    {node dep : α} {path : List α} (hs : Searching deps nodes s) (hpath : s.path = path ++ [node])
    (hfuel : s.unvisited nodes ≤ fuel) (hdep : dep ∈ deps node) (hknown : dep ∈ nodes) :
    Outcome deps nodes s [dep] (follow visitNode s dep) := by
  rw [follow]
  cases hmark : s.marks dep with
  | none => exact absurd hmark ((hs.known dep).1 hknown)
  | some mark =>
    cases mark with
    | inStack => exact hs.cycle hpath hdep hmark
    | unvisited =>
      refine hvisit dep s hs hmark (fun last hlast => ?_) hfuel
      obtain rfl : node = last := by simpa [hpath] using hlast
      exact hdep
    | done =>
      refine ⟨hs, rfl, .refl s, fun x hx => ?_⟩
      rw [List.mem_singleton.1 hx, hmark]

/-- The loop over the dependencies: every one of them is done at its end. -/
theorem follow_all_outcome {visitNode : α → Search α → Except (List α) (Search α)} {fuel : ℕ}
    (hvisit : ∀ node s, Searching deps nodes s → s.marks node = some .unvisited →
      (∀ last ∈ s.path.getLast?, node ∈ deps last) → s.unvisited nodes ≤ fuel →
      Outcome deps nodes s [node] (visitNode node s))
    {node : α} {path wanted : List α} (hs : Searching deps nodes s)
    (hpath : s.path = path ++ [node]) (hfuel : s.unvisited nodes ≤ fuel)
    (hdeps : ∀ d ∈ wanted, d ∈ deps node ∧ d ∈ nodes) :
    Outcome deps nodes s wanted (wanted.foldlM (follow visitNode) s) := by
  induction wanted generalizing s with
  | nil => exact ⟨hs, rfl, .refl s, by simp⟩
  | cons dep wanted ih =>
    obtain ⟨hdep, hknown⟩ := hdeps dep List.mem_cons_self
    rw [List.foldlM_cons]
    refine (follow_outcome hvisit hs hpath hfuel hdep hknown).bind
      fun s' hs' hpath' hlater => ?_
    exact ih hs' (hpath'.trans hpath) (Nat.le_trans (hlater.unvisited_le nodes) hfuel)
      fun d hd => hdeps d (List.mem_cons_of_mem _ hd)

/-- A search of a node: it finds a cycle, or the node and all below it are done. The stack holds
nodes that are no longer unvisited, so as many levels as there are unvisited nodes are enough. -/
theorem visit_outcome (hclosed : ∀ x ∈ nodes, ∀ d ∈ deps x, d ∈ nodes) {fuel : ℕ} {node : α}
    (hs : Searching deps nodes s) (hnode : s.marks node = some .unvisited)
    (hentry : ∀ last ∈ s.path.getLast?, node ∈ deps last) (hfuel : s.unvisited nodes ≤ fuel) :
    Outcome deps nodes s [node] (visit deps fuel node s) := by
  induction fuel generalizing node s with
  | zero =>
    have hlt := unvisited_enter_lt (hs.mem hnode) hnode
    omega
  | succ fuel ih =>
    have hlt := unvisited_enter_lt (hs.mem hnode) hnode
    have hloop : Outcome deps nodes (s.enter node) (deps node)
        ((deps node).foldlM (follow (visit deps fuel)) (s.enter node)) :=
      follow_all_outcome (fun node s hs hnode hentry hfuel => ih hs hnode hentry hfuel)
        (hs.enter hnode hentry) rfl (Nat.le_of_lt_succ (Nat.lt_of_lt_of_le hlt hfuel))
        fun d hd => ⟨hd, hclosed node (hs.mem hnode) d hd⟩
    rw [visit]
    cases hrun : (deps node).foldlM (follow (visit deps fuel)) (s.enter node) with
    | error walk =>
      rw [hrun] at hloop
      exact hloop
    | ok s' =>
      rw [hrun] at hloop
      obtain ⟨hs', hpath, hlater, hdone⟩ := hloop
      obtain ⟨hleft, hpath', hlater'⟩ := hs'.leave hpath hdone
      refine ⟨hleft, hpath', ((later_enter hnode).trans hlater).trans hlater', fun x hx => ?_⟩
      rw [List.mem_singleton.1 hx, leave_marks, if_pos rfl]

theorem visitAll_outcome (hclosed : ∀ x ∈ nodes, ∀ d ∈ deps x, d ∈ nodes) {fuel : ℕ}
    {wanted : List α} (hs : Searching deps nodes s) (hempty : s.path = [])
    (hfuel : s.unvisited nodes ≤ fuel) (hwanted : ∀ x ∈ wanted, x ∈ nodes) :
    Outcome deps nodes s wanted (visitAll deps fuel wanted s) := by
  induction wanted generalizing s with
  | nil => exact ⟨hs, rfl, .refl s, by simp⟩
  | cons node wanted ih =>
    have hfirst : Outcome deps nodes s [node]
        (if s.marks node = some .unvisited then visit deps fuel node { s with path := [] }
          else pure s) := by
      split
      · next hnode =>
        have hsame : { s with path := [] } = s := by rw [← hempty]
        rw [hsame]
        exact visit_outcome hclosed hs hnode (by simp [hempty]) hfuel
      · next hnode =>
        refine ⟨hs, rfl, .refl s, fun x hx => ?_⟩
        rw [List.mem_singleton.1 hx]
        have hknown := (hs.known node).1 (hwanted node List.mem_cons_self)
        cases hmark : s.marks node with
        | none => exact absurd hmark hknown
        | some mark =>
          cases mark with
          | done => rfl
          | unvisited => exact absurd hmark hnode
          | inStack =>
            have hmem := (hs.stacked node).2 hmark
            rw [hempty] at hmem
            cases hmem
    rw [visitAll, List.foldlM_cons]
    refine hfirst.bind fun s' hs' hpath hlater => ?_
    exact ih hs' (hpath.trans hempty) (Nat.le_trans (hlater.unvisited_le nodes) hfuel)
      fun x hx => hwanted x (List.mem_cons_of_mem _ hx)

end

/-- The search of a whole graph, none of whose nodes has been visited. -/
def start (nodes : List α) : Search α where
  marks := nodes.foldl (fun marks x => Function.update marks x (some .unvisited)) fun _ => none
  path := []

/-- A cycle of the graph, if it has one. -/
def findCycle (deps : α → List α) (nodes : List α) : Option (List α) :=
  match visitAll deps nodes.length nodes (start nodes) with
  | .error walk => some walk
  | .ok _ => none

theorem start_marks {nodes : List α} (x : α) :
    (start nodes).marks x = if x ∈ nodes then some .unvisited else none := by
  have hfold : ∀ marks : α → Option Mark,
      nodes.foldl (fun marks x => Function.update marks x (some .unvisited)) marks x =
        if x ∈ nodes then some .unvisited else marks x := by
    induction nodes with
    | nil => intro marks; simp
    | cons node nodes ih =>
      intro marks
      rw [List.foldl_cons, ih, Function.update_apply]
      by_cases hx : x = node <;> by_cases hmem : x ∈ nodes <;> simp [hx, hmem]
  exact hfold fun _ => none

theorem searching_start (nodes : List α) : Searching deps nodes (start nodes) := by
  constructor
  · intro x
    rw [start_marks]
    split
    · next hx => simp [hx]
    · next hx => simp [hx]
  · intro x
    rw [start_marks]
    split <;> simp [start]
  · exact List.nodup_nil
  · exact List.isChain_nil
  · refine ⟨[], List.nodup_nil, fun x => ?_, topological_nil⟩
    rw [start_marks]
    split <;> simp

theorem start_outcome {nodes : List α} (hclosed : ∀ x ∈ nodes, ∀ d ∈ deps x, d ∈ nodes) :
    Outcome deps nodes (start nodes) nodes (visitAll deps nodes.length nodes (start nodes)) :=
  visitAll_outcome hclosed (searching_start nodes) rfl List.countP_le_length fun _ hx => hx

/-- In a graph whose dependencies are all among its nodes, a walk that the search finds is a
cycle of them. -/
theorem cycle_of_findCycle {nodes walk : List α}
    (hclosed : ∀ x ∈ nodes, ∀ d ∈ deps x, d ∈ nodes) (h : findCycle deps nodes = some walk) :
    Cycle deps walk ∧ ∀ x ∈ walk, x ∈ nodes := by
  have houtcome := start_outcome hclosed
  rw [findCycle] at h
  cases hrun : visitAll deps nodes.length nodes (start nodes) with
  | error found =>
    rw [hrun] at h houtcome
    obtain rfl := Option.some.inj h
    exact houtcome
  | ok s =>
    rw [hrun] at h
    cases h

/-- A search that finds nothing has put the nodes in order. -/
theorem ordered_of_findCycle {nodes : List α} (hnodup : nodes.Nodup)
    (hclosed : ∀ x ∈ nodes, ∀ d ∈ deps x, d ∈ nodes) (h : findCycle deps nodes = none) :
    ∃ order : List α, order.Perm nodes ∧ Topological deps order := by
  have houtcome := start_outcome hclosed
  rw [findCycle] at h
  cases hrun : visitAll deps nodes.length nodes (start nodes) with
  | error found =>
    rw [hrun] at h
    cases h
  | ok s =>
    rw [hrun] at houtcome
    obtain ⟨hs, -, -, hall⟩ := houtcome
    obtain ⟨order, horder, hdone, htop⟩ := hs.ordered
    refine ⟨order, (List.perm_ext_iff_of_nodup horder hnodup).2 fun x => ?_, htop⟩
    rw [hdone]
    exact ⟨fun hx => hs.mem hx, hall x⟩

/-- The search finds a cycle exactly where the nodes cannot be put in order. -/
theorem findCycle_eq_none_iff {nodes : List α} (hnodup : nodes.Nodup)
    (hclosed : ∀ x ∈ nodes, ∀ d ∈ deps x, d ∈ nodes) :
    findCycle deps nodes = none ↔ ∃ order : List α, order.Perm nodes ∧ Topological deps order := by
  refine ⟨ordered_of_findCycle hnodup hclosed, fun ⟨order, hperm, htop⟩ => ?_⟩
  cases hfound : findCycle deps nodes with
  | none => rfl
  | some walk =>
    obtain ⟨hcycle, hmem⟩ := cycle_of_findCycle hclosed hfound
    exact (htop.no_cycle hcycle fun x hx => hperm.mem_iff.2 (hmem x hx)).elim

end

end CycleSearch
