import Orchestration.Js.Runtime
import Orchestration.Library.Forest
import Orchestration.Replay.Recovery

/-!
# The roster is a forest

Nothing checks the roster for cycles. That there are none follows from the
checks of a registration: an agent's parent is there before it and of a higher
level. So the walk over a subtree always ends, and it lists an agent after all
of its own descendants, which is the order in which they can be removed.
-/

namespace Orchestration.Roles

open Fallible
open Mail (OPERATOR)

/-! ## The walk -/

/-- By the time of registration, then by name. -/
def compareAgents (js : Js.Runtime) (a b : AgentRecord) : Ordering :=
  (compare a.registeredTs b.registeredTs).then (js.localeCompare a.agentId b.agentId)

/-- The agents under a parent, leaving out the root of the walk. -/
def childrenOf (js : Js.Runtime) (agents : List AgentRecord) (rootId parentId : String) :
    List AgentRecord :=
  ((agents.filter (·.agentId ≠ rootId)).filter (·.parent = parentId)).mergeSort fun a b =>
    compareAgents js a b != .gt

/-- What the walk has visited, and what it has listed. -/
abbrev WalkState := List String × List AgentRecord

/-- Visit an agent: its children's subtrees, each followed by the child. A walk `depth` levels deep
in a roster with fewer agents has come back to one of them. -/
def traverse (children : String → List AgentRecord) : ℕ → String → WalkState →
    Except String WalkState
  | 0, parentId, _ => throw s!"roster cycle detected at '{parentId}'"
  | depth + 1, parentId, (visited, result) => do
    refuse (visited.contains parentId) s!"roster cycle detected at '{parentId}'"
    (children parentId).foldlM
      (fun state child => do
        let (visited, result) ← traverse children depth child.agentId state
        return (visited, result ++ [child]))
      (visited ++ [parentId], result)

/-- The proper descendants of an agent, children before parents. -/
def descendantsLeafFirst (js : Js.Runtime) (agents : List AgentRecord) (rootId : String) :
    Except String (List AgentRecord) := do
  let (_, result) ← traverse (childrenOf js agents rootId) (agents.length + 1) rootId ([], [])
  return result

/-! ## The walk over a forest -/

section

open Forest Relation

variable {children : String → List AgentRecord} {rank : String → ℕ}
  (hrank : ∀ {p c}, Child children AgentRecord.agentId p c → rank c < rank p)
  (hparent : OneParent children AgentRecord.agentId)
include hrank hparent

/-- Over a forest the guard never fires: the walk lists the postorder and marks what it visits. -/
theorem traverse_eq {depth : ℕ} {p : String} {visited : List String} (result : List AgentRecord)
    (hdepth : rank p < depth)
    (hfresh : ∀ x ∈ visited, ¬ ReflTransGen (Child children AgentRecord.agentId) p x) :
    ∃ visited', traverse children depth p (visited, result) =
        .ok (visited', result ++ postorder children AgentRecord.agentId depth p) ∧
      ∀ x ∈ visited', x ∈ visited ∨ ReflTransGen (Child children AgentRecord.agentId) p x := by
  induction depth generalizing p visited result with
  | zero => omega
  | succ depth ih =>
    have hp : visited.contains p = false := by
      rw [List.contains_eq_mem, decide_eq_false_iff_not]
      exact fun hmem => hfresh p hmem .refl
    have hloop : ∀ cs, cs <:+ children p → ∀ visited result,
        (∀ x ∈ visited, ∀ c ∈ cs,
          ¬ ReflTransGen (Child children AgentRecord.agentId) c.agentId x) →
        ∃ visited', cs.foldlM
            (fun state child => do
              let (visited, result) ← traverse children depth child.agentId state
              return (visited, result ++ [child])) (visited, result) =
            .ok (visited', result ++ cs.flatMap fun c =>
              postorder children AgentRecord.agentId depth c.agentId ++ [c]) ∧
          ∀ x ∈ visited', x ∈ visited ∨
            ∃ c ∈ cs, ReflTransGen (Child children AgentRecord.agentId) c.agentId x := by
      intro cs hcs
      induction cs with
      | nil => exact fun visited result _ => ⟨visited, by simp [pure, Except.pure], fun x hx => .inl hx⟩
      | cons c cs ihcs =>
        intro visited result hfresh
        have hc : c ∈ children p := hcs.subset List.mem_cons_self
        have hcdepth : rank c.agentId < depth := by
          have := hrank ⟨c, hc, rfl⟩
          omega
        obtain ⟨mid, hmid, hmid'⟩ := @ih c.agentId visited result hcdepth
          fun x hx => hfresh x hx c List.mem_cons_self
        -- what the first subtree has visited is in no later one
        have hdistinct := (hparent.distinct p).sublist (hcs.sublist.map _)
        have hlater : ∀ x ∈ mid, ∀ c' ∈ cs,
            ¬ ReflTransGen (Child children AgentRecord.agentId) c'.agentId x := by
          intro x hx c' hc'
          rcases hmid' x hx with hold | hnew
          · exact hfresh x hold c' (List.mem_cons_of_mem _ hc')
          · have hne : c.agentId ≠ c'.agentId := fun heq =>
              (List.nodup_cons.1 hdistinct).1 (heq ▸ List.mem_map_of_mem hc')
            exact siblings_apart hrank hparent ⟨c, hc, rfl⟩
              ⟨c', hcs.subset (List.mem_cons_of_mem _ hc'), rfl⟩ hne hnew
        obtain ⟨visited', hrest, hrest'⟩ := ihcs ((List.suffix_cons c cs).trans hcs) mid
          (result ++ postorder children AgentRecord.agentId depth c.agentId ++ [c]) hlater
        refine ⟨visited', ?_, fun x hx => ?_⟩
        · rw [List.foldlM_cons, hmid]
          refine Eq.trans hrest ?_
          simp
        · rcases hrest' x hx with hx | ⟨c', hc', hx⟩
          · rcases hmid' x hx with hx | hx
            · exact .inl hx
            · exact .inr ⟨c, List.mem_cons_self, hx⟩
          · exact .inr ⟨c', List.mem_cons_of_mem _ hc', hx⟩
    have hstart : ∀ x ∈ visited ++ [p], ∀ c ∈ children p,
        ¬ ReflTransGen (Child children AgentRecord.agentId) c.agentId x := by
      intro x hx c hc hreach
      rcases List.mem_append.1 hx with hx | hx
      · exact hfresh x hx (.head ⟨c, hc, rfl⟩ hreach)
      · obtain rfl := List.mem_singleton.1 hx
        have hup := rank_le_of_reach hrank hreach
        have hdown := hrank ⟨c, hc, rfl⟩
        omega
    obtain ⟨visited', hwalk, hvisited⟩ := hloop _ List.suffix_rfl (visited ++ [p]) result hstart
    refine ⟨visited', ?_, fun x hx => ?_⟩
    · simp only [traverse, hp]
      exact hwalk
    · rcases hvisited x hx with hx | ⟨c, hc, hx⟩
      · rcases List.mem_append.1 hx with hx | hx
        · exact .inl hx
        · exact .inr (List.mem_singleton.1 hx ▸ .refl)
      · exact .inr (.head ⟨c, hc, rfl⟩ hx)

end

/-! ## The roster of a project -/

/-- Every agent has a parent of the kind that its role asks for. -/
structure Rooted (t : RosterTables) : Prop where
  reserved : ∀ row ∈ t.roster.rows, row.agentId ≠ OPERATOR
  coordinator : ∀ row ∈ t.roster.rows, row.role = .coordinator → row.parent = OPERATOR
  spawned : ∀ row ∈ t.roster.rows, row.role ≠ .coordinator →
    ∃ parent ∈ t.roster.rows, parent.agentId = row.parent ∧ canSpawn parent.role row.role = true

theorem rooted_empty : Rooted {} :=
  ⟨fun _ h => absurd h List.not_mem_nil, fun _ h => absurd h List.not_mem_nil,
    fun _ h => absurd h List.not_mem_nil⟩

theorem Rooted.registered {t t' : RosterTables} {ts : ℕ} {rec : AgentRegistered} (h : Rooted t)
    (happly : applyAgentRegistered t ts rec = .ok t') : Rooted t' := by
  simp only [applyAgentRegistered, bind_eq_ok] at happly
  obtain ⟨checked, hcheck, happly⟩ := happly
  cases checked with
  | some existing =>
    obtain rfl := pure_eq_ok.1 happly
    exact h
  | none =>
    obtain ⟨roster, hinsert, happly⟩ := bind_eq_ok.1 happly
    obtain rfl := pure_eq_ok.1 happly
    obtain ⟨-, hrows⟩ := Table.insert?_eq_some.1 (orThrow_eq_ok.1 hinsert)
    obtain ⟨hreserved, -, -, hkind⟩ := validateAgentRegistration_new hcheck
    have hmem : ∀ {row}, row ∈ roster.rows → row ∈ t.roster.rows ∨
        row.agentId = rec.agentId ∧ row.role = rec.role ∧ row.parent = rec.parent := by
      intro row hrow
      rw [hrows] at hrow
      rcases List.mem_append.1 hrow with hrow | hrow
      · exact .inl hrow
      · obtain rfl := List.mem_singleton.1 hrow
        exact .inr ⟨rfl, rfl, rfl⟩
    refine ⟨fun row hrow => ?_, fun row hrow hrole => ?_, fun row hrow hrole => ?_⟩
    · rcases hmem hrow with hold | ⟨hid, -, -⟩
      · exact h.reserved row hold
      · rw [hid]
        exact hreserved
    · rcases hmem hrow with hold | ⟨-, hrole', hparent⟩
      · exact h.coordinator row hold hrole
      · rcases hkind with ⟨-, hoperator⟩ | ⟨hne, -⟩
        · exact hparent.trans hoperator
        · exact absurd (hrole'.symm.trans hrole) hne
    · change ∃ parent ∈ roster.rows, _
      rw [hrows]
      rcases hmem hrow with hold | ⟨-, hrole', hparent⟩
      · obtain ⟨parent, hmem', hspawn⟩ := h.spawned row hold hrole
        exact ⟨parent, List.mem_append_left _ hmem', hspawn⟩
      · rcases hkind with ⟨heq, -⟩ | ⟨-, parent, hfound, hspawn⟩
        · exact absurd (hrole'.trans heq) hrole
        · obtain ⟨hmem', hid⟩ := Table.find?_eq_some.1 hfound
          refine ⟨parent, List.mem_append_left _ hmem', hid.trans hparent.symm, ?_⟩
          rw [hrole']
          exact hspawn

/-- A removal takes away a row that is nobody's parent. -/
theorem applyAgentRemoved_eq_ok {t t' : RosterTables} {agentId : String} :
    applyAgentRemoved t agentId = .ok t' ↔
      (selectAgent t agentId).isSome = true ∧ (∀ row ∈ t.roster.rows, row.parent ≠ agentId) ∧
        t' = { roster := t.roster.filter (·.agentId != agentId) } := by
  simp only [applyAgentRemoved, bind_eq_ok, validateAgentRemoval_eq_ok, pure_eq_ok,
    Option.isSome_iff_exists]
  constructor
  · rintro ⟨existing, ⟨hfound, hleaf⟩, rfl⟩
    exact ⟨⟨existing, hfound⟩, hleaf, rfl⟩
  · rintro ⟨⟨existing, hfound⟩, hleaf, rfl⟩
    exact ⟨existing, ⟨hfound, hleaf⟩, rfl⟩

theorem Rooted.removed {t t' : RosterTables} {agentId : String} (h : Rooted t)
    (happly : applyAgentRemoved t agentId = .ok t') : Rooted t' := by
  obtain ⟨-, hleaf, rfl⟩ := applyAgentRemoved_eq_ok.1 happly
  refine ⟨fun row hrow => ?_, fun row hrow hrole => ?_, fun row hrow hrole => ?_⟩
  · exact h.reserved row (Table.mem_filter.1 hrow).1
  · exact h.coordinator row (Table.mem_filter.1 hrow).1 hrole
  · have hold := (Table.mem_filter.1 hrow).1
    obtain ⟨parent, hmem, hid, hspawn⟩ := h.spawned row hold hrole
    refine ⟨parent, Table.mem_filter.2 ⟨hmem, ?_⟩, hid, hspawn⟩
    rw [hid]
    simpa using hleaf row hold

/-- Whatever the stores of a project do, the roster stays rooted. -/
theorem rooted_storeRun (clock : ℕ → ℕ) (calls : List Replay.StoreCall) :
    Rooted (Replay.storeRun calls { clock }).roster := by
  refine (Run.always (fun db => Consistent db ∧ Rooted db.roster) (fun call db hdb => ?_)
    ⟨.empty clock, rooted_empty⟩).2
  have hemits := Replay.StoreCall.exec_emits hdb.1 call
  refine ⟨hdb.1.emits hemits, ?_⟩
  refine hemits.preserves (Rooted ·.roster) (fun event s s' _ hs hcommit => ?_) hdb.2
  obtain ⟨-, t, hfold, rfl⟩ := commit_eq_ok.1 hcommit
  rcases foldEvent_roster hfold with ⟨payload, -, -, happly⟩ | ⟨-, hsame⟩
  · change Rooted t.roster
    cases payload with
    | registered rec => exact hs.registered happly
    | removed agentId => exact hs.removed happly
  · change Rooted t.roster
    rw [hsame]
    exact hs

/-! ## A rooted roster is a forest -/

/-- `c` is registered under `p`. -/
def Under (t : RosterTables) (p c : String) : Prop :=
  ∃ row ∈ t.roster.rows, row.agentId = c ∧ row.parent = p

/-- `d` is a proper descendant of `p`. -/
abbrev Descends (t : RosterTables) : String → String → Prop := Relation.TransGen (Under t)

/-- The level of an agent, above all agents for whoever is not one. -/
def levelOf (t : RosterTables) (agentId : String) : ℕ :=
  match selectAgent t agentId with
  | some row => row.role.level
  | none => 4

section

variable {t : RosterTables} (h : Rooted t)
include h

theorem Rooted.level_lt {p c : String} (hunder : Under t p c) : levelOf t c < levelOf t p := by
  obtain ⟨row, hrow, rfl, rfl⟩ := hunder
  have hlevel : ∀ {row}, row ∈ t.roster.rows → levelOf t row.agentId = row.role.level := by
    intro row hrow
    rw [levelOf, selectAgent, Table.find?_eq_some.2 ⟨hrow, rfl⟩]
  rw [hlevel hrow]
  by_cases hrole : row.role = .coordinator
  · have hnone : selectAgent t row.parent = none := by
      rw [h.coordinator row hrow hrole, selectAgent, Table.find?_eq_none]
      exact h.reserved
    rw [levelOf, hnone, hrole]
    decide
  · obtain ⟨parent, hparent, hid, hspawn⟩ := h.spawned row hrow hrole
    rw [← hid, hlevel hparent]
    exact level_lt_of_canSpawn hspawn

theorem Rooted.acyclic (agentId : String) : ¬ Descends t agentId agentId := by
  have hlt : ∀ {p d}, Descends t p d → levelOf t d < levelOf t p := by
    intro p d hd
    induction hd with
    | single hunder => exact h.level_lt hunder
    | tail _ hunder ih => exact Nat.lt_trans (h.level_lt hunder) ih
  exact fun hself => Nat.lt_irrefl _ (hlt hself)

end

section

open Forest Relation

variable (js : Js.Runtime) {t : RosterTables} (h : Rooted t) {rootId : String}

theorem mem_childrenOf {agents : List AgentRecord} {p : String} {row : AgentRecord} :
    row ∈ childrenOf js agents rootId p ↔ row ∈ agents ∧ row.agentId ≠ rootId ∧ row.parent = p := by
  simp only [childrenOf, List.mem_mergeSort, List.mem_filter, decide_eq_true_eq, and_assoc]

theorem mem_selectAllAgents {row : AgentRecord} :
    row ∈ selectAllAgents t ↔ row ∈ t.roster.rows := List.mem_mergeSort

/-- In the walk an agent is a child of its parent, unless it is the root. -/
theorem child_iff {p c : String} :
    Child (childrenOf js (selectAllAgents t) rootId) AgentRecord.agentId p c ↔
      Under t p c ∧ c ≠ rootId := by
  simp only [Child, mem_childrenOf, mem_selectAllAgents, Under]
  constructor
  · rintro ⟨row, ⟨hrow, hne, hparent⟩, rfl⟩
    exact ⟨⟨row, hrow, rfl, hparent⟩, hne⟩
  · rintro ⟨⟨row, hrow, rfl, hparent⟩, hne⟩
    exact ⟨row, ⟨hrow, hne, hparent⟩, rfl⟩

theorem descends_of_descendant {p d : String}
    (hd : Descendant (childrenOf js (selectAllAgents t) rootId) AgentRecord.agentId p d) :
    Descends t p d := by
  induction hd with
  | single hchild => exact .single ((child_iff js).1 hchild).1
  | tail _ hchild ih => exact .tail ih ((child_iff js).1 hchild).1

include h in
/-- Leaving out the root leaves out no descendant of an agent of the subtree. -/
theorem descendant_iff_descends {p d : String} (hp : ReflTransGen (Under t) rootId p) :
    Descendant (childrenOf js (selectAllAgents t) rootId) AgentRecord.agentId p d ↔
      Descends t p d := by
  refine ⟨descends_of_descendant js, fun hd => ?_⟩
  induction hd with
  | single hunder =>
    refine .single ((child_iff js).2 ⟨hunder, ?_⟩)
    rintro rfl
    exact h.acyclic _ (.tail' hp hunder)
  | tail hd hunder ih =>
    refine .tail ih ((child_iff js).2 ⟨hunder, ?_⟩)
    rintro rfl
    exact h.acyclic _ (.tail' (hp.trans hd.to_reflTransGen) hunder)

theorem childrenOf_oneParent :
    OneParent (childrenOf js (selectAllAgents t) rootId) AgentRecord.agentId where
  distinct p := by
    have hkeys : (t.roster.rows.map (·.agentId)).Nodup := List.pairwise_map.2 t.roster.unique
    have hsorted : ((selectAllAgents t).map (·.agentId)).Nodup :=
      ((List.mergeSort_perm _ _).map _).nodup_iff.2 hkeys
    have hsub : (((selectAllAgents t).filter (·.agentId ≠ rootId)).filter (·.parent = p)).Sublist
        (selectAllAgents t) := List.filter_sublist.trans List.filter_sublist
    exact ((List.mergeSort_perm _ _).map _).nodup_iff.2 (hsorted.sublist (hsub.map _))
  parent := by
    intro p q c hp hq
    obtain ⟨⟨row, hrow, hid, rfl⟩, -⟩ := (child_iff js).1 hp
    obtain ⟨⟨row', hrow', hid', rfl⟩, -⟩ := (child_iff js).1 hq
    rw [Table.eq_of_key_eq hrow hrow' (hid.trans hid'.symm)]

/-- The walk from an agent of the roster ends and lists its postorder. -/
theorem descendantsLeafFirst_eq (rootId : String) (h : Rooted t) : ∃ rank : String → ℕ,
    (∀ {p c}, Child (childrenOf js (selectAllAgents t) rootId) AgentRecord.agentId p c →
      rank c < rank p) ∧
    rank rootId < (selectAllAgents t).length + 1 ∧
    descendantsLeafFirst js (selectAllAgents t) rootId =
      .ok (postorder (childrenOf js (selectAllAgents t) rootId) AgentRecord.agentId
        ((selectAllAgents t).length + 1) rootId) := by
  have hacyclic : ∀ p, ¬ Descendant (childrenOf js (selectAllAgents t) rootId)
      AgentRecord.agentId p p := fun p hp => h.acyclic p (descends_of_descendant js hp)
  obtain ⟨rank, hrank, hbound⟩ := exists_rank (selectAllAgents t)
    (fun p row hrow => ((mem_childrenOf js).1 hrow).1) hacyclic
  have hdepth : rank rootId < (selectAllAgents t).length + 1 := Nat.lt_succ_of_le (hbound rootId)
  obtain ⟨visited, hwalk, -⟩ := traverse_eq hrank (childrenOf_oneParent js) [] hdepth
    fun x hx => absurd hx List.not_mem_nil
  refine ⟨rank, hrank, hdepth, ?_⟩
  rw [descendantsLeafFirst, hwalk]
  rfl

end

/-! ## Removing a subtree -/

/-- Agents can be removed in any order that puts an agent after its children. -/
theorem foldlM_applyAgentRemoved {t : RosterTables} {ids : List String} (hnodup : ids.Nodup)
    (hregistered : ∀ a ∈ ids, (selectAgent t a).isSome = true)
    (hchildren : ∀ before a after, ids = before ++ a :: after →
      ∀ row ∈ t.roster.rows, row.parent = a → row.agentId ∈ before) :
    ∃ t', ids.foldlM applyAgentRemoved t = .ok t' ∧
      t'.roster.rows = t.roster.rows.filter (·.agentId ∉ ids) := by
  induction ids generalizing t with
  | nil => exact ⟨t, rfl, by simp⟩
  | cons a ids ih =>
    have hleaf : ∀ row ∈ t.roster.rows, row.parent ≠ a := fun row hrow hparent =>
      absurd (hchildren [] a ids rfl row hrow hparent) List.not_mem_nil
    have hremoved : applyAgentRemoved t a = .ok { roster := t.roster.filter (·.agentId != a) } :=
      applyAgentRemoved_eq_ok.2 ⟨hregistered a List.mem_cons_self, hleaf, rfl⟩
    obtain ⟨hnot, hnodup⟩ := List.nodup_cons.1 hnodup
    obtain ⟨t', hrest, hrows⟩ := @ih { roster := t.roster.filter (·.agentId != a) } hnodup
      (fun b hb => by
        obtain ⟨row, hrow⟩ := Option.isSome_iff_exists.1 (hregistered b (List.mem_cons_of_mem _ hb))
        obtain ⟨hmem, rfl⟩ := Table.find?_eq_some.1 hrow
        have hne : row.agentId ≠ a := fun heq => hnot (heq ▸ hb)
        refine Option.isSome_iff_exists.2 ⟨row, Table.find?_eq_some.2 ⟨?_, rfl⟩⟩
        exact Table.mem_filter.2 ⟨hmem, by simpa using hne⟩)
      (fun before b after hsplit row hrow hparent => by
        obtain ⟨hmem, hne⟩ := Table.mem_filter.1 hrow
        have hbefore := hchildren (a :: before) b after (by rw [hsplit]; rfl) row hmem hparent
        rcases List.mem_cons.1 hbefore with heq | hbefore
        · simp [heq] at hne
        · exact hbefore)
    refine ⟨t', ?_, ?_⟩
    · rw [List.foldlM_cons, hremoved]
      exact hrest
    · rw [hrows, Table.filter, List.filter_filter]
      refine List.filter_congr fun row _ => ?_
      by_cases heq : row.agentId = a <;> simp [heq, hnot]

/-- What the walk from an agent returns. -/
structure LeafFirst (t : RosterTables) (rootId : String) (result : List AgentRecord) : Prop where
  once : (result.map (·.agentId)).Nodup
  descendants : ∀ row, row ∈ result ↔ row ∈ t.roster.rows ∧ Descends t rootId row.agentId
  leafFirst : ∀ before a after, result = before ++ a :: after →
    ∀ d, Descends t a.agentId d → d ∈ before.map (·.agentId)

theorem Rooted.leafFirst (js : Js.Runtime) {t : RosterTables} (h : Rooted t) (rootId : String) :
    ∃ result, descendantsLeafFirst js (selectAllAgents t) rootId = .ok result ∧
      LeafFirst t rootId result := by
  obtain ⟨rank, hrank, hdepth, hwalk⟩ := descendantsLeafFirst_eq js rootId h
  have hparent : Forest.OneParent (childrenOf js (selectAllAgents t) rootId) AgentRecord.agentId :=
    childrenOf_oneParent js
  refine ⟨_, hwalk, Forest.nodup_postorder hrank hparent hdepth, fun row => ?_, ?_⟩
  · rw [← descendant_iff_descends js h .refl, Forest.descendant_iff,
      Forest.mem_postorder hrank hdepth]
    constructor
    · rintro ⟨q, hq, hrow⟩
      exact ⟨mem_selectAllAgents.1 ((mem_childrenOf js).1 hrow).1, q, hq, row, hrow, rfl⟩
    · rintro ⟨hrow, q, hq, row', hrow', hid⟩
      have hmem := mem_selectAllAgents.1 ((mem_childrenOf js).1 hrow').1
      exact ⟨q, hq, Table.eq_of_key_eq hmem hrow hid ▸ hrow'⟩
  · intro before a after hsplit d hd
    refine Forest.descendants_before hrank hparent hdepth hsplit ?_
    have hmem : a.agentId ∈ (Forest.postorder (childrenOf js (selectAllAgents t) rootId)
        AgentRecord.agentId ((selectAllAgents t).length + 1) rootId).map (·.agentId) := by
      rw [hsplit]
      simp
    have hbelow := descends_of_descendant js ((Forest.mem_postorder_id hrank hdepth).1 hmem)
    exact (descendant_iff_descends js h hbelow.to_reflTransGen).2 hd

/-- The returned agents and then the root can be removed one after the other. -/
theorem LeafFirst.removable {t : RosterTables} {root : AgentRecord} {result : List AgentRecord}
    (hresult : LeafFirst t root.agentId result) (h : Rooted t) (hroot : root ∈ t.roster.rows) :
    ∃ t', (result.map (·.agentId) ++ [root.agentId]).foldlM applyAgentRemoved t = .ok t' ∧
      t'.roster.rows = t.roster.rows.filter fun row =>
        row.agentId ∉ result.map (·.agentId) ++ [root.agentId] := by
  refine foldlM_applyAgentRemoved ?_ ?_ ?_
  · rw [List.nodup_append]
    refine ⟨hresult.once, List.nodup_singleton _, ?_⟩
    rintro a ha _ hb rfl
    obtain ⟨row, hrow, hid⟩ := List.mem_map.1 ha
    have hd := ((hresult.descendants row).1 hrow).2
    rw [hid, List.mem_singleton.1 hb] at hd
    exact h.acyclic _ hd
  · intro a ha
    have hrow : ∃ row ∈ t.roster.rows, row.agentId = a := by
      rcases List.mem_append.1 ha with ha | ha
      · obtain ⟨row, hrow, hid⟩ := List.mem_map.1 ha
        exact ⟨row, ((hresult.descendants row).1 hrow).1, hid⟩
      · exact ⟨root, hroot, (List.mem_singleton.1 ha).symm⟩
    obtain ⟨row, hrow, hid⟩ := hrow
    exact Option.isSome_iff_exists.2 ⟨row, Table.find?_eq_some.2 ⟨hrow, hid⟩⟩
  · intro before a after hsplit row hrow hparent
    have hunder : Descends t a row.agentId := .single ⟨row, hrow, rfl, hparent⟩
    induction after using List.reverseRecOn with
    | nil =>
      obtain ⟨rfl, heq⟩ := List.append_inj' hsplit rfl
      obtain rfl := (List.cons.inj heq).1
      exact List.mem_map_of_mem ((hresult.descendants row).2 ⟨hrow, hunder⟩)
    | append_singleton after last _ =>
      rw [← List.cons_append, ← List.append_assoc] at hsplit
      obtain ⟨first, rest, rfl, rfl, hrest⟩ :=
        List.map_eq_append_iff.1 (List.append_inj' hsplit rfl).1
      obtain ⟨b, tail, rfl, rfl, -⟩ := List.map_eq_cons_iff.1 hrest
      exact hresult.leafFirst first b tail rfl _ hunder

/-- In every roster that the stores of a project can produce: coordinators stand under the operator
and everybody else under a registered agent that may spawn their role, nobody descends from
themselves, and the walk from any agent returns each of its proper descendants once, after all of
its own descendants, so that they can be removed one after the other and the agent last. -/
theorem roster_is_forest (js : Js.Runtime) (clock : ℕ → ℕ) (calls : List Replay.StoreCall) :
    let t := (Replay.storeRun calls { clock }).roster
    (∀ row ∈ t.roster.rows, row.role = .coordinator → row.parent = OPERATOR) ∧
    (∀ row ∈ t.roster.rows, row.role ≠ .coordinator →
      ∃ parent ∈ t.roster.rows, parent.agentId = row.parent ∧
        canSpawn parent.role row.role = true) ∧
    (∀ agentId, ¬ Descends t agentId agentId) ∧
    ∀ root ∈ t.roster.rows, ∃ result,
      descendantsLeafFirst js (selectAllAgents t) root.agentId = .ok result ∧
      (result.map (·.agentId)).Nodup ∧
      (∀ row, row ∈ result ↔ row ∈ t.roster.rows ∧ Descends t root.agentId row.agentId) ∧
      (∀ before a after, result = before ++ a :: after →
        ∀ d, Descends t a.agentId d → d ∈ before.map (·.agentId)) ∧
      ∃ t', (result.map (·.agentId) ++ [root.agentId]).foldlM applyAgentRemoved t = .ok t' ∧
        t'.roster.rows = t.roster.rows.filter fun row =>
          row.agentId ∉ result.map (·.agentId) ++ [root.agentId] := by
  intro t
  have h : Rooted t := rooted_storeRun clock calls
  refine ⟨h.coordinator, h.spawned, h.acyclic, fun root hroot => ?_⟩
  obtain ⟨result, hwalk, hresult⟩ := h.leafFirst js root.agentId
  exact ⟨result, hwalk, hresult.once, hresult.descendants, hresult.leafFirst,
    hresult.removable h hroot⟩

end Orchestration.Roles
