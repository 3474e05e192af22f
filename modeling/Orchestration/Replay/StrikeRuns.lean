import Orchestration.Replay.StrikeCalls

/-!
# Strikes between two passes

The strikes of a branch count up from its last `PASS`, and the call whose strike meets the
budget fires the escalation. The budget is read anew for every call, and the meeting is an
equality: a budget that moves below the count is never met.
-/

namespace Orchestration.Replay

open Fallible Transaction
open Orchestration.Review (ReviewAction StrikeEnforcementContext notifyStrike planStrike
  nextReviewAction selectReviewStrike selectStrikeCount)

/-- A call that struck the branch or fired the escalation. -/
structure Round where
  reviewId : String
  /-- The strikes with this one. -/
  count : ℕ
  /-- The budget in force. -/
  budget : ℕ
  action : ReviewAction
  /-- The strike is recorded, and the call returned its action. -/
  struck : Bool
  /-- The escalation went out. -/
  fired : Bool
deriving DecidableEq, Repr

/-- The round that a call makes, if it makes any. -/
def PolicyCall.round (call : PolicyCall) (db : Db) : Option Round :=
  let plan := call.plan db
  let fired := plan.fireEscalation && (notifyStrike call.deps call.ctx plan db).1.toOption.isSome
  let struck := (call.run db).1.toOption.isSome
  if call.struck db = false ∧ (struck ∨ fired) then
    some {
      reviewId := call.ctx.reviewId
      count := call.count db
      budget := call.deps.budget
      action := plan.action
      struck
      fired }
  else none

structure StrikeRun where
  db : Db
  /-- The rounds of the pair since its last `PASS`. -/
  rounds : List Round := []

/-- A call of the policy, for any branch, or any other call of the stores. -/
inductive StrikeOp where
  | policy (call : PolicyCall)
  | store (call : { call : StoreCall // call.strikes = false })

/-- The state after an operation. -/
def StrikeOp.exec (pair : String × String) : StrikeOp → StrikeRun → StrikeRun
  | policy call, s => {
      db := call.run.exec s.db
      rounds := if call.pair = pair then s.rounds ++ (call.round s.db).toList else s.rounds }
  | store call, s =>
    let db := call.val.exec s.db
    { db, rounds := if passes pair db = passes pair s.db then s.rounds else [] }

/-- The strikes of the pair are its rounds, each of another review. -/
structure StrikesOnce (pair : String × String) (s : StrikeRun) : Prop where
  consistent : Consistent s.db
  count : selectStrikeCount s.db.review pair.1 pair.2 = (s.rounds.filter (·.struck)).length
  struck : ∀ r ∈ s.rounds, r.struck = true →
    selectReviewStrike s.db.review pair.1 pair.2 r.reviewId = true
  once : ((s.rounds.filter (·.struck)).map (·.reviewId)).Nodup
  action : ∀ r ∈ s.rounds, r.action = nextReviewAction r.count r.budget

namespace StrikesOnce

variable {pair : String × String} {s : StrikeRun}

/-- What leaves the strikes of the pair alone. -/
theorem kept (h : StrikesOnce pair s) {db : Db} (hdb : Consistent db)
    (hcount : selectStrikeCount db.review pair.1 pair.2 =
      selectStrikeCount s.db.review pair.1 pair.2)
    (hstruck : ∀ reviewId, selectReviewStrike s.db.review pair.1 pair.2 reviewId = true →
      selectReviewStrike db.review pair.1 pair.2 reviewId = true) :
    StrikesOnce pair { s with db } where
  consistent := hdb
  count := hcount.trans h.count
  struck r hr hrec := hstruck _ (h.struck r hr hrec)
  once := h.once
  action := h.action

/-- A round without a strike. -/
theorem unstruck (h : StrikesOnce pair s) {r : Round} (hr : r.struck = false)
    (haction : r.action = nextReviewAction r.count r.budget) :
    StrikesOnce pair { s with rounds := s.rounds ++ [r] } where
  consistent := h.consistent
  count := by
    rw [List.filter_append, List.filter_singleton, hr]
    simpa using h.count
  struck r' hr' hrec := by
    rcases List.mem_append.1 hr' with hr' | hr'
    · exact h.struck r' hr' hrec
    · rw [List.mem_singleton.1 hr', hr] at hrec
      cases hrec
  once := by
    rw [List.filter_append, List.filter_singleton, hr]
    simpa using h.once
  action r' hr' := by
    rcases List.mem_append.1 hr' with hr' | hr'
    · exact h.action r' hr'
    · exact List.mem_singleton.1 hr' ▸ haction

/-- The strike of a review of the pair that had none. -/
theorem struckNew (h : StrikesOnce pair s) {db : Db} (hdb : Consistent db) {r : Round}
    (hr : r.struck = true) (haction : r.action = nextReviewAction r.count r.budget)
    (hfresh : selectReviewStrike s.db.review pair.1 pair.2 r.reviewId = false)
    (hcount : selectStrikeCount db.review pair.1 pair.2 =
      selectStrikeCount s.db.review pair.1 pair.2 + 1)
    (hkept : ∀ reviewId, selectReviewStrike s.db.review pair.1 pair.2 reviewId = true →
      selectReviewStrike db.review pair.1 pair.2 reviewId = true)
    (hstruck : selectReviewStrike db.review pair.1 pair.2 r.reviewId = true) :
    StrikesOnce pair { db, rounds := s.rounds ++ [r] } where
  consistent := hdb
  count := by
    rw [hcount, h.count, List.filter_append, List.filter_singleton, hr]
    simp
  struck r' hr' hrec := by
    rcases List.mem_append.1 hr' with hr' | hr'
    · exact hkept _ (h.struck r' hr' hrec)
    · exact List.mem_singleton.1 hr' ▸ hstruck
  once := by
    rw [List.filter_append, List.filter_singleton, hr, List.map_append]
    refine List.nodup_append.2 ⟨h.once, List.nodup_singleton _, ?_⟩
    rintro a ha b hb rfl
    obtain ⟨r', hr', rfl⟩ := List.mem_map.1 ha
    obtain ⟨hmem, hrec⟩ := List.mem_filter.1 hr'
    -- the review of an old round is struck, and the new one was not
    have hsame : r'.reviewId = r.reviewId := List.mem_singleton.1 hb
    have hold := h.struck r' hmem hrec
    rw [hsame, hfresh] at hold
    cases hold
  action r' hr' := by
    rcases List.mem_append.1 hr' with hr' | hr'
    · exact h.action r' hr'
    · exact List.mem_singleton.1 hr' ▸ haction

end StrikesOnce

/-! ### One operation -/

section

variable {pair : String × String} {s : StrikeRun}

/-- What the events of one call that strikes nobody do to the strikes of the pair. -/
structure Quiet (pair : String × String) (db db' : Db) : Prop where
  consistent : Consistent db'
  count : passes pair db' = passes pair db ∧
      selectStrikeCount db'.review pair.1 pair.2 = selectStrikeCount db.review pair.1 pair.2 ∨
    passes pair db < passes pair db' ∧ selectStrikeCount db'.review pair.1 pair.2 = 0
  struck : ∀ reviewId, selectReviewStrike db.review pair.1 pair.2 reviewId = true →
    selectReviewStrike db'.review pair.1 pair.2 reviewId = true

theorem quiet_of_emits (pair : String × String) {db db' : Db} (hdb : Consistent db) (h : Emits NoStrike db db') :
    Quiet pair db db' := by
  refine h.preserves (Quiet pair db) ?_ ⟨hdb, .inl ⟨rfl, rfl⟩, fun _ => id⟩
  rintro event mid last hquiet ⟨hmid, hcount, hstruck⟩ hcommit
  refine ⟨hmid.commit hcommit, ?_, fun id hid => struck_of_commit hmid pair hcommit (hstruck id hid)⟩
  rcases strikes_of_quiet hmid pair hcommit hquiet with ⟨hpasses, hsame⟩ | ⟨hpasses, hzero⟩
  · rw [hpasses, hsame]
    exact hcount
  · refine .inr ⟨?_, hzero⟩
    rcases hcount with ⟨hsame, -⟩ | ⟨hmore, -⟩ <;> omega

theorem StrikesOnce.store (h : StrikesOnce pair s)
    (call : { call : StoreCall // call.strikes = false }) :
    StrikesOnce pair ((StrikeOp.store call).exec pair s) := by
  obtain ⟨hdb, hcount, hstruck⟩ := quiet_of_emits pair h.consistent
    (StoreCall.exec_noStrike h.consistent call.property)
  rcases hcount with ⟨hpasses, hsame⟩ | ⟨hmore, hzero⟩
  · have hexec : (StrikeOp.store call).exec pair s = { s with db := call.val.exec s.db } := by
      simp only [StrikeOp.exec, if_pos hpasses]
    rw [hexec]
    exact h.kept hdb hsame hstruck
  · have hexec : (StrikeOp.store call).exec pair s = ⟨call.val.exec s.db, []⟩ := by
      simp only [StrikeOp.exec, if_neg (Nat.ne_of_gt hmore)]
    rw [hexec]
    exact ⟨hdb, hzero, by simp, by simp, by simp⟩

/-- The round of a call of the pair, and the state after it. -/
theorem StrikesOnce.policy (h : StrikesOnce pair s) (call : PolicyCall) :
    StrikesOnce pair ((StrikeOp.policy call).exec pair s) := by
  have hmailed : ∀ {mid}, Mailed s.db mid → StrikesOnce pair { s with db := mid } := by
    intro mid hmid
    have hquiet := quiet_of_emits pair h.consistent hmid.noStrike
    refine h.kept hquiet.consistent ?_ hquiet.struck
    rw [hmid.review]
  have hplan : (call.plan s.db).action = nextReviewAction (call.count s.db) call.deps.budget := rfl
  have hrun : call.run s.db = ((call.run s.db).1, call.run.exec s.db) := rfl
  generalize hresult : (call.run s.db).1 = result at hrun
  generalize hlast : call.run.exec s.db = last at hrun
  have hexec : (StrikeOp.policy call).exec pair s =
      { db := last
        rounds := if call.pair = pair then s.rounds ++ (call.round s.db).toList else s.rounds } := by
    rw [StrikeOp.exec, hlast]
  rw [hexec]
  cases call.ends h.consistent hrun with
  | already hstruck =>
    have hround : call.round s.db = none := by simp [PolicyCall.round, hstruck]
    simp only [hround, Option.toList_none, List.append_nil, ite_self]
    exact h
  | unheard hfresh hmid hnotify =>
    have hround : call.round s.db = none := by
      simp [PolicyCall.round, hfresh, hresult, hnotify, Except.toOption]
    simp only [hround, Option.toList_none, List.append_nil, ite_self]
    exact hmailed hmid
  | unrecorded hfresh hmid hnotify hrecord =>
    by_cases hpair : call.pair = pair
    · rw [if_pos hpair]
      by_cases hfires : (call.plan s.db).fireEscalation = true
      · have hround : call.round s.db = some ⟨call.ctx.reviewId, call.count s.db,
            call.deps.budget, (call.plan s.db).action, false, true⟩ := by
          simp [PolicyCall.round, hfresh, hresult, hnotify, hfires, Except.toOption]
        rw [hround]
        exact (hmailed hmid).unstruck rfl hplan
      · have hround : call.round s.db = none := by
          simp [PolicyCall.round, hfresh, hresult, hnotify, hfires, Except.toOption]
        rw [hround, Option.toList_none, List.append_nil]
        exact hmailed hmid
    · rw [if_neg hpair]
      exact hmailed hmid
  | @recorded mid _ event hfresh hmid hnotify hevent hcommit =>
    have hafter := hmailed hmid
    have hfresh' : selectReviewStrike mid.review call.strike.target call.strike.branch
        call.strike.reviewId = false := by
      rw [hmid.review]
      exact hfresh
    obtain ⟨hstruck, hcount⟩ := strikes_of_strike hafter.consistent pair hevent hfresh' hcommit
    have hkept : ∀ id, selectReviewStrike mid.review pair.1 pair.2 id = true →
        selectReviewStrike _ pair.1 pair.2 id = true :=
      fun _ hid => struck_of_commit hafter.consistent pair hcommit hid
    by_cases hpair : call.pair = pair
    · subst hpair
      have hround : call.round s.db = some ⟨call.ctx.reviewId, call.count s.db,
          call.deps.budget, (call.plan s.db).action, true, (call.plan s.db).fireEscalation⟩ := by
        simp [PolicyCall.round, hfresh, hresult, hnotify, Except.toOption]
      rw [if_pos rfl, hround]
      refine hafter.struckNew (hafter.consistent.commit hcommit) rfl hplan ?_ ?_ hkept hstruck
      · exact hfresh'
      · rw [hcount]
        exact congrArg _ (if_pos rfl)
    · rw [if_neg hpair]
      refine hafter.kept (hafter.consistent.commit hcommit) ?_ hkept
      rw [hcount, if_neg fun heq => hpair heq.symm, Nat.add_zero]

theorem StrikesOnce.step (op : StrikeOp) (h : StrikesOnce pair s) :
    StrikesOnce pair (op.exec pair s) := by
  cases op with
  | policy call => exact h.policy call
  | store call => exact h.store call

end

/-! ### The escalation -/

/-- The rounds since a `PASS` in which no call returned `escalate`, or one fired the escalation: the
first whose count was at or above its budget. -/
inductive EscalatesOnce (rounds : List Round) : Prop where
  | quiet (h : ∀ r ∈ rounds, r.fired = false ∧ r.count < r.budget ∧ r.action = .kickback) :
      EscalatesOnce rounds
  | once {earlier : List Round} {first : Round} {later : List Round}
      (hrounds : rounds = earlier ++ first :: later)
      (hearlier : ∀ r ∈ earlier, r.fired = false ∧ r.count < r.budget)
      (hfirst : first.fired = true ∧ first.budget ≤ first.count ∧ first.action = .escalate)
      (hlater : ∀ r ∈ later, r.fired = false) : EscalatesOnce rounds

/-- The budget of a call of the pair is met by its count at most once, and not passed before. -/
def StrikeOp.MeetsBudget (pair : String × String) : StrikeOp → StrikeRun → Prop
  | policy call, s => call.pair = pair → call.struck s.db = false →
      (call.deps.budget < call.count s.db → ∃ r ∈ s.rounds, r.action = .escalate) ∧
      (call.deps.budget = call.count s.db → ∀ r ∈ s.rounds, r.action = .kickback)
  | store _, _ => True

instance (pair : String × String) (op : StrikeOp) (s : StrikeRun) :
    Decidable (op.MeetsBudget pair s) :=
  match op with
  | .policy call => inferInstanceAs (Decidable (call.pair = pair → call.struck s.db = false →
      (call.deps.budget < call.count s.db → ∃ r ∈ s.rounds, r.action = .escalate) ∧
      (call.deps.budget = call.count s.db → ∀ r ∈ s.rounds, r.action = .kickback)))
  | .store _ => .isTrue trivial

theorem EscalatesOnce.concat {rounds : List Round} (h : EscalatesOnce rounds) {r : Round}
    (haction : r.action = nextReviewAction r.count r.budget)
    (hfired : r.fired = true ↔ r.budget = r.count)
    (hpassed : r.budget < r.count → ∃ r ∈ rounds, r.action = .escalate)
    (hmet : r.budget = r.count → ∀ r ∈ rounds, r.action = .kickback) :
    EscalatesOnce (rounds ++ [r]) := by
  cases h with
  | quiet hquiet =>
    rcases Nat.lt_trichotomy r.count r.budget with hbelow | hsame | habove
    · refine .quiet fun r' hr' => ?_
      rcases List.mem_append.1 hr' with hr' | hr'
      · exact hquiet r' hr'
      · obtain rfl := List.mem_singleton.1 hr'
        refine ⟨?_, hbelow, ?_⟩
        · exact Bool.eq_false_iff.2 fun hfires => Nat.ne_of_gt hbelow (hfired.1 hfires)
        · rw [haction, nextReviewAction, if_neg (Nat.not_le.2 hbelow)]
    · refine .once rfl (fun r' hr' => ⟨(hquiet r' hr').1, (hquiet r' hr').2.1⟩) ?_ (by simp)
      refine ⟨hfired.2 hsame.symm, Nat.le_of_eq hsame.symm, ?_⟩
      rw [haction, nextReviewAction, if_pos (Nat.le_of_eq hsame.symm)]
    · obtain ⟨r', hr', hescalate⟩ := hpassed habove
      rw [(hquiet r' hr').2.2] at hescalate
      cases hescalate
  | @once earlier first later hrounds hearlier hfirst hlater =>
    have hescalated : first ∈ rounds := hrounds ▸ List.mem_append_right _ List.mem_cons_self
    have hconcat : rounds ++ [r] = earlier ++ first :: (later ++ [r]) := by
      rw [hrounds, List.append_assoc, List.cons_append]
    refine .once hconcat hearlier hfirst fun r' hr' => ?_
    · rcases List.mem_append.1 hr' with hr' | hr'
      · exact hlater r' hr'
      · obtain rfl := List.mem_singleton.1 hr'
        refine Bool.eq_false_iff.2 fun hfires => ?_
        have hkickback := hmet (hfired.1 hfires) first hescalated
        rw [hfirst.2.2] at hkickback
        cases hkickback

section

variable {pair : String × String} {s : StrikeRun}

/-- The plan fires just when the count meets the budget. -/
theorem PolicyCall.fireEscalation_iff (call : PolicyCall) (db : Db) :
    (call.plan db).fireEscalation = true ↔ call.deps.budget = call.count db := by
  change decide (nextReviewAction (call.count db) call.deps.budget = .escalate ∧
    call.count db = call.deps.budget) = true ↔ _
  rw [decide_eq_true_iff, nextReviewAction]
  constructor
  · rintro ⟨-, hsame⟩
    exact hsame.symm
  · intro hsame
    exact ⟨if_pos (Nat.le_of_eq hsame), hsame.symm⟩

/-- What a round says of the call that made it. -/
theorem PolicyCall.round_eq_some (call : PolicyCall) {db : Db} (hdb : Consistent db) {r : Round}
    (h : call.round db = some r) : call.struck db = false ∧ r.count = call.count db ∧
      r.budget = call.deps.budget ∧ r.action = nextReviewAction r.count r.budget ∧
      (r.fired = true ↔ r.budget = r.count) := by
  unfold PolicyCall.round at h
  dsimp only at h
  split at h
  · next hmakes =>
    obtain ⟨hfresh, hstruck⟩ := hmakes
    obtain rfl := Option.some.inj h
    refine ⟨hfresh, rfl, rfl, rfl, ?_⟩
    simp only [Bool.and_eq_true, ← call.fireEscalation_iff]
    refine ⟨And.left, fun hfires => ⟨hfires, ?_⟩⟩
    rcases hstruck with hstruck | hfired
    · -- the call returned, so its notification did
      have hrun : call.run db = ((call.run db).1, call.run.exec db) := rfl
      generalize (call.run db).1 = result at hrun hstruck
      generalize call.run.exec db = last at hrun
      cases call.ends hdb hrun with
      | already h => exact absurd h (Bool.eq_false_iff.1 hfresh)
      | unheard | unrecorded => cases hstruck
      | recorded _ _ hnotify =>
        rw [hnotify]
        rfl
    · exact (Bool.and_eq_true_iff.1 hfired).2
  · cases h

theorem EscalatesOnce.step (hstrikes : StrikesOnce pair s) (h : EscalatesOnce s.rounds)
    {op : StrikeOp} (hop : op.MeetsBudget pair s) : EscalatesOnce (op.exec pair s).rounds := by
  cases op with
  | store call =>
    simp only [StrikeOp.exec]
    split
    · exact h
    · exact .quiet (by simp)
  | policy call =>
    simp only [StrikeOp.exec]
    split
    · next hpair =>
      cases hmakes : call.round s.db with
      | none => rwa [Option.toList_none, List.append_nil]
      | some r =>
        obtain ⟨hfresh, hcount, hbudget, haction, hfired⟩ :=
          call.round_eq_some hstrikes.consistent hmakes
        obtain ⟨hpassed, hmet⟩ := hop hpair hfresh
        rw [← hcount, ← hbudget] at hpassed hmet
        exact h.concat haction hfired hpassed hmet
    · exact h

end

/-- In every run of calls of the policy, through any handles and with any budgets, among any other
calls of the stores: a review that is struck is not struck again, and the strikes of the pair since
its last `PASS` are of different reviews. While no budget is passed before it was met, or met again,
a run without a `PASS` in which some call returns `escalate` has fired one escalation, by the first
call whose count was at or above its budget. -/
theorem strikes_escalate_once (clock : ℕ → ℕ) (pair : String × String) (ops : List StrikeOp) :
    let start : StrikeRun := { db := { clock } }
    let s := Run.after (StrikeOp.exec pair) ops start
    (∀ call : PolicyCall, call.struck s.db = true → call.run s.db = (.ok .alreadyStruck, s.db)) ∧
    StrikesOnce pair s ∧
    (Run.Guarded (StrikeOp.exec pair) (StrikeOp.MeetsBudget pair) ops start →
      EscalatesOnce s.rounds) := by
  intro start s
  have hstart : StrikesOnce pair start := ⟨.empty clock, rfl, by simp [start], by simp [start],
    by simp [start]⟩
  have hstrikes : StrikesOnce pair s :=
    Run.always (StrikesOnce pair) (fun op _ hs => hs.step op) hstart
  refine ⟨fun call hstruck => ?_, hstrikes, fun hguarded => ?_⟩
  · have hrun : call.run s.db = ((call.run s.db).1, call.run.exec s.db) := rfl
    generalize (call.run s.db).1 = result at hrun
    generalize call.run.exec s.db = last at hrun
    cases call.ends hstrikes.consistent hrun with
    | already => exact hrun
    | unheard hfresh | unrecorded hfresh | recorded hfresh =>
      rw [hstruck] at hfresh
      cases hfresh
  · have hboth : StrikesOnce pair s ∧ EscalatesOnce s.rounds := by
      refine Run.invariant (fun s => StrikesOnce pair s ∧ EscalatesOnce s.rounds) ?_ hguarded
        ⟨hstart, .quiet (by simp [start])⟩
      rintro op s hop ⟨hs, honce⟩
      exact ⟨hs.step op, honce.step hs hop⟩
    exact hboth.2

/-- An `ISSUES` verdict on the parser, answered under a budget. -/
def strikeParser (reviewId : String) (budget : ℕ) : StrikeOp :=
  .policy (.bare .live (fun _ => .ok "manager") "reviewer" budget
    { reviewId, target := "main", branch := "parser", blockers := [] })

/-- The parser passes. -/
def passParser (reviewId : String) : StrikeOp :=
  .store ⟨.review (.recordVerdict
    { reviewId, target := "main", branch := "parser", reviewer := "reviewer", verdict := .pass }),
    rfl⟩

/-- Two strikes, a `PASS`, and three more under a budget of two. -/
def strikesAroundPass : List StrikeOp :=
  [strikeParser "r1" 3, strikeParser "r2" 3, passParser "r3", strikeParser "r4" 2,
    strikeParser "r5" 2, strikeParser "r6" 2]

theorem strikes_escalate_once_of_strikesAroundPass :
    EscalatesOnce (Run.after (StrikeOp.exec ("main", "parser")) strikesAroundPass
      { db := { clock := fun _ => 0 } }).rounds :=
  (strikes_escalate_once (fun _ => 0) ("main", "parser") strikesAroundPass).2.2
    (by decide +kernel)

/-- A budget that is lowered below the count stops the loop without an escalation. -/
theorem lowered_budget_fires_nothing :
    ¬ ∀ (clock : ℕ → ℕ) (pair : String × String) (ops : List StrikeOp),
      EscalatesOnce (Run.after (StrikeOp.exec pair) ops { db := { clock } }).rounds := by
  intro hall
  have honce := hall (fun _ => 0) ("main", "parser") [strikeParser "r1" 3, strikeParser "r2" 1]
  have hsilent : ∀ r ∈ (Run.after (StrikeOp.exec ("main", "parser"))
      [strikeParser "r1" 3, strikeParser "r2" 1] { db := { clock := fun _ => 0 } }).rounds,
      r.fired = false := by
    decide +kernel
  have hescalates : ∃ r ∈ (Run.after (StrikeOp.exec ("main", "parser"))
      [strikeParser "r1" 3, strikeParser "r2" 1] { db := { clock := fun _ => 0 } }).rounds,
      r.action = .escalate := by
    decide +kernel
  cases honce with
  | quiet hquiet =>
    obtain ⟨r, hr, haction⟩ := hescalates
    rw [(hquiet r hr).2.2] at haction
    cases haction
  | once hrounds _ hfirst =>
    have hfires := hsilent _ (hrounds ▸ List.mem_append_right _ List.mem_cons_self)
    rw [hfirst.1] at hfires
    cases hfires

end Orchestration.Replay
