import Orchestration.Review.Serialize

/-!
# Read-time repairs of the review tables

Every read of the review store first brings tables of older builds up to date
from the log: the index of requested review ids, the log position of verdicts
that lack one, and the strikes. On a database whose projections are the fold of
its log there is nothing to repair.
-/

namespace Orchestration.Review

open Fallible Transaction

/-- Index every requested review id of the log that is not indexed. -/
def backfillReviewRequestIds (events : List (StoredEvent Payload)) (t : ReviewTables) :
    ReviewTables :=
  { t with
    reviewRequestIds := events.foldl
      (fun ids event =>
        match event.payload with
        | .review (.requested r) => (ids.insert? ⟨r.reviewId, r.target, r.branch⟩).getD ids
        | _ => ids)
      t.reviewRequestIds }

/-- The latest verdict event of the log that a row could have been folded from. -/
def verdictSeqFromEvents (events : List (StoredEvent Payload)) (row : ReviewRow) : Option ℕ :=
  ((events.filter fun event =>
    match event.payload with
    | .review (.verdict v) =>
      v.target == row.target && v.branch == row.branch && some v.reviewId == row.reviewId &&
        v.scope.getD .workerMerge == row.scope
    | _ => false).getLast?).map (·.seq)

/-- Give the verdicts that have no log position one. -/
def backfillReviewVerdictSeq (events : List (StoredEvent Payload)) (t : ReviewTables) :
    ReviewTables :=
  { t with
    reviews := t.reviews.updateWhere
      (fun row => row.verdict.isSome && row.verdictSeq.isNone)
      { run := fun row => { row with verdictSeq := verdictSeqFromEvents events row } } }

/-- The strikes of one branch on one target as the log tells them: the reviews that have
consumed theirs, and those of them since the last `PASS`. -/
structure StrikeState where
  target : String
  branch : String
  consumed : List String := []
  visible : List String := []
deriving DecidableEq, Repr

def StrikeState.key (state : StrikeState) : String × String := (state.target, state.branch)

/-- A strike counts once. -/
def StrikeState.strike (state : StrikeState) (reviewId : String) : StrikeState :=
  if reviewId ∈ state.consumed then state
  else
    { state with
      consumed := state.consumed ++ [reviewId]
      visible := state.visible ++ [reviewId] }

/-- A `PASS` clears the visible strikes. -/
def StrikeState.verdict (state : StrikeState) (verdict : Verdict) : StrikeState :=
  if verdict = .pass then { state with visible := [] } else state

@[simp] theorem StrikeState.key_strike (state : StrikeState) (reviewId : String) :
    (state.strike reviewId).key = state.key := by
  unfold strike
  split <;> rfl

@[simp] theorem StrikeState.key_verdict (state : StrikeState) (verdict : Verdict) :
    (state.verdict verdict).key = state.key := by
  unfold StrikeState.verdict
  split <;> rfl

/-- Count one event of the log. The source keys the states by target and branch joined with a
NUL, which is in neither. -/
def strikeStatesStep (states : Table StrikeState.key) (event : StoredEvent Payload) :
    Table StrikeState.key :=
  match event.payload with
  | .review (.strike s) =>
    states.upsert (StrikeState.strike { target := s.target, branch := s.branch } s.reviewId)
      { run := (·.strike s.reviewId), keeps := fun _ => StrikeState.key_strike _ _ }
  | .review (.verdict v) =>
    states.upsert { target := v.target, branch := v.branch }
      { run := (·.verdict v.verdict), keeps := fun _ => StrikeState.key_verdict _ _ }
  | _ => states

def strikeStates (events : List (StoredEvent Payload)) : Table StrikeState.key :=
  events.foldl strikeStatesStep {}

/-- Record one state's strikes. -/
def backfillStrikeState (t : ReviewTables) (state : StrikeState) : ReviewTables :=
  { t with
    reviewStrikes := state.consumed.foldl
      (fun strikes reviewId =>
        (strikes.insert? ⟨state.target, state.branch, reviewId⟩).getD strikes)
      t.reviewStrikes
    reviews := t.reviews.upsert
      { target := state.target, branch := state.branch, strikes := state.visible.length }
      { run := fun row => { row with strikes := state.visible.length } } }

/-- Recount the strikes from the log. -/
def backfillReviewStrikes (events : List (StoredEvent Payload)) (t : ReviewTables) :
    ReviewTables :=
  (strikeStates events).rows.foldl backfillStrikeState t

/-- What every read of the review store does first. -/
def ensureReviewTables : StoreTx Unit := do
  let db ← get
  let review := backfillReviewRequestIds db.events db.review
  let review := backfillReviewVerdictSeq db.events review
  let review := backfillReviewStrikes db.events review
  set { db with review }

/-! ## Nothing to repair -/

/-- The consumed and the visible strikes of a pair. -/
def consumedStrikes (states : Table StrikeState.key) (key : String × String) : List String :=
  ((states.find? key).map (·.consumed)).getD []

def visibleStrikes (states : Table StrikeState.key) (key : String × String) : List String :=
  ((states.find? key).map (·.visible)).getD []

/-- The review tables agree with what the repairs would recompute from the log. -/
structure UpToDate (events : List (StoredEvent Payload)) (t : ReviewTables) : Prop where
  indexed : ∀ event ∈ events, ∀ r, event.payload = .review (.requested r) →
    (t.reviewRequestIds.find? r.reviewId).isSome = true
  verdictSeq : ∀ row ∈ t.reviews.rows, row.verdict.isSome = true → row.verdictSeq.isSome = true
  struck : ∀ target branch reviewId, selectReviewStrike t target branch reviewId = true ↔
    reviewId ∈ consumedStrikes (strikeStates events) (target, branch)
  counted : ∀ target branch, selectStrikeCount t target branch =
    (visibleStrikes (strikeStates events) (target, branch)).length
  known : ∀ key, ((strikeStates events).find? key).isSome = true →
    (t.reviews.find? key).isSome = true

section

variable {events : List (StoredEvent Payload)} {t : ReviewTables}

theorem UpToDate.requestIds (h : UpToDate events t) : backfillReviewRequestIds events t = t := by
  unfold backfillReviewRequestIds
  rw [Table.foldl_eq_self]
  intro event hevent
  split
  · next r hr => rw [Table.insert?_eq_none (h.indexed event hevent r hr)]; rfl
  · rfl

theorem UpToDate.verdictSeqs (h : UpToDate events t) : backfillReviewVerdictSeq events t = t := by
  refine congrArg (fun reviews => { t with reviews }) (Table.updateWhere_eq_self ?_)
  intro row hrow hp
  simp only [Bool.and_eq_true] at hp
  simp [Option.isSome_iff_ne_none.1 (h.verdictSeq row hrow hp.1)] at hp

theorem UpToDate.strikes (h : UpToDate events t) : backfillReviewStrikes events t = t := by
  refine Table.foldl_eq_self fun state hstate => ?_
  have hfind : (strikeStates events).find? (state.target, state.branch) = some state :=
    Table.find?_eq_some.2 ⟨hstate, rfl⟩
  obtain ⟨row, hrow⟩ := Option.isSome_iff_exists.1
    (h.known (state.target, state.branch) (by rw [hfind]; rfl))
  have hcount := h.counted state.target state.branch
  simp only [selectStrikeCount, visibleStrikes, hrow, hfind, Option.map_some,
    Option.getD_some] at hcount
  have hstrikes : state.consumed.foldl
      (fun strikes reviewId =>
        (strikes.insert? ⟨state.target, state.branch, reviewId⟩).getD strikes)
      t.reviewStrikes = t.reviewStrikes := by
    refine Table.foldl_eq_self fun reviewId hid => ?_
    have hstruck := (h.struck state.target state.branch reviewId).2
      (by simpa [consumedStrikes, hfind] using hid)
    rw [Table.insert?_eq_none hstruck]
    rfl
  rw [backfillStrikeState, hstrikes]
  refine congrArg (fun reviews => { t with reviews }) ?_
  exact Table.upsert_eq_self (r := row) (by exact hrow) (by simp [← hcount])

/-- The three repairs find nothing to do. -/
theorem UpToDate.backfill (h : UpToDate events t) :
    backfillReviewStrikes events
      (backfillReviewVerdictSeq events (backfillReviewRequestIds events t)) = t := by
  rw [h.requestIds, h.verdictSeqs, h.strikes]

end

theorem strikeStates_append (events : List (StoredEvent Payload)) (event : StoredEvent Payload) :
    strikeStates (events ++ [event]) = strikeStatesStep (strikeStates events) event := by
  simp [strikeStates]

section States

variable {states : Table StrikeState.key} {key : String × String}

theorem find?_strike {event : StoredEvent Payload} {s : ReviewStrike}
    (hevent : event.payload = .review (.strike s)) :
    (strikeStatesStep states event).find? key =
      if key = (s.target, s.branch) then
        some (((states.find? key).map (·.strike s.reviewId)).getD
          (StrikeState.strike { target := s.target, branch := s.branch } s.reviewId))
      else states.find? key := by
  simp only [strikeStatesStep, hevent, Table.find?_upsert, StrikeState.key_strike]
  rfl

theorem find?_verdict {event : StoredEvent Payload} {v : ReviewVerdictRecorded}
    (hevent : event.payload = .review (.verdict v)) :
    (strikeStatesStep states event).find? key =
      if key = (v.target, v.branch) then
        some (((states.find? key).map (·.verdict v.verdict)).getD
          { target := v.target, branch := v.branch })
      else states.find? key := by
  simp only [strikeStatesStep, hevent, Table.find?_upsert]
  rfl

theorem consumedStrikes_strike {event : StoredEvent Payload} {s : ReviewStrike}
    (hevent : event.payload = .review (.strike s)) :
    consumedStrikes (strikeStatesStep states event) key =
      if key = (s.target, s.branch) ∧ s.reviewId ∉ consumedStrikes states key then
        consumedStrikes states key ++ [s.reviewId]
      else consumedStrikes states key := by
  simp only [consumedStrikes, find?_strike hevent]
  by_cases hk : key = (s.target, s.branch)
  · subst hk
    rcases Option.eq_none_or_eq_some (states.find? (s.target, s.branch)) with hfind | ⟨state, hfind⟩
    · simp [hfind, StrikeState.strike]
    · by_cases hid : s.reviewId ∈ state.consumed <;> simp [hfind, hid, StrikeState.strike]
  · simp [hk]

theorem visibleStrikes_strike {event : StoredEvent Payload} {s : ReviewStrike}
    (hevent : event.payload = .review (.strike s)) :
    visibleStrikes (strikeStatesStep states event) key =
      if key = (s.target, s.branch) ∧ s.reviewId ∉ consumedStrikes states key then
        visibleStrikes states key ++ [s.reviewId]
      else visibleStrikes states key := by
  simp only [consumedStrikes, visibleStrikes, find?_strike hevent]
  by_cases hk : key = (s.target, s.branch)
  · subst hk
    rcases Option.eq_none_or_eq_some (states.find? (s.target, s.branch)) with hfind | ⟨state, hfind⟩
    · simp [hfind, StrikeState.strike]
    · by_cases hid : s.reviewId ∈ state.consumed <;> simp [hfind, hid, StrikeState.strike]
  · simp [hk]

theorem consumedStrikes_verdict {event : StoredEvent Payload} {v : ReviewVerdictRecorded}
    (hevent : event.payload = .review (.verdict v)) :
    consumedStrikes (strikeStatesStep states event) key = consumedStrikes states key := by
  simp only [consumedStrikes, find?_verdict hevent]
  cases states.find? key <;> by_cases hk : key = (v.target, v.branch) <;>
    simp [hk, StrikeState.verdict]
  split <;> rfl

theorem visibleStrikes_verdict {event : StoredEvent Payload} {v : ReviewVerdictRecorded}
    (hevent : event.payload = .review (.verdict v)) :
    visibleStrikes (strikeStatesStep states event) key =
      if key = (v.target, v.branch) ∧ v.verdict = .pass then [] else visibleStrikes states key := by
  simp only [visibleStrikes, find?_verdict hevent]
  cases states.find? key <;> by_cases hk : key = (v.target, v.branch) <;>
    by_cases hv : v.verdict = .pass <;> simp [hk, hv, StrikeState.verdict]

end States

theorem selectStrikeCount_upsert {t t' : ReviewTables} {row : ReviewRow}
    {update : Table.Update ReviewRow.key} (h : t'.reviews = t.reviews.upsert row update)
    {target branch : String} :
    selectStrikeCount t' target branch =
      if (target, branch) = row.key then
        (((t.reviews.find? (target, branch)).map update.run).getD row).strikes
      else selectStrikeCount t target branch := by
  simp only [selectStrikeCount, h, Table.find?_upsert]
  split <;> simp

/-- An event that touches no strike: it may index a review id and write columns of one row. -/
theorem UpToDate.quiet {events : List (StoredEvent Payload)} {t : ReviewTables}
    (h : UpToDate events t) {event : StoredEvent Payload}
    (hstates : ∀ states, strikeStatesStep states event = states)
    {ids : Table RequestIdRow.reviewId}
    (hids : ∀ reviewId, (t.reviewRequestIds.find? reviewId).isSome = true →
      (ids.find? reviewId).isSome = true)
    (hnew : ∀ r, event.payload = .review (.requested r) → (ids.find? r.reviewId).isSome = true)
    {row : ReviewRow} {update : Table.Update ReviewRow.key}
    (hrow : row.strikes = 0 ∧ row.verdict = none)
    (hupdate : ∀ r, (update.run r).strikes = r.strikes ∧
      ((update.run r).verdict = none ∨
        (update.run r).verdict = r.verdict ∧ (update.run r).verdictSeq = r.verdictSeq)) :
    UpToDate (events ++ [event])
      { t with reviewRequestIds := ids, reviews := t.reviews.upsert row update } where
  indexed e he r hr := by
    rcases List.mem_append.1 he with he | he
    · exact hids r.reviewId (h.indexed e he r hr)
    · exact hnew r (List.mem_singleton.1 he ▸ hr)
  verdictSeq r hr hv := by
    rcases Table.mem_upsert hr with hr | ⟨old, hold, -, rfl⟩ | rfl
    · exact h.verdictSeq r hr hv
    · rcases (hupdate old).2 with hnone | ⟨hverdict, hseq⟩
      · simp [hnone] at hv
      · rw [hseq]
        exact h.verdictSeq old hold (hverdict ▸ hv)
    · simp [hrow.2] at hv
  struck target branch reviewId := by
    rw [strikeStates_append, hstates]
    exact h.struck target branch reviewId
  counted target branch := by
    have hcount := h.counted target branch
    rw [strikeStates_append, hstates, ← hcount, selectStrikeCount_upsert (t := t) rfl]
    split
    · next hkey =>
      rcases Option.eq_none_or_eq_some (t.reviews.find? (target, branch)) with hr | ⟨r, hr⟩
      · simp [selectStrikeCount, hr, hrow.1]
      · simp [selectStrikeCount, hr, (hupdate r).1]
    · rfl
  known key hkey := by
    rw [strikeStates_append, hstates] at hkey
    simp only [Table.find?_upsert]
    split
    · rfl
    · exact h.known key hkey

theorem UpToDate.strike {events : List (StoredEvent Payload)} {t t' : ReviewTables}
    (h : UpToDate events t) {event : StoredEvent Payload} {s : ReviewStrike}
    (hevent : event.payload = .review (.strike s)) (happly : applyStrike t s = .ok t') :
    UpToDate (events ++ [event]) t' := by
  have hnew : ∀ r, event.payload ≠ .review (.requested r) := by simp [hevent]
  unfold applyStrike at happly
  split at happly
  · next hstruck =>
    -- the review was struck before: neither the tables nor the states change
    obtain rfl := pure_eq_ok.1 happly
    have hmem := (h.struck s.target s.branch s.reviewId).1 hstruck
    refine ⟨?_, h.verdictSeq, ?_, ?_, ?_⟩
    · intro e he r hr
      rcases List.mem_append.1 he with he | he
      · exact h.indexed e he r hr
      · exact absurd (List.mem_singleton.1 he ▸ hr) (hnew r)
    · intro target branch reviewId
      rw [strikeStates_append, consumedStrikes_strike hevent, if_neg (by grind)]
      exact h.struck target branch reviewId
    · intro target branch
      rw [strikeStates_append, visibleStrikes_strike hevent, if_neg (by grind)]
      exact h.counted target branch
    · intro key hkey
      rw [strikeStates_append, find?_strike hevent] at hkey
      split at hkey
      · next hk =>
        apply h.known
        unfold consumedStrikes at hmem
        cases hfind : (strikeStates events).find? (s.target, s.branch) with
        | none => simp [hfind] at hmem
        | some state => simp [hk, hfind]
      · exact h.known key hkey
  · next hstruck =>
    have hmem : s.reviewId ∉ consumedStrikes (strikeStates events) (s.target, s.branch) :=
      fun hmem => hstruck ((h.struck s.target s.branch s.reviewId).2 hmem)
    obtain ⟨strikes, hinsert, hpure⟩ := bind_eq_ok.1 happly
    rw [orThrow_eq_ok] at hinsert
    obtain rfl := pure_eq_ok.1 hpure
    refine ⟨?_, ?_, ?_, ?_, ?_⟩
    · intro e he r hr
      rcases List.mem_append.1 he with he | he
      · exact h.indexed e he r hr
      · exact absurd (List.mem_singleton.1 he ▸ hr) (hnew r)
    · intro row hrow hv
      rcases Table.mem_upsert hrow with hrow | ⟨old, hold, -, rfl⟩ | rfl
      · exact h.verdictSeq row hrow hv
      · exact h.verdictSeq old hold hv
      · simp at hv
    · intro target branch reviewId
      rw [strikeStates_append, consumedStrikes_strike hevent]
      have hold := h.struck target branch reviewId
      simp only [selectReviewStrike, Table.find?_insert? hinsert] at hold ⊢
      grind
    · intro target branch
      rw [strikeStates_append, visibleStrikes_strike hevent, selectStrikeCount_upsert (t := t) rfl]
      change (if (target, branch) = (s.target, s.branch) then _ else _) = _
      have hold := h.counted target branch
      by_cases hk : (target, branch) = (s.target, s.branch)
      · rw [if_pos hk, if_pos ⟨hk, hk ▸ hmem⟩,
          List.length_append, ← hold, selectStrikeCount]
        cases t.reviews.find? (target, branch) <;> rfl
      · rw [if_neg hk, if_neg fun h => hk h.1, hold]
    · intro key hkey
      rw [strikeStates_append, find?_strike hevent] at hkey
      simp only [Table.find?_upsert]
      split
      · rfl
      · next hk =>
        rw [if_neg (show ¬ key = (s.target, s.branch) from hk)] at hkey
        exact h.known key hkey

/-- The columns a verdict writes keep the key; its strikes are cleared by a `PASS`. -/
theorem UpToDate.verdict {events : List (StoredEvent Payload)} {t t' : ReviewTables}
    (h : UpToDate events t) {event : StoredEvent Payload} {event' : StoredEvent ReviewEvent}
    {v : ReviewVerdictRecorded} (hevent : event.payload = .review (.verdict v))
    (happly : applyVerdict t event' v = .ok t') : UpToDate (events ++ [event]) t' := by
  have hnew : ∀ r, event.payload ≠ .review (.requested r) := by simp [hevent]
  simp only [applyVerdict, bind_eq_ok, pure_eq_ok] at happly
  obtain ⟨-, -, -, -, rfl⟩ := happly
  refine ⟨?_, ?_, ?_, ?_, ?_⟩
  · intro e he r hr
    rcases List.mem_append.1 he with he | he
    · exact h.indexed e he r hr
    · exact absurd (List.mem_singleton.1 he ▸ hr) (hnew r)
  · intro row hrow hv
    rcases Table.mem_upsert hrow with hrow | ⟨old, -, -, rfl⟩ | rfl
    · exact h.verdictSeq row hrow hv
    · rfl
    · rfl
  · intro target branch reviewId
    rw [strikeStates_append, consumedStrikes_verdict hevent]
    exact h.struck target branch reviewId
  · intro target branch
    rw [strikeStates_append, visibleStrikes_verdict hevent, selectStrikeCount_upsert (t := t) rfl]
    change (if (target, branch) = (v.target, v.branch) then _ else _) = _
    have hold := h.counted target branch
    by_cases hk : (target, branch) = (v.target, v.branch)
    · rw [if_pos hk]
      by_cases hv : v.verdict = .pass
      · rw [if_pos ⟨hk, hv⟩]
        cases t.reviews.find? (target, branch) <;> simp [verdictColumns, hv]
      · rw [if_neg fun h => hv h.2, ← hold, selectStrikeCount]
        cases t.reviews.find? (target, branch) <;> simp [verdictColumns, hv]
    · rw [if_neg hk, if_neg fun h => hk h.1, hold]
  · intro key hkey
    rw [strikeStates_append, find?_verdict hevent] at hkey
    simp only [Table.find?_upsert]
    split
    · rfl
    · next hk =>
      rw [if_neg (show ¬ key = (v.target, v.branch) from hk)] at hkey
      exact h.known key hkey

/-- Folding a review event keeps the tables up to date with the log. -/
theorem UpToDate.apply {events : List (StoredEvent Payload)} {t t' : ReviewTables}
    (h : UpToDate events t) {event : StoredEvent Payload} {payload : ReviewEvent}
    (hevent : event.payload = .review payload)
    (happly : ReviewProjector.apply t (event.withPayload payload) = .ok t') :
    UpToDate (events ++ [event]) t' := by
  have hother : (∀ r, event.payload ≠ .review (.requested r)) → ∀ r,
      event.payload = .review (.requested r) → (t.reviewRequestIds.find? r.reviewId).isSome = true :=
    fun hne r hr => absurd hr (hne r)
  cases payload with
  | strike s => exact h.strike hevent happly
  | verdict v => exact h.verdict hevent happly
  | requested r =>
    have hstates : ∀ states, strikeStatesStep states event = states := by
      simp [strikeStatesStep, hevent]
    change applyRequested t (event.withPayload (.requested r)) r = .ok t' at happly
    unfold applyRequested at happly
    split at happly
    · next existing hid =>
      -- an exact repetition of the latest request
      simp only [bind_eq_ok, pure_eq_ok] at happly
      obtain ⟨-, -, -, -, rfl⟩ := happly
      refine ⟨?_, h.verdictSeq, ?_, ?_, ?_⟩
      · intro e he r' hr'
        rcases List.mem_append.1 he with he | he
        · exact h.indexed e he r' hr'
        · rw [List.mem_singleton.1 he, hevent] at hr'
          cases hr'
          simp [hid]
      all_goals
        simp only [strikeStates_append, hstates]
      exacts [h.struck, h.counted, h.known]
    · next hid =>
      obtain ⟨ids, hinsert, hpure⟩ := bind_eq_ok.1 happly
      rw [orThrow_eq_ok] at hinsert
      obtain rfl := pure_eq_ok.1 hpure
      refine h.quiet hstates ?_ ?_ ⟨rfl, rfl⟩ fun row => ⟨rfl, .inl rfl⟩
      · intro reviewId hsome
        rw [Table.find?_insert? hinsert]
        split
        · rfl
        · exact hsome
      · intro r' hr'
        rw [hevent] at hr'
        cases hr'
        rw [Table.find?_insert? hinsert, if_pos rfl]
        rfl
  | serialized m =>
    obtain rfl := pure_eq_ok.1 happly
    exact h.quiet (by simp [strikeStatesStep, hevent]) (fun _ => id) (hother (by simp [hevent]))
      ⟨rfl, rfl⟩ fun row => ⟨rfl, .inr ⟨rfl, rfl⟩⟩
  | override o =>
    obtain rfl := pure_eq_ok.1 happly
    exact h.quiet (by simp [strikeStatesStep, hevent]) (fun _ => id) (hother (by simp [hevent]))
      ⟨rfl, rfl⟩ fun row => ⟨rfl, .inr ⟨rfl, rfl⟩⟩

/-- An event of another domain leaves the tables up to date. -/
theorem UpToDate.other {events : List (StoredEvent Payload)} {t : ReviewTables}
    (h : UpToDate events t) {event : StoredEvent Payload}
    (hother : ∀ payload, event.payload ≠ .review payload) : UpToDate (events ++ [event]) t := by
  have hstates : strikeStates (events ++ [event]) = strikeStates events := by
    rw [strikeStates_append, strikeStatesStep]
    split
    · next heq => exact absurd heq (hother _)
    · next heq => exact absurd heq (hother _)
    · rfl
  refine ⟨?_, h.verdictSeq, ?_, ?_, ?_⟩
  · intro e he r hr
    rcases List.mem_append.1 he with he | he
    · exact h.indexed e he r hr
    · exact absurd (List.mem_singleton.1 he ▸ hr) (hother _)
  all_goals rw [hstates]
  exacts [h.struck, h.counted, h.known]

/-- There is nothing to repair on the fold of a log. -/
theorem upToDate_of_foldEvents {events : List (StoredEvent Payload)} {t : Projections}
    (h : foldEvents {} events = .ok t) : UpToDate events t.review := by
  refine foldEvents_induction (fun events t => UpToDate events t.review) ?_ ?_ h
  · refine ⟨by simp, by simp, fun _ _ _ => ?_, fun _ _ => rfl, fun _ h => absurd h ?_⟩
    · exact ⟨fun h => absurd h Bool.false_ne_true, fun h => absurd h List.not_mem_nil⟩
    · exact Bool.false_ne_true
  · intro events t event t' ht hfold
    rcases foldEvent_review hfold with ⟨payload, hevent, happly⟩ | ⟨hother, hsame⟩
    · exact ht.apply hevent happly
    · rw [hsame]
      exact ht.other hother

/-- On a database whose projections are the fold of its log there is nothing to repair. -/
theorem upToDate_of_consistent {db : Db} (h : Consistent db) : UpToDate db.events db.review :=
  upToDate_of_foldEvents h.replayed

theorem ensureReviewTables_bind {db : Db} (h : Consistent db) {α : Type} {f : Unit → StoreTx α} :
    (ensureReviewTables >>= f) db = f () db := by
  have hnoop := (upToDate_of_consistent h).backfill
  change f () { db with review := _ } = f () db
  rw [hnoop]

/-- A read of the review tables: bring them up to date, then look. -/
def reading {α : Type} (read : ReviewTables → α) : StoreTx α := do
  ensureReviewTables
  let db ← get
  return read db.review

theorem reading_bind {db : Db} (h : Consistent db) {α β : Type} {read : ReviewTables → α}
    {f : α → StoreTx β} : (reading read >>= f) db = f (read db.review) db := by
  rw [reading, bind_assoc, ensureReviewTables_bind h]
  rfl

end Orchestration.Review
