import Orchestration.Dispatch.Keys
import Orchestration.Review.Requests

/-!
# The operator's snapshot of the reviews

The snapshot writes nothing, so it counts the strikes from the log instead of repairing the tables
first. It, the repairs and the fold each have rules of their own for which strikes are still
visible. On tables that are the fold of their log the three agree.
-/

namespace Orchestration.Doctor

open Fallible Review Dispatch

/-! ## The source -/

/-- One review of the snapshot. -/
structure ReviewSummary where
  target : String
  branch : String
  scope : ReviewScope
  verdict : Option Verdict
  strikes : ℕ
  serialized : Bool
  overridden : Bool
deriving DecidableEq, Repr

def rowToReviewSummary (row : ReviewRow) : ReviewSummary where
  target := row.target
  branch := row.branch
  scope := row.scope
  verdict := row.verdict
  strikes := row.strikes
  serialized := row.serialized
  overridden := row.overridden

/-- The key of a branch on a target. -/
def reviewKey (target branch : String) : String := keyed target branch

def stateKey (state : StrikeState) : String := reviewKey state.target state.branch

/-- Count one event of the log, as the snapshot and the repairs do. -/
def replayStrike (states : Table stateKey) (event : StoredEvent Payload) : Table stateKey :=
  match event.payload with
  | .review (.strike s) =>
    states.upsert (StrikeState.strike { target := s.target, branch := s.branch } s.reviewId)
      { run := (·.strike s.reviewId)
        keeps := fun state => by simp only [stateKey, StrikeState.strike]; split <;> rfl }
  | .review (.verdict v) =>
    states.upsert { target := v.target, branch := v.branch }
      { run := (·.verdict v.verdict)
        keeps := fun state => by simp only [stateKey, StrikeState.verdict]; split <;> rfl }
  | _ => states

/-- The strikes of every branch as the log tells them. -/
def selectReplayStrikeCounts (events : List (StoredEvent Payload)) : Table stateKey :=
  events.foldl replayStrike {}

/-- The order in which the operator sees the reviews. -/
def summaryOrder (localeCompare : String → String → Ordering) (a b : ReviewSummary) : Bool :=
  ((localeCompare a.target b.target).then (localeCompare a.branch b.branch)).isLE

/-- The reviews of the snapshot: each row with the count of the log, then what the log counts and
the table lacks. -/
def selectAllReviews (localeCompare : String → String → Ordering)
    (events : List (StoredEvent Payload)) (t : ReviewTables) : List ReviewSummary :=
  let strikeCounts := selectReplayStrikeCounts events
  let rows := t.reviews.rows.mergeSort fun a b =>
    a.target < b.target || a.target == b.target && a.branch ≤ b.branch
  let stored := rows.map fun row =>
    { rowToReviewSummary row with
      strikes := ((strikeCounts.find? (reviewKey row.target row.branch)).map
        (·.visible.length)).getD row.strikes }
  let seen := rows.map fun row => reviewKey row.target row.branch
  let missing := (strikeCounts.rows.filter (stateKey · ∉ seen)).map fun replay =>
    { target := replay.target
      branch := replay.branch
      scope := .workerMerge
      verdict := none
      strikes := replay.visible.length
      serialized := false
      overridden := false }
  (stored ++ missing).mergeSort (summaryOrder localeCompare)

/-- The repair of the strikes, which keys them as the snapshot does. -/
def recountReviewStrikes (events : List (StoredEvent Payload)) (t : ReviewTables) : ReviewTables :=
  (selectReplayStrikeCounts events).rows.foldl backfillStrikeState t

/-! ## The two keys -/

/-- No review event of the log names a target with a NUL. -/
def NulFree (events : List (StoredEvent Payload)) : Prop :=
  ∀ event ∈ events, ∀ payload, event.payload = .review payload → NUL ∉ payload.target.toList

section

variable {events : List (StoredEvent Payload)}

theorem NulFree.left {event : StoredEvent Payload} (h : NulFree (events ++ [event])) :
    NulFree events :=
  fun e he => h e (List.mem_append_left _ he)

theorem NulFree.last {event : StoredEvent Payload} (h : NulFree (events ++ [event]))
    {payload : ReviewEvent} (hpayload : event.payload = .review payload) :
    NUL ∉ payload.target.toList :=
  h event (List.mem_append_right _ List.mem_cons_self) payload hpayload

theorem target_strike (state : StrikeState) (reviewId : String) :
    (state.strike reviewId).target = state.target :=
  congrArg Prod.fst (StrikeState.key_strike state reviewId)

theorem target_of_step {states : Table StrikeState.key} {event : StoredEvent Payload}
    {state : StrikeState} (h : state ∈ (strikeStatesStep states event).rows) :
    (∃ old ∈ states.rows, old.target = state.target) ∨
      ∃ payload, event.payload = .review payload ∧ payload.target = state.target := by
  unfold strikeStatesStep at h
  split at h
  · next s hs =>
    rcases Table.mem_upsert h with h | ⟨old, hold, -, rfl⟩ | rfl
    · exact .inl ⟨state, h, rfl⟩
    · exact .inl ⟨old, hold, (target_strike old s.reviewId).symm⟩
    · exact .inr ⟨_, hs, (target_strike { target := s.target, branch := s.branch } s.reviewId).symm⟩
  · next v hv =>
    rcases Table.mem_upsert h with h | ⟨old, hold, -, rfl⟩ | rfl
    · exact .inl ⟨state, h, rfl⟩
    · exact .inl ⟨old, hold, (congrArg Prod.fst (StrikeState.key_verdict old v.verdict)).symm⟩
    · exact .inr ⟨_, hv, rfl⟩
  · exact .inl ⟨state, h, rfl⟩

/-- The targets whose strikes are counted are those of the log. -/
theorem nulFree_states (h : NulFree events) :
    ∀ state ∈ (strikeStates events).rows, NUL ∉ state.target.toList := by
  induction events using List.reverseRecOn with
  | nil => exact fun state hstate => absurd hstate List.not_mem_nil
  | append_singleton events event ih =>
    intro state hstate
    rw [strikeStates_append] at hstate
    rcases target_of_step hstate with ⟨old, hold, htarget⟩ | ⟨payload, hpayload, htarget⟩
    · exact htarget ▸ ih h.left old hold
    · exact htarget ▸ h.last hpayload

/-- Joined with a NUL or not, the keys of NUL-free names single out the same states. -/
theorem stateKey_eq_iff {a b : StrikeState} (ha : NUL ∉ a.target.toList)
    (hb : NUL ∉ b.target.toList) : stateKey a = stateKey b ↔ a.key = b.key := by
  rw [stateKey, stateKey, reviewKey, reviewKey, keyed_inj ha hb, StrikeState.key, StrikeState.key,
    Prod.mk.injEq]

theorem rows_selectReplayStrikeCounts (h : NulFree events) :
    (selectReplayStrikeCounts events).rows = (strikeStates events).rows := by
  induction events using List.reverseRecOn with
  | nil => rfl
  | append_singleton events event ih =>
    have hrows := ih h.left
    have hstates := nulFree_states h.left
    rw [strikeStates_append, selectReplayStrikeCounts, List.foldl_append]
    change (replayStrike (selectReplayStrikeCounts events) event).rows = _
    cases hpayload : event.payload with
    | review payload =>
      cases payload with
      | strike s =>
        simp only [replayStrike, strikeStatesStep, hpayload]
        refine Table.rows_upsert_congr hrows (fun state hstate => ?_) rfl
        refine stateKey_eq_iff (hstates state hstate) ?_
        rw [target_strike]
        exact h.last hpayload
      | verdict v =>
        simp only [replayStrike, strikeStatesStep, hpayload]
        refine Table.rows_upsert_congr hrows (fun state hstate => ?_) rfl
        exact stateKey_eq_iff (hstates state hstate) (h.last hpayload)
      | requested r | serialized m | override o =>
        simpa only [replayStrike, strikeStatesStep, hpayload] using hrows
    | _ => simpa only [replayStrike, strikeStatesStep, hpayload] using hrows

end

/-! ## What the fold stores -/

/-- The index of requested ids is the one that the repair builds. -/
theorem reviewRequestIds_of_foldEvents {events : List (StoredEvent Payload)} {t : Projections}
    (h : foldEvents {} events = .ok t) :
    (backfillReviewRequestIds events {}).reviewRequestIds = t.review.reviewRequestIds := by
  refine foldEvents_induction (fun events t =>
    (backfillReviewRequestIds events {}).reviewRequestIds = t.review.reviewRequestIds) rfl ?_ h
  intro events t event t' ht hfold
  simp only [backfillReviewRequestIds] at ht ⊢
  rw [List.foldl_append, List.foldl_cons, List.foldl_nil, ht]
  rcases foldEvent_review hfold with ⟨payload, hevent, happly⟩ | ⟨hother, hsame⟩
  · cases payload with
    | requested r =>
      simp only [hevent]
      change applyRequested t.review (event.withPayload (.requested r)) r = .ok t'.review at happly
      unfold applyRequested at happly
      split at happly
      · next existing hid =>
        simp only [bind_eq_ok, pure_eq_ok] at happly
        obtain ⟨-, -, -, -, hsame⟩ := happly
        rw [Table.insert?_eq_none (by simp [hid]), ← hsame]
        rfl
      · obtain ⟨ids, hinsert, hpure⟩ := bind_eq_ok.1 happly
        rw [orThrow_eq_ok] at hinsert
        rw [hinsert, ← pure_eq_ok.1 hpure]
        rfl
    | verdict v =>
      change applyVerdict t.review _ v = .ok t'.review at happly
      simp only [applyVerdict, bind_eq_ok, pure_eq_ok] at happly
      obtain ⟨-, -, -, -, hsame⟩ := happly
      simp only [hevent, ← hsame]
    | strike s =>
      change applyStrike t.review s = .ok t'.review at happly
      unfold applyStrike at happly
      split at happly
      · simp only [hevent, ← pure_eq_ok.1 happly]
      · obtain ⟨strikes, -, hpure⟩ := bind_eq_ok.1 happly
        simp only [hevent, ← pure_eq_ok.1 hpure]
    | serialized m =>
      simp only [hevent, ← pure_eq_ok.1 happly]
      rfl
    | override o =>
      simp only [hevent, ← pure_eq_ok.1 happly]
      rfl
  · rw [hsame]
    split
    · next r hr => exact absurd hr (hother _)
    · rfl

/-- A verdict on the branch. -/
def isVerdictOf (key : String × String) (event : StoredEvent Payload) : Bool :=
  match event.payload with
  | .review (.verdict v) => v.target == key.1 && v.branch == key.2
  | _ => false

/-- A stored verdict is the last one of the log on its branch, under its number. -/
def VerdictsLogged (events : List (StoredEvent Payload)) (t : ReviewTables) : Prop :=
  ∀ key row verdict, t.reviews.find? key = some row → row.verdict = some verdict →
    ∃ event v, (events.filter (isVerdictOf key)).getLast? = some event ∧
      event.payload = .review (.verdict v) ∧ row.reviewId = some v.reviewId ∧
      v.verdict = verdict ∧ row.verdictSeq = some event.seq

section

variable {events : List (StoredEvent Payload)} {t : ReviewTables} {event : StoredEvent Payload}

theorem VerdictsLogged.concat (h : VerdictsLogged events t)
    (hother : ∀ v, event.payload ≠ .review (.verdict v)) : VerdictsLogged (events ++ [event]) t := by
  intro key row verdict hrow hverdict
  have hnot : isVerdictOf key event = false := by
    unfold isVerdictOf
    split
    · next v hv => exact absurd hv (hother v)
    · rfl
  rw [List.filter_append, List.filter_cons_of_neg (by simp [hnot]), List.filter_nil,
    List.append_nil]
  exact h key row verdict hrow hverdict

/-- An event that records no verdict may clear one. -/
theorem VerdictsLogged.quiet (h : VerdictsLogged events t) {t' : ReviewTables} {row : ReviewRow}
    {update : Table.Update ReviewRow.key} (hreviews : t'.reviews = t.reviews.upsert row update)
    (hrow : row.verdict = none)
    (hupdate : ∀ r, (update.run r).verdict = none ∨ (update.run r).verdict = r.verdict ∧
      (update.run r).reviewId = r.reviewId ∧ (update.run r).verdictSeq = r.verdictSeq) :
    VerdictsLogged events t' := by
  intro key found verdict hfound hverdict
  rw [hreviews, Table.find?_upsert] at hfound
  split at hfound
  · cases hold : t.reviews.find? key with
    | none =>
      rw [hold] at hfound
      cases hfound
      rw [Option.map_none, Option.getD_none, hrow] at hverdict
      cases hverdict
    | some old =>
      rw [hold] at hfound
      cases hfound
      rw [Option.map_some, Option.getD_some] at hverdict ⊢
      rcases hupdate old with hnone | ⟨hsame, hid, hseq⟩
      · rw [hnone] at hverdict
        cases hverdict
      · rw [hid, hseq]
        exact h key old verdict hold (hsame ▸ hverdict)
  · exact h key found verdict hfound hverdict

theorem VerdictsLogged.verdict (h : VerdictsLogged events t) {t' : ReviewTables}
    {v : ReviewVerdictRecorded} {event' : StoredEvent ReviewEvent} (hseq : event'.seq = event.seq)
    (hevent : event.payload = .review (.verdict v)) (happly : applyVerdict t event' v = .ok t') :
    VerdictsLogged (events ++ [event]) t' := by
  simp only [applyVerdict, bind_eq_ok, pure_eq_ok] at happly
  obtain ⟨-, -, -, -, rfl⟩ := happly
  intro key row verdict hrow hverdict
  rw [Table.find?_upsert] at hrow
  split at hrow
  · next hkey =>
    obtain rfl : key = (v.target, v.branch) := hkey
    have hlast : isVerdictOf (v.target, v.branch) event = true := by simp [isVerdictOf, hevent]
    refine ⟨event, v, ?_, hevent, ?_⟩
    · rw [List.filter_append, List.filter_cons_of_pos hlast, List.filter_nil,
        List.getLast?_concat]
    · cases hold : t.reviews.find? (v.target, v.branch) with
      | none =>
        rw [hold] at hrow
        cases hrow
        cases hverdict
        exact ⟨rfl, rfl, congrArg some hseq⟩
      | some old =>
        rw [hold] at hrow
        cases hrow
        cases hverdict
        exact ⟨rfl, rfl, congrArg some hseq⟩
  · next hkey =>
    have hnot : isVerdictOf key event = false := by
      simp only [isVerdictOf, hevent, Bool.and_eq_false_iff, beq_eq_false_iff_ne]
      by_contra hboth
      simp only [not_or, Decidable.not_not] at hboth
      exact hkey (Prod.ext hboth.1.symm hboth.2.symm)
    rw [List.filter_append, List.filter_cons_of_neg (by simp [hnot]), List.filter_nil,
      List.append_nil]
    exact h key row verdict hrow hverdict

end

theorem verdictsLogged_of_foldEvents {events : List (StoredEvent Payload)} {t : Projections}
    (h : foldEvents {} events = .ok t) : VerdictsLogged events t.review := by
  refine foldEvents_induction (fun events t => VerdictsLogged events t.review) ?_ ?_ h
  · intro key row verdict hrow
    cases hrow
  · intro events t event t' ht hfold
    rcases foldEvent_review hfold with ⟨payload, hevent, happly⟩ | ⟨hother, hsame⟩
    · cases payload with
      | verdict v => exact ht.verdict rfl hevent happly
      | requested r =>
        have hconcat : VerdictsLogged (events ++ [event]) t.review := ht.concat (by simp [hevent])
        change applyRequested t.review (event.withPayload (.requested r)) r = .ok t'.review at happly
        unfold applyRequested at happly
        split at happly
        · simp only [bind_eq_ok, pure_eq_ok] at happly
          obtain ⟨-, -, -, -, hsame⟩ := happly
          exact hsame ▸ hconcat
        · obtain ⟨ids, -, hpure⟩ := bind_eq_ok.1 happly
          exact hconcat.quiet (congrArg ReviewTables.reviews (pure_eq_ok.1 hpure)).symm rfl
            fun r => .inl rfl
      | strike s =>
        have hconcat : VerdictsLogged (events ++ [event]) t.review := ht.concat (by simp [hevent])
        change applyStrike t.review s = .ok t'.review at happly
        unfold applyStrike at happly
        split at happly
        · exact pure_eq_ok.1 happly ▸ hconcat
        · obtain ⟨strikes, -, hpure⟩ := bind_eq_ok.1 happly
          exact hconcat.quiet (congrArg ReviewTables.reviews (pure_eq_ok.1 hpure)).symm rfl
            fun r => .inr ⟨rfl, rfl, rfl⟩
      | serialized m | override o =>
        have hconcat : VerdictsLogged (events ++ [event]) t.review := ht.concat (by simp [hevent])
        exact hconcat.quiet (congrArg ReviewTables.reviews (pure_eq_ok.1 happly)).symm rfl
          fun r => .inr ⟨rfl, rfl, rfl⟩
    · rw [hsame]
      exact ht.concat fun v hv => hother _ hv

/-! ## What the operator sees -/

section

variable {events : List (StoredEvent Payload)} {t : ReviewTables}

/-- The rows of a NUL-free log have NUL-free names. -/
theorem nulFree_rows {t : Projections} (h : foldEvents {} events = .ok t) :
    NulFree events → ∀ row ∈ t.review.reviews.rows, NUL ∉ row.target.toList := by
  refine foldEvents_induction (fun events t =>
    NulFree events → ∀ row ∈ t.review.reviews.rows, NUL ∉ row.target.toList) ?_ ?_ h
  · exact fun _ row hrow => absurd hrow List.not_mem_nil
  · intro events t event t' ht hfold hnames row hrow
    rcases foldEvent_review hfold with ⟨payload, hevent, happly⟩ | ⟨-, hsame⟩
    · rcases mem_reviews_apply happly hrow with hold | hkey
      · exact ht hnames.left row hold
      · have htarget : row.target = payload.target := congrArg Prod.fst hkey
        exact htarget ▸ hnames.last hevent
    · exact ht hnames.left row (hsame ▸ hrow)

/-- The snapshot shows a stored row as it is stored. -/
theorem replayed_count (h : UpToDate events t) (hnames : NulFree events) {row : ReviewRow}
    (hrow : row ∈ t.reviews.rows) (hplain : NUL ∉ row.target.toList) :
    ((((selectReplayStrikeCounts events).find? (reviewKey row.target row.branch)).map
      (·.visible.length)).getD row.strikes) = row.strikes := by
  cases hfind : (selectReplayStrikeCounts events).find? (reviewKey row.target row.branch) with
  | none => rfl
  | some state =>
    obtain ⟨hstate, hkey⟩ := Table.find?_eq_some.1 hfind
    rw [rows_selectReplayStrikeCounts hnames] at hstate
    have hplain' := nulFree_states hnames state hstate
    obtain ⟨htarget, hbranch⟩ := (keyed_inj hplain' hplain).1 hkey
    have hcount := h.counted row.target row.branch
    have hstored : t.reviews.find? (row.target, row.branch) = some row :=
      Table.find?_eq_some.2 ⟨hrow, rfl⟩
    have hfound : (strikeStates events).find? (row.target, row.branch) = some state :=
      Table.find?_eq_some.2 ⟨hstate, Prod.ext htarget hbranch⟩
    simp only [selectStrikeCount, visibleStrikes, hstored, hfound, Option.map_some,
      Option.getD_some] at hcount
    exact hcount.symm

/-- The reviews of the snapshot are the stored ones. -/
theorem selectAllReviews_perm (localeCompare : String → String → Ordering)
    (h : UpToDate events t) (hnames : NulFree events)
    (hplain : ∀ row ∈ t.reviews.rows, NUL ∉ row.target.toList) :
    (selectAllReviews localeCompare events t).Perm (t.reviews.rows.map rowToReviewSummary) := by
  have hmissing : (selectReplayStrikeCounts events).rows.filter (fun state => stateKey state ∉
      (t.reviews.rows.mergeSort fun a b =>
        a.target < b.target || a.target == b.target && a.branch ≤ b.branch).map fun row =>
          reviewKey row.target row.branch) = [] := by
    rw [List.filter_eq_nil_iff]
    intro state hstate
    rw [rows_selectReplayStrikeCounts hnames] at hstate
    have hknown := h.known state.key (by rw [Table.find?_eq_some.2 ⟨hstate, rfl⟩]; rfl)
    obtain ⟨row, hrow⟩ := Option.isSome_iff_exists.1 hknown
    obtain ⟨hmem, hkey⟩ := Table.find?_eq_some.1 hrow
    simp only [decide_not, Bool.not_eq_true', decide_eq_false_iff_not, not_not, List.mem_map]
    refine ⟨row, List.mem_mergeSort.2 hmem, ?_⟩
    rw [stateKey, show state.target = row.target from (congrArg Prod.fst hkey).symm,
      show state.branch = row.branch from (congrArg Prod.snd hkey).symm]
  rw [selectAllReviews]
  refine (List.mergeSort_perm _ _).trans ?_
  rw [hmissing, List.map_nil, List.append_nil]
  refine ((List.mergeSort_perm _ _).map _).trans ?_
  refine List.Perm.of_eq (List.map_congr_left fun row hrow => ?_)
  rw [replayed_count h hnames hrow (hplain row hrow)]
  rfl

end

/-- The consumed strikes of the log are the stored ones. -/
theorem mem_reviewStrikes {events : List (StoredEvent Payload)} {t : ReviewTables}
    (h : UpToDate events t) (hnames : NulFree events) {target branch reviewId : String} :
    ⟨target, branch, reviewId⟩ ∈ t.reviewStrikes.rows ↔
      ∃ state ∈ (selectReplayStrikeCounts events).rows,
        state.target = target ∧ state.branch = branch ∧ reviewId ∈ state.consumed := by
  have hstruck := h.struck target branch reviewId
  have hstored : selectReviewStrike t target branch reviewId = true ↔
      ⟨target, branch, reviewId⟩ ∈ t.reviewStrikes.rows := by
    rw [selectReviewStrike, Option.isSome_iff_exists]
    constructor
    · rintro ⟨row, hrow⟩
      obtain ⟨hmem, rfl⟩ := Table.find?_eq_some.1 hrow
      exact hmem
    · exact fun hmem => ⟨_, Table.find?_eq_some.2 ⟨hmem, rfl⟩⟩
  rw [← hstored, hstruck, rows_selectReplayStrikeCounts hnames, consumedStrikes]
  constructor
  · intro hconsumed
    cases hfind : (strikeStates events).find? (target, branch) with
    | none => simp [hfind] at hconsumed
    | some state =>
      obtain ⟨hstate, hkey⟩ := Table.find?_eq_some.1 hfind
      rw [hfind] at hconsumed
      exact ⟨state, hstate, congrArg Prod.fst hkey, congrArg Prod.snd hkey, hconsumed⟩
  · rintro ⟨state, hstate, rfl, rfl, hconsumed⟩
    have hfind : (strikeStates events).find? (state.target, state.branch) = some state :=
      Table.find?_eq_some.2 ⟨hstate, rfl⟩
    rw [hfind]
    exact hconsumed

/-- On the fold of any log whose review events name no target with a NUL, the repairs before a
read change nothing: the index of ids and the struck reviews are the ones that the log tells, and
a stored verdict is the last of its branch and has its number already. And the operator's snapshot
shows exactly the stored reviews, with the strikes that the gate counts. -/
theorem backfill_and_snapshot_agree {events : List (StoredEvent Payload)} {t : Projections}
    (hfold : foldEvents {} events = .ok t) (hnames : NulFree events)
    (localeCompare : String → String → Ordering) :
    (∀ db : Db, db.events = events → db.toProjections = t →
      ensureReviewTables db = .ok ((), db)) ∧
    (backfillReviewRequestIds events t.review = t.review ∧
      backfillReviewVerdictSeq events t.review = t.review ∧
      recountReviewStrikes events t.review = t.review) ∧
    (backfillReviewRequestIds events {}).reviewRequestIds = t.review.reviewRequestIds ∧
    VerdictsLogged events t.review ∧
    (∀ target branch reviewId, ⟨target, branch, reviewId⟩ ∈ t.review.reviewStrikes.rows ↔
      ∃ state ∈ (selectReplayStrikeCounts events).rows,
        state.target = target ∧ state.branch = branch ∧ reviewId ∈ state.consumed) ∧
    (selectAllReviews localeCompare events t.review).Perm
      (t.review.reviews.rows.map rowToReviewSummary) ∧
    ∀ summary ∈ selectAllReviews localeCompare events t.review,
      summary.strikes = selectStrikeCount t.review summary.target summary.branch := by
  have hcurrent := upToDate_of_foldEvents hfold
  have hsnapshot := selectAllReviews_perm localeCompare hcurrent hnames (nulFree_rows hfold hnames)
  refine ⟨?_, ⟨hcurrent.requestIds, hcurrent.verdictSeqs, ?_⟩, reviewRequestIds_of_foldEvents hfold,
    verdictsLogged_of_foldEvents hfold, fun _ _ _ => mem_reviewStrikes hcurrent hnames, hsnapshot, ?_⟩
  · rintro db rfl rfl
    change Except.ok ((), { db with review := _ }) = _
    rw [hcurrent.backfill]
  · rw [recountReviewStrikes, rows_selectReplayStrikeCounts hnames]
    exact hcurrent.strikes
  · intro summary hsummary
    obtain ⟨row, hrow, rfl⟩ := List.mem_map.1 (hsnapshot.mem_iff.1 hsummary)
    have hfind : t.review.reviews.find? (row.target, row.branch) = some row :=
      Table.find?_eq_some.2 ⟨hrow, rfl⟩
    simp only [rowToReviewSummary, selectStrikeCount, hfind, Option.map_some, Option.getD_some]

/-- A strike on a branch that no request was recorded for. -/
def lateReview : StoredEvent Payload where
  seq := 1
  ts := 5
  scope := "review:main"
  v := 1
  payload := .review (.strike ⟨"rev-1", "main", "co/late", "no verdict in time"⟩)

theorem backfill_and_snapshot_agree_of_lateReview : ∃ t : Projections,
    foldEvents {} [lateReview] = .ok t ∧
    ∀ summary ∈ selectAllReviews compare [lateReview] t.review,
      summary.strikes = selectStrikeCount t.review summary.target summary.branch := by
  have hnames : NulFree [lateReview] := by
    intro event hevent payload hpayload
    rw [List.mem_singleton.1 hevent] at hpayload
    cases hpayload
    decide
  obtain ⟨t, hfold⟩ : ∃ t, foldEvents {} [lateReview] = .ok t := ⟨_, rfl⟩
  have hagree := backfill_and_snapshot_agree hfold hnames compare
  exact ⟨t, hfold, hagree.2.2.2.2.2.2⟩

end Orchestration.Doctor
