import Orchestration.Dispatch.Throttle

/-!
# Hysteresis behind the throttle

The balancer holds a floating seat on its last account unless the roomiest one leads it by
more than the margin. Where the roomiest is full, the throttle goes on to the next that is not,
without a look at the margin: the seat can leave an account with room for one that is hardly
roomier.
-/

namespace Orchestration.Dispatch

def ScoredCandidate.seat (s : ScoredCandidate) : Provider × String := (s.provider, s.account)

def Placement.seat (p : Placement) : Provider × String := (p.provider, p.account)

/-- Where a seat lands that the balancer has put on `chosen`: there, or on the roomiest account
below the threshold. -/
def landing (scored : List ScoredCandidate) (chosen : ScoredCandidate) (threshold : Float) :
    Option ScoredCandidate :=
  ((scored.find? fun s => s.seat = chosen.seat).filter fun s => s.usedPct < threshold).or
    (scored.find? fun s => s.usedPct < threshold)

section

variable (js : Js.Runtime)

/-- The ranked candidate on the account of the last placement. -/
def incumbent (input : PlaceAgentInput) : Option ScoredCandidate := do
  let previous ← input.previous
  (rankHealthy js input.nowMs input.candidates).find? fun s => s.seat = previous.seat

def PlaceAgentInput.margin (input : PlaceAgentInput) : Float :=
  input.marginPct.getD HYSTERESIS_MARGIN_DEFAULT

def ResolveOptions.threshold (opts : ResolveOptions) : Float :=
  opts.maxedThresholdPct.getD MAXED_THRESHOLD_PCT_DEFAULT

/-- Balancer and throttle together. -/
def dispatched (input : PlaceAgentInput) (opts : ResolveOptions) : Option Placement :=
  (resolveDispatch js (placeAgent js input) input.candidates opts).placement?

/-- What hysteresis promises of a floating seat that is placed: it leaves an incumbent with room
only for an account with room that leads it by more than the margin, and placed again from there
it stays. -/
def HysteresisSurvives (input : PlaceAgentInput) (opts : ResolveOptions) : Prop :=
  lookupPin input.pins input.role = none →
    ∀ placement, dispatched js input opts = some placement →
      (∀ held, incumbent js input = some held → held.usedPct < opts.threshold →
        placement.seat = held.seat ∨
          ∃ r, (rankHealthy js input.nowMs input.candidates).find?
              (fun s => s.seat = placement.seat ∧ s.usedPct < opts.threshold) = some r ∧
            input.margin < r.score - held.score) ∧
      (dispatched js { input with previous := some placement } opts).map (·.seat) =
        some placement.seat

/-- The roomiest account is full and leads the incumbent by more than the margin, and the
roomiest that is not full is another account and does not. -/
def SkipsWithinMargin (input : PlaceAgentInput) (opts : ResolveOptions) : Prop :=
  lookupPin input.pins input.role = none ∧
    ∃ held top next, incumbent js input = some held ∧ held.usedPct < opts.threshold ∧
      (rankHealthy js input.nowMs input.candidates).head? = some top ∧
      ¬ top.usedPct < opts.threshold ∧ input.margin < top.score - held.score ∧
      (rankHealthy js input.nowMs input.candidates).find? (fun s => s.usedPct < opts.threshold) =
        some next ∧
      next.seat ≠ held.seat ∧ ¬ input.margin < next.score - held.score

/-! ### Where the seat lands -/

section

variable {scored : List ScoredCandidate} {s chosen : ScoredCandidate} {threshold : Float}

/-- The first with a property is the first with that and another that it has. -/
theorem find?_of_find? {p q : ScoredCandidate → Bool} (h : scored.find? p = some s)
    (hq : q s = true) : scored.find? (fun x => q x && p x) = some s := by
  obtain ⟨hp, before, after, hscored, hbefore⟩ := List.find?_eq_some_iff_append.1 h
  refine List.find?_eq_some_iff_append.2 ⟨by rw [hq, hp]; rfl, before, after, hscored, ?_⟩
  intro x hx
  have hnot := hbefore x hx
  cases hpx : p x with
  | true => simp [hpx] at hnot
  | false => simp

theorem seat_of_find? {seat : Provider × String}
    (h : scored.find? (fun s => s.seat = seat) = some s) : s.seat = seat := by
  simpa using List.find?_some h

/-- The two ways to land: on the first entry of the chosen account, which has room, or, where it
has none, on the first entry that has. -/
theorem landing_cases (h : landing scored chosen threshold = some s) :
    s.usedPct < threshold ∧ (scored.find? (fun s => s.seat = chosen.seat) = some s ∨
      scored.find? (fun s => s.usedPct < threshold) = some s ∧
        ∀ first, scored.find? (fun s => s.seat = chosen.seat) = some first →
          ¬ first.usedPct < threshold) := by
  rcases Option.or_eq_some_iff.1 h with hchosen | ⟨hfull, hnext⟩
  · obtain ⟨hfound, hbelow⟩ := Option.filter_eq_some_iff.1 hchosen
    exact ⟨by simpa using hbelow, .inl hfound⟩
  · refine ⟨by simpa using List.find?_some hnext, .inr ⟨hnext, fun first hfirst hbelow => ?_⟩⟩
    rw [hfirst, Option.filter_some, if_pos (by simpa using hbelow)] at hfull
    cases hfull

theorem landing_of_below (h : scored.find? (fun s => s.seat = chosen.seat) = some s)
    (hbelow : s.usedPct < threshold) : landing scored chosen threshold = some s := by
  rw [landing, h, Option.filter_some, if_pos (by simpa using hbelow)]
  rfl

theorem landing_of_full (h : scored.find? (fun s => s.seat = chosen.seat) = some s)
    (hfull : ¬ s.usedPct < threshold) :
    landing scored chosen threshold = scored.find? fun s => s.usedPct < threshold := by
  rw [landing, h, Option.filter_some, if_neg (by simpa using hfull)]
  rfl

end

theorem resolveFloating_placement (placement : Placement) (reason : String)
    (ranked : List RankedCandidate) (candidates : List ProviderHeadroom) (threshold : Float) :
    (resolveFloating js placement reason ranked candidates threshold).placement? =
      (((ranked.find? fun r =>
          r.provider = placement.provider ∧ r.account = placement.account).filter
        fun r => r.usedPct < threshold).or
          (ranked.find? fun r => r.usedPct < threshold)).map (·.placement) := by
  simp only [resolveFloating]
  split
  · next hnone =>
    rw [hnone]
    rfl
  · next best hbest =>
    rw [hbest]
    rfl

theorem find?_ranked (input : PlaceAgentInput) (scored : List ScoredCandidate)
    (p : RankedCandidate → Bool) : (scored.map (rankedCandidate input)).find? p =
      (scored.find? fun s => p (rankedCandidate input s)).map (rankedCandidate input) :=
  List.find?_map ..

theorem resolve_landing (input : PlaceAgentInput) (scored : List ScoredCandidate)
    (chosen : ScoredCandidate) (reason : String) (opts : ResolveOptions) :
    (resolveDispatch js (.floating (floatingPlacement input chosen) reason
      (scored.map (rankedCandidate input))) input.candidates opts).placement? =
      (landing scored chosen opts.threshold).map (floatingPlacement input) := by
  have hseat : ∀ s, decide ((rankedCandidate input s).provider =
        (floatingPlacement input chosen).provider ∧ (rankedCandidate input s).account =
          (floatingPlacement input chosen).account) = decide (s.seat = chosen.seat) := by
    intro s
    exact decide_eq_decide.2 Prod.mk_inj.symm
  simp only [resolveDispatch]
  rw [resolveFloating_placement, find?_ranked, find?_ranked]
  simp only [hseat]
  change _ = ((((scored.find? fun s => s.seat = chosen.seat).filter
    fun s => s.usedPct < opts.threshold).or
      (scored.find? fun s => s.usedPct < opts.threshold))).map (floatingPlacement input)
  generalize (scored.find? fun s => decide (s.seat = chosen.seat)) = found
  have hlater : ((scored.find? fun s => decide (s.usedPct < opts.threshold)).map
      (rankedCandidate input)).map (·.placement) =
      (scored.find? fun s => decide (s.usedPct < opts.threshold)).map
        (floatingPlacement input) := by
    rw [Option.map_map]
    rfl
  cases found with
  | none => exact hlater
  | some c =>
    by_cases hbelow : c.usedPct < opts.threshold
    · have hbelow' : (rankedCandidate input c).usedPct <
        opts.maxedThresholdPct.getD MAXED_THRESHOLD_PCT_DEFAULT := hbelow
      simp only [Option.map_some, Option.filter_some, decide_eq_true_eq, if_pos hbelow,
        if_pos hbelow', Option.some_or]
      rfl
    · have hfull : ¬ (rankedCandidate input c).usedPct <
        opts.maxedThresholdPct.getD MAXED_THRESHOLD_PCT_DEFAULT := hbelow
      simp only [Option.map_some, Option.filter_some, decide_eq_true_eq, if_neg hbelow, if_neg hfull]
      exact hlater

/-- The balancer's choice by the incumbent. -/
theorem applyHysteresis_eq (input : PlaceAgentInput) {top : ScoredCandidate}
    {others : List ScoredCandidate}
    (hrank : rankHealthy js input.nowMs input.candidates = top :: others) :
    applyHysteresis top (top :: others) input.previous input.marginPct =
      match incumbent js input with
      | none => top
      | some held =>
        if held.seat = top.seat then top
        else if input.margin < top.score - held.score then top
        else held := by
  unfold applyHysteresis incumbent PlaceAgentInput.margin
  rw [hrank]
  cases input.previous with
  | none => rfl
  | some previous =>
    have hseat : ∀ s : ScoredCandidate, decide (s.provider = previous.provider ∧
        s.account = previous.account) = decide (s.seat = previous.seat) := fun s =>
      decide_eq_decide.2 Prod.mk_inj.symm
    simp only [hseat, Option.bind_eq_bind, Option.bind_some]
    cases ((top :: others).find? fun s => decide (s.seat = previous.seat)) with
    | none => rfl
    | some held =>
      simp only [ScoredCandidate.seat, Prod.mk.injEq]

/-- A floating seat lands where the balancer put it, or on the roomiest account below the
threshold. -/
theorem dispatched_eq {input : PlaceAgentInput} (opts : ResolveOptions)
    (hfloating : lookupPin input.pins input.role = none) :
    dispatched js input opts =
      match rankHealthy js input.nowMs input.candidates with
      | [] => none
      | top :: others =>
        (landing (top :: others) (applyHysteresis top (top :: others) input.previous
          input.marginPct) opts.threshold).map (floatingPlacement input) := by
  unfold dispatched placeAgent
  rw [hfloating]
  cases rankHealthy js input.nowMs input.candidates with
  | nil => rfl
  | cons top others => exact resolve_landing js input _ _ _ opts

/-- What the balancer chose: the roomiest, or an incumbent that it does not lead by more than the
margin. -/
theorem chosen_cases (input : PlaceAgentInput) {top : ScoredCandidate}
    {others : List ScoredCandidate}
    (hrank : rankHealthy js input.nowMs input.candidates = top :: others) :
    (applyHysteresis top (top :: others) input.previous input.marginPct = top ∧
      ∀ held, incumbent js input = some held → held.seat ≠ top.seat →
        input.margin < top.score - held.score) ∨
    ∃ held, incumbent js input = some held ∧ held.seat ≠ top.seat ∧
      ¬ input.margin < top.score - held.score ∧
      applyHysteresis top (top :: others) input.previous input.marginPct = held := by
  rw [applyHysteresis_eq js input hrank]
  cases hheld : incumbent js input with
  | none => exact .inl ⟨rfl, fun held h => nomatch h⟩
  | some held =>
    by_cases hseat : held.seat = top.seat
    · refine .inl ⟨if_pos hseat, ?_⟩
      rintro _ ⟨⟩ hother
      exact absurd hseat hother
    · by_cases hlead : input.margin < top.score - held.score
      · refine .inl ⟨by simp only [if_neg hseat, if_pos hlead], ?_⟩
        rintro _ ⟨⟩ -
        exact hlead
      · exact .inr ⟨held, rfl, hseat, hlead, by simp only [if_neg hseat, if_neg hlead]⟩

theorem find?_of_incumbent {input : PlaceAgentInput} {held : ScoredCandidate}
    (h : incumbent js input = some held) :
    (rankHealthy js input.nowMs input.candidates).find? (fun s => s.seat = held.seat) =
      some held := by
  obtain ⟨previous, -, hfind⟩ := Option.bind_eq_some_iff.1 h
  rw [seat_of_find? hfind]
  exact hfind

section

variable {input : PlaceAgentInput} {top s here : ScoredCandidate} {others : List ScoredCandidate}
  {threshold : Float}

theorem find?_seat_top : (top :: others).find? (fun x => x.seat = top.seat) = some top := by
  simp

/-- A seat that did not land on the next account with room landed on the one the balancer chose:
the roomiest, or an incumbent that the roomiest does not lead by more than the margin. -/
theorem landed_cases (hrank : rankHealthy js input.nowMs input.candidates = top :: others)
    (hs : landing (top :: others)
      (applyHysteresis top (top :: others) input.previous input.marginPct) threshold = some s) :
    (top :: others).find? (fun x => x.usedPct < threshold) = some s ∨
      (top :: others).find? (fun x => x.seat = s.seat) = some s ∧ s.usedPct < threshold ∧
        (s = top ∨ s.seat ≠ top.seat ∧ ¬ input.margin < top.score - s.score) := by
  obtain ⟨hbelow, hfound | ⟨hnext, -⟩⟩ := landing_cases hs
  · rcases chosen_cases js input hrank with ⟨hchosen, -⟩ | ⟨held, hheld, hother, hlead, hchosen⟩
    · rw [hchosen, find?_seat_top] at hfound
      obtain rfl := Option.some.inj hfound
      exact .inr ⟨find?_seat_top, hbelow, .inl rfl⟩
    · have hfirst := find?_of_incumbent js hheld
      rw [hrank] at hfirst
      rw [hchosen, hfirst] at hfound
      obtain rfl := Option.some.inj hfound
      exact .inr ⟨hfirst, hbelow, .inr ⟨hother, hlead⟩⟩
  · exact .inl hnext

/-- The second time the seat lands on the account of the first. -/
theorem lands_again (hrank : rankHealthy js input.nowMs input.candidates = top :: others)
    (hs : landing (top :: others)
      (applyHysteresis top (top :: others) input.previous input.marginPct) threshold = some s)
    (hhere : (top :: others).find? (fun x => x.seat = s.seat) = some here)
    {chosen : ScoredCandidate}
    (hchosen : chosen = top ∧ (here.seat ≠ top.seat → input.margin < top.score - here.score) ∨
      chosen = here) :
    ∃ again, landing (top :: others) chosen threshold = some again ∧ again.seat = s.seat := by
  have hfirst : (top :: others).find? (fun x => x.seat = here.seat) = some here := by
    rw [seat_of_find? hhere]
    exact hhere
  have hlanded := landed_cases js hrank hs
  rcases hchosen with ⟨rfl, hlead⟩ | rfl
  · by_cases htop : chosen.usedPct < threshold
    · refine ⟨chosen, landing_of_below find?_seat_top htop, ?_⟩
      rcases hlanded with hnext | ⟨hown, -, rfl | ⟨hother, hclose⟩⟩
      · rw [List.find?_cons_of_pos (by simpa using htop)] at hnext
        rw [Option.some.inj hnext]
      · rfl
      · obtain rfl := Option.some.inj (hhere.symm.trans hown)
        exact absurd (hlead hother) hclose
    · rw [landing_of_full find?_seat_top htop]
      rcases hlanded with hnext | ⟨hown, hbelow, rfl | ⟨hother, hclose⟩⟩
      · exact ⟨s, hnext, rfl⟩
      · exact absurd hbelow htop
      · obtain rfl := Option.some.inj (hhere.symm.trans hown)
        exact absurd (hlead hother) hclose
  · by_cases hroom : chosen.usedPct < threshold
    · exact ⟨chosen, landing_of_below hfirst hroom, seat_of_find? hhere⟩
    · rw [landing_of_full hfirst hroom]
      rcases hlanded with hnext | ⟨hown, hbelow, -⟩
      · exact ⟨s, hnext, rfl⟩
      · obtain rfl := Option.some.inj (hhere.symm.trans hown)
        exact absurd hbelow hroom

end

/-- Placed again from where it landed, a seat stays. -/
theorem stays (input : PlaceAgentInput) (opts : ResolveOptions) {placement : Placement}
    (hfloating : lookupPin input.pins input.role = none)
    (h : dispatched js input opts = some placement) :
    (dispatched js { input with previous := some placement } opts).map (·.seat) =
      some placement.seat := by
  rw [dispatched_eq js opts hfloating] at h
  have hagain := @dispatched_eq js { input with previous := some placement } opts hfloating
  rw [hagain]
  cases hrank : rankHealthy js input.nowMs input.candidates with
  | nil => simp [hrank] at h
  | cons top others =>
    simp only [hrank] at h ⊢
    obtain ⟨s, hs, rfl⟩ := Option.map_eq_some_iff.1 h
    have hmem : s ∈ top :: others := by
      rcases (landing_cases hs).2 with hfound | ⟨hfound, -⟩ <;>
        exact List.mem_of_find?_eq_some hfound
    obtain ⟨here, hhere⟩ : ∃ here, (top :: others).find? (fun x => x.seat = s.seat) = some here :=
      Option.isSome_iff_exists.1 (List.find?_isSome.2 ⟨s, hmem, by simp⟩)
    have hincumbent : incumbent js { input with previous := some (floatingPlacement input s) } =
        some here := by
      rw [incumbent, hrank]
      exact hhere
    have hchosen := chosen_cases js { input with previous := some (floatingPlacement input s) } hrank
    rw [hincumbent] at hchosen
    obtain ⟨again, hagain, hseat⟩ := lands_again js hrank hs hhere
      (hchosen.imp (fun hwin => ⟨hwin.1, hwin.2 here rfl⟩) fun ⟨_, hheld, _, _, hstay⟩ =>
        hstay.trans (Option.some.inj hheld).symm)
    rw [hagain]
    exact congrArg some hseat

/-! ### When the margin counts -/

/-- The first entry with room is the first of its account with room. -/
theorem find?_room {scored : List ScoredCandidate} {s : ScoredCandidate} {threshold : Float}
    (h : scored.find? (fun x => x.usedPct < threshold) = some s) :
    scored.find? (fun x => x.seat = s.seat ∧ x.usedPct < threshold) = some s := by
  have hboth := find?_of_find? (q := fun x => decide (x.seat = s.seat)) h (by simp)
  simpa only [Bool.decide_and] using hboth

theorem survives_of_not_skips {input : PlaceAgentInput} {opts : ResolveOptions}
    (h : ¬ SkipsWithinMargin js input opts) : HysteresisSurvives js input opts := by
  intro hfloating placement hplaced
  refine ⟨fun held hheld hroom => ?_, stays js input opts hfloating hplaced⟩
  rw [dispatched_eq js opts hfloating] at hplaced
  have hfirst := find?_of_incumbent js hheld
  cases hrank : rankHealthy js input.nowMs input.candidates with
  | nil => simp [hrank] at hplaced
  | cons top others =>
    simp only [hrank] at hplaced
    obtain ⟨s, hs, rfl⟩ := Option.map_eq_some_iff.1 hplaced
    rw [hrank] at hfirst
    change s.seat = held.seat ∨ ∃ r, (top :: others).find? (fun x => x.seat = s.seat ∧
      x.usedPct < opts.threshold) = some r ∧ input.margin < r.score - held.score
    refine or_iff_not_imp_left.2 fun hother => ⟨s, ?_⟩
    rcases chosen_cases js input hrank with ⟨hchosen, hlead⟩ | ⟨_, hheld', -, -, hchosen⟩
    · rw [hchosen] at hs
      by_cases htop : top.usedPct < opts.threshold
      · rw [landing_of_below find?_seat_top htop] at hs
        obtain rfl := Option.some.inj hs
        exact ⟨find?_room (List.find?_cons_of_pos (by simpa using htop)),
          hlead held hheld (Ne.symm hother)⟩
      · rw [landing_of_full find?_seat_top htop] at hs
        refine ⟨find?_room hs, ?_⟩
        by_contra hclose
        have hseat : held.seat ≠ top.seat := by
          intro hseat
          rw [hseat, find?_seat_top] at hfirst
          obtain rfl := Option.some.inj hfirst
          exact htop hroom
        exact h ⟨hfloating, held, top, s, hheld, hroom, by rw [hrank]; rfl, htop,
          hlead held hheld hseat, by rw [hrank]; exact hs, hother, hclose⟩
    · obtain rfl := Option.some.inj (hheld'.symm.trans hheld)
      rw [hchosen, landing_of_below hfirst hroom] at hs
      obtain rfl := Option.some.inj hs
      exact absurd rfl hother

theorem not_survives_of_skips {input : PlaceAgentInput} {opts : ResolveOptions}
    (h : SkipsWithinMargin js input opts) : ¬ HysteresisSurvives js input opts := by
  obtain ⟨hfloating, held, top, next, hheld, hroom, hhead, hfull, hlead, hnext, hother, hclose⟩ := h
  obtain ⟨others, hrank⟩ : ∃ others, rankHealthy js input.nowMs input.candidates = top :: others := by
    cases hcase : rankHealthy js input.nowMs input.candidates with
    | nil => simp [hcase] at hhead
    | cons first others =>
      rw [hcase] at hhead
      obtain rfl := Option.some.inj hhead
      exact ⟨others, rfl⟩
  have hchosen : applyHysteresis top (top :: others) input.previous input.marginPct = top := by
    rcases chosen_cases js input hrank with ⟨hchosen, -⟩ | ⟨_, hheld', -, hwithin, -⟩
    · exact hchosen
    · obtain rfl := Option.some.inj (hheld'.symm.trans hheld)
      exact absurd hlead hwithin
  have hplaced : dispatched js input opts = some (floatingPlacement input next) := by
    rw [dispatched_eq js opts hfloating, hrank]
    rw [hrank] at hnext
    simp only [hchosen, landing_of_full find?_seat_top hfull, hnext, Option.map_some]
  intro hsurvives
  rcases (hsurvives hfloating _ hplaced).1 held hheld hroom with hseat | ⟨r, hr, hfar⟩
  · exact hother hseat
  · have hsame := hr.symm.trans (find?_room hnext)
    rw [Option.some.inj hsame] at hfar
    exact hclose hfar

/-- Hysteresis survives the throttle unless the throttle skips a full account within the
margin. -/
theorem hysteresisSurvives_iff (input : PlaceAgentInput) (opts : ResolveOptions) :
    HysteresisSurvives js input opts ↔ ¬ SkipsWithinMargin js input opts :=
  ⟨fun hsurvives hskips => not_survives_of_skips js hskips hsurvives,
    survives_of_not_skips js⟩

end

/-- A runtime that knows the dates of the example, compares by code points and prints numbers as
Lean does. -/
def newYearRuntime : Js.Runtime where
  dateParse
    | "2026-01-01T00:00:00.000Z" => some 1767225600000
    | "2026-01-02T00:00:00.000Z" => some 1767312000000
    | _ => none
  localeCompare a b := compare a b
  numberText := toString

/-- A minute before the window of the fullest account resets: it is the roomiest by score, and
full by usage. -/
def nearReset : PlaceAgentInput where
  role := "implementer"
  workSize := .average
  reasoningBudget := .standard
  pins := []
  candidates := [
    { provider := .claude, account := "a", available := true,
      headroom := .known 96 "2026-01-01T00:00:00.000Z" },
    { provider := .claude, account := "b", available := true,
      headroom := .known 40 "2026-01-02T00:00:00.000Z" },
    { provider := .claude, account := "c", available := true,
      headroom := .known 45 "2026-01-02T00:00:00.000Z" }]
  nowMs := 1767225540000
  previous := some {
    role := "implementer", provider := .claude, account := "c", model := "m", effort := .medium
    context := .standard }

/-- A candidate of the example with its score. -/
def nearResetScored (account : String) (usedPct : Float) (resetAt : String) : ScoredCandidate where
  provider := .claude
  account
  score := headroomScore newYearRuntime usedPct resetAt nearReset.nowMs
  usedPct
  resetAt

/-- The seat leaves `c` for `b`, which is five points roomier, under a margin of ten. -/
theorem throttle_skips_within_margin :
    ¬ ∀ (js : Js.Runtime) (input : PlaceAgentInput) (opts : ResolveOptions),
      HysteresisSurvives js input opts := by
  intro h
  have hrank : rankHealthy newYearRuntime nearReset.nowMs nearReset.candidates =
      [nearResetScored "a" 96 "2026-01-01T00:00:00.000Z",
        nearResetScored "b" 40 "2026-01-02T00:00:00.000Z",
        nearResetScored "c" 45 "2026-01-02T00:00:00.000Z"] :=
    List.mergeSort_of_pairwise (by decide +kernel)
  refine not_survives_of_skips newYearRuntime ?_ (h newYearRuntime nearReset { nowMs := 0 })
  refine ⟨rfl, nearResetScored "c" 45 "2026-01-02T00:00:00.000Z",
    nearResetScored "a" 96 "2026-01-01T00:00:00.000Z",
    nearResetScored "b" 40 "2026-01-02T00:00:00.000Z", ?_, by decide +kernel, by rw [hrank]; rfl,
    by decide +kernel, by decide +kernel, ?_, by decide +kernel, by decide +kernel⟩
  · rw [incumbent, hrank]
    rfl
  · rw [hrank, List.find?_cons_of_neg (by decide +kernel), List.find?_cons_of_pos (by decide +kernel)]

end Orchestration.Dispatch
