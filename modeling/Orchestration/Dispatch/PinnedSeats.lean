import Mathlib.Data.List.Induction
import Orchestration.Dispatch.Throttle
import Orchestration.Library.FloatOrder

/-!
# Pinned seats

A pinned seat never leaves its provider. Which of the provider's accounts it runs on is
settled by the reset-aware score, before the threshold is looked at: the seat waits for
the roomiest account even while another one is free.
-/

namespace Orchestration.Dispatch

section

variable (js : Js.Runtime)

/-! ## The roomiest account -/

/-- One step of the scan for the roomiest account. -/
def keepRoomiest (best : Option String × Float) (c : ScoredCandidate) : Option String × Float :=
  if best.2 < c.score || c.score == best.2 && best.1.all fun account =>
      js.localeCompare c.account account == .lt then (some c.account, c.score)
  else best

/-- What the scan has found: nothing, as no score was a number, or a candidate that none of them
outscores. -/
inductive Scanned (scored : List ScoredCandidate) : Option String × Float → Prop where
  | nothing : (∀ s ∈ scored, ¬ (s.score == s.score) = true) → Scanned scored (none, -1 / 0)
  | roomiest (best : ScoredCandidate) : best ∈ scored →
      (∀ s ∈ scored, ¬ best.score < s.score) → Scanned scored (some best.account, best.score)

variable {js} {scored : List ScoredCandidate} {found : Option String × Float} {c : ScoredCandidate}

omit js in
/-- A score that is a number is not below the score that the scan starts from. -/
theorem number_of_start {a : Float} (h : (a == a) = true) : -1 / 0 < a ∨ (a == -1 / 0) = true := by
  have hstart : FloatOrder.place (-1 / 0 : Float).toModel.unpack =
      some (toLex (-2, toLex (0, 0))) := by
    decide +kernel
  obtain ⟨p, hp, -⟩ := FloatOrder.beq_iff.1 h
  rcases FloatOrder.bottom_le hp with hbottom | hbelow
  · exact .inr (FloatOrder.beq_iff.2 ⟨p, hp, hbottom ▸ hstart⟩)
  · exact .inl (FloatOrder.lt_iff.2 ⟨_, p, hstart, hp, hbelow⟩)

/-- What the scan found is replaced only by a candidate that scores as high. -/
theorem Scanned.replaced (h : Scanned scored found)
    (hhigh : found.2 < c.score ∨ (c.score == found.2) = true) {s : ScoredCandidate}
    (hs : s ∈ scored) : ¬ c.score < s.score := by
  intro hbeaten
  have hbelow : found.2 < s.score := by
    rcases hhigh with habove | hsame
    · exact FloatOrder.lt_trans habove hbeaten
    · exact FloatOrder.lt_of_beq_of_lt hsame hbeaten
  cases h with
  | nothing hnone => exact hnone s hs (FloatOrder.beq_self_of_lt hbelow)
  | roomiest best hbest hroomiest => exact hroomiest s hs hbelow

theorem Scanned.step (h : Scanned scored found) :
    Scanned (scored ++ [c]) (keepRoomiest js found c) := by
  unfold keepRoomiest
  split
  · next hwins =>
    have hhigh : found.2 < c.score ∨ (c.score == found.2) = true := by
      simp only [Bool.or_eq_true, decide_eq_true_iff, Bool.and_eq_true] at hwins
      exact hwins.imp_right And.left
    refine .roomiest c (List.mem_append_right _ (List.mem_singleton_self c)) ?_
    intro s hs
    rcases List.mem_append.1 hs with hs | hs
    · exact h.replaced hhigh hs
    · obtain rfl := List.mem_singleton.1 hs
      exact FloatOrder.not_lt_self
  · next hloses =>
    simp only [Bool.or_eq_true, decide_eq_true_iff, Bool.and_eq_true, not_or, not_and] at hloses
    cases h with
    | nothing hnone =>
      refine .nothing fun s hs => ?_
      rcases List.mem_append.1 hs with hs | hs
      · exact hnone s hs
      · obtain rfl := List.mem_singleton.1 hs
        intro hnumber
        rcases number_of_start hnumber with habove | hsame
        · exact hloses.1 habove
        · exact hloses.2 hsame rfl
    | roomiest best hbest hroomiest =>
      refine .roomiest best (List.mem_append_left _ hbest) fun s hs => ?_
      rcases List.mem_append.1 hs with hs | hs
      · exact hroomiest s hs
      · obtain rfl := List.mem_singleton.1 hs
        exact hloses.1

theorem scanned (scored : List ScoredCandidate) :
    Scanned scored (scored.foldl (keepRoomiest js) (none, -1 / 0)) := by
  induction scored using List.reverseRecOn with
  | nil => exact .nothing fun s hs => absurd hs List.not_mem_nil
  | append_singleton scored c ih =>
    rw [List.foldl_concat]
    exact ih.step

theorem scored_account {nowMs : Float} {c : ProviderHeadroom} {s : ScoredCandidate}
    (h : scoreCandidate js nowMs c = some s) : s.account = c.account := by
  unfold scoreCandidate at h
  split at h
  · obtain rfl := Option.some.inj h
    rfl
  · cases h

theorem accountForPinnedProvider_of_found {provider : Provider}
    {candidates : List ProviderHeadroom} {nowMs score : Float} {account : String}
    (h : ((candidates.filter (·.provider = provider)).filterMap (scoreCandidate js nowMs)).foldl
      (keepRoomiest js) (none, -1 / 0) = (some account, score)) :
    accountForPinnedProvider js provider candidates nowMs = account := by
  unfold keepRoomiest at h
  unfold accountForPinnedProvider
  simp only [h]

/-- The pin's account is that of a healthy candidate that none outscores, if any score is a
number. -/
theorem accountForPinnedProvider_roomiest {provider : Provider}
    {candidates : List ProviderHeadroom} {nowMs : Float} {free : ProviderHeadroom}
    {s : ScoredCandidate} (hfree : free ∈ candidates) (hprovider : free.provider = provider)
    (hscore : scoreCandidate js nowMs free = some s) (hnumber : (s.score == s.score) = true) :
    ∃ best ∈ candidates, best.provider = provider ∧
      best.account = accountForPinnedProvider js provider candidates nowMs ∧
      ∃ b, scoreCandidate js nowMs best = some b ∧
        ∀ c ∈ candidates, c.provider = provider → ∀ s, scoreCandidate js nowMs c = some s →
          ¬ b.score < s.score := by
  have hmem : ∀ {c s}, c ∈ candidates → c.provider = provider →
      scoreCandidate js nowMs c = some s →
      s ∈ (candidates.filter (·.provider = provider)).filterMap (scoreCandidate js nowMs) :=
    fun hc hown hs => List.mem_filterMap.2
      ⟨_, List.mem_filter.2 ⟨hc, decide_eq_true hown⟩, hs⟩
  have hscan := @scanned js
    ((candidates.filter (·.provider = provider)).filterMap (scoreCandidate js nowMs))
  generalize hfound : List.foldl (keepRoomiest js) _ _ = found at hscan
  cases hscan with
  | nothing hnone => exact absurd hnumber (hnone s (hmem hfree hprovider hscore))
  | roomiest b hb hroomiest =>
    obtain ⟨best, hbest, hscored⟩ := List.mem_filterMap.1 hb
    obtain ⟨hlisted, hown⟩ := List.mem_filter.1 hbest
    refine ⟨best, hlisted, of_decide_eq_true hown, ?_, b, hscored, ?_⟩
    · rw [accountForPinnedProvider_of_found hfound]
      exact (scored_account hscored).symm
    · exact fun c hc hc' s' hs' => hroomiest s' (hmem hc hc' hs')

/-! ## Placed or waiting -/

/-- A pinned seat is placed on its own account, or waits for it while its first listing is not
free. -/
theorem resolvePinned_spec (js : Js.Runtime) (placement : Placement) (reason : String)
    (candidates : List ProviderHeadroom) (threshold : Float) :
    ((resolvePinned js placement reason candidates threshold).placement? = some placement ∧
      ∃ c ∈ candidates, c.provider = placement.provider ∧ c.account = placement.account ∧
        c.Free threshold) ∨
    ((resolvePinned js placement reason candidates threshold).placement? = none ∧
      ∀ c, (candidates.find? fun c =>
          c.provider = placement.provider ∧ c.account = placement.account) = some c →
        ¬ c.Free threshold) := by
  unfold resolvePinned
  dsimp only
  generalize hlisted : candidates.find? _ = listed
  split
  · next hbelow =>
    obtain ⟨c, rfl, hc⟩ := (Option.any_eq_true _ _).1 hbelow
    have hsame : c.provider = placement.provider ∧ c.account = placement.account := by
      simpa using List.find?_some hlisted
    exact .inl ⟨rfl, c, List.mem_of_find?_eq_some hlisted, hsame.1, hsame.2, below_eq_true.1 hc⟩
  · next hbelow =>
    refine .inr ⟨rfl, ?_⟩
    rintro c rfl hfree
    exact hbelow (below_eq_true.2 hfree)

/-- A placed pinned seat is on a free account of its provider. A waiting one waits for an account
that is listed as not free, and while another account of the provider is free, whose score is a
number, it is the account of a healthy candidate that none of the provider's outscores. -/
theorem pinned_waits_for_roomiest (js : Js.Runtime) (input : PlaceAgentInput)
    (opts : ResolveOptions) (pin : Pin) (hpinned : lookupPin input.pins input.role = some pin) :
    let threshold := opts.maxedThresholdPct.getD MAXED_THRESHOLD_PCT_DEFAULT
    let resolution := resolveDispatch js (placeAgent js input) input.candidates opts
    (∀ placement, resolution.placement? = some placement →
      placement.provider = pin.provider ∧ ∃ c ∈ input.candidates, c.provider = pin.provider ∧
        c.account = placement.account ∧ c.Free threshold) ∧
    (resolution.placement? = none →
      ∀ free ∈ input.candidates, free.provider = pin.provider → free.Free threshold →
      ∀ s, scoreCandidate js input.nowMs free = some s → (s.score == s.score) = true →
      ∃ best ∈ input.candidates, best.provider = pin.provider ∧
        (∃ b, scoreCandidate js input.nowMs best = some b ∧
          ∀ c ∈ input.candidates, c.provider = pin.provider →
            ∀ s, scoreCandidate js input.nowMs c = some s → ¬ b.score < s.score) ∧
        ∃ listing ∈ input.candidates, listing.provider = pin.provider ∧
          listing.account = best.account ∧ ¬ listing.Free threshold) := by
  intro threshold resolution
  have hresolution : resolution = resolvePinned js
      (placementFromPin input.role pin input.workSize input.reasoningBudget
        (accountForPinnedProvider js pin.provider input.candidates input.nowMs)
        input.modelOverrides)
      (s!"role '{input.role}' is pinned to provider '{pin.provider}' (pins are never overridden " ++
        "— AC1)") input.candidates threshold := by
    simp only [resolution, threshold, placeAgent, hpinned, resolveDispatch]
  rw [hresolution]
  generalize hplacement : placementFromPin input.role pin _ _ _ _ = pinned
  have hprovider : pinned.provider = pin.provider := by rw [← hplacement]; rfl
  have haccount : pinned.account =
      accountForPinnedProvider js pin.provider input.candidates input.nowMs := by
    rw [← hplacement]
    rfl
  rcases resolvePinned_spec js pinned _ input.candidates threshold with
    ⟨hplaced, c, hc, hown, hsame, hfree⟩ | ⟨hwaits, hfull⟩
  · rw [hplaced]
    refine ⟨fun placement hsome => ?_, fun hnone => (by cases hnone)⟩
    obtain rfl := Option.some.inj hsome
    exact ⟨hprovider, c, hc, hown.trans hprovider, hsame, hfree⟩
  · rw [hwaits]
    refine ⟨fun placement hsome => (by cases hsome), fun _ => ?_⟩
    intro free hfree hown _ s hscore hnumber
    obtain ⟨best, hbest, hbestOwn, hbestAccount, hroomiest⟩ :=
      accountForPinnedProvider_roomiest hfree hown hscore hnumber
    refine ⟨best, hbest, hbestOwn, hroomiest, ?_⟩
    -- The throttle looks at the first listing of the account, which may be another one than `best`.
    obtain ⟨listing, hlisting⟩ : ∃ listing, (input.candidates.find? fun c =>
        c.provider = pinned.provider ∧ c.account = pinned.account) = some listing := by
      refine Option.isSome_iff_exists.1 (List.find?_isSome.2 ⟨best, hbest, ?_⟩)
      exact decide_eq_true ⟨hbestOwn.trans hprovider.symm, hbestAccount.trans haccount.symm⟩
    have hsame : listing.provider = pinned.provider ∧ listing.account = pinned.account := by
      simpa using List.find?_some hlisting
    exact ⟨listing, List.mem_of_find?_eq_some hlisting, hsame.1.trans hprovider,
      hsame.2.trans (haccount.trans hbestAccount.symm), hfull listing hlisting⟩

end

/-- Reads one date as the present and any other as a day later. -/
def twoDates : Js.Runtime where
  dateParse text := some (if text = "now" then 0 else 86400000)
  localeCompare a b := compare a b
  numberText := toString

/-- A pinned seat whose provider has a full account about to reset, and a half used one. -/
def fullAccountResets : PlaceAgentInput where
  role := "implementer"
  workSize := .average
  reasoningBudget := .standard
  pins := [("implementer", { provider := .claude })]
  candidates := [
    { provider := .claude, account := "claude:max", available := true, headroom := .known 99 "now" },
    { provider := .claude, account := "claude:team", available := true,
      headroom := .known 50 "tomorrow" }]
  nowMs := 0

theorem pinned_waits_for_roomiest_of_fullAccountResets :
    ∃ best ∈ fullAccountResets.candidates, best.provider = .claude ∧
      (∃ b, scoreCandidate twoDates fullAccountResets.nowMs best = some b ∧
        ∀ c ∈ fullAccountResets.candidates, c.provider = .claude →
          ∀ s, scoreCandidate twoDates fullAccountResets.nowMs c = some s → ¬ b.score < s.score) ∧
      ∃ listing ∈ fullAccountResets.candidates, listing.provider = .claude ∧
        listing.account = best.account ∧ ¬ listing.Free MAXED_THRESHOLD_PCT_DEFAULT :=
  (pinned_waits_for_roomiest twoDates fullAccountResets { nowMs := 0 } { provider := .claude }
    (by decide +kernel)).2 (by decide +kernel) _
    (List.mem_cons_of_mem _ (List.mem_singleton_self _)) rfl
    (below_eq_true.1 (by decide +kernel)) _ rfl (by decide +kernel)

/-- The seat waits for the full account, while the half used one is free. -/
theorem pinned_waits_beside_free :
    ¬ ∀ (js : Js.Runtime) (input : PlaceAgentInput) (opts : ResolveOptions) (pin : Pin),
      lookupPin input.pins input.role = some pin →
        ((resolveDispatch js (placeAgent js input) input.candidates opts).placement? = none →
          ¬ ∃ c ∈ input.candidates, c.provider = pin.provider ∧
            c.Free (opts.maxedThresholdPct.getD MAXED_THRESHOLD_PCT_DEFAULT)) := by
  intro hall
  have hwaits : (resolveDispatch twoDates (placeAgent twoDates fullAccountResets)
      fullAccountResets.candidates { nowMs := 0 }).placement? = none := by
    decide +kernel
  refine hall twoDates fullAccountResets { nowMs := 0 } { provider := .claude } (by decide +kernel)
    hwaits ⟨_, List.mem_cons_of_mem _ (List.mem_singleton_self _), rfl, ?_⟩
  exact below_eq_true.1 (by decide +kernel)

end Orchestration.Dispatch
