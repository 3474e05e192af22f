import Orchestration.Issues.CredentialLabels

/-!
# The scrubbing patterns

Eight patterns match tokens and two match labelled credentials. A private key lies between two
fences, and each fence is a word of its own.
-/

namespace Orchestration.Issues

open Js Js.Regex

/-! ## Tokens -/

theorem within_alphanumericOr (marks : String) (h : marks.toList.all isTokenChar = true) :
    (alphanumericOr marks).Within fun c => isTokenChar c = true := by
  intro c hc
  simp only [Bool.or_eq_true, decide_eq_true_eq] at hc
  rcases hc with hc | hc
  · simp [isTokenChar, hc]
  · exact List.all_eq_true.1 h c hc

theorem isTokenChar_of_upperOrDigit {c : Char} (h : upperOrDigit c = true) :
    isTokenChar c = true := by
  simp only [upperOrDigit, Bool.or_eq_true] at h
  simp only [isTokenChar, isAsciiAlphanumeric, Bool.or_eq_true]
  tauto

/-- A fixed beginning and a run of token characters. -/
theorem tokenBody_literally (text : String) (htext : isTokenHead text.toList = true)
    {least : ℕ} {most : Option ℕ} {f : Char → Bool}
    (hf : (Regex.one f).Within fun c => isTokenChar c = true) :
    TokenBody (.seq (literally text) (.times least most false (.one f))) := by
  refine tokenBody ⟨plain_literally, consuming_literally⟩ (fun b xs post h => ?_)
    ⟨trivial, consuming_times_one⟩ hf
  rw [matches_literally.1 h]
  exact htext

theorem isToken_github : IsToken TOKEN_RES[0] :=
  isToken_of_seq (tokenBody_literally "ghp_" (by decide) (within_alphanumericOr "" (by decide)))

theorem isToken_githubPat : IsToken TOKEN_RES[1] :=
  isToken_of_seq
    (tokenBody_literally "github_pat_" (by decide) (within_alphanumericOr "_" (by decide)))

theorem isToken_secretKey : IsToken TOKEN_RES[2] :=
  isToken_of_seq (tokenBody_literally "sk-" (by decide) (within_alphanumericOr "_-" (by decide)))

theorem isToken_gitlab : IsToken TOKEN_RES[3] :=
  isToken_of_seq
    (tokenBody_literally "glpat-" (by decide) (within_alphanumericOr "_-" (by decide)))

/-- A letter follows the beginning, and a dash the letter. -/
theorem isToken_slack : IsToken TOKEN_RES[4] := by
  have hletter : ∀ c : Char, ('a' ≤ c && c ≤ 'z') = true → isTokenChar c = true := by
    intro c hc
    simp only [isTokenChar, isAsciiAlphanumeric, hc, Bool.true_or]
  have hdash : (literally "-").Within fun c => isTokenChar c = true :=
    within_literally (List.all_eq_true.1 (show "-".toList.all isTokenChar = true by decide))
  have hbody : TokenBody (.seq (literally "xox") (.seq (.one fun c => 'a' ≤ c && c ≤ 'z')
      (.seq (literally "-") (atLeast 10 (alphanumericOr "-"))))) := by
    refine tokenBody ⟨plain_literally, consuming_literally⟩ (fun b xs post h => ?_)
      ⟨⟨trivial, plain_literally, trivial⟩, trivial, consuming_literally, consuming_times_one⟩
      ⟨hletter, hdash, within_alphanumericOr "-" (by decide)⟩
    rw [matches_literally.1 h]
    decide
  have hfirst := hbody.consuming
  refine ⟨⟨trivial, hfirst.1, hfirst.2.1, hfirst.2.2.1, hfirst.2.2.2, trivial⟩, _, hbody,
    matches_seq_congr fun _ _ _ => ?_⟩
  refine Iff.trans ?_ matches_seq_assoc
  refine matches_seq_congr (fun _ _ _ => Iff.trans ?_ matches_seq_assoc) _ _ _
  exact matches_seq_congr (fun _ _ _ => matches_seq_assoc) _ _ _

theorem isToken_amazon : IsToken TOKEN_RES[5] := by
  refine isToken_of_seq (tokenBody ⟨⟨plain_literally, plain_literally, plain_literally,
    plain_literally⟩, consuming_literally, consuming_literally, consuming_literally,
    consuming_literally⟩ (fun b xs post h => ?_) ⟨trivial, consuming_times_one⟩
    fun c hc => isTokenChar_of_upperOrDigit hc)
  rcases h with h | h | h | h
  · rw [matches_literally.1 h]
    decide
  · rw [matches_literally.1 h]
    decide
  · rw [matches_literally.1 h]
    decide
  · rw [matches_literally.1 h]
    decide

theorem isToken_google : IsToken TOKEN_RES[6] :=
  isToken_of_seq (tokenBody_literally "AIza" (by decide) (within_alphanumericOr "_-" (by decide)))

theorem isToken_npm : IsToken TOKEN_RES[7] :=
  isToken_of_seq (tokenBody_literally "npm_" (by decide) (within_alphanumericOr "" (by decide)))

/-! ## Labelled credentials -/

theorem isLabelled_bearer :
    IsLabelled TOKEN_RES[9] (anyCase "bearer") 6 "._~+/=-" where
  consuming := ⟨trivial, consuming_anyCase, consuming_times_one, consuming_anyCase,
    consuming_times_one⟩
  shape := label_bearer
  charset := by decide
  same _ _ _ := Iff.rfl
  stop _ _ _ h := by
    obtain ⟨mid, -, h⟩ := head_seq h
    obtain ⟨mid, -, h⟩ := head_seq h
    obtain ⟨mid, -, h⟩ := head_seq h
    obtain ⟨mid, -, h⟩ := head_seq h
    exact head_times_one h

theorem isLabelled_basic : IsLabelled TOKEN_RES[10] basicLabel 19 "+/=._-" where
  consuming := ⟨trivial, consuming_anyCase, consuming_times_one, consuming_anyCase,
    consuming_times_one, consuming_anyCase, consuming_times_one⟩
  shape := label_basic
  charset := by decide
  same _ _ _ := by
    refine matches_seq_congr (fun _ _ _ => Iff.trans ?_ matches_seq_assoc) _ _ _
    exact matches_seq_congr (fun _ _ _ => matches_seq_assoc) _ _ _
  stop _ _ _ h := by
    obtain ⟨mid, -, h⟩ := head_seq h
    obtain ⟨mid, -, h⟩ := head_seq h
    obtain ⟨mid, -, h⟩ := head_seq h
    obtain ⟨mid, -, h⟩ := head_seq h
    obtain ⟨mid, -, h⟩ := head_seq h
    obtain ⟨mid, -, h⟩ := head_seq h
    exact head_times_one h

end Orchestration.Issues
