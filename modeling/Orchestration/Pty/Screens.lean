import Mathlib.Data.List.Infix
import Orchestration.Pty.DialogWatcher

/-!
# Screens

The output of a pane is a row of screens, each ended by a reset. A reset may be cut between two
chunks, and the watcher keeps as much of the output as one can reach back into. A screen shows a
dialog if some part of it reads as the dialog.
-/

namespace Orchestration.Pty

open Dispatch (Provider)
open Js (isStrWhiteSpace trim)

/-! ## The end of a text -/

theorem utf16Length_append (a b : Text) : utf16Length (a ++ b) = utf16Length a + utf16Length b := by
  simp [utf16Length]

theorem length_le_utf16Length (text : Text) : text.length ≤ utf16Length text := by
  induction text with
  | nil => exact Nat.zero_le _
  | cons c text ih =>
    have hcons := utf16Length_append [c] text
    have hone : 1 ≤ utf16Length [c] := by
      simp only [utf16Length, List.map_cons, List.map_nil, List.sum_cons, List.sum_nil]
      split <;> omega
    rw [List.singleton_append] at hcons
    rw [List.length_cons, hcons]
    omega

theorem sliceLast_suffix (n : ℕ) (text : Text) : sliceLast n text <:+ text := by
  induction text with
  | nil => exact List.suffix_refl _
  | cons c text ih =>
    rw [sliceLast]
    split
    · exact List.suffix_refl _
    · exact ih.trans (List.suffix_cons c text)

theorem utf16Length_sliceLast (n : ℕ) (text : Text) : utf16Length (sliceLast n text) ≤ n := by
  induction text with
  | nil => exact Nat.zero_le _
  | cons c text ih =>
    rw [sliceLast]
    split
    · assumption
    · exact ih

/-- The slice holds every end of the text that fits. -/
theorem suffix_sliceLast {n : ℕ} {text last : Text} (hlast : last <:+ text)
    (hfits : utf16Length last ≤ n) : last <:+ sliceLast n text := by
  induction text with
  | nil =>
    obtain rfl := List.suffix_nil.1 hlast
    exact List.nil_suffix
  | cons c text ih =>
    rw [sliceLast]
    split
    · exact hlast
    · rename_i hlong
      obtain rfl | hlast := List.suffix_cons_iff.1 hlast
      · exact absurd hfits hlong
      · exact ih hlast

/-- What was cut off before more came would be cut off then. -/
theorem sliceLast_append (n : ℕ) (text more : Text) :
    sliceLast n (sliceLast n text ++ more) = sliceLast n (text ++ more) := by
  induction text with
  | nil => rfl
  | cons c text ih =>
    rw [sliceLast]
    split
    · rfl
    · rename_i hlong
      rw [ih, List.cons_append, sliceLast, if_neg]
      rw [← List.cons_append, utf16Length_append]
      omega

/-! ## Resets -/

/-- No reset of the screen stands in the text. -/
def ResetFree (text : Text) : Prop := suffixAfterLastScreenReset text = none

instance (text : Text) : Decidable (ResetFree text) := inferInstanceAs (Decidable (_ = _))

theorem suffixAfterLast_append {text suffix : Text} (before : Text)
    (h : suffixAfterLastScreenReset text = some suffix) :
    suffixAfterLastScreenReset (before ++ text) = some suffix := by
  induction before with
  | nil => exact h
  | cons c before ih => rw [List.cons_append, suffixAfterLastScreenReset, ih]

theorem ResetFree.suffix {text last : Text} (h : ResetFree text) (hlast : last <:+ text) :
    ResetFree last := by
  obtain ⟨before, rfl⟩ := hlast
  cases hreset : suffixAfterLastScreenReset last with
  | none => exact hreset
  | some suffix =>
    rw [ResetFree, suffixAfterLast_append before hreset] at h
    cases h

/-- A reset starts with an escape. -/
theorem not_reset_of_ne {c : Char} (hc : c ≠ ESC) (text : Text) :
    (SCREEN_RESET_PATTERNS.findSome? fun pattern =>
      if pattern <+: c :: text then some ((c :: text).drop pattern.length) else none) = none := by
  simp [SCREEN_RESET_PATTERNS, List.cons_prefix_cons, hc.symm]

theorem ResetFree.cons {c : Char} {text : Text} (h : ResetFree text) (hc : c ≠ ESC) :
    ResetFree (c :: text) := by
  rw [ResetFree, suffixAfterLastScreenReset, h]
  exact not_reset_of_ne hc text

theorem suffixAfterLast_reset {reset last : Text} (hreset : reset ∈ SCREEN_RESET_PATTERNS)
    (hlast : ResetFree last) : suffixAfterLastScreenReset (reset ++ last) = some last := by
  simp only [SCREEN_RESET_PATTERNS, List.mem_cons, List.not_mem_nil, or_false] at hreset
  obtain rfl | rfl := hreset
  · have htail : ResetFree ('[' :: '2' :: 'J' :: last) :=
      ((hlast.cons (by decide)).cons (by decide)).cons (by decide)
    change suffixAfterLastScreenReset (ESC :: '[' :: '2' :: 'J' :: last) = some last
    rw [suffixAfterLastScreenReset, htail]
    simp [SCREEN_RESET_PATTERNS]
  · have htail : ResetFree ('c' :: last) := hlast.cons (by decide)
    change suffixAfterLastScreenReset (ESC :: 'c' :: last) = some last
    rw [suffixAfterLastScreenReset, htail]
    simp [SCREEN_RESET_PATTERNS]

theorem not_resetFree_reset {reset : Text} (hreset : reset ∈ SCREEN_RESET_PATTERNS) (text : Text) :
    ¬ ResetFree (reset ++ text) := by
  intro hfree
  have hlast := suffixAfterLast_reset hreset (hfree.suffix (List.suffix_append _ _))
  cases hfree.symm.trans hlast

theorem resetFree_cons_iff {c : Char} {text : Text} :
    ResetFree (c :: text) ↔
      ResetFree text ∧ ∀ reset ∈ SCREEN_RESET_PATTERNS, ¬ reset <+: c :: text := by
  constructor
  · intro h
    refine ⟨h.suffix (List.suffix_cons c text), ?_⟩
    rintro reset hreset ⟨rest, hrest⟩
    rw [← hrest] at h
    exact not_resetFree_reset hreset rest h
  · rintro ⟨hfree, hnone⟩
    rw [ResetFree, suffixAfterLastScreenReset, hfree]
    exact List.findSome?_eq_none_iff.2 fun reset hreset => if_neg (hnone reset hreset)

theorem ResetFree.left {text more : Text} (h : ResetFree (text ++ more)) : ResetFree text := by
  induction text with
  | nil => rfl
  | cons c text ih =>
    rw [List.cons_append, resetFree_cons_iff] at h
    refine resetFree_cons_iff.2 ⟨ih h.1, fun reset hreset hprefix => h.2 reset hreset ?_⟩
    exact hprefix.trans (List.prefix_append (c :: text) more)

theorem escape_not_mem_tail : ∀ reset ∈ SCREEN_RESET_PATTERNS, ESC ∉ reset.tail := by decide

/-- An escape behind a text completes no reset of the text's. -/
theorem ResetFree.append_escape {text more : Text} (h : ResetFree text)
    (hmore : ResetFree (ESC :: more)) : ResetFree (text ++ ESC :: more) := by
  induction text with
  | nil => exact hmore
  | cons c text ih =>
    obtain ⟨hfree, hnone⟩ := resetFree_cons_iff.1 h
    refine resetFree_cons_iff.2 ⟨ih hfree, fun reset hreset hprefix => ?_⟩
    obtain hin | ⟨extra, hextra⟩ := List.prefix_or_prefix_of_prefix hprefix
      (List.prefix_append (c :: text) (ESC :: more))
    · exact hnone reset hreset hin
    · cases extra with
      | nil =>
        rw [List.append_nil] at hextra
        exact hnone reset hreset (hextra ▸ List.prefix_refl _)
      | cons d extra =>
        have hd : d = ESC := by
          rw [← hextra] at hprefix
          exact (List.cons_prefix_cons.1 ((List.prefix_append_right_inj (c :: text)).1 hprefix)).1
        have hinner : ESC ∈ reset.tail := by
          rw [← hextra, hd]
          simp
        exact escape_not_mem_tail reset hreset hinner

theorem suffixAfterLast_eq_some {text last : Text}
    (h : suffixAfterLastScreenReset text = some last) :
    ∃ before, ∃ reset ∈ SCREEN_RESET_PATTERNS, text = before ++ reset ++ last := by
  induction text with
  | nil => cases h
  | cons c text ih =>
    rw [suffixAfterLastScreenReset] at h
    split at h
    · rename_i suffix hsuffix
      obtain ⟨before, reset, hreset, rfl⟩ := ih (hsuffix.trans h)
      exact ⟨c :: before, reset, hreset, rfl⟩
    · obtain ⟨reset, hreset, hfound⟩ := List.exists_of_findSome?_eq_some h
      split at hfound
      · rename_i hprefix
        obtain ⟨rest, hrest⟩ := hprefix
        refine ⟨[], reset, hreset, ?_⟩
        rw [← Option.some.inj hfound, ← hrest, List.drop_left]
        rfl
      · cases hfound

/-! ## Screens -/

/-- A screen that is over: what it showed, and the reset that ended it. -/
def Ended (screen : Text) : Prop :=
  ∃ shown, ∃ reset ∈ SCREEN_RESET_PATTERNS, screen = shown ++ reset ∧ ResetFree shown

/-- Before its reset is complete, no reset is seen. -/
theorem Ended.resetFree {shown rest : Text} (h : Ended (shown ++ rest)) (hrest : rest ≠ []) :
    ResetFree shown := by
  obtain ⟨whole, reset, hreset, heq, hfree⟩ := h
  obtain ⟨more, rfl, -⟩ | ⟨start, rfl, hcut⟩ := List.append_eq_append_iff.1 heq
  · exact hfree.left
  · have hstart : ∀ start' ∈ reset.inits, start' ≠ reset → ResetFree start' ∧
        (start' = [] ∨ start'.head? = some ESC) := by
      clear hcut heq
      revert reset
      decide
    obtain ⟨hstart, hhead⟩ := hstart start
      ((List.mem_inits _ _).2 ⟨rest, hcut.symm⟩) fun heq' => hrest (by simpa [heq'] using hcut)
    cases start with
    | nil => simpa using hfree
    | cons c start =>
      obtain rfl : c = ESC := by simpa using hhead
      exact hfree.append_escape hstart

/-- The dialog that a text reads as. -/
def reads (provider : Option Provider) (text : Text) : Option DialogSig :=
  classifyDialog provider (normalizeStartupOutput text)

/-- A screen shows a dialog if some part of it reads as the dialog. -/
def Shows (provider : Option Provider) (screen : Text) (sig : DialogSig) : Prop :=
  ∃ part, part <:+: screen ∧ reads provider part = some sig

theorem Shows.mono {provider : Option Provider} {part screen : Text} {sig : DialogSig}
    (h : Shows provider part sig) (hpart : part <:+: screen) : Shows provider screen sig := by
  obtain ⟨inner, hinner, hreads⟩ := h
  exact ⟨inner, hinner.trans hpart, hreads⟩

/-- The first dialog that a part of the screen reads as. -/
def shownDialog (provider : Option Provider) (screen : Text) : Option DialogSig :=
  (screen.tails.flatMap List.inits).findSome? (reads provider)

theorem mem_parts {part screen : Text} :
    part ∈ screen.tails.flatMap List.inits ↔ part <:+: screen := by
  simp only [List.mem_flatMap, List.mem_tails, List.mem_inits]
  exact ⟨fun ⟨tail, htail, hpart⟩ => hpart.isInfix.trans htail.isInfix,
    fun h => ⟨_, (List.infix_iff_prefix_suffix.1 h).choose_spec.2,
      (List.infix_iff_prefix_suffix.1 h).choose_spec.1⟩⟩

theorem shows_of_shownDialog {provider : Option Provider} {screen : Text} {sig : DialogSig}
    (h : shownDialog provider screen = some sig) : Shows provider screen sig := by
  obtain ⟨part, hmem, hreads⟩ := List.exists_of_findSome?_eq_some h
  exact ⟨part, mem_parts.1 hmem, hreads⟩

theorem shownDialog_eq_none {provider : Option Provider} {screen : Text} :
    shownDialog provider screen = none ↔ ∀ sig, ¬ Shows provider screen sig := by
  rw [shownDialog, List.findSome?_eq_none_iff]
  constructor
  · rintro h sig ⟨part, hpart, hreads⟩
    rw [h part (mem_parts.2 hpart)] at hreads
    cases hreads
  · intro h part hpart
    cases hreads : reads provider part with
    | none => rfl
    | some sig => exact absurd ⟨part, mem_parts.1 hpart, hreads⟩ (h sig)

/-! ## The reach of a reset -/

/-- `tail` is the end of the text, as far as a reset can reach into it. -/
structure IsTail (tail text : Text) : Prop where
  suffix : tail <:+ text
  short : utf16Length tail ≤ SCREEN_RESET_TAIL_CHARS
  reach : ∀ last, last <:+ text → utf16Length last ≤ SCREEN_RESET_TAIL_CHARS → last <:+ tail

theorem IsTail.append {tail text : Text} (h : IsTail tail text) (chunk : Text) :
    IsTail (sliceLast SCREEN_RESET_TAIL_CHARS (tail ++ chunk)) (text ++ chunk) where
  suffix := (sliceLast_suffix _ _).trans (List.suffix_append_self_iff.2 h.suffix)
  short := utf16Length_sliceLast _ _
  reach last hlast hshort := by
    refine suffix_sliceLast ?_ hshort
    obtain hin | hextra := List.suffix_or_suffix_of_suffix hlast (List.suffix_append text chunk)
    · exact List.suffix_append_of_suffix hin
    · obtain ⟨start, rfl⟩ := hextra
      rw [List.suffix_append_self_iff] at hlast ⊢
      rw [utf16Length_append] at hshort
      exact h.reach start hlast (by omega)

/-- The last reset of the output is the one that ended the last screen. -/
theorem suffixAfterLast_screens {screens : List Text} {last : Text}
    (hended : ∀ screen ∈ screens, Ended screen) (hne : screens ≠ []) (hlast : ResetFree last) :
    suffixAfterLastScreenReset (screens.flatten ++ last) = some last := by
  obtain rfl | ⟨earlier, screen, rfl⟩ := List.eq_nil_or_concat screens
  · exact absurd rfl hne
  · obtain ⟨shown, reset, hreset, rfl, -⟩ := hended screen (by simp)
    have hflat : (earlier ++ [shown ++ reset]).flatten ++ last =
        (earlier.flatten ++ shown) ++ (reset ++ last) := by simp
    rw [List.concat_eq_append, hflat]
    exact suffixAfterLast_append _ (suffixAfterLast_reset hreset hlast)

/-! ## Short texts -/

theorem rests_layout_singleton (c : Char) : ANSI_LAYOUT_ESCAPE.rests [c] = [] := by
  simp only [ANSI_LAYOUT_ESCAPE, Regex.introducer, Regex.oneOf, Regex.rests]
  split <;> rfl

theorem rests_escape_singleton (c : Char) : ANSI_ESCAPE.rests [c] = [] := by
  simp only [ANSI_ESCAPE, Regex.introducer, Regex.oneOf, Regex.rests]
  split <;> rfl

theorem length_collapseWhiteSpace_le (text : Text) :
    (collapseWhiteSpace text).length ≤ text.length := by
  induction text with
  | nil => exact Nat.le_refl _
  | cons c text ih =>
    rw [collapseWhiteSpace]
    split
    · split
      · rename_i rest hrest
        rw [hrest] at ih
        exact ih.trans (Nat.le_succ _)
      · exact Nat.succ_le_succ ih
    · exact Nat.succ_le_succ ih

theorem length_trim_le (text : Text) : (trim text).length ≤ text.length := by
  rw [trim, List.length_reverse]
  refine (List.length_dropWhile_le _ _).trans ?_
  rw [List.length_reverse]
  exact List.length_dropWhile_le _ _

theorem length_normalize_singleton (c : Char) : (normalizeStartupOutput [c]).length ≤ 1 := by
  have hlayout : ANSI_LAYOUT_ESCAPE.replaceAll [' '] [c].length [c] = [c] := by
    rw [List.length_singleton, Regex.replaceAll, rests_layout_singleton]
    rfl
  have hescape : ANSI_ESCAPE.replaceAll [] [c].length [c] = [c] := by
    rw [List.length_singleton, Regex.replaceAll, rests_escape_singleton]
    rfl
  simp only [normalizeStartupOutput, hlayout, hescape]
  exact (length_trim_le _).trans (length_collapseWhiteSpace_le [c])

theorem exists_long_anchor : ∀ sig ∈ DIALOG_SIGNATURES .claude ++ DIALOG_SIGNATURES .codex,
    ∃ anchor ∈ sig.anchors, 1 < anchor.length := by decide

theorem classifyDialog_short {provider : Option Provider} {text : Text} (h : text.length ≤ 1) :
    classifyDialog provider text = none := by
  refine List.find?_eq_none.2 fun sig hsig hall => ?_
  have hknown : sig ∈ DIALOG_SIGNATURES .claude ++ DIALOG_SIGNATURES .codex := by
    cases provider with
    | none => simpa using hsig
    | some p => cases p <;> simp_all
  obtain ⟨anchor, hmem, hlong⟩ := exists_long_anchor sig hknown
  have hincludes := of_decide_eq_true (List.all_eq_true.1 hall anchor hmem)
  have hle := hincludes.length_le
  rw [toLowerCase, List.length_map] at hle
  omega

theorem reads_short {provider : Option Provider} {text : Text} (h : text.length ≤ 1) :
    reads provider text = none := by
  apply classifyDialog_short
  match text, h with
  | [], _ => decide
  | [c], _ => exact length_normalize_singleton c

end Orchestration.Pty
