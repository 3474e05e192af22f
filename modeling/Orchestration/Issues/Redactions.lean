import Orchestration.Issues.Scrub
import Orchestration.Js.Matching

/-!
# What a redaction leaves to match

Every pass cuts pieces out of the text and puts a marker in brackets in their place. A pattern
whose words hold no bracket can only match what was there before, as long as a cut makes no new
word edge.
-/

namespace Orchestration.Issues

open Js

/-- The characters of the markers, but for the brackets. -/
def isMarkChar (c : Char) : Bool := c ∈ "redacted-email-token".toList

/-- A cut of `m`, which stands after `b` and before `rest`, for `r`: a marker, perhaps after a
space. It makes no word edge, begins inside of no marker, and takes no slash. -/
structure Cut (b : Option Char) (m rest r : List Char) : Prop where
  nonempty : m ≠ []
  marker : ∃ gap mark, (gap = [] ∨ gap = [' ']) ∧ r = gap ++ '[' :: (mark ++ [']']) ∧
    ∀ c ∈ mark, isMarkChar c = true
  start : b.any isWordChar = true → m.head?.any isWordChar = false
  stop : rest.head?.any isWordChar = true → (lastOf b m).any isWordCharFolded = false
  home : r.head? = some '[' → ∀ c, m.head? = some c → c ≠ '/' ∧ isStrWhiteSpace c = false
  opening : m.head? ≠ some '['
  inMarker : ∀ y z, m ++ rest = y ++ ']' :: z → ∃ c ∈ y, isMarkChar c = false

/-- A piece that is no part of a marker: it holds no bracket but a character that no marker
holds, and does not begin or end with a space. -/
structure Word (xs : List Char) : Prop where
  opening : '[' ∉ xs
  closing : ']' ∉ xs
  unmarked : ∃ c ∈ xs, isMarkChar c = false
  head : xs.head? ≠ some ' '
  last : lastOf none xs ≠ some ' '

/-- The rewritings of one pass. -/
abbrev Redacts (Kept : Option Char → List Char → List Char → Prop) :
    Option Char → List Char → List Char → Prop := Rewrites Kept Cut

theorem Word.ne_nil {xs : List Char} (h : Word xs) : xs ≠ [] := by
  rintro rfl
  obtain ⟨c, hc, -⟩ := h.unmarked
  cases hc

/-- What holds no `d` and stands at the head of a text ends before the first `d`. -/
theorem prefix_before {d : Char} {y z xs post : List Char} (h : y ++ d :: z = xs ++ post)
    (hd : d ∉ xs) : ∃ t, y = xs ++ t := by
  rcases List.append_eq_append_iff.1 h with ⟨t, hxs, hrest⟩ | ⟨t, hy, -⟩
  · cases t with
    | nil => exact ⟨[], by simpa using hxs.symm⟩
    | cons e t =>
      obtain ⟨rfl, -⟩ := List.cons.inj hrest
      exact absurd (hxs ▸ List.mem_append_right _ List.mem_cons_self) hd
  · exact ⟨t, hy⟩

section

variable {Kept : Option Char → List Char → List Char → Prop} {b b' : Option Char}
  {text out xs post' : List Char}

/-! ## Kept pieces -/

/-- A piece without brackets at the head of the result was kept. -/
theorem kept_of_prefix (h : Redacts Kept b text out) (hout : out = xs ++ post')
    (hopening : '[' ∉ xs) (hlast : lastOf none xs ≠ some ' ') :
    ∃ post, text = xs ++ post ∧ Redacts Kept (lastOf b xs) post post' := by
  induction xs generalizing b text out with
  | nil =>
    subst hout
    exact ⟨text, rfl, h⟩
  | cons x xs ih =>
    cases h with
    | nil => cases hout
    | @keep _ c rest out hkept h =>
      obtain ⟨rfl, rfl⟩ := List.cons.inj hout
      have hlast' : lastOf none xs ≠ some ' ' := by
        cases xs with
        | nil => exact fun hnone => by cases hnone
        | cons y ys => exact hlast
      obtain ⟨post, rfl, hpost⟩ := ih h rfl (fun hx => hopening (List.mem_cons_of_mem _ hx)) hlast'
      exact ⟨post, rfl, hpost⟩
    | @cut _ m rest r out hcut h =>
      obtain ⟨gap, mark, hgap, rfl, -⟩ := hcut.marker
      rcases hgap with rfl | rfl
      · obtain ⟨rfl, -⟩ := List.cons.inj hout
        exact absurd List.mem_cons_self hopening
      · obtain ⟨rfl, hrest⟩ := List.cons.inj hout
        cases xs with
        | nil => exact absurd rfl hlast
        | cons y ys =>
          obtain ⟨rfl, -⟩ := List.cons.inj hrest
          exact absurd (List.mem_cons_of_mem _ List.mem_cons_self) hopening

/-- A rewriting makes no word edge before the text. -/
theorem edge_of_redacts (h : Redacts Kept b text out)
    (hedge : (b.any isWordChar != out.head?.any isWordChar) = true) :
    (b.any isWordChar != text.head?.any isWordChar) = true := by
  cases h with
  | nil => exact hedge
  | keep hkept h => exact hedge
  | @cut _ m rest r out hcut h =>
    obtain ⟨gap, mark, hgap, rfl, -⟩ := hcut.marker
    have hnone : (gap ++ '[' :: (mark ++ [']']) ++ out).head?.any isWordChar = false := by
      rcases hgap with rfl | rfl <;> rfl
    rw [hnone] at hedge
    have hb : b.any isWordChar = true := by
      revert hedge
      cases b.any isWordChar <;> decide
    have hhead : (m ++ rest).head? = m.head? := by
      rw [List.head?_append_of_ne_nil _ hcut.nonempty]
    rw [hhead, hb, hcut.start hb]
    rfl

/-- What is left of a marker begins with a space or a bracket, or it is the end of the marker. -/
theorem marker_suffix {gap mark r₁ r₂ : List Char} (hgap : gap = [] ∨ gap = [' '])
    (hr : gap ++ '[' :: (mark ++ [']']) = r₁ ++ r₂) (hne : r₂ ≠ []) :
    r₂.head? = some ' ' ∨ r₂.head? = some '[' ∨ ∃ before rest, mark = before ++ rest ∧
      r₂ = rest ++ [']'] := by
  have hend : ∀ {r₁ : List Char}, mark ++ [']'] = r₁ ++ r₂ → ∃ before rest,
      mark = before ++ rest ∧ r₂ = rest ++ [']'] := by
    intro r₁ hsplit
    obtain ⟨rest, last, rfl⟩ := (List.eq_nil_or_concat r₂).resolve_left hne
    rw [List.concat_eq_append, ← List.append_assoc] at hsplit
    obtain ⟨hmark, hlast⟩ := List.append_inj' hsplit rfl
    exact ⟨r₁, rest, hmark, by rw [List.concat_eq_append, hlast]⟩
  rcases hgap with rfl | rfl
  · cases r₁ with
    | nil => exact .inr (.inl (by rw [← (show _ = r₂ from hr)]; rfl))
    | cons c r₁ => exact .inr (.inr (hend (List.cons.inj hr).2))
  · cases r₁ with
    | nil => exact .inl (by rw [← (show _ = r₂ from hr)]; rfl)
    | cons c r₁ =>
      have hrest := (List.cons.inj hr).2
      cases r₁ with
      | nil => exact .inr (.inl (by rw [← (show _ = r₂ from hrest)]; rfl))
      | cons d r₁ => exact .inr (.inr (hend (List.cons.inj hrest).2))

/-- No word begins inside of what a cut puts in. -/
theorem Cut.clear {m rest r r₁ r₂ : List Char} (h : Cut b m rest r) (hr : r = r₁ ++ r₂)
    (hne : r₂ ≠ []) (hword : Word xs) : r₂ ++ out ≠ xs ++ post' := by
  intro hxs
  obtain ⟨gap, mark, hgap, rfl, hmark⟩ := h.marker
  have hhead : xs.head? = r₂.head? := by
    have := congrArg List.head? hxs
    rw [List.head?_append_of_ne_nil _ hne, List.head?_append_of_ne_nil _ hword.ne_nil] at this
    exact this.symm
  rcases marker_suffix hgap hr hne with hspace | hbracket | ⟨before, rest, rfl, rfl⟩
  · exact hword.head (hhead.trans hspace)
  · exact hword.opening (List.mem_of_mem_head? (hhead.trans hbracket))
  · rw [List.append_assoc] at hxs
    obtain ⟨t, rfl⟩ := prefix_before hxs hword.closing
    obtain ⟨c, hc, hunmarked⟩ := hword.unmarked
    rw [hmark c (List.mem_append_right _ (List.mem_append_left _ hc))] at hunmarked
    cases hunmarked

/-- A word of the result was there before. -/
theorem word_of_redacts (h : Redacts Kept b text out) {before : List Char} (hword : Word xs)
    (hout : out = before ++ (xs ++ post')) : ∃ before' post, text = before' ++ (xs ++ post) := by
  induction h generalizing before with
  | nil =>
    obtain ⟨-, hnil⟩ := List.append_eq_nil_iff.1 hout.symm
    exact absurd (List.append_eq_nil_iff.1 hnil).1 hword.ne_nil
  | @keep b c rest out hkept h ih =>
    cases before with
    | nil =>
      have hall : Redacts Kept b (c :: rest) (c :: out) := .keep hkept h
      have hhead : c :: out = xs ++ post' := hout
      obtain ⟨post, hpost, -⟩ := kept_of_prefix hall hhead hword.opening hword.last
      exact ⟨[], post, hpost⟩
    | cons d before =>
      obtain ⟨before', post, hrest⟩ := ih (List.cons.inj hout).2
      exact ⟨c :: before', post, congrArg (c :: ·) hrest⟩
  | @cut b m rest r out hcut h ih =>
    rcases List.append_eq_append_iff.1 hout with ⟨t, hbefore, hrest⟩ | ⟨t, hr, hrest⟩
    · obtain ⟨before', post, rfl⟩ := ih hrest
      exact ⟨m ++ before', post, by rw [List.append_assoc]⟩
    · cases t with
      | nil =>
        have hnil : out = [] ++ (xs ++ post') := hrest.symm
        obtain ⟨before', post, rfl⟩ := ih hnil
        exact ⟨m ++ before', post, by rw [List.append_assoc]⟩
      | cons d t => exact absurd hrest.symm (hcut.clear hr (List.cons_ne_nil d t) hword)

/-! ## Patterns of words -/

/-- A pattern that matches words, and whether it matches one depends on word edges only. -/
structure Local (q : Regex) : Prop where
  word : ∀ b xs post, q.Matches b xs post → Word xs
  edges : ∀ b b' xs post post', q.Matches b' xs post' →
    (b = b' ∨ (xs.head?.any isWordChar = true → b.any isWordCharFolded = false)) →
    ((lastOf b xs).any isWordChar != post'.head?.any isWordChar →
      (lastOf b xs).any isWordChar != post.head?.any isWordChar) → q.Matches b xs post

/-- What is matched in the result here was no match before. -/
def Clear (q : Regex) (b : Option Char) (text out : List Char) : Prop :=
  ∀ xs post post', text = xs ++ post → out = xs ++ post' → ¬ q.Matches b xs post

theorem clear_of_noMatch {q : Regex} (h : q.NoMatch b text) : Clear q b text out :=
  fun xs post _ htext _ => h xs post htext

theorem free_append {q : Regex} {r : List Char}
    (hr : ∀ r₁ r₂, r = r₁ ++ r₂ → r₂ ≠ [] → q.NoMatch (lastOf b r₁) (r₂ ++ out))
    (hout : q.Free (lastOf b r) out) : q.Free b (r ++ out) := by
  induction r generalizing b with
  | nil => exact hout
  | cons c r ih =>
    refine ⟨hr [] (c :: r) rfl (List.cons_ne_nil c r), ih (fun r₁ r₂ hsplit hne => ?_) hout⟩
    exact hr (c :: r₁) r₂ (congrArg (c :: ·) hsplit) hne

/-- A pattern of words that matched at no kept place matches nowhere in the result. `b'` is the
character that is before the result now. -/
theorem Local.free {q : Regex} (hq : Local q) (h : Redacts (Clear q) b text out)
    (hbefore : b = b' ∨ (text.head?.any isWordChar = true → b.any isWordCharFolded = false)) :
    q.Free b' out := by
  induction h generalizing b' with
  | nil => trivial
  | @keep b c rest out hkept h ih =>
    refine ⟨fun xs post' hout hmatch => ?_, ih (.inl rfl)⟩
    have hword := hq.word _ _ _ hmatch
    have hall : Redacts (Clear q) b (c :: rest) (c :: out) := .keep hkept h
    obtain ⟨post, htext, hpost⟩ := kept_of_prefix hall hout hword.opening hword.last
    have hhead : xs.head? = (c :: rest).head? := by
      rw [htext, List.head?_append_of_ne_nil _ hword.ne_nil]
    refine hkept xs post post' htext hout (hq.edges b b' xs post post' hmatch ?_ ?_)
    · rw [hhead]
      exact hbefore
    · exact edge_of_redacts hpost
  | @cut b m rest r out hcut h ih =>
    refine free_append (fun r₁ r₂ hr hne xs post' hout hmatch => ?_) (ih (.inr hcut.stop))
    exact hcut.clear hr hne (hq.word _ _ _ hmatch) hout

end

end Orchestration.Issues
