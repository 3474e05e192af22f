import Orchestration.Issues.CredentialShapes

/-!
# Labelled credentials

A bearer or basic credential keeps its label. The marker that follows the label keeps the pattern
from matching again, for no credential begins with a bracket.
-/

namespace Orchestration.Issues

open Js Js.Regex

/-- The characters of a credential, `marks` besides letters and digits. -/
def isCredentialChar (marks : String) (c : Char) : Bool :=
  isAsciiAlphanumeric c || c ∈ marks.toList || c.toNat = 0x17F || c.toNat = 0x212A

/-- Marks that no marker and no white space holds, and the underscore is one of them. -/
def credentialMarks (marks : String) : Bool :=
  marks.toList.contains '_' &&
    marks.toList.all fun c => c != '[' && c != ']' && !isStrWhiteSpace c

/-- A label, white space and a credential. -/
def labelled (label : Regex) (marks : String) : Regex :=
  .seq (.boundary isWordCharFolded) (.seq label (.seq (plus white)
    (.seq (.notAhead (anyCase "[redacted-token]")) (credential marks))))

/-- How many characters of a text are no white space. -/
def blackCount (xs : List Char) : ℕ := xs.countP fun c => !isStrWhiteSpace c

/-- What can be the label of a credential: it has `size` characters besides white space. -/
structure Label (label : Regex) (size : ℕ) : Prop where
  plain : label.Plain
  consuming : label.Consuming
  head : ∀ b xs post, label.Matches b xs post → xs.head?.any isWordChar = true
  chars : ∀ b xs post, label.Matches b xs post → '[' ∉ xs ∧ ']' ∉ xs
  unmarked : ∀ b xs post, label.Matches b xs post → ∃ c ∈ xs, isMarkChar c = false
  count : ∀ b xs post, label.Matches b xs post → blackCount xs = size
  kept : ∀ xs sp cr, label.Matches none xs [] → sp ≠ [] →
    (∀ c ∈ sp, isStrWhiteSpace c = true) →
      redactTokenMatch (xs ++ (sp ++ cr)) = xs ++ ' ' :: REDACTED_TOKEN

theorem marker_letters : "[redacted-token]".toList =
    ['[', 'r', 'e', 'd', 'a', 'c', 't', 'e', 'd', '-', 't', 'o', 'k', 'e', 'n', ']'] := by decide

section

variable {b : Option Char} {xs post : List Char} {label : Regex} {size : ℕ} {marks : String}

theorem isCredentialChar_ne (hmarks : credentialMarks marks = true) {c : Char}
    (h : isCredentialChar marks c = true) : c ≠ '[' ∧ c ≠ ']' ∧ isStrWhiteSpace c = false := by
  have hall := List.all_eq_true.1 (Bool.and_eq_true_iff.1 hmarks).2
  simp only [isCredentialChar, Bool.or_eq_true, decide_eq_true_eq] at h
  rcases h with ((h | h) | h) | h
  · obtain ⟨hlow, hhigh⟩ := alphanumeric_bounds h
    refine ⟨?_, ?_, Bool.eq_false_iff.2 fun hwhite => ?_⟩
    · rintro rfl
      exact absurd h (by decide)
    · rintro rfl
      exact absurd h (by decide)
    · have := white_bounds hwhite
      omega
  · simpa [and_assoc] using hall c h
  · refine ⟨?_, ?_, Bool.eq_false_iff.2 fun hwhite => ?_⟩
    · rintro rfl
      exact absurd h (by decide)
    · rintro rfl
      exact absurd h (by decide)
    · have := white_bounds hwhite
      omega
  · refine ⟨?_, ?_, Bool.eq_false_iff.2 fun hwhite => ?_⟩
    · rintro rfl
      exact absurd h (by decide)
    · rintro rfl
      exact absurd h (by decide)
    · have := white_bounds hwhite
      omega

theorem isCredentialChar_of_word (hmarks : credentialMarks marks = true) {c : Char}
    (h : isWordChar c = true) : isCredentialChar marks c = true := by
  have hscore := (Bool.and_eq_true_iff.1 hmarks).1
  simp only [isWordChar, Bool.or_eq_true, decide_eq_true_eq] at h
  simp only [isCredentialChar, Bool.or_eq_true, decide_eq_true_eq]
  rcases h with h | rfl
  · exact .inl (.inl (.inl h))
  · exact .inl (.inl (.inr (by simpa using hscore)))

theorem marker_head (h : (anyCase "[redacted-token]").Matches b xs post) :
    ∃ c ys, xs = c :: ys ∧ foldsTo '[' c = true := by
  rw [matches_anyCase, marker_letters] at h
  obtain ⟨c, ys, hc, -, hxs⟩ := List.forall₂_cons_left_iff.1 h
  exact ⟨c, ys, hxs, hc⟩

/-- A match is a label, white space and a credential; the marker is not in the way. -/
theorem matches_labelled (hlabel : Label label size) (hmarks : credentialMarks marks = true) :
    (labelled label marks).Matches b xs post ↔ b.any isWordCharFolded = false ∧
      ∃ l sp cr, xs = l ++ (sp ++ cr) ∧ label.Matches none l [] ∧
        (sp ≠ [] ∧ ∀ c ∈ sp, isStrWhiteSpace c = true) ∧
        cr ≠ [] ∧ ∀ c ∈ cr, isCredentialChar marks c = true := by
  have hedge : ∀ {l more : List Char}, label.Matches none l [] →
      ((b.any isWordCharFolded != (l ++ more).head?.any isWordCharFolded) = true ↔
        b.any isWordCharFolded = false) := by
    intro l more hl
    have hhead := hlabel.head _ _ _ hl
    cases l with
    | nil => cases hhead
    | cons c l =>
      have hfolded : isWordCharFolded c = true := by
        rw [isWordCharFolded, show isWordChar c = true from hhead]
        rfl
      simp [hfolded]
  constructor
  · rintro ⟨_, _, rfl, ⟨rfl, hbefore⟩, l, _, rfl, hl, sp, _, rfl, hsp, _, cr, rfl, ⟨rfl, -⟩, hcr⟩
    have hl' : label.Matches none l [] := hlabel.plain.matches hl
    refine ⟨?_, l, sp, cr, rfl, hl', matches_plus.1 hsp, matches_plus.1 hcr⟩
    rw [List.nil_append, List.append_assoc] at hbefore
    exact (hedge hl').1 hbefore
  · rintro ⟨hbefore, l, sp, cr, rfl, hl, hsp, hcr⟩
    refine ⟨[], l ++ (sp ++ cr), rfl, ⟨rfl, ?_⟩, l, sp ++ cr, rfl, hlabel.plain.matches hl,
      sp, _, rfl, matches_plus.2 hsp, [], cr, rfl, ⟨rfl, fun ys zs hsplit hmarker => ?_⟩, matches_plus.2 hcr⟩
    · rw [List.append_assoc]
      exact (hedge hl).2 hbefore
    · obtain ⟨c, rest, hys, hc⟩ := marker_head hmarker
      subst hys
      have hbracket : c = '[' := by simpa [foldsTo] using hc
      cases cr with
      | nil => exact hcr.1 rfl
      | cons d cr =>
        obtain ⟨rfl, -⟩ := List.cons.inj hsplit
        exact (isCredentialChar_ne hmarks (hcr.2 d List.mem_cons_self)).1 hbracket

/-- A pattern that matches as a labelled credential does, and takes all of the credential. -/
structure IsLabelled (p label : Regex) (size : ℕ) (marks : String) : Prop where
  consuming : p.Consuming
  shape : Label label size
  charset : credentialMarks marks = true
  same : ∀ b xs post, p.Matches b xs post ↔ (labelled label marks).Matches b xs post
  stop : ∀ at' before rest, (p.ends at').head? = some ⟨before, rest⟩ →
    rest.head?.any (isCredentialChar marks) = false

variable {p : Regex}

/-- What a match consists of. -/
theorem IsLabelled.split (h : IsLabelled p label size marks) (hmatch : p.Matches b xs post) :
    b.any isWordCharFolded = false ∧ ∃ l sp cr, xs = l ++ (sp ++ cr) ∧ label.Matches none l [] ∧
      (sp ≠ [] ∧ ∀ c ∈ sp, isStrWhiteSpace c = true) ∧
      cr ≠ [] ∧ ∀ c ∈ cr, isCredentialChar marks c = true :=
  (matches_labelled h.shape h.charset).1 ((h.same _ _ _).1 hmatch)

theorem IsLabelled.word (h : IsLabelled p label size marks) (hmatch : p.Matches b xs post) :
    Word xs := by
  obtain ⟨-, l, sp, cr, rfl, hl, hsp, hcr⟩ := h.split hmatch
  obtain ⟨hopening, hclosing⟩ := h.shape.chars _ _ _ hl
  obtain ⟨c, hc, hmark⟩ := h.shape.unmarked _ _ _ hl
  have hwhite : ∀ d, isStrWhiteSpace d = false → d ∉ sp := by
    intro d hd hmem
    rw [hsp.2 d hmem] at hd
    cases hd
  refine ⟨?_, ?_, ⟨c, List.mem_append_left _ hc, hmark⟩, fun hspace => ?_, fun hspace => ?_⟩
  · simp only [List.mem_append, not_or]
    exact ⟨hopening, hwhite _ (by decide),
      fun hmem => (isCredentialChar_ne h.charset (hcr.2 _ hmem)).1 rfl⟩
  · simp only [List.mem_append, not_or]
    exact ⟨hclosing, hwhite _ (by decide),
      fun hmem => (isCredentialChar_ne h.charset (hcr.2 _ hmem)).2.1 rfl⟩
  · have hhead := h.shape.head _ _ _ hl
    rw [List.head?_append_of_ne_nil _ (List.ne_nil_of_mem hc)] at hspace
    rw [hspace] at hhead
    exact absurd hhead (by decide)
  · rw [lastOf_append, lastOf_append] at hspace
    obtain ⟨d, hd, hlast⟩ := lastOf_mem hcr.1 (lastOf (lastOf none l) sp)
    obtain rfl := Option.some.inj (hlast.symm.trans hspace)
    have hblack := (isCredentialChar_ne h.charset (hcr.2 _ hd)).2.2
    exact absurd hblack (by decide)

theorem IsLabelled.local (h : IsLabelled p label size marks) : Local p := by
  refine ⟨fun b xs post => h.word, fun b b' xs post post' hmatch hstart _ => ?_⟩
  obtain ⟨hbefore, l, sp, cr, rfl, hl, hrest⟩ := h.split hmatch
  refine (h.same _ _ _).2 ((matches_labelled h.shape h.charset).2
    ⟨?_, l, sp, cr, rfl, hl, hrest⟩)
  rcases hstart with rfl | hfolded
  · exact hbefore
  · refine hfolded ?_
    have hhead := h.shape.head _ _ _ hl
    cases l with
    | nil => cases hhead
    | cons c l => exact hhead

theorem blackCount_append (xs ys : List Char) :
    blackCount (xs ++ ys) = blackCount xs + blackCount ys := List.countP_append

/-- A match has more to it than its label. -/
theorem IsLabelled.size_lt (h : IsLabelled p label size marks) (hmatch : p.Matches b xs post) :
    size < blackCount xs := by
  obtain ⟨-, l, sp, cr, rfl, hl, -, hcr⟩ := h.split hmatch
  have hblack : 0 < blackCount cr := by
    obtain ⟨c, hc⟩ := List.exists_mem_of_ne_nil cr hcr.1
    exact List.countP_pos_iff.2 ⟨c, hc, by simp [(isCredentialChar_ne h.charset (hcr.2 c hc)).2.2]⟩
  rw [blackCount_append, blackCount_append, h.shape.count _ _ _ hl]
  omega

/-- A label that is kept before a marker is too short for a match. -/
theorem IsLabelled.keep (h : IsLabelled p label size marks) {y text out : List Char}
    (hcount : blackCount y ≤ size)
    (htail : Redacts (Clear p) (lastOf b y) text (' ' :: '[' :: out)) :
    Redacts (Clear p) b (y ++ text) (y ++ ' ' :: '[' :: out) := by
  induction y generalizing b with
  | nil => exact htail
  | cons c y ih =>
    have hle : blackCount y ≤ blackCount (c :: y) := (List.sublist_cons_self c y).countP_le
    refine .keep (fun xs post post' htext hout hmatch => ?_) (ih (by omega) htail)
    have hsplit : (c :: y ++ [' ']) ++ '[' :: out = xs ++ post' := by
      rw [← hout, List.append_assoc]
      rfl
    obtain ⟨t, ht⟩ := prefix_before hsplit (h.word hmatch).opening
    have htotal : blackCount (c :: y) + 0 = blackCount xs + blackCount t := by
      rw [← blackCount_append, ← ht, blackCount_append]
      rfl
    have := h.size_lt hmatch
    omega

/-- White space and a credential go, and a marker comes. -/
theorem IsLabelled.cut (h : IsLabelled p label size marks) {sp cr rest : List Char}
    (hsp : sp ≠ [] ∧ ∀ c ∈ sp, isStrWhiteSpace c = true)
    (hstop : rest.head?.any (isCredentialChar marks) = false) :
    Cut b (sp ++ cr) rest (' ' :: REDACTED_TOKEN) := by
  obtain ⟨c, sp, rfl⟩ := List.exists_cons_of_ne_nil hsp.1
  have hwhite := hsp.2 c List.mem_cons_self
  have hmark : isMarkChar c = false := by
    refine Bool.eq_false_iff.2 fun hmem => ?_
    have hblack : "redacted-email-token".toList.all (fun d => !isStrWhiteSpace d) = true := by
      decide
    have hnot := List.all_eq_true.1 hblack c (of_decide_eq_true hmem)
    rw [hwhite] at hnot
    cases hnot
  have hword : isWordChar c = false := by
    refine Bool.eq_false_iff.2 fun hc => ?_
    rw [(isCredentialChar_ne h.charset (isCredentialChar_of_word h.charset hc)).2.2] at hwhite
    cases hwhite
  have hclosing : ']' ∉ [c] := by
    intro hmem
    rw [← List.mem_singleton.1 hmem] at hwhite
    exact absurd hwhite (by decide)
  refine ⟨List.cons_ne_nil _ _,
    ⟨[' '], "redacted-token".toList, .inr rfl, by decide, List.all_eq_true.1 (by decide)⟩,
    fun _ => hword,
    fun hnext => ?_, fun hbracket => absurd hbracket (by decide), fun hopening => ?_, ?_⟩
  · cases hrest : rest.head? with
    | none =>
      rw [hrest] at hnext
      cases hnext
    | some d =>
      rw [hrest] at hnext hstop
      rw [Option.any_some, isCredentialChar_of_word h.charset hnext] at hstop
      cases hstop
  · obtain rfl := Option.some.inj hopening
    exact absurd hwhite (by decide)
  · exact @inMarker_of_word [c] (sp ++ cr) rest hclosing ⟨c, List.mem_cons_self, hmark⟩

/-- The pass of a labelled pattern: the labels are kept. -/
theorem IsLabelled.redacts (h : IsLabelled p label size marks) (text : List Char) :
    Redacts (Clear p) none text (p.replaceAll redactTokenMatch text) := by
  have hwhole : Rewrites (fun b text _ => p.NoMatch b text)
      (fun b m rest r => p.Matches b m rest ∧ r = redactTokenMatch m ∧
        rest.head?.any (isCredentialChar marks) = false)
      none text (p.replaceAll redactTokenMatch text) := by
    refine Regex.rewrites_replaceFrom h.consuming (fun _ _ => True) (fun _ _ _ _ _ => trivial)
      (fun b m rest _ hmatch hhead => ?_) (Nat.le_refl _) trivial
    exact ⟨(h.word hmatch).ne_nil, ⟨hmatch, rfl, h.stop _ _ _ hhead⟩, trivial⟩
  generalize p.replaceAll redactTokenMatch text = out at hwhole
  generalize (none : Option Char) = b at hwhole
  induction hwhole with
  | nil b => exact .nil b
  | keep hno _ ih => exact .keep (clear_of_noMatch hno) ih
  | @cut b m rest r out hcut _ ih =>
    obtain ⟨hmatch, rfl, hstop⟩ := hcut
    obtain ⟨-, l, sp, cr, rfl, hl, hsp, hcr⟩ := h.split hmatch
    have hout : (l ++ ' ' :: REDACTED_TOKEN) ++ out =
        l ++ ' ' :: '[' :: ("redacted-token]".toList ++ out) := by
      rw [List.append_assoc]
      rfl
    rw [h.shape.kept l sp cr hl hsp.1 hsp.2, List.append_assoc, hout]
    refine h.keep (Nat.le_of_eq (h.shape.count _ _ _ hl)) (.cut (h.cut hsp hstop) ?_)
    rwa [← lastOf_append]

/-! ## The two labels -/

/-- Neither white space nor a bracket. -/
def isLabelChar (c : Char) : Bool := !isStrWhiteSpace c && c != '[' && c != ']'

/-- Every letter of the label is such a character in either case. -/
def isLabelText (text : String) : Bool :=
  text.toList.all fun a => isLabelChar a && isLabelChar a.toUpper

theorem isLabelText_bearer : isLabelText "bearer" = true := by decide +kernel

theorem isLabelText_authorization : isLabelText "authorization:" = true := by decide +kernel

theorem isLabelText_basic : isLabelText "basic" = true := by decide +kernel

theorem isLabelChar_of_foldsTo {a c : Char} (ha : (isLabelChar a && isLabelChar a.toUpper) = true)
    (h : foldsTo a c = true) : isLabelChar c = true := by
  obtain ⟨hlower, hupper⟩ := Bool.and_eq_true_iff.1 ha
  have hsign : c.toNat = 0x17F ∨ c.toNat = 0x212A → isLabelChar c = true := by
    intro hc
    have hwhite : isStrWhiteSpace c = false := by
      refine Bool.eq_false_iff.2 fun hwhite => ?_
      have := white_bounds hwhite
      omega
    have hne : c ≠ '[' ∧ c ≠ ']' := by
      constructor <;> rintro rfl <;> exact absurd hc (by decide)
    simp [isLabelChar, hwhite, hne]
  simp only [foldsTo, Bool.or_eq_true, Bool.and_eq_true, decide_eq_true_eq] at h
  rcases h with ((rfl | rfl) | ⟨-, hc⟩) | ⟨-, hc⟩
  · exact hlower
  · exact hupper
  · exact hsign (.inl hc)
  · exact hsign (.inr hc)

/-- The characters of a label, whatever their case. -/
theorem labelChars (text : String) (htext : isLabelText text = true)
    (h : (anyCase text).Matches b xs post) :
    xs.length = text.toList.length ∧ ∀ c ∈ xs, isLabelChar c = true := by
  rw [matches_anyCase] at h
  rw [isLabelText] at htext
  generalize text.toList = letters at h htext
  induction h with
  | nil => exact ⟨rfl, fun c hc => absurd hc List.not_mem_nil⟩
  | @cons a c as cs hc _ ih =>
    rw [List.all_cons, Bool.and_eq_true] at htext
    obtain ⟨hlength, hall⟩ := ih htext.2
    refine ⟨by simp [hlength], fun d hd => ?_⟩
    rcases List.mem_cons.1 hd with rfl | hd
    · exact isLabelChar_of_foldsTo htext.1 hc
    · exact hall d hd

theorem anyCase_concat (text : String) {start : List Char} {z : Char}
    (htext : text.toList = start ++ [z]) (h : (anyCase text).Matches b xs post) :
    ∃ ys c, xs = ys ++ [c] ∧ foldsTo z c = true := by
  rw [matches_anyCase, htext] at h
  have hlast := List.forall₂_drop start.length h
  rw [List.drop_left] at hlast
  obtain ⟨c, cs, hc, hnil, hdrop⟩ := List.forall₂_cons_left_iff.1 hlast
  obtain rfl := List.forall₂_nil_left_iff.1 hnil
  exact ⟨xs.take start.length, c, by rw [← hdrop, List.take_append_drop], hc⟩

theorem plain_anyCase {text : String} : (anyCase text).Plain := by
  rw [anyCase]
  cases text.toList.reverse with
  | nil => exact plain_literally
  | cons last start => exact plain_chain

theorem blackCount_of_labelChars (h : ∀ c ∈ xs, isLabelChar c = true) :
    blackCount xs = xs.length := by
  rw [blackCount, List.countP_eq_length]
  intro c hc
  have := h c hc
  simp only [isLabelChar, Bool.and_eq_true] at this
  exact this.1.1

theorem blackCount_of_white (h : ∀ c ∈ xs, isStrWhiteSpace c = true) : blackCount xs = 0 := by
  rw [blackCount, List.countP_eq_zero]
  intro c hc
  simp [h c hc]

theorem no_brackets_of_labelChars (h : ∀ c ∈ xs, isLabelChar c = true) : '[' ∉ xs ∧ ']' ∉ xs :=
  ⟨fun hmem => absurd (h _ hmem) (by decide), fun hmem => absurd (h _ hmem) (by decide)⟩

/-- White space is no word character, even when case is folded. -/
theorem not_word_of_white {c : Char} (h : isStrWhiteSpace c = true) :
    isWordCharFolded c = false := by
  have hbounds := white_bounds h
  refine Bool.eq_false_iff.2 fun hword => ?_
  simp only [isWordCharFolded, isWordChar, Bool.or_eq_true, decide_eq_true_eq] at hword
  rcases hword with ((hword | rfl) | hword) | hword
  · obtain ⟨hlow, hhigh⟩ := alphanumeric_bounds hword
    omega
  · exact absurd h (by decide)
  · omega
  · omega

/-- After a letter, white space is a word edge. -/
theorem edge_of_white {ys sp more : List Char} {c : Char} (hc : isWordCharFolded c = true)
    (hsp : sp ≠ [] ∧ ∀ d ∈ sp, isStrWhiteSpace d = true) :
    ((lastOf b (ys ++ [c])).any isWordCharFolded !=
      (sp ++ more).head?.any isWordCharFolded) = true := by
  obtain ⟨d, sp, rfl⟩ := List.exists_cons_of_ne_nil hsp.1
  have hd := not_word_of_white (hsp.2 d List.mem_cons_self)
  simp [hc, hd]

/-- But for two letters, folding case is choosing one of two characters. -/
theorem foldsTo_cases {z c : Char} (hs : z ≠ 's') (hk : z ≠ 'k') (h : foldsTo z c = true) :
    c = z ∨ c = z.toUpper := by
  simpa [foldsTo, hs, hk] using h

/-- Nothing else is matched where the letters are. -/
theorem anyCase_unique (text : String) (htext : isLabelText text = true) {ys more more' : List Char}
    {a a' : Option Char} {rest rest' : List Char} (hxs : (anyCase text).Matches a xs rest)
    (hys : (anyCase text).Matches a' ys rest') (hsplit : xs ++ more = ys ++ more') :
    xs = ys ∧ more = more' :=
  List.append_inj hsplit ((labelChars text htext hxs).1.trans (labelChars text htext hys).1.symm)

theorem label_bearer : Label (anyCase "bearer") 6 where
  plain := plain_anyCase
  consuming := consuming_anyCase
  head _ _ _ h := by
    obtain ⟨c, ys, rfl, hc, -⟩ := anyCase_cons "bearer" bearer_letters h
    rcases foldsTo_cases (by decide) (by decide) hc with rfl | rfl <;> rfl
  chars _ _ _ h := no_brackets_of_labelChars (labelChars "bearer" isLabelText_bearer h).2
  unmarked _ _ _ h := by
    obtain ⟨c, ys, rfl, hc, -⟩ := anyCase_cons "bearer" bearer_letters h
    refine ⟨c, List.mem_cons_self, ?_⟩
    rcases foldsTo_cases (by decide) (by decide) hc with rfl | rfl <;> decide
  count _ _ _ h := by
    obtain ⟨hlength, hall⟩ := labelChars "bearer" isLabelText_bearer h
    rw [blackCount_of_labelChars hall, hlength, bearer_letters]
    rfl
  kept xs sp cr hmatch hne hwhite := by
    obtain ⟨ys, c, hxs, hc⟩ := anyCase_concat "bearer"
      (show "bearer".toList = ['b', 'e', 'a', 'r', 'e'] ++ ['r'] by decide) hmatch
    have hword : isWordCharFolded c = true := by
      rcases foldsTo_cases (by decide) (by decide) hc with rfl | rfl <;> decide
    have hlabel : BEARER_LABEL.execAtStart (xs ++ (sp ++ cr)) = some xs := by
      refine execAtStart_eq_some consuming_bearerLabel rfl ?_ ?_
      · refine ⟨xs, [], (List.append_nil _).symm, plain_anyCase.matches hmatch, rfl, ?_⟩
        rw [hxs]
        exact edge_of_white hword ⟨hne, hwhite⟩
      · rintro _ rest hsplit ⟨zs, _, rfl, hzs, rfl, -⟩
        rw [List.append_nil] at hsplit ⊢
        exact (anyCase_unique "bearer" isLabelText_bearer hmatch hzs hsplit).1.symm
    rw [redactTokenMatch, hlabel]

/-- `Authorization:\s*Basic`. -/
def basicLabel : Regex := .seq (anyCase "authorization:") (.seq (star white) (anyCase "basic"))

theorem basic_letters : "basic".toList = ['b', 'a', 's', 'i', 'c'] := by decide

/-- White space before something else ends where it ends. -/
theorem white_unique {sp sp' more more' : List Char}
    (hsp : ∀ c ∈ sp, isStrWhiteSpace c = true) (hsp' : ∀ c ∈ sp', isStrWhiteSpace c = true)
    (hmore : more.head?.any isStrWhiteSpace = false)
    (hmore' : more'.head?.any isStrWhiteSpace = false) (h : sp ++ more = sp' ++ more') :
    sp = sp' ∧ more = more' := by
  induction sp generalizing sp' with
  | nil =>
    cases sp' with
    | nil => exact ⟨rfl, h⟩
    | cons c sp' =>
      rw [List.nil_append] at h
      rw [h, List.cons_append, List.head?_cons, Option.any_some,
        hsp' c List.mem_cons_self] at hmore
      cases hmore
  | cons c sp ih =>
    cases sp' with
    | nil =>
      rw [List.nil_append] at h
      rw [← h, List.cons_append, List.head?_cons, Option.any_some,
        hsp c List.mem_cons_self] at hmore'
      cases hmore'
    | cons d sp' =>
      obtain ⟨rfl, hrest⟩ := List.cons.inj h
      obtain ⟨rfl, hmores⟩ := ih (fun e he => hsp e (List.mem_cons_of_mem _ he))
        (fun e he => hsp' e (List.mem_cons_of_mem _ he)) hrest
      exact ⟨rfl, hmores⟩

theorem black_of_anyCase (text : String) (htext : isLabelText text = true)
    (h : (anyCase text).Matches b xs post) (hne : xs ≠ []) (more : List Char) : (xs ++ more).head?.any isStrWhiteSpace = false := by
  obtain ⟨c, xs, rfl⟩ := List.exists_cons_of_ne_nil hne
  have hc := (labelChars text htext h).2 c List.mem_cons_self
  simp only [isLabelChar, Bool.and_eq_true, Bool.not_eq_true'] at hc
  exact hc.1.1

theorem black_of_basic (h : (anyCase "basic").Matches b xs post) (more : List Char) :
    (xs ++ more).head?.any isStrWhiteSpace = false := by
  obtain ⟨c, ys, hxs, -⟩ := anyCase_cons "basic" basic_letters h
  exact black_of_anyCase "basic" isLabelText_basic h (hxs ▸ List.cons_ne_nil c ys) more

/-- What the basic label consists of. -/
theorem matches_basicLabel : basicLabel.Matches b xs post ↔ ∃ us ws vs, xs = us ++ (ws ++ vs) ∧
    (anyCase "authorization:").Matches none us [] ∧ (∀ c ∈ ws, isStrWhiteSpace c = true) ∧
      (anyCase "basic").Matches none vs [] := by
  have hlabel : (anyCase "authorization:").Plain := plain_anyCase
  have hscheme : (anyCase "basic").Plain := plain_anyCase
  constructor
  · rintro ⟨us, _, rfl, hus, ws, vs, rfl, hws, hvs⟩
    exact ⟨us, ws, vs, rfl, hlabel.matches hus, matches_star.1 hws, hscheme.matches hvs⟩
  · rintro ⟨us, ws, vs, rfl, hus, hws, hvs⟩
    exact ⟨us, _, rfl, hlabel.matches hus, ws, vs, rfl, matches_star.2 hws, hscheme.matches hvs⟩

/-- Nothing else is matched where a basic label is. -/
theorem basicLabel_unique {ys more more' : List Char} {b' : Option Char} {post' : List Char}
    (hxs : basicLabel.Matches b xs post) (hys : basicLabel.Matches b' ys post')
    (hsplit : xs ++ more = ys ++ more') : xs = ys := by
  obtain ⟨us, ws, vs, rfl, hus, hws, hvs⟩ := matches_basicLabel.1 hxs
  obtain ⟨us', ws', vs', rfl, hus', hws', hvs'⟩ := matches_basicLabel.1 hys
  rw [List.append_assoc, List.append_assoc, List.append_assoc, List.append_assoc] at hsplit
  obtain ⟨hfirst, hrest⟩ :=
    anyCase_unique "authorization:" isLabelText_authorization hus hus' hsplit
  obtain ⟨hspaces, hlasts⟩ :=
    white_unique hws hws' (black_of_basic hvs _) (black_of_basic hvs' _) hrest
  rw [hfirst, hspaces, (anyCase_unique "basic" isLabelText_basic hvs hvs' hlasts).1]

theorem matches_BASIC_LABEL : BASIC_LABEL.Matches b xs post ↔
    basicLabel.Matches b xs post ∧
      ((lastOf b xs).any isWordCharFolded != post.head?.any isWordCharFolded) = true := by
  have hassoc : BASIC_LABEL.Matches b xs post ↔
      (Regex.seq basicLabel (.boundary isWordCharFolded)).Matches b xs post := by
    refine Iff.trans ?_ matches_seq_assoc
    exact matches_seq_congr (fun _ _ _ => matches_seq_assoc) b xs post
  rw [hassoc]
  constructor
  · rintro ⟨ys, _, rfl, hys, rfl, hedge⟩
    rw [List.append_nil]
    exact ⟨hys, hedge⟩
  · rintro ⟨hxs, hedge⟩
    exact ⟨xs, [], (List.append_nil xs).symm, hxs, rfl, hedge⟩

theorem no_bearer_of_authorization {us more : List Char}
    (h : (anyCase "authorization:").Matches b us post) :
    BEARER_LABEL.NoMatch none (us ++ more) := by
  obtain ⟨c, us, rfl, hc, -⟩ := anyCase_cons "authorization:" authorization_letters h
  rintro _ rest hsplit ⟨ys, _, rfl, hys, rfl, -⟩
  obtain ⟨d, ys, rfl, hd, -⟩ := anyCase_cons "bearer" bearer_letters hys
  obtain ⟨rfl, -⟩ := List.cons.inj hsplit
  rcases foldsTo_cases (by decide) (by decide) hc with rfl | rfl
  · exact absurd hd (by decide)
  · exact absurd hd (by decide)

/-- A basic label ends with a letter. -/
theorem edge_of_basicLabel {sp more : List Char} (h : basicLabel.Matches b xs post)
    (hsp : sp ≠ [] ∧ ∀ d ∈ sp, isStrWhiteSpace d = true) :
    ((lastOf b xs).any isWordCharFolded != (sp ++ more).head?.any isWordCharFolded) = true := by
  obtain ⟨us, ws, vs, rfl, -, -, hvs⟩ := matches_basicLabel.1 h
  obtain ⟨ys, c, rfl, hc⟩ := anyCase_concat "basic"
    (show "basic".toList = ['b', 'a', 's', 'i'] ++ ['c'] by decide) hvs
  have hword : isWordCharFolded c = true := by
    rcases foldsTo_cases (by decide) (by decide) hc with rfl | rfl
    · decide
    · decide
  rw [lastOf_append, lastOf_append]
  exact edge_of_white hword hsp

theorem label_basic : Label basicLabel 19 where
  plain := ⟨plain_anyCase, trivial, plain_anyCase⟩
  consuming := ⟨consuming_anyCase, consuming_times_one, consuming_anyCase⟩
  head _ _ _ h := by
    obtain ⟨us, ws, vs, rfl, hus, -⟩ := matches_basicLabel.1 h
    obtain ⟨c, us, rfl, hc, -⟩ := anyCase_cons "authorization:" authorization_letters hus
    rcases foldsTo_cases (by decide) (by decide) hc with rfl | rfl <;> rfl
  chars _ _ _ h := by
    obtain ⟨us, ws, vs, rfl, hus, hws, hvs⟩ := matches_basicLabel.1 h
    obtain ⟨hopen, hclose⟩ := no_brackets_of_labelChars
      (labelChars "authorization:" isLabelText_authorization hus).2
    obtain ⟨hopen', hclose'⟩ := no_brackets_of_labelChars
      (labelChars "basic" isLabelText_basic hvs).2
    have hwhite : ∀ d, isStrWhiteSpace d = false → d ∉ ws := by
      intro d hd hmem
      rw [hws d hmem] at hd
      cases hd
    simp only [List.mem_append, not_or]
    exact ⟨⟨hopen, hwhite _ (by decide), hopen'⟩, hclose, hwhite _ (by decide), hclose'⟩
  unmarked _ _ _ h := by
    obtain ⟨us, ws, vs, rfl, hus, -⟩ := matches_basicLabel.1 h
    obtain ⟨c, us, rfl, -, hrest⟩ := anyCase_cons "authorization:" authorization_letters hus
    obtain ⟨d, us, hd, -, rfl⟩ := List.forall₂_cons_left_iff.1 hrest
    refine ⟨d, by simp, ?_⟩
    rcases foldsTo_cases (by decide) (by decide) hd with rfl | rfl <;> decide
  count _ _ _ h := by
    obtain ⟨us, ws, vs, rfl, hus, hws, hvs⟩ := matches_basicLabel.1 h
    obtain ⟨hlength, hall⟩ := labelChars "authorization:" isLabelText_authorization hus
    obtain ⟨hlength', hall'⟩ := labelChars "basic" isLabelText_basic hvs
    rw [blackCount_append, blackCount_append, blackCount_of_labelChars hall,
      blackCount_of_white hws, blackCount_of_labelChars hall', hlength, hlength',
      authorization_letters, basic_letters]
    rfl
  kept xs sp cr hmatch hne hwhite := by
    have hnoBearer : BEARER_LABEL.NoMatch none (xs ++ (sp ++ cr)) := by
      obtain ⟨us, ws, vs, rfl, hus, -⟩ := matches_basicLabel.1 hmatch
      rw [List.append_assoc]
      exact no_bearer_of_authorization hus
    have hlabel : BASIC_LABEL.execAtStart (xs ++ (sp ++ cr)) = some xs := by
      refine execAtStart_eq_some consuming_basicLabel rfl ?_ fun ys rest hsplit hys => ?_
      · have hplain : basicLabel.Plain := ⟨plain_anyCase, trivial, plain_anyCase⟩
        exact matches_BASIC_LABEL.2
          ⟨hplain.matches hmatch, edge_of_basicLabel hmatch ⟨hne, hwhite⟩⟩
      · exact (basicLabel_unique hmatch (matches_BASIC_LABEL.1 hys).1 hsplit).symm
    rw [redactTokenMatch, execAtStart_eq_none consuming_bearerLabel hnoBearer]
    simp only
    rw [hlabel]

end

end Orchestration.Issues
