import Orchestration.Js.Number
import Orchestration.Plans.Events

/-!
# The criterion validator

A criterion is acceptable when a command is wired that proves it and its text is not one of a
few phrases that say nothing.
-/

namespace Orchestration.Plans

/-- A criterion that failed validation. -/
structure CriterionViolation where
  index : ℕ
  text : String
  reason : String
deriving DecidableEq, Repr

def VACUOUS_PHRASES : List String := ["works", "is clean", "looks good", "well"]

/-- The subjects a vacuous phrase may hide behind. -/
def GENERIC_SUBJECT_PREFIXES : List String :=
  ["it", "this", "that", "the build", "the code", "the test", "the tests", "the feature",
    "the app", "everything"]

/-- The qualifiers a vacuous phrase may trail with. -/
def GENERIC_QUALIFIERS : List String :=
  ["well", "fine", "correctly", "properly", "as expected", "now", "ok", "okay"]

/-! ## Normal texts -/

/-- The lower-case form of a character, as far as it has ASCII letters in it. A letter outside
ASCII whose lower-case form is outside ASCII too keeps its case: only ASCII phrases are looked
for in the result. -/
def lowerCase (c : Char) : List Char :=
  -- the dotted capital I, and the Kelvin sign
  if c.toNat = 0x130 then ['i', Char.ofNat 0x307]
  else if c.toNat = 0x212A then ['k']
  else [c.toLower]

/-- `text.replace(/\s+/g, ' ')`. -/
def collapseSpaces (cs : List Char) : List Char :=
  cs.foldr
    (fun c rest =>
      if Js.isStrWhiteSpace c then if rest.head? = some ' ' then rest else ' ' :: rest
      else c :: rest)
    []

/-- `text.replace(/[.!?;:,\s]+$/u, '')`. -/
def stripTrailing (cs : List Char) : List Char :=
  (cs.reverse.dropWhile fun c => c ∈ ['.', '!', '?', ';', ':', ','] || Js.isStrWhiteSpace c).reverse

def normalize (text : String) : String :=
  let lowered := (Js.trim text.toList).flatMap lowerCase
  String.ofList (Js.trim (stripTrailing (collapseSpaces lowered)))

/-- What stands before `tail` in `text`, when `text` ends with it. -/
def beforeSuffix? (tail text : String) : Option String :=
  if tail.toList.isSuffixOf text.toList then
    some (String.ofList (text.toList.take (text.toList.length - tail.toList.length)))
  else none

/-- Whether the text is a vacuous phrase, up to one generic subject and one generic qualifier. -/
def isVacuousText (text : String) : Bool :=
  let norm := normalize text
  if norm = "" then false
  else
    let candidates := norm ::
      GENERIC_SUBJECT_PREFIXES.filterMap fun subject => afterPrefix? (subject ++ " ") norm
    let stripped := candidates.flatMap fun candidate =>
      GENERIC_QUALIFIERS.filterMap fun qualifier =>
        if candidate ≠ qualifier then beforeSuffix? (" " ++ qualifier) candidate else none
    (candidates ++ stripped).any VACUOUS_PHRASES.contains

/-! ## The validator -/

/-- A command is wired that is not blank. -/
def Criterion.wired (criterion : Criterion) : Bool :=
  criterion.verify.any fun verify => Js.trimString verify ≠ ""

/-- What is wrong with one criterion, if anything is. -/
def criterionViolation (index : ℕ) (criterion : Criterion) : Option CriterionViolation :=
  if !criterion.wired then
    some { index, text := criterion.text, reason := "no wired verification command" }
  else if isVacuousText criterion.text then
    some { index, text := criterion.text, reason := "vacuous acceptance text" }
  else none

def validateCriteria (criteria : List Criterion) : List CriterionViolation :=
  if criteria = [] then
    [{ index := 0
       text := "<criteria>"
       reason := "at least one acceptance criterion is required" }]
  else (criteria.mapIdx criterionViolation).filterMap id

/-! ## What is accepted -/

/-- The text says nothing: a vacuous phrase, after a generic subject or none and before a generic
qualifier or none. -/
def Vacuous (text : String) : Prop :=
  ∃ subject ∈ "" :: GENERIC_SUBJECT_PREFIXES.map (· ++ " "), ∃ phrase ∈ VACUOUS_PHRASES,
    ∃ qualifier ∈ "" :: GENERIC_QUALIFIERS.map (" " ++ ·),
      normalize text = subject ++ phrase ++ qualifier

/-- There are criteria, and each of them has a command and says something. -/
def Checkable (criteria : List Criterion) : Prop :=
  criteria ≠ [] ∧ ∀ criterion ∈ criteria, criterion.wired = true ∧ ¬ Vacuous criterion.text

theorem beforeSuffix?_eq_some {tail text head : String} :
    beforeSuffix? tail text = some head ↔ text = head ++ tail := by
  rw [beforeSuffix?]
  constructor
  · intro h
    split at h
    · next hsuffix =>
      obtain ⟨before, hbefore⟩ := List.isSuffixOf_iff_suffix.1 hsuffix
      cases h
      apply String.ext
      rw [String.toList_append, String.toList_ofList, ← hbefore]
      simp
    · cases h
  · rintro rfl
    rw [if_pos]
    · simp
    · rw [List.isSuffixOf_iff_suffix, String.toList_append]
      exact List.suffix_append _ _

theorem afterPrefix?_eq_some {head text tail : String} :
    afterPrefix? head text = some tail ↔ text = head ++ tail :=
  ⟨eq_append_of_afterPrefix?, fun h => h ▸ afterPrefix?_append head tail⟩

theorem mem_VACUOUS_PHRASES_ne {phrase : String} (h : phrase ∈ VACUOUS_PHRASES) : phrase ≠ "" := by
  rintro rfl
  revert h
  decide

/-- The candidates without a subject: the text itself, and what follows a generic subject. -/
theorem mem_candidates {norm candidate : String} :
    (candidate ∈ norm ::
      GENERIC_SUBJECT_PREFIXES.filterMap fun subject => afterPrefix? (subject ++ " ") norm) ↔
      ∃ subject ∈ "" :: GENERIC_SUBJECT_PREFIXES.map (· ++ " "), norm = subject ++ candidate := by
  rw [List.mem_cons, List.mem_filterMap, List.exists_mem_cons_iff, String.empty_append]
  refine or_congr eq_comm ?_
  simp only [List.mem_map, afterPrefix?_eq_some]
  constructor
  · rintro ⟨subject, hsubject, rfl⟩
    exact ⟨_, ⟨subject, hsubject, rfl⟩, rfl⟩
  · rintro ⟨_, ⟨subject, hsubject, rfl⟩, rfl⟩
    exact ⟨subject, hsubject, rfl⟩

/-- A candidate without a qualifier is what stands before a generic one. -/
theorem mem_stripped {base candidate : String} :
    (candidate ∈ GENERIC_QUALIFIERS.filterMap fun qualifier =>
        if base ≠ qualifier then beforeSuffix? (" " ++ qualifier) base else none) ↔
      ∃ qualifier ∈ GENERIC_QUALIFIERS.map (" " ++ ·), base = candidate ++ qualifier := by
  simp only [List.mem_filterMap, List.mem_map]
  constructor
  · rintro ⟨qualifier, hqualifier, h⟩
    split at h
    · exact ⟨_, ⟨qualifier, hqualifier, rfl⟩, beforeSuffix?_eq_some.1 h⟩
    · cases h
  · rintro ⟨_, ⟨qualifier, hqualifier, rfl⟩, rfl⟩
    refine ⟨qualifier, hqualifier, ?_⟩
    -- a text that ends with a blank and the qualifier is longer than the qualifier
    have hne : candidate ++ (" " ++ qualifier) ≠ qualifier := by
      intro h
      have hlength := congrArg (fun text => text.toList.length) h
      simp only [String.toList_append, List.length_append] at hlength
      have hblank : " ".toList.length = 1 := rfl
      omega
    rw [if_pos hne]
    exact beforeSuffix?_eq_some.2 rfl

theorem isVacuousText_iff {text : String} : isVacuousText text = true ↔ Vacuous text := by
  have hcontains : ∀ candidate, VACUOUS_PHRASES.contains candidate = true ↔
      candidate ∈ VACUOUS_PHRASES := fun candidate => List.contains_iff_mem
  rw [isVacuousText]
  by_cases hempty : normalize text = ""
  · simp only [hempty, if_true, Bool.false_eq_true, false_iff]
    rintro ⟨subject, -, phrase, hphrase, qualifier, -, h⟩
    rw [hempty, eq_comm, String.append_eq_empty_iff, String.append_eq_empty_iff] at h
    exact mem_VACUOUS_PHRASES_ne hphrase h.1.2
  · simp only [if_neg hempty, List.any_eq_true, hcontains, List.mem_append, List.mem_flatMap]
    constructor
    · rintro ⟨phrase, hcandidate | ⟨base, hbase, hstripped⟩, hphrase⟩
      · obtain ⟨subject, hsubject, h⟩ := mem_candidates.1 hcandidate
        exact ⟨subject, hsubject, phrase, hphrase, "", List.mem_cons_self, by
          rw [h, String.append_empty]⟩
      · obtain ⟨subject, hsubject, h⟩ := mem_candidates.1 hbase
        obtain ⟨qualifier, hqualifier, hbase⟩ := mem_stripped.1 hstripped
        exact ⟨subject, hsubject, phrase, hphrase, qualifier, List.mem_cons_of_mem _ hqualifier, by
          rw [h, hbase, String.append_assoc]⟩
    · rintro ⟨subject, hsubject, phrase, hphrase, qualifier, hqualifier, h⟩
      rw [String.append_assoc] at h
      have hbase := mem_candidates.2 ⟨subject, hsubject, h⟩
      refine ⟨phrase, ?_, hphrase⟩
      rcases List.mem_cons.1 hqualifier with rfl | hqualifier
      · rw [String.append_empty] at hbase
        exact .inl hbase
      · exact .inr ⟨_, hbase, mem_stripped.2 ⟨qualifier, hqualifier, rfl⟩⟩

theorem validateCriteria_eq_nil {criteria : List Criterion} :
    validateCriteria criteria = [] ↔ Checkable criteria := by
  rw [validateCriteria, Checkable]
  by_cases hempty : criteria = []
  · simp [hempty]
  · rw [if_neg hempty, List.filterMap_eq_nil_iff, and_iff_right hempty]
    have hone : ∀ index criterion, criterionViolation index criterion = none ↔
        criterion.wired = true ∧ ¬ Vacuous criterion.text := by
      intro index criterion
      rw [criterionViolation, ← isVacuousText_iff]
      cases criterion.wired <;> cases isVacuousText criterion.text <;> simp
    constructor
    · intro h criterion hcriterion
      obtain ⟨index, hindex, rfl⟩ := List.getElem_of_mem hcriterion
      refine (hone index _).1 (h _ ?_)
      exact List.mem_mapIdx.2 ⟨index, hindex, rfl⟩
    · intro h violation hviolation
      obtain ⟨index, hindex, rfl⟩ := List.mem_mapIdx.1 hviolation
      exact (hone index _).2 (h _ (List.getElem_mem hindex))

end Orchestration.Plans
