import Orchestration.Permissions.CommitLog

/-!
# Sign-offs line by line

The regular expression goes through a message character by character. On a text
that does not end in white space it finds what a reader of its lines finds who,
after a sign-off line without a value, takes the next line that is not blank.
-/

namespace Orchestration.Permissions

open Js (isStrWhiteSpace trim)

/-- The sign-offs found in these lines. After a sign-off line without a value (`pending`), the next
line that is not blank is taken for its value. -/
def carriedSignoffs : Bool → List (List Char) → List (List Char)
  | _, [] => []
  | true, line :: lines =>
    if trim line = [] then carriedSignoffs true lines
    else trim line :: carriedSignoffs false lines
  | false, line :: lines =>
    match afterPattern? SIGNOFF_PREFIX line with
    | none => carriedSignoffs false lines
    | some rest =>
      if trim rest = [] then carriedSignoffs true lines
      else trim rest :: carriedSignoffs false lines

/-- The lines of a text. -/
abbrev linesOf (text : List Char) : List (List Char) := text.splitOnP isLineTerminator

/-- The text does not end in white space. -/
def Trimmed (text : List Char) : Prop := ∀ c, text.getLast? = some c → isStrWhiteSpace c = false

section

variable {text line tail xs ys : List Char} {c : Char} {lines : List (List Char)}

/-! ## Trimming -/

theorem isStrWhiteSpace_of_isLineTerminator (h : isLineTerminator c = true) :
    isStrWhiteSpace c = true := by
  simp only [isLineTerminator, Bool.or_eq_true, decide_eq_true_eq] at h
  rcases h with ((rfl | rfl) | h) | h
  · decide
  · decide
  · simp [isStrWhiteSpace, h]
  · simp [isStrWhiteSpace, h]

theorem trim_eq (text : List Char) : trim text = trimEnd (text.dropWhile isStrWhiteSpace) := rfl

theorem trim_cons_of_space (h : isStrWhiteSpace c = true) : trim (c :: text) = trim text := by
  rw [trim_eq, List.dropWhile_cons_of_pos h, ← trim_eq]

theorem trim_dropWhile (text : List Char) : trim (text.dropWhile isStrWhiteSpace) = trim text := by
  induction text with
  | nil => rfl
  | cons c text ih =>
    cases hc : isStrWhiteSpace c with
    | true => rw [List.dropWhile_cons_of_pos hc, ih, trim_cons_of_space hc]
    | false => rw [List.dropWhile_cons_of_neg (by simp [hc])]

theorem trimEnd_append_of_not_space (h : isStrWhiteSpace c = false) :
    trimEnd (xs ++ c :: ys) = xs ++ c :: trimEnd ys := by
  rw [trimEnd, trimEnd, List.reverse_append, List.reverse_cons, List.append_assoc,
    List.dropWhile_append]
  cases hys : ys.reverse.dropWhile isStrWhiteSpace with
  | nil => simp [h]
  | cons => simp

theorem trim_cons_of_not_space (h : isStrWhiteSpace c = false) :
    trim (c :: text) = c :: trimEnd text := by
  rw [trim_eq, List.dropWhile_cons_of_neg (by simp [h])]
  exact @trimEnd_append_of_not_space [] text c h

theorem trim_eq_nil : trim text = [] ↔ ∀ c ∈ text, isStrWhiteSpace c = true := by
  induction text with
  | nil => simp [trim]
  | cons c text ih =>
    cases hc : isStrWhiteSpace c with
    | true => simp [trim_cons_of_space hc, ih, hc]
    | false => simp [trim_cons_of_not_space hc, hc]

theorem trimmed_trimEnd (text : List Char) : Trimmed (trimEnd text) := by
  intro c hlast
  rw [trimEnd, List.getLast?_reverse] at hlast
  have hhead := List.head?_dropWhile_not isStrWhiteSpace text.reverse
  rw [hlast] at hhead
  simpa using hhead

theorem Trimmed.of_append (h : Trimmed (xs ++ ys)) : Trimmed ys := by
  intro c hc
  refine h c ?_
  rw [List.getLast?_append, hc]
  rfl

theorem Trimmed.of_cons (h : Trimmed (c :: text)) : Trimmed text :=
  @Trimmed.of_append [c] text h

/-! ## Lines -/

theorem linesOf_cons_of_pos (h : isLineTerminator c = true) :
    linesOf (c :: text) = [] :: linesOf text := by
  rw [linesOf, List.splitOnP_cons_eq_if_modifyHead, if_pos h]

theorem linesOf_cons_of_neg (h : isLineTerminator c = false) :
    linesOf (c :: text) = (linesOf text).modifyHead (List.cons c) := by
  rw [linesOf, List.splitOnP_cons_eq_if_modifyHead, if_neg (by simp [h])]

theorem exists_linesOf (text : List Char) : ∃ line lines, linesOf text = line :: lines :=
  List.exists_cons_of_ne_nil (List.splitOnP_ne_nil isLineTerminator text)

/-- A text is its first line and what follows from the terminator on. -/
theorem linesOf_eq (text : List Char) : linesOf text =
    text.takeWhile (!isLineTerminator ·) :: (linesOf (text.dropWhile (!isLineTerminator ·))).tail := by
  induction text with
  | nil => rfl
  | cons c text ih =>
    cases hc : isLineTerminator c with
    | true => simp [hc, linesOf_cons_of_pos hc]
    | false =>
      rw [linesOf_cons_of_neg hc, ih]
      simp [hc]

/-! ## The pattern on a line -/

theorem not_matches_lineTerminator {p : Char} (hp : p ∈ SIGNOFF_PREFIX)
    (h : isLineTerminator c = true) : matchesIgnoringCase p c = false := by
  have hof : ∀ n, c.toNat = n → c = Char.ofNat n := by
    rintro n rfl
    exact (Char.ofNat_toNat c).symm
  have hall : SIGNOFF_PREFIX.all (fun p => !matchesIgnoringCase p c) = true := by
    simp only [isLineTerminator, Bool.or_eq_true, decide_eq_true_eq] at h
    rcases h with ((rfl | rfl) | h) | h
    · decide
    · decide
    · rw [hof _ h]
      decide
    · rw [hof _ h]
      decide
  simpa using List.all_eq_true.1 hall p hp

/-- The prefix is matched within the first line or not at all. -/
theorem afterPattern?_append {pattern : List Char} (hpattern : ∀ p ∈ pattern, p ∈ SIGNOFF_PREFIX)
    (htail : ∀ c, tail.head? = some c → isLineTerminator c = true) :
    afterPattern? pattern (line ++ tail) = (afterPattern? pattern line).map (· ++ tail) := by
  induction pattern generalizing line with
  | nil => simp [afterPattern?]
  | cons p pattern ih =>
    cases line with
    | nil =>
      cases tail with
      | nil => rfl
      | cons c tail =>
        have hno := not_matches_lineTerminator (hpattern p List.mem_cons_self) (htail c rfl)
        simp [afterPattern?, hno]
    | cons c line =>
      rw [List.cons_append, afterPattern?, afterPattern?]
      split
      · exact ih fun p hp => hpattern p (List.mem_cons_of_mem _ hp)
      · rfl

/-! ## Scanning -/

/-- Skipping goes on in the middle of the line that the skipped text ends in. -/
theorem signoffsFrom_append {b : Bool} (hlast : ∀ c, xs.getLast? = some c → isLineTerminator c = false)
    (hne : xs ≠ []) : signoffsFrom xs.length b (xs ++ ys) = signoffsFrom 0 false ys := by
  induction xs generalizing b with
  | nil => exact absurd rfl hne
  | cons c xs ih =>
    rw [List.length_cons, List.cons_append, signoffsFrom]
    cases xs with
    | nil =>
      rw [hlast c rfl]
      rfl
    | cons d xs => exact ih (fun e he => hlast e he) (List.cons_ne_nil d xs)

/-- The pending sign-off takes the first line with more than white space. -/
theorem carriedSignoffs_pending (h : trim text ≠ []) :
    carriedSignoffs true (linesOf text) =
      trim ((text.dropWhile isStrWhiteSpace).takeWhile (!isLineTerminator ·)) ::
        carriedSignoffs false (linesOf ((text.dropWhile isStrWhiteSpace).dropWhile
          (!isLineTerminator ·))).tail := by
  induction text with
  | nil => exact absurd rfl h
  | cons c text ih =>
    cases hspace : isStrWhiteSpace c with
    | true =>
      have hrest : trim text ≠ [] := by rwa [trim_cons_of_space hspace] at h
      have hsame : carriedSignoffs true (linesOf (c :: text)) =
          carriedSignoffs true (linesOf text) := by
        cases hterminator : isLineTerminator c with
        | true =>
          rw [linesOf_cons_of_pos hterminator, carriedSignoffs]
          exact if_pos rfl
        | false =>
          obtain ⟨line, lines, hlines⟩ := exists_linesOf text
          rw [linesOf_cons_of_neg hterminator, hlines, List.modifyHead_cons, carriedSignoffs,
            carriedSignoffs, trim_cons_of_space hspace]
      rw [hsame, ih hrest, List.dropWhile_cons_of_pos hspace]
    | false =>
      have hkeep : (c :: text).dropWhile isStrWhiteSpace = c :: text :=
        List.dropWhile_cons_of_neg (by simp [hspace])
      have hterminator : isLineTerminator c = false := by
        cases hc : isLineTerminator c with
        | false => rfl
        | true => rw [isStrWhiteSpace_of_isLineTerminator hc] at hspace; cases hspace
      have hvalue : trim ((c :: text).takeWhile (!isLineTerminator ·)) ≠ [] := by
        rw [List.takeWhile_cons_of_pos (by simp [hterminator]), trim_cons_of_not_space hspace]
        exact List.cons_ne_nil _ _
      rw [hkeep, linesOf_eq (c :: text), carriedSignoffs, if_neg hvalue]

theorem exists_of_afterPattern? {pattern rest : List Char}
    (h : afterPattern? pattern text = some rest) :
    ∃ matched, text = matched ++ rest ∧ matched.length = pattern.length := by
  induction pattern generalizing text with
  | nil => exact ⟨[], Option.some.inj h, rfl⟩
  | cons p pattern ih =>
    cases text with
    | nil => cases h
    | cons c text =>
      rw [afterPattern?] at h
      split at h
      · obtain ⟨matched, rfl, hlength⟩ := ih h
        exact ⟨c :: matched, rfl, congrArg (· + 1) hlength⟩
      · cases h

/-- After a match the scan goes on in the middle of the line that the match ends in. -/
theorem signoffsFrom_of_match {value : List Char} {b : Bool}
    (h : matchSignoff? (xs ++ ys) = some (value, xs.length)) (hne : xs ≠ [])
    (hlast : ∀ c, xs.getLast? = some c → isLineTerminator c = false) (hb : b = true) :
    signoffsFrom 0 b (xs ++ ys) = trim value :: signoffsFrom 0 false ys := by
  subst hb
  rw [← @signoffsFrom_append xs ys true hlast hne]
  cases xs with
  | nil => exact absurd rfl hne
  | cons c xs =>
    rw [List.cons_append] at h ⊢
    rw [signoffsFrom, if_pos rfl, h]
    rfl

theorem signoffsFrom_of_no_match (h : matchSignoff? (c :: text) = none) :
    signoffsFrom 0 true (c :: text) = signoffsFrom 0 false (c :: text) := by
  rw [signoffsFrom, signoffsFrom, if_pos rfl, h]
  rfl

/-- The white space before a capture and the capture's first character. -/
theorem exists_of_trim_ne_nil (h : trim text ≠ []) : ∃ spaces c rest, text = spaces ++ c :: rest ∧
    (∀ s ∈ spaces, isStrWhiteSpace s = true) ∧ isStrWhiteSpace c = false ∧
    text.dropWhile isStrWhiteSpace = c :: rest := by
  have hsplit := (@List.takeWhile_append_dropWhile _ isStrWhiteSpace text).symm
  cases hdrop : text.dropWhile isStrWhiteSpace with
  | nil =>
    rw [← trim_dropWhile, hdrop] at h
    exact absurd rfl h
  | cons c rest =>
    have hhead := List.head?_dropWhile_not isStrWhiteSpace text
    rw [hdrop] at hhead hsplit
    exact ⟨_, c, rest, hsplit, fun s hs => List.mem_takeWhile_imp hs, by simpa using hhead, rfl⟩

theorem captureSignoff?_append (hspaces : ∀ s ∈ xs, isStrWhiteSpace s = true)
    (hc : isStrWhiteSpace c = false) :
    captureSignoff? (xs ++ c :: ys) = some ((c :: ys).takeWhile (!isLineTerminator ·),
      xs.length + ((c :: ys).takeWhile (!isLineTerminator ·)).length) := by
  have hneg : ¬ isStrWhiteSpace c = true := by simp [hc]
  rw [captureSignoff?, List.takeWhile_append_of_pos hspaces, List.dropWhile_append_of_pos hspaces,
    List.takeWhile_cons_of_neg hneg, List.dropWhile_cons_of_neg hneg, List.append_nil]

theorem isLineTerminator_of_not_space (h : isStrWhiteSpace c = false) :
    isLineTerminator c = false := by
  cases hc : isLineTerminator c with
  | false => rfl
  | true =>
    rw [isStrWhiteSpace_of_isLineTerminator hc] at h
    cases h

/-- A sign-off line with a value on it. -/
theorem matchSignoff?_of_value {matched rest : List Char}
    (hafter : afterPattern? SIGNOFF_PREFIX (matched ++ rest ++ tail) = some (rest ++ tail))
    (hmatched : matched.length = SIGNOFF_PREFIX.length) (hvalue : trim rest ≠ [])
    (hline : ∀ c ∈ rest, isLineTerminator c = false)
    (htail : ∀ c, tail.head? = some c → isLineTerminator c = true) :
    matchSignoff? (matched ++ rest ++ tail) =
      some (rest.dropWhile isStrWhiteSpace, (matched ++ rest).length) := by
  obtain ⟨spaces, c, more, rfl, hspaces, hc, hdrop⟩ := exists_of_trim_ne_nil hvalue
  have hmore : ((c :: more) ++ tail).takeWhile (!isLineTerminator ·) = c :: more := by
    rw [List.takeWhile_append_of_pos]
    · cases tail with
      | nil => simp
      | cons d tail => simp [htail d rfl]
    · intro d hd
      rw [hline d (List.mem_append_right spaces hd)]
      rfl
  have hcapture : captureSignoff? (spaces ++ c :: more ++ tail) =
      some (c :: more, spaces.length + (c :: more).length) := by
    rw [List.append_assoc, List.cons_append, captureSignoff?_append hspaces hc, ← List.cons_append,
      hmore]
  rw [matchSignoff?, hafter, hdrop]
  change (captureSignoff? _).bind _ = _
  rw [hcapture, List.length_append, List.length_append, hmatched]
  rfl

/-- A sign-off line without a value, and a line that is not blank after it. -/
theorem matchSignoff?_of_blank {matched rest spaces more : List Char}
    (hafter : afterPattern? SIGNOFF_PREFIX (matched ++ rest ++ (spaces ++ c :: more)) =
      some (rest ++ (spaces ++ c :: more)))
    (hmatched : matched.length = SIGNOFF_PREFIX.length) (hblank : trim rest = [])
    (hspaces : ∀ s ∈ spaces, isStrWhiteSpace s = true) (hc : isStrWhiteSpace c = false) :
    matchSignoff? (matched ++ rest ++ (spaces ++ c :: more)) =
      some ((c :: more).takeWhile (!isLineTerminator ·),
        (matched ++ rest ++ spaces ++ (c :: more).takeWhile (!isLineTerminator ·)).length) := by
  have hall : ∀ s ∈ rest ++ spaces, isStrWhiteSpace s = true := by
    intro s hs
    cases List.mem_append.1 hs with
    | inl hs => exact trim_eq_nil.1 hblank s hs
    | inr hs => exact hspaces s hs
  rw [matchSignoff?, hafter]
  change (captureSignoff? _).bind _ = _
  rw [← List.append_assoc, captureSignoff?_append hall hc]
  simp only [List.length_append, hmatched, Option.bind_some, Nat.add_assoc]

theorem matchSignoff?_eq_none_of_end {matched : List Char}
    (hafter : afterPattern? SIGNOFF_PREFIX matched = some []) : matchSignoff? matched = none := by
  rw [matchSignoff?, hafter]
  rfl

/-- White space alone does not end a trimmed text. -/
theorem Trimmed.eq_nil (h : Trimmed (xs ++ ys)) (hblank : trim ys = []) : ys = [] := by
  cases hlast : ys.getLast? with
  | none => exact List.getLast?_eq_none_iff.1 hlast
  | some c =>
    have hspace := trim_eq_nil.1 hblank c (List.mem_of_getLast? hlast)
    rw [h.of_append c hlast] at hspace
    cases hspace

/-- What follows the first line begins with a terminator, after which other lines come. -/
theorem carriedSignoffs_tail (htail : ∀ c, tail.head? = some c → isLineTerminator c = true)
    (h : trim tail ≠ []) : carriedSignoffs true (linesOf tail).tail =
      trim ((tail.dropWhile isStrWhiteSpace).takeWhile (!isLineTerminator ·)) ::
        carriedSignoffs false (linesOf ((tail.dropWhile isStrWhiteSpace).dropWhile
          (!isLineTerminator ·))).tail := by
  cases tail with
  | nil => exact absurd rfl h
  | cons c tail =>
    have hc := htail c rfl
    have hspace := isStrWhiteSpace_of_isLineTerminator hc
    rw [trim_cons_of_space hspace] at h
    rw [linesOf_cons_of_pos hc, List.tail_cons, List.dropWhile_cons_of_pos hspace]
    exact carriedSignoffs_pending h

/-- Scanning a text finds what its lines carry. -/
theorem signoffsFrom_eq (n : ℕ) : ∀ text : List Char, text.length ≤ n → Trimmed text →
    signoffsFrom 0 true text = carriedSignoffs false (linesOf text) ∧
      signoffsFrom 0 false text = carriedSignoffs false (linesOf text).tail := by
  induction n with
  | zero =>
    intro text hlength _
    rw [List.length_eq_zero_iff.1 (Nat.le_zero.1 hlength)]
    exact ⟨rfl, rfl⟩
  | succ n ih =>
    intro text hlength htrimmed
    cases text with
    | nil => exact ⟨rfl, rfl⟩
    | cons c text =>
      have hmiddle : signoffsFrom 0 false (c :: text) =
          carriedSignoffs false (linesOf (c :: text)).tail := by
        obtain ⟨hstart, hmid⟩ := ih text (Nat.le_of_succ_le_succ hlength) htrimmed.of_cons
        rw [signoffsFrom]
        cases hc : isLineTerminator c with
        | true =>
          rw [linesOf_cons_of_pos hc]
          exact hstart
        | false =>
          rw [linesOf_cons_of_neg hc, List.tail_modifyHead]
          exact hmid
      refine ⟨?_, hmiddle⟩
      have hlines := linesOf_eq (c :: text)
      have hsplit := (@List.takeWhile_append_dropWhile _ (!isLineTerminator ·) (c :: text)).symm
      have hline : ∀ d ∈ (c :: text).takeWhile (!isLineTerminator ·), isLineTerminator d = false :=
        fun d hd => by simpa using List.mem_takeWhile_imp hd
      have htail : ∀ d, ((c :: text).dropWhile (!isLineTerminator ·)).head? = some d →
          isLineTerminator d = true := by
        intro d hd
        have hhead := List.head?_dropWhile_not (!isLineTerminator ·) (c :: text)
        rw [hd] at hhead
        simpa using hhead
      generalize (c :: text).takeWhile (!isLineTerminator ·) = line at hlines hsplit hline
      generalize (c :: text).dropWhile (!isLineTerminator ·) = tail at hlines hsplit htail
      rw [hlines, List.tail_cons] at hmiddle
      rw [hlines, carriedSignoffs]
      have hafter := @afterPattern?_append line tail SIGNOFF_PREFIX (fun _ hp => hp) htail
      rw [← hsplit] at hafter
      cases hpattern : afterPattern? SIGNOFF_PREFIX line with
      | none =>
        rw [hpattern] at hafter
        have hnone : matchSignoff? (c :: text) = none := by
          rw [matchSignoff?, hafter]
          rfl
        rw [signoffsFrom_of_no_match hnone]
        exact hmiddle
      | some rest =>
        rw [hpattern] at hafter
        obtain ⟨matched, rfl, hmatched⟩ := exists_of_afterPattern? hpattern
        have hmatchedNe : matched ≠ [] := by
          intro hnil
          rw [hnil] at hmatched
          cases hmatched
        rw [Option.map_some, hsplit] at hafter
        rw [hsplit] at hlength htrimmed hmiddle ⊢
        dsimp only
        by_cases hblank : trim rest = []
        · rw [if_pos hblank]
          by_cases hend : trim tail = []
          · obtain rfl := htrimmed.eq_nil hend
            rw [List.append_nil] at hafter htrimmed hmiddle ⊢
            obtain rfl := htrimmed.eq_nil hblank
            rw [List.append_nil] at hafter hmiddle ⊢
            obtain ⟨d, matched, rfl⟩ := List.exists_cons_of_ne_nil hmatchedNe
            rw [signoffsFrom_of_no_match (matchSignoff?_eq_none_of_end hafter), hmiddle]
            rfl
          · rw [carriedSignoffs_tail htail hend]
            obtain ⟨spaces, d, more, rfl, hspaces, hd, hdrop⟩ := exists_of_trim_ne_nil hend
            rw [hdrop]
            have hmatch := matchSignoff?_of_blank hafter hmatched hblank hspaces hd
            have hvalue : (d :: more).takeWhile (!isLineTerminator ·) ≠ [] := by
              rw [List.takeWhile_cons_of_pos (by simp [isLineTerminator_of_not_space hd])]
              exact List.cons_ne_nil _ _
            have htext : matched ++ rest ++ (spaces ++ d :: more) =
                matched ++ rest ++ spaces ++ (d :: more).takeWhile (!isLineTerminator ·) ++
                  (d :: more).dropWhile (!isLineTerminator ·) := by
              rw [List.append_assoc _ (List.takeWhile _ _), List.takeWhile_append_dropWhile,
                ← List.append_assoc]
            rw [htext] at hmatch hlength htrimmed ⊢
            rw [signoffsFrom_of_match hmatch (List.append_ne_nil_of_right_ne_nil _ hvalue) ?_ rfl]
            · congr 1
              refine (ih _ ?_ htrimmed.of_append).2
              have hpos := List.length_pos_of_ne_nil hmatchedNe
              simp only [List.length_append] at hlength
              omega
            · intro e he
              rw [List.getLast?_append_of_ne_nil _ hvalue] at he
              simpa using List.mem_takeWhile_imp (List.mem_of_getLast? he)
        · rw [if_neg hblank, signoffsFrom_of_match (matchSignoff?_of_value hafter hmatched hblank
            (fun d hd => hline d (List.mem_append_right _ hd)) htail)
            (List.append_ne_nil_of_left_ne_nil hmatchedNe rest)
            (fun d hd => hline d (List.mem_of_getLast? hd)) rfl, trim_dropWhile]
          congr 1
          refine (ih tail ?_ htrimmed.of_append).2
          have hpos := List.length_pos_of_ne_nil hmatchedNe
          rw [List.length_append, List.length_append] at hlength
          omega

/-- On a text that does not end in white space, the regular expression finds what its lines carry. -/
theorem parseSignoffs_eq (h : Trimmed text) :
    parseSignoffs text = carriedSignoffs false (linesOf text) :=
  (signoffsFrom_eq text.length text (Nat.le_refl _) h).1

end

end Orchestration.Permissions
