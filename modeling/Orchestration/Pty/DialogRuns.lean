import Orchestration.Pty.Screens

/-!
# The dialogs of a pane

Wherever the output is cut into chunks, the watcher keeps what the screen that is up has shown, or
knows that its dialog is answered. So a screen whose dialog came to stand within the buffer is
answered once.
-/

namespace Orchestration.Pty

open Dispatch (Provider)
open Js (isStrWhiteSpace trim)

/-! ## Watching -/

/-- The watcher after the chunks, and what it wrote to the pane. -/
def watched (provider : Option Provider) (chunks : List Text) : DialogWatcher × List Text :=
  chunks.foldl
    (fun s chunk => ((s.1.onData chunk).1, s.2 ++ (s.1.onData chunk).2.toList))
    (watchDialogs provider, [])

theorem watched_concat (provider : Option Provider) (chunks : List Text) (chunk : Text) :
    watched provider (chunks ++ [chunk]) =
      (((watched provider chunks).1.onData chunk).1,
        (watched provider chunks).2 ++ ((watched provider chunks).1.onData chunk).2.toList) := by
  rw [watched, List.foldl_append]
  rfl

/-- What the screens are to be answered with. -/
def answers (provider : Option Provider) (screens : List Text) : List Text :=
  screens.filterMap fun screen => (shownDialog provider screen).map DialogSig.answer

/-! ## What the watcher knows -/

/-- The screen that is up has shown `shown`, after the screens that are over. -/
structure Watching (provider : Option Provider) (chunks screens : List Text) (shown : Text)
    (s : DialogWatcher × List Text) : Prop where
  provider_eq : s.1.provider = provider
  isTail : IsTail s.1.resetScanTail chunks.flatten
  /-- No dialog is answered: the buffer is the end of what is shown, and it never read as one. -/
  idle : s.1.activeDialog = none →
    s.1.buffer = sliceLast MAX_DIALOG_BUFFER_CHARS shown ∧ s.2 = answers provider screens ∧
      ∀ earlier part, earlier <+: chunks → earlier.flatten = screens.flatten ++ part →
        reads provider (sliceLast MAX_DIALOG_BUFFER_CHARS part) = none
  /-- The dialog that is shown is answered. -/
  active : ∀ sig, s.1.activeDialog = some sig →
    Shows provider shown sig ∧ s.2 = answers provider screens ++ [sig.answer] ∧ s.1.buffer = []

variable {provider : Option Provider} {chunks screens : List Text} {shown chunk : Text}

theorem watching_nil : Watching provider [] [] [] (watchDialogs provider, []) where
  provider_eq := rfl
  isTail := ⟨List.suffix_refl _, Nat.zero_le _, fun last hlast _ => hlast⟩
  idle _ := by
    refine ⟨rfl, rfl, fun earlier part hearlier hflat => ?_⟩
    obtain rfl := List.prefix_nil.1 hearlier
    obtain rfl : [] = part := hflat
    exact reads_short (Nat.zero_le _)
  active sig h := by cases h

/-- A watcher that has not answered the screen that is up looks at what it shows by now. -/
theorem watching_of_idle {w : DialogWatcher} {written : List Text}
    (hflat : (chunks ++ [chunk]).flatten = screens.flatten ++ shown)
    (hprovider : w.provider = provider)
    (htail : IsTail (w.receive chunk).resetScanTail (chunks ++ [chunk]).flatten)
    (hactive : (w.receive chunk).activeDialog = none)
    (hbuffer : (w.receive chunk).buffer = sliceLast MAX_DIALOG_BUFFER_CHARS shown)
    (hwritten : written = answers provider screens)
    (hearlier : ∀ earlier part, earlier <+: chunks → earlier.flatten = screens.flatten ++ part →
      reads provider (sliceLast MAX_DIALOG_BUFFER_CHARS part) = none) :
    Watching provider (chunks ++ [chunk]) screens shown
      ((w.onData chunk).1, written ++ (w.onData chunk).2.toList) := by
  have hkept : (w.receive chunk).provider = provider := by
    rw [← hprovider, DialogWatcher.receive]
    split <;> rfl
  have hmatch : (w.receive chunk).match? =
      reads provider (sliceLast MAX_DIALOG_BUFFER_CHARS shown) := by
    rw [DialogWatcher.match?, hkept, hbuffer, reads]
  cases hreads : reads provider (sliceLast MAX_DIALOG_BUFFER_CHARS shown) with
  | none =>
    have hdata : w.onData chunk = (w.receive chunk, none) := by
      rw [DialogWatcher.onData]
      simp only [hmatch, hreads, hactive]
      rfl
    rw [hdata]
    refine ⟨hkept, htail, fun _ => ⟨hbuffer, by simpa using hwritten, ?_⟩, fun sig hsig => ?_⟩
    · intro earlier part hprefix hpart
      obtain rfl | hprefix := List.prefix_concat_iff.1 hprefix
      · rw [hflat, List.append_cancel_left_eq] at hpart
        rw [← hpart]
        exact hreads
      · exact hearlier earlier part hprefix hpart
    · rw [hactive] at hsig
      cases hsig
  | some found =>
    have hdata : w.onData chunk = ({ w.receive chunk with
        buffer := [], activeDialog := some found }, some found.answer) := by
      rw [DialogWatcher.onData]
      simp only [hmatch, hreads, hactive]
      rfl
    rw [hdata]
    refine ⟨hkept, htail, fun hnone => ?_, fun sig hsig => ?_⟩
    · cases hnone
    · obtain rfl : found = sig := Option.some.inj hsig
      refine ⟨⟨_, (sliceLast_suffix _ shown).isInfix, hreads⟩, ?_, rfl⟩
      rw [hwritten]
      rfl

/-- The screen shows one dialog at most. -/
def OneDialog (provider : Option Provider) (screen : Text) : Prop :=
  ∀ sig sig', Shows provider screen sig → Shows provider screen sig' → sig = sig'

theorem receive_resetScanTail (w : DialogWatcher) (chunk : Text) :
    (w.receive chunk).resetScanTail =
      sliceLast SCREEN_RESET_TAIL_CHARS (w.resetScanTail ++ chunk) := by
  rw [DialogWatcher.receive]
  split <;> rfl

theorem two_le_utf16Length {reset : Text} (hreset : reset ∈ SCREEN_RESET_PATTERNS) :
    2 ≤ utf16Length reset := by
  revert reset
  decide

/-- Within a screen the watcher may see the reset before it again, while next to nothing is
shown. -/
theorem shown_of_reset_again {tail suffix : Text} (htail : IsTail tail chunks.flatten)
    (hflat : chunks.flatten = screens.flatten ++ shown) (hended : ∀ screen ∈ screens, Ended screen)
    (hfree : ResetFree (shown ++ chunk))
    (h : suffixAfterLastScreenReset (tail ++ chunk) = some suffix) :
    suffix = shown ++ chunk ∧ shown.length ≤ 1 := by
  obtain ⟨before, htext⟩ := htail.suffix
  have hall : suffixAfterLastScreenReset (screens.flatten ++ (shown ++ chunk)) = some suffix := by
    rw [← List.append_assoc, ← hflat, ← htext, List.append_assoc]
    exact suffixAfterLast_append before h
  have hne : screens ≠ [] := by
    rintro rfl
    rw [List.flatten_nil, List.nil_append, hfree] at hall
    cases hall
  rw [suffixAfterLast_screens hended hne hfree] at hall
  obtain rfl := Option.some.inj hall
  refine ⟨rfl, ?_⟩
  obtain ⟨start, reset, hreset, heq⟩ := suffixAfterLast_eq_some h
  rw [← List.append_assoc, List.append_cancel_right_eq] at heq
  have hshort := htail.short
  rw [heq, utf16Length_append, utf16Length_append, SCREEN_RESET_TAIL_CHARS] at hshort
  have htwo := two_le_utf16Length hreset
  have hlength := length_le_utf16Length shown
  omega

/-- The dialog that is answered is not answered again. -/
theorem onData_of_active {w : DialogWatcher} {sig : DialogSig}
    (hactive : (w.receive chunk).activeDialog = some sig)
    (hsame : ∀ found, (w.receive chunk).match? = some found → found = sig) :
    w.onData chunk = ({ w.receive chunk with buffer := [] }, none) := by
  rw [DialogWatcher.onData]
  cases hmatch : (w.receive chunk).match? with
  | none => simp only [hactive, Option.isSome_some, if_true]
  | some found =>
    obtain rfl := hsame found hmatch
    simp only [hactive, if_true]

/-- A chunk that brings no reset to its end. -/
theorem Watching.within {s : DialogWatcher × List Text}
    (h : Watching provider chunks screens shown s)
    (hflat : chunks.flatten = screens.flatten ++ shown) (hended : ∀ screen ∈ screens, Ended screen)
    (hfree : ResetFree (shown ++ chunk)) (hone : OneDialog provider (shown ++ chunk)) :
    Watching provider (chunks ++ [chunk]) screens (shown ++ chunk)
      ((s.1.onData chunk).1, s.2 ++ (s.1.onData chunk).2.toList) := by
  have hall : (chunks ++ [chunk]).flatten = screens.flatten ++ (shown ++ chunk) := by
    rw [List.flatten_concat, hflat, List.append_assoc]
  have htail : IsTail (s.1.receive chunk).resetScanTail (chunks ++ [chunk]).flatten := by
    rw [receive_resetScanTail, List.flatten_concat]
    exact h.isTail.append chunk
  cases hactive : s.1.activeDialog with
  | none =>
    obtain ⟨hbuffer, hwritten, hearlier⟩ := h.idle hactive
    refine watching_of_idle hall h.provider_eq htail ?_ ?_ hwritten hearlier
    · rw [DialogWatcher.receive]
      split
      · rfl
      · exact hactive
    · rw [DialogWatcher.receive]
      split
      · rename_i suffix hsuffix
        obtain ⟨rfl, -⟩ := shown_of_reset_again h.isTail hflat hended hfree hsuffix
        rfl
      · change sliceLast _ (s.1.buffer ++ chunk) = _
        rw [hbuffer, sliceLast_append]
  | some sig =>
    obtain ⟨hshows, hwritten, hbuffer⟩ := h.active sig hactive
    have hreset : suffixAfterLastScreenReset (s.1.resetScanTail ++ chunk) = none := by
      cases hsuffix : suffixAfterLastScreenReset (s.1.resetScanTail ++ chunk) with
      | none => rfl
      | some suffix =>
        obtain ⟨-, hshort⟩ := shown_of_reset_again h.isTail hflat hended hfree hsuffix
        obtain ⟨part, hpart, hreads⟩ := hshows
        rw [reads_short (hpart.length_le.trans hshort)] at hreads
        cases hreads
    have hmatch : (s.1.receive chunk).match? =
        reads provider (sliceLast MAX_DIALOG_BUFFER_CHARS chunk) := by
      rw [DialogWatcher.match?, reads, DialogWatcher.receive, hreset, h.provider_eq, hbuffer]
      rfl
    have hpart : sliceLast MAX_DIALOG_BUFFER_CHARS chunk <:+: shown ++ chunk :=
      ((sliceLast_suffix _ chunk).trans (List.suffix_append _ _)).isInfix
    have hshows' : Shows provider (shown ++ chunk) sig :=
      hshows.mono (List.prefix_append _ _).isInfix
    rw [onData_of_active (by rw [DialogWatcher.receive, hreset]; exact hactive) fun found hfound =>
      hone found sig ⟨_, hpart, hmatch.symm.trans hfound⟩ hshows']
    refine ⟨?_, htail, fun hnone => ?_, fun sig' hsig' => ?_⟩
    · rw [DialogWatcher.receive, hreset]
      exact h.provider_eq
    · rw [DialogWatcher.receive, hreset] at hnone
      exact absurd (hactive.symm.trans hnone) (Option.some_ne_none sig)
    · rw [DialogWatcher.receive, hreset] at hsig'
      obtain rfl : sig = sig' := Option.some.inj (hactive.symm.trans hsig')
      exact ⟨hshows', by simpa using hwritten, rfl⟩

/-- The reset that ends a screen is within the reach of the watcher, however it is cut. -/
theorem reset_reaches {tail ended rest text : Text} (htail : IsTail tail text)
    (hshown : shown <:+ text) (hended : Ended ended) (hscreen : ended = shown ++ rest)
    (hrest : rest ≠ []) :
    ∃ before, ∃ reset ∈ SCREEN_RESET_PATTERNS, tail ++ rest = before ++ reset := by
  obtain ⟨whole, reset, hreset, heq, -⟩ := hended
  rw [hscreen] at heq
  obtain ⟨start, rfl, rfl⟩ | ⟨start, rfl, rfl⟩ := List.append_eq_append_iff.1 heq
  · exact ⟨tail ++ start, reset, hreset, by rw [List.append_assoc]⟩
  · -- the reset is cut: it starts in what was shown before
    have hfour : utf16Length (start ++ rest) ≤ 4 := by
      generalize start ++ rest = reset at hreset
      revert reset
      decide
    have hpos := List.length_pos_iff.2 hrest
    have hlength := length_le_utf16Length rest
    rw [utf16Length_append] at hfour
    obtain ⟨before, hbefore⟩ := htail.reach start ((List.suffix_append _ _).trans hshown)
      (by rw [SCREEN_RESET_TAIL_CHARS]; omega)
    exact ⟨before, start ++ rest, hreset, by rw [← hbefore, List.append_assoc]⟩

/-- A chunk that brings the reset that ends the screen, and maybe others behind it. -/
theorem Watching.reset {before after : List Text} {last ended rest : Text}
    {s : DialogWatcher × List Text} (h : Watching provider chunks before shown s)
    (hflat : chunks.flatten = before.flatten ++ shown) (hscreen : ended = shown ++ rest)
    (hrest : rest ≠ []) (hchunk : chunk = rest ++ after.flatten ++ last)
    (hended : ∀ screen ∈ before ++ ended :: after, Ended screen) (hfree : ResetFree last)
    (hwritten : s.2 = answers provider (before ++ ended :: after)) :
    Watching provider (chunks ++ [chunk]) (before ++ ended :: after) last
      ((s.1.onData chunk).1, s.2 ++ (s.1.onData chunk).2.toList) := by
  have hall : (chunks ++ [chunk]).flatten = (before ++ ended :: after).flatten ++ last := by
    rw [List.flatten_concat, hflat, hchunk, hscreen]
    simp
  have htail : IsTail (s.1.receive chunk).resetScanTail (chunks ++ [chunk]).flatten := by
    rw [receive_resetScanTail, List.flatten_concat]
    exact h.isTail.append chunk
  have hsuffix : suffixAfterLastScreenReset (s.1.resetScanTail ++ chunk) = some last := by
    obtain ⟨before', reset, hreset, heq⟩ :=
      reset_reaches h.isTail ⟨_, hflat.symm⟩ (hended ended (by simp)) hscreen hrest
    have hbehind : ∀ screen ∈ reset :: after, Ended screen := by
      intro screen hmem
      obtain rfl | hmem := List.mem_cons.1 hmem
      · exact ⟨[], screen, hreset, rfl, rfl⟩
      · exact hended screen (by simp [hmem])
    have hlast := suffixAfterLast_screens hbehind (List.cons_ne_nil _ _) hfree
    rw [hchunk, ← List.append_assoc, ← List.append_assoc, heq, List.append_assoc,
      List.append_assoc]
    rw [List.flatten_cons, List.append_assoc] at hlast
    exact suffixAfterLast_append before' hlast
  refine watching_of_idle hall h.provider_eq htail ?_ ?_ hwritten ?_
  · rw [DialogWatcher.receive, hsuffix]
  · rw [DialogWatcher.receive, hsuffix]
  · intro earlier part hearlier hpart
    have hle : earlier.flatten.length ≤ chunks.flatten.length :=
      hearlier.flatten.length_le
    have hlength := congrArg List.length hpart
    have hlength' := congrArg List.length hflat
    have hpos := List.length_pos_iff.2 hrest
    simp only [hscreen, List.flatten_append, List.flatten_cons, List.length_append] at hlength hlength'
    omega

theorem OneDialog.left {more : Text} (h : OneDialog provider (shown ++ more)) :
    OneDialog provider shown := fun sig sig' hshows hshows' =>
  h sig sig' (hshows.mono (List.prefix_append _ _).isInfix)
    (hshows'.mono (List.prefix_append _ _).isInfix)

/-! ## Streams -/

/-- Where the output is cut when the last chunk comes. -/
theorem cut_of_flatten {text chunk last : Text} {screens : List Text}
    (h : text ++ chunk = screens.flatten ++ last) :
    (∃ shown, text = screens.flatten ++ shown ∧ last = shown ++ chunk) ∨
      ∃ before ended after shown rest, screens = before ++ ended :: after ∧
        text = before.flatten ++ shown ∧ ended = shown ++ rest ∧ rest ≠ [] ∧
        chunk = rest ++ after.flatten ++ last := by
  induction screens generalizing text with
  | nil => exact .inl ⟨text, rfl, h.symm⟩
  | cons screen screens ih =>
    rw [List.flatten_cons, List.append_assoc] at h
    obtain ⟨rest, hscreen, hchunk⟩ | ⟨text', htext, hrest⟩ := List.append_eq_append_iff.1 h
    · by_cases hnil : rest = []
      · obtain ⟨shown, htext, hlast⟩ | ⟨before, ended, after, shown, rest', hscreens, htext, hcut⟩ :=
          @ih [] (by rw [List.nil_append, hchunk, hnil, List.nil_append])
        · exact .inl ⟨shown, by rw [List.flatten_cons, hscreen, hnil, List.append_assoc, ← htext,
            List.append_nil, List.append_nil], hlast⟩
        · exact .inr ⟨screen :: before, ended, after, shown, rest', by rw [hscreens]; rfl,
            by rw [List.flatten_cons, hscreen, hnil, List.append_assoc, ← htext, List.append_nil,
              List.append_nil], hcut⟩
      · exact .inr ⟨[], screen, screens, text, rest, rfl, rfl, hscreen, hnil,
          by rw [hchunk, List.append_assoc]⟩
    · obtain ⟨shown, htext', hlast⟩ | ⟨before, ended, after, shown, rest, hscreens, htext', hcut⟩ :=
        ih hrest.symm
      · exact .inl ⟨shown, by rw [htext, htext', List.flatten_cons, List.append_assoc], hlast⟩
      · exact .inr ⟨screen :: before, ended, after, shown, rest, by rw [hscreens]; rfl,
          by rw [htext, htext', List.flatten_cons, List.append_assoc], hcut⟩

/-- The dialog of every screen that is over was there, within `view`, at the end of a chunk that
came before the one with the reset. -/
def Timely (view : Text → Text) (provider : Option Provider) (chunks screens : List Text) : Prop :=
  ∀ before screen after, screens = before ++ screen :: after →
    (shownDialog provider screen).isSome = true →
    ∃ earlier part, earlier <+: chunks ∧ earlier.flatten = before.flatten ++ part ∧
      part <+: screen ∧ part ≠ screen ∧ (reads provider (view part)).isSome = true

theorem IsPrefix_length_lt {part screen : Text} (h : part <+: screen) (hne : part ≠ screen) :
    part.length < screen.length :=
  lt_of_le_of_ne h.length_le fun heq => hne (h.eq_of_length heq)

/-- What is over at a moment was there in time at that moment. -/
theorem Timely.before {view : Text → Text} {earlier before after : List Text}
    (h : Timely view provider chunks (before ++ after)) (hearlier : earlier <+: chunks)
    (hflat : earlier.flatten = before.flatten ++ shown) : Timely view provider earlier before := by
  intro before' screen after' hscreens hshows
  obtain ⟨first, part, hfirst, hpart, hprefix, hne, hreads⟩ :=
    h before' screen (after' ++ after) (by rw [hscreens]; simp) hshows
  refine ⟨first, part, ?_, hpart, hprefix, hne, hreads⟩
  obtain hin | hlong := List.prefix_or_prefix_of_prefix hfirst hearlier
  · exact hin
  · have hle := hlong.flatten.length_le
    have hlt := IsPrefix_length_lt hprefix hne
    rw [hpart, hflat, hscreens] at hle
    simp only [List.flatten_append, List.flatten_cons, List.length_append] at hle
    omega

theorem answers_append (screens screens' : List Text) :
    answers provider (screens ++ screens') = answers provider screens ++ answers provider screens' :=
  List.filterMap_append ..

theorem answers_of_shown {screen : Text} {sig : DialogSig}
    (h : shownDialog provider screen = some sig) : answers provider [screen] = [sig.answer] := by
  simp [answers, h]

theorem answers_of_none {screen : Text} (h : shownDialog provider screen = none) :
    answers provider [screen] = [] := by
  simp [answers, h]

/-- What the watcher wrote when it knows whether the dialog of the screen that is up was read. -/
theorem Watching.written_eq {s : DialogWatcher × List Text} {screen : Text}
    (h : Watching provider chunks screens shown s) (hshown : shown <+: screen)
    (hone : OneDialog provider screen)
    (hread : (shownDialog provider screen).isSome = true → ∃ earlier part, earlier <+: chunks ∧
      earlier.flatten = screens.flatten ++ part ∧
        (reads provider (sliceLast MAX_DIALOG_BUFFER_CHARS part)).isSome = true) :
    s.2 = answers provider (screens ++ [screen]) := by
  rw [answers_append]
  cases hactive : s.1.activeDialog with
  | none =>
    obtain ⟨-, hwritten, hnone⟩ := h.idle hactive
    cases hscreen : shownDialog provider screen with
    | none => rw [answers_of_none hscreen, hwritten, List.append_nil]
    | some sig =>
      obtain ⟨earlier, part, hearlier, hpart, hsome⟩ := hread (by rw [hscreen]; rfl)
      rw [hnone earlier part hearlier hpart] at hsome
      cases hsome
  | some sig =>
    obtain ⟨hshows, hwritten, -⟩ := h.active sig hactive
    have hshows' : Shows provider screen sig := hshows.mono hshown.isInfix
    cases hscreen : shownDialog provider screen with
    | none => exact absurd hshows' (shownDialog_eq_none.1 hscreen sig)
    | some sig' =>
      obtain rfl : sig' = sig := hone sig' sig (shows_of_shownDialog hscreen) hshows'
      rw [answers_of_shown hscreen, hwritten]

/-- A moment within a screen that the last chunk ends was before that chunk. -/
theorem earlier_of_within {earlier before after : List Text} {screen part last : Text}
    (hflat : chunks.flatten ++ chunk = (before ++ screen :: after).flatten ++ last)
    (hearlier : earlier <+: chunks ++ [chunk]) (hpart : earlier.flatten = before.flatten ++ part)
    (hlt : part.length < screen.length) : earlier <+: chunks := by
  obtain rfl | hbefore := List.prefix_concat_iff.1 hearlier
  · rw [List.flatten_concat, hflat] at hpart
    have hlength := congrArg List.length hpart
    simp only [List.flatten_append, List.flatten_cons, List.length_append] at hlength
    omega
  · exact hbefore

/-- A screen that begins and ends in the last chunk showed nothing in time. -/
theorem answers_of_unseen {view : Text → Text} {before after : List Text} {screen last : Text}
    (htimely : Timely view provider (chunks ++ [chunk]) (before ++ screen :: after))
    (hflat : chunks.flatten ++ chunk = (before ++ screen :: after).flatten ++ last)
    (hlt : chunks.flatten.length < (before ++ [screen]).flatten.length) :
    answers provider after = [] := by
  refine List.filterMap_eq_nil_iff.2 fun screen' hmem => ?_
  cases hscreen : shownDialog provider screen' with
  | none => rfl
  | some sig =>
    obtain ⟨between, behind, rfl⟩ := List.append_of_mem hmem
    have hsplit : before ++ screen :: (between ++ screen' :: behind) =
        (before ++ screen :: between) ++ screen' :: behind := by simp
    rw [hsplit] at htimely hflat
    obtain ⟨earlier, part, hearlier, hpart, hprefix, hne, -⟩ :=
      htimely _ screen' behind rfl (by rw [hscreen]; rfl)
    have hbefore := earlier_of_within hflat hearlier hpart (IsPrefix_length_lt hprefix hne)
    have hle := hbefore.flatten.length_le
    rw [hpart] at hle
    simp only [List.flatten_append, List.flatten_cons, List.flatten_nil, List.length_append,
      List.length_nil] at hle hlt
    omega

/-- However the output is cut, the watcher keeps track of it. -/
theorem watching_of_stream {last : Text} (hflat : chunks.flatten = screens.flatten ++ last)
    (hended : ∀ screen ∈ screens, Ended screen) (hfree : ResetFree last)
    (hone : ∀ screen ∈ screens ++ [last], OneDialog provider screen)
    (htimely : Timely (sliceLast MAX_DIALOG_BUFFER_CHARS) provider chunks screens) :
    Watching provider chunks screens last (watched provider chunks) := by
  induction chunks using List.reverseRecOn generalizing screens last with
  | nil =>
    obtain ⟨hscreens, rfl⟩ := List.append_eq_nil_iff.1 hflat.symm
    cases screens with
    | nil => exact watching_nil
    | cons screen screens =>
      obtain ⟨whole, reset, hreset, rfl, -⟩ := hended _ List.mem_cons_self
      have htwo := two_le_utf16Length hreset
      simp only [List.flatten_cons, List.append_eq_nil_iff] at hscreens
      rw [hscreens.1.2] at htwo
      cases htwo
  | append_singleton chunks chunk ih =>
    rw [watched_concat]
    rw [List.flatten_concat] at hflat
    have hprefix : chunks <+: chunks ++ [chunk] := List.prefix_append _ _
    obtain ⟨shown, htext, rfl⟩ | ⟨before, ended, after, shown, rest, rfl, htext, rfl, hrest, hchunk⟩ :=
      cut_of_flatten hflat
    · have hwas := ih htext hended hfree.left (fun screen hmem => ?_) ?_
      · exact hwas.within htext hended hfree (hone _ (by simp))
      · obtain hmem | hmem := List.mem_append.1 hmem
        · exact hone screen (List.mem_append_left _ hmem)
        · obtain rfl := List.mem_singleton.1 hmem
          exact (hone _ (List.mem_append_right _ List.mem_cons_self)).left
      · rw [← List.append_nil screens] at htimely
        exact htimely.before hprefix htext
    · have hmem : shown ++ rest ∈ before ++ (shown ++ rest) :: after := by simp
      have hmem' : shown ++ rest ∈ before ++ (shown ++ rest) :: after ++ [last] :=
        List.mem_append_left _ hmem
      have hwas := ih htext (fun screen hscreen => hended screen (List.mem_append_left _ hscreen))
        ((hended _ hmem).resetFree hrest) (fun screen hscreen => ?_) (htimely.before hprefix htext)
      · refine hwas.reset htext rfl hrest hchunk hended hfree ?_
        rw [List.append_cons, answers_append,
          answers_of_unseen htimely hflat (by rw [htext]; simp [List.length_pos_iff.2 hrest]),
          List.append_nil]
        refine hwas.written_eq (List.prefix_append _ _) (hone _ hmem') fun hsome => ?_
        obtain ⟨earlier, part, hearlier, hpart, hpre, hne, hreads⟩ :=
          htimely before (shown ++ rest) after rfl hsome
        exact ⟨earlier, part, earlier_of_within hflat hearlier hpart (IsPrefix_length_lt hpre hne),
          hpart, hreads⟩
      · obtain hscreen | hscreen := List.mem_append.1 hscreen
        · exact hone screen (by simp [hscreen])
        · obtain rfl := List.mem_singleton.1 hscreen
          exact (hone _ hmem').left

/-- The output of a pane, cut into chunks: the screens that are over, and the one that is up. Each
shows one dialog at most, and came to show it, within `view`, at the end of a chunk. -/
structure Stream (view : Text → Text) (provider : Option Provider) (chunks screens : List Text)
    (last : Text) : Prop where
  flatten_eq : chunks.flatten = screens.flatten ++ last
  ended : ∀ screen ∈ screens, Ended screen
  free : ResetFree last
  one : ∀ screen ∈ screens ++ [last], OneDialog provider screen
  timely : Timely view provider chunks screens
  last_read : (shownDialog provider last).isSome = true → ∃ earlier part, earlier <+: chunks ∧
    earlier.flatten = screens.flatten ++ part ∧ (reads provider (view part)).isSome = true

/-- Every screen that shows a dialog is answered once, with the answer of its dialog and while it
is up, and no other screen is. -/
def AnsweredOnce (provider : Option Provider) (chunks screens : List Text) (last : Text) : Prop :=
  (watched provider chunks).2 = answers provider (screens ++ [last]) ∧
    ∀ earlier before screen after part, earlier <+: chunks →
      screens ++ [last] = before ++ screen :: after → earlier.flatten = before.flatten ++ part →
      part <+: screen → (part = screen → after = []) →
      (watched provider earlier).2 = answers provider before ∨
        (watched provider earlier).2 = answers provider (before ++ [screen])

/-- What stands within the buffer at the end of a chunk is answered, however the output is cut. -/
theorem dialogs_answered_once {last : Text}
    (h : Stream (sliceLast MAX_DIALOG_BUFFER_CHARS) provider chunks screens last) :
    AnsweredOnce provider chunks screens last := by
  have hwatching := watching_of_stream h.flatten_eq h.ended h.free h.one h.timely
  refine ⟨hwatching.written_eq (List.prefix_refl _) (h.one last (by simp)) h.last_read, ?_⟩
  intro earlier before screen after part hearlier hscreens hpart hprefix hwhole
  have hone : ∀ screen' ∈ before ++ screen :: after, OneDialog provider screen' := by
    rw [← hscreens]
    exact h.one
  have hmoment : (∀ screen' ∈ before, Ended screen') ∧ ResetFree part ∧
      Timely (sliceLast MAX_DIALOG_BUFFER_CHARS) provider earlier before := by
    obtain rfl | ⟨after', last', rfl⟩ := List.eq_nil_or_concat after
    · obtain ⟨rfl, hlast⟩ := List.append_inj' hscreens rfl
      obtain rfl : last = screen := by simpa using hlast
      obtain ⟨rest, rfl⟩ := hprefix
      have htimely := h.timely
      rw [← List.append_nil screens] at htimely
      exact ⟨h.ended, h.free.left, htimely.before hearlier hpart⟩
    · have hsplit : screens = before ++ screen :: after' := by
        rw [List.concat_eq_append, ← List.cons_append, ← List.append_assoc] at hscreens
        exact (List.append_inj' hscreens rfl).1
      obtain ⟨rest, rfl⟩ := hprefix
      have hended := h.ended
      have htimely := h.timely
      rw [hsplit] at hended htimely
      refine ⟨fun screen' hmem => hended screen' (List.mem_append_left _ hmem), ?_,
        htimely.before hearlier hpart⟩
      refine (hended (part ++ rest) (by simp)).resetFree fun hrest => ?_
      simpa using hwhole (by rw [hrest, List.append_nil])
  obtain ⟨hended, hfree, htimely⟩ := hmoment
  have hwas : Watching provider earlier before part (watched provider earlier) := by
    refine watching_of_stream hpart hended hfree (fun screen' hmem => ?_) htimely
    obtain hmem | hmem := List.mem_append.1 hmem
    · exact hone screen' (List.mem_append_left _ hmem)
    · obtain rfl := List.mem_singleton.1 hmem
      obtain ⟨rest, rfl⟩ := hprefix
      exact (hone _ (List.mem_append_right _ List.mem_cons_self)).left
  cases hactive : (watched provider earlier).1.activeDialog with
  | none => exact .inl (hwas.idle hactive).2.1
  | some sig =>
    obtain ⟨hshows, hwritten, -⟩ := hwas.active sig hactive
    have hshows' : Shows provider screen sig := hshows.mono hprefix.isInfix
    right
    cases hscreen : shownDialog provider screen with
    | none => exact absurd hshows' (shownDialog_eq_none.1 hscreen sig)
    | some sig' =>
      obtain rfl : sig' = sig :=
        hone screen (by simp) sig' sig (shows_of_shownDialog hscreen) hshows'
      rw [answers_append, answers_of_shown hscreen, hwritten]

/-! ## A dialog behind which much follows -/

/-- The pane of Claude Code knows one dialog. -/
theorem oneDialog_claude (screen : Text) : OneDialog (some .claude) screen := by
  have hknown : ∀ {part sig}, reads (some .claude) part = some sig →
      sig ∈ DIALOG_SIGNATURES .claude := by
    intro part sig hreads
    simpa using List.mem_of_find?_eq_some hreads
  rintro sig sig' ⟨part, -, hreads⟩ ⟨part', -, hreads'⟩
  have hsig := hknown hreads
  have hsig' := hknown hreads'
  simp only [DIALOG_SIGNATURES, List.mem_singleton] at hsig hsig'
  rw [hsig, hsig']

/-- A permission prompt. -/
def permissionPrompt : Text := "do you want to proceed 1. yes 2. no".toList

/-- The prompt, cut in the middle, then a reset and some output. -/
def promptChunks : List Text :=
  [permissionPrompt.take 20, permissionPrompt.drop 20, [ESC], 'c' :: "ok".toList]

theorem dialogs_answered_once_prompt :
    AnsweredOnce (some .claude) promptChunks [permissionPrompt ++ [ESC, 'c']] "ok".toList := by
  refine dialogs_answered_once ⟨by decide +kernel, ?_, by decide, fun _ _ => oneDialog_claude _, ?_, ?_⟩
  · intro screen hmem
    obtain rfl := List.mem_singleton.1 hmem
    exact ⟨permissionPrompt, [ESC, 'c'], by decide, rfl, by decide +kernel⟩
  · intro before screen after hscreens _
    obtain ⟨rfl, rfl, rfl⟩ : before = [] ∧ screen = permissionPrompt ++ [ESC, 'c'] ∧ after = [] := by
      simpa [List.append_eq_cons_iff, eq_comm] using hscreens
    refine ⟨promptChunks.take 2, permissionPrompt, List.take_prefix _ _, by decide +kernel,
      List.prefix_append _ _, by decide +kernel, by decide +kernel⟩
  · intro hshown
    have hnone : shownDialog (some .claude) "ok".toList = none := by decide +kernel
    rw [hnone] at hshown
    cases hshown

/-- No sequence is introduced in the text. -/
def NoIntroducer (text : Text) : Prop := ∀ c ∈ text, c ∉ [ESC, Char.ofNat 0x9B]

theorem replaceAll_of_noIntroducer {rest : Regex} {replacement text : Text} (n : ℕ)
    (h : NoIntroducer text) :
    (Regex.seq .introducer rest).replaceAll replacement n text = text := by
  induction text generalizing n with
  | nil => cases n <;> rfl
  | cons c text ih =>
    cases n with
    | zero => rfl
    | succ n =>
      have hrests : (Regex.seq .introducer rest).rests (c :: text) = [] := by
        simp only [Regex.rests, Regex.introducer, Regex.oneOf]
        rw [if_neg (by simpa using h c List.mem_cons_self)]
        rfl
      rw [Regex.replaceAll, hrests, ih n fun d hd => h d (List.mem_cons_of_mem c hd)]

theorem normalize_of_noIntroducer {text : Text} (h : NoIntroducer text) :
    normalizeStartupOutput text = trim (collapseWhiteSpace text) := by
  simp only [normalizeStartupOutput, ANSI_LAYOUT_ESCAPE, ANSI_ESCAPE,
    replaceAll_of_noIntroducer _ h]

theorem collapse_append {text more : Text} (hmore : ∀ c ∈ more, isStrWhiteSpace c = false) :
    collapseWhiteSpace (text ++ more) = collapseWhiteSpace text ++ more := by
  induction text with
  | nil =>
    induction more with
    | nil => rfl
    | cons c more ih =>
      have hmore' : collapseWhiteSpace more = more := ih fun d hd => hmore d (List.mem_cons_of_mem c hd)
      change collapseWhiteSpace (c :: more) = c :: more
      rw [collapseWhiteSpace, hmore c List.mem_cons_self, hmore']
      rfl
  | cons c text ih =>
    rw [List.cons_append, collapseWhiteSpace, collapseWhiteSpace, ih]
    split
    · cases hcollapsed : collapseWhiteSpace text with
      | nil =>
        cases more with
        | nil => rfl
        | cons d more =>
          have hd : d ≠ ' ' := by
            rintro rfl
            cases hmore ' ' List.mem_cons_self
          simp [hd]
      | cons d collapsed =>
        by_cases hd : d = ' '
        · simp [hd]
        · simp [hd]
    · rfl

/-- Output without any text that matters. -/
def filler (n : ℕ) : Text := List.replicate n 'x'

theorem mem_filler {n : ℕ} {c : Char} (h : c ∈ filler n) : c = 'x' := List.eq_of_mem_replicate h

theorem utf16Length_filler (n : ℕ) : utf16Length (filler n) = n := by
  simp [utf16Length, filler]

theorem sliceLast_filler {n : ℕ} (text : Text) : sliceLast n (text ++ filler n) = filler n := by
  induction text with
  | nil =>
    cases n with
    | zero => rfl
    | succ n =>
      exact if_pos (utf16Length_filler (n + 1)).le
  | cons c text ih =>
    rw [List.cons_append, sliceLast, if_neg, ih]
    have hpos : 1 ≤ utf16Length [c] := length_le_utf16Length [c]
    rw [← List.singleton_append, utf16Length_append, utf16Length_append, utf16Length_filler]
    omega

/-- The prompt, and then more output than the buffer holds. -/
def floodedPrompt : Text := permissionPrompt ++ filler MAX_DIALOG_BUFFER_CHARS

theorem noIntroducer_filler (n : ℕ) : NoIntroducer (filler n) := by
  intro c hc
  rw [mem_filler hc]
  decide

theorem noIntroducer_prompt : ∀ c ∈ permissionPrompt, c ∉ [ESC, Char.ofNat 0x9B] := by
  have hall : permissionPrompt.all (fun c => c != ESC && c != Char.ofNat 0x9B) = true := by
    decide +kernel
  intro c hc hmem
  have hne := List.all_eq_true.1 hall c hc
  rw [Bool.and_eq_true, bne_iff_ne, bne_iff_ne] at hne
  rw [List.mem_pair] at hmem
  exact hmem.elim hne.1 hne.2

/-- The output as a whole reads as the prompt. -/
theorem reads_flooded (n : ℕ) :
    (reads (some .claude) (permissionPrompt ++ filler (n + 1))).isSome = true := by
  have hnormal : normalizeStartupOutput (permissionPrompt ++ filler (n + 1)) =
      permissionPrompt ++ filler (n + 1) := by
    rw [normalize_of_noIntroducer, collapse_append]
    · have hcollapsed : collapseWhiteSpace permissionPrompt = permissionPrompt := by decide +kernel
      rw [hcollapsed]
      apply Js.trim_eq_self
      · intro c hc
        obtain rfl : 'd' = c := Option.some.inj hc
        decide
      · intro c hc
        obtain rfl : 'x' = c := by simpa [filler, List.getLast?_replicate] using hc
        decide
    · intro c hc
      rw [mem_filler hc]
      decide
    · intro c hc
      obtain hc | hc := List.mem_append.1 hc
      · exact noIntroducer_prompt c hc
      · exact noIntroducer_filler _ c hc
  have hlower : toLowerCase (permissionPrompt ++ filler (n + 1)) =
      permissionPrompt ++ filler (n + 1) := by
    have hprompt : permissionPrompt.map Char.toLower = permissionPrompt := by decide +kernel
    rw [toLowerCase, List.map_append, hprompt, filler, List.map_replicate]
    rfl
  have hanchors : ∀ sig ∈ DIALOG_SIGNATURES .claude, ∀ anchor ∈ sig.anchors,
      anchor <:+: permissionPrompt := by decide +kernel
  rw [reads, hnormal]
  refine List.find?_isSome.2 ⟨_, List.mem_append_left _ List.mem_cons_self, ?_⟩
  refine List.all_eq_true.2 fun anchor hanchor => decide_eq_true ?_
  rw [hlower]
  exact (hanchors _ List.mem_cons_self anchor hanchor).trans (List.prefix_append _ _).isInfix

theorem mem_of_mem_trim {c : Char} {text : Text} (h : c ∈ trim text) : c ∈ text := by
  rw [trim, List.mem_reverse] at h
  have hmem := (List.dropWhile_sublist _).subset h
  rw [List.mem_reverse] at hmem
  exact (List.dropWhile_sublist _).subset hmem

/-- The filler reads as nothing. -/
theorem reads_filler (n : ℕ) : reads (some .claude) (filler n) = none := by
  have hnormal : ∀ c ∈ toLowerCase (normalizeStartupOutput (filler n)), c = 'x' := by
    rw [normalize_of_noIntroducer (noIntroducer_filler n), ← List.nil_append (filler n),
      collapse_append fun c hc => by rw [mem_filler hc]; decide]
    intro c hc
    obtain ⟨d, hd, rfl⟩ := List.mem_map.1 hc
    rw [mem_filler (mem_of_mem_trim hd)]
    rfl
  refine List.find?_eq_none.2 fun sig hsig hall => ?_
  have hforeign : ∀ sig ∈ DIALOG_SIGNATURES .claude, ∃ anchor ∈ sig.anchors, '1' ∈ anchor := by
    decide
  obtain ⟨anchor, hanchor, hmem⟩ := hforeign sig (by simpa using hsig)
  have hincludes := of_decide_eq_true (List.all_eq_true.1 hall anchor hanchor)
  cases hnormal '1' (hincludes.subset hmem)

theorem resetFree_flooded : ResetFree floodedPrompt := by
  have hfree : ∀ text : Text, ESC ∉ text → ResetFree text := by
    intro text hnone
    induction text with
    | nil => rfl
    | cons c text ih =>
      rw [List.mem_cons, not_or] at hnone
      exact (ih hnone.2).cons (Ne.symm hnone.1)
  refine hfree _ fun hmem => ?_
  obtain hmem | hmem := List.mem_append.1 hmem
  · exact noIntroducer_prompt ESC hmem List.mem_cons_self
  · exact noIntroducer_filler _ ESC hmem List.mem_cons_self

/-- The buffer of a fresh watcher is the end of the first chunk. -/
theorem buffer_receive_first (hfree : ResetFree chunk) :
    ((watchDialogs provider).receive chunk).buffer = sliceLast MAX_DIALOG_BUFFER_CHARS chunk := by
  have hreset : suffixAfterLastScreenReset ((watchDialogs provider).resetScanTail ++ chunk) = none :=
    hfree
  rw [DialogWatcher.receive, hreset]
  rfl

/-- A first chunk whose end reads as nothing is not answered. -/
theorem watched_first (hfree : ResetFree chunk)
    (hnone : reads provider (sliceLast MAX_DIALOG_BUFFER_CHARS chunk) = none) :
    (watched provider [chunk]).2 = [] := by
  have hprovider : ((watchDialogs provider).receive chunk).provider = provider := by
    rw [DialogWatcher.receive]
    split <;> rfl
  have hmatch : ((watchDialogs provider).receive chunk).match? = none := by
    rw [DialogWatcher.match?, hprovider, buffer_receive_first hfree]
    exact hnone
  have hdata : ((watchDialogs provider).onData chunk).2 = none := by
    rw [DialogWatcher.onData]
    simp only [hmatch]
  change [] ++ ((watchDialogs provider).onData chunk).2.toList = []
  rw [hdata]
  rfl

/-- The watcher writes nothing. -/
theorem watched_flooded : (watched (some .claude) [floodedPrompt]).2 = [] := by
  refine watched_first resetFree_flooded ?_
  rw [floodedPrompt, sliceLast_filler]
  exact reads_filler _

/-- The buffer loses a prompt that more than 64K of output follows within its chunk: it is on the
screen, but nothing answers it. -/
theorem flooded_prompt_unanswered : ¬ ∀ (provider : Option Provider) (chunks screens : List Text)
    (last : Text), Stream id provider chunks screens last →
      AnsweredOnce provider chunks screens last := by
  intro hanswers
  have hreads : (reads (some .claude) floodedPrompt).isSome = true := reads_flooded 65535
  have hstream : Stream id (some .claude) [floodedPrompt] [] floodedPrompt := by
    refine ⟨by simp, by simp, resetFree_flooded, fun _ _ => oneDialog_claude _, ?_, ?_⟩
    · intro before screen after hscreens
      simp at hscreens
    · exact fun _ => ⟨[floodedPrompt], floodedPrompt, List.prefix_refl _, by simp, hreads⟩
  have hwritten := (hanswers _ _ _ _ hstream).1
  obtain ⟨sig, hsig⟩ := Option.isSome_iff_exists.1 hreads
  rw [watched_flooded] at hwritten
  cases hscreen : shownDialog (some .claude) floodedPrompt with
  | none => exact shownDialog_eq_none.1 hscreen sig ⟨_, List.infix_refl _, hsig⟩
  | some sig' =>
    rw [List.nil_append, answers_of_shown hscreen] at hwritten
    cases hwritten

end Orchestration.Pty
