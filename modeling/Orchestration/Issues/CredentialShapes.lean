import Orchestration.Issues.Redactions

/-!
# What the scrubbing patterns match

Tokens are words between word edges; addresses are words; a bearer or basic credential is a label,
white space and a word; a private key lies between two fences.
-/

namespace Orchestration.Issues

open Js Js.Regex

/-! ## Characters -/

theorem alphanumeric_bounds {c : Char} (h : isAsciiAlphanumeric c = true) :
    0x30 ≤ c.toNat ∧ c.toNat ≤ 0x7A := by
  have hle : ∀ {a d : Char}, a ≤ d → a.toNat ≤ d.toNat := fun h => UInt32.le_iff_toNat_le.1 h
  simp only [isAsciiAlphanumeric, Bool.or_eq_true, Bool.and_eq_true, decide_eq_true_eq] at h
  obtain (⟨hlow, hhigh⟩ | ⟨hlow, hhigh⟩) | ⟨hlow, hhigh⟩ := h
  · exact ⟨le_trans (by decide) (hle hlow), le_trans (hle hhigh) (by decide)⟩
  · exact ⟨le_trans (by decide) (hle hlow), le_trans (hle hhigh) (by decide)⟩
  · exact ⟨le_trans (by decide) (hle hlow), le_trans (hle hhigh) (by decide)⟩

/-- White space is a space or below it, or no ASCII character. -/
theorem white_bounds {c : Char} (h : isStrWhiteSpace c = true) :
    c.toNat ≤ 0x20 ∨ 0xA0 ≤ c.toNat ∧ c.toNat ≠ 0x17F ∧ c.toNat ≠ 0x212A := by
  simp only [isStrWhiteSpace, Bool.or_eq_true, List.mem_cons, List.not_mem_nil, or_false,
    Bool.and_eq_true, decide_eq_true_eq] at h
  omega

/-! ## Labels of a match -/

section

variable {p : Regex} {text : List Char}

theorem execAtStart_eq_none (hp : p.Consuming) (h : p.NoMatch none text) :
    p.execAtStart text = none := by
  rw [Regex.execAtStart, (Regex.ends_eq_nil_iff hp).2 h]
  rfl

/-- The only match at the start of a text is the one that is found. -/
theorem execAtStart_eq_some (hp : p.Consuming) {xs post : List Char} (htext : text = xs ++ post)
    (hmatch : p.Matches none xs post)
    (honly : ∀ ys rest, text = ys ++ rest → p.Matches none ys rest → ys = xs) :
    p.execAtStart text = some xs := by
  have hfound := (Regex.finds hp none text _).2 ⟨xs, post, htext, rfl, hmatch⟩
  cases hends : p.ends ⟨none, text⟩ with
  | nil =>
    rw [hends] at hfound
    cases hfound
  | cons stop stops =>
    have hmem : stop ∈ p.ends ⟨none, text⟩ := hends ▸ List.mem_cons_self
    obtain ⟨ys, rest, hys, rfl, hmatches⟩ := (Regex.finds hp _ _ _).1 hmem
    obtain rfl := honly ys rest hys hmatches
    rw [Regex.execAtStart, hends, List.head?_cons, Option.map_some]
    simp only
    rw [hys, List.length_append, Nat.add_sub_cancel, List.take_left]

end

section

variable {b : Option Char} {xs post : List Char}

theorem matches_anyCase {text : String} : (anyCase text).Matches b xs post ↔
    List.Forall₂ (fun c d => foldsTo c d = true) text.toList xs := by
  rw [anyCase]
  cases h : text.toList.reverse with
  | nil =>
    rw [List.reverse_eq_nil_iff.1 h]
    simp only [matches_literally]
    exact List.forall₂_nil_left_iff.symm
  | cons last start => exact matches_chain h

theorem consuming_anyCase {text : String} : (anyCase text).Consuming := by
  rw [anyCase]
  cases text.toList.reverse with
  | nil => exact consuming_literally
  | cons last start => exact consuming_chain

/-! ## Tokens -/

/-- The characters of tokens. -/
def isTokenChar (c : Char) : Bool := isAsciiAlphanumeric c || c = '_' || c = '-'

/-- How a token begins: with a word character, not like a label, and like no marker. -/
def isTokenHead (cs : List Char) : Bool :=
  match cs with
  | c :: d :: _ =>
    isWordChar c && !foldsTo 'b' c && !(foldsTo 'a' c && foldsTo 'u' d) &&
      cs.all isTokenChar && cs.any fun c => !isMarkChar c
  | _ => false

/-- What stands between the word edges of a token. -/
structure TokenBody (body : Regex) : Prop where
  plain : body.Plain
  consuming : body.Consuming
  split : ∀ b xs post, body.Matches b xs post → ∃ ys zs, xs = ys ++ zs ∧ isTokenHead ys = true ∧
    ∀ c ∈ zs, isTokenChar c = true

theorem tokenBody {first rest : Regex} (hfirst : first.Plain ∧ first.Consuming)
    (hhead : ∀ b xs post, first.Matches b xs post → isTokenHead xs = true)
    (hrest : rest.Plain ∧ rest.Consuming) (hchars : rest.Within fun c => isTokenChar c = true) :
    TokenBody (.seq first rest) where
  plain := ⟨hfirst.1, hrest.1⟩
  consuming := ⟨hfirst.2, hrest.2⟩
  split := by
    rintro b xs post ⟨ys, zs, rfl, hys, hzs⟩
    exact ⟨ys, zs, rfl, hhead _ _ _ hys, hchars.matches hzs⟩

/-- A token: its body between word edges. -/
def token (body : Regex) : Regex := .seq wordEdge (.seq body wordEdge)

theorem isTokenChar_ne {c : Char} (h : isTokenChar c = true) :
    c ≠ '[' ∧ c ≠ ']' ∧ c ≠ ' ' ∧ c ≠ '/' := by
  refine ⟨?_, ?_, ?_, ?_⟩ <;> rintro rfl <;> exact absurd h (by decide)

theorem isTokenChar_not_white {c : Char} (h : isTokenChar c = true) :
    isStrWhiteSpace c = false := by
  refine Bool.eq_false_iff.2 fun hwhite => ?_
  simp only [isTokenChar, Bool.or_eq_true, decide_eq_true_eq] at h
  rcases h with (h | rfl) | rfl
  · obtain ⟨hlow, hhigh⟩ := alphanumeric_bounds h
    have := white_bounds hwhite
    omega
  · exact absurd hwhite (by decide)
  · exact absurd hwhite (by decide)

/-- A token character that is no word character is none either when case is folded. -/
theorem isTokenChar_folded {c : Char} (h : isTokenChar c = true) (hword : isWordChar c = false) :
    isWordCharFolded c = false := by
  have hdash : c = '-' := by
    simp only [isWordChar, Bool.or_eq_false_iff] at hword
    simpa [isTokenChar, hword.1, hword.2] using h
  rw [hdash]
  decide

theorem isTokenHead_cons {ys : List Char} (h : isTokenHead ys = true) : ∃ c d t,
    ys = c :: d :: t ∧ isWordChar c = true ∧ foldsTo 'b' c = false ∧
      (foldsTo 'a' c = false ∨ foldsTo 'u' d = false) ∧
      (∀ e ∈ ys, isTokenChar e = true) ∧ ∃ e ∈ ys, isMarkChar e = false := by
  match ys, h with
  | c :: d :: t, h =>
    simp only [isTokenHead, Bool.and_eq_true, Bool.not_eq_true', Bool.and_eq_false_iff,
      List.all_eq_true, List.any_eq_true] at h
    exact ⟨c, d, t, rfl, h.1.1.1.1, h.1.1.1.2, h.1.1.2, h.1.2, h.2⟩

/-- What a token consists of. -/
theorem TokenBody.word {body : Regex} (h : TokenBody body) (hmatch : body.Matches b xs post) :
    ∃ c d t, xs = c :: d :: t ∧ isWordChar c = true ∧ foldsTo 'b' c = false ∧
      (foldsTo 'a' c = false ∨ foldsTo 'u' d = false) ∧
      (∀ e ∈ xs, isTokenChar e = true) ∧ ∃ e ∈ xs, isMarkChar e = false := by
  obtain ⟨ys, zs, rfl, hys, hzs⟩ := h.split _ _ _ hmatch
  obtain ⟨c, d, t, rfl, hword, hbearer, hbasic, hall, e, he, hmark⟩ := isTokenHead_cons hys
  refine ⟨c, d, t ++ zs, rfl, hword, hbearer, hbasic, fun f hf => ?_,
    e, List.mem_append_left _ he, hmark⟩
  rcases List.mem_append.1 hf with hf | hf
  · exact hall f hf
  · exact hzs f hf

theorem matches_token {body : Regex} (h : TokenBody body) : (token body).Matches b xs post ↔
    body.Matches b xs post ∧ b.any isWordChar = false ∧
      ((lastOf b xs).any isWordChar != post.head?.any isWordChar) = true := by
  have hstart : ∀ {xs : List Char}, body.Matches b xs post →
      ((b.any isWordChar != (xs ++ post).head?.any isWordChar) = true ↔
        b.any isWordChar = false) := by
    intro xs hbody
    obtain ⟨c, d, t, rfl, hword, -⟩ := h.word hbody
    simp [hword]
  constructor
  · rintro ⟨_, _, rfl, ⟨rfl, hbefore⟩, ys, _, rfl, hys, rfl, hafter⟩
    rw [List.append_nil, List.nil_append, lastOf_nil] at *
    exact ⟨hys, (hstart hys).1 hbefore, hafter⟩
  · rintro ⟨hbody, hbefore, hafter⟩
    refine ⟨[], xs, rfl, ⟨rfl, (hstart hbody).2 hbefore⟩, xs, [], (List.append_nil _).symm, hbody,
      rfl, hafter⟩

theorem consuming_token {body : Regex} (h : TokenBody body) : (token body).Consuming :=
  ⟨trivial, h.consuming, trivial⟩

theorem word_of_tokenChars (hall : ∀ c ∈ xs, isTokenChar c = true)
    (hmark : ∃ c ∈ xs, isMarkChar c = false) : Word xs where
  opening hmem := (isTokenChar_ne (hall _ hmem)).1 rfl
  closing hmem := (isTokenChar_ne (hall _ hmem)).2.1 rfl
  unmarked := hmark
  head hhead := (isTokenChar_ne (hall _ (List.mem_of_mem_head? hhead))).2.2.1 rfl
  last hlast := by
    obtain ⟨c, hc, -⟩ := hmark
    obtain ⟨d, hd, hsome⟩ := lastOf_mem (List.ne_nil_of_mem hc) none
    obtain rfl := Option.some.inj (hsome.symm.trans hlast)
    exact (isTokenChar_ne (hall _ hd)).2.2.1 rfl

theorem local_token {body : Regex} (h : TokenBody body) : Local (token body) where
  word b xs post hmatch := by
    obtain ⟨c, d, t, -, -, -, -, hall, hmark⟩ := h.word ((matches_token h).1 hmatch).1
    exact word_of_tokenChars hall hmark
  edges b b' xs post post' hmatch hstart hstop := by
    obtain ⟨hbody, hbefore, hafter⟩ := (matches_token h).1 hmatch
    obtain ⟨c, d, t, hxs, hword, -⟩ := h.word hbody
    have hlast : lastOf b xs = lastOf b' xs := lastOf_of_ne_nil (by simp [hxs]) b b'
    refine (matches_token h).2 ⟨h.plain.matches hbody, ?_, hstop (hlast ▸ hafter)⟩
    rcases hstart with rfl | hfolded
    · exact hbefore
    · have hnot := hfolded (by simp [hxs, hword])
      cases b with
      | none => rfl
      | some l =>
        rw [Option.any_some, isWordCharFolded, Bool.or_eq_false_iff, Bool.or_eq_false_iff] at hnot
        exact hnot.1.1

/-- What begins with a word is cut in no marker. -/
theorem inMarker_of_word {p t rest : List Char} (hclosing : ']' ∉ p)
    (hmark : ∃ c ∈ p, isMarkChar c = false) :
    ∀ y z, (p ++ t) ++ rest = y ++ ']' :: z → ∃ c ∈ y, isMarkChar c = false := by
  intro y z hsplit
  rw [List.append_assoc] at hsplit
  obtain ⟨t', rfl⟩ := prefix_before hsplit.symm hclosing
  obtain ⟨c, hc, hunmarked⟩ := hmark
  exact ⟨c, List.mem_append_left _ hc, hunmarked⟩

theorem marker_token : ∃ gap mark, (gap = [] ∨ gap = [' ']) ∧
    REDACTED_TOKEN = gap ++ '[' :: (mark ++ [']']) ∧ ∀ c ∈ mark, isMarkChar c = true :=
  ⟨[], "redacted-token".toList, .inl rfl, by decide, List.all_eq_true.1 (by decide)⟩

theorem cut_token {body : Regex} (h : TokenBody body) (hmatch : (token body).Matches b xs post) :
    Cut b xs post REDACTED_TOKEN := by
  obtain ⟨hbody, hbefore, hafter⟩ := (matches_token h).1 hmatch
  obtain ⟨c, d, t, hxs, hword, -, -, hall, hmark⟩ := h.word hbody
  have hhead : ∀ e, xs.head? = some e → isTokenChar e = true :=
    fun e he => hall e (List.mem_of_mem_head? he)
  have hwords := word_of_tokenChars hall hmark
  refine ⟨hwords.ne_nil, marker_token, fun hb => ?_, fun hnext => ?_, fun _ e he => ?_,
    fun hopening => ?_, ?_⟩
  · rw [hbefore] at hb
    cases hb
  · obtain ⟨l, hl, hlast⟩ := lastOf_mem hwords.ne_nil b
    rw [hlast, Option.any_some, hnext] at hafter
    rw [hlast, Option.any_some]
    exact isTokenChar_folded (hall l hl) (by simpa using hafter)
  · exact ⟨(isTokenChar_ne (hhead e he)).2.2.2, isTokenChar_not_white (hhead e he)⟩
  · exact (isTokenChar_ne (hhead _ hopening)).1 rfl
  · have hself := @inMarker_of_word xs [] post hwords.closing hwords.unmarked
    rwa [List.append_nil] at hself

/-- A pattern that matches as a token does. -/
structure IsToken (p : Regex) : Prop where
  consuming : p.Consuming
  body : ∃ body, TokenBody body ∧ ∀ b xs post, p.Matches b xs post ↔ (token body).Matches b xs post

theorem matches_seq_congr {p r r' : Regex} (h : ∀ b xs post, r.Matches b xs post ↔
    r'.Matches b xs post) (b : Option Char) (xs post : List Char) :
    (Regex.seq p r).Matches b xs post ↔ (Regex.seq p r').Matches b xs post :=
  exists₂_congr fun _ _ => and_congr_right fun _ => and_congr_right fun _ => h _ _ _

/-- The word edge may be part of what follows the head. -/
theorem isToken_of_seq {first rest : Regex} (h : TokenBody (.seq first rest)) :
    IsToken (.seq wordEdge (.seq first (.seq rest wordEdge))) where
  consuming := ⟨trivial, h.consuming.1, h.consuming.2, trivial⟩
  body := ⟨_, h, matches_seq_congr fun _ _ _ => matches_seq_assoc⟩

theorem local_of_isToken {p : Regex} (h : IsToken p) : Local p := by
  obtain ⟨body, hbody, hsame⟩ := h.body
  have hlocal := local_token hbody
  exact ⟨fun b xs post hmatch => hlocal.word b xs post ((hsame _ _ _).1 hmatch),
    fun b b' xs post post' hmatch hstart hstop => (hsame _ _ _).2
      (hlocal.edges b b' xs post post' ((hsame _ _ _).1 hmatch) hstart hstop)⟩

/-! ## Labels -/

theorem anyCase_cons (text : String) {a : Char} {as : List Char} (htext : text.toList = a :: as)
    (h : (anyCase text).Matches b xs post) : ∃ c ys, xs = c :: ys ∧ foldsTo a c = true ∧
      List.Forall₂ (fun c d => foldsTo c d = true) as ys := by
  rw [matches_anyCase, htext] at h
  obtain ⟨c, ys, hc, hys, rfl⟩ := List.forall₂_cons_left_iff.1 h
  exact ⟨c, ys, rfl, hc, hys⟩

theorem bearer_letters : "bearer".toList = ['b', 'e', 'a', 'r', 'e', 'r'] := by decide

theorem authorization_letters : "authorization:".toList =
    ['a', 'u', 't', 'h', 'o', 'r', 'i', 'z', 'a', 't', 'i', 'o', 'n', ':'] := by decide

theorem consuming_bearerLabel : BEARER_LABEL.Consuming := ⟨consuming_anyCase, trivial⟩

theorem consuming_basicLabel : BASIC_LABEL.Consuming :=
  ⟨consuming_anyCase, consuming_times_one, consuming_anyCase, trivial⟩

/-- What begins like no label goes as a whole. -/
theorem redactTokenMatch_of_head {c : Char} {t : List Char} (hbearer : foldsTo 'b' c = false)
    (hbasic : foldsTo 'a' c = false ∨ ∀ d, t.head? = some d → foldsTo 'u' d = false) :
    redactTokenMatch (c :: t) = REDACTED_TOKEN := by
  have hnoBearer : BEARER_LABEL.NoMatch none (c :: t) := by
    rintro _ post htext ⟨ys, _, rfl, hys, rfl, -⟩
    obtain ⟨d, ys, rfl, hd, -⟩ := anyCase_cons "bearer" bearer_letters hys
    obtain ⟨rfl, -⟩ := List.cons.inj htext
    rw [hbearer] at hd
    cases hd
  have hnoBasic : BASIC_LABEL.NoMatch none (c :: t) := by
    rintro _ post htext ⟨ys, zs, rfl, hys, -⟩
    obtain ⟨d, ys, rfl, hd, hrest⟩ := anyCase_cons "authorization:" authorization_letters hys
    obtain ⟨e, ys, he, -, rfl⟩ := List.forall₂_cons_left_iff.1 hrest
    obtain ⟨rfl, ht⟩ := List.cons.inj htext
    rcases hbasic with hnot | hnot
    · rw [hnot] at hd
      cases hd
    · rw [hnot e (by rw [ht]; rfl)] at he
      cases he
  rw [redactTokenMatch, execAtStart_eq_none consuming_bearerLabel hnoBearer]
  simp only
  rw [execAtStart_eq_none consuming_basicLabel hnoBasic]

/-- The pass of a token pattern. -/
theorem redacts_of_isToken {p : Regex} (h : IsToken p) (text : List Char) :
    Redacts (fun b text _ => p.NoMatch b text) none text
      (p.replaceAll redactTokenMatch text) := by
  obtain ⟨body, hbody, hsame⟩ := h.body
  refine Regex.rewrites_replaceFrom h.consuming (fun _ _ => True) (fun _ _ _ _ _ => trivial)
    (fun b m rest _ hmatch _ => ?_) (Nat.le_refl _) trivial
  have htoken := (hsame _ _ _).1 hmatch
  have hcut := cut_token hbody htoken
  obtain ⟨c, d, t, rfl, -, hbearer, hbasic, -⟩ := hbody.word ((matches_token hbody).1 htoken).1
  rw [redactTokenMatch_of_head hbearer
    (hbasic.imp id fun hu e he => by rw [← Option.some.inj he]; exact hu)]
  exact ⟨hcut.nonempty, hcut, trivial⟩

/-! ## Addresses -/

def isLocalPart (c : Char) : Bool := isWordChar c || c ∈ ['.', '+', '-']

def isDomainPart (c : Char) : Bool := isWordChar c || c = '-'

theorem any_wordChar_of_domainPart {a : Option Char} (h : a.any isDomainPart = false) :
    a.any isWordChar = false := by
  cases a with
  | none => rfl
  | some c => exact (Bool.or_eq_false_iff.1 h).1

/-- The characters of addresses. -/
def isAddressChar (c : Char) : Bool := isWordChar c || c ∈ ['.', '+', '-', '@']

theorem consuming_email : EMAIL_RE.Consuming := by
  refine ⟨consuming_times_one, consuming_literally, consuming_times_one,
    ⟨consuming_literally, consuming_times_one⟩, ?_⟩
  rintro b post ⟨ys, zs, hsplit, hdot, -⟩
  rw [matches_literally.1 hdot] at hsplit
  cases (List.append_eq_nil_iff.1 hsplit.symm).1

theorem plain_email : EMAIL_RE.Plain := ⟨trivial, plain_literally, trivial, plain_literally, trivial⟩

theorem within_email : EMAIL_RE.Within fun c => isAddressChar c = true := by
  have hlocal : ∀ c, (isWordChar c || decide (c ∈ ['.', '+', '-'])) = true →
      isAddressChar c = true := by
    intro c hc
    simp only [isAddressChar, Bool.or_eq_true, decide_eq_true_eq] at hc ⊢
    exact hc.imp_right fun hmem => by simp at hmem ⊢; tauto
  have hdomain : ∀ c, (isWordChar c || decide (c = '-')) = true → isAddressChar c = true := by
    intro c hc
    simp only [isAddressChar, Bool.or_eq_true, decide_eq_true_eq] at hc ⊢
    exact hc.imp_right fun heq => by simp [heq]
  have hone : ∀ text : String, text.toList.all isAddressChar = true →
      (literally text).Within fun c => isAddressChar c = true :=
    fun text hall => within_literally (List.all_eq_true.1 hall)
  exact ⟨hlocal, hone "@" (by decide), hdomain, hone "." (by decide), hdomain⟩

theorem isAddressChar_ne {c : Char} (h : isAddressChar c = true) :
    c ≠ '[' ∧ c ≠ ']' ∧ c ≠ ' ' ∧ c ≠ '/' := by
  refine ⟨?_, ?_, ?_, ?_⟩ <;> rintro rfl <;> exact absurd h (by decide)

theorem isAddressChar_not_white {c : Char} (h : isAddressChar c = true) :
    isStrWhiteSpace c = false := by
  refine Bool.eq_false_iff.2 fun hwhite => ?_
  have hmarks : ['_', '.', '+', '-', '@'].all (fun d => !isStrWhiteSpace d) = true := by decide
  simp only [isAddressChar, isWordChar, Bool.or_eq_true, decide_eq_true_eq] at h
  rcases h with (h | rfl) | h
  · obtain ⟨hlow, hhigh⟩ := alphanumeric_bounds h
    have := white_bounds hwhite
    omega
  · exact absurd hwhite (by decide)
  · have hnot := List.all_eq_true.1 hmarks c (List.mem_cons_of_mem _ h)
    rw [hwhite] at hnot
    cases hnot

theorem word_email (hmatch : EMAIL_RE.Matches b xs post) : Word xs := by
  have hall := within_email.matches hmatch
  have hat : '@' ∈ xs := by
    obtain ⟨ys, _, rfl, -, zs, ws, rfl, hzs, -⟩ := hmatch
    rw [matches_literally.1 hzs]
    exact List.mem_append_right _ List.mem_cons_self
  refine ⟨fun h => (isAddressChar_ne (hall _ h)).1 rfl, fun h => (isAddressChar_ne (hall _ h)).2.1 rfl,
    ⟨'@', hat, by decide⟩,
    fun h => (isAddressChar_ne (hall _ (List.mem_of_mem_head? h))).2.2.1 rfl, fun h => ?_⟩
  obtain ⟨c, hc, hlast⟩ := lastOf_mem (List.ne_nil_of_mem hat) none
  obtain rfl := Option.some.inj (hlast.symm.trans h)
  exact (isAddressChar_ne (hall _ hc)).2.2.1 rfl

theorem local_email : Local EMAIL_RE :=
  ⟨fun _ _ _ hmatch => word_email hmatch, fun _ _ _ _ _ hmatch _ _ => plain_email.matches hmatch⟩

/-- The first address found ends before a character of no domain. -/
theorem head_email {rest : List Char} {at' : Cursor} {before : Option Char}
    (h : (EMAIL_RE.ends at').head? = some ⟨before, rest⟩) :
    rest.head?.any isDomainPart = false := by
  obtain ⟨mid, -, h⟩ := head_seq h
  obtain ⟨mid, -, h⟩ := head_seq h
  obtain ⟨mid, -, h⟩ := head_seq h
  obtain ⟨place, h⟩ := head_plus h
  obtain ⟨mid, -, h⟩ := head_seq h
  exact head_times_one h

/-- A longer local part matches as well. -/
theorem email_cons {c : Char} (hc : isLocalPart c = true) {b' : Option Char}
    (hmatch : EMAIL_RE.Matches b xs post) : EMAIL_RE.Matches b' (c :: xs) post := by
  have hnext : EMAIL_RE.Matches (some c) xs post := plain_email.matches hmatch
  obtain ⟨ys, zs, hxs, hys, hzs⟩ := hnext
  refine ⟨c :: ys, zs, congrArg (c :: ·) hxs, matches_plus.2 ⟨List.cons_ne_nil c ys, ?_⟩, hzs⟩
  intro d hd
  rcases List.mem_cons.1 hd with rfl | hd
  · exact hc
  · exact (matches_plus.1 hys).2 d hd

theorem cut_email {rest : List Char} (hmatch : EMAIL_RE.Matches b xs rest)
    (hstart : b.any isWordChar = true → xs.head?.any isWordChar = false)
    (hstop : rest.head?.any isDomainPart = false) : Cut b xs rest REDACTED_EMAIL := by
  have hword := word_email hmatch
  have hhead : ∀ c, xs.head? = some c → isAddressChar c = true :=
    fun c hc => within_email.matches hmatch c (List.mem_of_mem_head? hc)
  refine ⟨hword.ne_nil,
    ⟨[], "redacted-email".toList, .inl rfl, by decide, List.all_eq_true.1 (by decide)⟩, hstart,
    fun hnext => ?_, fun _ c hc => ?_, fun h => (isAddressChar_ne (hhead _ h)).1 rfl, ?_⟩
  · rw [any_wordChar_of_domainPart hstop] at hnext
    cases hnext
  · exact ⟨(isAddressChar_ne (hhead c hc)).2.2.2, isAddressChar_not_white (hhead c hc)⟩
  · have hself := @inMarker_of_word xs [] rest hword.closing hword.unmarked
    rwa [List.append_nil] at hself

theorem redacts_email (text : List Char) :
    Redacts (fun b text _ => EMAIL_RE.NoMatch b text) none text
      (EMAIL_RE.replaceAll (fun _ => REDACTED_EMAIL) text) := by
  -- After a character of a local part, no address begins with a word character.
  refine Regex.rewrites_replaceFrom consuming_email
    (fun b text => b.any isLocalPart = true → ∀ xs post, text = xs ++ post →
      EMAIL_RE.Matches b xs post → xs.head?.any isWordChar = false) ?_ ?_ (Nat.le_refl _) ?_
  · intro b c rest _ hno hlocal xs post htext hmatch
    exact absurd (email_cons hlocal hmatch) (hno _ _ (congrArg (c :: ·) htext))
  · intro b m rest hinv hmatch hhead
    have hstop := head_email hhead
    have hword := word_email hmatch
    refine ⟨hword.ne_nil, cut_email hmatch (fun hb => hinv ?_ m rest rfl hmatch) hstop, ?_⟩
    · cases b with
      | none => cases hb
      | some l => exact Bool.or_eq_true_iff.2 (.inl hb)
    · intro _ xs post htext hnext
      have hsame : rest.head? = xs.head? := by
        rw [htext, List.head?_append_of_ne_nil _ (word_email hnext).ne_nil]
      rw [← hsame]
      exact any_wordChar_of_domainPart hstop
  · exact fun hnone => by cases hnone

end

end Orchestration.Issues
