import Orchestration.Js.Regex
import Mathlib.Data.List.Forall2

/-!
# What a regular expression matches

Backtracking finds ends in an order. Which ends it finds is said without it: a pattern matches a
piece of text, given the character before it and the text after it.
-/

namespace Js

/-- The last character of `b` followed by `xs`. -/
def lastOf : Option Char → List Char → Option Char
  | b, [] => b
  | _, c :: xs => lastOf (some c) xs

@[simp] theorem lastOf_nil (b : Option Char) : lastOf b [] = b := rfl

@[simp] theorem lastOf_cons (b : Option Char) (c : Char) (xs : List Char) :
    lastOf b (c :: xs) = lastOf (some c) xs := rfl

@[simp] theorem lastOf_append (b : Option Char) (xs ys : List Char) :
    lastOf b (xs ++ ys) = lastOf (lastOf b xs) ys := by
  induction xs generalizing b with
  | nil => rfl
  | cons c xs ih => exact ih (some c)

theorem lastOf_of_ne_nil {xs : List Char} (h : xs ≠ []) (b b' : Option Char) :
    lastOf b xs = lastOf b' xs := by
  cases xs with
  | nil => exact absurd rfl h
  | cons c xs => rfl

theorem lastOf_mem {xs : List Char} (h : xs ≠ []) (b : Option Char) :
    ∃ c ∈ xs, lastOf b xs = some c := by
  induction xs generalizing b with
  | nil => exact absurd rfl h
  | cons c xs ih =>
    rcases List.eq_nil_or_concat xs with rfl | hne
    · exact ⟨c, List.mem_cons_self, rfl⟩
    · obtain ⟨ys, y, rfl⟩ := hne
      obtain ⟨d, hd, hlast⟩ := ih (by simp) (some c)
      exact ⟨d, List.mem_cons_of_mem _ hd, hlast⟩

/-- One match after the other, `n` of them. -/
def Repeats (R : Option Char → List Char → List Char → Prop) :
    ℕ → Option Char → List Char → List Char → Prop
  | 0, _, xs, _ => xs = []
  | n + 1, b, xs, post =>
    ∃ ys zs, xs = ys ++ zs ∧ R b ys (zs ++ post) ∧ Repeats R n (lastOf b ys) zs post

/-- The pattern matches `xs` between the character `b` and the text `post`. -/
def Regex.Matches : Regex → Option Char → List Char → List Char → Prop
  | .one matchesClass, _, xs, _ => ∃ c, xs = [c] ∧ matchesClass c = true
  | .seq first rest, b, xs, post =>
    ∃ ys zs, xs = ys ++ zs ∧ first.Matches b ys (zs ++ post) ∧ rest.Matches (lastOf b ys) zs post
  | .alt first other, b, xs, post => first.Matches b xs post ∨ other.Matches b xs post
  | .times least most _ body, b, xs, post =>
    ∃ n, least ≤ n ∧ (∀ m, most = some m → n ≤ least + (m - least)) ∧
      Repeats body.Matches n b xs post
  | .boundary isWord, b, xs, post => xs = [] ∧ (b.any isWord != post.head?.any isWord) = true
  | .notAhead body, b, xs, post => xs = [] ∧ ∀ ys zs, post = ys ++ zs → ¬ body.Matches b ys zs

/-- No repeated body matches nothing. -/
def Regex.Consuming : Regex → Prop
  | .one _ | .boundary _ => True
  | .seq first rest => first.Consuming ∧ rest.Consuming
  | .alt first other => first.Consuming ∧ other.Consuming
  | .times _ _ _ body => body.Consuming ∧ ∀ b post, ¬ body.Matches b [] post
  | .notAhead body => body.Consuming

/-! ## Backtracking finds the matches -/

/-- `n` steps lead from one place to the other. -/
def Reaches (step : Cursor → List Cursor) : ℕ → Cursor → Cursor → Prop
  | 0, at', stop => at' = stop
  | n + 1, at', stop => ∃ mid ∈ step at', Reaches step n mid stop

theorem mem_upTo {step : Cursor → List Cursor} {reluctant : Bool} {more : ℕ} {at' stop : Cursor} :
    stop ∈ upTo step reluctant more at' ↔ ∃ n ≤ more, Reaches step n at' stop := by
  induction more generalizing at' with
  | zero =>
    rw [upTo, List.mem_singleton]
    constructor
    · rintro rfl
      exact ⟨0, Nat.le_refl _, rfl⟩
    · rintro ⟨n, hn, hreaches⟩
      obtain rfl := Nat.le_zero.1 hn
      exact hreaches.symm
  | succ more ih =>
    have hmem : stop ∈ upTo step reluctant (more + 1) at' ↔
        stop = at' ∨ ∃ mid ∈ step at', stop ∈ upTo step reluctant more mid := by
      rw [upTo]
      cases reluctant
      · simp only [Bool.false_eq_true, if_false, List.mem_append, List.mem_flatMap,
          List.mem_singleton]
        exact Or.comm
      · simp only [if_true, List.mem_cons, List.mem_flatMap]
    rw [hmem]
    constructor
    · rintro (rfl | ⟨mid, hmid, hstop⟩)
      · exact ⟨0, Nat.zero_le _, rfl⟩
      · obtain ⟨n, hn, hreaches⟩ := ih.1 hstop
        exact ⟨n + 1, Nat.succ_le_succ hn, mid, hmid, hreaches⟩
    · rintro ⟨n, hn, hreaches⟩
      cases n with
      | zero => exact .inl hreaches.symm
      | succ n =>
        obtain ⟨mid, hmid, hrest⟩ := hreaches
        exact .inr ⟨mid, hmid, ih.2 ⟨n, Nat.le_of_succ_le_succ hn, hrest⟩⟩

theorem mem_repeated {step : Cursor → List Cursor} {reluctant : Bool} {more least : ℕ}
    {at' stop : Cursor} : stop ∈ repeated step reluctant more least at' ↔
      ∃ n, least ≤ n ∧ n ≤ least + more ∧ Reaches step n at' stop := by
  induction least generalizing at' with
  | zero => simp [repeated, mem_upTo]
  | succ least ih =>
    rw [repeated, List.mem_flatMap]
    constructor
    · rintro ⟨mid, hmid, hstop⟩
      obtain ⟨n, hleast, hmost, hreaches⟩ := ih.1 hstop
      exact ⟨n + 1, by omega, by omega, mid, hmid, hreaches⟩
    · rintro ⟨n, hleast, hmost, hreaches⟩
      cases n with
      | zero => omega
      | succ n =>
        obtain ⟨mid, hmid, hrest⟩ := hreaches
        exact ⟨mid, hmid, ih.2 ⟨n, by omega, by omega, hrest⟩⟩

/-- The places found are the ends of the matches. -/
def Finds (step : Cursor → List Cursor) (R : Option Char → List Char → List Char → Prop) : Prop :=
  ∀ b text stop, stop ∈ step ⟨b, text⟩ ↔
    ∃ xs post, text = xs ++ post ∧ stop = ⟨lastOf b xs, post⟩ ∧ R b xs post

theorem reaches_iff {step : Cursor → List Cursor} {R : Option Char → List Char → List Char → Prop}
    (h : Finds step R) {n : ℕ} {b : Option Char} {text : List Char} {stop : Cursor} :
    Reaches step n ⟨b, text⟩ stop ↔
      ∃ xs post, text = xs ++ post ∧ stop = ⟨lastOf b xs, post⟩ ∧ Repeats R n b xs post := by
  induction n generalizing b text with
  | zero =>
    constructor
    · rintro rfl
      exact ⟨[], text, rfl, rfl, rfl⟩
    · rintro ⟨xs, post, rfl, rfl, rfl⟩
      rfl
  | succ n ih =>
    constructor
    · rintro ⟨mid, hmid, hrest⟩
      obtain ⟨ys, more, rfl, rfl, hys⟩ := (h _ _ _).1 hmid
      obtain ⟨zs, post, rfl, rfl, hzs⟩ := ih.1 hrest
      exact ⟨ys ++ zs, post, (List.append_assoc ..).symm, by rw [lastOf_append],
        ys, zs, rfl, hys, hzs⟩
    · rintro ⟨xs, post, rfl, rfl, ys, zs, rfl, hys, hzs⟩
      refine ⟨⟨lastOf b ys, zs ++ post⟩, (h _ _ _).2 ⟨ys, zs ++ post, ?_, rfl, hys⟩, ?_⟩
      · rw [List.append_assoc]
      · exact ih.2 ⟨zs, post, rfl, by rw [lastOf_append], hzs⟩

theorem length_of_repeats {R : Option Char → List Char → List Char → Prop}
    (h : ∀ b post, ¬ R b [] post) {n : ℕ} {b : Option Char} {xs post : List Char}
    (hrepeats : Repeats R n b xs post) : n ≤ xs.length := by
  induction n generalizing b xs with
  | zero => exact Nat.zero_le _
  | succ n ih =>
    obtain ⟨ys, zs, rfl, hys, hzs⟩ := hrepeats
    have hne : ys ≠ [] := by
      rintro rfl
      exact h _ _ hys
    have hlength := List.length_pos_of_ne_nil hne
    have := ih hzs
    rw [List.length_append]
    omega

/-- Backtracking finds exactly the matches. -/
theorem Regex.finds {r : Regex} (h : r.Consuming) : Finds r.ends r.Matches := by
  induction r with
  | one matchesClass =>
    intro b text stop
    cases text with
    | nil =>
      refine ⟨fun hmem => absurd hmem List.not_mem_nil, ?_⟩
      rintro ⟨xs, post, htext, -, c, rfl, -⟩
      cases htext
    | cons c rest =>
      rw [Regex.ends]
      constructor
      · intro hmem
        split at hmem
        · next hc => exact ⟨[c], rest, rfl, List.mem_singleton.1 hmem, c, rfl, hc⟩
        · cases hmem
      · rintro ⟨xs, post, htext, rfl, d, rfl, hd⟩
        obtain ⟨rfl, rfl⟩ := List.cons.inj htext
        rw [if_pos hd]
        exact List.mem_cons_self
  | seq first rest ihfirst ihrest =>
    intro b text stop
    rw [Regex.ends, List.mem_flatMap]
    constructor
    · rintro ⟨mid, hmid, hstop⟩
      obtain ⟨ys, more, rfl, rfl, hys⟩ := (ihfirst h.1 _ _ _).1 hmid
      obtain ⟨zs, post, rfl, rfl, hzs⟩ := (ihrest h.2 _ _ _).1 hstop
      exact ⟨ys ++ zs, post, (List.append_assoc ..).symm, by rw [lastOf_append],
        ys, zs, rfl, hys, hzs⟩
    · rintro ⟨xs, post, rfl, rfl, ys, zs, rfl, hys, hzs⟩
      refine ⟨⟨lastOf b ys, zs ++ post⟩, (ihfirst h.1 _ _ _).2 ⟨ys, zs ++ post, ?_, rfl, hys⟩, ?_⟩
      · rw [List.append_assoc]
      · exact (ihrest h.2 _ _ _).2 ⟨zs, post, rfl, by rw [lastOf_append], hzs⟩
  | alt first other ihfirst ihother =>
    intro b text stop
    rw [Regex.ends, List.mem_append, ihfirst h.1, ihother h.2]
    constructor
    · rintro (⟨xs, post, htext, hstop, hxs⟩ | ⟨xs, post, htext, hstop, hxs⟩)
      · exact ⟨xs, post, htext, hstop, .inl hxs⟩
      · exact ⟨xs, post, htext, hstop, .inr hxs⟩
    · rintro ⟨xs, post, htext, hstop, hxs | hxs⟩
      · exact .inl ⟨xs, post, htext, hstop, hxs⟩
      · exact .inr ⟨xs, post, htext, hstop, hxs⟩
  | times least most reluctant body ih =>
    intro b text stop
    obtain ⟨more, hmost, hmore, hends⟩ : ∃ more, (∀ m, most = some m → more = m - least) ∧
        (most = none → more = text.length) ∧
        (Regex.times least most reluctant body).ends ⟨b, text⟩ =
          repeated body.ends reluctant more least ⟨b, text⟩ := by
      cases most with
      | some m => exact ⟨m - least, fun _ hm => by cases hm; rfl, fun hm => (by cases hm), rfl⟩
      | none => exact ⟨text.length, fun _ hm => (by cases hm), fun _ => rfl, rfl⟩
    rw [hends, mem_repeated]
    simp only [reaches_iff (ih h.1)]
    constructor
    · rintro ⟨n, hleast, hn, xs, post, htext, hstop, hrepeats⟩
      exact ⟨xs, post, htext, hstop, n, hleast, fun m hm => hmost m hm ▸ hn, hrepeats⟩
    · rintro ⟨xs, post, htext, hstop, n, hleast, hn, hrepeats⟩
      refine ⟨n, hleast, ?_, xs, post, htext, hstop, hrepeats⟩
      cases hcap : most with
      | some m => exact hmost m hcap ▸ hn m hcap
      | none =>
        have hlength := length_of_repeats h.2 hrepeats
        have htotal : text.length = xs.length + post.length := by rw [htext, List.length_append]
        have := hmore hcap
        omega
  | boundary isWord =>
    intro b text stop
    rw [Regex.ends]
    constructor
    · intro hmem
      split at hmem
      · next hedge => exact ⟨[], text, rfl, List.mem_singleton.1 hmem, rfl, hedge⟩
      · cases hmem
    · rintro ⟨xs, post, rfl, rfl, rfl, hedge⟩
      exact List.mem_of_mem_head? (congrArg List.head? (if_pos hedge))
  | notAhead body ih =>
    intro b text stop
    rw [Regex.ends]
    have hnone : body.ends ⟨b, text⟩ = [] ↔
        ∀ ys zs, text = ys ++ zs → ¬ body.Matches b ys zs := by
      rw [List.eq_nil_iff_forall_not_mem]
      constructor
      · intro hno ys zs htext hbody
        exact hno _ ((ih h _ _ _).2 ⟨ys, zs, htext, rfl, hbody⟩)
      · intro hno place hplace
        obtain ⟨ys, zs, htext, -, hbody⟩ := (ih h _ _ _).1 hplace
        exact hno ys zs htext hbody
    constructor
    · intro hmem
      split at hmem
      · next hempty => exact ⟨[], text, rfl, List.mem_singleton.1 hmem, rfl, hnone.1 hempty⟩
      · cases hmem
    · rintro ⟨xs, post, rfl, rfl, rfl, hno⟩
      rw [if_pos (hnone.2 hno)]
      exact List.mem_cons_self

/-! ## Texts without a match -/

/-- No match starts here. -/
def Regex.NoMatch (r : Regex) (b : Option Char) (text : List Char) : Prop :=
  ∀ xs post, text = xs ++ post → ¬ r.Matches b xs post

/-- No match starts anywhere. -/
def Regex.Free (r : Regex) : Option Char → List Char → Prop
  | _, [] => True
  | b, c :: rest => r.NoMatch b (c :: rest) ∧ r.Free (some c) rest

theorem Regex.ends_eq_nil_iff {r : Regex} (h : r.Consuming) {b : Option Char} {text : List Char} :
    r.ends ⟨b, text⟩ = [] ↔ r.NoMatch b text := by
  rw [List.eq_nil_iff_forall_not_mem]
  constructor
  · intro hno xs post htext hmatch
    exact hno _ ((Regex.finds h _ _ _).2 ⟨xs, post, htext, rfl, hmatch⟩)
  · intro hno stop hstop
    obtain ⟨xs, post, htext, -, hmatch⟩ := (Regex.finds h _ _ _).1 hstop
    exact hno xs post htext hmatch

theorem Regex.Free.drop {r : Regex} {b : Option Char} {xs rest : List Char}
    (h : r.Free b (xs ++ rest)) : r.Free (lastOf b xs) rest := by
  induction xs generalizing b with
  | nil => exact h
  | cons c xs ih => exact ih h.2

/-- Where nothing matches, nothing is replaced. -/
theorem Regex.replaceFrom_of_free {r : Regex} (hr : r.Consuming)
    {replacer : List Char → List Char} {b : Option Char} {text : List Char} (h : r.Free b text)
    (n : ℕ) : r.replaceFrom replacer n ⟨b, text⟩ = text := by
  induction text generalizing b n with
  | nil => cases n <;> rfl
  | cons c rest ih =>
    cases n with
    | zero => rfl
    | succ n =>
      rw [Regex.replaceFrom, (Regex.ends_eq_nil_iff hr).2 h.1]
      exact congrArg (c :: ·) (ih h.2 n)

/-! ## Rewriting -/

/-- A text is rewritten from left to right: a character is kept, or a piece is cut and something
else stands in its place. The first argument is the character before the text. -/
inductive Rewrites (Kept : Option Char → List Char → List Char → Prop)
    (Cut : Option Char → List Char → List Char → List Char → Prop) :
    Option Char → List Char → List Char → Prop where
  | nil (b : Option Char) : Rewrites Kept Cut b [] []
  | keep {b : Option Char} {c : Char} {rest out : List Char}
      (hkept : Kept b (c :: rest) (c :: out)) (h : Rewrites Kept Cut (some c) rest out) :
      Rewrites Kept Cut b (c :: rest) (c :: out)
  | cut {b : Option Char} {m rest r out : List Char} (hcut : Cut b m rest r)
      (h : Rewrites Kept Cut (lastOf b m) rest out) : Rewrites Kept Cut b (m ++ rest) (r ++ out)

/-- Replacing the matches is such a rewriting. What is known of every place reached, `Inv`, may
depend on how it was reached. -/
theorem Regex.rewrites_replaceFrom {r : Regex} (hr : r.Consuming)
    {replacer : List Char → List Char} (Inv : Option Char → List Char → Prop)
    {Cut : Option Char → List Char → List Char → List Char → Prop}
    (hkeep : ∀ b c rest, Inv b (c :: rest) → r.NoMatch b (c :: rest) → Inv (some c) rest)
    (hcut : ∀ b m rest, Inv b (m ++ rest) → r.Matches b m rest →
      (r.ends ⟨b, m ++ rest⟩).head? = some ⟨lastOf b m, rest⟩ →
        m ≠ [] ∧ Cut b m rest (replacer m) ∧ Inv (lastOf b m) rest)
    {n : ℕ} {b : Option Char} {text : List Char} (hn : text.length ≤ n) (hinv : Inv b text) :
    Rewrites (fun b text _ => r.NoMatch b text) Cut b text
      (r.replaceFrom replacer n ⟨b, text⟩) := by
  induction n generalizing b text with
  | zero =>
    obtain rfl := List.length_eq_zero_iff.1 (Nat.le_zero.1 hn)
    exact .nil b
  | succ n ih =>
    cases text with
    | nil => exact .nil b
    | cons c rest =>
      rw [List.length_cons] at hn
      cases hends : r.ends ⟨b, c :: rest⟩ with
      | nil =>
        have hno := (Regex.ends_eq_nil_iff hr).1 hends
        rw [Regex.replaceFrom, hends]
        exact .keep hno (ih (by omega) (hkeep b c rest hinv hno))
      | cons stop stops =>
        have hmem : stop ∈ r.ends ⟨b, c :: rest⟩ := hends ▸ List.mem_cons_self
        obtain ⟨m, post, htext, rfl, hmatch⟩ := (Regex.finds hr _ _ _).1 hmem
        have hhead : (r.ends ⟨b, m ++ post⟩).head? = some ⟨lastOf b m, post⟩ := by
          rw [← htext, hends]
          rfl
        obtain ⟨hne, hcuts, hnext⟩ := hcut b m post (htext ▸ hinv) hmatch hhead
        have hlength : rest.length + 1 = m.length + post.length := by
          rw [← List.length_cons (a := c), htext, List.length_append]
        have htake : (c :: rest).take (rest.length + 1 - post.length) = m := by
          rw [hlength, Nat.add_sub_cancel, htext, List.take_left]
        have hpos := List.length_pos_of_ne_nil hne
        rw [Regex.replaceFrom, hends]
        simp only
        rw [htake, htext]
        exact .cut hcuts (ih (by omega) hnext)

section

variable {Kept Kept' : Option Char → List Char → List Char → Prop}
  {Cut : Option Char → List Char → List Char → List Char → Prop} {b : Option Char}
  {text out : List Char}

theorem Rewrites.mono (h : Rewrites Kept Cut b text out)
    (hkept : ∀ b text out, Kept b text out → Kept' b text out) :
    Rewrites Kept' Cut b text out := by
  induction h with
  | nil b => exact .nil b
  | keep hk _ ih => exact .keep (hkept _ _ _ hk) ih
  | cut hcut _ ih => exact .cut hcut ih

/-- Where a pattern matches nowhere, no place that is kept is a match of it. -/
theorem Rewrites.free (h : Rewrites Kept Cut b text out) {q : Regex} (hq : q.Free b text) :
    Rewrites (fun b text _ => q.NoMatch b text) Cut b text out := by
  induction h with
  | nil b => exact .nil b
  | keep _ _ ih => exact .keep hq.1 (ih hq.2)
  | cut hcut _ ih => exact .cut hcut (ih hq.drop)

end

/-! ## Building blocks -/

section

variable {b : Option Char} {xs post : List Char} {f : Char → Bool}

theorem repeats_one {n : ℕ} :
    Repeats (Regex.Matches (.one f)) n b xs post ↔ xs.length = n ∧ ∀ c ∈ xs, f c = true := by
  induction n generalizing b xs with
  | zero =>
    rw [Repeats, List.length_eq_zero_iff]
    constructor
    · rintro rfl
      exact ⟨rfl, fun c hc => absurd hc List.not_mem_nil⟩
    · exact And.left
  | succ n ih =>
    constructor
    · rintro ⟨_, zs, rfl, ⟨c, rfl, hc⟩, hrest⟩
      obtain ⟨hlength, hall⟩ := ih.1 hrest
      refine ⟨by simp [hlength], fun d hd => ?_⟩
      rcases List.mem_cons.1 hd with rfl | hd
      · exact hc
      · exact hall d hd
    · rintro ⟨hlength, hall⟩
      cases xs with
      | nil => cases hlength
      | cons c xs =>
        exact ⟨[c], xs, rfl, ⟨c, rfl, hall c List.mem_cons_self⟩,
          ih.2 ⟨Nat.succ.inj hlength, fun d hd => hall d (List.mem_cons_of_mem _ hd)⟩⟩

theorem matches_times_one {least : ℕ} {most : Option ℕ} {reluctant : Bool} :
    (Regex.times least most reluctant (.one f)).Matches b xs post ↔
      least ≤ xs.length ∧ (∀ m, most = some m → xs.length ≤ least + (m - least)) ∧
        ∀ c ∈ xs, f c = true := by
  rw [Regex.Matches]
  simp only [repeats_one]
  constructor
  · rintro ⟨n, hleast, hmost, rfl, hall⟩
    exact ⟨hleast, hmost, hall⟩
  · rintro ⟨hleast, hmost, hall⟩
    exact ⟨_, hleast, hmost, rfl, hall⟩

theorem consuming_times_one {least : ℕ} {most : Option ℕ} {reluctant : Bool} :
    (Regex.times least most reluctant (.one f)).Consuming := by
  refine ⟨trivial, fun b post => ?_⟩
  rintro ⟨c, hc, -⟩
  cases hc

theorem matches_plus : (Regex.plus (.one f)).Matches b xs post ↔
    xs ≠ [] ∧ ∀ c ∈ xs, f c = true := by
  rw [Regex.plus, matches_times_one]
  simp [Nat.one_le_iff_ne_zero]

theorem matches_star : (Regex.star (.one f)).Matches b xs post ↔ ∀ c ∈ xs, f c = true := by
  rw [Regex.star, matches_times_one]
  simp

theorem matches_atLeast {n : ℕ} : (Regex.atLeast n (.one f)).Matches b xs post ↔
    n ≤ xs.length ∧ ∀ c ∈ xs, f c = true := by
  rw [Regex.atLeast, matches_times_one]
  simp

theorem matches_exactly {n : ℕ} : (Regex.exactly n (.one f)).Matches b xs post ↔
    xs.length = n ∧ ∀ c ∈ xs, f c = true := by
  rw [Regex.exactly, matches_times_one]
  simp only [Option.some.injEq, forall_eq', Nat.sub_self, Nat.add_zero]
  rw [← and_assoc, and_comm (a := n ≤ _), ← Nat.le_antisymm_iff]

/-- A chain of classes matches character by character. -/
theorem matches_foldr_seq {classOf : Char → Char → Bool} {cs : List Char} {r : Regex} :
    (cs.foldr (fun c rest => .seq (.one (classOf c)) rest) r).Matches b xs post ↔
      ∃ ys zs, xs = ys ++ zs ∧ List.Forall₂ (fun c d => classOf c d = true) cs ys ∧
        r.Matches (lastOf b ys) zs post := by
  induction cs generalizing b xs with
  | nil =>
    constructor
    · intro h
      exact ⟨[], xs, rfl, .nil, h⟩
    · rintro ⟨ys, zs, rfl, hys, h⟩
      cases hys
      exact h
  | cons c cs ih =>
    constructor
    · rintro ⟨_, rest, rfl, ⟨d, rfl, hd⟩, h⟩
      obtain ⟨ys, zs, rfl, hys, hr⟩ := ih.1 h
      exact ⟨d :: ys, zs, rfl, .cons hd hys, hr⟩
    · rintro ⟨_, zs, rfl, hys, h⟩
      cases hys with
      | @cons _ d _ ys hd hys => exact ⟨[d], ys ++ zs, rfl, ⟨d, rfl, hd⟩, ih.2 ⟨ys, zs, rfl, hys, h⟩⟩

theorem consuming_foldr_seq {classOf : Char → Char → Bool} {cs : List Char} {r : Regex}
    (h : r.Consuming) :
    (cs.foldr (fun c rest => .seq (.one (classOf c)) rest) r).Consuming := by
  induction cs with
  | nil => exact h
  | cons c cs ih => exact ⟨trivial, ih⟩

/-- The chain of the classes of a text, as it is built from its last character. -/
theorem matches_chain {classOf : Char → Char → Bool} {last : Char} {start cs : List Char}
    (hcs : cs.reverse = last :: start) :
    (start.foldl (fun rest c => Regex.seq (.one (classOf c)) rest) (.one (classOf last))).Matches
      b xs post ↔ List.Forall₂ (fun c d => classOf c d = true) cs xs := by
  obtain rfl : cs = start.reverse ++ [last] := by
    rw [← List.reverse_reverse cs, hcs, List.reverse_cons]
  rw [← List.foldr_reverse, matches_foldr_seq]
  constructor
  · rintro ⟨ys, _, rfl, hys, d, rfl, hd⟩
    exact List.rel_append hys (.cons hd .nil)
  · intro h
    have hfirst := List.forall₂_take start.reverse.length h
    have hrest := List.forall₂_drop start.reverse.length h
    rw [List.take_left] at hfirst
    rw [List.drop_left] at hrest
    refine ⟨_, _, (List.take_append_drop start.reverse.length xs).symm, hfirst, ?_⟩
    obtain ⟨d, ds, hd, hnil, hdrop⟩ := List.forall₂_cons_left_iff.1 hrest
    obtain rfl := List.forall₂_nil_left_iff.1 hnil
    exact ⟨d, hdrop, hd⟩

theorem consuming_chain {classOf : Char → Char → Bool} {last : Char} {start : List Char} :
    (start.foldl (fun rest c => Regex.seq (.one (classOf c)) rest)
      (.one (classOf last))).Consuming := by
  rw [← List.foldr_reverse]
  exact consuming_foldr_seq trivial

theorem matches_literally {text : String} :
    (Regex.literally text).Matches b xs post ↔ xs = text.toList := by
  rw [Regex.literally]
  cases h : text.toList.reverse with
  | nil =>
    rw [List.reverse_eq_nil_iff.1 h]
    simp only [matches_times_one]
    constructor
    · rintro ⟨-, hmost, -⟩
      exact List.length_eq_zero_iff.1 (Nat.le_zero.1 (hmost 0 rfl))
    · rintro rfl
      simp
  | cons last start =>
    have hsame : ∀ cs ys : List Char,
        List.Forall₂ (fun c d : Char => decide (d = c) = true) cs ys ↔ ys = cs := by
      intro cs ys
      simp only [decide_eq_true_eq]
      constructor
      · intro hrel
        induction hrel with
        | nil => rfl
        | cons hd _ ih => rw [hd, ih]
      · rintro rfl
        exact List.forall₂_same.2 fun _ _ => rfl
    exact (matches_chain h).trans (hsame _ _)

theorem consuming_literally {text : String} : (Regex.literally text).Consuming := by
  rw [Regex.literally]
  cases text.toList.reverse with
  | nil => exact consuming_times_one
  | cons last start => exact consuming_chain

end

/-! ## Classes of patterns -/

/-- The pattern looks neither behind nor ahead. -/
def Regex.Plain : Regex → Prop
  | .one _ => True
  | .seq first rest => first.Plain ∧ rest.Plain
  | .alt first other => first.Plain ∧ other.Plain
  | .times _ _ _ body => body.Plain
  | .boundary _ | .notAhead _ => False

/-- Whatever the pattern matches consists of such characters. -/
def Regex.Within (P : Char → Prop) : Regex → Prop
  | .one matchesClass => ∀ c, matchesClass c = true → P c
  | .seq first rest => first.Within P ∧ rest.Within P
  | .alt first other => first.Within P ∧ other.Within P
  | .times _ _ _ body => body.Within P
  | .boundary _ | .notAhead _ => True

/-- What a plain pattern matches, it matches anywhere. -/
theorem Regex.Plain.matches {r : Regex} (h : r.Plain) {b b' : Option Char}
    {xs post post' : List Char} (hmatch : r.Matches b xs post) : r.Matches b' xs post' := by
  induction r generalizing b b' xs post post' with
  | one _ => exact hmatch
  | seq first rest ihfirst ihrest =>
    obtain ⟨ys, zs, rfl, hys, hzs⟩ := hmatch
    exact ⟨ys, zs, rfl, ihfirst h.1 hys, ihrest h.2 hzs⟩
  | alt first other ihfirst ihother =>
    rcases hmatch with hfirst | hother
    · exact .inl (ihfirst h.1 hfirst)
    · exact .inr (ihother h.2 hother)
  | times least most reluctant body ih =>
    obtain ⟨n, hleast, hmost, hrepeats⟩ := hmatch
    refine ⟨n, hleast, hmost, ?_⟩
    clear hleast hmost
    induction n generalizing b b' xs with
    | zero => exact hrepeats
    | succ n ihn =>
      obtain ⟨ys, zs, rfl, hys, hzs⟩ := hrepeats
      exact ⟨ys, zs, rfl, ih h hys, ihn hzs⟩
  | boundary _ => exact h.elim
  | notAhead _ => exact h.elim

theorem Regex.Within.matches {P : Char → Prop} {r : Regex} (h : r.Within P) {b : Option Char}
    {xs post : List Char} (hmatch : r.Matches b xs post) : ∀ c ∈ xs, P c := by
  induction r generalizing b xs post with
  | one _ =>
    obtain ⟨c, rfl, hc⟩ := hmatch
    intro d hd
    rw [List.mem_singleton.1 hd]
    exact h c hc
  | seq first rest ihfirst ihrest =>
    obtain ⟨ys, zs, rfl, hys, hzs⟩ := hmatch
    intro c hc
    rcases List.mem_append.1 hc with hc | hc
    · exact ihfirst h.1 hys c hc
    · exact ihrest h.2 hzs c hc
  | alt first other ihfirst ihother =>
    rcases hmatch with hfirst | hother
    · exact ihfirst h.1 hfirst
    · exact ihother h.2 hother
  | times least most reluctant body ih =>
    obtain ⟨n, -, -, hrepeats⟩ := hmatch
    induction n generalizing b xs with
    | zero =>
      rw [Repeats] at hrepeats
      rw [hrepeats]
      exact fun c hc => absurd hc List.not_mem_nil
    | succ n ihn =>
      obtain ⟨ys, zs, rfl, hys, hzs⟩ := hrepeats
      intro c hc
      rcases List.mem_append.1 hc with hc | hc
      · exact ih h hys c hc
      · exact ihn hzs c hc
  | boundary _ =>
    rw [hmatch.1]
    exact fun c hc => absurd hc List.not_mem_nil
  | notAhead _ =>
    rw [hmatch.1]
    exact fun c hc => absurd hc List.not_mem_nil

theorem plain_chain {classOf : Char → Char → Bool} {last : Char} {start : List Char} :
    (start.foldl (fun rest c => Regex.seq (.one (classOf c)) rest) (.one (classOf last))).Plain := by
  have hplain : ∀ (start : List Char) (r : Regex), r.Plain →
      (start.foldl (fun rest c => Regex.seq (.one (classOf c)) rest) r).Plain := by
    intro start
    induction start with
    | nil => exact fun r hr => hr
    | cons c start ih => exact fun r hr => ih _ ⟨trivial, hr⟩
  exact hplain start _ trivial

theorem plain_literally {text : String} : (Regex.literally text).Plain := by
  rw [Regex.literally]
  cases text.toList.reverse with
  | nil => trivial
  | cons last start => exact plain_chain

theorem within_chain {P : Char → Prop} {classOf : Char → Char → Bool} {last : Char}
    {start : List Char} (h : ∀ c ∈ last :: start, ∀ d, classOf c d = true → P d) :
    (start.foldl (fun rest c => Regex.seq (.one (classOf c)) rest)
      (.one (classOf last))).Within P := by
  have hwithin : ∀ (start : List Char) (r : Regex), r.Within P →
      (∀ c ∈ start, ∀ d, classOf c d = true → P d) →
        (start.foldl (fun rest c => Regex.seq (.one (classOf c)) rest) r).Within P := by
    intro start
    induction start with
    | nil => exact fun r hr _ => hr
    | cons c start ih =>
      intro r hr hall
      exact ih _ ⟨hall c List.mem_cons_self, hr⟩ fun d hd => hall d (List.mem_cons_of_mem _ hd)
  exact hwithin start _ (h last List.mem_cons_self) fun c hc => h c (List.mem_cons_of_mem _ hc)

theorem within_literally {P : Char → Prop} {text : String} (h : ∀ c ∈ text.toList, P c) :
    (Regex.literally text).Within P := by
  rw [Regex.literally]
  cases hcs : text.toList.reverse with
  | nil => exact fun c hc => by cases hc
  | cons last start =>
    refine within_chain fun c hc d hd => ?_
    rw [of_decide_eq_true hd]
    exact h c (List.mem_reverse.1 (hcs ▸ hc))

theorem matches_seq_assoc {p q r : Regex} {b : Option Char} {xs post : List Char} :
    (Regex.seq p (.seq q r)).Matches b xs post ↔ (Regex.seq (.seq p q) r).Matches b xs post := by
  constructor
  · rintro ⟨us, _, rfl, hp, vs, ws, rfl, hq, hr⟩
    refine ⟨us ++ vs, ws, (List.append_assoc ..).symm, ⟨us, vs, rfl, ?_, hq⟩, ?_⟩
    · rwa [List.append_assoc] at hp
    · rwa [lastOf_append]
  · rintro ⟨_, ws, rfl, ⟨us, vs, rfl, hp, hq⟩, hr⟩
    refine ⟨us, vs ++ ws, List.append_assoc .., ?_, vs, ws, rfl, hq, ?_⟩
    · rwa [List.append_assoc]
    · rwa [lastOf_append] at hr

/-! ## The first match -/

section

variable {at' stop : Cursor}

theorem head_flatMap {α β : Type} {f : α → List β} {l : List α} {y : β}
    (h : (l.flatMap f).head? = some y) : ∃ x ∈ l, (f x).head? = some y := by
  induction l with
  | nil => cases h
  | cons x l ih =>
    rw [List.flatMap_cons] at h
    cases hx : f x with
    | nil =>
      rw [hx] at h
      obtain ⟨x', hx', hy⟩ := ih h
      exact ⟨x', List.mem_cons_of_mem _ hx', hy⟩
    | cons z zs =>
      rw [hx] at h
      exact ⟨x, List.mem_cons_self, by rw [hx]; exact h⟩

/-- If nothing in the list leads nowhere, the head comes from the head. -/
theorem head_flatMap_of_ne_nil {α β : Type} {f : α → List β} (hf : ∀ x, f x ≠ []) {l : List α}
    {y : β} (h : (l.flatMap f).head? = some y) : ∃ x, l.head? = some x ∧ (f x).head? = some y := by
  cases l with
  | nil => cases h
  | cons x l =>
    rw [List.flatMap_cons, List.head?_append] at h
    cases hx : (f x).head? with
    | none => exact absurd (List.head?_eq_none_iff.1 hx) (hf x)
    | some z =>
      rw [hx] at h
      exact ⟨x, rfl, hx.trans h⟩

theorem upTo_ne_nil (step : Cursor → List Cursor) (more : ℕ) {reluctant : Bool} (at' : Cursor) :
    upTo step reluctant more at' ≠ [] :=
  List.ne_nil_of_mem (mem_upTo.2 ⟨0, Nat.zero_le _, rfl⟩)

theorem head_seq {first rest : Regex} (h : ((Regex.seq first rest).ends at').head? = some stop) :
    ∃ mid ∈ first.ends at', (rest.ends mid).head? = some stop := head_flatMap h

/-- A class that is repeated greedily stops before a character outside of it, or at the end. -/
theorem head_upTo_one {f : Char → Bool} {more : ℕ} (hmore : at'.rest.length ≤ more)
    (h : (upTo (Regex.ends (.one f)) false more at').head? = some stop) :
    stop.rest.head?.any f = false := by
  induction more generalizing at' with
  | zero =>
    obtain rfl := Option.some.inj h
    rw [List.length_eq_zero_iff.1 (Nat.le_zero.1 hmore)]
    rfl
  | succ more ih =>
    rw [upTo] at h
    simp only [Bool.false_eq_true, if_false] at h
    obtain ⟨b, rest⟩ := at'
    cases rest with
    | nil =>
      obtain rfl := Option.some.inj h
      rfl
    | cons c rest =>
      rw [Regex.ends] at h
      split at h
      · next hc =>
        have hnext : (upTo (Regex.ends (.one f)) false more ⟨some c, rest⟩).head? = some stop := by
          rw [List.flatMap_cons, List.flatMap_nil, List.append_nil, List.head?_append] at h
          cases hhead : (upTo (Regex.ends (.one f)) false more ⟨some c, rest⟩).head? with
          | some first =>
            rw [hhead] at h
            exact h
          | none => exact absurd (List.head?_eq_none_iff.1 hhead) (upTo_ne_nil _ _ _)
        exact ih (Nat.le_of_succ_le_succ hmore) hnext
      · next hc =>
        obtain rfl := Option.some.inj h
        exact Bool.eq_false_iff.2 hc

theorem head_times_one {f : Char → Bool} {least : ℕ}
    (h : ((Regex.times least none false (.one f)).ends at').head? = some stop) :
    stop.rest.head?.any f = false := by
  have hrepeated : ∀ {least more : ℕ} {at' : Cursor}, at'.rest.length ≤ more →
      (repeated (Regex.ends (.one f)) false more least at').head? = some stop →
        stop.rest.head?.any f = false := by
    intro least
    induction least with
    | zero => exact head_upTo_one
    | succ least ih =>
      intro more at' hmore hhead
      obtain ⟨mid, hmid, hrest⟩ := head_flatMap hhead
      obtain ⟨xs, post, htext, rfl, -⟩ := (Regex.finds (r := .one f) trivial _ _ _).1 hmid
      rw [htext, List.length_append] at hmore
      have hle : post.length ≤ more := by omega
      exact ih hle hrest
  exact hrepeated (Nat.le_refl _) h

/-- The last round of a greedy repetition ends as its body does. -/
theorem head_plus {body : Regex} (h : ((Regex.plus body).ends at').head? = some stop) :
    ∃ place, (body.ends place).head? = some stop := by
  have hupTo : ∀ {more : ℕ} {at' : Cursor},
      (upTo body.ends false more at').head? = some stop →
        stop = at' ∨ ∃ place, (body.ends place).head? = some stop := by
    intro more
    induction more with
    | zero => exact fun hhead => .inl (Option.some.inj hhead).symm
    | succ more ih =>
      intro at' hhead
      rw [upTo] at hhead
      simp only [Bool.false_eq_true, if_false, List.head?_append] at hhead
      cases hlonger : ((body.ends at').flatMap (upTo body.ends false more)).head? with
      | none =>
        rw [hlonger] at hhead
        exact .inl (Option.some.inj hhead).symm
      | some first =>
        rw [hlonger] at hhead
        obtain rfl : first = stop := Option.some.inj hhead
        obtain ⟨mid, hmid, hrest⟩ := head_flatMap_of_ne_nil (upTo_ne_nil _ _) hlonger
        rcases ih hrest with rfl | hplace
        · exact .inr ⟨at', hmid⟩
        · exact .inr hplace
  have hround : ((body.ends at').flatMap (upTo body.ends false at'.rest.length)).head? =
      some stop := h
  obtain ⟨mid, hmid, hrest⟩ := head_flatMap_of_ne_nil (upTo_ne_nil _ _) hround
  rcases hupTo hrest with rfl | hplace
  · exact ⟨at', hmid⟩
  · exact hplace

end

end Js
