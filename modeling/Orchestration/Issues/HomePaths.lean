import Orchestration.Issues.CredentialShapes

/-!
# Home directories

A user name stands after the head of a home path. It is gone where the path stops there, or where
the marker follows.
-/

namespace Orchestration.Issues

open Js Js.Regex

/-- `/home/` or `/Users/`. -/
def IsHome (home : List Char) : Prop := home = "/home/".toList ∨ home = "/Users/".toList

/-- The characters of a user name. -/
def isNameChar (c : Char) : Bool := c ≠ '/' && !isStrWhiteSpace c

/-- No user name follows, or the marker does. -/
def Stopped (post : List Char) : Prop :=
  post.head?.any isNameChar = false ∨ ∃ more, post = REDACTED_PATH ++ more

/-- A cut of a home path and the user name in it. -/
def HomeCut (_b : Option Char) (m rest r : List Char) : Prop :=
  ∃ home name, IsHome home ∧ m = home ++ name ∧ name ≠ [] ∧ (∀ c ∈ name, isNameChar c = true) ∧
    r = home ++ REDACTED_PATH ∧ rest.head?.any isNameChar = false

section

variable {Kept : Option Char → List Char → List Char → Prop} {b b' : Option Char}
  {home xs post post' text out : List Char}

theorem home_cases (h : IsHome home) : ∃ name, home = '/' :: (name ++ ['/']) ∧ '/' ∉ name ∧
    name.all isNameChar = true ∧ '[' ∉ name ∧ ']' ∉ name := by
  rcases h with rfl | rfl
  · exact ⟨"home".toList, by decide, by decide, by decide, by decide, by decide⟩
  · exact ⟨"Users".toList, by decide, by decide, by decide, by decide, by decide⟩

theorem word_home (h : IsHome home) : Word home := by
  rcases h with rfl | rfl
  · exact ⟨by decide, by decide, ⟨'/', by decide, by decide⟩, by decide, by decide⟩
  · exact ⟨by decide, by decide, ⟨'/', by decide, by decide⟩, by decide, by decide⟩

theorem matches_home : HOME_PATH_RE.Matches b xs post ↔ ∃ home name, xs = home ++ name ∧
    IsHome home ∧ (name ≠ [] ∧ ∀ c ∈ name, isNameChar c = true) ∧
      ∀ more, name ++ post ≠ REDACTED_PATH ++ more := by
  have hparts : ∀ {root : List Char}, root = "home".toList ∨ root = "Users".toList →
      IsHome ("/".toList ++ (root ++ "/".toList)) := by
    rintro root (rfl | rfl)
    · exact .inl (by decide)
    · exact .inr (by decide)
  have hroot : ∀ {home : List Char}, IsHome home → ∃ root,
      (root = "home".toList ∨ root = "Users".toList) ∧
        home = "/".toList ++ (root ++ "/".toList) := by
    rintro home (rfl | rfl)
    · exact ⟨_, .inl rfl, by decide⟩
    · exact ⟨_, .inr rfl, by decide⟩
  constructor
  · rintro ⟨slash, _, rfl, hslash, root, _, rfl, hhome, slash', _, rfl, hslash', _, name, rfl,
      ⟨rfl, hahead⟩, hname⟩
    rw [matches_literally] at hslash hslash'
    have hhome' : root = "home".toList ∨ root = "Users".toList :=
      hhome.imp matches_literally.1 matches_literally.1
    refine ⟨slash ++ (root ++ slash'), name, ?_, ?_, matches_plus.1 hname, fun more hmarker => ?_⟩
    · simp only [List.append_assoc, List.nil_append]
    · rw [hslash, hslash']
      exact hparts hhome'
    · exact hahead REDACTED_PATH more hmarker (matches_literally.2 rfl)
  · rintro ⟨home, name, rfl, hhome, hname, hahead⟩
    obtain ⟨root, hroots, rfl⟩ := hroot hhome
    refine ⟨"/".toList, root ++ ("/".toList ++ name), ?_, matches_literally.2 rfl,
      root, "/".toList ++ name, rfl, hroots.imp matches_literally.2 matches_literally.2,
      "/".toList, name, rfl, matches_literally.2 rfl, [], name, rfl, ⟨rfl, ?_⟩,
      matches_plus.2 hname⟩
    · simp only [List.append_assoc]
    · intro ys zs hsplit hmarker
      rw [matches_literally.1 hmarker] at hsplit
      exact hahead zs hsplit

/-- Nothing matches where every home path is stopped. -/
theorem noMatch_home : HOME_PATH_RE.NoMatch b text ↔
    ∀ home post, IsHome home → text = home ++ post → Stopped post := by
  constructor
  · rintro hno home post hhome rfl
    refine Classical.byContradiction fun hrun => ?_
    rw [Stopped, not_or] at hrun
    obtain ⟨hname, hmarker⟩ := hrun
    cases post with
    | nil => exact hname rfl
    | cons c post =>
      refine hno (home ++ [c]) post (by rw [List.append_assoc]; rfl)
        (matches_home.2 ⟨home, [c], rfl, hhome, ⟨List.cons_ne_nil c [], fun d hd => ?_⟩, ?_⟩)
      · rw [List.mem_singleton.1 hd]
        exact Bool.not_eq_false _ ▸ hname
      · exact fun more heq => hmarker ⟨more, heq⟩
  · rintro hstopped xs post rfl hmatch
    obtain ⟨home, name, rfl, hhome, ⟨hne, hname⟩, hmarker⟩ := matches_home.1 hmatch
    rcases hstopped home (name ++ post) hhome (List.append_assoc ..) with hstop | ⟨more, hmore⟩
    · obtain ⟨c, name, rfl⟩ := List.exists_cons_of_ne_nil hne
      rw [List.cons_append, List.head?_cons, Option.any_some,
        hname c List.mem_cons_self] at hstop
      cases hstop
    · exact hmarker more hmore

theorem consuming_home : HOME_PATH_RE.Consuming :=
  ⟨consuming_literally, ⟨consuming_literally, consuming_literally⟩, consuming_literally,
    consuming_literally, consuming_times_one⟩

/-! ## The passes after it -/

/-- No cut begins inside of a marker. -/
theorem kept_marker {mark : List Char} (hmark : ∀ c ∈ mark, isMarkChar c = true)
    (h : Redacts Kept b (mark ++ ']' :: text) out) : ∃ more, out = mark ++ ']' :: more := by
  have hnone : ∀ {b rest r} {m : List Char} {mark : List Char},
      (∀ c ∈ mark, isMarkChar c = true) → Cut b m rest r → m ++ rest ≠ mark ++ ']' :: text := by
    intro b rest r m mark hmark hcut hsplit
    obtain ⟨c, hc, hunmarked⟩ := hcut.inMarker mark text hsplit
    rw [hmark c hc] at hunmarked
    cases hunmarked
  generalize hall : mark ++ ']' :: text = whole at h
  induction mark generalizing b whole out with
  | nil =>
    cases h with
    | nil => cases hall
    | keep _ h =>
      obtain ⟨rfl, -⟩ := List.cons.inj hall
      exact ⟨_, rfl⟩
    | cut hcut h => exact absurd hall.symm (hnone hmark hcut)
  | cons c mark ih =>
    cases h with
    | nil => cases hall
    | keep _ h =>
      obtain ⟨rfl, hrest⟩ := List.cons.inj hall
      obtain ⟨more, hmore⟩ := ih (fun d hd => hmark d (List.mem_cons_of_mem _ hd)) _ hrest h
      exact ⟨more, congrArg (c :: ·) hmore⟩
    | cut hcut h => exact absurd hall.symm (hnone hmark hcut)

theorem path_marker : ∃ mark, REDACTED_PATH = '[' :: (mark ++ [']']) ∧
    ∀ c ∈ mark, isMarkChar c = true :=
  ⟨"redacted".toList, by decide, List.all_eq_true.1 (by decide)⟩

theorem isNameChar_space : isNameChar ' ' = false := by decide

/-- A home path that is stopped stays so. -/
theorem stopped_of_redacts (h : Redacts Kept b text out) (hstop : Stopped text) : Stopped out := by
  rcases hstop with hname | ⟨more, rfl⟩
  · refine .inl ?_
    cases h with
    | nil => rfl
    | keep _ _ => exact hname
    | @cut _ m rest r out hcut h =>
      obtain ⟨c, m, rfl⟩ := List.exists_cons_of_ne_nil hcut.nonempty
      obtain ⟨gap, mark, hgap, rfl, -⟩ := hcut.marker
      rcases hgap with rfl | rfl
      · obtain ⟨hslash, hwhite⟩ := hcut.home rfl c rfl
        simp [isNameChar, hslash, hwhite] at hname
      · exact isNameChar_space
  · obtain ⟨mark, hmarker, hmark⟩ := path_marker
    rw [hmarker, List.cons_append, List.append_assoc] at h
    generalize htext : '[' :: (mark ++ ([']'] ++ more)) = whole at h
    cases h with
    | nil => cases htext
    | keep _ h =>
      obtain ⟨rfl, rfl⟩ := List.cons.inj htext
      obtain ⟨more', hout⟩ := kept_marker hmark h
      refine .inr ⟨more', ?_⟩
      rw [hout, hmarker, List.cons_append, List.append_assoc]
      rfl
    | @cut _ m rest r out hcut h =>
      refine absurd ?_ hcut.opening
      have := congrArg List.head? htext
      rw [List.head?_append_of_ne_nil _ hcut.nonempty] at this
      exact this.symm

/-- The passes after the first lead to no home path with a name. -/
theorem free_home (h : Redacts (fun b text _ => HOME_PATH_RE.NoMatch b text) b text out) :
    HOME_PATH_RE.Free b' out := by
  induction h generalizing b' with
  | nil => trivial
  | @keep b c rest out hno h ih =>
    refine ⟨noMatch_home.2 fun home post' hhome hout => ?_, ih⟩
    have hall : Redacts (fun b text _ => HOME_PATH_RE.NoMatch b text) b (c :: rest) (c :: out) :=
      .keep hno h
    have hword := word_home hhome
    obtain ⟨post, htext, hpost⟩ := kept_of_prefix hall hout hword.opening hword.last
    exact stopped_of_redacts hpost (noMatch_home.1 hno home post hhome htext)
  | @cut b m rest r out hcut h ih =>
    refine free_append (fun r₁ r₂ hr hne => noMatch_home.2 fun home post' hhome hout => ?_) ih
    exact absurd hout (hcut.clear hr hne (word_home hhome))

/-! ## The pass itself -/

theorem redactHomePath_append {name : List Char} (h : IsHome home) :
    redactHomePath (home ++ name) = home ++ REDACTED_PATH := by
  rcases h with rfl | rfl
  · rfl
  · rfl

/-- The pass of the home paths. -/
theorem rewrites_home (text : List Char) :
    Rewrites (fun b text _ => HOME_PATH_RE.NoMatch b text) HomeCut none text
      (HOME_PATH_RE.replaceAll redactHomePath text) := by
  refine Regex.rewrites_replaceFrom consuming_home (fun _ _ => True)
    (fun _ _ _ _ _ => trivial) (fun b m rest _ hmatch hhead => ?_) (Nat.le_refl _) trivial
  have hstop : rest.head?.any isNameChar = false := by
    obtain ⟨mid, -, h⟩ := head_seq hhead
    obtain ⟨mid, -, h⟩ := head_seq h
    obtain ⟨mid, -, h⟩ := head_seq h
    obtain ⟨mid, -, h⟩ := head_seq h
    exact head_times_one h
  obtain ⟨home, name, rfl, hhome, ⟨hne, hname⟩, -⟩ := matches_home.1 hmatch
  refine ⟨fun hnil => hne (List.append_eq_nil_iff.1 hnil).2,
    ⟨home, name, hhome, rfl, hne, hname, redactHomePath_append hhome, hstop⟩, trivial⟩

/-- What begins with no slash at the head of the result was kept. -/
theorem kept_of_name {name : List Char} (h : Rewrites Kept HomeCut b text out)
    (hslash : '/' ∉ name) (hout : out = name ++ post') :
    ∃ b' post, text = name ++ post ∧ Rewrites Kept HomeCut b' post post' := by
  induction name generalizing b text out with
  | nil =>
    subst hout
    exact ⟨b, text, rfl, h⟩
  | cons c name ih =>
    cases h with
    | nil => cases hout
    | keep _ h =>
      obtain ⟨rfl, rfl⟩ := List.cons.inj hout
      obtain ⟨b', post, rfl, hpost⟩ := ih h (fun hmem => hslash (List.mem_cons_of_mem _ hmem)) rfl
      exact ⟨b', post, rfl, hpost⟩
    | cut hcut h =>
      obtain ⟨home, name', hhome, -, -, -, rfl, -⟩ := hcut
      obtain ⟨root, rfl, -⟩ := home_cases hhome
      obtain ⟨rfl, -⟩ := List.cons.inj hout
      exact absurd List.mem_cons_self hslash

/-- What stands there without a slash is kept. -/
theorem kept_of_text {name : List Char} (h : Rewrites Kept HomeCut b (name ++ post) out)
    (hslash : '/' ∉ name) : ∃ more, out = name ++ more := by
  generalize htext : name ++ post = text at h
  induction name generalizing b text out with
  | nil => exact ⟨out, rfl⟩
  | cons c name ih =>
    cases h with
    | nil => cases htext
    | keep _ h =>
      obtain ⟨rfl, hrest⟩ := List.cons.inj htext
      obtain ⟨more, hmore⟩ := ih (fun hmem => hslash (List.mem_cons_of_mem _ hmem)) _ hrest h
      exact ⟨more, congrArg (c :: ·) hmore⟩
    | cut hcut h =>
      obtain ⟨home, name', hhome, rfl, -⟩ := hcut
      obtain ⟨root, rfl, -⟩ := home_cases hhome
      obtain ⟨rfl, -⟩ := List.cons.inj htext
      exact absurd List.mem_cons_self hslash

theorem isNameChar_slash : isNameChar '/' = false := by decide

/-- The pass itself leaves a path that is stopped. -/
theorem stopped_of_home (h : Rewrites Kept HomeCut b text out) (hstop : Stopped text) :
    Stopped out := by
  rcases hstop with hname | ⟨more, rfl⟩
  · refine .inl ?_
    cases h with
    | nil => rfl
    | keep _ _ => exact hname
    | cut hcut h =>
      obtain ⟨home, name', hhome, -, -, -, rfl, -⟩ := hcut
      obtain ⟨root, rfl, -⟩ := home_cases hhome
      exact isNameChar_slash
  · exact .inr (kept_of_text h (by decide))

/-- What two texts have before their first slash is the same. -/
theorem slash_unique {ys more more' : List Char} (hxs : '/' ∉ xs) (hys : '/' ∉ ys)
    (h : xs ++ '/' :: more = ys ++ '/' :: more') : xs = ys ∧ more = more' := by
  obtain ⟨t, ht⟩ := prefix_before h hys
  obtain ⟨t', ht'⟩ := prefix_before h.symm hxs
  have hlength : xs.length = ys.length := by
    have hle := congrArg List.length ht
    have hge := congrArg List.length ht'
    rw [List.length_append] at hle hge
    omega
  obtain ⟨hsame, hrest⟩ := List.append_inj h hlength
  exact ⟨hsame, (List.cons.inj hrest).2⟩

/-- No home path with a name begins where the marker was put. -/
theorem stopped_in_cut {home' r₁ r₂ : List Char} (hhome : IsHome home) (hhome' : IsHome home')
    (hr : home ++ REDACTED_PATH = r₁ ++ r₂) (hne : r₂ ≠ []) (hout : r₂ ++ out = home' ++ post') :
    Stopped post' := by
  obtain ⟨root, rfl, hslash, -⟩ := home_cases hhome
  obtain ⟨root', rfl, hslash', -, hopening, -⟩ := home_cases hhome'
  obtain ⟨c, r₂, rfl⟩ := List.exists_cons_of_ne_nil hne
  obtain ⟨rfl, hnext⟩ := List.cons.inj hout
  have hname : r₂ ++ out = root' ++ '/' :: post' :=
    (show r₂ ++ out = root' ++ ['/'] ++ post' from hnext).trans (List.append_assoc ..)
  cases r₁ with
  | nil =>
    have hr₂ : root ++ '/' :: REDACTED_PATH = r₂ :=
      (List.append_assoc root ['/'] REDACTED_PATH).symm.trans (List.cons.inj hr).2
    rw [← hr₂, List.append_assoc] at hname
    exact .inr ⟨out, (slash_unique hslash hslash' hname).2.symm⟩
  | cons d r₁ =>
    have hmark : root ++ '/' :: REDACTED_PATH = r₁ ++ '/' :: r₂ :=
      (List.append_assoc root ['/'] REDACTED_PATH).symm.trans (List.cons.inj hr).2
    -- The marker holds no slash: this one is the last of the home path.
    have hr₁ : '/' ∉ r₁ := by
      have hcount := congrArg (List.count '/') hmark
      have hpath : List.count '/' REDACTED_PATH = 0 := by decide
      rw [List.count_append, List.count_append, List.count_cons_self, List.count_cons_self,
        List.count_eq_zero.2 hslash, hpath] at hcount
      exact List.count_eq_zero.1 (by omega)
    obtain ⟨-, rfl⟩ := slash_unique hslash hr₁ hmark
    obtain ⟨mark, hmarker, -⟩ := path_marker
    rw [hmarker] at hname
    cases root' with
    | nil => cases hname
    | cons e root' =>
      obtain ⟨rfl, -⟩ := List.cons.inj hname
      exact absurd List.mem_cons_self hopening

/-- After its own pass no home path with a name is left. -/
theorem free_rewrites_home
    (h : Rewrites (fun b text _ => HOME_PATH_RE.NoMatch b text) HomeCut b text out) :
    HOME_PATH_RE.Free b' out := by
  induction h generalizing b' with
  | nil => trivial
  | @keep b c rest out hno h ih =>
    refine ⟨noMatch_home.2 fun home post' hhome hout => ?_, ih⟩
    have hrest := noMatch_home.1 hno home
    obtain ⟨root, rfl, hslash, -⟩ := home_cases hhome
    obtain ⟨rfl, hnext⟩ := List.cons.inj hout
    have hname : out = root ++ (['/'] ++ post') := by rw [hnext, ← List.append_assoc]; rfl
    obtain ⟨b', post, rfl, hpost⟩ := kept_of_name h hslash hname
    generalize hsplit : ['/'] ++ post' = whole at hpost
    cases hpost with
    | nil => cases hsplit
    | @keep _ d post out _ hkept =>
      obtain ⟨rfl, rfl⟩ := List.cons.inj hsplit
      refine stopped_of_home hkept (hrest post hhome ?_)
      rw [List.cons_append, List.append_assoc]
      rfl
    | @cut _ m rest r out hcut hnext =>
      -- Two home paths that share a slash: the first has a name, so it was a match.
      obtain ⟨home', name, hhome', rfl, -⟩ := hcut
      obtain ⟨root', rfl, -, hall, hopening, -⟩ := home_cases hhome'
      have hstop := hrest (root' ++ ['/'] ++ name ++ rest) hhome (by simp)
      have hne : root' ≠ [] := by
        rintro rfl
        rcases hhome' with hnil | hnil <;> exact absurd hnil (by decide)
      obtain ⟨e, root', rfl⟩ := List.exists_cons_of_ne_nil hne
      rcases hstop with hname | ⟨more, hmore⟩
      · rw [List.all_cons, Bool.and_eq_true] at hall
        simp only [List.cons_append, List.head?_cons, Option.any_some, hall.1] at hname
        cases hname
      · obtain ⟨rfl, -⟩ := List.cons.inj hmore
        exact absurd List.mem_cons_self hopening
  | @cut b m rest r out hcut h ih =>
    obtain ⟨home, name, hhome, rfl, -, -, rfl, -⟩ := hcut
    exact free_append (fun r₁ r₂ hr hne => noMatch_home.2 fun home' post' hhome' hout =>
      stopped_in_cut hhome hhome' hr hne hout) ih

end

end Orchestration.Issues
