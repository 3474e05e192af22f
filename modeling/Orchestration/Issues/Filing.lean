import Orchestration.Issues.Scrub
import Orchestration.Js.Json

/-!
# Filing issues

The post of an issue ends with a marker that names it. Before a filing posts, it
lists what the remote has and takes the first post that carries the marker for
its own. Every post ends with its own marker, but the text before it is free, so
a post of another issue may carry the marker as well.
-/

namespace Orchestration.Issues

open Js (Json trimString)

inductive IssueDestination where
  | target
  | co
deriving DecidableEq, Repr

/-- What a post is rendered from. -/
structure IssueRecord where
  issueId : String
  summary : String
  detail : String
  probableCause : Option String := none
deriving DecidableEq, Repr

def issueBodyMarker (issueId : String) : String := "<!-- co-issue-id: " ++ issueId ++ " -->"

/-- The captured detail, the probable cause and the footer, scrubbed, and the marker behind them. -/
def renderIssueBody (issue : IssueRecord) : String :=
  let cause := issue.probableCause.toList.map fun cause =>
    "## Probable cause\n\n" ++ trimString cause
  let footer := "---\n_Filed via co (issue " ++ issue.issueId ++ ", captured by an agent)._"
  let sections := trimString issue.detail :: cause ++ [footer]
  scrubIssueText ("\n\n".intercalate sections) ++ "\n\n" ++ issueBodyMarker issue.issueId

/-- `text.includes(part)`. -/
def Includes (text part : String) : Prop := part.toList <:+: text.toList

instance (text part : String) : Decidable (Includes text part) :=
  inferInstanceAs (Decidable (_ <:+: _))

/-- Runs `gh` in a directory: what it printed, or its failure. -/
abbrev GhExec := String → List String → Except String String

/-- The `-R owner/repo` flag for a `co`-destination filing. -/
def destinationRepoFlag (destination : IssueDestination) (coRepoSlug : Option String) :
    List String :=
  match destination, coRepoSlug with
  | .co, some slug => if trimString slug = "" then [] else ["-R", slug]
  | _, _ => []

/-- The arguments of the listing that is searched. -/
def ghIssueListArgs (destination : IssueDestination) (coRepoSlug : Option String) : List String :=
  ["issue", "list"] ++ destinationRepoFlag destination coRepoSlug ++
    ["--state", "all", "--limit", "100", "--json", "url,body"]

/-- The URL of an entry whose body carries the marker. -/
def postedUrl? (marker : String) (entry : Json) : Option String :=
  match entry.field? "body", entry.field? "url" with
  | some (.str body), some (.str url) => if Includes body marker then some url else none
  | _, _ => none

/-- The first post of the listing that carries the marker of the issue. -/
def findAlreadyPostedIssue (ghExec : GhExec) (cwd : String) (destination : IssueDestination)
    (coRepoSlug : Option String) (issueId : String) : Option String :=
  match ghExec cwd (ghIssueListArgs destination coRepoSlug) with
  | .error _ => none
  | .ok printed =>
    let raw := trimString printed
    if raw = "" then none
    else
      match Js.parse raw with
      | some (.arr parsed) => parsed.findSome? (postedUrl? (issueBodyMarker issueId))
      | _ => none

/-! ## What the remote lists -/

/-- An issue of a project, and where it was posted. -/
structure Post where
  project : String
  issue : IssueRecord
  url : String
deriving DecidableEq, Repr

/-- The post is of this issue of this project. -/
def Post.IsOf (post : Post) (project issueId : String) : Prop :=
  post.project = project ∧ post.issue.issueId = issueId

instance (post : Post) (project issueId : String) : Decidable (post.IsOf project issueId) :=
  inferInstanceAs (Decidable (_ ∧ _))

/-- An entry of the listing shows the post: its URL, and the body it was rendered with. -/
def Post.ShownBy (post : Post) (entry : Json) : Prop :=
  entry.field? "url" = some (.str post.url) ∧
    entry.field? "body" = some (.str (renderIssueBody post.issue))

/-- `gh` answers the listing with these posts, in this order. -/
def Lists (ghExec : GhExec) (cwd : String) (args : List String) (posts : List Post) : Prop :=
  ∃ printed entries, ghExec cwd args = .ok printed ∧ trimString printed ≠ "" ∧
    Js.parse (trimString printed) = some (.arr entries) ∧ List.Forall₂ Post.ShownBy posts entries

/-- The post carries the marker of an issue. -/
def Post.Carries (post : Post) (issueId : String) : Prop :=
  Includes (renderIssueBody post.issue) (issueBodyMarker issueId)

instance (post : Post) (issueId : String) : Decidable (post.Carries issueId) :=
  inferInstanceAs (Decidable (Includes _ _))

/-- A post carries the marker of its own issue. -/
theorem carries_own (post : Post) : post.Carries post.issue.issueId := by
  rw [Post.Carries, Includes, renderIssueBody, String.toList_append]
  exact (List.suffix_append _ _).isInfix

/-- The step returns the first listed post that carries the marker. -/
theorem findAlreadyPostedIssue_eq {ghExec : GhExec} {cwd : String}
    {destination : IssueDestination} {coRepoSlug : Option String} {posts : List Post}
    (hlists : Lists ghExec cwd (ghIssueListArgs destination coRepoSlug) posts) (issueId : String) :
    findAlreadyPostedIssue ghExec cwd destination coRepoSlug issueId =
      (posts.find? fun post => post.Carries issueId).map Post.url := by
  obtain ⟨printed, entries, hgh, hne, hparse, hshown⟩ := hlists
  rw [findAlreadyPostedIssue, hgh]
  simp only [hparse, if_neg hne]
  clear hparse
  induction hshown with
  | nil => rfl
  | @cons post entry posts entries hpost hrest ih =>
    rw [List.findSome?_cons, List.find?_cons, postedUrl?, hpost.1, hpost.2]
    by_cases hcarries : post.Carries issueId
    · have hincludes : Includes (renderIssueBody post.issue) (issueBodyMarker issueId) := hcarries
      simp [hcarries, hincludes]
    · have hincludes : ¬ Includes (renderIssueBody post.issue) (issueBodyMarker issueId) := hcarries
      simp [hcarries, hincludes, ih]

/-- No post of another issue that carries the marker is listed before a post of the issue. -/
def OwnComesFirst (posts : List Post) (project issueId : String) : Prop :=
  ∀ before post after, posts = before ++ post :: after → post.Carries issueId →
    post.IsOf project issueId ∨ ∃ own ∈ before, own.IsOf project issueId

/-- The step adopts nothing but a post of the issue exactly when no post of another issue that
carries the marker is listed before all posts of the issue. -/
theorem adopts_own_post_iff {ghExec : GhExec} {cwd : String} {destination : IssueDestination}
    {coRepoSlug : Option String} {posts : List Post}
    (hlists : Lists ghExec cwd (ghIssueListArgs destination coRepoSlug) posts)
    (hurls : (posts.map Post.url).Nodup) (project issueId : String) :
    (∀ url, findAlreadyPostedIssue ghExec cwd destination coRepoSlug issueId = some url →
      ∃ post ∈ posts, post.url = url ∧ post.IsOf project issueId) ↔
    OwnComesFirst posts project issueId := by
  rw [findAlreadyPostedIssue_eq hlists]
  constructor
  · intro hadopts before post after hsplit hcarries
    -- whatever the listing is cut at, the adopted post is the issue's own
    have hown : ∀ found ∈ posts, posts.find? (fun post => post.Carries issueId) = some found →
        found.IsOf project issueId := by
      intro found hmem hfind
      obtain ⟨own, hin, hurl, hown⟩ := hadopts found.url (by rw [hfind]; rfl)
      rwa [List.inj_on_of_nodup_map hurls hin hmem hurl] at hown
    cases hbefore : before.find? fun post => post.Carries issueId with
    | some found =>
      have hmem := List.mem_of_find?_eq_some hbefore
      right
      refine ⟨found, hmem, hown found ?_ ?_⟩
      · rw [hsplit]
        exact List.mem_append_left _ hmem
      · rw [hsplit, List.find?_append, hbefore]
        rfl
    | none =>
      left
      apply hown post
      · rw [hsplit]
        exact List.mem_append_right _ List.mem_cons_self
      · rw [hsplit, List.find?_append, hbefore]
        simp [hcarries]
  · intro hfirst url hurl
    obtain ⟨found, hfind, rfl⟩ := Option.map_eq_some_iff.1 hurl
    obtain ⟨hcarries, before, after, hsplit, hnone⟩ := List.find?_eq_some_iff_append.1 hfind
    refine ⟨found, List.mem_of_find?_eq_some hfind, rfl, ?_⟩
    cases hfirst before found after hsplit (by simpa using hcarries) with
    | inl hown => exact hown
    | inr hbefore =>
      obtain ⟨own, hmem, hown⟩ := hbefore
      have hmarked : own.Carries issueId := hown.2 ▸ carries_own own
      simpa [hmarked] using hnone own hmem

/-! ## A report that quotes a marker -/

/-- A post as `gh` prints it. -/
def Post.entry (post : Post) : Json :=
  .obj [("body", .str (renderIssueBody post.issue)), ("url", .str post.url)]

/-- A `gh` that prints these posts. -/
def ghListing (posts : List Post) : GhExec := fun _ _ =>
  .ok (Js.stringify (.arr (posts.map Post.entry)))

/-- A written list stands between its brackets, with no white space around it. -/
theorem trimString_stringify (items : List Json) :
    trimString (Js.stringify (.arr items)) = Js.stringify (.arr items) ∧
      Js.stringify (.arr items) ≠ "" := by
  have htext : ∃ inner, Js.writeJson 0 (.arr items) = '[' :: inner ++ [']'] := by
    cases items with
    | nil => exact ⟨[], by rw [Js.writeJson]; rfl⟩
    | cons item items =>
      rw [Js.writeJson]
      exact ⟨_, rfl⟩
  obtain ⟨inner, htext⟩ := htext
  constructor
  · rw [trimString, Js.stringify, String.toList_ofList, htext, Js.trim_eq_self]
    · intro c hc
      cases hc
      decide
    · intro c hc
      rw [List.getLast?_concat] at hc
      cases hc
      decide
  · intro hempty
    have hnil := congrArg String.toList hempty
    rw [Js.stringify, String.toList_ofList, htext] at hnil
    cases hnil

theorem lists_ghListing (posts : List Post) (cwd : String) (args : List String) :
    Lists (ghListing posts) cwd args posts := by
  obtain ⟨htrim, hne⟩ := trimString_stringify (posts.map Post.entry)
  refine ⟨_, posts.map Post.entry, rfl, by rwa [htrim], ?_, ?_⟩
  · rw [htrim]
    apply Js.parse_stringify
    refine .arr fun entry hentry => ?_
    obtain ⟨post, -, rfl⟩ := List.mem_map.1 hentry
    refine .obj fun field hfield => ?_
    simp only [List.mem_cons, List.not_mem_nil, or_false] at hfield
    rcases hfield with rfl | rfl
    · exact .str _
    · exact .str _
  · rw [List.forall₂_map_right_iff]
    refine List.forall₂_same.2 fun post _ => ⟨?_, ?_⟩
    · simp [Post.entry, Json.field?]
    · simp [Post.entry, Json.field?]

/-- Two posts of one project: the later one reports about the earlier one. -/
def quotingPosts : List Post := [
  ⟨"p", { issueId := "b", summary := "", detail := "see <!-- co-issue-id: a -->" }, "u2"⟩,
  ⟨"p", { issueId := "a", summary := "", detail := "" }, "u1"⟩]

/-- The later issue adopts nothing but its own post. -/
theorem adopts_own_post_of_quoting :
    (∀ url, findAlreadyPostedIssue (ghListing quotingPosts) "/repo" .target none "b" = some url →
      ∃ post ∈ quotingPosts, post.url = url ∧ post.IsOf "p" "b") ↔
    OwnComesFirst quotingPosts "p" "b" :=
  adopts_own_post_iff (lists_ghListing quotingPosts "/repo" _) (by decide) "p" "b"

/-- The earlier issue adopts the post of the later one. -/
theorem adopts_quoting_post :
    ¬ ∀ url, findAlreadyPostedIssue (ghListing quotingPosts) "/repo" .target none "a" = some url →
      ∃ post ∈ quotingPosts, post.url = url ∧ post.IsOf "p" "a" := by
  intro hadopts
  have hcarries : (quotingPosts.find? fun post => post.Carries "a").map Post.url = some "u2" := by
    decide +kernel
  obtain ⟨post, hmem, hurl, hown⟩ := hadopts "u2"
    (by rw [findAlreadyPostedIssue_eq (lists_ghListing quotingPosts "/repo" _), hcarries])
  revert post
  decide

end Orchestration.Issues
