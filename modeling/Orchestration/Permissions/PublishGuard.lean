import Orchestration.Library.Splitting
import Orchestration.Permissions.Signoffs

/-!
# What the publish guard sees

The records read back from a log are those of its commits exactly when no field
of a commit can be taken for a separator. On such a log the guard lets nothing
pass that the allowlist does not admit.
-/

namespace Orchestration.Permissions

open Js (isStrWhiteSpace trim)
open Splitting

/-- A name or an email that comes back as it is. -/
structure Plain (text : List Char) : Prop where
  field : FIELD_SEP ∉ text
  commit : COMMIT_SEP ∉ text
  trimmed : trim text = text

/-- A block that has no sha: nothing but white space stands before its first field separator. -/
def Overlooked (block : List Char) : Prop :=
  ∀ c, (block.dropWhile isStrWhiteSpace).head? = some c → c = FIELD_SEP

/-- The message up to its first commit separator. -/
def messageHead (body : List Char) : List Char := trimEnd (body.takeWhile (· ≠ COMMIT_SEP))

/-- A commit whose record comes back as it is. -/
structure Framed (commit : Commit) : Prop where
  author : Plain commit.author
  committer : Plain commit.committer
  overlooked : ∀ part ∈ (commit.body.splitOn COMMIT_SEP).tail, Overlooked part
  signoffs : carriedSignoffs false (linesOf (messageHead commit.body)) = signoffLines commit.body

/-- What the guard owes on a log: the records of the commits, and no identity that is not allowed. -/
structure NoEscape (toLowerCase : List Char → List Char) (commits : List Commit) : Prop where
  records : parseLog (gitLog commits) = commits.map Commit.identity
  guarded : ∀ allowlist ≠ [],
    checkPublishIdentities toLowerCase (parseLog (gitLog commits)) allowlist = [] →
    ∀ commit ∈ commits, signoffLines commit.body ≠ [] ∧
      allowed toLowerCase allowlist commit.author = true ∧
      allowed toLowerCase allowlist commit.committer = true ∧
      ∀ signoff ∈ signoffLines commit.body, allowed toLowerCase allowlist signoff = true

section

variable {sep c : Char} {xs ys text block part : List Char} {commit : Commit}
  {commits : List Commit}

/-! ## One block -/

theorem blockIdentity?_eq_none : blockIdentity? block = none ↔ Overlooked block := by
  rw [Overlooked]
  have htrim := trim_dropWhile block
  have hhead := List.head?_dropWhile_not isStrWhiteSpace block
  cases hdrop : block.dropWhile isStrWhiteSpace with
  | nil =>
    rw [hdrop] at htrim
    rw [blockIdentity?, ← htrim]
    simp [trim]
  | cons c rest =>
    rw [hdrop] at htrim hhead
    have hc : isStrWhiteSpace c = false := by simpa using hhead
    rw [trim_cons_of_not_space hc] at htrim
    rw [blockIdentity?, ← htrim]
    simp only [List.cons_ne_nil, if_false, List.head?_cons, Option.some.injEq, forall_eq']
    by_cases hsep : c = FIELD_SEP
    · subst hsep
      simp [List.splitOn_cons_eq_if_modifyHead, trim]
    · obtain ⟨first, fields, hsplit⟩ :=
        List.exists_cons_of_ne_nil (List.splitOn_ne_nil FIELD_SEP (trimEnd rest))
      rw [List.splitOn_cons_eq_if_modifyHead, if_neg (by simpa using hsep), hsplit]
      simp [trim_cons_of_not_space hc, hsep]

theorem blockIdentity?_newline : blockIdentity? ('\n' :: block) = blockIdentity? block := by
  rw [blockIdentity?, trim_cons_of_space (by decide), ← blockIdentity?]

theorem Commit.not_mem_sha (commit : Commit) : FIELD_SEP ∉ commit.sha ∧ COMMIT_SEP ∉ commit.sha := by
  constructor
  · intro hmem
    exact absurd (commit.sha_hex _ hmem) (by decide)
  · intro hmem
    exact absurd (commit.sha_hex _ hmem) (by decide)

theorem not_space_of_isAlphanum (h : c.isAlphanum = true) : isStrWhiteSpace c = false := by
  have hrange := isAlphanum_range h
  simp only [isStrWhiteSpace, List.mem_cons, List.not_mem_nil, or_false, Bool.or_eq_false_iff,
    Bool.and_eq_false_iff, decide_eq_false_iff_not]
  omega

theorem trimEnd_of_not_space (h : ∀ c ∈ text, isStrWhiteSpace c = false) : trimEnd text = text := by
  induction text with
  | nil => rfl
  | cons c text ih =>
    have hrest := @trimEnd_append_of_not_space [] text c (h c List.mem_cons_self)
    rw [List.nil_append, List.nil_append] at hrest
    rw [hrest, ih fun d hd => h d (List.mem_cons_of_mem c hd)]

theorem Commit.trim_sha_append (commit : Commit) (text : List Char) :
    trim (commit.sha ++ FIELD_SEP :: text) = commit.sha ++ FIELD_SEP :: trimEnd text := by
  obtain ⟨c, sha, hsha⟩ := List.exists_cons_of_ne_nil commit.sha_ne
  have hc := not_space_of_isAlphanum (commit.sha_hex c (hsha ▸ List.mem_cons_self))
  rw [hsha, List.cons_append, trim_cons_of_not_space hc, trimEnd_append_of_not_space (by decide),
    List.cons_append]

theorem Commit.trim_sha (commit : Commit) : trim commit.sha = commit.sha := by
  have hspaces := fun c hc => not_space_of_isAlphanum (commit.sha_hex c hc)
  obtain ⟨c, sha, hsha⟩ := List.exists_cons_of_ne_nil commit.sha_ne
  rw [hsha] at hspaces ⊢
  rw [trim_cons_of_not_space (hspaces c List.mem_cons_self),
    trimEnd_of_not_space fun d hd => hspaces d (List.mem_cons_of_mem c hd)]

/-- The record of a block that begins with a commit's sha. -/
theorem blockIdentity?_sha (commit : Commit) (text : List Char) :
    blockIdentity? (commit.sha ++ FIELD_SEP :: text) = some {
      sha := commit.sha
      author := (((trimEnd text).splitOn FIELD_SEP)[0]?.map trim).getD []
      committer := (((trimEnd text).splitOn FIELD_SEP)[1]?.map trim).getD []
      signoffs := parseSignoffs
        ([FIELD_SEP].intercalate (((trimEnd text).splitOn FIELD_SEP).drop 2)) } := by
  have hne : trim commit.sha ≠ [] := by
    rw [commit.trim_sha]
    exact commit.sha_ne
  have hsplit := List.splitOn_append_cons_self_of_not_mem commit.not_mem_sha.1 (trimEnd text)
  rw [blockIdentity?, commit.trim_sha_append]
  simp only [List.append_eq_nil_iff, commit.sha_ne, false_and, if_false, hsplit, hne]
  rw [commit.trim_sha]

/-! ## One commit -/

/-- The records that one entry of the log yields. -/
def Commit.records (commit : Commit) : List CommitIdentity :=
  ((commit.header ++ commit.body).splitOn COMMIT_SEP).filterMap blockIdentity?

/-- A log yields the records of its entries, one after the other. -/
theorem parseLog_gitLog (commits : List Commit) :
    parseLog (gitLog commits) = commits.flatMap Commit.records := by
  induction commits with
  | nil => rfl
  | cons commit commits ih =>
    have hnewline : (('\n' :: gitLog commits).splitOn COMMIT_SEP).filterMap blockIdentity? =
        parseLog (gitLog commits) := by
      obtain ⟨first, rest, hsplit⟩ :=
        List.exists_cons_of_ne_nil (List.splitOn_ne_nil COMMIT_SEP (gitLog commits))
      rw [parseLog, List.splitOn_cons_eq_if_modifyHead, if_neg (by decide), hsplit,
        List.modifyHead_cons, List.filterMap_cons, List.filterMap_cons, blockIdentity?_newline]
    rw [List.flatMap_cons, ← ih, ← hnewline, Commit.records, ← List.filterMap_append,
      ← List.splitOn_append_cons_self]
    rw [gitLog, List.flatMap_cons, Commit.entry, parseLog, List.append_assoc]
    rfl

/-- Entries that yield a record or more each yield the wanted records just if each yields its own. -/
theorem flatMap_eq_map_iff {α β : Type} {f : α → List β} {g : α → β} (hf : ∀ a, f a ≠ [])
    {as : List α} : as.flatMap f = as.map g ↔ ∀ a ∈ as, f a = [g a] := by
  have hlength : ∀ as : List α, as.length ≤ (as.flatMap f).length := by
    intro as
    induction as with
    | nil => exact Nat.le_refl 0
    | cons a as ih =>
      have hpos := List.length_pos_of_ne_nil (hf a)
      rw [List.flatMap_cons, List.length_append, List.length_cons]
      omega
  constructor
  · intro h
    induction as with
    | nil => exact fun a ha => absurd ha List.not_mem_nil
    | cons a as ih =>
      rw [List.flatMap_cons, List.map_cons] at h
      have hone : (f a).length = 1 := by
        have htotal := congrArg List.length h
        have hpos := List.length_pos_of_ne_nil (hf a)
        have hrest := hlength as
        rw [List.length_append, List.length_cons, List.length_map] at htotal
        omega
      obtain ⟨b, hb⟩ := List.length_eq_one_iff.1 hone
      rw [hb, List.singleton_append, List.cons.injEq] at h
      obtain ⟨rfl, hrest⟩ := h
      intro x hx
      cases List.mem_cons.1 hx with
      | inl hx => exact hx ▸ hb
      | inr hx => exact ih hrest x hx
  · intro h
    induction as with
    | nil => rfl
    | cons a as ih =>
      rw [List.flatMap_cons, List.map_cons, h a List.mem_cons_self,
        ih fun x hx => h x (List.mem_cons_of_mem a hx)]
      rfl

/-- The first block of an entry, and the others. -/
theorem Commit.blocks (commit : Commit) : ∃ first rest,
    (commit.header ++ commit.body).splitOn COMMIT_SEP = (commit.sha ++ FIELD_SEP :: first) :: rest ∧
      COMMIT_SEP ∉ first := by
  have hentry : commit.header ++ commit.body = commit.sha ++ (FIELD_SEP ::
      (commit.author ++ FIELD_SEP :: (commit.committer ++ FIELD_SEP :: commit.body))) := by
    simp [Commit.header]
  obtain ⟨first, rest, hsplit⟩ := List.exists_cons_of_ne_nil (List.splitOn_ne_nil COMMIT_SEP
    (commit.author ++ FIELD_SEP :: (commit.committer ++ FIELD_SEP :: commit.body)))
  refine ⟨first, rest, ?_, (mem_of_mem_splitOn (hsplit ▸ List.mem_cons_self)).1⟩
  rw [hentry, splitOn_append_of_not_mem commit.not_mem_sha.2, List.splitOn_cons_eq_if_modifyHead,
    if_neg (by decide), hsplit]
  rfl

theorem Commit.records_ne_nil (commit : Commit) : commit.records ≠ [] := by
  obtain ⟨first, rest, hblocks, -⟩ := commit.blocks
  rw [Commit.records, hblocks, List.filterMap_cons, blockIdentity?_sha]
  exact List.cons_ne_nil _ _

theorem mem_of_mem_trimEnd (h : c ∈ trimEnd text) : c ∈ text := by
  rw [trimEnd, List.mem_reverse] at h
  exact List.mem_reverse.1 ((List.dropWhile_suffix _).mem h)

theorem mem_of_mem_trim (h : c ∈ trim text) : c ∈ text :=
  (List.dropWhile_suffix _).mem (mem_of_mem_trimEnd h)

theorem Trimmed.trimEnd_eq (h : Trimmed text) : trimEnd text = text := by
  rw [trimEnd]
  cases hreverse : text.reverse with
  | nil => rw [List.reverse_eq_nil_iff.1 hreverse]; rfl
  | cons c rest =>
    have hlast : text.getLast? = some c := by
      rw [← List.head?_reverse, hreverse]
      rfl
    rw [List.dropWhile_cons_of_neg (by simp [h c hlast]), ← hreverse, List.reverse_reverse]

theorem trim_trim (text : List Char) : trim (trim text) = trim text := by
  induction text with
  | nil => rfl
  | cons c text ih =>
    cases hc : isStrWhiteSpace c with
    | true => rw [trim_cons_of_space hc, ih]
    | false =>
      rw [trim_cons_of_not_space hc, trim_cons_of_not_space hc,
        (trimmed_trimEnd text).trimEnd_eq]

/-- A trimmed field of a block without commit separators is plain. -/
theorem plain_field {n : ℕ} (hblock : COMMIT_SEP ∉ block) :
    Plain (((((trimEnd block).splitOn FIELD_SEP)[n]?).map trim).getD []) := by
  cases hfield : ((trimEnd block).splitOn FIELD_SEP)[n]? with
  | none => exact ⟨List.not_mem_nil, List.not_mem_nil, rfl⟩
  | some part =>
    obtain ⟨hsep, hsub⟩ := mem_of_mem_splitOn (List.mem_of_getElem? hfield)
    refine ⟨fun hmem => hsep (mem_of_mem_trim hmem), fun hmem => hblock ?_, trim_trim part⟩
    exact mem_of_mem_trimEnd (hsub _ (mem_of_mem_trim hmem))

/-- The blocks of a commit whose names are plain. -/
theorem Commit.blocks_of_plain (hauthor : Plain commit.author)
    (hcommitter : Plain commit.committer) :
    (commit.header ++ commit.body).splitOn COMMIT_SEP =
      (commit.header ++ commit.body.takeWhile (· ≠ COMMIT_SEP)) ::
        (commit.body.splitOn COMMIT_SEP).tail := by
  have hheader : COMMIT_SEP ∉ commit.header := by
    have hne : COMMIT_SEP ≠ FIELD_SEP := by decide
    simp [Commit.header, commit.not_mem_sha.2, hauthor.commit, hcommitter.commit, hne]
  rw [splitOn_append_of_not_mem hheader, splitOn_eq, List.modifyHead_cons, List.tail_cons]

theorem Commit.blockIdentity?_of_plain (hauthor : Plain commit.author)
    (hcommitter : Plain commit.committer) :
    blockIdentity? (commit.header ++ commit.body.takeWhile (· ≠ COMMIT_SEP)) = some {
      sha := commit.sha
      author := commit.author
      committer := commit.committer
      signoffs := carriedSignoffs false (linesOf (messageHead commit.body)) } := by
  have hblock : commit.header ++ commit.body.takeWhile (· ≠ COMMIT_SEP) =
      commit.sha ++ FIELD_SEP :: (commit.author ++ FIELD_SEP ::
        (commit.committer ++ FIELD_SEP :: commit.body.takeWhile (· ≠ COMMIT_SEP))) := by
    simp [Commit.header]
  have hspace : isStrWhiteSpace FIELD_SEP = false := by decide
  have hfields : (trimEnd (commit.author ++ FIELD_SEP :: (commit.committer ++ FIELD_SEP ::
      commit.body.takeWhile (· ≠ COMMIT_SEP)))).splitOn FIELD_SEP =
        commit.author :: commit.committer :: (messageHead commit.body).splitOn FIELD_SEP := by
    rw [trimEnd_append_of_not_space hspace, trimEnd_append_of_not_space hspace,
      List.splitOn_append_cons_self_of_not_mem hauthor.field,
      List.splitOn_append_cons_self_of_not_mem hcommitter.field]
    rfl
  rw [hblock, blockIdentity?_sha, hfields]
  simp only [List.getElem?_cons_zero, List.getElem?_cons_succ, Option.map_some, Option.getD_some,
    List.drop_succ_cons, List.drop_zero, List.intercalate_splitOn, hauthor.trimmed,
    hcommitter.trimmed]
  have hsignoffs : parseSignoffs (messageHead commit.body) =
      carriedSignoffs false (linesOf (messageHead commit.body)) :=
    parseSignoffs_eq (trimmed_trimEnd _)
  rw [hsignoffs]

/-- An entry yields its commit's record and nothing else just if the commit is framed. -/
theorem Commit.records_eq_iff : commit.records = [commit.identity] ↔ Framed commit := by
  have hplain : Plain commit.author → Plain commit.committer → commit.records = {
      sha := commit.sha
      author := commit.author
      committer := commit.committer
      signoffs := carriedSignoffs false (linesOf (messageHead commit.body)) } ::
        (commit.body.splitOn COMMIT_SEP).tail.filterMap blockIdentity? := by
    intro hauthor hcommitter
    rw [Commit.records, Commit.blocks_of_plain hauthor hcommitter, List.filterMap_cons,
      Commit.blockIdentity?_of_plain hauthor hcommitter]
  constructor
  · intro hrecords
    -- the names first: they come back from fields, which hold no separators
    obtain ⟨first, rest, hblocks, hfirst⟩ := commit.blocks
    have hfields := hrecords
    rw [Commit.records, hblocks, List.filterMap_cons, blockIdentity?_sha, List.cons.injEq,
      Commit.identity, CommitIdentity.mk.injEq] at hfields
    obtain ⟨⟨-, hauthor, hcommitter, -⟩, -⟩ := hfields
    have hauthor' : Plain commit.author := hauthor ▸ plain_field hfirst
    have hcommitter' : Plain commit.committer := hcommitter ▸ plain_field hfirst
    rw [hplain hauthor' hcommitter', List.cons.injEq, Commit.identity,
      CommitIdentity.mk.injEq] at hrecords
    obtain ⟨⟨-, -, -, hsignoffs⟩, hothers⟩ := hrecords
    refine ⟨hauthor', hcommitter', fun part hpart => ?_, hsignoffs⟩
    exact blockIdentity?_eq_none.1 (List.filterMap_eq_nil_iff.1 hothers part hpart)
  · intro h
    have hothers : (commit.body.splitOn COMMIT_SEP).tail.filterMap blockIdentity? = [] :=
      List.filterMap_eq_nil_iff.2 fun part hpart => blockIdentity?_eq_none.2 (h.overlooked part hpart)
    rw [hplain h.author h.committer, hothers, h.signoffs]
    rfl

end

/-- The log gives back its commits, and the guard lets nothing pass, just if all are framed. -/
theorem noEscape_iff (toLowerCase : List Char → List Char) (commits : List Commit) :
    NoEscape toLowerCase commits ↔ ∀ commit ∈ commits, Framed commit := by
  have hrecords : parseLog (gitLog commits) = commits.map Commit.identity ↔
      ∀ commit ∈ commits, Framed commit := by
    rw [parseLog_gitLog, flatMap_eq_map_iff Commit.records_ne_nil]
    exact forall₂_congr fun commit _ => Commit.records_eq_iff
  constructor
  · exact fun h => hrecords.1 h.records
  · intro h
    have hparsed := hrecords.2 h
    refine ⟨hparsed, fun allowlist _ hnone commit hcommit => ?_⟩
    rw [hparsed, checkPublishIdentities_eq_nil] at hnone
    obtain ⟨hauthor, hcommitter, hsigned, hsignoffs⟩ :=
      hnone commit.identity (List.mem_map_of_mem hcommit)
    exact ⟨hsigned, hauthor, hcommitter, hsignoffs⟩

/-- A message that hides its second sign-off behind a block without a sha. -/
def smuggled : Commit where
  sha := "c0ffee".toList
  authorName := "Ann".toList
  authorEmail := "ann@x".toList
  committerName := "Ann".toList
  committerEmail := "ann@x".toList
  body := "Signed-off-by: Ann <ann@x>".toList ++ COMMIT_SEP :: FIELD_SEP ::
    "\nSigned-off-by: Mal <mal@y>\n".toList
  sha_ne := by decide
  sha_hex := List.all_eq_true.1 (by decide)

/-- The guard passes a commit with a sign-off that the allowlist does not admit. -/
theorem smuggled_escapes : checkPublishIdentities (List.map Char.toLower)
      (parseLog (gitLog [smuggled])) ["<ann@x>".toList] = [] ∧
    "Mal <mal@y>".toList ∈ signoffLines smuggled.body ∧
    allowed (List.map Char.toLower) ["<ann@x>".toList] "Mal <mal@y>".toList = false ∧
    ¬ NoEscape (List.map Char.toLower) [smuggled] := by
  have hnone : checkPublishIdentities (List.map Char.toLower)
      (parseLog (gitLog [smuggled])) ["<ann@x>".toList] = [] := by decide +kernel
  have hmem : "Mal <mal@y>".toList ∈ signoffLines smuggled.body := by decide +kernel
  have hrefused :
      allowed (List.map Char.toLower) ["<ann@x>".toList] "Mal <mal@y>".toList = false := by
    decide +kernel
  refine ⟨hnone, hmem, hrefused, fun hescape => ?_⟩
  obtain ⟨-, -, -, hsignoffs⟩ := hescape.guarded ["<ann@x>".toList] (by decide) hnone smuggled
    List.mem_cons_self
  rw [hsignoffs _ hmem] at hrefused
  cases hrefused

end Orchestration.Permissions
