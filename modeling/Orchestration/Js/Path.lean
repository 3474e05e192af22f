import Mathlib.Data.List.Induction
import Mathlib.Data.List.TakeWhile
import Orchestration.Library.Splitting

/-!
# Paths

`node:path` on a POSIX system. Paths are texts; a resolved path is the list of its segments.
-/

namespace Js

/-- `path.isAbsolute(path)`. -/
def isAbsolute (path : List Char) : Bool := path.head? = some '/'

/-- Apply one segment of a path: `.` stays, and `..` goes up as long as there is something above. -/
def applySegment (resolved : List (List Char)) (part : List Char) : List (List Char) :=
  if part = [] ∨ part = ['.'] then resolved
  else if part = ['.', '.'] then resolved.dropLast
  else resolved ++ [part]

/-- The segments of an absolute path, without `.` and `..`. -/
def normalizeSegments (path : List Char) : List (List Char) :=
  (path.splitOn '/').foldl applySegment []

/-- The absolute path that some paths name, from the last one on; empty ones are skipped. -/
def joinAbsolute (cwd : List Char) : List (List Char) → List Char → List Char
  | [], path => cwd ++ '/' :: path
  | last :: paths, path =>
    if last = [] then joinAbsolute cwd paths path
    else if isAbsolute last then last ++ '/' :: path
    else joinAbsolute cwd paths (last ++ '/' :: path)

/-- The segments of `path.resolve(...paths)`. -/
def resolveSegments (cwd : List Char) (paths : List (List Char)) : List (List Char) :=
  normalizeSegments (joinAbsolute cwd paths.reverse [])

/-- `path.resolve(...paths)`. -/
def resolve (cwd : List Char) (paths : List (List Char)) : List Char :=
  '/' :: ['/'].intercalate (resolveSegments cwd paths)

/-- What two paths do not share, from where they part. -/
def afterCommon : List (List Char) → List (List Char) → List (List Char) × List (List Char)
  | a :: as, b :: bs => if a = b then afterCommon as bs else (a :: as, b :: bs)
  | as, bs => (as, bs)

/-- `path.relative(from, to)` of resolved paths. -/
def relative («from» «to» : List (List Char)) : List Char :=
  let (up, down) := afterCommon «from» «to»
  ['/'].intercalate (List.replicate up.length ['.', '.'] ++ down)

/-- `path.basename(path)`. -/
def basename (path : List Char) : List Char :=
  ((path.reverse.dropWhile (· = '/')).takeWhile (· ≠ '/')).reverse

/-- `text.replace(/\/+$/, '')`. -/
def stripTrailingSlashes (path : List Char) : List Char :=
  (path.reverse.dropWhile (· = '/')).reverse

/-! ## Below a directory -/

/-- The name of a file: one segment that goes nowhere else. -/
def IsName (name : List Char) : Prop :=
  '/' ∉ name ∧ name ≠ [] ∧ name ≠ ['.'] ∧ name ≠ ['.', '.']

instance (name : List Char) : Decidable (IsName name) :=
  inferInstanceAs (Decidable (_ ∧ _ ∧ _ ∧ _))

theorem applySegment_name {name : List Char} (h : IsName name) (resolved : List (List Char)) :
    applySegment resolved name = resolved ++ [name] := by
  obtain ⟨-, hne, hdot, hdots⟩ := h
  rw [applySegment, if_neg (by simp [hne, hdot]), if_neg hdots]

theorem splitOn_append_slash (path rest : List Char) :
    (path ++ '/' :: rest).splitOn '/' = path.splitOn '/' ++ rest.splitOn '/' := by
  induction path with
  | nil =>
    rw [List.nil_append, List.splitOn_cons_eq_if_modifyHead, if_pos (by simp), List.splitOn_nil]
    rfl
  | cons c path ih =>
    rw [List.cons_append]
    simp only [List.splitOn_cons_eq_if_modifyHead, ih]
    obtain ⟨first, others, hsplit⟩ := List.exists_cons_of_ne_nil (List.splitOn_ne_nil '/' path)
    rw [hsplit]
    split <;> rfl

theorem normalizeSegments_slash (path rest : List Char) :
    normalizeSegments (path ++ '/' :: rest) =
      (rest.splitOn '/').foldl applySegment (normalizeSegments path) := by
  rw [normalizeSegments, splitOn_append_slash, List.foldl_append]
  rfl

/-- A slash at the end says nothing. -/
theorem normalizeSegments_concat_slash (path : List Char) :
    normalizeSegments (path ++ ['/']) = normalizeSegments path :=
  normalizeSegments_slash path []

theorem normalizeSegments_stripTrailingSlashes (path rest : List Char) :
    normalizeSegments (stripTrailingSlashes path ++ '/' :: rest) =
      normalizeSegments (path ++ '/' :: rest) := by
  have hstrip : ∀ path : List Char,
      normalizeSegments (stripTrailingSlashes path) = normalizeSegments path := by
    intro path
    induction path using List.reverseRecOn with
    | nil => rfl
    | append_singleton path c ih =>
      by_cases hc : c = '/'
      · subst hc
        rw [normalizeSegments_concat_slash, ← ih]
        simp [stripTrailingSlashes]
      · simp [stripTrailingSlashes, hc]
  rw [normalizeSegments_slash, normalizeSegments_slash, hstrip]

/-- A path from the root. -/
def absolutePath (cwd path : List Char) : List Char :=
  if isAbsolute path then path else cwd ++ '/' :: path

section

variable {cwd path rest : List Char}

theorem resolveSegments_one (h : path ≠ []) :
    resolveSegments cwd [path] = normalizeSegments (absolutePath cwd path) := by
  have hjoin : joinAbsolute cwd [path].reverse [] = absolutePath cwd path ++ ['/'] := by
    simp only [List.reverse_singleton, joinAbsolute, if_neg h, absolutePath]
    split <;> simp
  rw [resolveSegments, hjoin, normalizeSegments_concat_slash]

/-- A relative path is resolved from the directory before it. -/
theorem resolveSegments_two (h : path ≠ []) (hrest : rest ≠ [])
    (hrelative : isAbsolute rest = false) :
    resolveSegments cwd [path, rest] =
      (rest.splitOn '/').foldl applySegment (resolveSegments cwd [path]) := by
  have hjoin : joinAbsolute cwd [path, rest].reverse [] =
      (absolutePath cwd path ++ '/' :: rest) ++ ['/'] := by
    simp only [List.reverse_cons, List.reverse_nil, List.nil_append, List.cons_append, joinAbsolute,
      if_neg h, if_neg hrest, hrelative, absolutePath, Bool.false_eq_true, if_false]
    split <;> simp
  rw [resolveSegments, hjoin, normalizeSegments_concat_slash, normalizeSegments_slash,
    resolveSegments_one h]

theorem stripTrailingSlashes_append (h : stripTrailingSlashes rest ≠ []) :
    stripTrailingSlashes (path ++ rest) = path ++ stripTrailingSlashes rest := by
  have hdrop : rest.reverse.dropWhile (· = '/') ≠ [] := by
    intro hnil
    exact h (by rw [stripTrailingSlashes, hnil, List.reverse_nil])
  rw [stripTrailingSlashes, stripTrailingSlashes, List.reverse_append, List.dropWhile_append,
    if_neg (by simpa using hdrop), List.reverse_append, List.reverse_reverse]

theorem stripTrailingSlashes_ne_nil (h : path ≠ []) (hrelative : isAbsolute path = false) :
    stripTrailingSlashes path ≠ [] := by
  obtain ⟨c, rest, rfl⟩ := List.exists_cons_of_ne_nil h
  have hc : c ≠ '/' := by
    rintro rfl
    simp [isAbsolute] at hrelative
  intro hnil
  rw [stripTrailingSlashes, List.reverse_eq_nil_iff, List.dropWhile_eq_nil_iff] at hnil
  exact hc (by simpa using hnil c (by simp))

theorem isPrefix_stripTrailingSlashes : stripTrailingSlashes path <+: path := by
  have hsuffix : path.reverse.dropWhile (· = '/') <:+ path.reverse := List.dropWhile_suffix _
  have hhead := hsuffix.reverse
  rwa [List.reverse_reverse] at hhead

theorem isAbsolute_strip (h : path ≠ []) :
    isAbsolute (stripTrailingSlashes path ++ '/' :: rest) = isAbsolute path := by
  cases hstrip : stripTrailingSlashes path with
  | nil =>
    cases habs : isAbsolute path with
    | true => rfl
    | false => exact absurd hstrip (stripTrailingSlashes_ne_nil h habs)
  | cons c stripped =>
    obtain ⟨more, hmore⟩ := @isPrefix_stripTrailingSlashes path
    rw [hstrip] at hmore
    rw [← hmore]
    rfl

/-- A file below a directory whose trailing slashes were stripped. -/
theorem resolveSegments_strip (h : path ≠ []) :
    resolveSegments cwd [stripTrailingSlashes path ++ '/' :: rest] =
      (rest.splitOn '/').foldl applySegment (resolveSegments cwd [path]) := by
  rw [resolveSegments_one (by simp), resolveSegments_one h, ← normalizeSegments_slash]
  cases habs : isAbsolute path with
  | true =>
    have hstrip : isAbsolute (stripTrailingSlashes path ++ '/' :: rest) = true := by
      rw [isAbsolute_strip h, habs]
    rw [absolutePath, absolutePath, if_pos hstrip, if_pos habs,
      normalizeSegments_stripTrailingSlashes]
  | false =>
    have hne := stripTrailingSlashes_ne_nil h habs
    have hstrip : isAbsolute (stripTrailingSlashes path ++ '/' :: rest) = false := by
      rw [isAbsolute_strip h, habs]
    have htext : cwd ++ '/' :: (stripTrailingSlashes path ++ '/' :: rest) =
        stripTrailingSlashes (cwd ++ '/' :: path) ++ '/' :: rest := by
      have hmore : stripTrailingSlashes ('/' :: path) = '/' :: stripTrailingSlashes path :=
        @stripTrailingSlashes_append ['/'] path hne
      rw [stripTrailingSlashes_append (by simp [hmore]), hmore]
      simp
    rw [absolutePath, absolutePath, if_neg (by simp [hstrip]), if_neg (by simp [habs]), htext,
      normalizeSegments_stripTrailingSlashes]

end

/-- From a directory to what is below it. -/
theorem relative_append (dir below : List (List Char)) :
    relative dir (dir ++ below) = ['/'].intercalate below := by
  have hcommon : afterCommon dir (dir ++ below) = ([], below) := by
    induction dir with
    | nil => cases below <;> rfl
    | cons part dir ih => simpa [afterCommon] using ih
  rw [relative, hcommon]
  rfl

end Js
