import Mathlib.Tactic.Common

/-!
# Texts cut at a separator

What the parts of a cut list are, and how a cut list is put together.
-/

namespace Splitting

variable {sep : Char} {xs ys part : List Char}

theorem splitOn_append_of_not_mem (h : sep ∉ xs) :
    (xs ++ ys).splitOn sep = (ys.splitOn sep).modifyHead (xs ++ ·) := by
  induction xs with
  | nil =>
    rw [List.nil_append]
    cases ys.splitOn sep with
    | nil => rfl
    | cons => rfl
  | cons c xs ih =>
    have hc : ¬ (c == sep) = true := by
      intro hc
      exact h (beq_iff_eq.1 hc ▸ List.mem_cons_self)
    rw [List.cons_append, List.splitOn_cons_eq_if_modifyHead, if_neg hc,
      ih fun hmem => h (List.mem_cons_of_mem c hmem), List.modifyHead_modifyHead]
    rfl

theorem mem_of_mem_splitOn (h : part ∈ xs.splitOn sep) : sep ∉ part ∧ ∀ c ∈ part, c ∈ xs := by
  induction xs generalizing part with
  | nil =>
    rw [List.splitOn_nil, List.mem_singleton] at h
    subst h
    exact ⟨List.not_mem_nil, fun _ hc => hc⟩
  | cons c xs ih =>
    rw [List.splitOn_cons_eq_if_modifyHead] at h
    by_cases hc : (c == sep) = true
    · rw [if_pos hc] at h
      cases List.mem_cons.1 h with
      | inl h =>
        subst h
        exact ⟨List.not_mem_nil, fun _ hc => absurd hc List.not_mem_nil⟩
      | inr h => exact ⟨(ih h).1, fun d hd => List.mem_cons_of_mem c ((ih h).2 d hd)⟩
    · rw [if_neg hc] at h
      obtain ⟨first, rest, hsplit⟩ := List.exists_cons_of_ne_nil (List.splitOn_ne_nil sep xs)
      rw [hsplit, List.modifyHead_cons] at h
      have hne : sep ≠ c := fun heq => hc (beq_iff_eq.2 heq.symm)
      cases List.mem_cons.1 h with
      | inl h =>
        subst h
        obtain ⟨hnot, hsub⟩ := ih (hsplit ▸ List.mem_cons_self)
        refine ⟨fun hmem => ?_, fun d hd => ?_⟩
        · cases List.mem_cons.1 hmem with
          | inl heq => exact hne heq
          | inr hmem => exact hnot hmem
        · cases List.mem_cons.1 hd with
          | inl heq => exact heq ▸ List.mem_cons_self
          | inr hd => exact List.mem_cons_of_mem c (hsub d hd)
      | inr h =>
        obtain ⟨hnot, hsub⟩ := ih (hsplit ▸ List.mem_cons_of_mem first h)
        exact ⟨hnot, fun d hd => List.mem_cons_of_mem c (hsub d hd)⟩

theorem splitOn_eq (sep : Char) (xs : List Char) :
    xs.splitOn sep = xs.takeWhile (· ≠ sep) :: (xs.splitOn sep).tail := by
  induction xs with
  | nil => rfl
  | cons c xs ih =>
    rw [List.splitOn_cons_eq_if_modifyHead]
    by_cases hc : c = sep
    · simp [hc]
    · rw [if_neg (by simpa using hc), ih]
      simp [hc]

/-- What holds of each character of a text, by going through the text. -/
theorem forall_mem_of_all {p : Char → Prop} [DecidablePred p] {text : List Char}
    (h : text.all (fun c => decide (p c)) = true) : ∀ c ∈ text, p c := by
  simpa using h

/-- Parts that are joined, with a separator at the end: each part has its own. -/
theorem intercalate_append_sep {parts : List (List Char)} (h : parts ≠ []) (sep : List Char) :
    sep.intercalate parts ++ sep = parts.flatMap (· ++ sep) := by
  induction parts with
  | nil => exact absurd rfl h
  | cons part parts ih =>
    cases parts with
    | nil => simp
    | cons next parts =>
      have hrest := ih (List.cons_ne_nil next parts)
      rw [List.intercalate_cons_cons, List.append_assoc, hrest]
      rfl

end Splitting
