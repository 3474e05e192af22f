import Orchestration.Issues.CredentialShapes

/-!
# Private keys

A private key lies between two fences. Anything may stand between them, but a fence is a word, so
two fences in the result were there before.
-/

namespace Orchestration.Issues

open Js Js.Regex

/-- The pattern of private keys. -/
def keyBlock : Regex :=
  .seq (keyFence "BEGIN") (.seq (.times 0 none true (.one fun _ => true)) (keyFence "END"))

/-- The characters of a fence. -/
def isFenceChar (c : Char) : Bool := upperOrDigit c || c = '-' || c = ' '

theorem fence_ends (word : String) : ("-----" ++ word ++ " ").toList =
    '-' :: ("----".toList ++ (word.toList ++ [' '])) := by
  rw [String.toList_append, String.toList_append, List.append_assoc]
  rfl

section

variable {b b' : Option Char} {xs post post' text out : List Char} {word : String}

theorem plain_fence : (keyFence word).Plain :=
  ⟨plain_literally, ⟨trivial, plain_literally⟩, plain_literally⟩

theorem consuming_fence : (keyFence word).Consuming := by
  refine ⟨consuming_literally, ⟨⟨consuming_times_one, consuming_literally⟩, ?_⟩,
    consuming_literally⟩
  rintro b post ⟨ys, zs, hsplit, -, hspace⟩
  rw [matches_literally.1 hspace] at hsplit
  cases (List.append_eq_nil_iff.1 hsplit.symm).2

theorem within_fence (hword : word.toList.all upperOrDigit = true) :
    (keyFence word).Within fun c => isFenceChar c = true := by
  have hupper : ∀ c, upperOrDigit c = true → isFenceChar c = true := by
    intro c hc
    simp [isFenceChar, hc]
  have hone : ∀ s : String, s.toList.all isFenceChar = true →
      (literally s).Within fun c => isFenceChar c = true :=
    fun s hall => within_literally (List.all_eq_true.1 hall)
  refine ⟨within_literally fun c hc => ?_, ⟨hupper, hone " " (by decide)⟩,
    hone "PRIVATE KEY-----" (by decide)⟩
  rw [fence_ends, List.mem_cons, List.mem_append, List.mem_append, List.mem_singleton] at hc
  rcases hc with rfl | hc | hc | rfl
  · decide
  · exact List.all_eq_true.1 (show "----".toList.all isFenceChar = true by decide) c hc
  · exact hupper c (List.all_eq_true.1 hword c hc)
  · decide

theorem isFenceChar_ne {c : Char} (h : isFenceChar c = true) : c ≠ '[' ∧ c ≠ ']' := by
  constructor <;> rintro rfl <;> exact absurd h (by decide)

/-- A fence begins and ends with a dash, and names a private key. -/
theorem fence_split (h : (keyFence word).Matches b xs post) :
    ∃ ys, xs = '-' :: (ys ++ "PRIVATE KEY----".toList ++ ['-']) := by
  obtain ⟨ys, _, rfl, hys, zs, ws, rfl, -, hws⟩ := h
  rw [matches_literally.1 hys, matches_literally.1 hws, fence_ends]
  refine ⟨"----".toList ++ (word.toList ++ [' ']) ++ zs, ?_⟩
  rw [show "PRIVATE KEY-----".toList = "PRIVATE KEY----".toList ++ ['-'] by decide]
  simp only [List.cons_append, List.append_assoc]

theorem word_fence (hword : word.toList.all upperOrDigit = true)
    (h : (keyFence word).Matches b xs post) : Word xs := by
  have hall := (within_fence hword).matches h
  obtain ⟨ys, hxs⟩ := fence_split h
  refine ⟨fun hmem => (isFenceChar_ne (hall _ hmem)).1 rfl,
    fun hmem => (isFenceChar_ne (hall _ hmem)).2 rfl, ⟨'P', ?_, by decide⟩, ?_, ?_⟩
  · have hkey : 'P' ∈ "PRIVATE KEY----".toList := by decide
    rw [hxs]
    exact List.mem_cons_of_mem _ (List.mem_append_left _ (List.mem_append_right _ hkey))
  · rw [hxs]
    exact fun hhead => by cases hhead
  · rw [hxs, lastOf_cons, lastOf_append]
    exact fun hlast => by cases hlast

/-- What a private key consists of. -/
theorem matches_keyBlock : keyBlock.Matches b xs post ↔ ∃ f body g, xs = f ++ (body ++ g) ∧
    (keyFence "BEGIN").Matches none f [] ∧ (keyFence "END").Matches none g [] := by
  constructor
  · rintro ⟨f, _, rfl, hf, body, g, rfl, -, hg⟩
    exact ⟨f, body, g, rfl, plain_fence.matches hf, plain_fence.matches hg⟩
  · rintro ⟨f, body, g, rfl, hf, hg⟩
    refine ⟨f, _, rfl, plain_fence.matches hf, body, g, rfl, ?_, plain_fence.matches hg⟩
    exact matches_times_one.2 ⟨Nat.zero_le _, fun _ hm => (by cases hm), fun _ _ => rfl⟩

theorem consuming_keyBlock : keyBlock.Consuming :=
  ⟨consuming_fence, consuming_times_one, consuming_fence⟩

theorem word_begin (h : (keyFence "BEGIN").Matches b xs post) : Word xs :=
  word_fence (by decide) h

theorem word_end (h : (keyFence "END").Matches b xs post) : Word xs := word_fence (by decide) h

/-- No private key is in the result but one that was there before. -/
theorem free_keyBlock (h : Redacts (fun b text _ => keyBlock.NoMatch b text) b text out) :
    keyBlock.Free b' out := by
  induction h generalizing b' with
  | nil => trivial
  | @keep b c rest out hno h ih =>
    refine ⟨fun xs post' hout hmatch => ?_, ih⟩
    obtain ⟨f, body, g, rfl, hf, hg⟩ := matches_keyBlock.1 hmatch
    have hall : Redacts (fun b text _ => keyBlock.NoMatch b text) b (c :: rest) (c :: out) :=
      .keep hno h
    rw [List.append_assoc, List.append_assoc] at hout
    have hfence := word_begin hf
    obtain ⟨post, htext, hpost⟩ := kept_of_prefix hall hout hfence.opening hfence.last
    obtain ⟨body', more, rfl⟩ := word_of_redacts hpost (word_end hg) rfl
    refine hno (f ++ (body' ++ g)) more ?_ (matches_keyBlock.2 ⟨f, body', g, rfl, hf, hg⟩)
    rw [htext, List.append_assoc, List.append_assoc]
  | @cut b m rest r out hcut h ih =>
    refine free_append (fun r₁ r₂ hr hne xs post' hout hmatch => ?_) ih
    obtain ⟨f, body, g, rfl, hf, -⟩ := matches_keyBlock.1 hmatch
    rw [List.append_assoc] at hout
    exact hcut.clear hr hne (word_begin hf) hout

theorem cut_keyBlock (h : keyBlock.Matches b xs post) : Cut b xs post REDACTED_TOKEN := by
  obtain ⟨f, body, g, rfl, hf, hg⟩ := matches_keyBlock.1 h
  have hbegin := word_begin hf
  obtain ⟨ys, hfence⟩ := fence_split hf
  obtain ⟨zs, hlast⟩ := fence_split hg
  have hhead : (f ++ (body ++ g)).head? = some '-' := by
    rw [hfence]
    rfl
  refine ⟨fun hnil => ?_, marker_token, fun _ => ?_, fun _ => ?_, fun _ c hc => ?_, ?_, ?_⟩
  · rw [hnil] at hhead
    cases hhead
  · rw [hhead]
    decide
  · rw [lastOf_append, lastOf_append, hlast, lastOf_cons, lastOf_append]
    rfl
  · obtain rfl := Option.some.inj (hhead.symm.trans hc)
    exact ⟨by decide, by decide⟩
  · rw [hhead]
    decide
  · exact inMarker_of_word hbegin.closing hbegin.unmarked

/-- The pass of the private keys. -/
theorem redacts_keyBlock (text : List Char) :
    Redacts (fun b text _ => keyBlock.NoMatch b text) none text
      (keyBlock.replaceAll redactTokenMatch text) := by
  refine Regex.rewrites_replaceFrom consuming_keyBlock (fun _ _ => True)
    (fun _ _ _ _ _ => trivial) (fun b m rest _ hmatch _ => ?_) (Nat.le_refl _) trivial
  have hcut := cut_keyBlock hmatch
  obtain ⟨f, body, g, rfl, hf, -⟩ := matches_keyBlock.1 hmatch
  obtain ⟨ys, rfl⟩ := fence_split hf
  refine ⟨hcut.nonempty, ?_, trivial⟩
  rw [List.cons_append, redactTokenMatch_of_head (by decide) (.inl (by decide))]
  exact hcut

end

end Orchestration.Issues
