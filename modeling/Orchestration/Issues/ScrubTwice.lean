import Orchestration.Issues.CredentialPatterns
import Orchestration.Issues.HomePaths
import Orchestration.Issues.PrivateKeys

/-!
# Scrubbing twice

After its own pass a pattern matches nowhere, and no later pass makes a match for it. A second
scrubbing therefore finds nothing to redact.
-/

namespace Orchestration.Issues

open Js Js.Regex

/-- A pass whose pattern matches nowhere after it. -/
structure Clears (p : Regex) (replacer : List Char → List Char) : Prop where
  consuming : p.Consuming
  clears : ∀ text, p.Free none (p.replaceAll replacer text)

/-- No redaction makes a match for the pattern. -/
def Stays (p : Regex) : Prop :=
  ∀ text out, Redacts (fun _ _ _ => True) none text out → p.Free none text → p.Free none out

/-- What a pass of the scrubbing is. -/
structure Pass (p : Regex) (replacer : List Char → List Char) : Prop extends Clears p replacer where
  redacts : ∀ text, Redacts (fun _ _ _ => True) none text (p.replaceAll replacer text)
  stays : Stays p

section

variable {p : Regex} {replacer : List Char → List Char}

theorem Clears.replaceAll_of_free (h : Clears p replacer) {text : List Char}
    (hfree : p.Free none text) : p.replaceAll replacer text = text :=
  Regex.replaceFrom_of_free h.consuming hfree text.length

/-- A pattern that matches nowhere in what keeps no match of it. -/
theorem stays_of_free (h : ∀ text out,
    Redacts (fun b text _ => p.NoMatch b text) none text out → p.Free none out) : Stays p :=
  fun text out hredacts hfree => h text out (hredacts.free hfree)

theorem pass_of_free (hconsuming : p.Consuming)
    (hredacts : ∀ text, Redacts (fun b text _ => p.NoMatch b text) none text
      (p.replaceAll replacer text))
    (hfree : ∀ text out, Redacts (fun b text _ => p.NoMatch b text) none text out →
      p.Free none out) : Pass p replacer where
  consuming := hconsuming
  clears text := hfree _ _ (hredacts text)
  redacts text := (hredacts text).mono fun _ _ _ _ => trivial
  stays := stays_of_free hfree

theorem Local.free_of_noMatch (h : Local p) (text out : List Char)
    (hredacts : Redacts (fun b text _ => p.NoMatch b text) none text out) : p.Free none out :=
  h.free (hredacts.mono fun _ _ _ => clear_of_noMatch) (.inl rfl)

theorem IsToken.pass (h : IsToken p) : Pass p redactTokenMatch :=
  pass_of_free h.consuming (redacts_of_isToken h) (local_of_isToken h).free_of_noMatch

theorem IsLabelled.pass {label : Regex} {size : ℕ} {marks : String}
    (h : IsLabelled p label size marks) : Pass p redactTokenMatch where
  consuming := h.consuming
  clears text := h.local.free (h.redacts text) (.inl rfl)
  redacts text := (h.redacts text).mono fun _ _ _ _ => trivial
  stays := stays_of_free h.local.free_of_noMatch

theorem pass_email : Pass EMAIL_RE fun _ => REDACTED_EMAIL :=
  pass_of_free consuming_email redacts_email local_email.free_of_noMatch

theorem pass_keyBlock : Pass keyBlock redactTokenMatch :=
  pass_of_free consuming_keyBlock redacts_keyBlock fun _ _ h => free_keyBlock h

theorem clears_home : Clears HOME_PATH_RE redactHomePath :=
  ⟨consuming_home, fun text => free_rewrites_home (rewrites_home text)⟩

theorem stays_home : Stays HOME_PATH_RE := stays_of_free fun _ _ h => free_home h

end

theorem pass_tokens : ∀ p ∈ TOKEN_RES, Pass p redactTokenMatch := by
  simp only [TOKEN_RES, List.forall_mem_cons]
  exact ⟨isToken_github.pass, isToken_githubPat.pass, isToken_secretKey.pass, isToken_gitlab.pass,
    isToken_slack.pass, isToken_amazon.pass, isToken_google.pass, isToken_npm.pass, pass_keyBlock,
    isLabelled_bearer.pass, isLabelled_basic.pass, fun p hp => absurd hp List.not_mem_nil⟩

/-! ## All passes -/

section

variable {replacer : List Char → List Char}

/-- What no redaction makes is made by no list of passes. -/
theorem free_foldl {q : Regex} (hq : Stays q) {res : List Regex}
    (hres : ∀ p ∈ res, Pass p replacer) {text : List Char} (h : q.Free none text) :
    q.Free none (res.foldl (fun scrubbed re => re.replaceAll replacer scrubbed) text) := by
  induction res generalizing text with
  | nil => exact h
  | cons p res ih =>
    have hp := hres p List.mem_cons_self
    exact ih (fun p' hp' => hres p' (List.mem_cons_of_mem _ hp')) (hq _ _ (hp.redacts text) h)

/-- After all passes none of their patterns matches. -/
theorem free_of_passes {res : List Regex} (hres : ∀ p ∈ res, Pass p replacer) (text : List Char) :
    ∀ q ∈ res, q.Free none
      (res.foldl (fun scrubbed re => re.replaceAll replacer scrubbed) text) := by
  induction res generalizing text with
  | nil => exact fun q hq => absurd hq List.not_mem_nil
  | cons p res ih =>
    have hp := hres p List.mem_cons_self
    have hrest : ∀ p' ∈ res, Pass p' replacer :=
      fun p' hp' => hres p' (List.mem_cons_of_mem _ hp')
    intro q hq
    rcases List.mem_cons.1 hq with rfl | hq
    · exact free_foldl hp.stays hrest (hp.clears text)
    · exact ih hrest _ q hq

theorem foldl_of_free {res : List Regex} (hres : ∀ p ∈ res, Pass p replacer) {text : List Char}
    (h : ∀ q ∈ res, q.Free none text) :
    res.foldl (fun scrubbed re => re.replaceAll replacer scrubbed) text = text := by
  induction res with
  | nil => rfl
  | cons p res ih =>
    rw [List.foldl_cons, (hres p List.mem_cons_self).replaceAll_of_free (h p List.mem_cons_self)]
    exact ih (fun p' hp' => hres p' (List.mem_cons_of_mem _ hp'))
      fun q hq => h q (List.mem_cons_of_mem _ hq)

/-- The passes over the tokens leave no match for any pattern. -/
theorem free_of_tokens {res : List Regex} (hres : ∀ p ∈ res, Pass p replacer) {text : List Char}
    (hhome : HOME_PATH_RE.Free none text) (hemail : EMAIL_RE.Free none text) : ∃ scrubbed,
      res.foldl (fun scrubbed re => re.replaceAll replacer scrubbed) text = scrubbed ∧
        HOME_PATH_RE.Free none scrubbed ∧ EMAIL_RE.Free none scrubbed ∧
          ∀ q ∈ res, q.Free none scrubbed :=
  ⟨_, rfl, free_foldl stays_home hres hhome, free_foldl pass_email.stays hres hemail,
    free_of_passes hres text⟩

end

/-- The scrubbing of a text that is a list of characters. -/
theorem scrubOutwardText_eq (text : String) : scrubOutwardText text =
    String.ofList (TOKEN_RES.foldl (fun scrubbed re => re.replaceAll redactTokenMatch scrubbed)
      (EMAIL_RE.replaceAll (fun _ => REDACTED_EMAIL)
        (HOME_PATH_RE.replaceAll redactHomePath text.toList))) := rfl

/-- No pattern matches anywhere in a text that was scrubbed. -/
theorem scrubOutwardText_free (text : String) :
    HOME_PATH_RE.Free none (scrubOutwardText text).toList ∧
      EMAIL_RE.Free none (scrubOutwardText text).toList ∧
        ∀ re ∈ TOKEN_RES, re.Free none (scrubOutwardText text).toList := by
  have hpaths := clears_home.clears text.toList
  have hhome := stays_home _ _ (pass_email.redacts _) hpaths
  have hemail := pass_email.clears (HOME_PATH_RE.replaceAll redactHomePath text.toList)
  obtain ⟨scrubbed, hscrubbed, hhome', hemail', htokens⟩ :=
    free_of_tokens pass_tokens hhome hemail
  rw [scrubOutwardText_eq text, hscrubbed, String.toList_ofList]
  exact ⟨hhome', hemail', htokens⟩

/-- What is scrubbed stays as it is. -/
theorem scrubOutwardText_idempotent (text : String) :
    scrubOutwardText (scrubOutwardText text) = scrubOutwardText text := by
  have hpaths := clears_home.clears text.toList
  have hhome := stays_home _ _ (pass_email.redacts _) hpaths
  have hemail := pass_email.clears (HOME_PATH_RE.replaceAll redactHomePath text.toList)
  obtain ⟨scrubbed, hscrubbed, hhome', hemail', htokens⟩ :=
    free_of_tokens pass_tokens hhome hemail
  rw [scrubOutwardText_eq text, hscrubbed, scrubOutwardText_eq, String.toList_ofList,
    clears_home.replaceAll_of_free hhome', pass_email.replaceAll_of_free hemail',
    foldl_of_free pass_tokens htokens]

end Orchestration.Issues
