import Orchestration.Mail.Discharge
import Orchestration.Mail.Escalation

/-!
# Escalation chains

The forward links of an inbox make chains. The walk down a chain meets every
item that went up to reach its start and no item twice, and without clean-ups
every chain ends in one tip, which alone can be outstanding.
-/

namespace Orchestration.Mail

open Fallible Transaction Relation

section

variable {t : MailTables}

/-- Links are keyed by the item that went up. -/
theorem held_eq_of_goesUp {a b c : ℕ} (ha : GoesUp t a c) (hb : GoesUp t b c) : a = b := by
  obtain ⟨link, hlink, rfl, hseq⟩ := ha
  obtain ⟨link', hlink', rfl, hseq'⟩ := hb
  rw [Table.eq_of_key_eq hlink hlink' (hseq.trans hseq'.symm)]

theorem LinkedInbox.lt (h : LinkedInbox t) {a b : ℕ} (hup : GoesUp t a b) : a < b := by
  obtain ⟨held, _, forwarded, _, rfl, rfl, hwent⟩ := h.joins hup
  exact hwent.lt

theorem LinkedInbox.rightUnique (h : LinkedInbox t) : Relator.RightUnique (GoesUp t) :=
  fun _ _ _ hb hc => h.held_once hb hc

/-- The link below an item, if there is one. -/
theorem LinkedInbox.source_eq_none (h : LinkedInbox t) {seq : ℕ} :
    forwardSourceForSeq t seq = none ↔ ∀ a, ¬ GoesUp t a seq := by
  constructor
  · rintro hnone a ⟨link, hlink, rfl, rfl⟩
    obtain ⟨held, hheld, -, -, hseq, -⟩ := h.joins ⟨link, hlink, rfl, rfl⟩
    rw [forwardSourceForSeq, Table.find?_eq_some.2 ⟨hlink, rfl⟩, Option.bind_some,
      selectMailBySeq_eq_some.2 ⟨hheld, hseq⟩] at hnone
    cases hnone
  · intro hnone
    cases hsource : forwardSourceForSeq t seq with
    | none => rfl
    | some parent =>
      obtain ⟨link, hfind, hparent⟩ := Option.bind_eq_some_iff.1 hsource
      obtain ⟨hlink, hkey⟩ := Table.find?_eq_some.1 hfind
      exact absurd ⟨link, hlink, rfl, hkey⟩ (hnone link.heldSeq)

theorem source_eq_some {seq : ℕ} {parent : DeliveredMail}
    (h : forwardSourceForSeq t seq = some parent) : parent ∈ t.inbox ∧ GoesUp t parent.seq seq := by
  obtain ⟨link, hfind, hparent⟩ := Option.bind_eq_some_iff.1 h
  obtain ⟨hlink, hkey⟩ := Table.find?_eq_some.1 hfind
  obtain ⟨hmem, hseq⟩ := selectMailBySeq_eq_some.1 hparent
  exact ⟨hmem, link, hlink, hseq.symm, hkey⟩

/-- The items below `seq` are its source and the items below its source. -/
theorem below_iff {seq a b : ℕ} (hup : GoesUp t b seq) :
    TransGen (GoesUp t) a seq ↔ a = b ∨ TransGen (GoesUp t) a b := by
  constructor
  · intro h
    rcases TransGen.tail'_iff.1 h with ⟨c, hac, hc⟩
    obtain rfl := held_eq_of_goesUp hc hup
    exact (reflTransGen_iff_eq_or_transGen.1 hac).imp_left Eq.symm
  · rintro (rfl | h)
    · exact .single hup
    · exact h.tail hup

/-- The walk down from `cursor` fails on no inbox, and it collects what is below `cursor`. -/
theorem LinkedInbox.forwardedSourcesFrom (h : LinkedInbox t) (heldSeq : ℕ)
    {cursor : DeliveredMail} (sources : List DeliveredMail) {seen : List ℕ} (hcursor : cursor ∈ t.inbox)
    (hseen : ∀ seq ∈ seen, cursor.seq < seq) : ∃ below, forwardedSourcesFrom t heldSeq cursor sources seen = .ok (sources ++ below) ∧
      ∀ item, item ∈ below ↔ item ∈ t.inbox ∧ TransGen (GoesUp t) item.seq cursor.seq := by
  induction hn : cursor.seq using Nat.strongRecOn generalizing cursor sources seen with
  | _ n ih =>
    subst hn
    rw [Mail.forwardedSourcesFrom]
    have hnotSeen : cursor.seq ∉ seen := fun hmem => Nat.lt_irrefl _ (hseen _ hmem)
    by_cases htype : cursor.type = .escalation
    · rw [if_pos htype, dif_neg hnotSeen]
      split
      · next hnone =>
        refine ⟨[], by simp [pure, Except.pure], fun item =>
          ⟨fun hmem => absurd hmem List.not_mem_nil, ?_⟩⟩
        rintro ⟨-, hbelow⟩
        obtain ⟨b, -, hup⟩ := TransGen.tail'_iff.1 hbelow
        exact absurd hup (h.source_eq_none.1 hnone b)
      · next parent hparent =>
        obtain ⟨hmem, hup⟩ := source_eq_some hparent
        have hlt := h.lt hup
        have hseen' : ∀ seq ∈ cursor.seq :: seen, parent.seq < seq := by
          intro seq hseq
          rcases List.mem_cons.1 hseq with rfl | hseq
          · exact hlt
          · exact Nat.lt_trans hlt (hseen seq hseq)
        obtain ⟨below, hbelow, hitems⟩ := ih _ hlt (sources ++ [parent]) hmem hseen' rfl
        refine ⟨parent :: below, by simpa using hbelow, fun item => ?_⟩
        rw [List.mem_cons, hitems, below_iff hup]
        constructor
        · rintro (rfl | ⟨hitem, hrest⟩)
          · exact ⟨hmem, .inl rfl⟩
          · exact ⟨hitem, .inr hrest⟩
        · rintro ⟨hitem, hseq | hrest⟩
          · exact .inl (DeliveredMail.eq_of_seq_eq hitem hmem hseq)
          · exact .inr ⟨hitem, hrest⟩
    · rw [if_neg htype]
      refine ⟨[], by simp [pure, Except.pure], fun item =>
        ⟨fun hmem => absurd hmem List.not_mem_nil, ?_⟩⟩
      rintro ⟨-, hbelow⟩
      obtain ⟨b, -, hup⟩ := TransGen.tail'_iff.1 hbelow
      obtain ⟨_, _, forwarded, hforwarded, _, hseq, hwent⟩ := h.joins hup
      rw [DeliveredMail.eq_of_seq_eq hforwarded hcursor hseq] at hwent
      exact absurd hwent.type htype

/-- Every item has its sources: the items that went up to reach it. -/
theorem LinkedInbox.forwardedSources (h : LinkedInbox t) {item : DeliveredMail}
    (hitem : item ∈ t.inbox) : ∃ sources, forwardedSources t item = .ok sources ∧
      ∀ source, source ∈ sources ↔ source ∈ t.inbox ∧ TransGen (GoesUp t) source.seq item.seq := by
  obtain ⟨below, hbelow, hitems⟩ := h.forwardedSourcesFrom item.seq [] hitem
    (fun _ hseq => absurd hseq List.not_mem_nil)
  exact ⟨below, hbelow, hitems⟩

end

/-! ## Tips -/

/-- An actionable item that nothing discharged. -/
def Outstanding (item : DeliveredMail) : Prop :=
  item.kind = .actionable ∧ item.resolved = false ∧ item.retracted = false

/-- The items of the chain of `root`. -/
def InChain (t : MailTables) (root item : DeliveredMail) : Prop :=
  item ∈ t.inbox ∧ ReflTransGen (GoesUp t) root.seq item.seq

/-- Every chain ends in an item of the inbox. -/
theorem LinkedInbox.exists_tip {t : MailTables} (h : LinkedInbox t) {root : DeliveredMail}
    (hroot : root ∈ t.inbox) :
    ∃ tip, InChain t root tip ∧ Chain.IsTip (GoesUp t) root.seq tip.seq := by
  have hbound : ∀ a b, GoesUp t a b → b < (t.inbox.map (·.seq)).sum + 1 := by
    intro a b hup
    obtain ⟨_, _, forwarded, hforwarded, _, rfl, _⟩ := h.joins hup
    exact Nat.lt_succ_of_le (List.single_le_sum (by simp) _ (List.mem_map_of_mem hforwarded))
  obtain ⟨seq, htip⟩ := Chain.exists_tip id (fun _ _ => h.lt) hbound root.seq
  rcases htip.reached.cases_tail with rfl | ⟨b, -, hup⟩
  · exact ⟨root, ⟨hroot, .refl⟩, htip⟩
  · obtain ⟨_, _, tip, hmem, _, rfl, _⟩ := h.joins hup
    exact ⟨tip, ⟨hmem, htip.reached⟩, htip⟩

variable {ι : Type} {handles : ι → Delivery} {calls : List (ι × MailCall)} {clock : ℕ → ℕ}

theorem kind_of_forwardable {item : DeliveredMail}
    (h : item.type = .escalation ∨ item.type = .clarifyRequest) : item.kind = .actionable := by
  rcases h with h | h <;> rw [DeliveredMail.kind, h] <;> rfl

/-- Every item of a chain but its tip is discharged. -/
theorem LinkedInbox.resolved_of_inChain {t : MailTables} (h : LinkedInbox t)
    {root item tip : DeliveredMail} (htip : Chain.IsTip (GoesUp t) root.seq tip.seq)
    (hitem : InChain t root item) (hne : item.seq ≠ tip.seq) : item.resolved = true := by
  obtain ⟨b, hup⟩ := Chain.leads_on h.rightUnique htip hitem.2 hne
  exact h.resolved_of_isHeld hitem.1 (isHeld_iff_goesUp.2 ⟨b, hup⟩)

/-- In every reachable state of every run without clean-ups: an item went up once at most, and
what it went up as is a later escalation by its holder, caused by it and not withdrawn, while it
is discharged itself; so no chain is a cycle and the walk down from any item ends; and every chain
has one tip, which alone can be outstanding, and is, as long as the root is an obligation and no
mail that stands answers the tip. -/
theorem forward_chains (hcalls : ∀ call ∈ calls, call.2.clears = false) {db : Db}
    (hdb : mailRun handles calls { clock } = db) :
    (∀ link ∈ db.mail.forwardLinks.rows, ∀ link' ∈ db.mail.forwardLinks.rows,
      link.heldSeq = link'.heldSeq → link = link') ∧
    (∀ link ∈ db.mail.forwardLinks.rows, ∃ held ∈ db.mail.inbox, ∃ forwarded ∈ db.mail.inbox,
      held.seq = link.heldSeq ∧ forwarded.seq = link.forwardedSeq ∧ held.resolved = true ∧
      forwarded.type = .escalation ∧ forwarded.retracted = false ∧
      forwarded.sender = held.recipient ∧ forwarded.causationId = some (toString held.seq) ∧
      held.seq < forwarded.seq) ∧
    (∀ seq, ¬ TransGen (GoesUp db.mail) seq seq) ∧
    (∀ item ∈ db.mail.inbox, ∃ sources, forwardedSources db.mail item = .ok sources) ∧
    (∀ root ∈ db.mail.inbox, ∃ tip, InChain db.mail root tip ∧
      Chain.IsTip (GoesUp db.mail) root.seq tip.seq ∧
      (∀ item, InChain db.mail root item → Outstanding item → item = tip) ∧
      (root.kind = .actionable → root.retracted = false → ¬ Answered db.mail tip →
        Outstanding tip)) := by
  have horderly : Orderly db.mail := hdb ▸ mailRun_orderly hcalls
  have hlinked := horderly.linked
  refine ⟨fun link hlink link' hlink' hheld => ?_, fun link hlink => ?_,
    Chain.acyclic id fun _ _ => hlinked.lt, fun item hitem => ?_, fun root hroot => ?_⟩
  · refine Table.eq_of_key_eq hlink hlink' ?_
    exact hlinked.held_once ⟨link, hlink, rfl, rfl⟩ ⟨link', hlink', hheld.symm, rfl⟩
  · have hup : GoesUp db.mail link.heldSeq link.forwardedSeq := ⟨link, hlink, rfl, rfl⟩
    obtain ⟨held, hheld, forwarded, hforwarded, hheldSeq, hseq, hwent⟩ := hlinked.joins hup
    exact ⟨held, hheld, forwarded, hforwarded, hheldSeq, hseq, hwent.resolved, hwent.type,
      horderly.unretracted hup forwarded hforwarded (.inr hseq), hwent.sender, hwent.cause, hwent.lt⟩
  · obtain ⟨sources, hsources, -⟩ := hlinked.forwardedSources hitem
    exact ⟨sources, hsources⟩
  · obtain ⟨tip, hchain, htip⟩ := hlinked.exists_tip hroot
    refine ⟨tip, hchain, htip, fun item hitem hout => ?_, fun hkind hstands hanswered => ?_⟩
    · by_contra hne
      have hseq : item.seq ≠ tip.seq := fun heq =>
        hne (DeliveredMail.eq_of_seq_eq hitem.1 hchain.1 heq)
      have hresolved := hlinked.resolved_of_inChain htip hitem hseq
      rw [hout.2.1] at hresolved
      cases hresolved
    · -- the tip is the root, or the escalation that went up last
      have htipOpen : tip.kind = .actionable ∧ tip.retracted = false := by
        rcases hchain.2.cases_tail with heq | ⟨b, -, hup⟩
        · rw [← DeliveredMail.eq_of_seq_eq hchain.1 hroot heq] at hkind hstands
          exact ⟨hkind, hstands⟩
        · obtain ⟨_, _, forwarded, hforwarded, _, hseq, hwent⟩ := hlinked.joins hup
          rw [DeliveredMail.eq_of_seq_eq hforwarded hchain.1 hseq] at hwent
          exact ⟨kind_of_forwardable (.inl hwent.type),
            horderly.unretracted hup tip hchain.1 (.inr rfl)⟩
      refine ⟨htipOpen.1, ?_, htipOpen.2⟩
      rw [Bool.eq_false_iff]
      intro hresolved
      rcases horderly.sound tip hchain.1 htipOpen.1 htipOpen.2 hresolved with hheld | h
      · obtain ⟨b, hup⟩ := isHeld_iff_goesUp.1 hheld
        exact htip.last b hup
      · exact hanswered h

theorem forward_chains_of_passingOn :
    ∃ root ∈ (passedOn .inProcess).mail.inbox, root.type = .clarifyRequest ∧
      ∃ tip, InChain (passedOn .inProcess).mail root tip ∧
        Chain.IsTip (GoesUp (passedOn .inProcess).mail) root.seq tip.seq := by
  have hasked : ∃ root ∈ (passedOn .inProcess).mail.inbox, root.type = .clarifyRequest := by
    decide +kernel
  obtain ⟨root, hroot, htype⟩ := hasked
  have hcalls : ∀ call ∈ passingOn, call.2.clears = false := by decide
  have hdb : mailRun (fun _ => .inProcess) passingOn { clock := fun _ => 0 } =
      passedOn .inProcess := rfl
  obtain ⟨-, -, -, -, htips⟩ := forward_chains hcalls hdb
  obtain ⟨tip, hchain, htip, -⟩ := htips root hroot
  exact ⟨root, hroot, htype, tip, hchain, htip⟩

/-- The lead answers the manager in plain words, which closes what it holds and answers nobody
below. -/
def plainAnswer : Bool × MailCall :=
  (true, .reply (deliveredRow questionPassedOn 2 0)
    { type := .chat, subject := "re: scope", body := "ask the architect" })

/-- After a plain answer to the tip the asker still waits for its root, and nothing in the chain
is outstanding. -/
theorem plain_answer_leaves_no_tip :
    ¬ ∀ calls : List (Bool × MailCall), (∀ call ∈ calls, call.2.clears = false) →
      ∀ root ∈ (mailRun (fun _ => .inProcess) calls { clock := fun _ => 0 }).mail.inbox,
        root ∈ waitingItems (mailRun (fun _ => .inProcess) calls { clock := fun _ => 0 }).mail
          root.sender →
        ∃ tip, InChain (mailRun (fun _ => .inProcess) calls { clock := fun _ => 0 }).mail root tip ∧
          Outstanding tip := by
  intro h
  have hrun : ∃ root ∈ (mailRun (fun _ => .inProcess) (passingOn ++ [plainAnswer])
      { clock := fun _ => 0 }).mail.inbox, root ∈ waitingItems (mailRun (fun _ => .inProcess)
        (passingOn ++ [plainAnswer]) { clock := fun _ => 0 }).mail root.sender ∧
      ∀ item ∈ (mailRun (fun _ => .inProcess) (passingOn ++ [plainAnswer])
        { clock := fun _ => 0 }).mail.inbox, ¬ (item.kind = .actionable ∧ item.resolved = false ∧
          item.retracted = false) := by
    decide +kernel
  obtain ⟨root, hroot, hwaits, hnone⟩ := hrun
  obtain ⟨tip, hchain, hout⟩ := h _ (by decide) root hroot hwaits
  exact hnone tip hchain.1 hout

end Orchestration.Mail
