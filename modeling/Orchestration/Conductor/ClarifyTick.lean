import Orchestration.Conductor.ClarifyTimeouts
import Orchestration.Mail.Forwarding
import Orchestration.Roles.Store

/-!
# What one tick does

As long as every clarify whose clock has run out can be forwarded, a tick goes
through all of its candidates: it forwards just these, starts the clocks of the
ones it had not seen, and leaves the clocks of the others running.
-/

namespace Orchestration.Conductor

open Fallible Transaction
open Mail (DeliveredMail Delivery waitingItems forwardOnTimeout roleParentResolver Climbed
  nextRow upward)

/-- The clarifies that an agent waits for. -/
def waitingFor (engine : Engine) (identity : HostedIdentity) : List DeliveredMail :=
  waitingItems (engine.stores identity.projectId).mail identity.agent

/-- The agent waits for an answer to its clarify at `seq`. -/
def Waits (engine : Engine) (identity : HostedIdentity) (seq : ℕ) : Prop :=
  ∃ m ∈ waitingFor engine identity, m.seq = seq

/-- The item at `seq` went up. -/
def Held (engine : Engine) (projectId : String) (seq : ℕ) : Prop :=
  (engine.stores projectId).mail.isHeld seq = true

section

variable (deps : ConductorEngineDeps) (now : ℚ)

/-- The clock of the clarify has run out. -/
def Due (engine : Engine) (identity : HostedIdentity) (seq : ℕ) : Prop :=
  ∃ firstSeen, engine.getClock (clarifyKey identity seq) = some firstSeen ∧
    timeoutMs deps identity.projectId ≤ now - firstSeen

/-! ## One clarify -/

/-- What visiting clarifies does to the store that they are in: those that are due go up. -/
structure StoreVisited (due : ℕ → Prop) (ms : List DeliveredMail) (db db' : Db) : Prop where
  emits : Emits AnyEvent db db'
  roster : db'.roster = db.roster
  nextSeq : db'.nextSeq ≤ db.nextSeq + 2 * ms.length
  untouched : ∀ agent m, (∀ x ∈ ms, x.seq ≠ m.seq) →
    (m ∈ waitingItems db'.mail agent ↔ m ∈ waitingItems db.mail agent)
  seqs : ∀ agent seq, (∃ m ∈ waitingItems db'.mail agent, m.seq = seq) ↔
    ∃ m ∈ waitingItems db.mail agent, m.seq = seq
  held : ∀ m ∈ ms, due m.seq → db'.mail.isHeld m.seq = true
  isHeld : ∀ seq, db'.mail.isHeld seq = true →
    db.mail.isHeld seq = true ∨ ∃ m ∈ ms, m.seq = seq ∧ due seq
  keeps : ∀ seq, db.mail.isHeld seq = true → db'.mail.isHeld seq = true

/-- What visiting an agent's clarifies does to the conductor. -/
structure Visited (identity : HostedIdentity) (ms : List DeliveredMail)
    (engine engine' : Engine) : Prop where
  others : ∀ p, p ≠ identity.projectId → engine'.stores p = engine.stores p
  store : StoreVisited (Due deps now engine identity) ms (engine.stores identity.projectId)
    (engine'.stores identity.projectId)
  otherKeys : ∀ key, (∀ m ∈ ms, key ≠ clarifyKey identity m.seq) →
    engine'.getClock key = engine.getClock key
  started : ∀ m ∈ ms, engine.getClock (clarifyKey identity m.seq) = none →
    engine'.getClock (clarifyKey identity m.seq) = some now
  running : ∀ m ∈ ms, ∀ firstSeen, engine.getClock (clarifyKey identity m.seq) = some firstSeen →
    ¬ timeoutMs deps identity.projectId ≤ now - firstSeen →
    engine'.getClock (clarifyKey identity m.seq) = some firstSeen
  clocks : ∀ key t, engine'.getClock key = some t → t = now ∨ engine.getClock key = some t

variable {deps now} {engine engine' : Engine} {identity : HostedIdentity} {m : DeliveredMail}
  {ms : List DeliveredMail} {due : ℕ → Prop} {db mid db' : Db}

/-- Nothing that is due, nothing done. -/
theorem StoreVisited.refl (hnone : ∀ m ∈ ms, ¬ due m.seq) : StoreVisited due ms db db where
  emits := .refl
  roster := rfl
  nextSeq := Nat.le_add_right _ _
  untouched _ _ _ := Iff.rfl
  seqs _ _ := Iff.rfl
  held m hm hdue := absurd hdue (hnone m hm)
  isHeld _ hheld := .inl hheld
  keeps _ hheld := hheld

/-- An item that is due goes up. -/
theorem StoreVisited.of_climbed {item up : DeliveredMail} (hseq : item.seq = m.seq)
    (hclimbed : Climbed item up db.mail db'.mail) (hescalation : up.type = .escalation)
    (hemits : Emits AnyEvent db db') (hroster : db'.roster = db.roster)
    (hnext : db'.nextSeq = db.nextSeq + 2) (hdue : due m.seq) : StoreVisited due [m] db db' where
  emits := hemits
  roster := hroster
  nextSeq := Nat.le_of_eq hnext
  untouched agent row hne := by
    have hrow : item.seq ≠ row.seq := by
      rw [hseq]
      exact hne m List.mem_cons_self
    rw [hclimbed.waitingItems hescalation]
    constructor
    · rintro ⟨old, hold, rfl⟩
      have hfixed := Mail.seq_of_fixed (Mail.fixed_discharged item old)
      rw [hfixed] at hrow
      rw [Mail.discharged, if_neg hrow.symm]
      exact hold
    · intro hold
      exact ⟨row, hold, (if_neg hrow.symm).symm⟩
  seqs agent seq := by
    constructor
    · rintro ⟨row, hrow, rfl⟩
      obtain ⟨old, hold, rfl⟩ := (hclimbed.waitingItems hescalation).1 hrow
      exact ⟨old, hold, (Mail.seq_of_fixed (Mail.fixed_discharged item old)).symm⟩
    · rintro ⟨old, hold, rfl⟩
      exact ⟨_, (hclimbed.waitingItems hescalation).2 ⟨old, hold, rfl⟩,
        Mail.seq_of_fixed (Mail.fixed_discharged item old)⟩
  held row hrow _ := by
    obtain rfl := List.mem_singleton.1 hrow
    exact Mail.isHeld_iff_goesUp.2 ⟨_, hclimbed.goesUp.2 (.inr ⟨hseq.symm, rfl⟩)⟩
  isHeld seq hheld := by
    obtain ⟨b, hup⟩ := Mail.isHeld_iff_goesUp.1 hheld
    cases hclimbed.goesUp.1 hup with
    | inl hold => exact .inl (Mail.isHeld_iff_goesUp.2 ⟨b, hold⟩)
    | inr hnew =>
      obtain ⟨rfl, -⟩ := hnew
      exact .inr ⟨m, List.mem_singleton.2 rfl, hseq.symm, hseq ▸ hdue⟩
  keeps seq hheld := by
    obtain ⟨b, hup⟩ := Mail.isHeld_iff_goesUp.1 hheld
    exact Mail.isHeld_iff_goesUp.2 ⟨b, hclimbed.goesUp.2 (.inl hup)⟩

theorem parent_ne {holder parent : String} (hdb : Consistent db)
    (h : roleParentResolver db.roster holder = .ok parent) : parent ≠ "" := by
  obtain ⟨_, -, h⟩ := bind_eq_ok.1 h
  obtain ⟨row, hrow, h⟩ := bind_eq_ok.1 h
  rw [← pure_eq_ok.1 h]
  by_cases hrole : row.role = .coordinator
  · rw [if_pos hrole]
    decide
  · rw [if_neg hrole]
    exact Roles.parent_ne_of_consistent hdb row (Table.find?_eq_some.1 (orThrow_eq_ok.1 hrow)).1

/-- An open clarify whose holder has a parent goes up, through either delivery. -/
theorem forwardOnTimeout_goesUp (delivery : Delivery) (hdb : Consistent db)
    (hroom : db.nextSeq < Js.maxSafeInteger) {agent holderParent : String}
    (hm : m ∈ waitingItems db.mail agent) (hopen : m.resolved = false)
    (hparent : roleParentResolver db.roster m.recipient = .ok holderParent) :
    ∃ delivered db', forwardOnTimeout delivery m db = (.ok delivered, db') ∧
      Climbed m (nextRow db (upward holderParent m)) db.mail db'.mail ∧ Emits AnyEvent db db' ∧
      db'.roster = db.roster ∧ db'.nextSeq = db.nextSeq + 2 := by
  obtain ⟨hmem, -, htype, hvisible, -⟩ := Mail.mem_waitingItems.1 hm
  have hne := parent_ne hdb hparent
  obtain ⟨delivered, db', hforward, hrest⟩ :=
    Mail.forward_goesUp hdb hroom hmem rfl hopen hvisible (.inr htype) hne
  refine ⟨delivered, db', ?_, hrest⟩
  have hdelivery : delivery.forward m (upward holderParent m) db = (.ok delivered, db') := by
    cases delivery with
    | inProcess => exact transaction_eq_ok.2 hforward
    | live => exact Proc.tryCatch_eq_ok.2 (.inl (transaction_eq_ok.2 hforward))
  have hvalid : ∃ payload, Mail.validateEnvelope (upward holderParent m) = .ok payload := by
    refine ⟨_, bind_eq_ok.2 ⟨(), Mail.assertAddress_eq_ok.2 hne, bind_eq_ok.2 ⟨(), ?_, rfl⟩⟩⟩
    exact Mail.assertAddress_eq_ok.2 ((Mail.soundInbox_of_consistent hdb).addressed m hmem)
  obtain ⟨payload, hvalid⟩ := hvalid
  exact Proc.liftM_bind_eq_ok.2 ⟨holderParent, hparent,
    Proc.liftM_bind_eq_ok.2 ⟨payload, hvalid, hdelivery⟩⟩

/-- Visiting a clarify does not throw, unless it is due and cannot be forwarded. -/
theorem tickItem_visits (hdb : Consistent (engine.stores identity.projectId))
    (hroom : (engine.stores identity.projectId).nextSeq < Js.maxSafeInteger)
    (hm : m ∈ waitingFor engine identity)
    (hdue : Due deps now engine identity m.seq → m.resolved = false ∧
      ∃ parent, roleParentResolver (engine.stores identity.projectId).roster m.recipient =
        .ok parent) :
    ∃ forwarded engine', tickItem deps now identity m engine = (.ok forwarded, engine') ∧
      Visited deps now identity [m] engine engine' := by
  cases hclock : engine.getClock (clarifyKey identity m.seq) with
  | none =>
    refine ⟨[], engine.setClock (clarifyKey identity m.seq) now, ?_, ?_⟩
    · refine Proc.bind_eq_ok.2 ⟨none, engine, by rw [hclock], ?_⟩
      rfl
    · refine ⟨fun _ _ => rfl, .refl fun x hx hran => ?_, fun key hne => ?_, fun x hx _ => ?_,
        fun x hx firstSeen hrunning _ => ?_, fun key t ht => ?_⟩
      · obtain rfl := List.mem_singleton.1 hx
        obtain ⟨firstSeen, hsome, -⟩ := hran
        rw [hclock] at hsome
        cases hsome
      · rw [Engine.getClock_setClock, if_neg (hne m List.mem_cons_self)]
      · obtain rfl := List.mem_singleton.1 hx
        rw [Engine.getClock_setClock, if_pos rfl]
      · obtain rfl := List.mem_singleton.1 hx
        rw [hclock] at hrunning
        cases hrunning
      · rw [Engine.getClock_setClock] at ht
        by_cases hkey : key = clarifyKey identity m.seq
        · rw [if_pos hkey] at ht
          exact .inl (Option.some.inj ht).symm
        · rw [if_neg hkey] at ht
          exact .inr ht
  | some firstSeen =>
    by_cases htimeout : timeoutMs deps identity.projectId ≤ now - firstSeen
    · obtain ⟨hopen, parent, hparent⟩ := hdue ⟨firstSeen, hclock, htimeout⟩
      obtain ⟨delivered, db', hforward, hclimbed, hemits, hroster, hnext⟩ :=
        forwardOnTimeout_goesUp deps.delivery hdb hroom hm hopen hparent
      refine ⟨[delivered],
        (engine.setStore identity.projectId db').deleteClock (clarifyKey identity m.seq), ?_, ?_⟩
      · refine Proc.bind_eq_ok.2 ⟨some firstSeen, engine, by rw [hclock], ?_⟩
        dsimp only
        rw [if_pos htimeout]
        refine Proc.bind_eq_ok.2 ⟨delivered, engine.setStore identity.projectId db', ?_, rfl⟩
        rw [onProject, Proc.exec, hforward]
      · refine ⟨fun p hp => Engine.stores_setStore_of_ne hp, ?_, fun key hne => ?_,
          fun x hx hnone => ?_, fun x hx first hrunning hearly => ?_, fun key t ht => .inr ?_⟩
        · rw [Engine.stores_deleteClock, Engine.stores_setStore]
          exact .of_climbed rfl hclimbed rfl hemits hroster hnext ⟨firstSeen, hclock, htimeout⟩
        · rw [Engine.getClock_deleteClock, if_neg (hne m List.mem_cons_self),
            Engine.getClock_setStore]
        · obtain rfl := List.mem_singleton.1 hx
          rw [hclock] at hnone
          cases hnone
        · obtain rfl := List.mem_singleton.1 hx
          rw [hclock] at hrunning
          cases hrunning
          exact absurd htimeout hearly
        · rw [Engine.getClock_deleteClock, Engine.getClock_setStore] at ht
          by_cases hkey : key = clarifyKey identity m.seq
          · rw [if_pos hkey] at ht
            cases ht
          · rwa [if_neg hkey] at ht
    · refine ⟨[], engine, ?_, ⟨fun _ _ => rfl, .refl fun x hx hran => ?_, fun _ _ => rfl,
        fun x hx hnone => ?_, fun x hx first hrunning _ => hrunning, fun _ _ ht => .inr ht⟩⟩
      · refine Proc.bind_eq_ok.2 ⟨some firstSeen, engine, by rw [hclock], ?_⟩
        dsimp only
        rw [if_neg htimeout]
        rfl
      · obtain rfl := List.mem_singleton.1 hx
        obtain ⟨first, hsome, hpast⟩ := hran
        rw [hclock] at hsome
        cases hsome
        exact htimeout hpast
      · obtain rfl := List.mem_singleton.1 hx
        rw [hclock] at hnone
        cases hnone

/-! ## The clarifies of one agent -/

theorem clarifyKey_injective {seq seq' : ℕ}
    (h : clarifyKey identity seq = clarifyKey identity seq') : seq = seq' := by
  have hlists := congrArg String.toList h
  rw [clarifyKey, clarifyKey, String.toList_append, String.toList_append] at hlists
  exact Js.toString_injective (String.toList_injective (List.append_cancel_left hlists))

theorem StoreVisited.cons {due' : ℕ → Prop} (h : StoreVisited due [m] db mid)
    (h' : StoreVisited due' ms mid db') (hdue : ∀ x ∈ ms, due' x.seq ↔ due x.seq) :
    StoreVisited due (m :: ms) db db' where
  emits := h.emits.trans h'.emits
  roster := h'.roster.trans h.roster
  nextSeq := by
    have hfirst := h.nextSeq
    have hrest := h'.nextSeq
    simp only [List.length_nil, List.length_cons] at hfirst hrest ⊢
    omega
  untouched agent row hne := by
    rw [h'.untouched agent row fun x hx => hne x (List.mem_cons_of_mem m hx)]
    refine h.untouched agent row fun x hx => ?_
    obtain rfl := List.mem_singleton.1 hx
    exact hne x List.mem_cons_self
  seqs agent seq := (h'.seqs agent seq).trans (h.seqs agent seq)
  held x hx hran := by
    cases List.mem_cons.1 hx with
    | inl hfirst =>
      subst hfirst
      exact h'.keeps _ (h.held x (List.mem_singleton.2 rfl) hran)
    | inr hrest => exact h'.held x hrest ((hdue x hrest).2 hran)
  isHeld seq hheld := by
    cases h'.isHeld seq hheld with
    | inl hmid =>
      cases h.isHeld seq hmid with
      | inl hold => exact .inl hold
      | inr hnew =>
        obtain ⟨x, hx, hseq, hran⟩ := hnew
        exact .inr ⟨x, List.mem_singleton.1 hx ▸ List.mem_cons_self, hseq, hran⟩
    | inr hnew =>
      obtain ⟨x, hx, rfl, hran⟩ := hnew
      exact .inr ⟨x, List.mem_cons_of_mem m hx, rfl, (hdue x hx).1 hran⟩
  keeps seq hheld := h'.keeps seq (h.keeps seq hheld)

/-- The clarifies that are still to be visited can be. -/
structure ReadyItems (deps : ConductorEngineDeps) (now : ℚ) (identity : HostedIdentity)
    (ms : List DeliveredMail) (engine : Engine) : Prop where
  consistent : Consistent (engine.stores identity.projectId)
  room : (engine.stores identity.projectId).nextSeq + 2 * ms.length ≤ Js.maxSafeInteger
  distinct : ms.Pairwise fun a b => a.seq ≠ b.seq
  waiting : ∀ m ∈ ms, m ∈ waitingFor engine identity
  due : ∀ m ∈ ms, Due deps now engine identity m.seq → m.resolved = false ∧
    ∃ parent, roleParentResolver (engine.stores identity.projectId).roster m.recipient = .ok parent

theorem due_of_visited {x : DeliveredMail} (h : Visited deps now identity [m] engine engine')
    (hne : m.seq ≠ x.seq) : Due deps now engine' identity x.seq ↔
      Due deps now engine identity x.seq := by
  have hkey : engine'.getClock (clarifyKey identity x.seq) =
      engine.getClock (clarifyKey identity x.seq) := by
    refine h.otherKeys _ fun y hy hkeys => hne ?_
    obtain rfl := List.mem_singleton.1 hy
    exact (clarifyKey_injective hkeys).symm
  rw [Due, Due, hkey]

theorem ReadyItems.visited (h : ReadyItems deps now identity (m :: ms) engine)
    (hvisited : Visited deps now identity [m] engine engine') :
    ReadyItems deps now identity ms engine' := by
  have hne : ∀ x ∈ ms, m.seq ≠ x.seq := fun x hx => (List.pairwise_cons.1 h.distinct).1 x hx
  refine ⟨h.consistent.emits hvisited.store.emits, ?_, (List.pairwise_cons.1 h.distinct).2,
    fun x hx => ?_, fun x hx hran => ?_⟩
  · have hroom := h.room
    have hnext := hvisited.store.nextSeq
    simp only [List.length_nil, List.length_cons] at hroom hnext
    omega
  · refine (hvisited.store.untouched identity.agent x fun y hy => ?_).2
      (h.waiting x (List.mem_cons_of_mem m hx))
    obtain rfl := List.mem_singleton.1 hy
    exact hne x hx
  · rw [hvisited.store.roster]
    exact h.due x (List.mem_cons_of_mem m hx) ((due_of_visited hvisited (hne x hx)).1 hran)

theorem Visited.cons {engine'' : Engine} (h : Visited deps now identity [m] engine engine')
    (h' : Visited deps now identity ms engine' engine'') (hne : ∀ x ∈ ms, m.seq ≠ x.seq) :
    Visited deps now identity (m :: ms) engine engine'' := by
  have hkeys : ∀ x ∈ ms, clarifyKey identity m.seq ≠ clarifyKey identity x.seq :=
    fun x hx hkey => hne x hx (clarifyKey_injective hkey)
  have hsame : ∀ x ∈ ms, engine'.getClock (clarifyKey identity x.seq) =
      engine.getClock (clarifyKey identity x.seq) := by
    intro x hx
    refine h.otherKeys _ fun y hy => ?_
    obtain rfl := List.mem_singleton.1 hy
    exact (hkeys x hx).symm
  have hfirst : m ∈ [m] := List.mem_singleton.2 rfl
  refine ⟨fun p hp => (h'.others p hp).trans (h.others p hp),
    h.store.cons h'.store fun x hx => due_of_visited h (hne x hx), fun key hkey => ?_,
    fun x hx hnone => ?_, fun x hx firstSeen hrunning hearly => ?_, fun key t ht => ?_⟩
  · rw [h'.otherKeys key fun x hx => hkey x (List.mem_cons_of_mem m hx)]
    refine h.otherKeys key fun x hx => ?_
    obtain rfl := List.mem_singleton.1 hx
    exact hkey x List.mem_cons_self
  · cases List.mem_cons.1 hx with
    | inl hx =>
      subst hx
      rw [h'.otherKeys _ hkeys]
      exact h.started x hfirst hnone
    | inr hx => exact h'.started x hx ((hsame x hx).trans hnone)
  · cases List.mem_cons.1 hx with
    | inl hx =>
      subst hx
      rw [h'.otherKeys _ hkeys]
      exact h.running x hfirst firstSeen hrunning hearly
    | inr hx => exact h'.running x hx firstSeen ((hsame x hx).trans hrunning) hearly
  · cases h'.clocks key t ht with
    | inl hnow => exact .inl hnow
    | inr hold => exact h.clocks key t hold

theorem Visited.nil (engine : Engine) : Visited deps now identity [] engine engine where
  others _ _ := rfl
  store := .refl fun _ hx => absurd hx List.not_mem_nil
  otherKeys _ _ := rfl
  started _ hx := absurd hx List.not_mem_nil
  running _ hx := absurd hx List.not_mem_nil
  clocks _ _ ht := .inr ht

/-- The loop over the clarifies of an agent goes through. -/
theorem collect_tickItem_visits (h : ReadyItems deps now identity ms engine) :
    ∃ forwarded engine', Proc.collect (tickItem deps now identity) ms engine =
        (.ok forwarded, engine') ∧ Visited deps now identity ms engine engine' := by
  refine Proc.collect_spec (ReadyItems deps now identity) (Visited deps now identity)
    (fun _ => .nil _) ?_ h
  intro m ms engine hready
  have hroom := hready.room
  rw [List.length_cons] at hroom
  have hfirst : m ∈ m :: ms := List.mem_cons_self
  obtain ⟨forwarded, engine', htick, hvisited⟩ := tickItem_visits hready.consistent (by omega)
    (hready.waiting m hfirst) (hready.due m hfirst)
  refine ⟨forwarded, engine', htick, hready.visited hvisited, fun engine'' hrest => ?_⟩
  exact hvisited.cons hrest (List.pairwise_cons.1 hready.distinct).1

/-! ## One agent -/

/-- How many clarifies the agents wait for. -/
def waitingCount (engine : Engine) (ids : List HostedIdentity) : ℕ :=
  (ids.map fun identity => (waitingFor engine identity).length).sum

/-- No clock of a clarify that another agent waits for looks like one of this agent's. -/
def ScopeApart (engine : Engine) (identity : HostedIdentity) : Prop :=
  ∀ other, other ≠ identity → ∀ seq, Waits engine other seq →
    ¬ (clarifyScope identity).toList <+: (clarifyKey other seq).toList

/-- Every clarify of the agent that is due can be forwarded. -/
def DueForwardable (deps : ConductorEngineDeps) (now : ℚ) (engine : Engine)
    (identity : HostedIdentity) : Prop :=
  ∀ m ∈ waitingFor engine identity, Due deps now engine identity m.seq → m.resolved = false ∧
    ∃ parent, roleParentResolver (engine.stores identity.projectId).roster m.recipient = .ok parent

/-- What a tick over these agents does. -/
structure Swept (deps : ConductorEngineDeps) (now : ℚ) (ids : List HostedIdentity)
    (engine engine' : Engine) : Prop where
  emits : ∀ p, Emits AnyEvent (engine.stores p) (engine'.stores p)
  roster : ∀ p, (engine'.stores p).roster = (engine.stores p).roster
  nextSeq : ∀ p, (engine'.stores p).nextSeq ≤
    (engine.stores p).nextSeq + 2 * waitingCount engine ids
  untouched : ∀ other ∉ ids, waitingFor engine' other = waitingFor engine other
  waits : ∀ other seq, Waits engine' other seq ↔ Waits engine other seq
  held : ∀ identity ∈ ids, ∀ seq, Waits engine identity seq → Due deps now engine identity seq →
    Held engine' identity.projectId seq
  isHeld : ∀ p seq, Held engine' p seq → Held engine p seq ∨
    ∃ identity ∈ ids, identity.projectId = p ∧ Waits engine identity seq ∧
      Due deps now engine identity seq
  keeps : ∀ p seq, Held engine p seq → Held engine' p seq
  otherClocks : ∀ other ∉ ids, ∀ seq, Waits engine other seq →
    engine'.getClock (clarifyKey other seq) = engine.getClock (clarifyKey other seq)
  started : ∀ identity ∈ ids, ∀ seq, Waits engine identity seq →
    engine.getClock (clarifyKey identity seq) = none →
    engine'.getClock (clarifyKey identity seq) = some now
  running : ∀ identity ∈ ids, ∀ seq, Waits engine identity seq → ∀ firstSeen,
    engine.getClock (clarifyKey identity seq) = some firstSeen →
    ¬ timeoutMs deps identity.projectId ≤ now - firstSeen →
    engine'.getClock (clarifyKey identity seq) = some firstSeen
  clocks : ∀ key t, engine'.getClock key = some t → t = now ∨ engine.getClock key = some t

theorem waitingItems_sorted (t : Mail.MailTables) (agent : String) :
    (waitingItems t agent).Pairwise fun a b => a.seq < b.seq :=
  (t.inbox_sorted.filter _).filter _

theorem waitingItems_congr {t t' : Mail.MailTables} {agent : String}
    (h : ∀ m, m ∈ waitingItems t' agent ↔ m ∈ waitingItems t agent) :
    waitingItems t' agent = waitingItems t agent := by
  have : Std.Irrefl fun a b : DeliveredMail => a.seq < b.seq := ⟨fun a => Nat.lt_irrefl a.seq⟩
  have : Std.Antisymm fun a b : DeliveredMail => a.seq < b.seq :=
    ⟨fun a b hab hba => absurd hba (Nat.lt_asymm hab)⟩
  exact (waitingItems_sorted t' agent).eq_of_mem_iff (waitingItems_sorted t agent) h

/-- Agents of one project wait for different mail. -/
theorem seq_ne_of_waitingFor {other : HostedIdentity} {x : DeliveredMail} (hne : other ≠ identity)
    (hproject : other.projectId = identity.projectId) (hm : m ∈ waitingFor engine other)
    (hx : x ∈ waitingFor engine identity) : x.seq ≠ m.seq := by
  intro hseq
  obtain ⟨hmem, hsender, -⟩ := Mail.mem_waitingItems.1 hm
  obtain ⟨hmem', hsender', -⟩ := Mail.mem_waitingItems.1 hx
  rw [hproject] at hmem
  rw [DeliveredMail.eq_of_seq_eq hmem' hmem hseq, hsender] at hsender'
  cases other
  cases identity
  cases hproject
  cases hsender'
  exact hne rfl

/-- Going through an agent's clarifies takes nothing from what another agent waits for. -/
theorem Visited.waitingFor_eq {other : HostedIdentity}
    (h : Visited deps now identity (waitingFor engine identity) engine engine')
    (hne : other ≠ identity) : waitingFor engine' other = waitingFor engine other := by
  by_cases hproject : other.projectId = identity.projectId
  · have hapart : ∀ m ∈ waitingFor engine other, ∀ x ∈ waitingFor engine identity,
        x.seq ≠ m.seq := fun m hm x hx => seq_ne_of_waitingFor hne hproject hm hx
    refine waitingItems_congr fun m => ?_
    rw [hproject]
    constructor
    · intro hm
      obtain ⟨old, hold, hseq⟩ := (h.store.seqs other.agent m.seq).1 ⟨m, hm, rfl⟩
      refine (h.store.untouched other.agent m fun x hx => ?_).1 hm
      rw [← hseq]
      exact hapart old (by rw [waitingFor, hproject]; exact hold) x hx
    · intro hm
      refine (h.store.untouched other.agent m fun x hx => ?_).2 hm
      exact hapart m (by rw [waitingFor, hproject]; exact hm) x hx
  · rw [waitingFor, waitingFor, h.others _ hproject]

/-- The agent's prune spares every clock of a clarify that is waited for. -/
theorem not_stale {other : HostedIdentity} {seq : ℕ} (hapart : ScopeApart engine identity)
    (hwaits : Waits engine other seq) :
    Engine.stale identity ((waitingFor engine identity).map fun m => clarifyKey identity m.seq)
      (clarifyKey other seq) = false := by
  by_cases hne : other = identity
  · subst hne
    obtain ⟨m, hm, rfl⟩ := hwaits
    have hcontains : ((waitingFor engine other).map fun m => clarifyKey other m.seq).contains
        (clarifyKey other m.seq) = true :=
      List.contains_iff_mem.2 (List.mem_map.2 ⟨m, hm, rfl⟩)
    rw [Engine.stale, hcontains]
    simp
  · have hnot := hapart other hne seq hwaits
    rw [Engine.stale, Bool.and_eq_false_iff]
    refine .inl (Bool.eq_false_iff.2 fun hprefix => hnot ?_)
    exact List.isPrefixOf_iff_prefix.1 hprefix

theorem clarifyKey_ne {other : HostedIdentity} {seq : ℕ} (hapart : ScopeApart engine identity)
    (hne : other ≠ identity) (hwaits : Waits engine other seq) (seq' : ℕ) :
    clarifyKey other seq ≠ clarifyKey identity seq' := by
  intro hkey
  refine hapart other hne seq hwaits ?_
  rw [hkey, clarifyKey, String.toList_append]
  exact List.prefix_append _ _

/-- Visiting all that an agent waits for, and then dropping its stale clocks, is a sweep. -/
theorem Visited.swept
    (h : Visited deps now identity (waitingFor engine identity) engine engine')
    (hapart : ScopeApart engine identity) :
    Swept deps now [identity] engine (engine'.pruneClocks identity
      ((waitingFor engine identity).map fun m => clarifyKey identity m.seq)) := by
  have hstay : ∀ {other seq}, Waits engine other seq → (engine'.pruneClocks identity
      ((waitingFor engine identity).map fun m => clarifyKey identity m.seq)).getClock
        (clarifyKey other seq) = engine'.getClock (clarifyKey other seq) := by
    intro other seq hwaits
    rw [Engine.getClock_pruneClocks, not_stale hapart hwaits]
    rfl
  have hme : ∀ {P : HostedIdentity → Prop}, P identity → ∀ other ∈ [identity], P other := by
    intro P hP other hother
    rw [List.mem_singleton.1 hother]
    exact hP
  have hstore : ∀ p, p = identity.projectId ∨ engine'.stores p = engine.stores p := by
    intro p
    by_cases hp : p = identity.projectId
    · exact .inl hp
    · exact .inr (h.others p hp)
  constructor
  case emits =>
    intro p
    cases hstore p with
    | inl hp =>
      subst hp
      exact h.store.emits
    | inr hsame =>
      rw [Engine.stores_pruneClocks, hsame]
  case roster =>
    intro p
    cases hstore p with
    | inl hp =>
      subst hp
      exact h.store.roster
    | inr hsame => rw [Engine.stores_pruneClocks, hsame]
  case nextSeq =>
    intro p
    cases hstore p with
    | inl hp =>
      subst hp
      exact h.store.nextSeq
    | inr hsame =>
      rw [Engine.stores_pruneClocks, hsame]
      exact Nat.le_add_right _ _
  case untouched =>
    intro other hother
    exact h.waitingFor_eq fun heq => hother (List.mem_singleton.2 heq)
  case waits =>
    intro other seq
    show (∃ m ∈ waitingItems (engine'.stores other.projectId).mail other.agent, m.seq = seq) ↔
      ∃ m ∈ waitingItems (engine.stores other.projectId).mail other.agent, m.seq = seq
    cases hstore other.projectId with
    | inl hp =>
      rw [hp]
      exact h.store.seqs other.agent seq
    | inr hsame => rw [hsame]
  case held =>
    refine hme fun seq hwaits hdue => ?_
    obtain ⟨m, hm, rfl⟩ := hwaits
    exact h.store.held m hm hdue
  case isHeld =>
    intro p seq hheld
    cases hstore p with
    | inl hp =>
      subst hp
      cases h.store.isHeld seq hheld with
      | inl hold => exact .inl hold
      | inr hnew =>
        obtain ⟨m, hm, hseq, hdue⟩ := hnew
        exact .inr ⟨identity, List.mem_singleton.2 rfl, rfl, ⟨m, hm, hseq⟩, hdue⟩
    | inr hsame =>
      rw [Held, Engine.stores_pruneClocks, hsame] at hheld
      exact .inl hheld
  case keeps =>
    intro p seq hheld
    cases hstore p with
    | inl hp =>
      subst hp
      exact h.store.keeps seq hheld
    | inr hsame =>
      rw [Held, Engine.stores_pruneClocks, hsame]
      exact hheld
  case otherClocks =>
    intro other hother seq hwaits
    rw [hstay hwaits]
    refine h.otherKeys _ fun m _ => ?_
    exact clarifyKey_ne hapart (fun heq => hother (List.mem_singleton.2 heq)) hwaits m.seq
  case started =>
    refine hme fun seq hwaits hnone => ?_
    rw [hstay hwaits]
    obtain ⟨m, hm, rfl⟩ := hwaits
    exact h.started m hm hnone
  case running =>
    refine hme fun seq hwaits firstSeen hrunning hearly => ?_
    rw [hstay hwaits]
    obtain ⟨m, hm, rfl⟩ := hwaits
    exact h.running m hm firstSeen hrunning hearly
  case clocks =>
    intro key t ht
    refine h.clocks key t ?_
    rw [Engine.getClock_pruneClocks] at ht
    split at ht
    · cases ht
    · exact ht

/-- A tick goes through the clarifies of one agent. -/
theorem tickAgent_sweeps (hconsistent : Consistent (engine.stores identity.projectId))
    (hroom : (engine.stores identity.projectId).nextSeq +
      2 * (waitingFor engine identity).length ≤ Js.maxSafeInteger)
    (hdue : DueForwardable deps now engine identity) (hapart : ScopeApart engine identity) :
    ∃ forwarded engine', tickAgent deps now identity engine = (.ok forwarded, engine') ∧
      Swept deps now [identity] engine engine' := by
  have hready : ReadyItems deps now identity (waitingFor engine identity) engine :=
    ⟨hconsistent, hroom, (waitingItems_sorted _ _).imp fun hlt => Nat.ne_of_lt hlt,
      fun _ hm => hm, hdue⟩
  obtain ⟨forwarded, mid, hcollect, hvisited⟩ := collect_tickItem_visits hready
  have hread : onProject identity.projectId
      (transaction (Mail.reading (waitingItems · identity.agent))) engine =
        (.ok (waitingFor engine identity), engine) := by
    refine Prod.ext rfl ?_
    change engine.setStore identity.projectId (engine.stores identity.projectId) = engine
    rw [Engine.setStore, Function.update_eq_self]
  refine ⟨forwarded, mid.pruneClocks identity
    ((waitingFor engine identity).map fun m => clarifyKey identity m.seq), ?_, ?_⟩
  · exact Proc.bind_eq_ok.2 ⟨_, engine, hread, Proc.bind_eq_ok.2 ⟨forwarded, mid, hcollect,
      Proc.bind_eq_ok.2 ⟨(), _, rfl, rfl⟩⟩⟩
  · exact hvisited.swept hapart

/-! ## All candidates -/

/-- A tick over these agents can forward all that is due. -/
structure Ready (deps : ConductorEngineDeps) (now : ℚ) (ids : List HostedIdentity)
    (engine : Engine) : Prop where
  distinct : ids.Nodup
  consistent : ∀ p, Consistent (engine.stores p)
  due : ∀ identity ∈ ids, DueForwardable deps now engine identity
  apart : ∀ identity ∈ ids, ScopeApart engine identity
  room : ∀ p, (engine.stores p).nextSeq + 2 * waitingCount engine ids ≤ Js.maxSafeInteger

theorem waitingCount_cons {ids : List HostedIdentity} : waitingCount engine (identity :: ids) =
    (waitingFor engine identity).length + waitingCount engine ids := rfl

theorem Swept.waitingCount_eq {ids others : List HostedIdentity}
    (h : Swept deps now ids engine engine') (hapart : ∀ other ∈ others, other ∉ ids) :
    waitingCount engine' others = waitingCount engine others := by
  rw [waitingCount, waitingCount, List.map_congr_left fun other hother => ?_]
  rw [h.untouched other (hapart other hother)]

theorem Swept.due_iff {ids : List HostedIdentity} {other : HostedIdentity} {seq : ℕ}
    (h : Swept deps now ids engine engine') (hother : other ∉ ids)
    (hwaits : Waits engine other seq) :
    Due deps now engine' other seq ↔ Due deps now engine other seq := by
  rw [Due, Due, h.otherClocks other hother seq hwaits]

theorem Ready.swept {ids : List HostedIdentity} (h : Ready deps now (identity :: ids) engine)
    (hswept : Swept deps now [identity] engine engine') : Ready deps now ids engine' := by
  obtain ⟨hnot, hdistinct⟩ := List.nodup_cons.1 h.distinct
  have hapart : ∀ other ∈ ids, other ∉ [identity] := by
    intro other hother heq
    rw [List.mem_singleton.1 heq] at hother
    exact hnot hother
  refine ⟨hdistinct, fun p => (h.consistent p).emits (hswept.emits p), fun other hother m hm hran => ?_,
    fun other hother => ?_, fun p => ?_⟩
  · rw [hswept.untouched other (hapart other hother)] at hm
    rw [hswept.roster]
    exact h.due other (List.mem_cons_of_mem _ hother) m hm
      ((hswept.due_iff (hapart other hother) ⟨m, hm, rfl⟩).1 hran)
  · intro third hne seq hwaits
    exact h.apart other (List.mem_cons_of_mem _ hother) third hne seq
      ((hswept.waits third seq).1 hwaits)
  · have hroom := h.room p
    have hnext := hswept.nextSeq p
    rw [waitingCount_cons] at hroom hnext
    have hnone : waitingCount engine [] = 0 := rfl
    rw [hswept.waitingCount_eq hapart]
    omega

theorem Swept.nil (engine : Engine) : Swept deps now [] engine engine where
  emits _ := .refl
  roster _ := rfl
  nextSeq _ := Nat.le_add_right _ _
  untouched _ _ := rfl
  waits _ _ := Iff.rfl
  held _ h := absurd h List.not_mem_nil
  isHeld _ _ hheld := .inl hheld
  keeps _ _ hheld := hheld
  otherClocks _ _ _ _ := rfl
  started _ h := absurd h List.not_mem_nil
  running _ h := absurd h List.not_mem_nil
  clocks _ _ ht := .inr ht

theorem Swept.cons {ids : List HostedIdentity} {engine'' : Engine}
    (h : Swept deps now [identity] engine engine') (h' : Swept deps now ids engine' engine'')
    (hnot : identity ∉ ids) : Swept deps now (identity :: ids) engine engine'' := by
  have hapart : ∀ other ∈ ids, other ∉ [identity] := by
    intro other hother heq
    rw [List.mem_singleton.1 heq] at hother
    exact hnot hother
  have hfirst : identity ∈ [identity] := List.mem_singleton.2 rfl
  have hsplit : ∀ {other}, other ∉ identity :: ids → other ∉ [identity] ∧ other ∉ ids := by
    intro other hother
    exact ⟨fun heq => hother (List.mem_singleton.1 heq ▸ List.mem_cons_self),
      fun hmem => hother (List.mem_cons_of_mem _ hmem)⟩
  constructor
  case emits => exact fun p => (h.emits p).trans (h'.emits p)
  case roster => exact fun p => (h'.roster p).trans (h.roster p)
  case nextSeq =>
    intro p
    have hmid := h.nextSeq p
    have hlast := h'.nextSeq p
    rw [h.waitingCount_eq hapart] at hlast
    rw [waitingCount_cons] at hmid ⊢
    have hnone : waitingCount engine [] = 0 := rfl
    omega
  case untouched =>
    intro other hother
    rw [h'.untouched other (hsplit hother).2, h.untouched other (hsplit hother).1]
  case waits => exact fun other seq => (h'.waits other seq).trans (h.waits other seq)
  case held =>
    intro other hother seq hwaits hdue
    cases List.mem_cons.1 hother with
    | inl heq =>
      subst heq
      exact h'.keeps _ seq (h.held other hfirst seq hwaits hdue)
    | inr hmem =>
      exact h'.held other hmem seq ((h.waits other seq).2 hwaits)
        ((h.due_iff (hapart other hmem) hwaits).2 hdue)
  case isHeld =>
    intro p seq hheld
    cases h'.isHeld p seq hheld with
    | inl hmid =>
      cases h.isHeld p seq hmid with
      | inl hold => exact .inl hold
      | inr hnew =>
        obtain ⟨other, hother, hrest⟩ := hnew
        exact .inr ⟨other, List.mem_singleton.1 hother ▸ List.mem_cons_self, hrest⟩
    | inr hnew =>
      obtain ⟨other, hother, hproject, hwaits, hdue⟩ := hnew
      have hold := (h.waits other seq).1 hwaits
      exact .inr ⟨other, List.mem_cons_of_mem _ hother, hproject, hold,
        (h.due_iff (hapart other hother) hold).1 hdue⟩
  case keeps => exact fun p seq hheld => h'.keeps p seq (h.keeps p seq hheld)
  case otherClocks =>
    intro other hother seq hwaits
    rw [h'.otherClocks other (hsplit hother).2 seq ((h.waits other seq).2 hwaits),
      h.otherClocks other (hsplit hother).1 seq hwaits]
  case started =>
    intro other hother seq hwaits hnone
    have hmid := (h.waits other seq).2 hwaits
    cases List.mem_cons.1 hother with
    | inl heq =>
      subst heq
      rw [h'.otherClocks other hnot seq hmid]
      exact h.started other hfirst seq hwaits hnone
    | inr hmem =>
      refine h'.started other hmem seq hmid ?_
      rw [h.otherClocks other (hapart other hmem) seq hwaits]
      exact hnone
  case running =>
    intro other hother seq hwaits firstSeen hrunning hearly
    have hmid := (h.waits other seq).2 hwaits
    cases List.mem_cons.1 hother with
    | inl heq =>
      subst heq
      rw [h'.otherClocks other hnot seq hmid]
      exact h.running other hfirst seq hwaits firstSeen hrunning hearly
    | inr hmem =>
      refine h'.running other hmem seq hmid firstSeen ?_ hearly
      rw [h.otherClocks other (hapart other hmem) seq hwaits]
      exact hrunning
  case clocks =>
    intro key t ht
    cases h'.clocks key t ht with
    | inl hnow => exact .inl hnow
    | inr hold => exact h.clocks key t hold

theorem nodup_firsts {α : Type} [DecidableEq α] (entries : List α) : (firsts entries).Nodup :=
  List.nodup_reverse.2 (List.nodup_dedup _)

theorem mem_firsts {α : Type} [DecidableEq α] {entries : List α} {a : α} :
    a ∈ firsts entries ↔ a ∈ entries := by
  rw [firsts, List.mem_reverse, List.mem_dedup, List.mem_reverse]

theorem mem_agentsByProject {candidates : List HostedIdentity} :
    identity ∈ agentsByProject candidates ↔ identity ∈ candidates := by
  rw [agentsByProject, List.mem_flatMap]
  constructor
  · rintro ⟨p, -, hmem⟩
    exact (List.mem_filter.1 (mem_firsts.1 hmem)).1
  · intro hmem
    refine ⟨identity.projectId, mem_firsts.2 (List.mem_map_of_mem hmem), mem_firsts.2 ?_⟩
    exact List.mem_filter.2 ⟨hmem, decide_eq_true rfl⟩

theorem nodup_agentsByProject (candidates : List HostedIdentity) :
    (agentsByProject candidates).Nodup := by
  refine List.nodup_flatMap.2 ⟨fun p _ => nodup_firsts _, ?_⟩
  refine (nodup_firsts _).imp fun {p q} hpq => ?_
  intro other hp hq
  have hother := (List.mem_filter.1 (mem_firsts.1 hp)).2
  have hother' := (List.mem_filter.1 (mem_firsts.1 hq)).2
  exact hpq ((of_decide_eq_true hother).symm.trans (of_decide_eq_true hother'))

/-- A tick that can forward all that is due sweeps its candidates. -/
theorem tick_sweeps {candidates : List HostedIdentity}
    (h : Ready deps now (agentsByProject candidates) engine) :
    ∃ forwarded engine', tickClarifyTimeouts deps now candidates engine = (.ok forwarded, engine') ∧
      Swept deps now (agentsByProject candidates) engine engine' := by
  refine Proc.collect_spec (Ready deps now) (Swept deps now) (fun _ => .nil _) ?_ h
  intro identity ids engine hready
  have hfirst : identity ∈ identity :: ids := List.mem_cons_self
  have hroom := hready.room identity.projectId
  rw [waitingCount_cons] at hroom
  obtain ⟨forwarded, engine', htick, hswept⟩ := tickAgent_sweeps
    (hready.consistent identity.projectId) (by omega) (hready.due identity hfirst)
    (hready.apart identity hfirst)
  refine ⟨forwarded, engine', htick, hready.swept hswept, fun engine'' hrest => ?_⟩
  exact hswept.cons hrest (List.nodup_cons.1 hready.distinct).1

end

end Orchestration.Conductor
