import Orchestration.Library.Run
import Orchestration.OperatorIpc.Books
import Orchestration.OperatorIpc.Facades

/-!
# Calls over the operator-IPC channel

A handler answers on the socket that is attached when it finishes. When that socket
belongs to another connection, the answer can fulfil a call of the same number there;
otherwise no call is crossed, doubled or left hanging.
-/

namespace Orchestration.OperatorIpc

variable {Payload : Type}

namespace Channel

variable {s : Channel Payload}

/-- Everything that is on the way, or in work, belongs to a call in the books. -/
structure WireInv (s : Channel Payload) : Prop where
  connection : ∀ c, OnWire s.handlers c (s.connections c)
  handlers_sent : ∀ h ∈ s.handlers, h.request ∈ (s.connections h.connection).sent
  handlers_once : (s.handlers.map Handler.key).Nodup

namespace WireInv

/-- Only the connections and the handlers matter. -/
theorem congr {t : Channel Payload} (h : s.WireInv) (hconnections : t.connections = s.connections)
    (hhandlers : t.handlers = s.handlers) : t.WireInv := by
  refine ⟨?_, ?_, ?_⟩
  · rw [hconnections, hhandlers]
    exact h.connection
  · rw [hconnections, hhandlers]
    exact h.handlers_sent
  · rw [hhandlers]
    exact h.handlers_once

theorem update {c : ℕ} {change : Connection Payload → Connection Payload} (h : s.WireInv)
    (hwire : OnWire s.handlers c (change (s.connections c)))
    (hsent : (s.connections c).sent ⊆ (change (s.connections c)).sent) :
    (s.updateConnection c change).WireInv := by
  refine ⟨?_, ?_, h.handlers_once⟩
  · intro j
    by_cases hj : j = c
    · subst hj
      rw [connections_updateConnection_self]
      exact hwire
    · rw [connections_updateConnection_of_ne hj]
      exact h.connection j
  · intro handler hhandler
    have hmem := h.handlers_sent handler hhandler
    by_cases hj : handler.connection = c
    · rw [hj] at hmem ⊢
      rw [connections_updateConnection_self]
      exact hsent hmem
    · rw [connections_updateConnection_of_ne hj]
      exact hmem

/-- A handler is added, for a request that has just left the socket. -/
theorem addHandler {c : ℕ} {q : WireRequest Payload} {outcome : Option (Except String Payload)}
    (h : s.WireInv) (hsent : q ∈ (s.connections c).sent)
    (hnew : (c, q.id) ∉ s.handlers.map Handler.key)
    (hgone : q.id ∉ (s.connections c).requests.map WireRequest.id) :
    ({ s with handlers := s.handlers ++ [⟨c, q, outcome⟩] } : Channel Payload).WireInv := by
  refine ⟨fun j => (h.connection j).mono ?_ ?_, ?_, ?_⟩
  · intro other hother hmem
    rw [List.map_append, List.mem_append] at hmem
    obtain hmem | hmem := hmem
    · exact (h.connection j).requests_new other hother hmem
    · obtain ⟨rfl, hid⟩ := Prod.mk.inj (List.mem_singleton.1 hmem)
      have hid : other.id = q.id := hid
      exact hgone (hid ▸ List.mem_map_of_mem hother)
  · rintro id outcome ⟨handler, hhandler, hanswer⟩
    exact ⟨handler, List.mem_append_left _ hhandler, hanswer⟩
  · intro handler hhandler
    obtain hhandler | hhandler := List.mem_append.1 hhandler
    · exact h.handlers_sent handler hhandler
    · rw [List.mem_singleton.1 hhandler]
      exact hsent
  · show ((s.handlers ++ [_]).map Handler.key).Nodup
    rw [List.map_append, List.nodup_append]
    refine ⟨h.handlers_once, by simp, ?_⟩
    intro key hkey key' hkey' heq
    rw [heq, show key' = (c, q.id) by simpa [Handler.key] using hkey'] at hkey
    exact hnew hkey

/-- A handler that has not computed anything does so now. -/
theorem setHandler {i c : ℕ} {q : WireRequest Payload} {outcome : Except String Payload}
    (h : s.WireInv) (hi : s.handlers[i]? = some ⟨c, q, none⟩) :
    ({ s with handlers := s.handlers.set i ⟨c, q, some outcome⟩ } : Channel Payload).WireInv := by
  have hkeys : (s.handlers.set i ⟨c, q, some outcome⟩).map Handler.key =
      s.handlers.map Handler.key := by
    obtain ⟨hlt, heq⟩ := List.getElem?_eq_some_iff.1 hi
    have hlength : i < (s.handlers.map Handler.key).length := by
      rw [List.length_map]
      exact hlt
    have hkey : Handler.key ⟨c, q, some outcome⟩ = (s.handlers.map Handler.key)[i] := by
      rw [List.getElem_map, heq]
      rfl
    rw [List.map_set, hkey]
    exact List.set_getElem_self _
  have hmem : (⟨c, q, none⟩ : Handler Payload) ∈ s.handlers := List.mem_of_getElem? hi
  refine ⟨fun j => (h.connection j).mono ?_ ?_, ?_, ?_⟩
  · rw [hkeys]
    exact (h.connection j).requests_new
  · rintro id computed ⟨handler, hhandler, hkey, hcomputed⟩
    obtain ⟨k, hk⟩ := List.mem_iff_getElem?.1 hhandler
    have hne : i ≠ k := by
      rintro rfl
      rw [hi] at hk
      cases hk
      cases hcomputed
    refine ⟨handler, List.mem_of_getElem? (i := k) ?_, hkey, hcomputed⟩
    rw [List.getElem?_set_ne hne]
    exact hk
  · intro handler hhandler
    obtain hhandler | rfl := List.mem_or_eq_of_mem_set hhandler
    · exact h.handlers_sent handler hhandler
    · exact h.handlers_sent ⟨c, q, none⟩ hmem
  · show (List.map Handler.key (s.handlers.set i _)).Nodup
    rw [hkeys]
    exact h.handlers_once

/-- An answer goes out on a socket whose call it answers, or whose call of its number is over. -/
theorem safeSend {a : WireAnswer Payload} (h : s.WireInv)
    (ha : ∀ c, s.attached = some c → Answered s.handlers c a.id a.outcome ∨
      a.id ∈ (s.connections c).settled.map Prod.fst) : (s.safeSend a).WireInv := by
  unfold Channel.safeSend
  split
  · exact h
  · rename_i c hattached
    have hwire := h.connection c
    refine h.update ⟨?_, hwire.requests_sent, hwire.requests_once, hwire.requests_new, ?_,
      hwire.fulfilled⟩ fun _ hq => hq
    · exact hwire.books.congr rfl rfl rfl rfl (.inl rfl)
    · intro answer hanswer
      obtain hanswer | hanswer := List.mem_append.1 hanswer
      · exact hwire.answers answer hanswer
      · rw [List.mem_singleton.1 hanswer]
        exact ha c hattached

/-- A connection that is not in use begins anew. -/
theorem dial {owner : Option ℕ} (h : s.WireInv) (hmade : (s.connections s.made).phase = .unborn) :
    (s.dial owner).WireInv := by
  have hsent : (s.connections s.made).sent = [] := (h.connection s.made).books.unsent hmade
  have hupdate : (s.updateConnection s.made fun _ =>
      { owner := owner, phase := .dialing }).WireInv := by
    refine h.update ⟨⟨rfl, rfl, List.Perm.nil, fun hclosed => ?_, fun _ => rfl⟩, fun _ hq => hq,
      List.nodup_nil, fun _ hq => ?_, fun _ ha => ?_, fun _ _ hmem => ?_⟩ ?_
    · cases hclosed
    · cases hq
    · cases ha
    · cases hmem
    · rw [hsent]
      exact List.nil_subset _
  exact hupdate.congr rfl rfl

theorem closeConnection {c : ℕ} (h : s.WireInv) : (s.closeConnection c).WireInv := by
  have hupdate : (s.updateConnection c Connection.handleClose).WireInv := by
    refine h.update (h.connection c).handleClose ?_
    rw [Connection.sent_handleClose]
    exact fun _ hq => hq
  unfold Channel.closeConnection
  dsimp only
  split
  · exact hupdate
  · exact hupdate.congr rfl rfl

end WireInv

/-! ## Verbs -/

/-- No call is forgotten. -/
def Grows (s t : Channel Payload) : Prop :=
  ∀ c, (s.connections c).sent ⊆ (t.connections c).sent ∧
    (s.connections c).settled ⊆ (t.connections c).settled

namespace Grows

variable {t u : Channel Payload}

theorem refl : s.Grows s := fun _ => ⟨fun _ h => h, fun _ h => h⟩

theorem trans (h : s.Grows t) (h' : t.Grows u) : s.Grows u := fun c =>
  ⟨fun _ hq => (h' c).1 ((h c).1 hq), fun _ hq => (h' c).2 ((h c).2 hq)⟩

theorem of_eq (h : t.connections = s.connections) : s.Grows t := by
  intro c
  rw [h]
  exact ⟨fun _ h => h, fun _ h => h⟩

theorem update {c : ℕ} {change : Connection Payload → Connection Payload}
    (hsent : (s.connections c).sent ⊆ (change (s.connections c)).sent)
    (hsettled : (s.connections c).settled ⊆ (change (s.connections c)).settled) :
    s.Grows (s.updateConnection c change) := by
  intro j
  by_cases hj : j = c
  · subst hj
    rw [connections_updateConnection_self]
    exact ⟨hsent, hsettled⟩
  · rw [connections_updateConnection_of_ne hj]
    exact ⟨fun _ h => h, fun _ h => h⟩

theorem dial {owner : Option ℕ} (h : s.WireInv) (hmade : (s.connections s.made).phase = .unborn) :
    s.Grows (s.dial owner) := by
  have hbooks := (h.connection s.made).books
  have hsent := hbooks.unsent hmade
  have hsettled : (s.connections s.made).settled = [] := by
    have hperm := hbooks.accounted
    rw [hsent, List.map_nil] at hperm
    exact List.map_eq_nil_iff.1 (List.append_eq_nil_iff.1 hperm.eq_nil).1
  have hupdate : s.Grows (s.updateConnection s.made fun _ =>
      { owner := owner, phase := .dialing }) := by
    refine update ?_ ?_
    · rw [hsent]
      exact List.nil_subset _
    · rw [hsettled]
      exact List.nil_subset _
  exact hupdate.trans (of_eq rfl)

end Grows

end Channel

/-- The call that a verb waits for, or was fulfilled by, asks for what the verb asks for. -/
structure Verb.Faithful (connections : ℕ → Connection Payload) (verb : Verb Payload) : Prop where
  calling : ∀ c id, verb.phase = .calling c id →
    ⟨id, verb.method, verb.params⟩ ∈ (connections c).sent
  fulfilled : ∀ via result, verb.phase = .settled via (.ok result) → ∃ c id, via = some (c, id) ∧
    ⟨id, verb.method, verb.params⟩ ∈ (connections c).sent ∧
    (id, .ok result) ∈ (connections c).settled

namespace Channel

variable {s t : Channel Payload}

def VerbInv (s : Channel Payload) : Prop := ∀ verb ∈ s.verbs, verb.Faithful s.connections

theorem Grows.faithful {verb : Verb Payload} (h : s.Grows t)
    (hverb : verb.Faithful s.connections) : verb.Faithful t.connections := by
  refine ⟨fun c id hphase => (h c).1 (hverb.calling c id hphase), ?_⟩
  intro via result hphase
  obtain ⟨c, id, hvia, hsent, hsettled⟩ := hverb.fulfilled via result hphase
  exact ⟨c, id, hvia, (h c).1 hsent, (h c).2 hsettled⟩

namespace VerbInv

theorem mono (h : s.VerbInv) (hgrows : s.Grows t) (hverbs : t.verbs = s.verbs) : t.VerbInv := by
  intro verb hverb
  rw [hverbs] at hverb
  exact hgrows.faithful (h verb hverb)

theorem resolveDial {c : ℕ} {value : Option ℕ} (h : s.VerbInv) :
    (s.resolveDial c value).VerbInv := by
  intro verb hverb
  obtain ⟨old, hold, rfl⟩ := List.mem_map.1 hverb
  split
  · split
    · exact ⟨fun _ _ hphase => (by cases hphase), fun _ _ hphase => (by cases hphase)⟩
    · exact h old hold
  · exact h old hold

theorem updateVerb {k : ℕ} {verb : Verb Payload} {phase : VerbPhase Payload} (h : s.VerbInv)
    (hk : s.verbs[k]? = some verb)
    (hverb : ({ verb with phase := phase } : Verb Payload).Faithful s.connections) :
    (s.updateVerb k phase).VerbInv := by
  intro other hother
  obtain ⟨j, hj⟩ := List.mem_iff_getElem?.1 hother
  have hj : (s.verbs.modify k _)[j]? = some other := hj
  rw [List.getElem?_modify] at hj
  by_cases hkj : k = j
  · subst hkj
    rw [hk] at hj
    simp only [if_pos, Option.map_eq_map, Option.map_some, Option.some.injEq] at hj
    subst hj
    exact hverb
  · simp only [if_neg hkj, Option.map_eq_map, Option.map_id'] at hj
    exact h other (List.mem_of_getElem? hj)

end VerbInv

/-! ## What one step preserves -/

/-- A handler finishes while the socket of its request is attached, or none is, or one whose call
of the same number is over. -/
def Guard : Op Payload → Channel Payload → Prop
  | .finishHandler h _, s => ∀ handler, s.handlers[h]? = some handler →
    ∀ c, s.attached = some c → handler.connection = c ∨
      handler.request.id ∈ (s.connections c).settled.map Prod.fst
  | _, _ => True

namespace WireInv

theorem ensureConnection {f : ℕ} (h : s.WireInv) (hfacade : s.FacadeInv) :
    (s.ensureConnection f).1.WireInv := by
  unfold Channel.ensureConnection
  dsimp only
  split
  · exact h
  · split
    · exact h
    · exact h
    · exact (h.dial (hfacade.unmade _ (Nat.le_refl _))).congr rfl rfl

theorem opened {c : ℕ} (h : s.WireInv) : (s.opened c).WireInv := by
  unfold Channel.opened
  split
  · have hwire := h.connection c
    have hupdate : (s.updateConnection c fun conn => { conn with phase := .opened }).WireInv :=
      h.update ⟨hwire.books.congr rfl rfl rfl rfl (.inr rfl), hwire.requests_sent,
        hwire.requests_once, hwire.requests_new, hwire.answers, hwire.fulfilled⟩ fun _ hq => hq
    dsimp only
    split
    · exact hupdate
    · rename_i f howner
      have hfacade : ((s.updateConnection c fun conn =>
          { conn with phase := .opened }).updateFacade f fun facade =>
            { facade with connecting := none }).WireInv := hupdate.congr rfl rfl
      split
      · exact hfacade.closeConnection.congr rfl rfl
      · exact hfacade.congr rfl rfl
  · exact h

theorem refused {c : ℕ} (h : s.WireInv) : (s.refused c).WireInv := by
  unfold Channel.refused
  split
  · have hupdate : (s.updateConnection c Connection.handleClose).WireInv := by
      refine h.update (h.connection c).handleClose ?_
      rw [Connection.sent_handleClose]
      exact fun _ hq => hq
    dsimp only
    split
    · exact hupdate
    · exact hupdate.congr rfl rfl
  · exact h

theorem call {c : ℕ} {method : String} {params : Payload} (h : s.WireInv) :
    (s.call c method params).WireInv := by
  unfold Channel.call
  split
  · rename_i hphase
    refine h.update ((h.connection c).call hphase ?_) (List.subset_append_left _ _)
    rintro handler hhandler rfl
    exact h.handlers_sent handler hhandler
  · exact h

theorem proceed {k : ℕ} (h : s.WireInv) : (s.proceed k).WireInv := by
  unfold Channel.proceed
  split
  · split
    · exact h.congr rfl rfl
    · split
      · exact h.call.congr rfl rfl
      · exact h.congr rfl rfl
  · exact h

theorem finishVerb {k : ℕ} (h : s.WireInv) : (s.finishVerb k).WireInv := by
  unfold Channel.finishVerb
  split
  · split
    · exact h
    · exact h.congr rfl rfl
    · exact h.congr rfl rfl
  · exact h

theorem closeFacade {f : ℕ} (h : s.WireInv) : (s.closeFacade f).WireInv := by
  have hfacade : (s.updateFacade f fun facade =>
      { facade with closed := true, connection := none }).WireInv := h.congr rfl rfl
  unfold Channel.closeFacade
  dsimp only
  split
  · exact hfacade
  · exact hfacade.closeConnection

theorem accept {c : ℕ} (h : s.WireInv) : (s.accept c).WireInv := by
  unfold Channel.accept
  dsimp only
  split
  · exact h
  · have hwire := h.connection c
    have hupdate : (s.updateConnection c fun conn => { conn with accepted := true }).WireInv :=
      h.update ⟨hwire.books.congr rfl rfl rfl rfl (.inl rfl), hwire.requests_sent,
        hwire.requests_once, hwire.requests_new, hwire.answers, hwire.fulfilled⟩ fun _ hq => hq
    exact hupdate.congr rfl rfl

/-- The server answers an unknown method on the socket that it came from. -/
theorem dispatch {c : ℕ} {q : WireRequest Payload} (h : s.WireInv) (hattached : s.attached = some c)
    (hsent : q ∈ (s.connections c).sent) (hnew : (c, q.id) ∉ s.handlers.map Handler.key)
    (hgone : q.id ∉ (s.connections c).requests.map WireRequest.id) : (s.dispatch c q).WireInv := by
  unfold Channel.dispatch
  split
  · exact h.addHandler hsent hnew hgone
  · refine (h.addHandler hsent hnew hgone).safeSend ?_
    intro j hj
    have hj : s.attached = some j := hj
    rw [hattached] at hj
    obtain rfl := Option.some.inj hj
    exact .inl ⟨_, List.mem_append_right _ List.mem_cons_self, rfl, rfl⟩

theorem arrive {c : ℕ} (h : s.WireInv) : (s.arrive c).WireInv := by
  unfold Channel.arrive
  split
  · rename_i q rest haccepted hrequests
    have hwire := h.connection c
    have hsent := hwire.requests_sent
    have honce := hwire.requests_once
    have hnew := hwire.requests_new
    rw [hrequests] at hsent honce hnew
    obtain ⟨hgone, honce⟩ := List.nodup_cons.1 honce
    have hupdate : (s.updateConnection c fun conn => { conn with requests := rest }).WireInv :=
      h.update ⟨hwire.books.congr rfl rfl rfl rfl (.inl rfl),
        fun _ hq => hsent (List.mem_cons_of_mem _ hq), honce,
        fun q hq => hnew q (List.mem_cons_of_mem _ hq), hwire.answers, hwire.fulfilled⟩
        fun _ hq => hq
    dsimp only
    split
    · rename_i hattached
      refine hupdate.dispatch hattached ?_ (hnew q List.mem_cons_self) ?_
      · rw [connections_updateConnection_self]
        exact hsent List.mem_cons_self
      · rw [connections_updateConnection_self]
        exact hgone
    · exact hupdate
  · exact h

theorem finishHandler {i : ℕ} {outcome : Except String Payload} (h : s.WireInv)
    (hguard : Guard (.finishHandler i outcome) s) : (s.finishHandler i outcome).WireInv := by
  unfold Channel.finishHandler
  split
  · rename_i c q hi
    refine (h.setHandler hi).safeSend ?_
    intro j hj
    obtain hc | hdone := hguard _ hi j hj
    · have hc : c = j := hc
      subst hc
      obtain ⟨hlt, -⟩ := List.getElem?_eq_some_iff.1 hi
      exact .inl ⟨_, List.mem_set hlt _, rfl, rfl⟩
    · exact .inr hdone
  · exact h

theorem step {op : Op Payload} (h : s.WireInv) (hfacade : s.FacadeInv) (hguard : Guard op s) :
    (Channel.step op s).WireInv := by
  cases op with
  | connect => exact h.dial (hfacade.unmade _ (Nat.le_refl _))
  | ensure f => exact h.ensureConnection hfacade
  | invoke f method params => exact (h.ensureConnection hfacade).congr rfl rfl
  | opened c => exact h.opened
  | refused c => exact h.refused
  | proceed k => exact h.proceed
  | finishVerb k => exact h.finishVerb
  | call c method params => exact h.call
  | sendFails c id message =>
    refine h.update (h.connection c).sendFails ?_
    rw [Connection.sent_settle]
    exact fun _ hq => hq
  | receive c =>
    show (if _ then _ else _ : Channel Payload).WireInv
    split
    · refine h.update (h.connection c).receive ?_
      rw [Connection.sent_receive]
      exact fun _ hq => hq
    · exact h
  | close c =>
    show (if _ then _ else _ : Channel Payload).WireInv
    split
    · exact h.closeConnection
    · exact h
  | closeFacade f => exact h.closeFacade
  | accept c => exact h.accept
  | arrive c => exact h.arrive
  | finishHandler i outcome => exact h.finishHandler hguard
  | detach c =>
    show (Channel.detach c s).WireInv
    unfold Channel.detach
    split
    · exact h.congr rfl rfl
    · exact h
  | closeServer => exact h.congr rfl rfl

end WireInv

namespace VerbInv

theorem congr (h : s.VerbInv) (hconnections : t.connections = s.connections)
    (hverbs : t.verbs = s.verbs) : t.VerbInv := h.mono (.of_eq hconnections) hverbs

/-- A change of one connection that forgets no call. -/
theorem update {c : ℕ} {change : Connection Payload → Connection Payload} (h : s.VerbInv)
    (hsent : (change (s.connections c)).sent = (s.connections c).sent)
    (hsettled : (s.connections c).settled ⊆ (change (s.connections c)).settled) :
    (s.updateConnection c change).VerbInv := by
  refine h.mono (.update ?_ hsettled) rfl
  rw [hsent]
  exact fun _ hq => hq

theorem handleClose {c : ℕ} (h : s.VerbInv) :
    (s.updateConnection c Connection.handleClose).VerbInv :=
  h.update Connection.sent_handleClose Connection.subset_settled_handleClose

theorem closeConnection {c : ℕ} (h : s.VerbInv) : (s.closeConnection c).VerbInv := by
  unfold Channel.closeConnection
  dsimp only
  split
  · exact h.handleClose
  · exact h.handleClose.congr rfl rfl

theorem ensureConnection {f : ℕ} (h : s.VerbInv) (hwire : s.WireInv) (hfacade : s.FacadeInv) :
    (s.ensureConnection f).1.VerbInv := by
  unfold Channel.ensureConnection
  dsimp only
  split
  · exact h
  · split
    · exact h
    · exact h
    · exact (h.mono (.dial hwire (hfacade.unmade _ (Nat.le_refl _))) rfl).congr rfl rfl

/-- `ensureConnection` never calls. -/
theorem ensured_faithful {f : ℕ} {method : String} {params : Payload}
    {connections : ℕ → Connection Payload} :
    Verb.Faithful connections ⟨f, method, params, (s.ensureConnection f).2⟩ := by
  unfold Channel.ensureConnection
  dsimp only
  split
  · exact ⟨nofun, nofun⟩
  · split <;> exact ⟨nofun, nofun⟩

theorem invoke {f : ℕ} {method : String} {params : Payload} (h : s.VerbInv) (hwire : s.WireInv)
    (hfacade : s.FacadeInv) : (s.invoke f method params).VerbInv := by
  intro verb hverb
  obtain hold | hnew := List.mem_append.1 hverb
  · exact h.ensureConnection hwire hfacade verb hold
  · rw [List.mem_singleton.1 hnew]
    exact ensured_faithful

theorem opened {c : ℕ} (h : s.VerbInv) : (s.opened c).VerbInv := by
  unfold Channel.opened
  split
  · have hupdate : (s.updateConnection c fun conn => { conn with phase := .opened }).VerbInv :=
      h.update rfl fun _ hs => hs
    dsimp only
    split
    · exact hupdate
    · rename_i f howner
      have hfacade : ((s.updateConnection c fun conn =>
          { conn with phase := .opened }).updateFacade f fun facade =>
            { facade with connecting := none }).VerbInv := hupdate.congr rfl rfl
      split
      · exact hfacade.closeConnection.resolveDial
      · apply resolveDial
        exact hfacade.congr rfl rfl
  · exact h

theorem refused {c : ℕ} (h : s.VerbInv) : (s.refused c).VerbInv := by
  unfold Channel.refused
  split
  · dsimp only
    split
    · exact h.handleClose
    · apply resolveDial
      exact h.handleClose.congr rfl rfl
  · exact h

theorem call {c : ℕ} {method : String} {params : Payload} (h : s.VerbInv) :
    (s.call c method params).VerbInv := by
  unfold Channel.call
  split
  · exact h.mono (.update (List.subset_append_left _ _) fun _ hs => hs) rfl
  · exact h

theorem proceed {k : ℕ} (h : s.VerbInv) : (s.proceed k).VerbInv := by
  unfold Channel.proceed
  split
  · rename_i f method params connection hk
    split
    · exact h.updateVerb hk ⟨nofun, nofun⟩
    · rename_i c
      split
      · rename_i hphase
        have hk' : (s.call c method params).verbs[k]? =
            some ⟨f, method, params, .ensured (some c)⟩ := by
          rw [show (s.call c method params).verbs = s.verbs by
            unfold Channel.call
            split <;> rfl]
          exact hk
        refine h.call.updateVerb hk' ⟨?_, nofun⟩
        intro j id heq
        cases heq
        rw [Channel.call, if_pos hphase, connections_updateConnection_self]
        exact List.mem_append_right _ List.mem_cons_self
      · exact h.updateVerb hk ⟨nofun, nofun⟩
  · exact h

/-- A verb takes over what its call was fulfilled with. -/
theorem finishVerb {k : ℕ} (h : s.VerbInv) : (s.finishVerb k).VerbInv := by
  unfold Channel.finishVerb
  split
  · rename_i f method params c id hk
    have hverb := h _ (List.mem_of_getElem? hk)
    split
    · exact h
    · rename_i result hlookup
      refine h.updateVerb hk ⟨nofun, ?_⟩
      intro via result' heq
      cases heq
      obtain ⟨before, after, hsettled, -⟩ := List.lookup_eq_some_iff.1 hlookup
      refine ⟨c, id, rfl, hverb.calling c id rfl, ?_⟩
      rw [hsettled]
      exact List.mem_append_right _ List.mem_cons_self
    · exact h.updateVerb hk ⟨nofun, nofun⟩
  · exact h

theorem closeFacade {f : ℕ} (h : s.VerbInv) : (s.closeFacade f).VerbInv := by
  unfold Channel.closeFacade
  dsimp only
  split
  · exact h.congr rfl rfl
  · apply closeConnection
    exact h.congr rfl rfl

theorem accept {c : ℕ} (h : s.VerbInv) : (s.accept c).VerbInv := by
  have hupdate : (s.updateConnection c fun conn => { conn with accepted := true }).VerbInv :=
    h.update rfl fun _ hs => hs
  unfold Channel.accept
  dsimp only
  split
  · exact h
  · exact hupdate.congr rfl rfl

theorem safeSend {a : WireAnswer Payload} (h : s.VerbInv) : (s.safeSend a).VerbInv := by
  unfold Channel.safeSend
  split
  · exact h
  · exact h.update rfl fun _ hs => hs

theorem arrive {c : ℕ} (h : s.VerbInv) : (s.arrive c).VerbInv := by
  unfold Channel.arrive
  split
  · rename_i q rest _ _
    have hupdate : (s.updateConnection c fun conn => { conn with requests := rest }).VerbInv :=
      h.update rfl fun _ hs => hs
    dsimp only
    split
    · unfold Channel.dispatch
      split
      · exact hupdate.congr rfl rfl
      · apply safeSend
        exact hupdate.congr rfl rfl
    · exact hupdate
  · exact h

theorem finishHandler {i : ℕ} {outcome : Except String Payload} (h : s.VerbInv) :
    (s.finishHandler i outcome).VerbInv := by
  unfold Channel.finishHandler
  split
  · apply safeSend
    exact h.congr rfl rfl
  · exact h

theorem receive {c : ℕ} (h : s.VerbInv) : (s.updateConnection c Connection.receive).VerbInv := by
  refine h.update Connection.sent_receive ?_
  unfold Connection.receive
  split
  · exact fun _ hs => hs
  · exact fun _ hs => Connection.subset_settled_settle hs

theorem step {op : Op Payload} (h : s.VerbInv) (hwire : s.WireInv) (hfacade : s.FacadeInv) :
    (Channel.step op s).VerbInv := by
  cases op with
  | connect => exact h.mono (.dial hwire (hfacade.unmade _ (Nat.le_refl _))) rfl
  | ensure f => exact h.ensureConnection hwire hfacade
  | invoke f method params => exact h.invoke hwire hfacade
  | opened c => exact h.opened
  | refused c => exact h.refused
  | proceed k => exact h.proceed
  | finishVerb k => exact h.finishVerb
  | call c method params => exact h.call
  | sendFails c id message =>
    exact h.update Connection.sent_settle Connection.subset_settled_settle
  | receive c =>
    show (if _ then _ else _ : Channel Payload).VerbInv
    split
    · exact h.receive
    · exact h
  | close c =>
    show (if _ then _ else _ : Channel Payload).VerbInv
    split
    · exact h.closeConnection
    · exact h
  | closeFacade f => exact h.closeFacade
  | accept c => exact h.accept
  | arrive c => exact h.arrive
  | finishHandler i outcome => exact h.finishHandler
  | detach c =>
    show (Channel.detach c s).VerbInv
    unfold Channel.detach
    split
    · exact h.congr rfl rfl
    · exact h
  | closeServer => exact h.congr rfl rfl

end VerbInv

/-! ## Calls are not crossed -/

/-- The one handler of the call `id` of connection `c` has computed `result`. -/
def Computed (s : Channel Payload) (c id : ℕ) (result : Payload) : Prop :=
  ∃ h ∈ s.handlers, h.key = (c, id) ∧ h.request ∈ (s.connections c).sent ∧
    h.outcome = some (.ok result) ∧ ∀ other ∈ s.handlers, other.key = (c, id) → other = h

def IsOpen (s : Channel Payload) (f c : ℕ) : Prop :=
  (s.connections c).owner = some f ∧ (s.connections c).phase = .opened

def IsDialing (s : Channel Payload) (f c : ℕ) : Prop :=
  (s.connections c).owner = some f ∧ (s.connections c).phase = .dialing

/-- No call is crossed, settled twice or left pending, and a facade keeps one connection. -/
structure Sound (s : Channel Payload) : Prop where
  once : ∀ c, ((s.connections c).settled.map Prod.fst).Nodup
  computed : ∀ c id result, (id, .ok result) ∈ (s.connections c).settled →
    s.Computed c id result
  verbs : ∀ verb ∈ s.verbs, ∀ via result, verb.phase = .settled via (.ok result) →
    ∃ h ∈ s.handlers, via = some h.key ∧ h.request.method = verb.method ∧
      h.request.params = verb.params ∧ h.outcome = some (.ok result)
  closed : ∀ c, (s.connections c).phase = .closed → (s.connections c).pending = [] ∧
    ∀ q ∈ (s.connections c).sent, q.id ∈ (s.connections c).settled.map Prod.fst
  single : ∀ f c c', s.IsOpen f c → s.IsOpen f c' → c = c'
  held : ∀ f c, s.IsOpen f c → (s.facades f).connection = some c
  reopens : ∀ f method params, (s.facades f).closed = false → (∀ c, ¬ s.IsOpen f c) →
    ∃ c, (s.invoke f method params).IsDialing f c ∧
      (s.invoke f method params).verbs = s.verbs ++ [⟨f, method, params, .awaiting c⟩] ∧
      ((∀ c', ¬ s.IsDialing f c') → (s.connections c).phase = .unborn)

theorem WireInv.computed {c id : ℕ} {result : Payload} (h : s.WireInv)
    (hmem : (id, Except.ok result) ∈ (s.connections c).settled) : s.Computed c id result := by
  obtain ⟨handler, hhandler, hkey, houtcome⟩ := (h.connection c).fulfilled id result hmem
  refine ⟨handler, hhandler, hkey, ?_, houtcome, ?_⟩
  · have hsent := h.handlers_sent handler hhandler
    rwa [show handler.connection = c from congrArg Prod.fst hkey] at hsent
  · intro other hother hkey'
    exact List.inj_on_of_nodup_map h.handlers_once hother hhandler (hkey'.trans hkey.symm)

theorem FacadeInv.reopens {f : ℕ} {method : String} {params : Payload} (h : s.FacadeInv)
    (hclosed : (s.facades f).closed = false) (hopen : ∀ c, ¬ s.IsOpen f c) :
    ∃ c, (s.invoke f method params).IsDialing f c ∧
      (s.invoke f method params).verbs = s.verbs ++ [⟨f, method, params, .awaiting c⟩] ∧
      ((∀ c', ¬ s.IsDialing f c') → (s.connections c).phase = .unborn) := by
  have hconnection : (s.facades f).connection = none := by
    rw [Option.eq_none_iff_forall_ne_some]
    intro c hc
    exact hopen c (h.connection f c hc)
  cases hconnecting : (s.facades f).connecting with
  | none =>
    refine ⟨s.made, ?_, ?_, fun _ => h.unmade _ (Nat.le_refl _)⟩ <;>
      simp [Channel.invoke, Channel.ensureConnection, hclosed, hconnection, hconnecting,
        IsDialing, Channel.dial, updateFacade, updateConnection]
  | some c =>
    have hdialing : s.IsDialing f c := h.connecting f c hconnecting
    refine ⟨c, ?_, ?_, fun hnone => absurd hdialing (hnone c)⟩
    · have hconnections : (s.invoke f method params).connections = s.connections := by
        simp [Channel.invoke, Channel.ensureConnection, hclosed, hconnection, hconnecting]
      rw [IsDialing, hconnections]
      exact hdialing
    · simp [Channel.invoke, Channel.ensureConnection, hclosed, hconnection, hconnecting]

theorem inv_init : (({} : Channel Payload).WireInv ∧ ({} : Channel Payload).FacadeInv) ∧
    ({} : Channel Payload).VerbInv := by
  refine ⟨⟨⟨fun c => ?_, fun _ hh => ?_, List.nodup_nil⟩, ?_⟩, fun _ hverb => ?_⟩
  · exact ⟨⟨rfl, rfl, List.Perm.nil, fun _ => rfl, fun _ => rfl⟩, fun _ hq => hq, List.nodup_nil,
      fun _ hq => (by cases hq), fun _ ha => (by cases ha), fun _ _ hmem => (by cases hmem)⟩
  · cases hh
  · refine ⟨fun _ _ => rfl, ?_, ?_, ?_, ?_, fun _ hne => absurd rfl hne⟩
    · intro f c hc
      cases hc
    · intro f c hc
      cases hc
    · intro f c hc
      cases hc
    · intro f c hc
      cases hc
  · cases hverb

end Channel

end Orchestration.OperatorIpc
