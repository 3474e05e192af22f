import Orchestration.OperatorIpc.Channel

/-!
# Facades of the operator-IPC channel

A facade dials one connection at a time, holds it while it is open, and dials again
when it has none.
-/

namespace Orchestration.OperatorIpc

variable {Payload : Type}

namespace Channel

variable {s : Channel Payload}

@[simp] theorem connections_updateConnection_self {c : ℕ}
    {change : Connection Payload → Connection Payload} :
    (s.updateConnection c change).connections c = change (s.connections c) := if_pos rfl

theorem connections_updateConnection_of_ne {c j : ℕ}
    {change : Connection Payload → Connection Payload} (h : j ≠ c) :
    (s.updateConnection c change).connections j = s.connections j := if_neg h

/-- A facade holds its open connection, or the one that it dials, and has no other. -/
structure FacadeInv (s : Channel Payload) : Prop where
  unmade : ∀ c, s.made ≤ c → (s.connections c).phase = .unborn
  connection : ∀ f c, (s.facades f).connection = some c →
    (s.connections c).owner = some f ∧ (s.connections c).phase = .opened
  connecting : ∀ f c, (s.facades f).connecting = some c →
    (s.connections c).owner = some f ∧ (s.connections c).phase = .dialing
  opened : ∀ f c, (s.connections c).owner = some f → (s.connections c).phase = .opened →
    (s.facades f).connection = some c
  dialing : ∀ f c, (s.connections c).owner = some f → (s.connections c).phase = .dialing →
    (s.facades f).connecting = some c
  exclusive : ∀ f, (s.facades f).connecting ≠ none → (s.facades f).connection = none

namespace FacadeInv

/-- Neither the wire nor the books matter. -/
theorem congr {t : Channel Payload} (h : s.FacadeInv) (hfacades : t.facades = s.facades)
    (hmade : t.made = s.made) (hphase : ∀ c, (t.connections c).phase = (s.connections c).phase)
    (howner : ∀ c, (t.connections c).owner = (s.connections c).owner) : t.FacadeInv := by
  obtain ⟨unmade, connection, connecting, opened, dialing, exclusive⟩ := h
  refine ⟨?_, ?_, ?_, ?_, ?_, ?_⟩ <;>
    simp only [hfacades, hmade, hphase, howner] <;> assumption

/-- A change of one connection that leaves its phase. -/
theorem update {c : ℕ} {change : Connection Payload → Connection Payload} (h : s.FacadeInv)
    (hphase : (change (s.connections c)).phase = (s.connections c).phase)
    (howner : (change (s.connections c)).owner = (s.connections c).owner) :
    (s.updateConnection c change).FacadeInv := by
  refine h.congr rfl rfl (fun j => ?_) (fun j => ?_)
  · by_cases hj : j = c
    · subst hj
      rw [connections_updateConnection_self]
      exact hphase
    · rw [connections_updateConnection_of_ne hj]
  · by_cases hj : j = c
    · subst hj
      rw [connections_updateConnection_self]
      exact howner
    · rw [connections_updateConnection_of_ne hj]

theorem closeConnection {c : ℕ} (h : s.FacadeInv) (hphase : (s.connections c).phase = .opened) :
    (s.closeConnection c).FacadeInv := by
  obtain ⟨unmade, connection, connecting, opened, dialing, exclusive⟩ := h
  unfold Channel.closeConnection
  dsimp only
  split
  · refine ⟨?_, ?_, ?_, ?_, ?_, ?_⟩ <;>
      simp only [updateConnection, Connection.handleClose] at * <;> grind
  · refine ⟨?_, ?_, ?_, ?_, ?_, ?_⟩ <;>
      simp only [updateConnection, updateFacade, Connection.handleClose] at * <;> grind

theorem dial_none (h : s.FacadeInv) : (s.dial none).FacadeInv := by
  obtain ⟨unmade, connection, connecting, opened, dialing, exclusive⟩ := h
  refine ⟨?_, ?_, ?_, ?_, ?_, ?_⟩ <;>
    simp only [Channel.dial, updateConnection] <;> grind

theorem ensureConnection {f : ℕ} (h : s.FacadeInv) : (s.ensureConnection f).1.FacadeInv := by
  unfold Channel.ensureConnection
  dsimp only
  split
  · exact h
  · split
    · exact h
    · exact h
    · obtain ⟨unmade, connection, connecting, opened, dialing, exclusive⟩ := h
      refine ⟨?_, ?_, ?_, ?_, ?_, ?_⟩ <;>
        simp only [Channel.dial, updateConnection, updateFacade] <;> grind

theorem dialed {c : ℕ} (h : s.FacadeInv) : (s.opened c).FacadeInv := by
  unfold Channel.opened
  split
  · rename_i hdialing
    obtain ⟨unmade, connection, connecting, opened, dialing, exclusive⟩ := h
    dsimp only
    split
    · refine ⟨?_, ?_, ?_, ?_, ?_, ?_⟩ <;>
        simp only [updateConnection] at * <;> grind
    · split
      · unfold Channel.closeConnection
        dsimp only
        split
        · refine ⟨?_, ?_, ?_, ?_, ?_, ?_⟩ <;>
            simp only [updateConnection, updateFacade, resolveDial, Connection.handleClose] at * <;>
            grind
        · refine ⟨?_, ?_, ?_, ?_, ?_, ?_⟩ <;>
            simp only [updateConnection, updateFacade, resolveDial, Connection.handleClose] at * <;>
            grind
      · refine ⟨?_, ?_, ?_, ?_, ?_, ?_⟩ <;>
          simp only [updateConnection, updateFacade, resolveDial] at * <;> grind
  · exact h

theorem refused {c : ℕ} (h : s.FacadeInv) : (s.refused c).FacadeInv := by
  unfold Channel.refused
  split
  · rename_i hdialing
    obtain ⟨unmade, connection, connecting, opened, dialing, exclusive⟩ := h
    dsimp only
    split
    · refine ⟨?_, ?_, ?_, ?_, ?_, ?_⟩ <;>
        simp only [updateConnection, Connection.handleClose] at * <;> grind
    · refine ⟨?_, ?_, ?_, ?_, ?_, ?_⟩ <;>
        simp only [updateConnection, updateFacade, resolveDial, Connection.handleClose] at * <;>
        grind
  · exact h

theorem closeFacade {f : ℕ} (h : s.FacadeInv) : (s.closeFacade f).FacadeInv := by
  obtain ⟨unmade, connection, connecting, opened, dialing, exclusive⟩ := h
  unfold Channel.closeFacade
  dsimp only
  split
  · refine ⟨?_, ?_, ?_, ?_, ?_, ?_⟩ <;>
      simp only [updateFacade] at * <;> grind
  · unfold Channel.closeConnection
    dsimp only
    split
    · refine ⟨?_, ?_, ?_, ?_, ?_, ?_⟩ <;>
        simp only [updateConnection, updateFacade, Connection.handleClose] at * <;> grind
    · refine ⟨?_, ?_, ?_, ?_, ?_, ?_⟩ <;>
        simp only [updateConnection, updateFacade, Connection.handleClose] at * <;> grind


theorem safeSend {a : WireAnswer Payload} (h : s.FacadeInv) : (s.safeSend a).FacadeInv := by
  unfold Channel.safeSend
  split
  · exact h
  · exact h.update rfl rfl

theorem call {c : ℕ} {method : String} {params : Payload} (h : s.FacadeInv) :
    (s.call c method params).FacadeInv := by
  unfold Channel.call
  split
  · exact h.update rfl rfl
  · exact h

theorem proceed {k : ℕ} (h : s.FacadeInv) : (s.proceed k).FacadeInv := by
  unfold Channel.proceed
  split
  · split
    · exact h.congr rfl rfl (fun _ => rfl) (fun _ => rfl)
    · split
      · exact h.call.congr rfl rfl (fun _ => rfl) (fun _ => rfl)
      · exact h.congr rfl rfl (fun _ => rfl) (fun _ => rfl)
  · exact h

theorem finishVerb {k : ℕ} (h : s.FacadeInv) : (s.finishVerb k).FacadeInv := by
  unfold Channel.finishVerb
  split
  · split
    · exact h
    · exact h.congr rfl rfl (fun _ => rfl) (fun _ => rfl)
    · exact h.congr rfl rfl (fun _ => rfl) (fun _ => rfl)
  · exact h

theorem settle {c id : ℕ} {outcome : Except String Payload} (h : s.FacadeInv) :
    (s.updateConnection c (Connection.settle id outcome)).FacadeInv := by
  refine h.update ?_ ?_ <;>
  · unfold Connection.settle
    split <;> rfl

theorem receive {c : ℕ} (h : s.FacadeInv) :
    (s.updateConnection c Connection.receive).FacadeInv := by
  refine h.update ?_ ?_ <;>
  · unfold Connection.receive
    split
    · rfl
    · unfold Connection.settle
      split <;> rfl

theorem arrive {c : ℕ} (h : s.FacadeInv) : (s.arrive c).FacadeInv := by
  unfold Channel.arrive
  split
  · rename_i q rest _ _
    have hupdate : (s.updateConnection c fun conn => { conn with requests := rest }).FacadeInv :=
      h.update rfl rfl
    dsimp only
    split
    · unfold Channel.dispatch
      split
      · exact hupdate.congr rfl rfl (fun _ => rfl) (fun _ => rfl)
      · apply FacadeInv.safeSend
        exact hupdate.congr rfl rfl (fun _ => rfl) (fun _ => rfl)
    · exact hupdate
  · exact h

theorem finishHandler {i : ℕ} {outcome : Except String Payload} (h : s.FacadeInv) :
    (s.finishHandler i outcome).FacadeInv := by
  unfold Channel.finishHandler
  split
  · apply FacadeInv.safeSend
    exact h.congr rfl rfl (fun _ => rfl) (fun _ => rfl)
  · exact h

theorem accept {c : ℕ} (h : s.FacadeInv) : (s.accept c).FacadeInv := by
  have hupdate : (s.updateConnection c fun conn => { conn with accepted := true }).FacadeInv :=
    h.update rfl rfl
  unfold Channel.accept
  dsimp only
  split
  · exact h
  · exact hupdate.congr rfl rfl (fun _ => rfl) (fun _ => rfl)

theorem step {op : Op Payload} (h : s.FacadeInv) : (Channel.step op s).FacadeInv := by
  cases op with
  | connect => exact h.dial_none
  | ensure f => exact h.ensureConnection
  | invoke f method params => exact h.ensureConnection.congr rfl rfl (fun _ => rfl) (fun _ => rfl)
  | opened c => exact h.dialed
  | refused c => exact h.refused
  | proceed k => exact h.proceed
  | finishVerb k => exact h.finishVerb
  | call c method params => exact h.call
  | sendFails c id message => exact h.settle
  | receive c =>
    show (if _ then _ else _ : Channel Payload).FacadeInv
    split
    · exact h.receive
    · exact h
  | close c =>
    show (if _ then _ else _ : Channel Payload).FacadeInv
    split
    · rename_i hphase
      exact h.closeConnection hphase
    · exact h
  | closeFacade f => exact h.closeFacade
  | accept c => exact h.accept
  | arrive c => exact h.arrive
  | finishHandler i outcome => exact h.finishHandler
  | detach c =>
    show (Channel.detach c s).FacadeInv
    unfold Channel.detach
    split
    · exact h.congr rfl rfl (fun _ => rfl) (fun _ => rfl)
    · exact h
  | closeServer => exact h.congr rfl rfl (fun _ => rfl) (fun _ => rfl)

end FacadeInv

end Channel

end Orchestration.OperatorIpc
