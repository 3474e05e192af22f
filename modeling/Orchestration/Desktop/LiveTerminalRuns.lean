import Orchestration.Desktop.ShownTranscript
import Orchestration.Desktop.TranscriptFeed
import Orchestration.Library.Run

/-!
# Runs of the live terminal

Within one run of the daemon generations only grow, and the newest text is shown, on its
way, or asked for. Every connection begins with a backfill of its own. A generation that
is below the console's, as after a restart of the daemon, is never shown.
-/

namespace Orchestration.Desktop

open Pty (Output)

namespace LiveTerminal

variable {agent : String} {s : LiveTerminal}

/-- A message of the agent: no newer than the pane, and a part of its stream if as new. -/
def Fits (agent : String) (e : TranscriptEngine) (agentId : String) (generation offset : ℕ)
    (text : Output) : Prop :=
  agentId = agent ∧ generation ≤ e.transcriptGeneration ∧
    (generation = e.transcriptGeneration → ∀ stream, e.stream = some stream →
      Slice.At stream offset text)

/-- What is on its way belongs to the connection's daemon, and ends with the newest text. -/
structure OnWire (agent : String) (s : LiveTerminal) : Prop where
  pushes : ∀ push ∈ s.pushes,
    Fits agent s.engine push.agentId push.generation push.offset push.chunk
  replies : ∀ reply ∈ s.replies,
    Fits agent s.engine reply.2.agentId reply.2.generation reply.2.offset reply.2.tail
  last : ∀ stream stop, s.engine.stream = some stream →
    lastStop s.engine.transcriptGeneration s.pushes = some stop → stop = stream.length

/-- The end of the stream is shown, on its way, or asked for. -/
inductive Covered (s : LiveTerminal) (stream : Output) : Prop where
  | pushed (h : (lastStop s.engine.transcriptGeneration s.pushes).isSome)
  | asked (h : s.transcriptRequestSeq ∈ s.asked)
  | answered (tail : TranscriptTail) (h : (s.transcriptRequestSeq, tail) ∈ s.replies)
      (generation : tail.generation = s.engine.transcriptGeneration) (text : tail.tail ≠ [])
      (stop : tail.offset + tail.tail.length = stream.length)
  | shown (generation : s.console.transcriptGeneration = s.engine.transcriptGeneration)
      (text : s.console.transcriptSegments ≠ []) (stop : s.console.stop = stream.length)

structure Inv (agent : String) (s : LiveTerminal) : Prop where
  engine : s.engine.OnePane
  console : s.console.Consistent
  selected : s.console.selectedAgentId = none ∧ s.console.transcriptSegments = [] ∨
    s.console.selectedAgentId = some agent
  caughtUp : s.behind = true → s.console.live = false ∨ s.refreshing = true
  down : s.link = .down → s.behind = true ∧ s.pushes = [] ∧ s.replies = []
  newest : s.engine.stream ≠ none →
    s.console.transcriptGeneration ≤ s.engine.transcriptGeneration ∧
      (∀ push ∈ s.pushes, push.generation ≤ s.engine.transcriptGeneration) ∧
      ∀ reply ∈ s.replies, reply.2.generation ≤ s.engine.transcriptGeneration
  wire : s.link = .up → s.OnWire agent
  part : s.link = .up → s.behind = false → s.console.transcriptSegments = [] ∨
    s.console.transcriptGeneration ≤ s.engine.transcriptGeneration ∧
      (s.console.transcriptGeneration = s.engine.transcriptGeneration →
        ∀ stream, s.engine.stream = some stream → s.console.PartOf stream)
  covered : s.link = .up → s.behind = false → s.console.selectedAgentId = some agent →
    ∀ stream, s.engine.stream = some stream → stream ≠ [] → s.Covered stream

/-- A pane is launched when no release of the agent is pending, with a generation that is not below
the console's, nor below that of a message on its way; and no refresh fails whose observation the
console needs to start over. -/
def Guard : Op → LiveTerminal → Prop
  | .spawn, s => s.engine.hosted = none → s.engine.launching = none →
    s.engine.releasePending = none ∧
      s.console.transcriptGeneration ≤ s.engine.transcriptGeneration + 1 ∧
      (∀ push ∈ s.pushes, push.generation ≤ s.engine.transcriptGeneration + 1) ∧
      ∀ reply ∈ s.replies, reply.2.generation ≤ s.engine.transcriptGeneration + 1
  | .refreshFails, s => s.behind = true → s.console.live = false
  | _, _ => True

theorem inv_init : ({} : LiveTerminal).Inv agent := by
  refine ⟨TranscriptEngine.onePane_init, AgentsConsole.consistent_init, .inl ⟨rfl, rfl⟩,
    fun _ => .inl rfl, fun _ => ⟨rfl, rfl, rfl⟩, fun h => absurd rfl h, ?_, ?_, ?_⟩
  · intro hup
    cases hup
  · intro hup
    cases hup
  · intro hup
    cases hup

namespace Inv

/-! ## Steps of the engine -/

/-- The pane stays, or nothing is tracked any more. -/
theorem calm {e : TranscriptEngine} (h : s.Inv agent) (honePane : e.OnePane)
    (hcalm : s.engine.Calm e) : ({ s with engine := e } : LiveTerminal).Inv agent := by
  obtain ⟨hgeneration, hstream⟩ := hcalm
  have hfits : ∀ {agentId : String} {generation offset : ℕ} {text : Output},
      Fits agent s.engine agentId generation offset text →
        Fits agent e agentId generation offset text := by
    rintro agentId generation offset text ⟨hagent, hle, hat⟩
    refine ⟨hagent, hgeneration ▸ hle, fun heq stream hs => ?_⟩
    exact hat (heq.trans hgeneration) stream (hstream stream hs)
  refine ⟨honePane, h.console, h.selected, h.caughtUp, h.down, ?_, ?_, ?_, ?_⟩
  · intro hne
    obtain ⟨stream, hs⟩ := Option.ne_none_iff_exists'.1 hne
    show _ ≤ e.transcriptGeneration ∧ (∀ push ∈ s.pushes, _ ≤ e.transcriptGeneration) ∧
      ∀ reply ∈ s.replies, _ ≤ e.transcriptGeneration
    rw [hgeneration]
    exact h.newest (by rw [hstream stream hs]; exact Option.some_ne_none _)
  · intro hup
    have hwire := h.wire hup
    refine ⟨fun push hpush => hfits (hwire.pushes push hpush),
      fun reply hreply => hfits (hwire.replies reply hreply), ?_⟩
    intro stream stop hs hlast
    have hlast : lastStop e.transcriptGeneration s.pushes = some stop := hlast
    rw [hgeneration] at hlast
    exact hwire.last stream stop (hstream stream hs) hlast
  · intro hup hbehind
    show _ ∨ _ ≤ e.transcriptGeneration ∧ (_ = e.transcriptGeneration → _)
    rw [hgeneration]
    obtain hnone | ⟨hle, hpart⟩ := h.part hup hbehind
    · exact .inl hnone
    · exact .inr ⟨hle, fun heq stream hs => hpart heq stream (hstream stream hs)⟩
  · intro hup hbehind hselected stream hs hne
    obtain hpushed | hasked | ⟨tail, hmem, heq, htext, hstop⟩ | ⟨heq, htext, hstop⟩ :=
      h.covered hup hbehind hselected stream (hstream stream hs) hne
    · exact .pushed (by
        show (lastStop e.transcriptGeneration s.pushes).isSome
        rw [hgeneration]
        exact hpushed)
    · exact .asked hasked
    · exact .answered tail hmem (heq.trans hgeneration.symm) htext hstop
    · exact .shown (heq.trans hgeneration.symm) htext hstop

/-- The first pane of a generation has written nothing, and nothing of it is shown. -/
theorem spawn (h : s.Inv agent) (hguard : Guard .spawn s) :
    ({ s with engine := s.engine.spawn } : LiveTerminal).Inv agent := by
  have honePane := h.engine.spawn fun hhosted hlaunching => (hguard hhosted hlaunching).1
  by_cases hfree : s.engine.hosted = none ∧ s.engine.launching = none
  · obtain ⟨hgeneration, hstream⟩ := TranscriptEngine.spawn_of_free hfree
    obtain ⟨-, hconsole, hpushes, hreplies⟩ := hguard hfree.1 hfree.2
    have hnew : ∀ stream, s.engine.spawn.stream = some stream → stream = [] := by
      intro stream hs
      rw [hstream] at hs
      exact (Option.some.inj hs).symm
    refine ⟨honePane, h.console, h.selected, h.caughtUp, h.down, ?_, ?_, ?_, ?_⟩
    · intro _
      show _ ≤ s.engine.spawn.transcriptGeneration ∧
        (∀ push ∈ s.pushes, _ ≤ s.engine.spawn.transcriptGeneration) ∧
        ∀ reply ∈ s.replies, _ ≤ s.engine.spawn.transcriptGeneration
      rw [hgeneration]
      exact ⟨hconsole, hpushes, hreplies⟩
    · intro hup
      have hwire := h.wire hup
      have hold : ∀ {agentId : String} {generation offset : ℕ} {text : Output},
          Fits agent s.engine agentId generation offset text →
            Fits agent s.engine.spawn agentId generation offset text := by
        rintro agentId generation offset text ⟨hagent, hle, -⟩
        exact ⟨hagent, by omega, fun heq => by omega⟩
      refine ⟨fun push hpush => hold (hwire.pushes push hpush),
        fun reply hreply => hold (hwire.replies reply hreply), ?_⟩
      intro stream stop _ hlast
      have hlast : lastStop s.engine.spawn.transcriptGeneration s.pushes = some stop := hlast
      rw [lastStop_eq_none] at hlast
      · cases hlast
      · intro push hpush
        have := (hwire.pushes push hpush).2.1
        omega
    · intro hup hbehind
      obtain hnone | ⟨hle, -⟩ := h.part hup hbehind
      · exact .inl hnone
      · refine .inr ⟨?_, fun heq => ?_⟩
        · show s.console.transcriptGeneration ≤ s.engine.spawn.transcriptGeneration
          omega
        · have heq : s.console.transcriptGeneration = s.engine.spawn.transcriptGeneration := heq
          omega
    · intro _ _ _ stream hs hne
      exact absurd (hnew stream hs) hne
  · rw [TranscriptEngine.spawn_eq_self hfree]
    exact h

theorem at_grow {stream more text : Output} {offset : ℕ} (h : Slice.At stream offset text) :
    Slice.At (stream ++ more) offset text := by
  by_cases hnil : text = []
  · rw [hnil]
    exact Slice.at_nil
  · exact h.grow hnil

/-- What a tracked pane writes, while no client is attached. -/
theorem wrote_unattached {e : TranscriptEngine} {chunk : Output}
    {sent : Option OperatorIpcTranscript} (h : s.Inv agent)
    (hwrote : s.engine.Wrote agent e chunk sent) (hlink : s.link ≠ .up) :
    ({ s with engine := e } : LiveTerminal).Inv agent := by
  refine ⟨hwrote.onePane, h.console, h.selected, h.caughtUp, h.down, ?_,
    fun hup => absurd hup hlink, fun hup => absurd hup hlink, fun hup => absurd hup hlink⟩
  intro hne
  have hne : e.stream ≠ none := hne
  show _ ≤ e.transcriptGeneration ∧ (∀ push ∈ s.pushes, _ ≤ e.transcriptGeneration) ∧
    ∀ reply ∈ s.replies, _ ≤ e.transcriptGeneration
  rw [hwrote.generation]
  refine h.newest ?_
  cases sent with
  | none => rwa [← hwrote.silent rfl]
  | some sent =>
    obtain ⟨text, htext, -⟩ := hwrote.pushed sent rfl
    rw [htext]
    exact Option.some_ne_none _

/-- What a tracked pane writes is the newest push, while a client is attached. -/
theorem wrote_attached {e : TranscriptEngine} {chunk : Output} {sent : OperatorIpcTranscript}
    (h : s.Inv agent) (hwrote : s.engine.Wrote agent e chunk (some sent)) (hlink : s.link = .up) :
    ({ s with engine := e, pushes := s.pushes ++ [sent] } : LiveTerminal).Inv agent := by
  obtain ⟨text, htext, htext', hsent⟩ := hwrote.pushed sent rfl
  have hgeneration := hwrote.generation
  have hwire := h.wire hlink
  have hnew : ∀ stream, e.stream = some stream → stream = text ++ chunk := by
    intro stream hs
    rw [htext'] at hs
    exact (Option.some.inj hs).symm
  have hold : ∀ {agentId : String} {generation offset : ℕ} {part : Output},
      Fits agent s.engine agentId generation offset part →
        Fits agent e agentId generation offset part := by
    rintro agentId generation offset part ⟨hagent, hle, hat⟩
    refine ⟨hagent, hgeneration ▸ hle, fun heq stream hs => ?_⟩
    rw [hnew stream hs]
    exact at_grow (hat (heq.trans hgeneration) text htext)
  refine ⟨hwrote.onePane, h.console, h.selected, h.caughtUp, ?_, ?_, ?_, ?_, ?_⟩
  · intro hdown
    rw [show s.link = .down from hdown] at hlink
    cases hlink
  · intro _
    obtain ⟨hconsole, hpushes, hreplies⟩ :=
      h.newest (by rw [htext]; exact Option.some_ne_none _)
    show _ ≤ e.transcriptGeneration ∧
      (∀ push ∈ s.pushes ++ [sent], _ ≤ e.transcriptGeneration) ∧
      ∀ reply ∈ s.replies, _ ≤ e.transcriptGeneration
    rw [hgeneration]
    refine ⟨hconsole, ?_, hreplies⟩
    intro push hpush
    obtain hpush | hpush := List.mem_append.1 hpush
    · exact hpushes push hpush
    · rw [List.mem_singleton.1 hpush, hsent]
  · intro _
    refine ⟨?_, fun reply hreply => hold (hwire.replies reply hreply), ?_⟩
    · intro push hpush
      obtain hpush | hpush := List.mem_append.1 hpush
      · exact hold (hwire.pushes push hpush)
      · rw [List.mem_singleton.1 hpush, hsent]
        refine ⟨rfl, hgeneration.ge, fun _ stream hs => ?_⟩
        rw [hnew stream hs]
        exact Slice.at_append
    · intro stream stop hs hlast
      have hlast : lastStop e.transcriptGeneration (s.pushes ++ [sent]) = some stop := hlast
      rw [hnew stream hs, List.length_append]
      rw [hgeneration, lastStop_concat, hsent] at hlast
      split at hlast
      · exact (Option.some.inj hlast).symm
      · rename_i hcurrent
        have hnil : chunk = [] := by
          by_contra hne
          exact hcurrent (by simp [OperatorIpcTranscript.current, hne])
        rw [hnil, List.length_nil, Nat.add_zero]
        exact hwire.last text stop htext hlast
  · intro _ hbehind
    show _ ∨ _ ≤ e.transcriptGeneration ∧ (_ = e.transcriptGeneration → _)
    rw [hgeneration]
    obtain hnone | ⟨hle, hpart⟩ := h.part hlink hbehind
    · exact .inl hnone
    · refine .inr ⟨hle, fun heq stream hs segment hsegment => ?_⟩
      rw [hnew stream hs]
      exact at_grow (hpart heq text htext segment hsegment)
  · intro _ hbehind hselected stream hs hne
    by_cases hnil : chunk = []
    · have heq := hnew stream hs
      rw [hnil, List.append_nil] at heq
      subst heq
      obtain hpushed | hasked | ⟨tail, hmem, heq, hfull, hstop⟩ | ⟨heq, hfull, hstop⟩ :=
        h.covered hlink hbehind hselected stream htext hne
      · refine .pushed ?_
        show (lastStop e.transcriptGeneration (s.pushes ++ [sent])).isSome
        rw [hgeneration, lastStop_concat]
        split
        · rfl
        · exact hpushed
      · exact .asked hasked
      · exact .answered tail hmem (heq.trans hgeneration.symm) hfull hstop
      · exact .shown (heq.trans hgeneration.symm) hfull hstop
    · refine .pushed ?_
      show (lastStop e.transcriptGeneration (s.pushes ++ [sent])).isSome
      rw [hgeneration, lastStop_concat, hsent, if_pos]
      · rfl
      · simp [OperatorIpcTranscript.current, hnil]

theorem output {p : ℕ} {chunk : Output} (h : s.Inv agent) :
    (step agent (.output p chunk) s).Inv agent := by
  have hwrote := h.engine.output agent p chunk
  show (({ s with engine := (s.engine.output agent p chunk).1 } : LiveTerminal).forward
    (s.engine.output agent p chunk).2).Inv agent
  generalize (s.engine.output agent p chunk).1 = e at hwrote
  generalize (s.engine.output agent p chunk).2 = sent at hwrote
  cases sent with
  | none => exact h.calm hwrote.onePane ⟨hwrote.generation, fun stream hs => by
      rwa [← hwrote.silent rfl]⟩
  | some sent =>
    by_cases hlink : s.link = .up
    · have hforward : ({ s with engine := e } : LiveTerminal).forward (some sent) =
          { s with engine := e, pushes := s.pushes ++ [sent] } := if_pos hlink
      rw [hforward]
      exact h.wrote_attached hwrote hlink
    · have hforward : ({ s with engine := e } : LiveTerminal).forward (some sent) =
          { s with engine := e } := if_neg hlink
      rw [hforward]
      exact h.wrote_unattached hwrote hlink

/-! ## Steps of the connection -/

/-- The pushes on their way are put together anew. -/
theorem repush {pushes : List OperatorIpcTranscript} (h : s.Inv agent)
    (hlast : ∀ generation, lastStop generation pushes = lastStop generation s.pushes)
    (hforall : ∀ P : OperatorIpcTranscript → Prop,
      (∀ first second, P first → P second → first.agentId = second.agentId →
        first.generation = second.generation →
        second.offset = first.offset + first.chunk.length → P (first.join second)) →
      (∀ first excess, P first → P (first.cut excess)) → (∀ push ∈ s.pushes, P push) →
      ∀ push ∈ pushes, P push) (hnil : s.pushes = [] → pushes = []) :
    ({ s with pushes := pushes } : LiveTerminal).Inv agent := by
  refine ⟨h.engine, h.console, h.selected, h.caughtUp, ?_, ?_, ?_, h.part, ?_⟩
  · intro hdown
    obtain ⟨hbehind, hpushes, hreplies⟩ := h.down hdown
    exact ⟨hbehind, hnil hpushes, hreplies⟩
  · intro hne
    obtain ⟨hconsole, hpushes, hreplies⟩ := h.newest hne
    refine ⟨hconsole, ?_, hreplies⟩
    exact hforall (fun push => push.generation ≤ s.engine.transcriptGeneration)
      (fun first second hfirst _ _ _ _ => hfirst) (fun first excess hfirst => hfirst) hpushes
  · intro hup
    have hwire := h.wire hup
    refine ⟨?_, hwire.replies, ?_⟩
    · refine hforall (fun push => Fits agent s.engine push.agentId push.generation push.offset
        push.chunk) ?_ ?_ hwire.pushes
      · rintro first second ⟨hagent, hle, hat⟩ ⟨-, -, hat'⟩ - hgeneration hoffset
        refine ⟨hagent, hle, fun heq stream hs => (hat heq stream hs).append ?_⟩
        rw [← hoffset]
        exact hat' (hgeneration ▸ heq) stream hs
      · rintro first excess ⟨hagent, hle, hat⟩
        exact ⟨hagent, hle, fun heq stream hs => (hat heq stream hs).drop excess⟩
    · intro stream stop hs hstop
      exact hwire.last stream stop hs ((hlast _).symm.trans hstop)
  · intro hup hbehind hselected stream hs hne
    obtain hpushed | hasked | ⟨tail, hmem, heq, htext, hstop⟩ | ⟨heq, htext, hstop⟩ :=
      h.covered hup hbehind hselected stream hs hne
    · refine .pushed ?_
      show (lastStop _ pushes).isSome
      rw [hlast]
      exact hpushed
    · exact .asked hasked
    · exact .answered tail hmem heq htext hstop
    · exact .shown heq htext hstop

theorem coalesce {n : ℕ} (h : s.Inv agent) : (step agent (.coalesce n) s).Inv agent :=
  h.repush (fun _ => lastStop_coalesceAt n)
    (fun _ hjoin _ hpushes => forall_coalesceAt hjoin n hpushes) (fun hnil => by
      rw [hnil]
      cases n <;> rfl)

theorem prune {n excess : ℕ} (h : s.Inv agent) : (step agent (.prune n excess) s).Inv agent :=
  h.repush (fun _ => lastStop_pruneAt excess n)
    (fun _ _ hcut hpushes => forall_pruneAt (fun first => hcut first excess) n hpushes)
    (fun hnil => by
      rw [hnil]
      cases n <;> rfl)

/-- The daemon's side of the connection is gone. -/
theorem unattached {e : TranscriptEngine} {link : Link} (h : s.Inv agent) (honePane : e.OnePane)
    (hnewest : e.stream ≠ none → e = s.engine) (hup : link ≠ .up)
    (hdown : link = .down → s.link = .down) :
    ({ s with engine := e, link := link } : LiveTerminal).Inv agent := by
  refine ⟨honePane, h.console, h.selected, h.caughtUp, fun hd => h.down (hdown hd), ?_,
    fun hu => absurd hu hup, fun hu => absurd hu hup, fun hu => absurd hu hup⟩
  intro hne
  have heq : e = s.engine := hnewest hne
  subst heq
  exact h.newest hne

theorem restart (h : s.Inv agent) : (step agent .restart s).Inv agent := by
  refine h.unattached TranscriptEngine.onePane_init (fun hne => absurd rfl hne) ?_ ?_
  · split <;> exact fun hup => (by cases hup)
  · split
    · rename_i hdown
      exact fun _ => hdown
    · exact fun hdown => (by cases hdown)

theorem drop (h : s.Inv agent) : (step agent .drop s).Inv agent := by
  show (if _ then _ else _ : LiveTerminal).Inv agent
  split
  · exact h.unattached h.engine (fun _ => rfl) (fun hup => (by cases hup))
      (fun hdown => (by cases hdown))
  · exact h

theorem connect (h : s.Inv agent) : (step agent .connect s).Inv agent := by
  show (if _ then _ else _ : LiveTerminal).Inv agent
  split
  · rename_i hdown
    obtain ⟨hbehind, hpushes, hreplies⟩ := h.down hdown
    refine ⟨h.engine, h.console, h.selected, h.caughtUp, fun hd => (by cases hd), h.newest, ?_, ?_,
      ?_⟩
    · intro _
      refine ⟨?_, ?_, ?_⟩
      · show ∀ push ∈ s.pushes, _
        rw [hpushes]
        exact fun push hpush => (by cases hpush)
      · show ∀ reply ∈ s.replies, _
        rw [hreplies]
        exact fun reply hreply => (by cases hreply)
      · intro stream stop _ hlast
        have hlast : lastStop _ s.pushes = some stop := hlast
        rw [hpushes] at hlast
        cases hlast
    · intro _ hcaught
      rw [show s.behind = false from hcaught] at hbehind
      cases hbehind
    · intro _ hcaught
      rw [show s.behind = false from hcaught] at hbehind
      cases hbehind
  · exact h

/-! ## Steps of the shell -/

/-- Some of the pushes have been delivered. -/
theorem pop {pushes : List OperatorIpcTranscript} (h : s.OnWire agent)
    (hpop : pushes = s.pushes ∨ ∃ push, s.pushes = push :: pushes) :
    ∀ (t : LiveTerminal), t.engine = s.engine → t.pushes = pushes → t.replies = s.replies →
      t.OnWire agent := by
  intro t hengine hpushes hreplies
  obtain rfl | ⟨push, hcons⟩ := hpop
  · refine ⟨?_, ?_, ?_⟩
    · rw [hengine, hpushes]
      exact h.pushes
    · rw [hengine, hreplies]
      exact h.replies
    · rw [hengine, hpushes]
      exact h.last
  · refine ⟨?_, ?_, ?_⟩
    · rw [hengine, hpushes]
      exact fun other hother => h.pushes other (hcons ▸ List.mem_cons_of_mem _ hother)
    · rw [hengine, hreplies]
      exact h.replies
    · intro stream stop hs hlast
      rw [hengine] at hs hlast
      rw [hpushes] at hlast
      refine h.last stream stop hs ?_
      rw [hcons, lastStop, hlast]

/-- The console is empty, and a backfill is asked for. -/
theorem startOver {console : AgentsConsole} {pushes : List OperatorIpcTranscript}
    {behind refreshing : Bool} (h : s.Inv agent) (hconsistent : console.Consistent)
    (hselected : console.selectedAgentId = some agent) (hempty : console.transcriptSegments = [])
    (hnewest : s.engine.stream ≠ none →
      console.transcriptGeneration ≤ s.engine.transcriptGeneration)
    (hpop : pushes = s.pushes ∨ ∃ push, s.pushes = push :: pushes)
    (hcaughtUp : behind = true → console.live = false ∨ refreshing = true)
    (hdown : s.link = .down → behind = true) :
    ({ s with
      pushes := pushes
      console := console
      transcriptRequestSeq := s.transcriptRequestSeq + 1
      asked := s.asked ++ [s.transcriptRequestSeq + 1]
      behind := behind
      refreshing := refreshing } : LiveTerminal).Inv agent := by
  refine ⟨h.engine, hconsistent, .inr hselected, hcaughtUp, ?_, ?_,
    fun hup => pop (h.wire hup) hpop _ rfl rfl rfl, fun _ _ => .inl hempty, ?_⟩
  · intro hd
    obtain ⟨-, hpushes, hreplies⟩ := h.down hd
    refine ⟨hdown hd, ?_, hreplies⟩
    obtain rfl | ⟨push, hcons⟩ := hpop
    · exact hpushes
    · rw [hpushes] at hcons
      cases hcons
  · intro hne
    obtain ⟨-, hpushes, hreplies⟩ := h.newest hne
    refine ⟨hnewest hne, ?_, hreplies⟩
    intro push hpush
    obtain rfl | ⟨first, hcons⟩ := hpop
    · exact hpushes push hpush
    · exact hpushes push (hcons ▸ List.mem_cons_of_mem _ hpush)
  · intro _ _ _ _ _ _
    exact .asked (List.mem_append_right _ List.mem_cons_self)

theorem clearSelectedTranscript_of_selected {console : AgentsConsole}
    (hselected : console.selectedAgentId = some agent) :
    console.clearSelectedTranscript =
      AgentsConsole.clearSegments { console with transcript := [], transcriptOffset := 0 } := by
  rw [AgentsConsole.clearSelectedTranscript, if_neg]
  rw [hselected]
  exact Option.some_ne_none _

/-- The console goes live, or is told again that it is. -/
theorem updateLive {backfill refreshing : Bool} (h : s.Inv agent) (hlink : s.link ≠ .down)
    (hrefreshing : backfill = false → refreshing = s.refreshing) :
    (({ s with refreshing := refreshing } : LiveTerminal).updateLive backfill).Inv agent := by
  unfold LiveTerminal.updateLive
  dsimp only
  by_cases hbackfill : (backfill || !s.console.live) = true
  · rw [if_pos hbackfill]
    unfold refreshSelectedTranscript
    dsimp only
    obtain ⟨hselected, hempty⟩ | hselected := h.selected
    · rw [if_pos hselected]
      refine ⟨h.engine, ⟨h.console.accumulator, .inl hempty⟩, .inl ⟨hselected, hempty⟩,
        fun hb => (by cases hb), fun hd => absurd hd hlink, h.newest,
        fun hup => pop (h.wire hup) (.inl rfl) _ rfl rfl rfl, fun _ _ => .inl hempty, ?_⟩
      intro _ _ hsome
      rw [show s.console.selectedAgentId = some agent from hsome] at hselected
      cases hselected
    · rw [if_neg (by rw [hselected]; exact Option.some_ne_none _)]
      have hcleared : AgentsConsole.clearSelectedTranscript { s.console with live := true } = _ :=
        clearSelectedTranscript_of_selected hselected
      rw [if_pos rfl, hcleared]
      exact h.startOver (AgentsConsole.clearSegments_consistent h.console.accumulator) hselected
        rfl (fun hne => (h.newest hne).1) (.inl rfl) (fun hb => (by cases hb))
        (fun hd => absurd hd hlink)
  · rw [if_neg hbackfill]
    simp only [Bool.or_eq_true, Bool.not_eq_true', not_or, Bool.not_eq_true,
      Bool.not_eq_false] at hbackfill
    have hlive : ({ s.console with live := true } : AgentsConsole) = s.console := by
      rw [← hbackfill.2]
    rw [hlive, hrefreshing hbackfill.1]
    exact h

/-- What the console shows is kept, and the engine, the connection and the messages are as well. -/
theorem congr {t : LiveTerminal} (h : s.Inv agent) (hengine : t.engine = s.engine)
    (hlink : t.link = s.link) (hpushes : t.pushes = s.pushes) (hasked : t.asked = s.asked)
    (hreplies : t.replies = s.replies) (hseq : t.transcriptRequestSeq = s.transcriptRequestSeq)
    (hbehind : t.behind = s.behind)
    (hconsole : ∃ live, t.console = { s.console with live := live })
    (hcaughtUp : t.behind = true → t.console.live = false ∨ t.refreshing = true) :
    t.Inv agent := by
  obtain ⟨live, hconsole⟩ := hconsole
  obtain ⟨engine, link, pushes, asked, replies, console, seq, refreshing, behind⟩ := t
  dsimp only at *
  subst hengine hlink hpushes hasked hreplies hseq hbehind hconsole
  refine ⟨h.engine, ⟨h.console.accumulator, h.console.segments⟩, h.selected, hcaughtUp, h.down,
    h.newest, fun hup => pop (h.wire hup) (.inl rfl) _ rfl rfl rfl, h.part, ?_⟩
  intro hup hb hselected stream hs hne
  obtain hpushed | hasked | ⟨tail, hmem, heq, htext, hstop⟩ | ⟨heq, htext, hstop⟩ :=
    h.covered hup hb hselected stream hs hne
  · exact .pushed hpushed
  · exact .asked hasked
  · exact .answered tail hmem heq htext hstop
  · exact .shown heq htext hstop

theorem refresh (h : s.Inv agent) : (step agent .refresh s).Inv agent :=
  h.congr rfl rfl rfl rfl rfl rfl rfl ⟨s.console.live, rfl⟩ fun _ => .inr rfl

theorem refreshFails (h : s.Inv agent) (hguard : Guard .refreshFails s) :
    (step agent .refreshFails s).Inv agent :=
  h.congr rfl rfl rfl rfl rfl rfl rfl ⟨s.console.live, rfl⟩ fun hbehind => .inl (hguard hbehind)

theorem observedStatic (h : s.Inv agent) : (step agent .observedStatic s).Inv agent := by
  show (if _ then _ else _ : LiveTerminal).Inv agent
  split
  · exact h.congr rfl rfl rfl rfl rfl rfl rfl ⟨false, rfl⟩ fun _ => .inl rfl
  · exact h

theorem observedLive (h : s.Inv agent) : (step agent .observedLive s).Inv agent := by
  show (if _ then _ else _ : LiveTerminal).Inv agent
  split
  · rename_i hlink
    exact h.updateLive hlink.2 fun hb => (by cases hb)
  · exact h

theorem tick (h : s.Inv agent) : (step agent .tick s).Inv agent := by
  show (if _ then _ else _ : LiveTerminal).Inv agent
  split
  · exact h
  · rename_i hlink
    exact h.updateLive hlink fun _ => rfl

theorem select (h : s.Inv agent) : (step agent .select s).Inv agent := by
  have hselected : (s.console.selectAgent (some agent)).selectedAgentId = some agent := rfl
  show (refreshSelectedTranscript false _).Inv agent
  rw [refreshSelectedTranscript, if_neg (by rw [hselected]; exact Option.some_ne_none _)]
  refine h.startOver (AgentsConsole.clearSegments_consistent h.console.accumulator) hselected rfl
    ?_ (.inl rfl) h.caughtUp fun hd => (h.down hd).1
  intro hne
  have hle := (h.newest hne).1
  show (if s.console.selectedAgentId = some agent then _ else 0) ≤ _
  split
  · exact hle
  · exact Nat.zero_le _

/-! ## Messages that arrive -/

/-- The agent of a message is shown, or the message changes nothing. -/
theorem selected_of_gap {push : OperatorIpcTranscript} (h : s.Inv agent)
    (hgap : (s.console.appendChunk push).2 = .gap) :
    s.console.selectedAgentId = some agent := by
  obtain ⟨hnone, -⟩ | hselected := h.selected
  · rw [AgentsConsole.appendChunk_of_ne (by rw [hnone]; exact (Option.some_ne_none _).symm)] at hgap
    cases hgap
  · exact hselected

/-- What the console shows of the stream before a message of this generation is put in. -/
theorem partOf_of_le {generation : ℕ} (h : s.Inv agent) (hup : s.link = .up)
    (hbehind : s.behind = false) {stream : Output} (hs : s.engine.stream = some stream)
    (hgeneration : generation = s.engine.transcriptGeneration)
    (heq : s.console.transcriptGeneration = generation) : s.console.PartOf stream := by
  obtain hnone | ⟨-, hpart⟩ := h.part hup hbehind
  · exact AgentsConsole.partOf_of_segments_eq_nil hnone
  · exact hpart (heq.trans hgeneration) stream hs

theorem deliverPush_part {push : OperatorIpcTranscript} {pushes : List OperatorIpcTranscript}
    (h : s.Inv agent) (hcons : s.pushes = push :: pushes) (hup : s.link = .up)
    (hbehind : s.behind = false) :
    (s.console.appendChunk push).1.transcriptSegments = [] ∨
      (s.console.appendChunk push).1.transcriptGeneration ≤ s.engine.transcriptGeneration ∧
        ((s.console.appendChunk push).1.transcriptGeneration = s.engine.transcriptGeneration →
          ∀ stream, s.engine.stream = some stream →
            (s.console.appendChunk push).1.PartOf stream) := by
  obtain ⟨hagent, hle, hat⟩ := (h.wire hup).pushes push (by rw [hcons]; exact List.mem_cons_self)
  by_cases hshown : s.console.selectedAgentId = some push.agentId
  · by_cases hnew : s.console.transcriptGeneration ≤ push.generation
    · have hgeneration := AgentsConsole.appendChunk_generation hshown hnew
      refine .inr ⟨hgeneration ▸ hle, fun heq stream hs => ?_⟩
      rw [hgeneration] at heq
      exact (AgentsConsole.appendChunk_partOf h.console hshown hnew
        (h.partOf_of_le hup hbehind hs heq) (hat heq stream hs)).1
    · rw [AgentsConsole.appendChunk_stale (by omega)]
      exact h.part hup hbehind
  · rw [AgentsConsole.appendChunk_of_ne hshown]
    exact h.part hup hbehind

theorem deliverPush_covered {push : OperatorIpcTranscript} {pushes : List OperatorIpcTranscript}
    (h : s.Inv agent) (hcons : s.pushes = push :: pushes) (hup : s.link = .up)
    (hbehind : s.behind = false) (hselected : s.console.selectedAgentId = some agent)
    {stream : Output} (hs : s.engine.stream = some stream) (hne : stream ≠ [])
    (hgap : (s.console.appendChunk push).2 ≠ .gap) :
    ({ s with pushes := pushes, console := (s.console.appendChunk push).1 } :
      LiveTerminal).Covered stream := by
  obtain ⟨hagent, hle, hat⟩ := (h.wire hup).pushes push (by rw [hcons]; exact List.mem_cons_self)
  have hshown : s.console.selectedAgentId = some push.agentId := by rw [hselected, hagent]
  have hold := (h.newest (by rw [hs]; exact Option.some_ne_none _)).1
  cases hlast : lastStop s.engine.transcriptGeneration pushes with
  | some stop =>
    refine .pushed ?_
    show (lastStop s.engine.transcriptGeneration pushes).isSome
    rw [hlast]
    rfl
  | none =>
    by_cases hcurrent : push.current s.engine.transcriptGeneration
    · -- The newest text of the pane arrives.
      simp only [OperatorIpcTranscript.current, Bool.and_eq_true, decide_eq_true_eq] at hcurrent
      obtain ⟨heq, htext⟩ := hcurrent
      have hstop : push.stop = stream.length := by
        refine (h.wire hup).last stream push.stop hs ?_
        rw [hcons, lastStop, hlast]
        simp [OperatorIpcTranscript.current, heq, htext]
      obtain ⟨hpart, -, happlied⟩ := AgentsConsole.appendChunk_partOf h.console hshown
        (heq ▸ hold) (h.partOf_of_le hup hbehind hs heq) (hat heq stream hs)
      obtain ⟨hsegments, hend⟩ := happlied htext hgap
      refine .shown ?_ hsegments (le_antisymm ?_ ?_)
      · exact (AgentsConsole.appendChunk_generation hshown (heq ▸ hold)).trans heq
      · exact AgentsConsole.stop_le_length (AgentsConsole.appendChunk_consistent h.console) hpart
      · rw [← hstop]
        exact hend
    · obtain hpushed | hasked | ⟨tail, hmem, heq, htext, hstop⟩ | ⟨heq, htext, hstop⟩ :=
        h.covered hup hbehind hselected stream hs hne
      · rw [hcons, lastStop, hlast, if_neg hcurrent] at hpushed
        cases hpushed
      · exact .asked hasked
      · exact .answered tail hmem heq htext hstop
      · have hsame : (s.console.appendChunk push).1 = s.console := by
          by_cases hstale : push.generation < s.console.transcriptGeneration
          · rw [AgentsConsole.appendChunk_stale hstale]
          · have hgeneration : push.generation = s.engine.transcriptGeneration := by omega
            have hnil : push.chunk = [] := by
              by_contra hchunk
              exact hcurrent (by simp [OperatorIpcTranscript.current, hgeneration, hchunk])
            exact (AgentsConsole.appendChunk_partOf h.console hshown (by omega)
              (h.partOf_of_le hup hbehind hs hgeneration) (hat hgeneration stream hs)).2.1 hnil
              (heq.trans hgeneration.symm)
        rw [hsame]
        exact .shown heq htext hstop

theorem deliverPush (h : s.Inv agent) : s.deliverPush.Inv agent := by
  unfold LiveTerminal.deliverPush
  split
  · exact h
  · rename_i push pushes hcons
    dsimp only
    have hpush : push ∈ s.pushes := by
      rw [hcons]
      exact List.mem_cons_self
    have hnewest : s.engine.stream ≠ none →
        (s.console.appendChunk push).1.transcriptGeneration ≤ s.engine.transcriptGeneration := by
      intro hne
      obtain ⟨hconsole, hpushes, -⟩ := h.newest hne
      exact AgentsConsole.appendChunk_generation_le hconsole (hpushes push hpush)
    obtain ⟨hheader, hlive⟩ := AgentsConsole.appendChunk_header s.console push
    have hconsistent : (s.console.appendChunk push).1.Consistent :=
      AgentsConsole.appendChunk_consistent h.console
    split
    · rename_i hgap
      have hselected := h.selected_of_gap hgap
      rw [← hheader] at hselected
      rw [refreshSelectedTranscript, if_neg (by rw [hselected]; exact Option.some_ne_none _),
        if_pos rfl, clearSelectedTranscript_of_selected hselected]
      exact h.startOver (AgentsConsole.clearSegments_consistent hconsistent.accumulator) hselected
        rfl hnewest (.inr ⟨push, hcons⟩) (fun hb => hlive ▸ h.caughtUp hb)
        (fun hd => (h.down hd).1)
    · rename_i hgap
      refine ⟨h.engine, hconsistent, ?_, fun hb => hlive ▸ h.caughtUp hb, ?_, ?_,
        fun hup => pop (h.wire hup) (.inr ⟨push, hcons⟩) _ rfl rfl rfl,
        fun hup hb => h.deliverPush_part hcons hup hb, ?_⟩
      · obtain ⟨hnone, hempty⟩ | hselected := h.selected
        · left
          rw [AgentsConsole.appendChunk_of_ne (by rw [hnone]; exact (Option.some_ne_none _).symm)]
          exact ⟨hnone, hempty⟩
        · exact .inr (hheader.trans hselected)
      · intro hd
        rw [(h.down hd).2.1] at hcons
        cases hcons
      · intro hne
        obtain ⟨-, hpushes, hreplies⟩ := h.newest hne
        exact ⟨hnewest hne, fun other hother => hpushes other (hcons ▸ List.mem_cons_of_mem _ hother),
          hreplies⟩
      · intro hup hb hselected stream hs hne
        exact h.deliverPush_covered hcons hup hb (hheader.symm.trans hselected) hs hne hgap

theorem setTranscriptTail_selected {tail : TranscriptTail} (h : s.Inv agent) :
    (s.console.setTranscriptTail tail).selectedAgentId = none ∧
        (s.console.setTranscriptTail tail).transcriptSegments = [] ∨
      (s.console.setTranscriptTail tail).selectedAgentId = some agent := by
  obtain ⟨hnone, hempty⟩ | hselected := h.selected
  · left
    rw [AgentsConsole.setTranscriptTail_of_ne (by rw [hnone]; exact (Option.some_ne_none _).symm)]
    exact ⟨hnone, hempty⟩
  · exact .inr ((AgentsConsole.setTranscriptTail_header s.console tail).1.trans hselected)

/-- The answer to the newest request arrives at the console. -/
theorem reply_part {tail : TranscriptTail} (h : s.Inv agent) (hup : s.link = .up)
    (hbehind : s.behind = false)
    (hfits : Fits agent s.engine tail.agentId tail.generation tail.offset tail.tail) :
    (s.console.setTranscriptTail tail).transcriptSegments = [] ∨
      (s.console.setTranscriptTail tail).transcriptGeneration ≤ s.engine.transcriptGeneration ∧
        ((s.console.setTranscriptTail tail).transcriptGeneration = s.engine.transcriptGeneration →
          ∀ stream, s.engine.stream = some stream →
            (s.console.setTranscriptTail tail).PartOf stream) := by
  obtain ⟨hagent, hle, hat⟩ := hfits
  by_cases hshown : s.console.selectedAgentId = some tail.agentId
  · by_cases hnew : s.console.transcriptGeneration ≤ tail.generation
    · have hgeneration := AgentsConsole.setTranscriptTail_generation hshown hnew
      refine .inr ⟨hgeneration ▸ hle, fun heq stream hs => ?_⟩
      rw [hgeneration] at heq
      exact (AgentsConsole.setTranscriptTail_partOf h.console hshown hnew
        (h.partOf_of_le hup hbehind hs heq) (hat heq stream hs)).1
    · rw [AgentsConsole.setTranscriptTail_stale (by omega)]
      exact h.part hup hbehind
  · rw [AgentsConsole.setTranscriptTail_of_ne hshown]
    exact h.part hup hbehind

theorem reply_covered {tail : TranscriptTail} {replies : List (ℕ × TranscriptTail)}
    (h : s.Inv agent) (hup : s.link = .up) (hbehind : s.behind = false)
    (hselected : s.console.selectedAgentId = some agent)
    (hfits : Fits agent s.engine tail.agentId tail.generation tail.offset tail.tail)
    (hreplies : ∀ reply ∈ s.replies, reply = (s.transcriptRequestSeq, tail) ∨ reply ∈ replies)
    {stream : Output} (hs : s.engine.stream = some stream) (hne : stream ≠ []) :
    ({ s with replies := replies, console := s.console.setTranscriptTail tail } :
      LiveTerminal).Covered stream := by
  obtain ⟨hagent, hle, hat⟩ := hfits
  have hshown : s.console.selectedAgentId = some tail.agentId := by rw [hselected, hagent]
  have hold := (h.newest (by rw [hs]; exact Option.some_ne_none _)).1
  have hconsistent : (s.console.setTranscriptTail tail).Consistent :=
    AgentsConsole.setTranscriptTail_consistent h.console
  obtain hpushed | hasked | ⟨answered, hmem, heq, htext, hstop⟩ | ⟨heq, htext, hstop⟩ :=
    h.covered hup hbehind hselected stream hs hne
  · exact .pushed hpushed
  · exact .asked hasked
  · obtain hnow | hlater := hreplies _ hmem
    · -- The answer that is waited for.
      obtain rfl : answered = tail := congrArg Prod.snd hnow
      obtain ⟨hpart, happlied, -⟩ := AgentsConsole.setTranscriptTail_partOf h.console hshown
        (heq ▸ hold) (h.partOf_of_le hup hbehind hs heq) (hat heq stream hs)
      obtain ⟨hsegments, hend⟩ := happlied htext
      refine .shown ?_ hsegments (le_antisymm ?_ ?_)
      · exact (AgentsConsole.setTranscriptTail_generation hshown (heq ▸ hold)).trans heq
      · exact AgentsConsole.stop_le_length hconsistent hpart
      · rw [← hstop]
        exact hend
    · exact .answered answered hlater heq htext hstop
  · by_cases hstale : tail.generation < s.console.transcriptGeneration
    · rw [AgentsConsole.setTranscriptTail_stale hstale]
      exact .shown heq htext hstop
    · have hgeneration : tail.generation = s.engine.transcriptGeneration := by omega
      obtain ⟨hpart, -, hkept⟩ := AgentsConsole.setTranscriptTail_partOf h.console hshown
        (by omega) (h.partOf_of_le hup hbehind hs hgeneration) (hat hgeneration stream hs)
      obtain ⟨hsegments, hend⟩ := hkept (heq.trans hgeneration.symm) htext
      refine .shown ?_ hsegments (le_antisymm ?_ ?_)
      · exact (AgentsConsole.setTranscriptTail_generation hshown (by omega)).trans hgeneration
      · exact AgentsConsole.stop_le_length hconsistent hpart
      · show stream.length ≤ (s.console.setTranscriptTail tail).stop
        omega

theorem mem_or_eq_of_eraseIdx {α : Type} {xs : List α} {n : ℕ} {x y : α} (hn : xs[n]? = some x)
    (hy : y ∈ xs) : y = x ∨ y ∈ xs.eraseIdx n := by
  obtain ⟨j, hj⟩ := List.mem_iff_getElem?.1 hy
  by_cases heq : j = n
  · subst heq
    rw [hn] at hj
    exact .inl (Option.some.inj hj).symm
  · refine .inr (List.mem_eraseIdx_iff_getElem?.2 ⟨j, heq, hj⟩)

theorem deliverReply {n : ℕ} (h : s.Inv agent) : (s.deliverReply n).Inv agent := by
  unfold LiveTerminal.deliverReply
  split
  · exact h
  · rename_i seq tail hn
    have hmem : (seq, tail) ∈ s.replies := List.mem_of_getElem? hn
    have hsub : ∀ reply ∈ s.replies.eraseIdx n, reply ∈ s.replies := fun _ hreply =>
      List.mem_of_mem_eraseIdx hreply
    have hdown : s.link = .down → s.behind = true ∧ s.pushes = [] ∧ s.replies.eraseIdx n = [] := by
      intro hd
      obtain ⟨hb, hpushes, hreplies⟩ := h.down hd
      exact ⟨hb, hpushes, by rw [hreplies]; rfl⟩
    have hwire : ∀ (console : AgentsConsole), s.link = .up →
        ({ s with replies := s.replies.eraseIdx n, console := console } :
          LiveTerminal).OnWire agent := fun console hup =>
      ⟨(h.wire hup).pushes, fun reply hreply => (h.wire hup).replies reply (hsub reply hreply),
        (h.wire hup).last⟩
    unfold settleTranscript
    by_cases hnewest : seq = s.transcriptRequestSeq
    · rw [if_pos hnewest]
      subst hnewest
      refine ⟨h.engine, AgentsConsole.setTranscriptTail_consistent h.console,
        h.setTranscriptTail_selected, fun hb => ?_, hdown, ?_, hwire _,
        fun hup hb => h.reply_part hup hb ((h.wire hup).replies _ hmem), ?_⟩
      · show (s.console.setTranscriptTail tail).live = false ∨ _
        rw [(AgentsConsole.setTranscriptTail_header s.console tail).2]
        exact h.caughtUp hb
      · intro hne
        obtain ⟨hconsole, hpushes, hreplies⟩ := h.newest hne
        exact ⟨AgentsConsole.setTranscriptTail_generation_le hconsole (hreplies _ hmem), hpushes,
          fun reply hreply => hreplies reply (hsub reply hreply)⟩
      · intro hup hb hselected stream hs hne
        have hagent := (AgentsConsole.setTranscriptTail_header s.console tail).1
        exact h.reply_covered hup hb (hagent.symm.trans hselected)
          ((h.wire hup).replies _ hmem) (fun reply hreply => mem_or_eq_of_eraseIdx hn hreply) hs hne
    · rw [if_neg hnewest]
      refine ⟨h.engine, h.console, h.selected, h.caughtUp, hdown, ?_, hwire _, h.part, ?_⟩
      · intro hne
        obtain ⟨hconsole, hpushes, hreplies⟩ := h.newest hne
        exact ⟨hconsole, hpushes, fun reply hreply => hreplies reply (hsub reply hreply)⟩
      · intro hup hb hselected stream hs hne
        obtain hpushed | hasked | ⟨answered, hmem', heq, htext, hstop⟩ | ⟨heq, htext, hstop⟩ :=
          h.covered hup hb hselected stream hs hne
        · exact .pushed hpushed
        · exact .asked hasked
        · obtain hnow | hlater := mem_or_eq_of_eraseIdx hn hmem'
          · exact absurd (congrArg Prod.fst hnow).symm hnewest
          · exact .answered answered hlater heq htext hstop
        · exact .shown heq htext hstop

/-- The daemon answers with the tail of the stream. -/
theorem answer {seq : ℕ} (h : s.Inv agent) : (step agent (.answer seq) s).Inv agent := by
  show (if _ then _ else _ : LiveTerminal).Inv agent
  split
  · rename_i hanswer
    obtain ⟨hup, -⟩ := hanswer
    have hwire := h.wire hup
    refine ⟨h.engine, h.console, h.selected, h.caughtUp, ?_, ?_, ?_, h.part, ?_⟩
    · intro hd
      rw [show s.link = .down from hd] at hup
      cases hup
    · intro hne
      obtain ⟨hconsole, hpushes, hreplies⟩ := h.newest hne
      refine ⟨hconsole, hpushes, fun reply hreply => ?_⟩
      obtain hreply | hreply := List.mem_append.1 hreply
      · exact hreplies reply hreply
      · rw [List.mem_singleton.1 hreply]
        exact Nat.le_refl _
    · intro _
      refine ⟨hwire.pushes, fun reply hreply => ?_, hwire.last⟩
      obtain hreply | hreply := List.mem_append.1 hreply
      · exact hwire.replies reply hreply
      · rw [List.mem_singleton.1 hreply]
        refine ⟨rfl, Nat.le_refl _, fun _ stream hs => ?_⟩
        obtain ⟨a, ha, hfollows⟩ := h.engine.exists_accumulator hs
        show Slice.At stream ((s.engine.transcriptAccumulator.map _).getD 0)
          ((s.engine.transcriptAccumulator.map _).getD [])
        rw [ha]
        show Slice.At stream a.offset a.tail
        rw [hfollows.tail_eq]
        exact Slice.at_drop
    · intro _ hb hselected stream hs hne
      obtain hpushed | hasked | ⟨answered, hmem, heq, htext, hstop⟩ | ⟨heq, htext, hstop⟩ :=
        h.covered hup hb hselected stream hs hne
      · exact .pushed hpushed
      · by_cases hseq : s.transcriptRequestSeq = seq
        · obtain ⟨a, ha, hfollows⟩ := h.engine.exists_accumulator hs
          have htail : s.engine.transcriptTailSnapshot agent =
              ⟨agent, s.engine.transcriptGeneration, a.offset, a.tail⟩ := by
            rw [TranscriptEngine.transcriptTailSnapshot, ha]
            rfl
          refine .answered (s.engine.transcriptTailSnapshot agent) ?_ rfl ?_ ?_
          · exact List.mem_append_right _ (by rw [← hseq]; exact List.mem_cons_self)
          · rw [htail]
            exact hfollows.tail_ne_nil hne
          · rw [htail]
            show a.offset + a.tail.length = stream.length
            rw [← hfollows.nextOffset_eq, hfollows.consistent.nextOffset_eq]
        · exact .asked ((List.mem_erase_of_ne hseq).2 hasked)
      · exact .answered answered (List.mem_append_left _ hmem) heq htext hstop
      · exact .shown heq htext hstop
  · exact h

/-- A request that the connection loses ends with an empty tail. -/
theorem settle_emptyTail {asked : List ℕ} {seq : ℕ} (h : s.Inv agent) (hlink : s.link ≠ .up) :
    (({ s with asked := asked } : LiveTerminal).settleTranscript seq (emptyTail agent)).Inv
      agent := by
  unfold settleTranscript
  split
  · refine ⟨h.engine, AgentsConsole.setTranscriptTail_consistent h.console,
      h.setTranscriptTail_selected, fun hb => ?_, h.down, ?_, fun hup => absurd hup hlink,
      fun hup => absurd hup hlink, fun hup => absurd hup hlink⟩
    · show (s.console.setTranscriptTail _).live = false ∨ _
      rw [(AgentsConsole.setTranscriptTail_header s.console _).2]
      exact h.caughtUp hb
    · intro hne
      obtain ⟨hconsole, hpushes, hreplies⟩ := h.newest hne
      exact ⟨AgentsConsole.setTranscriptTail_generation_le hconsole (Nat.zero_le _), hpushes,
        hreplies⟩
  · exact ⟨h.engine, h.console, h.selected, h.caughtUp, h.down, h.newest,
      fun hup => absurd hup hlink, fun hup => absurd hup hlink, fun hup => absurd hup hlink⟩

theorem unanswered {seq : ℕ} (h : s.Inv agent) : (step agent (.unanswered seq) s).Inv agent := by
  show (if _ then _ else _ : LiveTerminal).Inv agent
  split
  · rename_i hlost
    exact h.settle_emptyTail hlost.1
  · exact h

/-- Everything on its way is lost, and the connection is refreshed. -/
theorem hangUp (h : s.Inv agent) :
    ({ s with
      link := .down
      pushes := []
      asked := []
      replies := []
      refreshing := true
      behind := true } : LiveTerminal).Inv agent := by
  refine ⟨h.engine, h.console, h.selected, fun _ => .inr rfl, fun _ => ⟨rfl, rfl, rfl⟩, ?_,
    fun hup => (by cases hup), fun hup => (by cases hup), fun hup => (by cases hup)⟩
  intro hne
  exact ⟨(h.newest hne).1, fun push hpush => (by cases hpush), fun reply hreply => (by cases hreply)⟩

theorem closeEvent (h : s.Inv agent) : (s.closeEvent agent).Inv agent := by
  unfold LiveTerminal.closeEvent
  dsimp only
  split
  · exact h
  · have hlost : ({ s with link := .draining } : LiveTerminal).Inv agent :=
      h.unattached h.engine (fun _ => rfl) (fun hup => (by cases hup)) fun hd => (by cases hd)
    have hsettled : (({ s with link := .draining } : LiveTerminal).settleTranscript
        s.transcriptRequestSeq (emptyTail agent)).Inv agent :=
      hlost.settle_emptyTail fun hup => (by cases hup)
    split
    · unfold settleTranscript at hsettled ⊢
      rw [if_pos rfl] at hsettled ⊢
      exact hsettled.hangUp
    · exact h.hangUp

/-! ## Runs -/

theorem step {op : Op} (h : s.Inv agent) (hguard : Guard op s) :
    (LiveTerminal.step agent op s).Inv agent := by
  cases op with
  | spawn => exact h.spawn hguard
  | launched => exact h.calm h.engine.launched TranscriptEngine.calm_launched
  | launchFails => exact h.calm h.engine.launchFails (TranscriptEngine.calm_launchFails h.engine)
  | release => exact h.calm h.engine.release_step (TranscriptEngine.calm_release h.engine)
  | releaseInTurn => exact h.calm h.engine.releaseInTurn TranscriptEngine.calm_releaseInTurn
  | turnYields => exact h.calm h.engine.turnYields (TranscriptEngine.calm_turnYields h.engine)
  | output p chunk => exact h.output
  | coalesce n => exact h.coalesce
  | prune n excess => exact h.prune
  | restart => exact h.restart
  | drop => exact h.drop
  | closeEvent => exact h.closeEvent
  | connect => exact h.connect
  | select => exact h.select
  | push => exact h.deliverPush
  | answer seq => exact h.answer
  | reply n => exact h.deliverReply
  | unanswered seq => exact h.unanswered
  | refresh => exact h.refresh
  | observedLive => exact h.observedLive
  | observedStatic => exact h.observedStatic
  | refreshFails => exact h.refreshFails hguard
  | tick => exact h.tick

end Inv

/-- The desktop is connected, its console is live and shows the agent, and nothing is on its way:
no push, no backfill, and no refresh that would ask for one. -/
structure Quiet (agent : String) (s : LiveTerminal) : Prop where
  link : s.link = .up
  live : s.console.live = true
  selected : s.console.selectedAgentId = some agent
  refreshing : s.refreshing = false
  pushes : s.pushes = []
  asked : s.asked = []
  replies : s.replies = []

/-- The console shows the end of what the agent's pane has written. -/
def ShowsEnd (s : LiveTerminal) : Prop :=
  ∀ p pane, s.engine.hosted = some p → s.engine.panes[p]? = some pane → pane.stream ≠ [] →
    s.console.transcript ≠ [] ∧
      s.console.transcript = pane.stream.drop s.console.transcriptOffset

theorem showsEnd_of_quiet (h : s.Inv agent) (hquiet : s.Quiet agent) : s.ShowsEnd := by
  intro p pane hp hpane hne
  have hbehind : s.behind = false := by
    by_contra hbehind
    obtain hlive | hrefreshing := h.caughtUp (Bool.eq_true_of_not_eq_false hbehind)
    · rw [hquiet.live] at hlive
      cases hlive
    · rw [hquiet.refreshing] at hrefreshing
      cases hrefreshing
  obtain ⟨pane', a, hpane', hs, -⟩ := h.engine.stream_eq (h.engine.hosted p hp)
  rw [hpane] at hpane'
  obtain rfl := Option.some.inj hpane'
  obtain hpushed | hasked | ⟨tail, hmem, -⟩ | ⟨heq, hshown, hstop⟩ :=
    h.covered hquiet.link hbehind hquiet.selected pane.stream hs hne
  · rw [hquiet.pushes] at hpushed
    cases hpushed
  · rw [hquiet.asked] at hasked
    cases hasked
  · rw [hquiet.replies] at hmem
    cases hmem
  · obtain hnone | ⟨-, hpart⟩ := h.part hquiet.link hbehind
    · exact absurd hnone hshown
    · exact AgentsConsole.transcript_eq_drop h.console (hpart heq pane.stream hs) hshown hstop

/-- While panes are launched one at a time and with generations that are not below what the console
has seen, and no refresh fails that the console needs, the live terminal recovers. -/
theorem recovers {ops : List Op} (h : Run.Guarded (step agent) Guard ops {}) :
    (Run.after (step agent) ops {}).Quiet agent → (Run.after (step agent) ops {}).ShowsEnd :=
  showsEnd_of_quiet (Run.invariant (Inv agent) (fun _ _ hguard hs => hs.step hguard) h inv_init)

/-- The agent is selected and its pane writes; then the daemon restarts, and the console starts
over with the new daemon. -/
def firstRun : List Op :=
  [.connect, .refresh, .observedLive, .select, .answer 1, .reply 0, .spawn, .launched,
    .output 0 (Pty.units "b"), .push]

def secondRun : List Op :=
  [.restart, .closeEvent, .connect, .observedLive, .answer 2, .reply 0, .spawn, .launched,
    .output 0 (Pty.units "c"), .push]

/-- Both daemons have launched one pane, so the generations agree. -/
theorem recovers_after_restart :
    (Run.after (step "a") (firstRun ++ secondRun) {}).ShowsEnd := by
  refine recovers ?_ ⟨by decide +kernel, by decide +kernel, by decide +kernel, by decide +kernel,
    by decide +kernel, by decide +kernel, by decide +kernel⟩
  refine ⟨trivial, trivial, trivial, trivial, trivial, trivial, ?_, trivial, trivial, trivial,
    trivial, trivial, trivial, trivial, trivial, trivial, ?_, trivial, trivial, trivial, trivial⟩
  · exact fun _ _ => ⟨by decide +kernel, by decide +kernel, by decide +kernel, by decide +kernel⟩
  · exact fun _ _ => ⟨by decide +kernel, by decide +kernel, by decide +kernel, by decide +kernel⟩

/-- The first daemon has launched two panes: the console stays at their second generation, and
shows nothing of what the first pane of the second daemon writes. -/
theorem not_recovers :
    ¬ ∀ ops : List Op, (Run.after (step "a") ops {}).Quiet "a" →
      (Run.after (step "a") ops {}).ShowsEnd := by
  intro h
  have hshows := h ([.spawn, .launched, .release] ++ firstRun.dropLast.dropLast ++
    [.output 1 (Pty.units "b"), .push] ++ secondRun)
    ⟨by decide +kernel, by decide +kernel, by decide +kernel, by decide +kernel,
      by decide +kernel, by decide +kernel, by decide +kernel⟩
  have hempty := (hshows 0 ⟨Pty.units "c", true, true⟩ (by decide +kernel) (by decide +kernel)
    (by decide +kernel)).1
  exact hempty (by decide +kernel)

end LiveTerminal

end Orchestration.Desktop
