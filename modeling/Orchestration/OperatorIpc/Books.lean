import Mathlib.Data.List.Nodup
import Orchestration.OperatorIpc.Channel

/-!
# The books of an operator connection

Each connection keeps its own books: a call is numbered, pending, and settled once.
An answer carries nothing but the number of a call, so it is right for the
connection that it reaches only when that connection asked, or has settled its call
of that number already.
-/

namespace Orchestration.OperatorIpc

variable {Payload : Type}

/-! ## The books of a connection -/

namespace Connection

variable {conn : Connection Payload}

/-- Every call that the connection has numbered is pending or settled, and only one of the two. -/
structure Books (conn : Connection Payload) : Prop where
  numbered : conn.sent.map WireRequest.id = List.range' 1 conn.sent.length
  next : conn.nextId = conn.sent.length + 1
  accounted : (conn.settled.map Prod.fst ++ conn.pending).Perm (conn.sent.map WireRequest.id)
  closed : conn.phase = .closed → conn.pending = []
  unsent : conn.phase = .unborn → conn.sent = []

namespace Books

theorem sent_nodup (h : conn.Books) : (conn.sent.map WireRequest.id).Nodup := by
  rw [h.numbered]
  exact List.nodup_range'

theorem nodup (h : conn.Books) : (conn.settled.map Prod.fst ++ conn.pending).Nodup :=
  h.accounted.nodup_iff.2 h.sent_nodup

theorem pending_nodup (h : conn.Books) : conn.pending.Nodup := (List.nodup_append.1 h.nodup).2.1

theorem not_pending {id : ℕ} (h : conn.Books) (hid : id ∈ conn.settled.map Prod.fst) :
    id ∉ conn.pending := by
  intro hpending
  exact (List.nodup_append.1 h.nodup).2.2 id hid id hpending rfl

theorem lt_nextId {q : WireRequest Payload} (h : conn.Books) (hq : q ∈ conn.sent) :
    q.id < conn.nextId := by
  have hmem : q.id ∈ conn.sent.map WireRequest.id := List.mem_map_of_mem hq
  rw [h.numbered, List.mem_range'_1] at hmem
  rw [h.next]
  omega

/-- The books do not record what is on its way. -/
theorem congr {conn' : Connection Payload} (h : conn.Books) (hsent : conn'.sent = conn.sent)
    (hnext : conn'.nextId = conn.nextId) (hpending : conn'.pending = conn.pending)
    (hsettled : conn'.settled = conn.settled)
    (hphase : conn'.phase = conn.phase ∨ conn'.phase = .opened) : conn'.Books := by
  refine ⟨?_, ?_, ?_, ?_, ?_⟩
  · rw [hsent]
    exact h.numbered
  · rw [hsent, hnext]
    exact h.next
  · rw [hsent, hsettled, hpending]
    exact h.accounted
  · intro hclosed
    obtain hphase | hphase := hphase
    · rw [hpending]
      exact h.closed (hphase ▸ hclosed)
    · rw [hphase] at hclosed
      cases hclosed
  · intro hunborn
    obtain hphase | hphase := hphase
    · rw [hsent]
      exact h.unsent (hphase ▸ hunborn)
    · rw [hphase] at hunborn
      cases hunborn

theorem call {method : String} {params : Payload} (h : conn.Books) (hphase : conn.phase = .opened) :
    (conn.call method params).Books where
  numbered := by
    show (conn.sent ++ [_]).map WireRequest.id = List.range' 1 (conn.sent ++ [_]).length
    rw [List.map_append, h.numbered, List.length_append, List.length_singleton,
      List.range'_concat]
    simp [h.next, Nat.add_comm]
  next := by
    show conn.nextId + 1 = (conn.sent ++ [_]).length + 1
    rw [List.length_append, List.length_singleton, h.next]
  accounted := by
    show (conn.settled.map Prod.fst ++ (conn.pending ++ [conn.nextId])).Perm
      ((conn.sent ++ [_]).map WireRequest.id)
    rw [← List.append_assoc, List.map_append]
    exact h.accounted.append_right _
  closed hclosed := by
    have : conn.phase = .closed := hclosed
    rw [hphase] at this
    cases this
  unsent hunborn := by
    have : conn.phase = .unborn := hunborn
    rw [hphase] at this
    cases this

theorem settle {id : ℕ} {outcome : Except String Payload} (h : conn.Books) :
    (conn.settle id outcome).Books := by
  unfold Connection.settle
  split
  · rename_i hid
    refine ⟨h.numbered, h.next, ?_, ?_, h.unsent⟩
    · have herase : (id :: conn.pending.filter fun other => other != id).Perm conn.pending := by
        have := (List.perm_cons_erase hid).symm
        rwa [h.pending_nodup.erase_eq_filter] at this
      have hperm := (herase.append_left (conn.settled.map Prod.fst)).trans h.accounted
      simpa using hperm
    · intro hclosed
      have hnil : conn.pending = [] := h.closed hclosed
      simp [hnil]
  · exact h

theorem handleClose (h : conn.Books) : conn.handleClose.Books := by
  unfold Connection.handleClose
  split
  · exact h
  · refine ⟨h.numbered, h.next, ?_, fun _ => rfl, fun hunborn => nomatch hunborn⟩
    have hperm := h.accounted
    simpa [Function.comp_def] using hperm

end Books

/-! ## What the client side does to a connection -/

theorem sent_settle {id : ℕ} {outcome : Except String Payload} :
    (conn.settle id outcome).sent = conn.sent := by
  unfold settle
  split <;> rfl

theorem sent_handleClose : conn.handleClose.sent = conn.sent := by
  unfold handleClose
  split <;> rfl

theorem sent_receive : conn.receive.sent = conn.sent := by
  unfold receive
  split
  · rfl
  · exact sent_settle

theorem settled_settle {id : ℕ} {outcome : Except String Payload}
    {entry : ℕ × Except String Payload} (h : entry ∈ (conn.settle id outcome).settled) :
    entry ∈ conn.settled ∨ entry = (id, outcome) ∧ id ∈ conn.pending := by
  unfold settle at h
  split at h
  · rename_i hid
    obtain h | h := List.mem_append.1 h
    · exact .inl h
    · exact .inr ⟨List.mem_singleton.1 h, hid⟩
  · exact .inl h

theorem subset_settled_settle {id : ℕ} {outcome : Except String Payload} :
    conn.settled ⊆ (conn.settle id outcome).settled := by
  unfold settle
  split
  · exact List.subset_append_left _ _
  · exact fun _ h => h

theorem subset_settled_handleClose : conn.settled ⊆ conn.handleClose.settled := by
  unfold handleClose
  split
  · exact fun _ h => h
  · exact List.subset_append_left _ _

/-- A socket that closes rejects what is pending, and fulfils nothing. -/
theorem settled_handleClose {id : ℕ} {result : Payload}
    (h : (id, Except.ok result) ∈ conn.handleClose.settled) :
    (id, Except.ok result) ∈ conn.settled := by
  unfold handleClose at h
  split at h
  · exact h
  · obtain h | h := List.mem_append.1 h
    · exact h
    · simp at h

end Connection

/-! ## What is on the way -/

/-- The call that a handler works on. -/
def Handler.key (h : Handler Payload) : ℕ × ℕ := (h.connection, h.request.id)

/-- A handler has computed `outcome` for the call `id` of connection `c`. -/
def Answered (handlers : List (Handler Payload)) (c id : ℕ) (outcome : Except String Payload) :
    Prop :=
  ∃ h ∈ handlers, h.key = (c, id) ∧ h.outcome = some outcome

/-- What is on its way over a connection, and what it has settled, belongs to its calls. -/
structure OnWire (handlers : List (Handler Payload)) (c : ℕ) (conn : Connection Payload) :
    Prop where
  books : conn.Books
  requests_sent : conn.requests ⊆ conn.sent
  requests_once : (conn.requests.map WireRequest.id).Nodup
  requests_new : ∀ q ∈ conn.requests, (c, q.id) ∉ handlers.map Handler.key
  answers : ∀ a ∈ conn.answers,
    Answered handlers c a.id a.outcome ∨ a.id ∈ conn.settled.map Prod.fst
  fulfilled : ∀ id result, (id, .ok result) ∈ conn.settled → Answered handlers c id (.ok result)

namespace OnWire

variable {handlers : List (Handler Payload)} {c : ℕ} {conn : Connection Payload}

/-- A change that sends nothing, and settles calls with errors or with what was computed. -/
theorem settle {conn' : Connection Payload} (h : OnWire handlers c conn) (books : conn'.Books)
    (sent : conn'.sent = conn.sent) (requests : conn'.requests = conn.requests)
    (answers : conn'.answers ⊆ conn.answers) (settled : conn.settled ⊆ conn'.settled)
    (fulfilled : ∀ id result, (id, Except.ok result) ∈ conn'.settled →
      (id, Except.ok result) ∈ conn.settled ∨ Answered handlers c id (.ok result)) :
    OnWire handlers c conn' := by
  refine ⟨books, ?_, ?_, ?_, ?_, ?_⟩
  · rw [sent, requests]
    exact h.requests_sent
  · rw [requests]
    exact h.requests_once
  · rw [requests]
    exact h.requests_new
  · intro a ha
    obtain hanswered | hdone := h.answers a (answers ha)
    · exact .inl hanswered
    · exact .inr (List.map_subset Prod.fst settled hdone)
  · intro id result hmem
    obtain hold | hanswered := fulfilled id result hmem
    · exact h.fulfilled id result hold
    · exact hanswered

theorem handleClose (h : OnWire handlers c conn) : OnWire handlers c conn.handleClose := by
  refine h.settle h.books.handleClose Connection.sent_handleClose ?_ ?_
    Connection.subset_settled_handleClose fun id result hmem =>
      .inl (Connection.settled_handleClose hmem)
  · unfold Connection.handleClose
    split <;> rfl
  · unfold Connection.handleClose
    split <;> exact fun _ ha => ha

/-- The failure of a send rejects its call. -/
theorem sendFails {id : ℕ} {message : String} (h : OnWire handlers c conn) :
    OnWire handlers c (conn.settle id (.error message)) := by
  refine h.settle h.books.settle Connection.sent_settle ?_ ?_
    Connection.subset_settled_settle ?_
  · unfold Connection.settle
    split <;> rfl
  · unfold Connection.settle
    split <;> exact fun _ ha => ha
  · intro other result hmem
    obtain hold | ⟨heq, -⟩ := Connection.settled_settle hmem
    · exact .inl hold
    · cases heq

/-- An answer that arrives settles its call, or finds it settled. -/
theorem receive (h : OnWire handlers c conn) : OnWire handlers c conn.receive := by
  unfold Connection.receive
  split
  · exact h
  · rename_i answer answers hanswers
    have hbooks : ({ conn with answers := answers } : Connection Payload).Books :=
      h.books.congr rfl rfl rfl rfl (.inl rfl)
    refine h.settle hbooks.settle Connection.sent_settle ?_ ?_
      (fun _ hs => Connection.subset_settled_settle hs) ?_
    · unfold Connection.settle
      split <;> rfl
    · rw [hanswers]
      unfold Connection.settle
      split <;> exact List.subset_cons_self _ _
    · intro id result hmem
      obtain hold | ⟨heq, hpending⟩ := Connection.settled_settle hmem
      · exact .inl hold
      · obtain ⟨rfl, houtcome⟩ := Prod.mk.inj heq
        have hfrom := h.answers answer (by rw [hanswers]; exact List.mem_cons_self)
        obtain hanswered | hdone := hfrom
        · rw [← houtcome] at hanswered
          exact .inr hanswered
        · exact absurd hpending (h.books.not_pending hdone)

/-- A call takes a number that no handler has seen. -/
theorem call {method : String} {params : Payload} (h : OnWire handlers c conn)
    (hphase : conn.phase = .opened)
    (hhandlers : ∀ handler ∈ handlers, handler.connection = c → handler.request ∈ conn.sent) :
    OnWire handlers c (conn.call method params) := by
  refine ⟨h.books.call hphase, ?_, ?_, ?_, h.answers, h.fulfilled⟩
  · intro q hq
    obtain hq | hq := List.mem_append.1 hq
    · exact List.mem_append_left _ (h.requests_sent hq)
    · exact List.mem_append_right _ hq
  · show ((conn.requests ++ [_]).map WireRequest.id).Nodup
    rw [List.map_append, List.nodup_append]
    refine ⟨h.requests_once, by simp, ?_⟩
    intro id hid id' hid' heq
    obtain ⟨q, hq, rfl⟩ := List.mem_map.1 hid
    have hlt := h.books.lt_nextId (h.requests_sent hq)
    have hnext : id' = conn.nextId := by simpa using hid'
    omega
  · intro q hq
    obtain hq | hq := List.mem_append.1 hq
    · exact h.requests_new q hq
    · rw [List.mem_singleton.1 hq]
      intro hmem
      obtain ⟨handler, hhandler, hkey⟩ := List.mem_map.1 hmem
      obtain ⟨hc, hid⟩ := Prod.mk.inj hkey
      have hlt := h.books.lt_nextId (hhandlers handler hhandler hc)
      have : handler.request.id = conn.nextId := hid
      omega

/-- What was computed stays computed. -/
theorem mono {handlers' : List (Handler Payload)} (h : OnWire handlers c conn)
    (hnew : ∀ q ∈ conn.requests, (c, q.id) ∉ handlers'.map Handler.key)
    (hanswered : ∀ id outcome, Answered handlers c id outcome → Answered handlers' c id outcome) :
    OnWire handlers' c conn :=
  ⟨h.books, h.requests_sent, h.requests_once, hnew,
    fun a ha => (h.answers a ha).imp_left (hanswered _ _),
    fun id result hmem => hanswered _ _ (h.fulfilled id result hmem)⟩

end OnWire

end Orchestration.OperatorIpc
