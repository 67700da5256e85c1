import CoapNode.Proofs.Transaction.Consistency

set_option autoImplicit false

/-! # Where an outcome comes from, and what becomes of it

A transaction that is over with a response has it from a message that came in after the request
was sent last and that answers to the id or to the token of that request. Until the outcome is
taken, or the transaction is cancelled or sent again, nothing changes the transaction; taking
yields the response once.

The first part is an invariant that ties a transaction to the operations so far
(`Transaction.Explained`), kept by every operation (`Evolves.explained`). The second part is kept by
every operation that does not touch the transaction (`Evolves.eq_of_isOver`).
-/

namespace CoapNode

namespace TransactionTable

/-! ## The operations so far -/

/-- **The last request that was sent with an id**, and what has been done since. -/
def LastSent (past : List Operation) (k : MessageId) (msg : Message) (since : List Operation) :
    Prop :=
  (∃ before con now, past = before ++ .send k msg con now :: since)
    ∧ ∀ op ∈ since, op.sends k = false

/-- **A response that answers a request**: it came in since the request was sent, it is neither a
reset nor an acknowledgement without a code, and it acknowledges the id of the request or carries
its token. -/
structure Answers (k : MessageId) (msg : Message) (since : List Operation) (resp : Response) :
    Prop where
  received : ∃ con now, Operation.receive resp.message con now ∈ since
  not_reset : resp.message.kind ≠ .reset
  not_emptyAck : ¬(resp.message.kind = .ack ∧ resp.message.code.isEmpty = true)
  matched : resp.message.kind = .ack ∧ resp.message.id = k
    ∨ resp.message.token.isEmpty = false ∧ resp.message.token = msg.token

/-- Can the operation end what holds of the outcome of the transaction with an id? -/
def Operation.touches (k : MessageId) : Operation → Bool
  | .send id _ _ _ => id == k
  | .take id => id == k
  | .cancel id => id == k
  | _ => false

variable {past since : List Operation} {op : Operation} {k : MessageId} {msg : Message}
  {resp : Response}

theorem LastSent.concat (h : LastSent past k msg since) (hop : op.sends k = false) :
    LastSent (past ++ [op]) k msg (since ++ [op]) := by
  obtain ⟨⟨before, con, now, rfl⟩, hsince⟩ := h
  refine ⟨⟨before, con, now, by simp⟩, fun op' hop' => ?_⟩
  rcases List.mem_append.1 hop' with hop' | hop'
  · exact hsince op' hop'
  · rw [List.mem_singleton.1 hop']
    exact hop

theorem lastSent_send (past : List Operation) (k : MessageId) (msg : Message) (con : Con)
    (now : Millis) : LastSent (past ++ [.send k msg con now]) k msg [] :=
  ⟨⟨past, con, now, rfl⟩, nofun⟩

theorem Answers.concat (h : Answers k msg since resp) (op : Operation) :
    Answers k msg (since ++ [op]) resp := by
  obtain ⟨con, now, hmem⟩ := h.received
  exact ⟨⟨con, now, List.mem_append_left _ hmem⟩, h.not_reset, h.not_emptyAck, h.matched⟩

end TransactionTable

open TransactionTable

/-! ## The invariant -/

/-- The response that a transaction is over with, if there is one. -/
def Transaction.response? (t : Transaction) : Option Response :=
  match t.status with
  | .complete outcome => outcome
  | _ => none

/-- **What a transaction holds is explained by the operations so far.** If it has been sent, its token
is the one of the request that was sent last, and its response answers that request. -/
def Transaction.Explained (past : List Operation) (t : Transaction) : Prop :=
  t.status ≠ .fresh → ∃ msg since, LastSent past t.id msg since ∧ t.token? = some msg.token
    ∧ ∀ resp, t.response? = some resp → Answers t.id msg since resp

namespace Transaction

variable {past : List Operation} {op : Operation} {t t' : Transaction}

theorem explained_new (past : List Operation) (id : MessageId) (peer : Endpoint) :
    (new id peer).Explained past := by
  intro hsent
  exact absurd rfl hsent

theorem status_ne_fresh (h : t.isPending = true) : t.status ≠ .fresh := by
  rw [isPending_iff.1 h]
  nofun

theorem Explained.concat (h : t.Explained past) (hop : op.sends t.id = false) :
    t.Explained (past ++ [op]) := by
  intro hfresh
  obtain ⟨msg, since, hsent, hmsg, hresp⟩ := h hfresh
  exact ⟨msg, since ++ [op], hsent.concat hop, hmsg, fun resp hr => (hresp resp hr).concat op⟩

/-- A pending transaction may also be in another state without a response. -/
theorem Explained.congr (h : t.Explained past) (hpending : t.isPending = true)
    (hid : t'.id = t.id) (htoken : t'.token? = t.token?) (hresp : t'.response? = none) :
    t'.Explained past := by
  intro _
  obtain ⟨msg, since, hsent, hmsg, -⟩ := h (status_ne_fresh hpending)
  refine ⟨msg, since, hid.symm ▸ hsent, htoken.trans hmsg, fun resp hr => ?_⟩
  rw [hresp] at hr
  cases hr

theorem response?_of_isPending (h : t.isPending = true) : t.response? = none := by
  rw [response?, isPending_iff.1 h]

/-- **A message that is received explains the response it becomes.** -/
theorem Explained.receive {msg : Message} {con : Con} {now : Millis} (h : t.Explained past)
    (hawaits : t.awaits msg = true) (ht' : (t.receive msg con now).value = .ok t') :
    t'.Explained (past ++ [.receive msg con now]) := by
  have hpending := isPending_of_awaits hawaits
  have hold : t.Explained (past ++ [.receive msg con now]) := h.concat rfl
  rcases receive_cases ht' with ⟨-, rfl⟩ | ⟨-, -, timer, -, rfl⟩ | ⟨hreset, hempty, rfl⟩
  · exact hold.congr hpending rfl rfl rfl
  · exact hold.congr hpending rfl rfl (response?_of_isPending hpending)
  · -- the message answers to the id or to the token, and to the id not as a reset
    intro _
    obtain ⟨request, since, hsent, htoken, -⟩ := h (status_ne_fresh hpending)
    refine ⟨request, since ++ [.receive msg con now], hsent.concat rfl, htoken, ?_⟩
    rintro resp ⟨⟩
    refine ⟨⟨con, now, by simp⟩, hreset, hempty, ?_⟩
    rcases answeredBy_iff.1 (answeredBy_of_awaits hawaits) with ⟨hkind, hid⟩ | ⟨hne, heq⟩
    · exact .inl ⟨hkind.resolve_right hreset, hid⟩
    · rw [htoken] at heq
      exact .inr ⟨hne, (Option.some.inj heq).symm⟩

/-- **The passing of time explains nothing new.** -/
theorem Explained.poll {now : Millis} (h : t.Explained past) :
    (t.poll now).value.Explained (past ++ [.poll now]) := by
  have hold : t.Explained (past ++ [.poll now]) := h.concat rfl
  rcases poll_cases now t with hsame | ⟨hpending, ⟨timer, hmoved⟩ | hover⟩
  · rw [hsame]
    exact hold
  · rw [hmoved]
    exact hold.congr hpending rfl rfl (response?_of_isPending hpending)
  · rw [hover]
    exact hold.congr hpending rfl rfl rfl

end Transaction

namespace TransactionTable

variable {table table' : TransactionTable} {past ops : List Operation} {op : Operation}
  {k : MessageId} {o o' : Option Transaction}

/-- **One operation** leaves the transaction with an id explained. -/
theorem Evolves.explained (h : Evolves k op o o')
    (ho : ∀ t ∈ o, t.id = k ∧ t.Explained past) :
    ∀ t ∈ o', t.id = k ∧ t.Explained (past ++ [op]) := by
  -- an operation that sends nothing with the id leaves the explanation in place
  have hkeep (hop : op.sends k = false) : ∀ t ∈ o, t.id = k ∧ t.Explained (past ++ [op]) := by
    intro t ht
    obtain ⟨rfl, hexplained⟩ := ho t ht
    exact ⟨rfl, hexplained.concat hop⟩
  cases h with
  | nextId | nextToken | refused | passedOver | inFlight => exact hkeep rfl
  | unknown | taken | cancelled => rintro t ⟨⟩
  | elsewhere o hid hne =>
      refine hkeep ?_
      cases op with
      | send id => exact beq_eq_false_iff_ne.2 (Option.some.inj hid ▸ hne)
      | _ => rfl
  | entered peer =>
      rintro t ⟨⟩
      exact ⟨rfl, Transaction.explained_new _ k peer⟩
  | sent msg t htimer =>
      obtain ⟨rfl, -⟩ := ho t rfl
      rintro u ⟨⟩
      exact ⟨rfl, fun _ => ⟨msg, [], lastSent_send past t.id msg _ _, rfl, nofun⟩⟩
  | @received msg con now t t' hawaits ht' =>
      obtain ⟨hid, hexplained⟩ := ho t rfl
      rintro u ⟨⟩
      exact ⟨(Transaction.id_receive ht').trans hid, hexplained.receive hawaits ht'⟩
  | polled now =>
      intro t' ht'
      obtain ⟨t, ht, rfl⟩ := Option.map_eq_some_iff.1 ht'
      obtain ⟨hid, hexplained⟩ := ho t ht
      exact ⟨(Transaction.id_poll now t).trans hid, hexplained.poll⟩

/-! ## What is over stays as it is -/

/-- **A transaction that is over is changed by nothing** but an operation that touches it. -/
theorem Evolves.eq_of_isOver {t : Transaction} (h : Evolves k op o o') (ho : o = some t)
    (hover : t.isOver = true) (hop : op.touches k = false) : o' = some t := by
  cases h with
  | nextId | nextToken | elsewhere | refused | passedOver => exact ho
  | entered | unknown => cases ho
  | sent | inFlight | taken | cancelled => simp [Operation.touches] at hop
  | received hawaits =>
      obtain rfl := Option.some.inj ho
      have hpending := Transaction.isPending_of_awaits hawaits
      rw [Transaction.not_isPending_of_isOver hover] at hpending
      cases hpending
  | polled now =>
      subst ho
      rcases Transaction.poll_cases now t with hsame | ⟨hpending, -⟩
      · rw [Option.map_some, hsame]
      · rw [Transaction.not_isPending_of_isOver hover] at hpending
        cases hpending

/-- An id that is not in use stays so until a transaction is entered with it. -/
theorem Evolves.eq_none (h : Evolves k op none o') (hop : ∀ peer, op ≠ .allocate k peer) :
    o' = none := by
  cases h with
  | entered peer => exact absurd rfl (hop peer)
  | _ => rfl

theorem Distinct.get?_of_isOver {t : Transaction} (hd : table.Distinct)
    (hget : table.get? k = some t) (hover : t.isOver = true)
    (hops : ∀ op ∈ ops, op.touches k = false) (hrun : (table.run ops).value = .ok table') :
    table'.get? k = some t :=
  run_evolves (Q := fun _ o => o = some t)
    (fun _ _ _ _ hop h ho => h.eq_of_isOver ho hover (hops _ hop)) hd [] hget hrun

theorem Distinct.get?_of_unused (hd : table.Distinct) (hget : table.get? k = none)
    (hops : ∀ op ∈ ops, ∀ peer, op ≠ .allocate k peer)
    (hrun : (table.run ops).value = .ok table') : table'.get? k = none :=
  run_evolves (Q := fun _ o => o = none)
    (fun _ _ _ _ hop h ho => Evolves.eq_none (ho ▸ h) (hops _ hop)) hd [] hget hrun

/-! ## Main result -/

/-- **A response is the answer to the request, it stays, and it is taken once.** Let a transaction
be over with a response after a run that began with an empty table. The response answers the
request that was sent last with its id. Whatever is done next, the transaction stays as it is until
its outcome is taken, or it is cancelled or sent again; taking it then yields the response, and from
then on nothing, until a transaction is entered with the same id. -/
theorem response_settled {capacity : Nat} {seed : UInt64} {ops : List Operation}
    {table : TransactionTable} {t : Transaction} {resp : Response}
    (hrun : ((new capacity seed).run ops).value = .ok table) (ht : t ∈ table.live)
    (hresp : t.response? = some resp) :
    (∃ request since, LastSent ops t.id request since ∧ Answers t.id request since resp)
      ∧ ∀ later table', (∀ op ∈ later, op.touches t.id = false) →
        (table.run later).value = .ok table' →
          table'.get? t.id = some t ∧ (table'.take t.id).1 = .done (some resp)
          ∧ ∀ rest table'', (∀ op ∈ rest, ∀ peer, op ≠ .allocate t.id peer) →
            ((table'.take t.id).2.run rest).value = .ok table'' →
              (table''.take t.id).1 = .done none := by
  have hnew : (new capacity seed).Distinct := (wellFormed_new capacity seed).distinct
  have hd := hnew.run hrun
  have hget : table.get? t.id = some t := hd.get?_eq_some_iff.2 ⟨ht, rfl⟩
  -- only a transaction that is over holds a response
  have hstatus : t.status = .complete (some resp) := by
    cases hstatus : t.status with
    | complete outcome =>
        rw [Transaction.response?, hstatus] at hresp
        exact congrArg Status.complete hresp
    | fresh | pending =>
        rw [Transaction.response?, hstatus] at hresp
        cases hresp
  have hover : t.isOver = true := Transaction.isOver_iff.2 ⟨some resp, hstatus⟩
  constructor
  · obtain ⟨-, hexplained⟩ := run_evolves
      (Q := fun past o => ∀ u ∈ o, u.id = t.id ∧ u.Explained past)
      (fun _ _ _ _ _ h ho => h.explained ho) hnew [] (by simp) hrun t hget
    obtain ⟨request, since, hsent, -, hanswers⟩ := hexplained (by rw [hstatus]; nofun)
    exact ⟨request, since, hsent, hanswers resp hresp⟩
  · intro later table' hlater hrun'
    have hd' := hd.run hrun'
    have hget' := hd.get?_of_isOver hget hover hlater hrun'
    refine ⟨hget', (live_take hget' hstatus).1, fun rest table'' hrest hrun'' => ?_⟩
    have hstep : (table'.step (.take t.id)).value = .ok (table'.take t.id).2 := rfl
    have hgone : (table'.take t.id).2.get? t.id = none := by
      rw [get?_take hd' hget' hstatus, if_pos rfl]
    rw [take_of_none ((hd'.step hstep).get?_of_unused hgone hrest hrun'')]

/-- A response that is sent by itself, with an id of its own. -/
def sampleSeparate : Message := { sampleResponse 77 7 with kind := .con }

/-- A run in which a request is acknowledged first, and answered by its token later. -/
def sampleAnswered : List Operation :=
  [.allocate 1 samplePeer, .allocate 2 samplePeer, .send 1 (sampleRequest 7) sampleCon 0,
    .send 2 (sampleRequest 9) sampleCon 0, .receive (Message.blank .ack 1) sampleCon 30, .poll 150,
    .receive sampleSeparate sampleCon 160]

/-- The table after that run. -/
def sampleTable : TransactionTable :=
  match ((new 2 0).run sampleAnswered).value with
  | .ok table => table
  | .error _ => new 2 0

/-- The transaction that was answered in that run. -/
def sampleSettled : Transaction :=
  ⟨1, some (sampleRequest 7).token, samplePeer, [], none, true, .complete (some ⟨sampleSeparate⟩)⟩

theorem settled_sampleAnswered :
    ((new 2 0).run sampleAnswered).value = .ok sampleTable
      ∧ sampleSettled ∈ sampleTable.live ∧ sampleSettled.response? = some ⟨sampleSeparate⟩
      ∧ (∃ request since, LastSent sampleAnswered 1 request since
          ∧ Answers 1 request since ⟨sampleSeparate⟩)
      ∧ ∀ later table', (∀ op ∈ later, op.touches 1 = false) →
        (sampleTable.run later).value = .ok table' →
          table'.get? 1 = some sampleSettled ∧ (table'.take 1).1 = .done (some ⟨sampleSeparate⟩)
          ∧ ∀ rest table'', (∀ op ∈ rest, ∀ peer, op ≠ .allocate 1 peer) →
            ((table'.take 1).2.run rest).value = .ok table'' → (table''.take 1).1 = .done none :=
  have hrun : ((new 2 0).run sampleAnswered).value = .ok sampleTable := rfl
  have hlive : sampleSettled ∈ sampleTable.live := by decide +kernel
  ⟨hrun, hlive, rfl, response_settled hrun hlive rfl⟩

end TransactionTable

end CoapNode
