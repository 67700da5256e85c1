import CoapNode.Proofs.Transaction.Consistency

set_option autoImplicit false

/-! # Which transaction a message is credited to

A message may answer to several pending transactions: to one by its id, and to others by its token,
for requests may share a token. It is credited to the first of them in the order of the places. So
an acknowledgement or a reset reaches the transaction with its id exactly if no pending transaction
in an earlier place has its token (`credited_to_id_iff`).
-/

namespace CoapNode.TransactionTable

variable {table table' : TransactionTable} {front back : List Transaction} {b t : Transaction}
  {msg : Message} {con : Con} {now : Millis}

/-- **The credit of a message that is awaited.** If a pending transaction awaits a message, the
message is credited to it, or to one in an earlier place that awaits it as well; no other one
changes. -/
theorem onResponse_of_awaits (hd : table.Distinct) (hlive : table.live = front ++ b :: back)
    (hb : b.awaits msg = true) (hcon : con.acked.Valid) (now : Millis) :
    ∃ t t' table', (table.onResponse msg con now).value = .ok (some t.id, table')
      ∧ (t ∈ front ∨ t = b ∧ ∀ u ∈ front, u.awaits msg = false) ∧ t.awaits msg = true
      ∧ (t.receive msg con now).value = .ok t'
      ∧ ∀ k, table'.get? k = if k = t.id then some t' else table.get? k := by
  obtain ⟨⟨answer, table'⟩, hanswer⟩ := exists_onResponse hcon table msg now
  rcases onResponse_cases hanswer with
    ⟨-, -, hnone⟩ | ⟨t, t', before, after, rfl, hawaits, ht', hcut, hfirst, hlive'⟩
  · have hmem : b ∈ table.live := by simp [hlive]
    rw [hnone b hmem] at hb
    cases hb
  · refine ⟨t, t', table', hanswer, ?_, hawaits, ht', fun k => ?_⟩
    · -- what is found first is found in front, or it is the one that is known to await the message
      have hfind : table.live.find? (·.awaits msg) = some t :=
        List.find?_eq_some_iff_append.2 ⟨hawaits, before, after, hcut, by simpa using hfirst⟩
      rw [hlive, List.find?_append, List.find?_cons, hb] at hfind
      cases hfront : front.find? (·.awaits msg) with
      | some u =>
          rw [hfront] at hfind
          exact .inl (List.mem_of_find?_eq_some (hfront.trans hfind))
      | none =>
          rw [hfront] at hfind
          exact .inr ⟨(Option.some.inj hfind).symm, by simpa using hfront⟩
    · have hid := Transaction.id_receive ht'
      have hbefore := (hd.cut hcut).1
      rw [get?_of_live hlive' (hid.symm ▸ hbefore) k, get?_of_live hcut hbefore k, hid]
      split <;> rfl

/-- **A message that transactions with one id await only** is credited to the first of them. -/
theorem get?_onResponse_of_awaits {k : MessageId} {answer : Option MessageId}
    (ht : table.get? k = some t) (hawaits : t.awaits msg = true)
    (honly : ∀ u ∈ table.live, u.awaits msg = true → u.id = k)
    (h : (table.onResponse msg con now).value = .ok (answer, table')) :
    answer = some k
      ∧ ∃ t', (t.receive msg con now).value = .ok t' ∧ table'.get? k = some t' := by
  rcases onResponse_cases h with
    ⟨-, -, hnone⟩ | ⟨u, t', before, after, rfl, hu, ht', hcut, hfirst, hlive'⟩
  · rw [hnone t (mem_live_of_get? ht).1] at hawaits
    cases hawaits
  · have huid : u.id = k := honly u (by simp [hcut]) hu
    have hid := (Transaction.id_receive ht').trans huid
    -- nothing before it has its id, for that would be found instead and is not awaited
    have hbefore : before.find? (·.id == k) = none := by
      cases hfind : before.find? (·.id == k) with
      | none => rfl
      | some v =>
          rw [get?_eq_find?, hcut, List.find?_append, hfind] at ht
          obtain rfl : v = t := Option.some.inj ht
          rw [hfirst v (List.mem_of_find?_eq_some hfind)] at hawaits
          cases hawaits
    rw [get?_eq_find?, hcut, List.find?_append, hbefore, List.find?_cons, huid,
      beq_self_eq_true] at ht
    obtain rfl : u = t := Option.some.inj ht
    refine ⟨congrArg some huid, t', ht', ?_⟩
    rw [get?_eq_find?, hlive', List.find?_append, hbefore, List.find?_cons, hid, beq_self_eq_true]
    rfl

/-- A message that only one transaction awaits is credited to it. -/
theorem onResponse_of_awaits_only {k : MessageId} (ht : table.get? k = some t)
    (hawaits : t.awaits msg = true) (honly : ∀ u ∈ table.live, u.awaits msg = true → u = t)
    (hcon : con.acked.Valid) (now : Millis) :
    ∃ t' table', (table.onResponse msg con now).value = .ok (some k, table')
      ∧ (t.receive msg con now).value = .ok t' ∧ table'.get? k = some t' := by
  obtain ⟨⟨answer, table'⟩, hanswer⟩ := exists_onResponse hcon table msg now
  obtain ⟨rfl, t', ht', hget⟩ := get?_onResponse_of_awaits ht hawaits
    (fun u hu hmsg => honly u hu hmsg ▸ (mem_live_of_get? ht).2) hanswer
  exact ⟨t', table', hanswer, ht', hget⟩

/-- A pending transaction with another id awaits an acknowledgement for its token only. -/
theorem awaits_iff_of_id_ne {u : Transaction} (hid : u.id ≠ msg.id) :
    u.awaits msg = true
      ↔ u.isPending = true ∧ msg.token.isEmpty = false ∧ u.token? = some msg.token := by
  rw [Transaction.awaits, Bool.and_eq_true, Transaction.answeredBy_iff]
  simp [Ne.symm hid]

/-! ## Main result -/

/-- **When an acknowledgement or a reset reaches the transaction with its id.** Let a pending
transaction have the id of such a message. The message is credited to a pending transaction that it
answers, in that place or in an earlier one, and changes no other transaction. It is the one with
the id of the message exactly if no pending transaction in an earlier place was sent with the token
of the message, or that token is empty. -/
theorem credited_to_id_iff (hd : table.Distinct) (hlive : table.live = front ++ b :: back)
    (hpending : b.isPending = true) (hkind : msg.kind = .ack ∨ msg.kind = .reset)
    (hid : msg.id = b.id) (hcon : con.acked.Valid) (now : Millis) :
    ∃ t t' table', (table.onResponse msg con now).value = .ok (some t.id, table')
      ∧ t ∈ front ++ [b] ∧ t.awaits msg = true ∧ (t.receive msg con now).value = .ok t'
      ∧ (∀ k, table'.get? k = if k = t.id then some t' else table.get? k)
      ∧ (t.id = b.id
        ↔ ∀ u ∈ front, u.isPending = true →
            msg.token.isEmpty = true ∨ u.token? ≠ some msg.token) := by
  have hb : b.awaits msg = true :=
    (Bool.and_eq_true _ _).mpr ⟨hpending, Transaction.answeredBy_iff.2 (.inl ⟨hkind, hid⟩)⟩
  obtain ⟨t, t', table', hanswer, hplace, hawaits, ht', hget⟩ :=
    onResponse_of_awaits hd hlive hb hcon now
  -- in front of `b` nothing has its id, so a message is awaited there for its token
  have hids := (hd.cut hlive).1
  refine ⟨t, t', table', hanswer, ?_, hawaits, ht', hget, ?_⟩
  · rcases hplace with hfront | ⟨rfl, -⟩
    · exact List.mem_append_left _ hfront
    · simp
  · rcases hplace with hfront | ⟨rfl, hnone⟩
    · refine iff_of_false (hids t hfront) fun hall => ?_
      obtain ⟨hpend, htoken, heq⟩ :=
        (awaits_iff_of_id_ne (hid ▸ hids t hfront)).1 hawaits
      rcases hall t hfront hpend with hempty | hne
      · rw [hempty] at htoken
        cases htoken
      · exact hne heq
    · refine iff_of_true rfl fun u hu hpend => ?_
      by_contra hcarries
      rw [not_or, Bool.not_eq_true, not_not] at hcarries
      have hawaits' := (awaits_iff_of_id_ne (hid ▸ hids u hu)).2 ⟨hpend, hcarries⟩
      rw [hnone u hu] at hawaits'
      cases hawaits'

/-- Two requests to different peers with the same token. -/
def sampleShared : List Operation :=
  [.allocate 1 samplePeer, .allocate 2 { samplePeer with port := 61616 },
    .send 1 (sampleRequest 7) sampleCon 0, .send 2 (sampleRequest 7) sampleCon 0]

/-- The table after they have been sent. -/
def sharedTable : TransactionTable :=
  match ((new 2 0).run sampleShared).value with
  | .ok table => table
  | .error _ => new 2 0

/-- One of the two requests, while its answer is awaited. -/
def sharedPending (id : MessageId) (peer : Endpoint) : Transaction :=
  (Transaction.new id peer).sent (sampleRequest 7).token { sampleRequest 7 with id := id }.encode
    ⟨0, 100, .constant, 1, 3⟩

/-- The response that acknowledges the second request completes the first one. -/
theorem miscredited_shared :
    ((new 2 0).run sampleShared).value = .ok sharedTable
      ∧ sharedTable.get? 2 = some (sharedPending 2 { samplePeer with port := 61616 })
      ∧ (sampleResponse 2 7).kind = .ack ∧ (sampleResponse 2 7).id = 2
      ∧ ∃ table', (sharedTable.onResponse (sampleResponse 2 7) sampleCon 10).value
          = .ok (some 1, table')
        ∧ table'.get? 2 = sharedTable.get? 2
        ∧ (table'.get? 1).map (·.status) = some (.complete (some ⟨sampleResponse 2 7⟩)) :=
  ⟨rfl, rfl, rfl, rfl, _, rfl, rfl, rfl⟩

theorem credited_shared :
    sharedTable.Distinct
      ∧ sharedTable.live
        = [sharedPending 1 samplePeer] ++ sharedPending 2 { samplePeer with port := 61616 } :: []
      ∧ ∃ t t' table', (sharedTable.onResponse (sampleResponse 2 7) sampleCon 10).value
          = .ok (some t.id, table')
        ∧ t ∈ [sharedPending 1 samplePeer] ++ [sharedPending 2 { samplePeer with port := 61616 }]
        ∧ t.awaits (sampleResponse 2 7) = true
        ∧ (t.receive (sampleResponse 2 7) sampleCon 10).value = .ok t'
        ∧ (∀ k, table'.get? k = if k = t.id then some t' else sharedTable.get? k)
        ∧ (t.id = 2 ↔ ∀ u ∈ [sharedPending 1 samplePeer], u.isPending = true →
            (sampleResponse 2 7).token.isEmpty = true
              ∨ u.token? ≠ some (sampleResponse 2 7).token) :=
  have hd : sharedTable.Distinct := by decide +kernel
  ⟨hd, rfl, credited_to_id_iff hd rfl rfl (.inl rfl) rfl (by decide) 10⟩

end CoapNode.TransactionTable
