import CoapNode.Message.Response
import CoapNode.Proofs.Transaction.Credit
import CoapNode.Proofs.Transaction.Deliveries

set_option autoImplicit false

/-! # Client and server agree on what answers what

A server answers the request that it reads from a packet, with the token of the request and, if the
request is confirmable, in its acknowledgement. If the pending transactions of the client can be
told apart by their tokens (`TransactionTable.TokensApart`), such a reply is awaited by the
transaction that the packet belongs to and by no other one (`awaits_reply_iff`). It completes that
transaction, whatever the server puts into it (`onResponse_reply`).
-/

namespace CoapNode

/-- **A reply to a request**: the response that a server begins with, whose code, options and
payload it has written. A reply that is no acknowledgement may have any message id. -/
structure Message.RepliesTo (request reply : Message) : Prop where
  kind : reply.kind = (Response.forRequest ⟨request⟩).message.kind
  token : reply.token = (Response.forRequest ⟨request⟩).message.token
  id : reply.kind = .ack → reply.id = (Response.forRequest ⟨request⟩).message.id
  code : reply.code.isEmpty = false

/-- A reply carries the token of the request, and its id if it is an acknowledgement. It is never a
reset. -/
theorem Message.RepliesTo.cases {request reply : Message} (h : request.RepliesTo reply) :
    reply.token = request.token
      ∧ (reply.kind = .ack ∧ reply.id = request.id ∨ reply.kind = .non) := by
  refine ⟨h.token, ?_⟩
  have hkind := h.kind
  have hid := h.id
  simp only [Response.forRequest, Message.blank] at hkind hid
  split at hkind
  · next hcon =>
      rw [if_pos hcon] at hid
      exact .inl ⟨hkind, hid hkind⟩
  · exact .inr hkind

namespace TransactionTable

variable {table table' : TransactionTable} {t : Transaction} {msg request reply : Message}
  {con : Con} {now : Millis} {capacity : Nat} {front back : List Transaction}

/-- **The pending transactions can be told apart by their tokens**, none of which is empty. -/
structure TokensApart (table : TransactionTable) : Prop where
  nonempty : ∀ t ∈ table.live, t.isPending = true →
    ∀ token, t.token? = some token → token.isEmpty = false
  unique : ∀ t ∈ table.live, ∀ u ∈ table.live, t.isPending = true → u.isPending = true →
    t.token? = u.token? → t = u

/-! ## Who awaits a reply -/

/-- **A reply is awaited by the transaction of the request only**, if what the server read is the
packet of that transaction. -/
theorem awaits_reply_iff (h : table.InOrder capacity) (htokens : table.TokensApart)
    (ht : t ∈ table.live) (hpending : t.isPending = true)
    (hparse : Message.parse t.packet = .ok request) (hreply : request.RepliesTo reply)
    {u : Transaction} (hu : u ∈ table.live) : u.awaits reply = true ↔ u = t := by
  obtain ⟨-, msg, hid, htoken, hpacket⟩ :=
    (h.consistent t ht).pending (Transaction.isPending_iff.1 hpending)
  rw [hpacket] at hparse
  obtain ⟨-, hreqId, hreqToken⟩ := Message.header_parse_encode hparse
  obtain ⟨hreplyToken, hkind⟩ := hreply.cases
  rw [hreqToken] at hreplyToken
  rw [hreqId, hid] at hkind
  constructor
  · intro hawaits
    have hupending := Transaction.isPending_of_awaits hawaits
    rcases Transaction.answeredBy_iff.1 (Transaction.answeredBy_of_awaits hawaits) with
      ⟨hacks, huid⟩ | ⟨-, hutoken⟩
    · -- an answer to the id is an acknowledgement, and carries the id of the request
      rcases hkind with ⟨-, hreplyId⟩ | hnon
      · have hsame : u.id = t.id := huid.symm.trans hreplyId
        have hget := h.wellFormed.distinct.get?_eq_some_iff.2 ⟨hu, hsame⟩
        have hget' := h.wellFormed.distinct.get?_eq_some_iff.2 ⟨ht, rfl⟩
        rw [hget] at hget'
        exact Option.some.inj hget'
      · rw [hnon] at hacks
        rcases hacks with hack | hreset
        · cases hack
        · cases hreset
    · -- an answer to the token is one to the token of the request, which no other one shares
      rw [hreplyToken, ← htoken] at hutoken
      exact htokens.unique u hu t ht hupending hpending hutoken
  · rintro rfl
    have hnonempty := htokens.nonempty u ht hpending msg.token htoken
    have hanswered : u.answeredBy reply = true := by
      rw [Transaction.answeredBy_iff, hreplyToken]
      exact .inr ⟨hnonempty, htoken⟩
    rw [Transaction.awaits, hpending, hanswered]
    rfl

/-! ## What a reply does -/

/-- A message with a code is always received, and ends the transaction. -/
theorem receive_of_code (hcode : msg.code.isEmpty = false) (hkind : msg.kind ≠ .reset)
    (t : Transaction) : (t.receive msg con now).value = .ok (t.complete (some ⟨msg⟩)) := by
  rw [Transaction.receive, if_neg hkind, if_neg (by simp [hcode])]
  rfl

/-- **A message that one transaction awaits** is credited to it, and changes no other one. -/
theorem onResponse_of_only {t' : Transaction} (hd : table.Distinct) (ht : t ∈ table.live)
    (honly : ∀ u ∈ table.live, u.awaits msg = true ↔ u = t)
    (hreceive : (t.receive msg con now).value = .ok t') :
    ∃ table', (table.onResponse msg con now).value = .ok (some t.id, table')
      ∧ ∀ k, table'.get? k = if k = t.id then some t' else table.get? k := by
  have hawaits : t.awaits msg = true := (honly t ht).2 rfl
  have hfind : table.slots.find? (·.awaits msg) = some t := by
    cases hfind : table.slots.find? (·.awaits msg) with
    | none =>
        have hnone := List.find?_eq_none.1 hfind t ht
        exact absurd hawaits hnone
    | some u =>
        have hu : u ∈ table.live := List.mem_of_find?_eq_some hfind
        have huawaits := List.find?_some hfind
        rw [(honly u hu).1 huawaits]
  have hanswer : ∃ table', (table.onResponse msg con now).value = .ok (some t.id, table') := by
    rw [onResponse, hfind]
    simp only [Traced.value_bind, hreceive]
    exact ⟨_, rfl⟩
  obtain ⟨table', hanswer⟩ := hanswer
  refine ⟨table', hanswer, fun k => ?_⟩
  rcases onResponse_cases hanswer with
    ⟨-, -, hnone⟩ | ⟨u, u', front, back, -, hu, hu', hlive, -, hlive'⟩
  · rw [hnone t ht] at hawaits
    cases hawaits
  · obtain rfl : u = t := (honly u (by simp [hlive])).1 hu
    rw [hreceive] at hu'
    obtain rfl := Except.ok.inj hu'
    have hid := Transaction.id_receive hreceive
    have hfront := (hd.cut hlive).1
    rw [get?_of_live hlive' (hid.symm ▸ hfront) k, get?_of_live hlive hfront k, hid]
    split <;> rfl

/-! ## Main result -/

/-- **A reply completes the transaction of the request.** Let the pending transactions of a table
that is reached from an empty one have different tokens, none of them empty. If a server reads the
packet of one of them and replies to what it has read, with any code but the empty one, any options
and payload and, unless the reply is an acknowledgement, any message id, then the reply is credited
to that transaction and completes it, and no other transaction changes. -/
theorem onResponse_reply {seed : UInt64} {ops : List Operation}
    (hrun : ((new capacity seed).run ops).value = .ok table) (htokens : table.TokensApart)
    (ht : t ∈ table.live) (hpending : t.isPending = true)
    (hparse : Message.parse t.packet = .ok request) (hreply : request.RepliesTo reply)
    (con : Con) (now : Millis) :
    ∃ token table', t.token? = some token
      ∧ (table.onResponse reply con now).value = .ok (some t.id, table')
      ∧ table'.get? t.id = some (t.complete (some ⟨reply⟩))
      ∧ ∀ k, k ≠ t.id → table'.get? k = table.get? k := by
  have hinOrder : table.InOrder capacity := (inOrder_new capacity seed).run hrun
  obtain ⟨-, msg, -, htoken, -⟩ :=
    (hinOrder.consistent t ht).pending (Transaction.isPending_iff.1 hpending)
  have hnotReset : reply.kind ≠ .reset := by
    intro hreset
    rcases hreply.cases.2 with ⟨hack, -⟩ | hnon
    · rw [hreset] at hack
      cases hack
    · rw [hreset] at hnon
      cases hnon
  have hreceive : (t.receive reply con now).value = .ok (t.complete (some ⟨reply⟩)) :=
    receive_of_code hreply.code hnotReset t
  have honly (u : Transaction) (hu : u ∈ table.live) : u.awaits reply = true ↔ u = t :=
    awaits_reply_iff hinOrder htokens ht hpending hparse hreply hu
  obtain ⟨table', hanswer, hget⟩ :=
    onResponse_of_only hinOrder.wellFormed.distinct ht honly hreceive
  refine ⟨msg.token, table', htoken, hanswer, ?_, ?_⟩
  · rw [hget, if_pos rfl]
  · intro k hk
    rw [hget, if_neg hk]

/-- A request that does not want to be acknowledged. -/
def sampleNon : Message := { sampleRequest 7 with kind := .non }

/-- Two requests to one peer. -/
def sampleTwo : List Operation :=
  [.allocate 1 samplePeer, .allocate 2 samplePeer, .send 2 (sampleRequest 9) sampleCon 0,
    .send 1 sampleNon sampleCon 0]

/-- The table after they have been sent. -/
def twoTable : TransactionTable :=
  match ((new 2 0).run sampleTwo).value with
  | .ok table => table
  | .error _ => new 2 0

/-- The one that does not want to be acknowledged, while its answer is awaited. -/
def sampleNonPending : Transaction :=
  (Transaction.new 1 samplePeer).sent sampleNon.token { sampleNon with id := 1 }.encode
    ⟨0, 100, .constant, 1, 3⟩

/-- A reply to it, with the message id of the other request. -/
def sampleReply : Message := { sampleResponse 2 7 with kind := .non, payload := [104, 105] }

theorem parse_sampleNon :
    Message.parse { sampleNon with id := 1 }.encode = .ok { sampleNon with id := 1 } := by
  have hencode : { sampleNon with id := 1 }.encode = [0x51, 1, 0, 1, 7] := rfl
  have hoptions : Options.ofList [] = .empty := by simp [Options.ofList, Options.empty]
  rw [hencode]
  simp [Message.parse, afterOptions, Options.decode, readFields, readField?, numberFields, hoptions]
  exact ⟨rfl, rfl, rfl, rfl, rfl, rfl⟩

theorem onResponse_sampleReply :
    ((new 2 0).run sampleTwo).value = .ok twoTable ∧ twoTable.TokensApart
      ∧ sampleNonPending ∈ twoTable.live ∧ sampleNonPending.isPending = true
      ∧ Message.parse sampleNonPending.packet = .ok { sampleNon with id := 1 }
      ∧ Message.RepliesTo { sampleNon with id := 1 } sampleReply
      ∧ (twoTable.get? sampleReply.id).isSome = true
      ∧ ∃ token table', sampleNonPending.token? = some token
        ∧ (twoTable.onResponse sampleReply sampleCon 10).value = .ok (some 1, table')
        ∧ table'.get? 1 = some (sampleNonPending.complete (some ⟨sampleReply⟩))
        ∧ ∀ k, k ≠ 1 → table'.get? k = twoTable.get? k := by
  have hrun : ((new 2 0).run sampleTwo).value = .ok twoTable := rfl
  have htokens : twoTable.TokensApart := by
    constructor
    · decide +kernel
    · decide +kernel
  have hmem : sampleNonPending ∈ twoTable.live := by decide +kernel
  have hreply : Message.RepliesTo { sampleNon with id := 1 } sampleReply :=
    ⟨rfl, rfl, nofun, rfl⟩
  exact ⟨hrun, htokens, hmem, rfl, parse_sampleNon, hreply, rfl,
    onResponse_reply hrun htokens hmem rfl parse_sampleNon hreply sampleCon 10⟩

end TransactionTable

end CoapNode
