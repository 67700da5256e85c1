import CoapNode.Proofs.Node.Service
import Mathlib.Logic.Function.Basic

set_option autoImplicit false

/-! # Nodes fall silent

What nodes deliver to each other sets off other deliveries: a request sets off a response, and a
response may be acknowledged or refused. Each of these is of lower rank than what it answers
(`rank`), if handlers and observers set no codes that are sent as those of requests
(`Registry.Responds`). So however nodes are joined, no more than three deliveries come of each
datagram that is underway (`Net.deliveries_le`).
-/

namespace CoapNode

/-! ## Ranks -/

/-- How much a message can set off. Requests come first; responses and pings are next, and
acknowledgements and resets without a code set off nothing. -/
def Message.rank (msg : Message) : Nat :=
  if msg.isRequest then 2 else if msg.code.isEmpty && msg.kind != .con then 0 else 1

/-- **The rank of a datagram**, which is the one of its message. What is no message sets off
nothing. -/
def rank (bytes : Bytes) : Nat :=
  match Message.parse bytes with
  | .error _ => 0
  | .ok msg => msg.rank

/-- The rank that the first two bytes of a datagram announce, whether or not it is a message. What
is no message may become one when it is cut, so `rank` can grow on the way; this one cannot. -/
def announcedRank : Bytes → Nat
  | first :: code :: _ =>
    { Message.blank (.ofBits (first / 16 % 4)) 0 with code := .ofByte code : Message }.rank
  | _ => 0

/-- The rank is a matter of kind and code. -/
theorem Message.rank_congr {msg msg' : Message} (hkind : msg.kind = msg'.kind)
    (hcode : msg.code = msg'.code) : msg.rank = msg'.rank := by
  rw [rank, rank, isRequest, isRequest, hkind, hcode]

theorem Message.rank_le_one {msg : Message} (h : msg.isRequest = false) : msg.rank ≤ 1 := by
  rw [rank, h, if_neg Bool.false_ne_true]
  split <;> omega

theorem Message.rank_le_two (msg : Message) : msg.rank ≤ 2 := by
  cases h : msg.isRequest with
  | true => exact Nat.le_of_eq (if_pos h)
  | false => exact Nat.le_succ_of_le (rank_le_one h)

theorem announcedRank_le_two (bytes : Bytes) : announcedRank bytes ≤ 2 := by
  rw [announcedRank.eq_def]
  split
  · exact Message.rank_le_two _
  · exact Nat.zero_le 2

theorem rank_le_announcedRank (bytes : Bytes) : rank bytes ≤ announcedRank bytes := by
  rw [rank]
  cases hparse : Message.parse bytes with
  | error e => exact Nat.zero_le _
  | ok msg =>
      obtain ⟨first, code, high, low, rest, rfl⟩ := Message.exists_header_of_parse hparse
      obtain ⟨hkind, hcode, -, -⟩ := Message.parse_header hparse
      exact Nat.le_of_eq (Message.rank_congr hkind hcode)

/-- What is cut off announces no more. -/
theorem announcedRank_take_le (bytes : Bytes) (size : Nat) :
    announcedRank (bytes.take size) ≤ announcedRank bytes := by
  match bytes, size with
  | _, 0 => exact Nat.zero_le _
  | [], size + 1 => exact Nat.le_refl _
  | [_], size + 1 => exact Nat.le_of_eq (by rw [List.take_succ_cons, List.take_nil])
  | _ :: _ :: _, 1 => exact Nat.zero_le _
  | first :: code :: rest, size + 2 => exact Nat.le_refl _

/-- A code is sent with the last three bits of its class. -/
theorem Code.cls_ofByte_toByte (code : Code) : (Code.ofByte code.toByte).cls = code.cls % 8 := by
  apply UInt8.toNat_inj.1
  simp only [ofByte, toByte, UInt8.toNat_div, UInt8.toNat_add, UInt8.toNat_mul, UInt8.toNat_mod,
    UInt8.reduceToNat]
  have hcls := code.cls.toNat_lt
  omega

theorem announcedRank_encode (msg : Message) :
    announcedRank msg.encode = { msg with code := .ofByte msg.code.toByte : Message }.rank := by
  rw [Message.encode_eq_header, announcedRank]
  exact Message.rank_congr (Message.kind_firstByte msg) rfl

/-- A message whose code is not sent as that of a request announces no request. -/
theorem announcedRank_encode_le_one {msg : Message} (h : msg.code.cls % 8 ≠ 0) :
    announcedRank msg.encode ≤ 1 := by
  have hrequest : ({ msg with code := .ofByte msg.code.toByte : Message }).isRequest = false := by
    rw [Message.isRequest, Code.cls_ofByte_toByte]
    simp [h]
  rw [announcedRank_encode]
  exact Message.rank_le_one hrequest

/-- Acknowledgements and resets without a code announce nothing. -/
theorem announcedRank_encode_blank {kind : Kind} (h : kind ≠ .con) (id : MessageId) :
    announcedRank (Message.blank kind id).encode = 0 := by
  have hcode : Code.ofByte (Code.toByte ⟨0, 0⟩) = ⟨0, 0⟩ := by decide
  rw [announcedRank_encode]
  simp [Message.blank, Message.rank, Message.isRequest, Code.isEmpty, hcode, Code.empty, h]

/-! ## One datagram -/

/-- **Handlers and observer set codes of responses only**: classes that are sent as the one of
requests, 0, do not occur. Three bits of a class are sent. -/
def Registry.Responds {ω : Type} (registry : Registry ω) (observer : Observer ω) : Prop :=
  registry.Preserves observer fun msg => msg.code.cls % 8 ≠ 0

namespace MessageLayer

variable {κ ω : Type} {layer : MessageLayer κ ω} {observer : Observer ω} {msg reply : Message}

/-- The answer to a request is a response. -/
theorem cls_answer (h : layer.registry.Responds observer) (req : Request) :
    (layer.answer observer req).code.cls % 8 ≠ 0 := by
  refine h.dispatch (fun msg code hcode _ => ?_) (fun msg hmsg => hmsg) ?_
  · have hown : ∀ code ∈ Registry.ownCodes, code.cls % 8 ≠ 0 := by decide
    exact hown code hcode
  · rw [response_new, code_draft]
    decide

variable [Clock κ]

/-- Empty messages are sent to refuse and to acknowledge; of those received, only pings are
answered. -/
theorem kind_of_receipt? {kind : Kind} (h : layer.receipt? msg = some kind) :
    kind ≠ .con ∧ (msg.code.isEmpty = true → msg.kind = .con) := by
  rw [receipt?] at h
  by_cases hempty : msg.code.isEmpty = true
  · rw [if_pos hempty] at h
    split at h
    · next hcon => exact ⟨by cases h; decide, fun _ => hcon⟩
    · cases h
  · rw [if_neg hempty] at h
    refine ⟨?_, fun hempty' => absurd hempty' hempty⟩
    revert h
    rcases (layer.credit msg).value.1 with _ | _ | _ <;> cases msg.kind <;> rintro ⟨⟩ <;> decide

/-- **A message is answered with one of lower rank**, or not at all. -/
theorem announcedRank_reaction (h : layer.registry.Responds observer)
    (hreaction : layer.reaction observer msg = some reply) :
    announcedRank reply.encode < msg.rank := by
  rw [reaction] at hreaction
  rw [Message.rank]
  by_cases hrequest : msg.isRequest = true
  · rw [if_pos hrequest] at hreaction ⊢
    obtain rfl := Option.some.inj hreaction
    exact Nat.lt_succ_of_le (announcedRank_encode_le_one (cls_answer h ⟨msg⟩))
  · rw [if_neg hrequest] at hreaction ⊢
    obtain ⟨kind, hkind, rfl⟩ := Option.map_eq_some_iff.1 hreaction
    obtain ⟨hother, hping⟩ := kind_of_receipt? hkind
    rw [announcedRank_encode_blank hother]
    split
    · next hsilent =>
        rw [Bool.and_eq_true, bne_iff_ne] at hsilent
        exact absurd (hping hsilent.1) hsilent.2
    · exact Nat.zero_lt_one

end MessageLayer

/-- **What a node delivers for a datagram**: at most one datagram, of lower rank. -/
theorem Node.announcedRank_receive {σ χ κ ω ε δ : Type} [Socket σ ε] [SecureChannel χ δ] [Clock κ]
    {node : Node σ χ κ ω} {observer : Observer ω} (h : node.layer.registry.Responds observer)
    (datagram : Datagram) :
    delivered (node.receive observer datagram).trace = []
      ∨ ∃ reply, delivered (node.receive observer datagram).trace = [(datagram.peer, reply)]
        ∧ announcedRank reply < rank datagram.bytes := by
  rw [delivered_receive, rank]
  cases Message.parse datagram.bytes with
  | error e => exact .inl rfl
  | ok msg =>
      dsimp only
      cases hreaction : node.layer.reaction observer msg with
      | none => exact .inl rfl
      | some reply =>
          exact .inr ⟨reply.encode, rfl, MessageLayer.announcedRank_reaction h hreaction⟩

/-! ## Nodes that are joined -/

/-- Nodes, each of its own kind, and the datagrams that are underway between them. -/
structure Net {ι : Type} (σ χ κ ω : ι → Type) where
  nodes : ∀ i, Node (σ i) (χ i) (κ i) (ω i)
  underway : List Delivery

namespace Net

variable {ι : Type} [DecidableEq ι] {σ χ κ ω ε δ : ι → Type} [∀ i, Socket (σ i) (ε i)]
  [∀ i, SecureChannel (χ i) (δ i)] [∀ i, Clock (κ i)] {net after : Net σ χ κ ω} {n : Nat}

/-- A node receives a datagram; what it delivers is underway from then on, with the rest. -/
def receive (net : Net σ χ κ ω) (i : ι) (observer : Observer (ω i)) (datagram : Datagram)
    (rest : List Delivery) : Net σ χ κ ω where
  nodes := Function.update net.nodes i ((net.nodes i).receive observer datagram).value.2
  underway := rest ++ delivered ((net.nodes i).receive observer datagram).trace

/-- **What can happen to nodes that are joined**, with the number of deliveries. The network chooses
which datagram is next, which node gets it and which endpoint it seems to come from. It delivers
each datagram once at most, and a socket may cut it. -/
inductive Run : Net σ χ κ ω → Nat → Net σ χ κ ω → Prop where
  /-- Nothing has happened. -/
  | start (net : Net σ χ κ ω) : Run net 0 net
  /-- A datagram reaches a node whose handlers and observer set codes of responses only. -/
  | deliver {net mid : Net σ χ κ ω} {n : Nat} {front back : List Delivery} {delivery : Delivery}
      (hrun : Run net n mid) (hunderway : mid.underway = front ++ delivery :: back) (i : ι)
      (observer : Observer (ω i)) (hresponds : (mid.nodes i).layer.registry.Responds observer)
      (sender : Endpoint) (size : Nat) :
      Run net (n + 1) (mid.receive i observer ⟨sender, delivery.2.take size⟩ (front ++ back))
  /-- A datagram is lost. -/
  | lose {net mid : Net σ χ κ ω} {n : Nat} {front back : List Delivery} {delivery : Delivery}
      (hrun : Run net n mid) (hunderway : mid.underway = front ++ delivery :: back) :
      Run net n { mid with underway := front ++ back }
  /-- Something happens in a node for which it sends nothing. -/
  | rest {net mid : Net σ χ κ ω} {n : Nat} (hrun : Run net n mid) (i : ι)
      (node : Node (σ i) (χ i) (κ i) (ω i)) :
      Run net n { mid with nodes := Function.update mid.nodes i node }

/-- How many deliveries can come of what is underway. -/
def weight : List Delivery → Nat
  | [] => 0
  | delivery :: rest => announcedRank delivery.2 + 1 + weight rest

@[simp] theorem weight_nil : weight [] = 0 := rfl

@[simp] theorem weight_cons (delivery : Delivery) (rest : List Delivery) :
    weight (delivery :: rest) = announcedRank delivery.2 + 1 + weight rest :=
  rfl

@[simp] theorem weight_append (front back : List Delivery) :
    weight (front ++ back) = weight front + weight back := by
  induction front with
  | nil => exact (Nat.zero_add _).symm
  | cons delivery rest ih =>
      rw [List.cons_append, weight_cons, weight_cons, ih]
      omega

theorem weight_le (underway : List Delivery) : weight underway ≤ 3 * underway.length := by
  induction underway with
  | nil => exact Nat.le_refl 0
  | cons delivery rest ih =>
      have hle := announcedRank_le_two delivery.2
      rw [weight_cons, List.length_cons]
      omega

theorem length_le_weight (underway : List Delivery) : underway.length ≤ weight underway := by
  induction underway with
  | nil => exact Nat.le_refl 0
  | cons delivery rest ih =>
      rw [weight_cons, List.length_cons]
      omega

/-- **A delivery uses up weight**: the datagram is gone, and what comes of it weighs less. -/
theorem weight_receive_lt {i : ι} {observer : Observer (ω i)}
    (hresponds : (net.nodes i).layer.registry.Responds observer) (front back : List Delivery)
    (delivery : Delivery) (sender : Endpoint) (size : Nat) :
    weight (net.receive i observer ⟨sender, delivery.2.take size⟩ (front ++ back)).underway
      < weight (front ++ delivery :: back) := by
  -- what is underway is weighed by the rank that it announces, what is read has a rank of its own
  have hcut := announcedRank_take_le delivery.2 size
  have hread := rank_le_announcedRank (delivery.2.take size)
  rw [receive, weight_append, weight_append, weight_append, weight_cons]
  rcases Node.announcedRank_receive hresponds ⟨sender, delivery.2.take size⟩ with
    hnone | ⟨reply, hreply, hrank⟩
  · rw [hnone, weight_nil]
    omega
  · rw [hreply, weight_cons, weight_nil]
    dsimp only at hrank ⊢
    omega

/-- Deliveries are paid for with the weight of what was underway. -/
theorem Run.weight_le (h : net.Run n after) : n + weight after.underway ≤ weight net.underway := by
  induction h with
  | start => exact Nat.le_of_eq (Nat.zero_add _)
  | @deliver mid n front back delivery hrun hunderway i observer hresponds sender size ih =>
      rw [hunderway] at ih
      -- the weight that is lost pays for this delivery
      have hlt := weight_receive_lt hresponds front back delivery sender size
      exact Nat.le_trans (by omega) ih
  | lose hrun hunderway ih =>
      rw [hunderway] at ih
      simp only [weight_append, weight_cons] at ih ⊢
      omega
  | rest hrun i node ih => exact ih

/-! ## Main result -/

/-- **Nodes do not answer each other forever.** A node whose handlers and observer set codes of
responses only delivers at most one datagram for each that it receives, and the rank of that one is
lower. So however such nodes are joined, whatever is lost and in whatever order the rest arrives, no
more than three deliveries come of each datagram that is underway. -/
theorem deliveries_le :
    (∀ (i : ι) (node : Node (σ i) (χ i) (κ i) (ω i)) (observer : Observer (ω i))
        (datagram : Datagram), node.layer.registry.Responds observer →
        (delivered (node.receive observer datagram).trace).length ≤ 1
        ∧ ∀ delivery ∈ delivered (node.receive observer datagram).trace,
          rank delivery.2 < rank datagram.bytes)
      ∧ ∀ (net after : Net σ χ κ ω) (n : Nat), net.Run n after →
        n + after.underway.length ≤ 3 * net.underway.length := by
  refine ⟨fun i node observer datagram hresponds => ?_, fun net after n hrun => ?_⟩
  · rcases Node.announcedRank_receive hresponds datagram with hnone | ⟨reply, hreply, hrank⟩
    · rw [hnone]
      exact ⟨Nat.zero_le 1, List.forall_mem_nil _⟩
    · rw [hreply]
      exact ⟨Nat.le_refl 1,
        List.forall_mem_singleton.2 (Nat.lt_of_le_of_lt (rank_le_announcedRank reply) hrank)⟩
  · calc n + after.underway.length
        ≤ n + weight after.underway := Nat.add_le_add_left (length_le_weight _) n
      _ ≤ weight net.underway := hrun.weight_le
      _ ≤ 3 * net.underway.length := weight_le _

/-! ## The longest run, and handlers that make it longer -/

open Simulation Node

/-- Receiving leaves all registries as they are. -/
theorem registry_receive (net : Net σ χ κ ω) (i : ι) (observer : Observer (ω i))
    (datagram : Datagram) (rest : List Delivery) (j : ι) :
    ((net.receive i observer datagram rest).nodes j).layer.registry
      = (net.nodes j).layer.registry := by
  rw [receive]
  dsimp only
  by_cases h : j = i
  · subst h
    rw [Function.update_self]
    exact (net.nodes j).layer.registry_handle observer datagram.peer datagram.bytes
  · rw [Function.update_of_ne h]

/-- The only datagram that is underway is delivered as it is. -/
theorem Run.deliver_only {mid : Net σ χ κ ω} (hrun : net.Run n mid) (delivery : Delivery)
    (hunderway : mid.underway = [delivery]) (i : ι) {observer : Observer (ω i)}
    (hresponds : (mid.nodes i).layer.registry.Responds observer) :
    net.Run (n + 1) (mid.receive i observer ⟨delivery.1, delivery.2⟩ []) := by
  have hdeliver := Run.deliver hrun (hunderway.trans (List.nil_append _).symm) i observer hresponds
    delivery.1 delivery.2.length
  rwa [List.take_length] at hdeliver

/-- Two nodes that greet, and a request underway that is not confirmable. -/
def sampleNet : Net (fun _ : Bool => MemorySocket) (fun _ => OpenChannel) (fun _ => ManualClock)
    (fun _ => World) :=
  ⟨fun _ => sampleGreeter, [(sampleClient, [0x51, 0x01, 0, 8, 0xBB, 0xB1, 0x61])]⟩

/-- The request is answered, the answer is refused by the other node, and that is all. -/
theorem deliveries_le_sampleNet :
    ∃ after, sampleNet.Run 3 after ∧ after.underway = []
      ∧ 3 + after.underway.length ≤ 3 * sampleNet.underway.length := by
  have hresponds : sampleGreeter.layer.registry.Responds .idle :=
    preserves_sampleGreeter fun _ _ h => h
  have hasked := Run.deliver_only (.start sampleNet) _ rfl true hresponds
  have hanswered := hasked.deliver_only
    (sampleClient, [0x51, 0x45, 0x3B, 0x6C, 0xBB, 0xFF, 0x68, 0x69]) (by decide +kernel) false
    (by rw [registry_receive]; exact hresponds)
  have hrefused := hanswered.deliver_only (sampleClient, [0x70, 0, 0x3B, 0x6C]) (by decide +kernel)
    true (by rw [registry_receive, registry_receive]; exact hresponds)
  exact ⟨_, hrefused, by decide +kernel, deliveries_le.2 sampleNet _ 3 hrefused⟩

/-- A node whose handler sets a code of class 8. -/
def sampleDisguised : MemoryNode :=
  let disguised : Resource World := scriptedResource 0 fun method =>
    if method = .get then some [.setCode ⟨8, 1⟩] else none
  sampleGreeter.withServer ⟨4, [⟨"", .none, disguised⟩], [], true⟩ {}

/-- The node sets codes of classes from 1 on only. What it answers to a request is a request again,
as three bits of the class are sent. -/
theorem rank_receive_sampleDisguised :
    (sampleDisguised.layer.registry.Preserves .idle fun msg => 1 ≤ msg.code.cls)
      ∧ rank [0x40, 0x01, 0, 7] = 2
      ∧ (delivered (sampleDisguised.receive .idle ⟨sampleClient, [0x40, 0x01, 0, 7]⟩).trace).map
        (fun delivery => rank delivery.2) = [2] := by
  refine ⟨⟨fun entry hentry method req reply world h => ?_, fun _ _ _ _ h => h⟩,
    by decide +kernel, by decide +kernel⟩
  obtain rfl := List.mem_singleton.1 hentry
  cases method with
  | get => exact (by decide : (1 : UInt8) ≤ 8)
  | _ => exact h

end Net

end CoapNode
