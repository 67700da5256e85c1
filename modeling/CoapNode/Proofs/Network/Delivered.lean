import CoapNode.Network.Outbound
import CoapNode.Proofs.Transaction.Deliveries

set_option autoImplicit false

/-! # What is delivered

A trace of activities asks for messages to be delivered to peers, one after the other (`delivered`).
The transport carries out each of these requests once and in order, and asks for no delivery of its
own (`Transport.delivered_perform`); it stays as it is where nothing is to be delivered
(`Transport.perform_of_delivered_eq_nil`).
-/

namespace CoapNode

/-- The delivery that an activity asks for, if that is what it is. -/
def Activity.delivery? : Activity → Option Delivery
  | .deliver peer bytes => some (peer, bytes)
  | _ => none

/-- **The messages that are to be delivered**, with their peers, first delivery first. -/
def delivered (trace : List Activity) : List Delivery := trace.filterMap Activity.delivery?

section

variable {rest : List Activity} {peer : Endpoint} {bytes : Bytes}

@[simp] theorem delivered_nil : delivered [] = [] := rfl

@[simp] theorem delivered_append (before after : List Activity) :
    delivered (before ++ after) = delivered before ++ delivered after :=
  List.filterMap_append

@[simp] theorem delivered_log (line : LogLine) : delivered (.log line :: rest) = delivered rest :=
  rfl

@[simp] theorem delivered_deliver :
    delivered (.deliver peer bytes :: rest) = (peer, bytes) :: delivered rest :=
  rfl

@[simp] theorem delivered_sendPlain (address : SocketAddress) :
    delivered (.sendPlain address bytes :: rest) = delivered rest :=
  rfl

@[simp] theorem delivered_sendSecure :
    delivered (.sendSecure peer bytes :: rest) = delivered rest :=
  rfl

@[simp] theorem delivered_map_log (lines : List LogLine) : delivered (lines.map .log) = [] := by
  induction lines with
  | nil => rfl
  | cons line lines ih => exact ih

theorem delivered_cons (activity : Activity) :
    delivered (activity :: rest) = delivered [activity] ++ delivered rest :=
  delivered_append [activity] rest

end

/-! ## The transport -/

namespace Transport

variable {σ χ ε δ : Type} [Socket σ ε] [SecureChannel χ δ]

theorem delivered_send (t : Transport σ χ) (peer : Option Endpoint) (bytes : Bytes) :
    delivered (t.send peer bytes).trace = [] := by
  unfold send
  split
  · simp
  · split
    · split <;> simp
    · simp

theorem delivered_deliver (t : Transport σ χ) (peer : Endpoint) (bytes : Bytes) :
    delivered (t.deliver peer bytes).trace = [] := by
  have hsend := t.delivered_send (some peer) bytes
  unfold deliver
  rw [Traced.trace_bind, delivered_append, hsend, List.nil_append]
  rcases (t.send (some peer) bytes).value with ⟨(_ | e) | _, next⟩ <;> simp

theorem delivered_performOne (t : Transport σ χ) (activity : Activity) :
    delivered (t.performOne activity).trace = delivered [activity] := by
  cases activity with
  | deliver peer bytes => simp [performOne, delivered_deliver]
  | _ => rfl

/-- **Each delivery is carried out once**, in order, and no other one is asked for. -/
theorem delivered_perform (t : Transport σ χ) (activities : List Activity) :
    delivered (t.perform activities).trace = delivered activities := by
  unfold perform
  induction activities generalizing t with
  | nil => rfl
  | cons activity rest ih =>
      rw [List.foldlM_cons, Traced.trace_bind, delivered_append, ih, delivered_performOne,
        ← delivered_cons]

/-- Where nothing is to be delivered, the transport does nothing. -/
theorem perform_of_delivered_eq_nil (t : Transport σ χ) {activities : List Activity}
    (h : delivered activities = []) : t.perform activities = ⟨t, activities⟩ := by
  unfold perform
  induction activities with
  | nil => rfl
  | cons activity rest ih =>
      rw [delivered_cons, List.append_eq_nil_iff] at h
      have hone : t.performOne activity = ⟨t, [activity]⟩ := by
        cases activity with
        | deliver peer bytes => simp at h
        | _ => rfl
      rw [List.foldlM_cons, hone]
      show Traced.mk (rest.foldlM performOne t).value
        ([activity] ++ (rest.foldlM performOne t).trace) = _
      rw [ih h.2]
      rfl

end Transport

end CoapNode
