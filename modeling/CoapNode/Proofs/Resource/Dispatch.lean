import CoapNode.Resource.Registry

set_option autoImplicit false

/-! # What becomes of a response in the registry

A response goes through the hands of a handler and of an observer, and the registry itself sets the
codes 4.04, 4.05 and 5.03 and takes back a payload. What all of them keep, answering a request keeps
(`Registry.Preserves.dispatch`), whether the request is accepted, refused or belongs to no resource.
Editing a response with its own operations keeps its kind and its token (`Response.Edited`).
-/

namespace CoapNode

variable {ω : Type}

/-- The codes that a registry sets by itself. -/
def Registry.ownCodes : List Code := [.notFound, .methodNotAllowed, .serviceUnavailable]

/-- **Handlers and observer preserve a property of responses**: a response that has the property
still has it when they are done with it. -/
structure Registry.Preserves (registry : Registry ω) (observer : Observer ω)
    (P : Message → Prop) : Prop where
  handlers : ∀ entry ∈ registry.entries, ∀ method req reply world, P reply.response.message →
    P (entry.resource.handle method req reply world).value.reply.response.message
  observer : ∀ path req resp world, P resp.message →
    P (observer.subscribe path req resp world).1.message

/-- **Handlers and observer keep a part of responses**, whatever it is. -/
def Registry.Keeps {β : Type} (registry : Registry ω) (observer : Observer ω)
    (part : Message → β) : Prop :=
  ∀ value, registry.Preserves observer fun msg => part msg = value

/-! ## What the operations of responses keep -/

/-- **A response is edited** with the operations that responses have. -/
inductive Response.Edited (resp : Response) : Response → Prop where
  | refl : resp.Edited resp
  | setCode {next : Response} (h : resp.Edited next) (code : Code) : resp.Edited (next.setCode code)
  | setPayload {next : Response} (h : resp.Edited next) (payload : Bytes) :
      resp.Edited (next.setPayload payload)
  | extendPayload {next : Response} (h : resp.Edited next) (more : Bytes) :
      resp.Edited (next.extendPayload more)
  | setBlock2 {next : Response} (h : resp.Edited next) (block : Block) :
      resp.Edited (next.setBlock2 block)
  | setContentFormat {next : Response} (h : resp.Edited next) (format : ContentFormat) :
      resp.Edited (next.setContentFormat format)
  | setObserve {next : Response} (h : resp.Edited next) (n : UInt32) :
      resp.Edited (next.setObserve n)
  | setId {next : Response} (h : resp.Edited next) (id : MessageId) : resp.Edited (next.setId id)

namespace Response.Edited

variable {resp next : Response}

/-- No operation changes the kind of a response. -/
theorem kind_eq (h : resp.Edited next) : next.message.kind = resp.message.kind := by
  induction h with
  | refl => rfl
  | _ h _ ih => exact ih

/-- No operation changes the token of a response. -/
theorem token_eq (h : resp.Edited next) : next.message.token = resp.message.token := by
  induction h with
  | refl => rfl
  | _ h _ ih => exact ih

end Response.Edited

/-! ## What an entry makes of a request -/

/-- The handler for the method of a request, which refuses if there is none. -/
def Entry.handler (entry : Entry ω) : Handler ω := fun req reply world =>
  match req.method? with
  | some method => entry.resource.handle method req reply world
  | none => Handler.refuse req reply world

theorem Entry.value_serve (entry : Entry ω) (observer : Observer ω) (req : Request) (reply : Reply)
    (world : ω) :
    (entry.serve observer req reply world).value
      = let handled := (entry.handler req reply world).value
        if handled.accepted then
          if entry.flags.contains .observable then
            let observed :=
              observer.subscribe entry.path req handled.reply.response handled.world
            ⟨true, { handled.reply with response := observed.1 }, observed.2⟩
          else handled
        else
          let refusal := (handled.reply.response.setPayload []).setCode .methodNotAllowed
          ⟨false, { handled.reply with response := refusal }, handled.world⟩ := by
  have hserve (handled : Logged (Handled ω)) (accepted refused : Handled ω → Logged (Handled ω)) :
      (do
        let handled ← handled
        if handled.accepted then accepted handled else refused handled).value
        = if handled.value.accepted then (accepted handled.value).value
          else (refused handled.value).value := by
    rw [Traced.value_bind]
    split <;> rfl
  unfold serve handler
  cases req.method? <;> dsimp only <;> rw [hserve] <;> split <;> first | rfl | (split <;> rfl)

namespace Registry.Preserves

variable {registry : Registry ω} {observer : Observer ω} {P : Message → Prop} {req : Request}
  {reply : Reply} {world : ω}

/-- What an entry answers has the property, if refusing a method keeps it as well. -/
theorem serve (h : registry.Preserves observer P)
    (hrefused : ∀ msg, P msg → P { msg with code := .methodNotAllowed, payload := [] })
    {entry : Entry ω} (hentry : entry ∈ registry.entries) (hreply : P reply.response.message) :
    P (entry.serve observer req reply world).value.reply.response.message := by
  have hhandled : P (entry.handler req reply world).value.reply.response.message := by
    rw [Entry.handler]
    split
    · exact h.handlers entry hentry _ req reply world hreply
    · exact hreply
  rw [Entry.value_serve]
  dsimp only
  split
  · split
    · exact h.observer _ _ _ _ hhandled
    · exact hhandled
  · exact hrefused (entry.handler req reply world).value.reply.response.message hhandled

/-- **What the registry answers has the property** that the response had in the beginning. -/
theorem dispatch (h : registry.Preserves observer P)
    (hcode : ∀ msg, ∀ code ∈ ownCodes, P msg → P { msg with code := code })
    (hpayload : ∀ msg, P msg → P { msg with payload := [] })
    (hreply : P reply.response.message) :
    P (registry.dispatch observer req reply world).value.1.reply.response.message := by
  rw [Registry.dispatch]
  split
  · split
    · next entry hentry =>
        refine h.serve (fun msg hmsg => ?_) (List.mem_of_find?_eq_some hentry) hreply
        exact hcode _ _ (by simp [ownCodes]) (hpayload msg hmsg)
    · exact hcode _ _ (by simp [ownCodes]) hreply
  · exact hcode _ _ (by simp [ownCodes]) hreply

end Registry.Preserves

/-- **Answering a request leaves the registry as it is**: its resources, their timers, and whether
it serves. -/
theorem Registry.registry_dispatch (registry : Registry ω) (observer : Observer ω) (req : Request)
    (reply : Reply) (world : ω) :
    (registry.dispatch observer req reply world).value.2 = registry := by
  rw [dispatch]
  split
  · split <;> rfl
  · rfl

theorem Registry.dispatch_eq_map (registry : Registry ω) (observer : Observer ω) (req : Request)
    (reply : Reply) (world : ω) :
    registry.dispatch observer req reply world
      = (·, registry) <$> (Prod.fst <$> registry.dispatch observer req reply world) := by
  have hregistry := registry.registry_dispatch observer req reply world
  revert hregistry
  generalize registry.dispatch observer req reply world = dispatched
  obtain ⟨⟨handled, next⟩, lines⟩ := dispatched
  rintro rfl
  show Traced.mk _ lines = ⟨_, (lines ++ []) ++ []⟩
  rw [List.append_nil, List.append_nil]
  rfl

end CoapNode
