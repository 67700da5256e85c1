import CoapNode.Proofs.Resource.Dispatch
import CoapNode.Simulation.Resource

set_option autoImplicit false

/-! # What a refusal takes back

A handler may have written to its reply before it refuses a method. The registry then sets the code
and takes back the payload, but not the options (`Registry.refusal_keeps_options`). So the client is
told nothing but that the method is not allowed exactly if the handler has set no options. A handler
that has begun with `Reply.writeChunk` leaves the mark of a block on the refusal
(`Registry.refusal_sampleChunk`).
-/

namespace CoapNode

variable {ω : Type}

/-! ## What handlers can write -/

namespace Response.Edited

variable {resp next : Response}

/-- No operation changes the version of a response. -/
theorem version_eq (h : resp.Edited next) : next.message.version = resp.message.version := by
  induction h with
  | refl => rfl
  | _ h _ ih => exact ih

/-- Writing a part of a representation is editing. -/
theorem writeChunk {reply : Reply} (h : resp.Edited reply.response) (full : Bytes) :
    resp.Edited (reply.writeChunk full).value.response := by
  rw [Reply.writeChunk]
  dsimp only
  split
  · exact h.setCode _
  · split
    · exact (h.setPayload _).setBlock2 _
    · exact h.setPayload _

end Response.Edited

/-- **What a refusal makes of an edited response**: it is what it was before, with the code 4.05 and
the options that it has been given. -/
theorem Response.Edited.refused_eq {req : Request} {next : Response}
    (h : (forRequest req).Edited next) (hid : next.message.id = (forRequest req).message.id) :
    (next.setPayload []).setCode .methodNotAllowed
      = ⟨{ (forRequest req).message with
            code := .methodNotAllowed
            options := next.message.options }⟩ := by
  show (⟨⟨next.message.kind, next.message.version, .methodNotAllowed, next.message.id,
    next.message.token, next.message.options, []⟩⟩ : Response) = _
  rw [h.kind_eq, h.version_eq, h.token_eq, hid]
  rfl

/-! ## What is left of it -/

namespace Registry

variable {registry : Registry ω} {entry : Entry ω} {req : Request} {reply : Reply} {world : ω}

theorem dispatch_of_refused (observer : Observer ω) (hserving : registry.initialized = true)
    (hfind : registry.find? req.path = some entry)
    (hrefused : (entry.handler req reply world).value.accepted = false) :
    (registry.dispatch observer req reply world).value.1
      = let refused := (entry.handler req reply world).value
        let refusal := (refused.reply.response.setPayload []).setCode .methodNotAllowed
        ⟨false, { refused.reply with response := refusal }, refused.world⟩ := by
  rw [dispatch, if_pos hserving, hfind]
  show (entry.serve observer req reply world).value = _
  rw [Entry.value_serve]
  dsimp only
  rw [hrefused, if_neg Bool.false_ne_true]

/-- **A refusal keeps the options that the handler has set**, and nothing else that it has written.
A handler edits the fresh response to a request, leaves its id alone and refuses. Then the answer is
the fresh response with the code 4.05 and these options, so it is the plain refusal exactly if there
are none. -/
theorem refusal_keeps_options (observer : Observer ω) (chunkSize : UInt16) (world : ω)
    (hserving : registry.initialized = true) (hfind : registry.find? req.path = some entry) :
    let fresh := Response.forRequest req
    let reply := Reply.new req fresh chunkSize
    let refused := (entry.handler req reply world).value
    let answered := (registry.dispatch observer req reply world).value.1
    refused.accepted = false → fresh.Edited refused.reply.response →
      refused.reply.response.message.id = fresh.message.id →
      answered.accepted = false ∧ answered.world = refused.world
        ∧ answered.reply.response
          = ⟨{ fresh.message with
                code := .methodNotAllowed
                options := refused.reply.response.message.options }⟩
        ∧ (answered.reply.response = fresh.setCode .methodNotAllowed
          ↔ refused.reply.response.message.options = .empty) := by
  intro fresh reply refused answered hrefused hedited hid
  have hdispatch : answered = _ := dispatch_of_refused observer hserving hfind hrefused
  have hresponse : answered.reply.response
      = ⟨{ fresh.message with
            code := .methodNotAllowed
            options := refused.reply.response.message.options }⟩ := by
    rw [← hedited.refused_eq hid]
    exact congrArg (·.reply.response) hdispatch
  refine ⟨congrArg (·.accepted) hdispatch, congrArg (·.world) hdispatch, hresponse, ?_⟩
  rw [hresponse, Response.setCode, Response.mk.injEq]
  refine ⟨congrArg Message.options, fun hnone => ?_⟩
  rw [hnone]
  rfl

/-! ### Two refusals -/

/-- A handler that follows a list of actions edits the response. -/
theorem edited_runActions {resp : Response} {actions : List Simulation.Action}
    {world : Simulation.World} (h : resp.Edited reply.response) :
    resp.Edited (Simulation.runActions req actions reply world).value.reply.response := by
  induction actions generalizing reply world with
  | nil => exact h
  | cons action rest ih =>
      cases action with
      | deny => exact h
      | record => exact ih h
      | write bytes => exact ih (h.extendPayload bytes)
      | writeChunk full => exact ih (h.writeChunk full)
      | setCode code => exact ih (h.setCode code)
      | writePath | writePayload => exact ih (h.extendPayload _)
      | setObserve n => exact ih (h.setObserve n)
      | setContentFormat format => exact ih (h.setContentFormat format)
      | setPayload bytes => exact ih (h.setPayload bytes)
      | setBlock2 block => exact ih (h.setBlock2 block)

/-- A resource that carries out some actions before it refuses. -/
def sampleRefuser (actions : List Simulation.Action) : Entry Simulation.World :=
  ⟨"d", .none, Simulation.scriptedResource 0 fun method =>
    if method = .get then some (actions ++ [.deny]) else none⟩

/-- The registry in which it is served. -/
def sampleRefusing (actions : List Simulation.Action) : Registry Simulation.World :=
  ⟨1, [sampleRefuser actions], [], true⟩

/-- A request for the resource. -/
def sampleRequest : Request := .get "d"

/-- What the handler leaves behind. -/
def sampleRefused (actions : List Simulation.Action) : Handled Simulation.World :=
  ((sampleRefuser actions).handler sampleRequest
    (.new sampleRequest (.forRequest sampleRequest) 64) {}).value

/-- What the registry makes of it. -/
def sampleAnswered (actions : List Simulation.Action) : Handled Simulation.World :=
  ((sampleRefusing actions).dispatch .idle sampleRequest
    (.new sampleRequest (.forRequest sampleRequest) 64) {}).value.1

/-- A payload and a code are taken back. -/
theorem refusal_keeps_options_sampleWrites :
    let answered := sampleAnswered [.write [104, 105], .setCode .notFound]
    answered.accepted = false
      ∧ answered.reply.response = (Response.forRequest sampleRequest).setCode .methodNotAllowed := by
  have hfind : (sampleRefusing [.write [104, 105], .setCode .notFound]).find? sampleRequest.path
      = some (sampleRefuser _) := List.find?_cons_of_pos (by decide +kernel)
  obtain ⟨haccepted, -, -, hplain⟩ := refusal_keeps_options .idle 64 {} rfl hfind
    (by decide +kernel) (edited_runActions .refl) (by decide +kernel)
  exact ⟨haccepted, hplain.2 (by decide +kernel)⟩

/-- The mark of a block is not taken back. -/
theorem refusal_sampleChunk :
    let fresh := Response.forRequest sampleRequest
    let actions := [.writeChunk (List.replicate 200 7)]
    let refused := sampleRefused actions
    let answered := sampleAnswered actions
    (sampleRefusing actions).initialized = true ∧ refused.accepted = false
      ∧ fresh.Edited refused.reply.response
      ∧ refused.reply.response.message.id = fresh.message.id
      ∧ answered.reply.response ≠ fresh.setCode .methodNotAllowed
      ∧ answered.reply.response.message.block2? = some (.new 64 0 true) :=
  ⟨rfl, by decide +kernel, edited_runActions .refl, by decide +kernel, by decide +kernel,
    by decide +kernel⟩

end Registry

end CoapNode
