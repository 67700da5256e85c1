import CoapNode.Proofs.Node.Layer
import CoapNode.Proofs.Resource.Run
import CoapNode.Simulation.Clock
import Mathlib.Data.List.Basic

set_option autoImplicit false

/-! # Routing

A request goes to the first entry, in the order of registration, that its path belongs to
(`Entry.Answers`), and to no other one (`Registry.dispatch_routed`). The entries are the resources
that have been registered since the registry was emptied last (`Registry.Reached`).
-/

namespace CoapNode

variable {ω : Type}

/-! ## Which entries a path belongs to -/

/-- **An entry answers for a path**: the path is its own or, if the entry answers for what is below
it, continues its own behind a slash. -/
def Entry.Answers (entry : Entry ω) (path : String) : Prop :=
  path = entry.path
    ∨ entry.flags.contains .subResources = true ∧ (entry.path ++ "/").toList <+: path.toList

theorem Entry.matchesPath_iff {entry : Entry ω} {path : String} :
    entry.matchesPath path = true ↔ entry.Answers path := by
  have hslash : (entry.path ++ "/").toList = entry.path.toList ++ ['/'] := String.toList_append
  rw [matchesPath, Answers, hslash, ← String.toList_inj]
  cases hrest : entry.path.toList.isPrefixOf? path.toList with
  | none =>
      have hnot (rest : List Char) : entry.path.toList ++ rest ≠ path.toList := by
        intro h
        rw [← List.isPrefixOf?_eq_some_iff_append_eq, hrest] at h
        cases h
      refine iff_of_false Bool.false_ne_true ?_
      rintro (heq | ⟨-, rest, heq⟩)
      · exact hnot [] (by rw [List.append_nil, heq])
      · exact hnot (['/'] ++ rest) (by rw [← List.append_assoc, heq])
  | some rest =>
      obtain heq := List.isPrefixOf?_eq_some_iff_append_eq.1 hrest
      rw [← heq]
      cases rest with
      | nil => simp
      | cons c rest =>
          have hlonger : entry.path.toList ++ c :: rest ≠ entry.path.toList := by simp
          rw [List.prefix_append_right_inj, or_iff_right hlonger, List.cons_prefix_cons]
          simp [eq_comm (a := '/')]

theorem Method.ofCode?_eq_some_iff {code : Code} {method : Method} :
    Method.ofCode? code = some method ↔ code = method.code := by
  constructor
  · intro h
    rw [Method.ofCode?] at h
    have hcode := List.find?_some h
    exact (of_decide_eq_true hcode).symm
  · rintro rfl
    cases method <;> rfl

/-! ## Registries that can be reached -/

/-- **A registry is reached** from an empty one: resources are registered or refused, it is told to
serve, it is emptied, its timers are polled, and it answers requests. The list holds what has been
registered since it was emptied last, in that order, with the capabilities that each resource had
then; the flag says whether it has been told to serve since. -/
inductive Registry.Reached : Registry ω → List (Entry ω) → Bool → Prop where
  | empty (capacity : Nat) : Reached (.empty capacity) [] false
  | register {κ : Type} [Clock κ] {registry next : Registry ω} {registered : List (Entry ω)}
      {serving : Bool} {path : String} {resource : Resource ω} {clock clock' : κ} {world : ω}
      {place : Nat} (h : Reached registry registered serving)
      (hregister : (registry.register path resource clock world).value
        = (.ok place, next, clock')) :
      Reached next (registered ++ [⟨path, resource.flags world, resource⟩]) serving
  | refused {κ : Type} [Clock κ] {registry next : Registry ω} {registered : List (Entry ω)}
      {serving : Bool} {path : String} {resource : Resource ω} {clock clock' : κ} {world : ω}
      {cause : RegisterError} (h : Reached registry registered serving)
      (hregister : (registry.register path resource clock world).value
        = (.error cause, next, clock')) :
      Reached next registered serving
  | init {registry : Registry ω} {registered : List (Entry ω)} {serving : Bool}
      (h : Reached registry registered serving) : Reached registry.init.value registered true
  | teardown {registry : Registry ω} {registered : List (Entry ω)} {serving : Bool}
      (h : Reached registry registered serving) : Reached registry.teardown.value [] false
  | polled {κ : Type} [Clock κ] {registry : Registry ω} {registered : List (Entry ω)}
      {serving : Bool} (h : Reached registry registered serving) (clock : κ) (world : ω) :
      Reached (registry.pollTimers clock world).value.2.1 registered serving
  | dispatched {registry : Registry ω} {registered : List (Entry ω)} {serving : Bool}
      (h : Reached registry registered serving) (observer : Observer ω) (req : Request)
      (reply : Reply) (world : ω) :
      Reached (registry.dispatch observer req reply world).value.2 registered serving

namespace Registry

variable {registry next : Registry ω} {registered : List (Entry ω)} {serving : Bool}

/-- Polling the timers adds and removes no resources. -/
theorem frame_pollTimers {κ : Type} [Clock κ] (registry : Registry ω) (clock : κ) (world : ω) :
    (registry.pollTimers clock world).value.2.1.entries = registry.entries
      ∧ (registry.pollTimers clock world).value.2.1.initialized = registry.initialized := by
  rw [pollTimers]
  rcases Clock.now clock with ⟨_ | now, _⟩
  · exact ⟨rfl, rfl⟩
  · show (registry.fireAll now world).value.registry.entries = _
      ∧ (registry.fireAll now world).value.registry.initialized = _
    rw [value_fireAll]
    exact Firing.afterAll_frame now ⟨registry, world, 0⟩ _

/-- **What a registry holds** is what has been registered, in that order. -/
theorem Reached.holds (h : registry.Reached registered serving) :
    registry.entries = registered ∧ registry.initialized = serving := by
  induction h with
  | empty | teardown => exact ⟨rfl, rfl⟩
  | register _ hregister ih =>
      obtain ⟨-, -, timer, hnext, -⟩ := register_ok (congrArg Prod.fst hregister)
      obtain rfl := (congrArg (·.2.1) hregister).symm.trans hnext
      exact ⟨congrArg (· ++ _) ih.1, ih.2⟩
  | refused _ hregister ih =>
      obtain ⟨hnext, -⟩ := register_error (congrArg Prod.fst hregister)
      obtain rfl := (congrArg (·.2.1) hregister).symm.trans hnext
      exact ih
  | @polled _ _ registry _ _ _ clock world ih =>
      obtain ⟨hentries, hserving⟩ := registry.frame_pollTimers clock world
      exact ⟨hentries.trans ih.1, hserving.trans ih.2⟩
  | dispatched _ _ _ _ _ ih =>
      rw [registry_dispatch]
      exact ih
  | init _ ih =>
      rw [Registry.init]
      split
      · next hserving => exact ⟨ih.1, hserving⟩
      · exact ⟨ih.1, rfl⟩

/-! ## Where a request goes -/

variable {req : Request} {reply : Reply} {world : ω} {observer : Observer ω}
  {front back : List (Entry ω)} {entry : Entry ω}

theorem dispatch_of_not_serving (h : registry.initialized = false) :
    (registry.dispatch observer req reply world).value
      = (⟨false, reply.setCode .serviceUnavailable, world⟩, registry) := by
  rw [dispatch, if_neg (by simp [h])]
  rfl

theorem dispatch_of_unknown (hserving : registry.initialized = true)
    (h : ∀ entry ∈ registry.entries, ¬entry.Answers req.path) :
    (registry.dispatch observer req reply world).value
      = (⟨false, reply.setCode .notFound, world⟩, registry) := by
  have hfind : registry.find? req.path = none :=
    List.find?_eq_none.2 fun entry hentry hmatches =>
      h entry hentry (Entry.matchesPath_iff.1 hmatches)
  rw [dispatch, if_pos hserving, hfind]
  rfl

theorem dispatch_of_first (hserving : registry.initialized = true)
    (hentries : registry.entries = front ++ entry :: back)
    (hfront : ∀ earlier ∈ front, ¬earlier.Answers req.path) (hentry : entry.Answers req.path) :
    registry.dispatch observer req reply world
      = (·, registry) <$> entry.serve observer req reply world := by
  have hfind : registry.find? req.path = some entry := by
    have hmatches : entry.matchesPath req.path = true := Entry.matchesPath_iff.2 hentry
    refine List.find?_eq_some_iff_append.2 ⟨hmatches, front, back, hentries, ?_⟩
    intro earlier hearlier
    rw [Bool.not_eq_true', ← Bool.not_eq_true, Entry.matchesPath_iff]
    exact hfront earlier hearlier
  rw [dispatch, if_pos hserving, hfind, map_eq_pure_bind]

/-- A request is refused or goes to the first entry that answers for its path. -/
theorem first_cases (registry : Registry ω) (path : String) :
    (∀ entry ∈ registry.entries, ¬entry.Answers path)
      ∨ ∃ front entry back, registry.entries = front ++ entry :: back
        ∧ (∀ earlier ∈ front, ¬earlier.Answers path) ∧ entry.Answers path := by
  cases hfind : registry.find? path with
  | none =>
      refine .inl fun entry hentry hanswers => ?_
      exact List.find?_eq_none.1 hfind entry hentry (Entry.matchesPath_iff.2 hanswers)
  | some entry =>
      obtain ⟨hmatches, front, back, hentries, hfront⟩ := List.find?_eq_some_iff_append.1 hfind
      refine .inr ⟨front, entry, back, hentries, fun earlier hearlier hanswers => ?_,
        Entry.matchesPath_iff.1 hmatches⟩
      have hnot := hfront earlier hearlier
      rw [Entry.matchesPath_iff.2 hanswers] at hnot
      cases hnot

/-! ## What a request calls -/

/-- Recorders do not change for which paths entries answer. -/
theorem not_answers_recorded {path : String} {entries : List (Entry ω)}
    (h : ∀ entry ∈ entries, ¬entry.Answers path) :
    ∀ entry ∈ entries.mapIdx Entry.recorded, ¬entry.Answers path := by
  intro entry hentry
  obtain ⟨place, hplace, rfl⟩ := List.mem_mapIdx.1 hentry
  exact h _ (List.getElem_mem hplace)

theorem dispatch_recorded_of_first {recorded : RecordedWorld ω}
    (hserving : registry.initialized = true)
    (hentries : registry.entries = front ++ entry :: back)
    (hfront : ∀ earlier ∈ front, ¬earlier.Answers req.path) (hentry : entry.Answers req.path) :
    registry.recorded.dispatch observer.recorded req reply recorded
      = (·, registry.recorded) <$>
          (entry.recorded front.length).serve observer.recorded req reply recorded := by
  have hcut : registry.recorded.entries
      = front.mapIdx Entry.recorded ++ entry.recorded front.length
        :: back.mapIdx fun place => Entry.recorded (place + 1 + front.length) := by
    rw [Registry.recorded, hentries, List.mapIdx_append, List.mapIdx_cons, Nat.zero_add]
  have hrecorded : registry.recorded.initialized = true := hserving
  exact dispatch_of_first hrecorded hcut (not_answers_recorded hfront) hentry

theorem calls_of_not_serving (h : registry.initialized = false) :
    registry.calls observer req reply world = [] := by
  have hrecorded : registry.recorded.initialized = false := h
  rw [calls, dispatch_of_not_serving hrecorded]

theorem calls_of_unknown (hserving : registry.initialized = true)
    (h : ∀ entry ∈ registry.entries, ¬entry.Answers req.path) :
    registry.calls observer req reply world = [] := by
  have hrecorded : registry.recorded.initialized = true := hserving
  rw [calls, dispatch_of_unknown hrecorded (not_answers_recorded h)]

theorem calls_of_first (hserving : registry.initialized = true)
    (hentries : registry.entries = front ++ entry :: back)
    (hfront : ∀ earlier ∈ front, ¬earlier.Answers req.path) (hentry : entry.Answers req.path) :
    registry.calls observer req reply world
      = Entry.handlerCall front.length req reply world
          ++ entry.observerCall req (entry.handler req reply world).value := by
  rw [calls, dispatch_recorded_of_first hserving hentries hfront hentry, Traced.value_map,
    Entry.serve_recorded]
  rfl

/-- **Recorders write down what a request calls**, and change nothing else. -/
theorem dispatch_recorded (registry : Registry ω) (observer : Observer ω) (req : Request)
    (reply : Reply) (recorded : RecordedWorld ω) :
    (registry.recorded.dispatch observer.recorded req reply recorded).value
      = let dispatched := (registry.dispatch observer req reply recorded.world).value
        (dispatched.1.recorded
            (recorded.calls ++ registry.calls observer req reply recorded.world),
          dispatched.2.recorded) := by
  by_cases hserving : registry.initialized = true
  · have hrecorded : registry.recorded.initialized = true := hserving
    rcases registry.first_cases req.path with hnone | ⟨front, entry, back, hentries, hfront, hentry⟩
    · rw [dispatch_of_unknown hrecorded (not_answers_recorded hnone),
        dispatch_of_unknown hserving hnone, calls_of_unknown hserving hnone, List.append_nil]
      rfl
    · rw [dispatch_recorded_of_first hserving hentries hfront hentry,
        dispatch_of_first hserving hentries hfront hentry,
        calls_of_first hserving hentries hfront hentry, Traced.value_map, Entry.serve_recorded,
        List.append_assoc]
      rfl
  · rw [Bool.not_eq_true] at hserving
    have hrecorded : registry.recorded.initialized = false := hserving
    rw [dispatch_of_not_serving hrecorded, dispatch_of_not_serving hserving,
      calls_of_not_serving hserving, List.append_nil]
    rfl

end Registry

/-! ## How an entry serves a request -/

/-- The answer 4.05, without a payload, to a request that has been handled. -/
def Handled.refused (handled : Handled ω) : Handled ω :=
  let resp := (handled.reply.response.setPayload []).setCode .methodNotAllowed
  ⟨false, { handled.reply with response := resp }, handled.world⟩

/-- The answer once an observer has been told of a request that was accepted. -/
def Handled.observed (handled : Handled ω) (observer : Observer ω) (path : String)
    (req : Request) : Handled ω :=
  let (resp, world) := observer.subscribe path req handled.reply.response handled.world
  ⟨true, { handled.reply with response := resp }, world⟩

/-- **How the entry at a place serves a request**: what is left behind, and the calls that have been
made. -/
inductive Entry.Serves (entry : Entry ω) (place : Nat) (observer : Observer ω) (req : Request)
    (reply : Reply) (world : ω) : Handled ω → List (Call ω) → Prop where
  /-- There is no handler for the code, so the request is refused. -/
  | unsupported (hcode : ∀ method : Method, req.message.code ≠ method.code) :
      Serves entry place observer req reply world (.refused ⟨false, reply, world⟩) []
  /-- The handler refuses. -/
  | refused {method : Method} {answer : Handled ω} (hcode : req.message.code = method.code)
      (hanswer : (entry.resource.handle method req reply world).value = answer)
      (hrefuses : answer.accepted = false) :
      Serves entry place observer req reply world answer.refused
        [.handle place method req reply world]
  /-- The handler accepts, and nobody is told. -/
  | accepted {method : Method} {answer : Handled ω} (hcode : req.message.code = method.code)
      (hanswer : (entry.resource.handle method req reply world).value = answer)
      (haccepts : answer.accepted = true) (hflags : entry.flags.contains .observable = false) :
      Serves entry place observer req reply world answer [.handle place method req reply world]
  /-- The handler accepts, and the observer is told. -/
  | observed {method : Method} {answer : Handled ω} (hcode : req.message.code = method.code)
      (hanswer : (entry.resource.handle method req reply world).value = answer)
      (haccepts : answer.accepted = true) (hflags : entry.flags.contains .observable = true) :
      Serves entry place observer req reply world (answer.observed observer entry.path req)
        [.handle place method req reply world,
          .subscribe entry.path req answer.reply.response answer.world]

theorem Entry.serves (entry : Entry ω) (place : Nat) (observer : Observer ω) (req : Request)
    (reply : Reply) (world : ω) :
    entry.Serves place observer req reply world (entry.serve observer req reply world).value
      (handlerCall place req reply world
        ++ entry.observerCall req (entry.handler req reply world).value) := by
  rw [value_serve, handlerCall, observerCall, handler]
  cases hmethod : req.method? with
  | none =>
      refine .unsupported fun method hcode => ?_
      rw [Request.method?, Method.ofCode?_eq_some_iff.2 hcode] at hmethod
      cases hmethod
  | some method =>
      have hcode : req.message.code = method.code := Method.ofCode?_eq_some_iff.1 hmethod
      dsimp only
      by_cases haccepts : (entry.resource.handle method req reply world).value.accepted = true
      · by_cases hflags : entry.flags.contains .observable = true
        · rw [if_pos haccepts, if_pos hflags, if_pos ⟨haccepts, hflags⟩]
          exact .observed hcode rfl haccepts hflags
        · rw [if_pos haccepts, if_neg hflags, if_neg fun h => hflags h.2]
          exact .accepted hcode rfl haccepts (Bool.eq_false_iff.2 hflags)
      · rw [if_neg haccepts, if_neg fun h => haccepts h.1]
        exact .refused hcode rfl (Bool.eq_false_iff.2 haccepts)

/-! ## Main result -/

/-- **A request goes to the first resource that its path belongs to.** Recorders at the resources
and at the observer change nothing of what a registry makes of a request. A registry that does not
serve answers 5.03, and one that holds no resource for the path answers 4.04; neither calls
anything. Otherwise the first resource, in the order of registration, that answers for the path
serves the request as `Entry.Serves` says, and no other resource is called. The registry is the
same afterwards, and so is that of a layer which handles the request. -/
theorem Registry.dispatch_routed {κ : Type} [Clock κ] {registry : Registry ω}
    {registered : List (Entry ω)} {serving : Bool} (h : registry.Reached registered serving)
    (observer : Observer ω) (req : Request) (reply : Reply) (world : ω) :
    let dispatched := (registry.dispatch observer req reply world).value
    let calls := registry.calls observer req reply world
    (registry.recorded.dispatch observer.recorded req reply ⟨world, []⟩).value
        = (dispatched.1.recorded calls, dispatched.2.recorded)
      ∧ (serving = false →
          dispatched.1 = ⟨false, reply.setCode .serviceUnavailable, world⟩ ∧ calls = [])
      ∧ (serving = true → (∀ entry ∈ registered, ¬entry.Answers req.path) →
          dispatched.1 = ⟨false, reply.setCode .notFound, world⟩ ∧ calls = [])
      ∧ (serving = true → ∀ front entry back, registered = front ++ entry :: back →
          (∀ earlier ∈ front, ¬earlier.Answers req.path) → entry.Answers req.path →
          entry.Serves front.length observer req reply world dispatched.1 calls)
      ∧ dispatched.2 = registry
      ∧ ∀ (layer : MessageLayer κ ω) (peer : Endpoint), layer.registry = registry →
          (layer.handleRequest observer peer req).value.registry = registry := by
  intro dispatched calls
  obtain ⟨rfl, rfl⟩ := h.holds
  refine ⟨registry.dispatch_recorded observer req reply ⟨world, []⟩,
    fun hserving =>
      ⟨congrArg Prod.fst (dispatch_of_not_serving hserving), calls_of_not_serving hserving⟩,
    fun hserving hnone =>
      ⟨congrArg Prod.fst (dispatch_of_unknown hserving hnone), calls_of_unknown hserving hnone⟩,
    fun hserving front entry back hentries hfront hentry => ?_,
    registry.registry_dispatch observer req reply world, fun layer peer hregistry => ?_⟩
  · have hcalls : calls = _ := calls_of_first hserving hentries hfront hentry
    have hdispatched : dispatched.1 = (entry.serve observer req reply world).value :=
      congrArg (·.value.1) (dispatch_of_first hserving hentries hfront hentry)
    rw [hdispatched, hcalls]
    exact entry.serves front.length observer req reply world
  · rw [MessageLayer.value_handleRequest, MessageLayer.layer_draft]
    exact hregistry

/-! ## Two resources for one path -/

/-- A resource that supports one method. -/
def sampleResource (method : Method) (flags : Flags) : Resource Unit where
  flags _ := flags
  handle asked := if asked = method then fun _ reply world => pure ⟨true, reply, world⟩ else .refuse

/-- The entry of a resource that supports one method. -/
def sampleEntry (path : String) (method : Method) (flags : Flags) : Entry Unit :=
  ⟨path, flags, sampleResource method flags⟩

/-- A resource that can be read, with everything below it. -/
def sampleTree : Entry Unit := sampleEntry "a" .get (Flags.subResources.union .observable)

/-- A resource below it that can be written. -/
def sampleLeaf : Entry Unit := sampleEntry "a/b" .put .none

/-- The registry in which both have been registered. -/
def sampleRegistry : Registry Unit := ⟨4, [sampleTree, sampleLeaf], [], true⟩

theorem reached_sampleRegistry : sampleRegistry.Reached [sampleTree, sampleLeaf] true := by
  let clock : Simulation.ManualClock := {}
  have htree : ((Registry.empty 4).register "a" sampleTree.resource clock ()).value
      = (.ok 0, ⟨4, [sampleTree], [], false⟩, clock) := rfl
  have hleaf : ((Registry.mk 4 [sampleTree] [] false).register "a/b" sampleLeaf.resource clock
      ()).value = (.ok 1, ⟨4, [sampleTree, sampleLeaf], [], false⟩, clock) := rfl
  exact .init (.register (.register (.empty 4) htree) hleaf)

/-- The first resource refuses what the second one would have accepted. -/
theorem dispatch_routed_sampleRegistry :
    let req := Request.new .put "a/b"
    let reply := Reply.new req (.forRequest req) 64
    sampleRegistry.Reached [sampleTree, sampleLeaf] true
      ∧ sampleTree.Answers req.path ∧ sampleLeaf.Answers req.path
      ∧ sampleTree.Serves 0 .idle req reply () (sampleRegistry.dispatch .idle req reply ()).value.1
        (sampleRegistry.calls .idle req reply ())
      ∧ (sampleRegistry.dispatch .idle req reply ()).value.1.reply.response.message.code
        = .methodNotAllowed := by
  intro req reply
  have htree : sampleTree.Answers req.path := Entry.matchesPath_iff.1 (by decide +kernel)
  have hleaf : sampleLeaf.Answers req.path := Entry.matchesPath_iff.1 (by decide +kernel)
  obtain ⟨-, -, -, hserves, -, -⟩ := @Registry.dispatch_routed _ Simulation.ManualClock _ _ _ _
    reached_sampleRegistry .idle req reply ()
  exact ⟨reached_sampleRegistry, htree, hleaf,
    hserves rfl [] sampleTree [sampleLeaf] rfl (List.forall_mem_nil _) htree, by decide +kernel⟩

end CoapNode
