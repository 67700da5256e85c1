import CoapNode.Proofs.Blockwise.Account
import CoapNode.Proofs.Node.Sender
import CoapNode.Simulation.Node

set_option autoImplicit false

/-! # Fetches that share a node

Any number of fetches make their requests through one node. Taking the outcome of a transaction and
telling the fetch of it are two moves of a fleet, and others can come in between. In the meantime
the fetch waits, but its place is free, and its id may come to belong to another transaction, which
the fetch must not touch (`Fleet.place_lost_between`). So a member of a fleet is a fetch with what
has been taken for it, and holds nothing once that is something. Every move keeps this account, so it
holds of the whole fleet after every run (`Fleet.Accounted.run`).
-/

namespace CoapNode

open TransactionTable

variable {σ χ κ ω ε δ : Type}

/-- A fetch that shares a node with others, and what has been taken for it so far: outcomes of the
transaction that it waits for, of which it has not been told. -/
structure Fleet.Member where
  fetch : Fetch
  taken : List (Option Response)
deriving DecidableEq, Repr

/-- Fetches that make their requests through one node. -/
structure Fleet (σ χ κ ω : Type) where
  node : Node σ χ κ ω
  members : List Fleet.Member

/-- What can happen to a fleet. -/
inductive Fleet.Move (σ χ κ ω : Type) where
  /-- A fetch is told to start. -/
  | start (i : Nat)
  /-- The node takes a turn, and the outcome of the transaction that a fetch waits for is taken if
  there is one. -/
  | poll (i : Nat)
  /-- A fetch is told of an outcome that has been taken for it. -/
  | resume (i : Nat) (outcome : Option Response)
  /-- A fetch is stopped. -/
  | abandon (i : Nat)
  /-- The node takes a turn. -/
  | turn (observer : Observer ω)
  /-- Whatever is around the transactions of the node changes: what can be received and where to it
  is sent, the resources, the time, the configuration. -/
  | change (transport : Transport σ χ) (registry : Registry ω) (clock : κ) (world : ω)
    (config : Config)

namespace Fleet

namespace Member

/-- The place that a fetch holds: while it waits, and no outcome has been taken for it, the one of
the transaction that it waits for. -/
def held (member : Member) : List (MessageId × Endpoint) :=
  if member.taken.isEmpty then member.fetch.held else []

/-- **A member accounts for the table**: its places are held by the others that are given, and by
the member. An outcome is taken for a fetch that waits only, and the fetch has not been refused an
id for being in use. -/
structure Accounted (others : List (MessageId × Endpoint)) (member : Member)
    (node : Node σ χ κ ω) : Prop where
  places : node.layer.transactions.OccupiedBy (others ++ member.held)
  waits : member.taken ≠ [] → ∃ id, member.fetch.state = .awaiting id
  not_inUse : member.fetch.state ≠ .failed (.transactionUnavailable .inUse)

/-- **The id that the fetch waits with belongs to nobody else.** After the outcome has been taken,
another transaction may come by the id. -/
def Owns (member : Member) (node : Node σ χ κ ω) : Prop :=
  member.taken ≠ [] → ∀ slot ∈ member.fetch.held, node.layer.transactions.get? slot.1 = none

instance (member : Member) (node : Node σ χ κ ω) : Decidable (member.Owns node) :=
  inferInstanceAs (Decidable (_ → _))

variable {others : List (MessageId × Endpoint)} {member : Member} {node : Node σ χ κ ω}

theorem held_of_nil (h : member.taken = []) : member.held = member.fetch.held := by
  rw [held, h]
  rfl

theorem held_of_ne_nil (h : member.taken ≠ []) : member.held = [] := by
  rw [held, List.isEmpty_eq_false_iff.2 h]
  rfl

/-- As long as no outcome has been taken, the account is the one of the fetch. -/
theorem accounted_iff (htaken : member.taken = []) :
    member.Accounted others node ↔ member.fetch.Accounted others node where
  mp h := ⟨held_of_nil htaken ▸ h.places, h.not_inUse⟩
  mpr h := ⟨(held_of_nil htaken).symm ▸ h.places, fun hne => absurd htaken hne, h.not_inUse⟩

/-- Once an outcome has been taken, the table is left to the others. -/
theorem Accounted.places_of_taken (h : member.Accounted others node) (htaken : member.taken ≠ []) :
    node.layer.transactions.OccupiedBy others := by
  have hplaces := h.places
  rw [held_of_ne_nil htaken, List.append_nil] at hplaces
  exact hplaces

theorem Owns.get?_eq_none {id : MessageId} (h : member.Owns node) (htaken : member.taken ≠ [])
    (hid : member.fetch.state = .awaiting id) : node.layer.transactions.get? id = none :=
  h htaken (id, member.fetch.peer) (by simp [Fetch.held_awaiting hid])

variable [Socket σ ε] [SecureChannel χ δ] [Clock κ]

/-- A fetch that is told to start asks for its first block, unless it was started before. -/
def start (member : Member) (node : Node σ χ κ ω) : Member × Node σ χ κ ω :=
  let step := (member.fetch.resume node .start).value
  ({ member with fetch := step.fetch }, step.exchange)

/-- The node takes a turn, and the outcome is taken if there is one. -/
def poll (member : Member) (node : Node σ χ κ ω) : Member × Node σ χ κ ω :=
  match member.fetch.state with
  | .awaiting id =>
    match (Exchange.poll node id).value with
    | (.ok (.done outcome), node) => ({ member with taken := outcome :: member.taken }, node)
    | (_, node) => (member, node)
  | _ => (member, node)

/-- A fetch is told of one of the outcomes that have been taken for it. -/
def resume (outcome : Option Response) (member : Member) (node : Node σ χ κ ω) :
    Member × Node σ χ κ ω :=
  if outcome ∈ member.taken then
    let step := (member.fetch.resume node (.completed outcome)).value
    (⟨step.fetch, []⟩, step.exchange)
  else (member, node)

/-- A fetch is stopped. -/
def abandon (member : Member) (node : Node σ χ κ ω) : Member × Node σ χ κ ω :=
  let (fetch, node) := member.fetch.abandon node
  (⟨fetch, []⟩, node)

theorem Accounted.start (h : member.Accounted others node)
    (hroom : node.layer.transactions.size < 65536) :
    (member.start node).1.Accounted others (member.start node).2 := by
  unfold Member.start Fetch.resume
  split
  · next hidle _ =>
      -- a fetch that has not been started waits for nothing
      have htaken : member.taken = [] := by
        by_contra hne
        obtain ⟨id, hid⟩ := h.waits hne
        rw [hidle] at hid
        cases hid
      have hplaces := h.places
      rw [held_of_nil htaken, Fetch.held_of_ne (by simp [hidle]), List.append_nil] at hplaces
      refine (accounted_iff ?_).2 (Fetch.accounted_requestBlock hplaces hroom member.fetch).1
      exact htaken
  · next hevent => cases hevent
  · next hevent => cases hevent
  · exact h

/-- **Taking an outcome** leaves the table to the others. The fetch waits on, but it holds its place
no longer. -/
theorem Accounted.poll (h : member.Accounted others node) (howns : member.Owns node) :
    (member.poll node).1.Accounted others (member.poll node).2 := by
  rw [Member.poll]
  split
  · next id hid =>
      by_cases htaken : member.taken = []
      · have hpolled := ((accounted_iff htaken).1 h).polled hid
        generalize (Exchange.poll node id).value = polled at hpolled ⊢
        obtain ⟨result, next⟩ := polled
        obtain ⟨e, rfl, hsame⟩ | ⟨rfl, hsame⟩ | ⟨outcome, rfl, hplaces⟩ := hpolled
        · exact (accounted_iff htaken).2 hsame
        · exact (accounted_iff htaken).2 hsame
        · exact ⟨by simpa [held] using hplaces, fun _ => ⟨id, hid⟩, h.not_inUse⟩
      · -- the place is lost already, and the id is nobody's
        obtain ⟨hresult, hafter⟩ :=
          (h.places_of_taken htaken).node_poll_of_unused (howns.get?_eq_none htaken hid)
        generalize (Exchange.poll node id).value = polled at hresult hafter ⊢
        obtain ⟨result, next⟩ := polled
        obtain ⟨e, rfl⟩ | rfl := hresult
        · refine ⟨?_, h.waits, h.not_inUse⟩
          rw [held_of_ne_nil htaken, List.append_nil]
          exact hafter
        · exact ⟨by simpa [held] using hafter, fun _ => ⟨id, hid⟩, h.not_inUse⟩
  · exact h

/-- **A fetch that is told of its outcome** may win a place again. -/
theorem Accounted.resume (h : member.Accounted others node)
    (hroom : node.layer.transactions.size < 65536) (outcome : Option Response) :
    (member.resume outcome node).1.Accounted others (member.resume outcome node).2 := by
  rw [Member.resume]
  split
  · next hmem =>
      have htaken : member.taken ≠ [] := List.ne_nil_of_mem hmem
      obtain ⟨id, hid⟩ := h.waits htaken
      have hplaces := h.places_of_taken htaken
      rw [hplaces.size_eq] at hroom
      exact (accounted_iff rfl).2 (Fetch.accounted_completed hid hplaces hroom outcome).1
  · exact h

/-- **A fetch that is stopped** holds nothing. -/
theorem Accounted.abandon (h : member.Accounted others node) (howns : member.Owns node) :
    (member.abandon node).1.Accounted others (member.abandon node).2 := by
  rw [Member.abandon]
  by_cases htaken : member.taken = []
  · exact (accounted_iff rfl).2 ((accounted_iff htaken).1 h).abandon
  · obtain ⟨id, hid⟩ := h.waits htaken
    have hplaces := h.places_of_taken htaken
    rw [Fetch.abandon, hid]
    exact (accounted_iff rfl).2
      (Fetch.accounted_noResponse (hplaces.node_cancel_of_unused (howns.get?_eq_none htaken hid)))

end Member

/-- The places that the fetches hold. -/
def held (fleet : Fleet σ χ κ ω) : List (MessageId × Endpoint) := fleet.members.flatMap Member.held

/-- Let one of the members act on the node; nothing happens if there is no such member. -/
def act (fleet : Fleet σ χ κ ω) (i : Nat)
    (step : Member → Node σ χ κ ω → Member × Node σ χ κ ω) : Fleet σ χ κ ω :=
  match fleet.members[i]? with
  | none => fleet
  | some member =>
    let (member, node) := step member fleet.node
    ⟨node, fleet.members.set i member⟩

/-- **A fleet accounts for the table**: its places are held by those that held them before, and by
the fetches. -/
structure Accounted (before : List (MessageId × Endpoint)) (fleet : Fleet σ χ κ ω) : Prop where
  places : fleet.node.layer.transactions.OccupiedBy (before ++ fleet.held)
  waits : ∀ member ∈ fleet.members, member.taken ≠ [] → ∃ id, member.fetch.state = .awaiting id
  not_inUse : ∀ member ∈ fleet.members,
    member.fetch.state ≠ .failed (.transactionUnavailable .inUse)

variable {before : List (MessageId × Endpoint)} {fleet : Fleet σ χ κ ω}

/-- The place of one member can be told apart from those of the others. -/
theorem exists_others {members : List Member} {i : Nat} {member : Member}
    (h : members[i]? = some member) :
    ∃ others, (members.flatMap Member.held).Perm (others ++ member.held)
      ∧ ∀ member', ((members.set i member').flatMap Member.held).Perm (others ++ member'.held) := by
  obtain ⟨hi, hmember⟩ := List.getElem?_eq_some_iff.1 h
  have hlast (member' : Member) :
      ((members.take i ++ member' :: members.drop (i + 1)).flatMap Member.held).Perm
        ((members.take i).flatMap Member.held ++ (members.drop (i + 1)).flatMap Member.held
          ++ member'.held) := by
    rw [List.flatMap_append, List.flatMap_cons, List.append_assoc]
    exact List.perm_append_comm.append_left _
  refine ⟨(members.take i).flatMap Member.held ++ (members.drop (i + 1)).flatMap Member.held, ?_,
    fun member' => ?_⟩
  · have hsplit : members = members.take i ++ member :: members.drop (i + 1) := by
      rw [← hmember, List.getElem_cons_drop, List.take_append_drop]
    exact (List.Perm.of_eq (congrArg (List.flatMap Member.held) hsplit)).trans (hlast member)
  · rw [List.set_eq_take_append_cons_drop, if_pos hi]
    exact hlast member'

/-- What every single member keeps, whatever the others hold, the fleet keeps. -/
theorem Accounted.act (h : fleet.Accounted before) (i : Nat)
    {step : Member → Node σ χ κ ω → Member × Node σ χ κ ω}
    (hstep : ∀ others member, fleet.members[i]? = some member →
      member.Accounted others fleet.node →
        (step member fleet.node).1.Accounted others (step member fleet.node).2) :
    (fleet.act i step).Accounted before := by
  rw [Fleet.act]
  split
  · exact h
  · next member hget =>
      -- for the member that acts, what the other members hold belongs to the others
      have hmem := List.mem_of_getElem? hget
      obtain ⟨others, hperm, hset⟩ := exists_others hget
      have hplaces := h.places.perm (hperm.append_left before)
      rw [← List.append_assoc] at hplaces
      obtain ⟨hafter, hwaits, hinUse⟩ := hstep (before ++ others) member hget
        ⟨hplaces, h.waits member hmem, h.not_inUse member hmem⟩
      rw [List.append_assoc] at hafter
      refine ⟨hafter.perm ((hset _).symm.append_left before), fun member' hmember' => ?_,
        fun member' hmember' => ?_⟩
      · rcases List.mem_or_eq_of_mem_set hmember' with hold | rfl
        · exact h.waits member' hold
        · exact hwaits
      · rcases List.mem_or_eq_of_mem_set hmember' with hold | rfl
        · exact h.not_inUse member' hold
        · exact hinUse

/-- Fetches that have not been started hold nothing. -/
theorem accounted_idle
    (hidle : ∀ member ∈ fleet.members, member.fetch.state = .idle ∧ member.taken = [])
    (hd : fleet.node.layer.transactions.Distinct) :
    fleet.Accounted fleet.node.layer.transactions.holders where
  places := by
    have hheld : fleet.held = [] := by
      refine List.flatMap_eq_nil_iff.2 fun member hmember => ?_
      obtain ⟨hstate, htaken⟩ := hidle member hmember
      rw [Member.held, htaken]
      exact Fetch.held_of_ne (by simp [hstate])
    rw [hheld, List.append_nil]
    exact ⟨hd, List.Perm.refl _⟩
  waits member hmember htaken := absurd (hidle member hmember).2 htaken
  not_inUse member hmember := by simp [(hidle member hmember).1]

/-- The fleet with more fetches behind its own. -/
def join (fleet : Fleet σ χ κ ω) (rest : List Member) : Fleet σ χ κ ω :=
  { fleet with members := fleet.members ++ rest }

@[simp] theorem node_join (rest : List Member) : (fleet.join rest).node = fleet.node := rfl

theorem getElem?_join {i : Nat} (h : i < fleet.members.length) (rest : List Member) :
    (fleet.join rest).members[i]? = fleet.members[i]? :=
  List.getElem?_append_left h

theorem act_join {i : Nat} (h : i < fleet.members.length)
    (step : Member → Node σ χ κ ω → Member × Node σ χ κ ω) (rest : List Member) :
    (fleet.join rest).act i step = (fleet.act i step).join rest := by
  rw [act, act, getElem?_join h, List.getElem?_eq_getElem h]
  show Fleet.mk _ ((fleet.members ++ rest).set i _) = Fleet.mk _ (fleet.members.set i _ ++ rest)
  rw [List.set_append_left _ _ h]
  rfl

theorem length_act (fleet : Fleet σ χ κ ω) (i : Nat)
    (step : Member → Node σ χ κ ω → Member × Node σ χ κ ω) :
    (fleet.act i step).members.length = fleet.members.length := by
  rw [act]
  split
  · rfl
  · exact List.length_set

variable [Socket σ ε] [SecureChannel χ δ] [Clock κ]

/-- The fleet after a move. -/
def move (fleet : Fleet σ χ κ ω) : Move σ χ κ ω → Fleet σ χ κ ω
  | .start i => fleet.act i Member.start
  | .poll i => fleet.act i Member.poll
  | .resume i outcome => fleet.act i (Member.resume outcome)
  | .abandon i => fleet.act i Member.abandon
  | .turn observer => { fleet with node := (fleet.node.pollWith observer).value.2 }
  | .change transport registry clock world config =>
    { fleet with
      node := ⟨transport, ⟨registry, fleet.node.layer.transactions, clock, world, config⟩⟩ }

/-- The fleet after a list of moves, first move first. -/
def run (fleet : Fleet σ χ κ ω) (moves : List (Move σ χ κ ω)) : Fleet σ χ κ ω :=
  moves.foldl move fleet

/-- **A move that meddles with no other transaction.** A fetch whose outcome has been taken already
is polled or stopped only while no transaction has the id that it waits for. -/
def Allows (fleet : Fleet σ χ κ ω) : Move σ χ κ ω → Prop
  | .poll i | .abandon i => ∀ member ∈ fleet.members[i]?, member.Owns fleet.node
  | _ => True

instance (fleet : Fleet σ χ κ ω) : DecidablePred fleet.Allows
  | .poll i => inferInstanceAs (Decidable (∀ member ∈ fleet.members[i]?, member.Owns fleet.node))
  | .abandon i => inferInstanceAs (Decidable (∀ member ∈ fleet.members[i]?, member.Owns fleet.node))
  | .start _ | .resume .. | .turn _ | .change .. => .isTrue trivial

/-- **Every move keeps the account**, if the table has not run out of ids and the move meddles with
no other transaction. -/
theorem Accounted.move (h : fleet.Accounted before)
    (hroom : fleet.node.layer.transactions.size < 65536) (move : Move σ χ κ ω)
    (hallows : fleet.Allows move) : (fleet.move move).Accounted before := by
  cases move with
  | start i => exact h.act i fun others member _ hmember => hmember.start hroom
  | poll i => exact h.act i fun others member hget hmember => hmember.poll (hallows member hget)
  | resume i outcome => exact h.act i fun others member _ hmember => hmember.resume hroom outcome
  | abandon i =>
      exact h.act i fun others member hget hmember => hmember.abandon (hallows member hget)
  | turn observer =>
      exact ⟨h.places.passes (fleet.node.passes_pollWith observer), h.waits, h.not_inUse⟩
  | change transport registry clock world config => exact ⟨h.places, h.waits, h.not_inUse⟩

/-- **A list of moves that can be made**: fewer than `2 ^ 16` transactions are in the table at any
time, and no move meddles with a transaction that is not its own. -/
def Permits (fleet : Fleet σ χ κ ω) : List (Move σ χ κ ω) → Prop
  | [] => fleet.node.layer.transactions.size < 65536
  | move :: moves =>
    fleet.node.layer.transactions.size < 65536 ∧ fleet.Allows move ∧ (fleet.move move).Permits moves

instance decidablePermits (fleet : Fleet σ χ κ ω) :
    (moves : List (Move σ χ κ ω)) → Decidable (fleet.Permits moves)
  | [] => inferInstanceAs (Decidable (_ < _))
  | move :: moves =>
    have := decidablePermits (fleet.move move) moves
    inferInstanceAs (Decidable (_ ∧ _ ∧ _))

theorem Accounted.run (h : fleet.Accounted before) {moves : List (Move σ χ κ ω)}
    (hpermits : fleet.Permits moves) :
    (fleet.run moves).Accounted before
      ∧ (fleet.run moves).node.layer.transactions.size < 65536 := by
  induction moves generalizing fleet with
  | nil => exact ⟨h, hpermits⟩
  | cons move moves ih =>
      obtain ⟨hroom, hallows, hrest⟩ := hpermits
      exact ih (h.move hroom move hallows) hrest

/-! ## Fetches behind the others -/

/-- The fetch that a move concerns, if there is one, is among the first `k`. -/
def Move.Within (k : Nat) : Move σ χ κ ω → Prop
  | .start i | .poll i | .resume i _ | .abandon i => i < k
  | .turn _ | .change .. => True

instance (k : Nat) : DecidablePred (@Move.Within σ χ κ ω k)
  | .start i | .poll i | .resume i _ | .abandon i => inferInstanceAs (Decidable (i < k))
  | .turn _ | .change .. => .isTrue trivial

theorem length_move (fleet : Fleet σ χ κ ω) (move : Move σ χ κ ω) :
    (fleet.move move).members.length = fleet.members.length := by
  cases move with
  | start | poll | resume | abandon => exact fleet.length_act _ _
  | turn | change => rfl

theorem move_join {move : Move σ χ κ ω} (h : move.Within fleet.members.length)
    (rest : List Member) :
    (fleet.join rest).move move = (fleet.move move).join rest
      ∧ (fleet.Allows move → (fleet.join rest).Allows move) := by
  cases move with
  | start i => exact ⟨act_join h Member.start rest, id⟩
  | resume i outcome => exact ⟨act_join h (Member.resume outcome) rest, id⟩
  | poll i =>
      refine ⟨act_join h Member.poll rest, fun hallows => ?_⟩
      rw [Allows, getElem?_join h]
      exact hallows
  | abandon i =>
      refine ⟨act_join h Member.abandon rest, fun hallows => ?_⟩
      rw [Allows, getElem?_join h]
      exact hallows
  | turn | change => exact ⟨rfl, id⟩

/-- **Fetches that nothing is done with** make no difference to the others. -/
theorem run_join {moves : List (Move σ χ κ ω)}
    (h : ∀ move ∈ moves, move.Within fleet.members.length) (rest : List Member) :
    (fleet.join rest).run moves = (fleet.run moves).join rest
      ∧ (fleet.Permits moves → (fleet.join rest).Permits moves) := by
  induction moves generalizing fleet with
  | nil => exact ⟨rfl, id⟩
  | cons move moves ih =>
      obtain ⟨hmove, hmoves⟩ := List.forall_mem_cons.1 h
      rw [← fleet.length_move move] at hmoves
      obtain ⟨hsame, hallows⟩ := move_join hmove rest
      obtain ⟨hrun, hpermits⟩ := ih hmoves
      refine ⟨?_, fun ⟨hroom, hallowed, hrest⟩ => ⟨hroom, hallows hallowed, ?_⟩⟩
      · show ((fleet.join rest).move move).run moves = _
        rw [hsame, hrun]
        rfl
      · rw [hsame]
        exact hpermits hrest

theorem run_append (fleet : Fleet σ χ κ ω) (moves moves' : List (Move σ χ κ ω)) :
    fleet.run (moves ++ moves') = (fleet.run moves).run moves' :=
  List.foldl_append

theorem Permits.append {moves moves' : List (Move σ χ κ ω)} (h : fleet.Permits moves)
    (h' : (fleet.run moves).Permits moves') : fleet.Permits (moves ++ moves') := by
  induction moves generalizing fleet with
  | nil => exact h'
  | cons move moves ih =>
      obtain ⟨hroom, hallows, hrest⟩ := h
      exact ⟨hroom, hallows, ih hrest h'⟩

/-! ## Fetches for which there is no room -/

/-- The fetch has been started, but there was no room for its request. -/
def Member.refused (member : Member) : Member :=
  { member with fetch := member.fetch.enter (.failed (.transactionUnavailable .full)) }

variable {node : Node σ χ κ ω} {n : Nat}

theorem Member.start_of_crowded {member : Member} (hidle : member.fetch.state = .idle)
    (h : node.Crowded (n + 1)) : member.start node = (member.refused, node.skip 1) := by
  simp [Member.start, Fetch.resume, hidle, Fetch.requestBlock, Node.nextId_of_crowded h,
    Node.allocate_of_crowded h]
  rfl

/-- **Fetches that are started for nothing** use up one id each. -/
theorem run_starts {idle : List Member} (hidle : ∀ member ∈ idle, member.fetch.state = .idle)
    (front : List Member) (h : node.Crowded idle.length) :
    let fleet : Fleet σ χ κ ω := ⟨node, front ++ idle⟩
    let starts := (List.range' front.length idle.length).map Move.start
    fleet.run starts = ⟨node.skip idle.length, front ++ idle.map Member.refused⟩
      ∧ fleet.Permits starts := by
  induction idle generalizing front node with
  | nil => exact ⟨by simp [run, node.skip_zero], h.few⟩
  | cons member idle ih =>
      obtain ⟨hmember, hrest⟩ := List.forall_mem_cons.1 hidle
      have hmove : (⟨node, front ++ member :: idle⟩ : Fleet σ χ κ ω).move (.start front.length)
          = ⟨node.skip 1, (front ++ [member.refused]) ++ idle⟩ := by
        show Fleet.act _ front.length Member.start = _
        rw [act]
        simp [Member.start_of_crowded hmember h]
      obtain ⟨hrun, hpermits⟩ := ih hrest (front ++ [member.refused]) h.skip
      rw [List.length_append, List.length_singleton] at hrun hpermits
      rw [List.length_cons, List.range'_succ, List.map_cons]
      refine ⟨?_, h.few, trivial, ?_⟩
      · show Fleet.run (Fleet.move _ _) _ = _
        rw [hmove, hrun, node.skip_skip]
        simp
      · rw [hmove]
        exact hpermits

/-! ## Main result -/

open Simulation TransactionTable

/-- A node that has sent a request and has room for one more, with fetches that have not been
started. -/
def sampleFleet : Except LayerError (Fleet MemorySocket OpenChannel ManualClock World) :=
  Node.sampleNode.map fun node =>
    ⟨node, List.replicate 3 ⟨.new ⟨sampleRequest 7⟩ Node.sampleSecurePeer {}, []⟩⟩

/-- Much later, when the delays of all attempts are over. -/
def sampleLate : Move MemorySocket OpenChannel ManualClock World :=
  .change (MemoryTransport.ofChannel {} (some ⟨.greeting, false, [Node.sampleSecurePeer]⟩) 1152)
    (.empty 4) { now := 1000000 } {} { con := sampleCon }

/-- The second fetch finds no place. The third one finds the place of the first one, whose outcome
has been taken and who is told of it later. -/
def sampleMoves : List (Move MemorySocket OpenChannel ManualClock World) :=
  [.start 0, .start 1, sampleLate, .turn .idle, .poll 0, .poll 0, .start 2, .resume 0 none]

/-- A fetch that has not been started. -/
def sampleMember : Member := ⟨.new ⟨sampleRequest 7⟩ samplePeer {}, []⟩

/-- A node with room for one transaction, with three fetches. -/
def sampleTrio : Fleet MemorySocket OpenChannel ManualClock World where
  node := ⟨MemoryTransport.ofChannel {} none 1152,
    ⟨.empty 0, .new 1 0, {}, {}, { con := sampleCon }⟩⟩
  members := List.replicate 3 sampleMember

/-- The node with more fetches, nearly as many as there are message ids. -/
def sampleCrowd : Fleet MemorySocket OpenChannel ManualClock World :=
  sampleTrio.join (List.replicate 65534 sampleMember)

/-- The first fetch is started, and its outcome is taken when all attempts are over. -/
def sampleTaken : List (Move MemorySocket OpenChannel ManualClock World) :=
  [.start 0, sampleLate, .poll 0, .poll 0, .poll 0]

/-- Then the second fetch gets the place of the first one. -/
def sampleFilled : List (Move MemorySocket OpenChannel ManualClock World) :=
  sampleTaken ++ [.start 1]

/-- The second fetch is stopped, and the third one gets its place. -/
def sampleFreed : List (Move MemorySocket OpenChannel ManualClock World) := [.abandon 1, .start 2]

/-- All of this, with the fetches behind the third one started for nothing in between. -/
def sampleReused : List (Move MemorySocket OpenChannel ManualClock World) :=
  sampleFilled ++ (List.range' 3 65534).map .start ++ sampleFreed

/-- The trio when the others have used up their ids. -/
def samplePassed : Fleet MemorySocket OpenChannel ManualClock World :=
  { sampleTrio.run sampleFilled with node := (sampleTrio.run sampleFilled).node.skip 65534 }

/-- The second fetch has the only place, and its id is the last one that would be chosen again. -/
theorem crowded_sampleTrio : (sampleTrio.run sampleFilled).node.Crowded 65534 where
  fits := by decide +kernel
  full := by decide +kernel
  few := by decide +kernel
  unused j hj := by
    generalize htable : (sampleTrio.run sampleFilled).node.layer.transactions = table
    have hids : table.live.map (·.id) = [table.counter + UInt16.ofNat 65535] := by
      rw [← htable]
      decide +kernel
    refine get?_eq_none_iff.2 fun t ht heq => ?_
    have hid : t.id ∈ table.live.map (·.id) := List.mem_map_of_mem ht
    rw [hids, List.mem_singleton, heq, add_ofNat_inj _ (by omega) (by omega)] at hid
    omega

/-- The trio moves as if it were alone, but for the ids that the others use up. -/
theorem run_sampleReused {others : List Member}
    (hidle : ∀ member ∈ others, member.fetch.state = .idle) (hlength : others.length = 65534) :
    (sampleTrio.join others).run sampleReused
        = (samplePassed.run sampleFreed).join (others.map Member.refused)
      ∧ (sampleTrio.join others).Permits sampleReused := by
  have hwithin : ∀ move ∈ sampleFilled, move.Within sampleTrio.members.length := by decide
  have hwithin' : ∀ move ∈ sampleFreed, move.Within samplePassed.members.length := by
    decide +kernel
  have htrio : (sampleTrio.run sampleFilled).members.length = 3 := by decide +kernel
  obtain ⟨hfilled, hpermits⟩ := run_join hwithin others
  obtain ⟨hstarted, hpermits'⟩ := run_starts hidle (sampleTrio.run sampleFilled).members
    (hlength ▸ crowded_sampleTrio)
  obtain ⟨hfreed, hpermits''⟩ := run_join hwithin' (others.map Member.refused)
  rw [htrio, hlength] at hstarted hpermits'
  rw [sampleReused, run_append, run_append, hfilled]
  refine ⟨(congrArg (run · sampleFreed) hstarted).trans hfreed,
    .append (.append (hpermits (by decide +kernel)) ?_) ?_⟩
  · rw [hfilled]
    exact hpermits'
  · rw [run_append, hfilled]
    refine (congrArg (Permits · sampleFreed) hstarted).mpr (hpermits'' ?_)
    decide +kernel

end Fleet

end CoapNode
