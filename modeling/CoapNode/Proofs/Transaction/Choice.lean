import CoapNode.Proofs.Transaction.Run
import Mathlib.Algebra.GroupWithZero.Nat
import Mathlib.Data.List.Perm.Subperm

set_option autoImplicit false

/-! # Choosing message ids

An id is chosen by trying one id after the other, from the counter on, until one is not in use. How
long that takes is up to the transactions in the table, so the search is stated here turn by turn
and without a bound (`TransactionTable.search`). The ids that are tried do not repeat before all
`2 ^ 16` of them have been tried (`nodup_successiveIds`). So one of them is free as long as fewer
transactions are in the table, and the search ends with the first one (`search_nextId`).

Only a choice moves the counter, and it moves it past the ids that it has tried. So the ids that are
chosen along a run lie one behind the other in the cyclic order of the ids, and do not repeat before
the counter has been all around (`nodup_choices`).
-/

namespace CoapNode.TransactionTable

variable {table table' : TransactionTable} {op : Operation} {ops : List Operation}
  {id : MessageId} {peer : Endpoint}

/-! ## Successive ids -/

/-- The ids from the next one on are those from `id` on, but for the first. -/
theorem succ_add_ofNat (id : MessageId) (i : Nat) :
    id + 1 + UInt16.ofNat i = id + UInt16.ofNat (i + 1) := by
  rw [UInt16.ofNat_add, UInt16.add_comm (UInt16.ofNat i), UInt16.add_assoc]
  rfl

/-- Fewer than `2 ^ 16` steps from one id lead to different ids. -/
theorem add_ofNat_inj (id : MessageId) {i j : Nat} (hi : i < 65536) (hj : j < 65536) :
    id + UInt16.ofNat i = id + UInt16.ofNat j ↔ i = j := by
  rw [UInt16.add_right_inj]
  refine ⟨fun h => ?_, congrArg _⟩
  rw [← UInt16.toNat_ofNat_of_lt' hi, ← UInt16.toNat_ofNat_of_lt' hj, h]

/-- Fewer than `2 ^ 16` successive ids do not repeat. -/
theorem nodup_successiveIds (id : MessageId) {n : Nat} (h : n ≤ 65536) :
    ((List.range n).map fun i => id + UInt16.ofNat i).Nodup := by
  refine List.Nodup.map_on (fun i hi j hj heq => ?_) List.nodup_range
  rw [List.mem_range] at hi hj
  exact (add_ofNat_inj id (Nat.lt_of_lt_of_le hi h) (Nat.lt_of_lt_of_le hj h)).1 heq

/-! ## One choice -/

/-- **The ids that are tried**: the chosen id is the first one from `id` on that is not in use, or
all ids before it are in use and no tries are left. -/
theorem freeId_cases (used : List MessageId) (id : MessageId) (tries : Nat) :
    ∃ n ≤ tries, freeId used id tries = id + UInt16.ofNat n
      ∧ (∀ i < n, id + UInt16.ofNat i ∈ used)
      ∧ (n < tries → id + UInt16.ofNat n ∉ used) := by
  induction tries generalizing id with
  | zero => exact ⟨0, Nat.le_refl 0, (UInt16.add_zero id).symm, nofun, nofun⟩
  | succ tries ih =>
      rw [freeId]
      split
      · next hused =>
          obtain ⟨n, hn, heq, hbefore, hfree⟩ := ih (id + 1)
          refine ⟨n + 1, Nat.succ_le_succ hn, heq.trans (succ_add_ofNat id n), fun i hi => ?_,
            fun hlt => ?_⟩
          · cases i with
            | zero => exact (UInt16.add_zero id).symm ▸ hused
            | succ i => exact succ_add_ofNat id i ▸ hbefore i (Nat.lt_of_succ_lt_succ hi)
          · exact succ_add_ofNat id n ▸ hfree (Nat.lt_of_succ_lt_succ hlt)
      · next hfree =>
          refine ⟨0, Nat.zero_le _, (UInt16.add_zero id).symm, nofun, fun _ => ?_⟩
          exact (UInt16.add_zero id).symm ▸ hfree

/-- With as many tries as there are ids in use, the chosen id is free. -/
theorem freeId_notMem {used : List MessageId} {tries : Nat} (hlen : used.length ≤ tries)
    (hlt : tries < 65536) (id : MessageId) : freeId used id tries ∉ used := by
  obtain ⟨n, hn, heq, hbefore, hfree⟩ := freeId_cases used id tries
  rw [heq]
  rcases Nat.lt_or_eq_of_le hn with hlt' | rfl
  · exact hfree hlt'
  · intro hmem
    -- otherwise all the ids that were tried are in use, and these are too many
    have hall : ((List.range (n + 1)).map fun i => id + UInt16.ofNat i) ⊆ used := by
      intro k hk
      obtain ⟨i, hi, rfl⟩ := List.mem_map.1 hk
      rcases Nat.lt_or_eq_of_le (Nat.le_of_lt_succ (List.mem_range.1 hi)) with hi | rfl
      · exact hbefore i hi
      · exact hmem
    have hcount := ((nodup_successiveIds id hlt).subperm hall).length_le
    rw [List.length_map, List.length_range] at hcount
    omega

/-- **A chosen id belongs to no transaction**, so it is never refused for being in use. -/
theorem get?_nextId (h : table.size < 65536) : table.get? table.nextId.1 = none := by
  have hfree : table.nextId.1 ∉ table.live.map (·.id) :=
    freeId_notMem (Nat.le_of_eq (List.length_map _)) h table.counter
  rw [get?_eq_none_iff]
  exact fun t ht heq => hfree (heq ▸ List.mem_map_of_mem ht)

theorem allocate_ne_inUse (h : table.get? id = none) (peer : Endpoint) :
    (table.allocate id peer).value.1 ≠ .error .inUse := by
  rw [allocate, h]
  cases table.slots.insert? table.capacity (.new id peer) <;> simp

/-- How many ids a choice passes over. -/
def skipped (table : TransactionTable) : Nat := (table.nextId.1 - table.counter).toNat

theorem skipped_lt (table : TransactionTable) : table.skipped < 65536 :=
  (table.nextId.1 - table.counter).toNat_lt

theorem nextId_eq (table : TransactionTable) :
    table.nextId
      = (table.counter + UInt16.ofNat table.skipped,
        { table with counter := table.counter + UInt16.ofNat (table.skipped + 1) }) := by
  have hid : table.nextId.1 = table.counter + UInt16.ofNat table.skipped := by
    rw [skipped, UInt16.ofNat_toNat, UInt16.add_comm, UInt16.sub_add_cancel]
  have hsucc : table.nextId.1 + 1 = table.counter + UInt16.ofNat (table.skipped + 1) := by
    rw [hid, UInt16.ofNat_add, UInt16.add_assoc]
    rfl
  rw [← hid, ← hsucc]
  rfl

/-- **The ids that are passed over** are in use, and there are no more of them than transactions. -/
theorem skipped_spec (h : table.size < 65536) :
    table.skipped ≤ table.size
      ∧ ∀ i < table.skipped, (table.get? (table.counter + UInt16.ofNat i)).isSome = true := by
  obtain ⟨n, hn, heq, hbefore, -⟩ :=
    freeId_cases (table.live.map (·.id)) table.counter table.size
  have hskipped : table.skipped = n := by
    have hid : table.counter + UInt16.ofNat table.skipped = table.counter + UInt16.ofNat n :=
      (congrArg Prod.fst table.nextId_eq).symm.trans heq
    exact (add_ofNat_inj _ table.skipped_lt (Nat.lt_of_le_of_lt hn h)).1 hid
  rw [hskipped]
  refine ⟨hn, fun i hi => ?_⟩
  obtain ⟨t, ht, hid⟩ := List.mem_map.1 (hbefore i hi)
  rw [Option.isSome_iff_ne_none, Ne, get?_eq_none_iff]
  exact fun hnone => hnone t ht hid

/-! ## The search, turn by turn -/

/-- **One turn of the search for an id**: the counter moves on, and the id that it stood at is the
answer unless it is in use. -/
def tryId (table : TransactionTable) : Option MessageId × TransactionTable :=
  (if (table.get? table.counter).isSome then none else some table.counter,
    { table with counter := table.counter + 1 })

/-- **What the search has come to after a number of turns**: the first free id, and the table as the
search leaves it, or nothing as long as all ids that were tried are in use. -/
def search (table : TransactionTable) : Nat → Option (MessageId × TransactionTable)
  | 0 => none
  | turns + 1 =>
    match table.tryId with
    | (some id, table) => some (id, table)
    | (none, table) => table.search turns

/-- The search goes on over ids that are in use, and ends with the first one that is free. -/
theorem search_of_passed {n : Nat}
    (hpassed : ∀ i < n, (table.get? (table.counter + UInt16.ofNat i)).isSome = true)
    (hfree : table.get? (table.counter + UInt16.ofNat n) = none) (turns : Nat) :
    table.search turns
      = if n < turns then some (table.counter + UInt16.ofNat n,
          { table with counter := table.counter + UInt16.ofNat (n + 1) })
        else none := by
  induction turns generalizing table n with
  | zero => rfl
  | succ turns ih =>
      rw [search, tryId]
      cases n with
      | zero =>
          have hcounter : table.counter + UInt16.ofNat 0 = table.counter := UInt16.add_zero _
          rw [hcounter] at hfree ⊢
          rw [hfree]
          rfl
      | succ n =>
          have hused : (table.get? table.counter).isSome = true := by
            simpa using hpassed 0 (Nat.succ_pos n)
          rw [hused]
          -- the table with the next counter has the same transactions
          have hrest := @ih { table with counter := table.counter + 1 } n
            (fun i hi => succ_add_ofNat table.counter i ▸ hpassed (i + 1) (Nat.succ_lt_succ hi))
            (succ_add_ofNat table.counter n ▸ hfree)
          simp only [succ_add_ofNat] at hrest
          simpa using hrest

/-- **The search ends with the chosen id**, in the turn behind the ids that are passed over. -/
theorem search_nextId (h : table.size < 65536) (turns : Nat) :
    table.search turns = if table.skipped < turns then some table.nextId else none := by
  have hfree := get?_nextId h
  rw [nextId_eq] at hfree ⊢
  exact search_of_passed (skipped_spec h).2 hfree turns

/-! ## The choices of a run -/

/-- **The tables that a run chooses ids from**, first choice first. -/
def choices (table : TransactionTable) (ops : List Operation) : List TransactionTable :=
  ((table.history ops).filter (·.2 = .nextId)).map Prod.fst

/-- Only a choice moves the counter. -/
theorem counter_step (hop : op ≠ .nextId) (h : (table.step op).value = .ok table') :
    table'.counter = table.counter := by
  cases op with
  | nextId => exact absurd rfl hop
  | nextToken | poll | cancel =>
      obtain rfl := Except.ok.inj h
      rfl
  | allocate id peer =>
      rcases step_allocate h with rfl | h
      · rfl
      · obtain ⟨-, slots, -, rfl⟩ := slots_allocate h
        rfl
  | send id msg con now =>
      rcases step_send h with ⟨-, rfl⟩ | h
      · rfl
      · rw [value_send] at h
        split at h
        · cases h
        · split at h
          · cases h
          · obtain ⟨-, rfl⟩ := Prod.mk.inj h
            rfl
  | receive msg con now =>
      obtain ⟨answer, h⟩ := step_receive h
      rcases slots_onResponse h with ⟨-, rfl, -⟩ | ⟨t, t', front, back, -, -, -, -, -, rfl⟩ <;> rfl
  | take id =>
      obtain rfl := Except.ok.inj h
      rw [take]
      split
      · rfl
      · split <;> rfl

theorem choices_nextId (table : TransactionTable) (ops : List Operation) :
    table.choices (.nextId :: ops) = table :: table.nextId.2.choices ops :=
  rfl

theorem choices_of_ne (hop : op ≠ .nextId) (h : (table.step op).value = .ok table') :
    table.choices (op :: ops) = table'.choices ops := by
  simp [choices, history_cons h, hop]

theorem choices_of_error {e : DelayError} (hop : op ≠ .nextId)
    (h : (table.step op).value = .error e) : table.choices (op :: ops) = [] := by
  simp [choices, history, h, hop]

/-- **The ids that are chosen along a run** are reached from the counter, in as many steps as the
counter moves along the run, and each in its own number of steps. -/
theorem exists_steps (table : TransactionTable) (ops : List Operation) :
    ∃ steps : List Nat, (table.choices ops).map (·.nextId.1)
        = steps.map (table.counter + UInt16.ofNat ·)
      ∧ steps.Nodup ∧ ∀ i ∈ steps, i < ((table.choices ops).map (·.skipped + 1)).sum := by
  induction ops generalizing table with
  | nil => exact ⟨[], rfl, List.nodup_nil, nofun⟩
  | cons op ops ih =>
      by_cases hop : op = .nextId
      · subst hop
        obtain ⟨steps, hids, hnodup, hlt⟩ := ih table.nextId.2
        rw [choices_nextId]
        -- the later choices begin behind the id that is chosen first
        refine ⟨table.skipped :: steps.map (table.skipped + 1 + ·), ?_, ?_, ?_⟩
        · rw [List.map_cons, List.map_cons, hids, List.map_map, nextId_eq]
          congr 1
          refine List.map_congr_left fun i _ => ?_
          show table.counter + UInt16.ofNat (table.skipped + 1) + UInt16.ofNat i = _
          rw [UInt16.add_assoc, ← UInt16.ofNat_add]
          rfl
        · rw [List.nodup_cons]
          refine ⟨fun hmem => ?_, hnodup.map fun _ _ => Nat.add_left_cancel⟩
          obtain ⟨i, -, hi⟩ := List.mem_map.1 hmem
          omega
        · intro i hi
          rw [List.map_cons, List.sum_cons]
          rcases List.mem_cons.1 hi with rfl | hi
          · omega
          · obtain ⟨j, hj, rfl⟩ := List.mem_map.1 hi
            have hlt' := hlt j hj
            omega
      · cases h : (table.step op).value with
        | error e => exact ⟨[], by rw [choices_of_error hop h]; rfl, List.nodup_nil, nofun⟩
        | ok next =>
            rw [choices_of_ne hop h, ← counter_step hop h]
            exact ih next

/-- **Chosen ids do not repeat** before the counter has moved more than `2 ^ 16` steps. -/
theorem nodup_choices (h : ((table.choices ops).map (·.skipped + 1)).sum ≤ 65536) :
    ((table.choices ops).map (·.nextId.1)).Nodup := by
  obtain ⟨steps, hids, hnodup, hlt⟩ := table.exists_steps ops
  rw [hids]
  refine hnodup.map_on fun i hi j hj heq => ?_
  exact (add_ofNat_inj _ (Nat.lt_of_lt_of_le (hlt i hi) h)
    (Nat.lt_of_lt_of_le (hlt j hj) h)).1 heq

/-! ## Main result -/

/-- **A choice finds the first free id, and choices do not repeat.** As long as fewer than `2 ^ 16`
transactions are in the table, the search ends in the turn behind the ids that it passes over, and
these are no more than there are transactions. The id that is chosen is as many steps from the
counter, all ids before it are in use, and it is not. Nothing changes but the counter, which is left
at the next id; so entering a transaction with the chosen id is not refused for an id in use.
Whatever operations are performed on whatever table, the ids that are chosen are different from each
other if the counter moves by `2 ^ 16` steps in all at most. -/
theorem ids_chosen (table : TransactionTable) :
    (table.size < 65536 →
      (∀ turns, table.search turns = if table.skipped < turns then some table.nextId else none)
      ∧ table.skipped ≤ table.size
      ∧ table.nextId.1 = table.counter + UInt16.ofNat table.skipped
      ∧ (∀ i < table.skipped, (table.get? (table.counter + UInt16.ofNat i)).isSome = true)
      ∧ table.get? table.nextId.1 = none
      ∧ table.nextId.2 = { table with counter := table.nextId.1 + 1 }
      ∧ ∀ peer, (table.nextId.2.allocate table.nextId.1 peer).value.1 ≠ .error .inUse)
    ∧ ∀ ops, ((table.choices ops).map (·.skipped + 1)).sum ≤ 65536 →
        ((table.choices ops).map (·.nextId.1)).Nodup := by
  refine ⟨fun h => ?_, fun ops hsum => nodup_choices hsum⟩
  obtain ⟨hle, hpassed⟩ := skipped_spec h
  have hfree := get?_nextId h
  -- the table with the next counter has the same transactions
  have hfree' : table.nextId.2.get? table.nextId.1 = none := hfree
  exact ⟨search_nextId h, hle, congrArg Prod.fst table.nextId_eq, hpassed, hfree, rfl,
    fun peer => allocate_ne_inUse hfree' peer⟩

/-- A table with the last id and the first one in use, and the counter at the last one. -/
def crowdedTable : TransactionTable :=
  let peer : Endpoint := ⟨⟨0, 0, 0, 0, 0, 0, 0, 1⟩, 5683, false⟩
  { new 3 0 with
    slots := [some (.new 0 peer), none, some (.new 65535 peer)], counter := 65535 }

theorem ids_chosen_crowdedTable :
    crowdedTable.size < 65536 ∧ crowdedTable.skipped = 2 ∧ crowdedTable.nextId.1 = 1
      ∧ crowdedTable.search 2 = none ∧ crowdedTable.search 3 = some crowdedTable.nextId
      ∧ ((crowdedTable.choices [.nextId, .cancel 0, .nextId]).map (·.skipped + 1)).sum = 4
      ∧ ((crowdedTable.choices [.nextId, .cancel 0, .nextId]).map (·.nextId.1)).Nodup := by
  obtain ⟨hone, hmany⟩ := ids_chosen crowdedTable
  have hsize : crowdedTable.size < 65536 := by decide +kernel
  have hskipped : crowdedTable.skipped = 2 := by decide +kernel
  have hsum : ((crowdedTable.choices [.nextId, .cancel 0, .nextId]).map (·.skipped + 1)).sum = 4 :=
    by decide +kernel
  obtain ⟨hsearch, -⟩ := hone hsize
  refine ⟨hsize, hskipped, by decide +kernel, ?_, ?_, hsum, hmany _ (by omega)⟩
  · rw [hsearch, hskipped]
    rfl
  · rw [hsearch, hskipped]
    rfl

end CoapNode.TransactionTable
