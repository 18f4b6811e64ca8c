import Mathlib.Logic.Function.Basic
import Mathlib.Data.List.Nodup

/-!
# A keyed store with conditional transactions

The store is a partial map from keys to values whose type depends on the key,
together with a list that covers its domain, so that a range of keys can be
enumerated.  A write names one key, a condition on the value found there and
the value it leaves.  `transact` applies a list of writes atomically:

* two writes on one key make the request malformed, whatever the state;
* otherwise every condition is tested on the state before the transaction, and
  one refused condition (or one write that meets a concurrent transaction)
  cancels all of them, with one reason for each write;
* otherwise all writes take effect, and since their keys are distinct the order
  does not matter: `get_of_mem` and `get_of_not_mem` determine every key.
-/

namespace Hemlig.Store

/-! ## Tables -/

/-- A partial map with a list that covers the keys in use. -/
structure Table (K : Type) (V : K → Type) where
  get : (k : K) → Option (V k)
  keys : List K
  covered : ∀ k, (get k).isSome → k ∈ keys

variable {K : Type} {V : K → Type}

namespace Table

/-- The table that holds nothing. -/
def empty : Table K V where
  get _ := none
  keys := []
  covered := by simp

@[simp] theorem get_empty (key : K) : (empty : Table K V).get key = none := rfl

variable [DecidableEq K]

/-- Replace the value under one key. -/
def set (table : Table K V) (key : K) (value : Option (V key)) : Table K V where
  get := Function.update table.get key value
  keys := if key ∈ table.keys then table.keys else key :: table.keys
  covered := by
    intro k hk
    by_cases hkey : k = key
    · subst hkey
      split <;> simp_all
    · rw [Function.update_of_ne hkey] at hk
      have := table.covered k hk
      split <;> simp_all

@[simp] theorem get_set_self (table : Table K V) (key : K) (value : Option (V key)) :
    (table.set key value).get key = value := by
  simp [set]

theorem get_set_of_ne (table : Table K V) {key other : K} (value : Option (V key))
    (hne : other ≠ key) : (table.set key value).get other = table.get other :=
  Function.update_of_ne hne _ _

end Table

/-! ## Conditional writes -/

/-- One conditional write: a key, a condition on what is stored there and the
value it leaves. -/
structure Write (K : Type) (V : K → Type) where
  key : K
  condition : Option (V key) → Bool
  effect : Option (V key) → Option (V key)

namespace Write

/-- Store a whole item, under a condition on the item it replaces. -/
def put (key : K) (item : V key) (condition : Option (V key) → Bool) : Write K V where
  key := key
  condition := condition
  effect _ := some item

/-- Store a whole item where there is none. -/
def create (key : K) (item : V key) : Write K V :=
  put key item Option.isNone

/-- Change an existing item that meets a condition. -/
def update (key : K) (condition : V key → Bool) (change : V key → V key) : Write K V where
  key := key
  condition := fun item => item.any condition
  effect := Option.map change

/-- Remove an item that meets a condition. -/
def delete (key : K) (condition : V key → Bool) : Write K V where
  key := key
  condition := fun item => item.any condition
  effect _ := none

/-- Remove whatever is stored under a key. -/
def remove (key : K) : Write K V where
  key := key
  condition _ := true
  effect _ := none

@[simp] theorem key_put (key : K) (item : V key) (condition : Option (V key) → Bool) :
    (put key item condition).key = key := rfl

@[simp] theorem key_create (key : K) (item : V key) : (create key item).key = key := rfl

@[simp] theorem key_update (key : K) (condition : V key → Bool) (change : V key → V key) :
    (update key condition change).key = key := rfl

@[simp] theorem key_delete (key : K) (condition : V key → Bool) :
    (delete key condition).key = key := rfl

@[simp] theorem key_remove (key : K) : (remove key : Write K V).key = key := rfl

/-- The condition of the write, tested on a table. -/
def holds (write : Write K V) (table : Table K V) : Bool :=
  write.condition (table.get write.key)

theorem holds_create {table : Table K V} {key : K} {item : V key} :
    (create key item).holds table = true ↔ table.get key = none := by
  simp [holds, create, put]

theorem holds_update {table : Table K V} {key : K} {condition : V key → Bool}
    {change : V key → V key} :
    (update key condition change).holds table = true ↔
      ∃ item, table.get key = some item ∧ condition item = true := by
  simp [holds, update, Option.any_eq_true]

theorem holds_delete {table : Table K V} {key : K} {condition : V key → Bool} :
    (delete key condition).holds table = true ↔
      ∃ item, table.get key = some item ∧ condition item = true := by
  simp [holds, delete, Option.any_eq_true]

variable [DecidableEq K]

/-- The write, taken on its own. -/
def apply (write : Write K V) (table : Table K V) : Table K V :=
  table.set write.key (write.effect (table.get write.key))

@[simp] theorem get_apply_self (write : Write K V) (table : Table K V) :
    (write.apply table).get write.key = write.effect (table.get write.key) := by
  simp [apply]

theorem get_apply_of_ne (write : Write K V) (table : Table K V) {key : K}
    (hne : key ≠ write.key) : (write.apply table).get key = table.get key :=
  Table.get_set_of_ne _ _ hne

theorem apply_create {table : Table K V} {key : K} {item : V key} :
    (create key item).apply table = table.set key (some item) := rfl

theorem apply_update {table : Table K V} {key : K} {condition : V key → Bool}
    {change : V key → V key} {item : V key} (hitem : table.get key = some item) :
    (update key condition change).apply table = table.set key (some (change item)) := by
  simp only [apply, update, hitem, Option.map_some]

end Write

/-! ## Transactions -/

/-- Why one write of a cancelled transaction was not made. -/
inductive CancellationReason
  | none
  | conditionalCheckFailed
  | transactionConflict
  deriving DecidableEq, Repr

/-- How a transaction is refused. -/
inductive TransactFailure
  | validation
  | canceled (reasons : List CancellationReason)
  deriving DecidableEq, Repr

/-- The most writes one transaction may hold. -/
def maximumWrites : ℕ := 100

/-- The reason of each write, `conflicts` naming the positions that meet a
concurrent transaction. -/
def reasons (table : Table K V) (conflicts : List ℕ) (writes : List (Write K V)) :
    List CancellationReason :=
  writes.mapIdx fun index write =>
    if index ∈ conflicts then .transactionConflict
    else if write.holds table then .none
    else .conditionalCheckFailed

theorem holds_of_reasons {table : Table K V} {conflicts : List ℕ} {writes : List (Write K V)}
    (hall : (reasons table conflicts writes).all (· = .none) = true) {write : Write K V}
    (hmem : write ∈ writes) : write.holds table = true := by
  obtain ⟨index, hindex, rfl⟩ := List.getElem_of_mem hmem
  have hlength : index < (reasons table conflicts writes).length := by
    simpa [reasons] using hindex
  have hnone := List.all_eq_true.mp hall _ (List.getElem_mem hlength)
  simp only [reasons, List.getElem_mapIdx, decide_eq_true_eq] at hnone
  split at hnone
  · simp at hnone
  · split at hnone
    · assumption
    · simp at hnone

variable [DecidableEq K]

/-- All writes, one after the other. -/
def applyAll (table : Table K V) (writes : List (Write K V)) : Table K V :=
  writes.foldl (fun current write => write.apply current) table

/-- Apply a list of conditional writes atomically. -/
def transact (table : Table K V) (conflicts : List ℕ) (writes : List (Write K V)) :
    Except TransactFailure (Table K V) :=
  if (writes.map Write.key).Nodup ∧ writes.length ≤ maximumWrites then
    if (reasons table conflicts writes).all (· = .none) then .ok (applyAll table writes)
    else .error (.canceled (reasons table conflicts writes))
  else .error .validation

/-! ## What a transaction does -/

theorem get_applyAll_of_not_mem {writes : List (Write K V)} {key : K}
    (hkey : key ∉ writes.map Write.key) (table : Table K V) :
    (applyAll table writes).get key = table.get key := by
  induction writes generalizing table with
  | nil => rfl
  | cons write rest ih =>
      simp only [List.map_cons, List.mem_cons, not_or] at hkey
      rw [applyAll, List.foldl_cons]
      exact (ih hkey.2 _).trans (write.get_apply_of_ne table hkey.1)

theorem get_applyAll_of_mem {writes : List (Write K V)}
    (hnodup : (writes.map Write.key).Nodup) {write : Write K V} (hmem : write ∈ writes)
    (table : Table K V) :
    (applyAll table writes).get write.key = write.effect (table.get write.key) := by
  induction writes generalizing table with
  | nil => simp at hmem
  | cons head rest ih =>
      obtain ⟨hhead, hrest⟩ := List.nodup_cons.mp hnodup
      rw [applyAll, List.foldl_cons]
      rcases List.mem_cons.mp hmem with rfl | hmem
      · exact (get_applyAll_of_not_mem hhead _).trans (write.get_apply_self table)
      · have hne : write.key ≠ head.key := fun heq =>
          hhead (heq ▸ List.mem_map_of_mem hmem)
        refine (ih hrest hmem _).trans ?_
        rw [head.get_apply_of_ne table hne]

/-- Writes on distinct keys find what was there before all of them. -/
theorem applyAll_eq_sets {writes : List (Write K V)} (hnodup : (writes.map Write.key).Nodup)
    (table : Table K V) :
    applyAll table writes =
      writes.foldl (fun current write => current.set write.key (write.effect (table.get write.key)))
        table := by
  have hgeneral : ∀ current : Table K V,
      (∀ write ∈ writes, current.get write.key = table.get write.key) →
      applyAll current writes = writes.foldl
        (fun current write => current.set write.key (write.effect (table.get write.key)))
        current := by
    induction writes with
    | nil => exact fun _ _ => rfl
    | cons head rest ih =>
        intro current hsame
        obtain ⟨hhead, hrest⟩ := List.nodup_cons.mp hnodup
        have hstep : head.apply current =
            current.set head.key (head.effect (table.get head.key)) := by
          rw [Write.apply, hsame head (List.mem_cons_self ..)]
        rw [List.foldl_cons, ← hstep]
        refine ih hrest (head.apply current) fun write hmem => ?_
        have hne : write.key ≠ head.key := fun heq => hhead (heq ▸ List.mem_map_of_mem hmem)
        rw [head.get_apply_of_ne current hne]
        exact hsame write (List.mem_cons_of_mem _ hmem)
  exact hgeneral table fun _ _ => rfl

/-- **A transaction that commits** names each key once, finds every condition
satisfied and applies every write. -/
theorem transact_eq_ok {table table' : Table K V} {conflicts : List ℕ}
    {writes : List (Write K V)} (h : transact table conflicts writes = .ok table') :
    (writes.map Write.key).Nodup ∧ (∀ write ∈ writes, write.holds table = true) ∧
      table' = applyAll table writes := by
  unfold transact at h
  split at h
  · rename_i hwell
    split at h
    · rename_i hall
      exact ⟨hwell.1, fun write hmem => holds_of_reasons hall hmem, by simpa using h.symm⟩
    · simp at h
  · simp at h

/-- A transaction with distinct keys, within the size limit, is never malformed. -/
theorem transact_ne_validation {table : Table K V} {conflicts : List ℕ}
    {writes : List (Write K V)} (hnodup : (writes.map Write.key).Nodup)
    (hsize : writes.length ≤ maximumWrites) :
    transact table conflicts writes ≠ .error .validation := by
  unfold transact
  rw [if_pos ⟨hnodup, hsize⟩]
  split <;> simp

/-- A transaction that names a key twice is always malformed. -/
theorem transact_eq_validation {table : Table K V} {conflicts : List ℕ}
    {writes : List (Write K V)} (hdup : ¬ (writes.map Write.key).Nodup) :
    transact table conflicts writes = .error .validation := by
  unfold transact
  rw [if_neg fun h => hdup h.1]

/-- A cancelled transaction reports the reason of each of its writes. -/
theorem transact_eq_canceled {table : Table K V} {conflicts : List ℕ}
    {writes : List (Write K V)} {codes : List CancellationReason}
    (h : transact table conflicts writes = .error (.canceled codes)) :
    codes = reasons table conflicts writes := by
  unfold transact at h
  split at h
  · split at h
    · simp at h
    · simpa using h.symm
  · simp at h

/-- A well-formed transaction whose conditions hold commits, if it meets no other one. -/
theorem transact_of_holds {table : Table K V} {writes : List (Write K V)}
    (hnodup : (writes.map Write.key).Nodup) (hsize : writes.length ≤ maximumWrites)
    (hholds : ∀ write ∈ writes, write.holds table = true) :
    transact table [] writes = .ok (applyAll table writes) := by
  have hall : (reasons table [] writes).all (· = .none) = true := by
    rw [List.all_eq_true]
    intro reason hmem
    obtain ⟨index, hindex, rfl⟩ := List.mem_mapIdx.mp hmem
    simp [hholds _ (List.getElem_mem hindex)]
  unfold transact
  rw [if_pos ⟨hnodup, hsize⟩, if_pos hall]

/-- A well-formed transaction with a condition that does not hold is cancelled. -/
theorem transact_of_not_holds {table : Table K V} {conflicts : List ℕ}
    {writes : List (Write K V)} (hnodup : (writes.map Write.key).Nodup)
    (hsize : writes.length ≤ maximumWrites) {write : Write K V} (hmem : write ∈ writes)
    (hnot : write.holds table = false) :
    transact table conflicts writes = .error (.canceled (reasons table conflicts writes)) := by
  unfold transact
  rw [if_pos ⟨hnodup, hsize⟩, if_neg]
  intro hall
  exact Bool.false_ne_true (hnot.symm.trans (holds_of_reasons hall hmem))

/-! ### Reading single keys off a committed transaction -/

theorem get_of_mem {table table' : Table K V} {conflicts : List ℕ} {writes : List (Write K V)}
    (h : transact table conflicts writes = .ok table') {write : Write K V}
    (hmem : write ∈ writes) : table'.get write.key = write.effect (table.get write.key) := by
  obtain ⟨hnodup, -, rfl⟩ := transact_eq_ok h
  exact get_applyAll_of_mem hnodup hmem table

theorem get_of_not_mem {table table' : Table K V} {conflicts : List ℕ}
    {writes : List (Write K V)} (h : transact table conflicts writes = .ok table') {key : K}
    (hkey : key ∉ writes.map Write.key) : table'.get key = table.get key := by
  obtain ⟨-, -, rfl⟩ := transact_eq_ok h
  exact get_applyAll_of_not_mem hkey table

theorem get_of_create {table table' : Table K V} {conflicts : List ℕ} {writes : List (Write K V)}
    (h : transact table conflicts writes = .ok table') {key : K} {item : V key}
    (hmem : Write.create key item ∈ writes) :
    table.get key = none ∧ table'.get key = some item :=
  ⟨Write.holds_create.mp ((transact_eq_ok h).2.1 _ hmem), get_of_mem h hmem⟩

theorem get_of_update {table table' : Table K V} {conflicts : List ℕ} {writes : List (Write K V)}
    (h : transact table conflicts writes = .ok table') {key : K} {condition : V key → Bool}
    {change : V key → V key} (hmem : Write.update key condition change ∈ writes) :
    ∃ item, table.get key = some item ∧ condition item = true ∧
      table'.get key = some (change item) := by
  obtain ⟨item, hitem, hcondition⟩ := Write.holds_update.mp ((transact_eq_ok h).2.1 _ hmem)
  refine ⟨item, hitem, hcondition, ?_⟩
  have hafter := get_of_mem h hmem
  simp only [Write.key_update] at hafter
  rw [hafter, hitem]
  rfl

theorem get_of_delete {table table' : Table K V} {conflicts : List ℕ} {writes : List (Write K V)}
    (h : transact table conflicts writes = .ok table') {key : K} {condition : V key → Bool}
    (hmem : Write.delete key condition ∈ writes) :
    ∃ item, table.get key = some item ∧ condition item = true ∧ table'.get key = none := by
  obtain ⟨item, hitem, hcondition⟩ := Write.holds_delete.mp ((transact_eq_ok h).2.1 _ hmem)
  exact ⟨item, hitem, hcondition, get_of_mem h hmem⟩

end Hemlig.Store
