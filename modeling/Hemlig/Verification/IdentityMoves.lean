import Hemlig.Verification.IdentityCopies

/-!
# The rows that the identity migration moves

Once the objects are copied, every step of a run moves a row or gives a notification its
environment.  Rows come from keys that no row is moved to, so a step can stand in the way of
another one only by its target: two rows that are moved to one key, or one notification that is
given two environments.
-/

namespace Hemlig.Scripts.MigrateSecretIdentity

open Store (Checked Rewrite)
open Store.Rewrite (After Coherent)

variable {table table' : Table}

/-! ## One step -/

/-- A step of a run once the objects are copied. -/
inductive RowStep
  | move (sourceKey targetKey : Key) (target : Item)
  | fill (backfill : NotificationBackfill)

namespace RowStep

def perform (table : Table) : RowStep → Except String Table
  | move sourceKey targetKey target => moveItem sourceKey targetKey target table
  | fill backfill => backfillNotificationEnvironment backfill table

/-- The keys that rows are taken from and put under. -/
def keys : RowStep → List Key
  | move sourceKey targetKey _ => [sourceKey, targetKey]
  | fill backfill => [notificationKey backfill.eventId]

/-- What is moved is there. -/
def Given (table : Table) : RowStep → Prop
  | move sourceKey _ _ => table sourceKey ≠ none
  | fill _ => True

def Ready (table : Table) : RowStep → Prop
  | move _ targetKey _ => table targetKey = none
  | fill backfill => ∃ item, table (notificationKey backfill.eventId) = some item ∧
      ∀ stored ∈ item.attributes.lookup "environment", stored = .string backfill.environment

/-- No row is put where one is taken from. -/
def Distinct : RowStep → RowStep → Prop
  | move sourceKey targetKey _, move sourceKey' targetKey' _ =>
      sourceKey ≠ sourceKey' ∧ targetKey ≠ sourceKey' ∧ sourceKey ≠ targetKey'
  | move sourceKey targetKey _, fill backfill =>
      sourceKey ≠ notificationKey backfill.eventId ∧ targetKey ≠ notificationKey backfill.eventId
  | fill backfill, move sourceKey targetKey _ =>
      sourceKey ≠ notificationKey backfill.eventId ∧ targetKey ≠ notificationKey backfill.eventId
  | fill _, fill _ => True

def Compatible : RowStep → RowStep → Prop
  | move _ targetKey _, move _ targetKey' _ => targetKey ≠ targetKey'
  | fill backfill, fill backfill' =>
      backfill.eventId = backfill'.eventId → backfill.environment = backfill'.environment
  | _, _ => True

/-- What the step writes, on a table with the notifications of `table`. -/
def write (table : Table) : RowStep → Rewrite Key Item
  | move sourceKey targetKey target => fun key =>
      if key = targetKey then some (some target) else if key = sourceKey then some none else none
  | fill backfill => fun key =>
      if key = notificationKey backfill.eventId then
        (table key).map fun item => some (item.set "environment" (.string backfill.environment))
      else none

@[simp] theorem write_move (table : Table) (sourceKey targetKey : Key) (target : Item) (key : Key) :
    (move sourceKey targetKey target).write table key =
      if key = targetKey then some (some target) else if key = sourceKey then some none else none :=
  rfl

@[simp] theorem write_fill (table : Table) (backfill : NotificationBackfill) (key : Key) :
    (fill backfill).write table key =
      if key = notificationKey backfill.eventId then
        (table key).map fun item => some (item.set "environment" (.string backfill.environment))
      else none :=
  rfl

theorem notificationKey_inj {eventId eventId' : String}
    (h : notificationKey eventId = notificationKey eventId') : eventId = eventId' := by
  have hpk := congrArg String.toList (congrArg Key.pk h)
  simp only [notificationKey, String.toList_append] at hpk
  exact String.toList_inj.mp (List.append_cancel_left hpk)

theorem perform_eq_ok {step : RowStep} (h : step.Given table) :
    step.perform table = .ok table' ↔ step.Ready table ∧ table' = (step.write table).apply table := by
  cases step with
  | move sourceKey targetKey target =>
      obtain ⟨source, hsource⟩ := Option.ne_none_iff_exists'.mp h
      have happly : (write table (move sourceKey targetKey target)).apply table =
          moveRow sourceKey targetKey target table := by
        funext key
        unfold Rewrite.apply moveRow
        rw [write_move]
        split
        · rfl
        · split <;> rfl
      rw [happly]
      unfold perform moveItem Ready
      cases htarget : table targetKey with
      | none => simp [hsource, htarget, eq_comm]
      | some found => simp [hsource, htarget]
  | fill backfill =>
      unfold perform backfillNotificationEnvironment Ready
      dsimp only
      cases hfound : table (notificationKey backfill.eventId) with
      | none => simp
      | some item =>
          have happly : (write table (fill backfill)).apply table = fun other =>
              if other = notificationKey backfill.eventId then
                some (item.set "environment" (.string backfill.environment))
              else table other := by
            funext key
            unfold Rewrite.apply
            rw [write_fill]
            by_cases hkey : key = notificationKey backfill.eventId
            · rw [if_pos hkey, if_pos hkey, hkey, hfound]
              rfl
            · rw [if_neg hkey, if_neg hkey]
              rfl
          rw [happly]
          dsimp only
          split
          · rename_i hother
            obtain ⟨stored, hstored, hne⟩ := hother
            constructor
            · intro hok
              cases hok
            · rintro ⟨⟨found, hitem, hsame⟩, -⟩
              obtain rfl := Option.some.inj hitem
              exact absurd (hsame stored hstored) hne
          · rename_i hsame
            constructor
            · intro hok
              refine ⟨⟨item, rfl, fun stored hstored => ?_⟩, (Except.ok.inj hok).symm⟩
              by_contra hne
              exact hsame ⟨stored, hstored, hne⟩
            · intro heq
              rw [heq.2]

/-- A key that a step does not touch. -/
theorem apply_write {step : RowStep} {key : Key} (h : key ∉ step.keys) :
    (step.write table).apply table' key = table' key := by
  refine Rewrite.apply_of_none ?_
  cases step with
  | move sourceKey targetKey target =>
      simp only [keys, List.mem_cons, List.not_mem_nil, or_false, not_or] at h
      rw [write_move, if_neg h.2, if_neg h.1]
  | fill backfill =>
      simp only [keys, List.mem_singleton] at h
      rw [write_fill, if_neg h]

theorem apply_write_target {sourceKey targetKey : Key} {target : Item} :
    ((move sourceKey targetKey target).write table).apply table' targetKey = some target := by
  refine Rewrite.apply_of_some ?_
  rw [write_move, if_pos rfl]

theorem lookup_environment_set (item : Item) (environment : String) :
    (item.set "environment" (.string environment)).attributes.lookup "environment" =
      some (.string environment) :=
  Entries.lookup_set_self _ _ _

/-- What a step moves is still there after another step. -/
theorem given_of_perform {step other : RowStep} (hstep : step.Given table)
    (hother : other.Given table) (hdistinct : step.Distinct other)
    (hperform : step.perform table = .ok table') : other.Given table' := by
  obtain ⟨-, rfl⟩ := (perform_eq_ok hstep).mp hperform
  cases other with
  | fill backfill => trivial
  | move sourceKey targetKey target =>
      have hkeys : sourceKey ∉ step.keys := by
        cases step with
        | move sourceKey' targetKey' target' =>
            simpa [keys, not_or, eq_comm, and_comm] using ⟨hdistinct.1.symm, hdistinct.2.1.symm⟩
        | fill backfill => simpa [keys] using hdistinct.1
      exact fun hnone => hother ((apply_write hkeys).symm.trans hnone)

/-- **Steps are in each other's way by their targets only.** -/
theorem checked : Checked perform Given Ready Distinct Compatible where
  ready {table step} hgiven := by
    simp only [perform_eq_ok hgiven]
    constructor
    · intro ⟨_, hready, _⟩
      exact hready
    · intro hready
      exact ⟨_, hready, rfl⟩
  given := given_of_perform
  next {table table' step other} hstep hother hdistinct hperform := by
    obtain ⟨hready, rfl⟩ := (perform_eq_ok hstep).mp hperform
    cases other with
    | move sourceKey targetKey target =>
        cases step with
        | move sourceKey' targetKey' target' =>
            simp only [Ready, Compatible]
            by_cases htarget : targetKey = targetKey'
            · rw [htarget, apply_write_target]
              simp
            · rw [apply_write (by simpa [keys, not_or] using ⟨hdistinct.2.2.symm, htarget⟩)]
              simp [Ne.symm htarget]
        | fill backfill =>
            simp only [Ready, Compatible]
            rw [apply_write (by simpa [keys] using hdistinct.2)]
            simp
    | fill backfill =>
        cases step with
        | move sourceKey' targetKey' target' =>
            simp only [Ready, Compatible]
            rw [apply_write (by
              simpa [keys, not_or] using ⟨hdistinct.1.symm, hdistinct.2.symm⟩)]
            simp
        | fill backfill' =>
            simp only [Ready, Compatible]
            by_cases hid : backfill'.eventId = backfill.eventId
            · -- The notification that was given an environment keeps it.
              obtain ⟨item, hitem, hstored⟩ := hready
              have hafter : ((fill backfill').write table).apply table
                  (notificationKey backfill.eventId) =
                    some (item.set "environment" (.string backfill'.environment)) := by
                refine Rewrite.apply_of_some ?_
                rw [write_fill, hid, if_pos rfl, ← hid, hitem]
                rfl
              rw [hafter, ← hid, hitem]
              simp only [Option.some.injEq, exists_eq_left', lookup_environment_set,
                Option.mem_some_iff, forall_eq', Value.string.injEq, forall_const]
              constructor
              · intro hsame
                refine ⟨fun stored hmem => ?_, hsame⟩
                rw [← hsame]
                exact hstored stored hmem
              · exact fun hboth => hboth.2
            · have hkey : notificationKey backfill.eventId ≠ notificationKey backfill'.eventId :=
                fun h => hid (notificationKey_inj h).symm
              rw [apply_write (by simpa [keys] using hkey)]
              simp [hid]

/-! ## All steps -/

theorem set_set (item : Item) (name : String) (value : Value) :
    (item.set name value).set name value = item.set name value := by
  have hentries : ∀ entries : Attributes, (entries.set name value).set name value =
      entries.set name value := by
    intro entries
    induction entries with
    | nil => simp [Entries.set]
    | cons entry rest ih =>
        by_cases hentry : entry.1 = name
        · simp [Entries.set, hentry]
        · simp [Entries.set, hentry, ih]
  unfold Item.set
  rw [hentries]

/-- A step writes the same after another one. -/
theorem write_eq {step other : RowStep} (hready : step.Ready table)
    (hdistinct : step.Distinct other) (hcompatible : step.Compatible other) :
    other.write ((step.write table).apply table) = other.write table := by
  cases other with
  | move sourceKey targetKey target => rfl
  | fill backfill =>
      have hsame : (((step.write table).apply table) (notificationKey backfill.eventId)).map
            (fun item => some (item.set "environment" (.string backfill.environment))) =
          (table (notificationKey backfill.eventId)).map
            (fun item => some (item.set "environment" (.string backfill.environment))) := by
        cases step with
        | move sourceKey' targetKey' target' =>
            rw [apply_write (by
              simpa [keys, not_or] using ⟨hdistinct.1.symm, hdistinct.2.symm⟩)]
        | fill backfill' =>
            by_cases hid : backfill'.eventId = backfill.eventId
            · obtain ⟨item, hitem, -⟩ := hready
              have hafter : ((fill backfill').write table).apply table
                  (notificationKey backfill.eventId) =
                    some (item.set "environment" (.string backfill'.environment)) := by
                refine Rewrite.apply_of_some ?_
                rw [write_fill, hid, if_pos rfl, ← hid, hitem]
                rfl
              have henvironment : backfill'.environment = backfill.environment := hcompatible hid
              rw [hafter, ← hid, hitem, henvironment, Option.map_some, Option.map_some, set_set]
            · have hkey : notificationKey backfill.eventId ≠ notificationKey backfill'.eventId :=
                fun h => hid (notificationKey_inj h).symm
              rw [apply_write (by simpa [keys] using hkey)]
      funext key
      rw [write_fill, write_fill]
      by_cases hkey : key = notificationKey backfill.eventId
      · rw [if_pos hkey, if_pos hkey, hkey]
        exact hsame
      · rw [if_neg hkey, if_neg hkey]

/-- **What all steps do is what each of them writes, on the table they start from.** -/
theorem foldlM_eq_ok {steps : List RowStep} (hgiven : ∀ step ∈ steps, step.Given table)
    (hdistinct : steps.Pairwise Distinct) :
    steps.foldlM perform table = .ok table' ↔
      ((∀ step ∈ steps, step.Ready table) ∧ steps.Pairwise Compatible) ∧
        table' = Rewrite.applyAll (steps.map fun step => step.write table) table := by
  have hresult : ∀ {steps : List RowStep} {table table'}, (∀ step ∈ steps, step.Given table) →
      steps.Pairwise Distinct → steps.Pairwise Compatible →
      steps.foldlM perform table = .ok table' →
        table' = Rewrite.applyAll (steps.map fun step => step.write table) table := by
    intro steps
    induction steps with
    | nil =>
        intro table table' _ _ _ h
        exact (Except.ok.inj h).symm
    | cons step rest ih =>
        intro table table' hgiven hdistinct hcompatible h
        rw [List.pairwise_cons] at hdistinct hcompatible
        rw [List.foldlM_cons, bind_eq_ok] at h
        obtain ⟨middle, hfirst, hrest⟩ := h
        have hstep := hgiven step List.mem_cons_self
        have hgiven' : ∀ other ∈ rest, other.Given middle := fun other hmem =>
          given_of_perform hstep (hgiven other (List.mem_cons_of_mem _ hmem))
            (hdistinct.1 other hmem) hfirst
        have hend := ih hgiven' hdistinct.2 hcompatible.2 hrest
        obtain ⟨hready, rfl⟩ := (perform_eq_ok hstep).mp hfirst
        rw [hend, List.map_cons, Rewrite.applyAll_cons]
        refine congrArg (Rewrite.applyAll · _) (List.map_congr_left fun other hmem => ?_)
        exact write_eq hready (hdistinct.1 other hmem) (hcompatible.1 other hmem)
  constructor
  · intro h
    have hall := (Checked.foldlM_ok checked hgiven hdistinct).mp ⟨table', h⟩
    exact ⟨hall, hresult hgiven hdistinct hall.2 h⟩
  · intro ⟨hall, hend⟩
    obtain ⟨found, hfound⟩ := (Checked.foldlM_ok checked hgiven hdistinct).mpr hall
    rw [hend, ← hresult hgiven hdistinct hall.2 hfound]
    exact hfound

/-- Writes of compatible steps agree wherever two of them touch one key. -/
theorem coherent {steps : List RowStep} (hdistinct : steps.Pairwise Distinct)
    (hcompatible : steps.Pairwise Compatible) :
    Coherent {write | ∃ step ∈ steps, write = RowStep.write table step} := by
  have hagree : ∀ {step other : RowStep}, step.Distinct other → step.Compatible other →
      ∀ key value value', step.write table key = some value →
        other.write table key = some value' → value = value' := by
    intro step other hdistinct hcompatible key value value' hvalue hvalue'
    cases step with
    | move sourceKey targetKey target =>
        cases other with
        | move sourceKey' targetKey' target' =>
            simp only [Distinct] at hdistinct
            simp only [Compatible] at hcompatible
            simp only [write_move] at hvalue hvalue'
            grind
        | fill backfill =>
            simp only [Distinct] at hdistinct
            simp only [write_move, write_fill] at hvalue hvalue'
            grind
    | fill backfill =>
        cases other with
        | move sourceKey' targetKey' target' =>
            simp only [Distinct] at hdistinct
            simp only [write_move, write_fill] at hvalue hvalue'
            grind
        | fill backfill' =>
            simp only [Compatible] at hcompatible
            rw [write_fill] at hvalue hvalue'
            split at hvalue
            · rename_i hkey
              split at hvalue'
              · rename_i hkey'
                have hid : backfill.eventId = backfill'.eventId :=
                  notificationKey_inj (hkey.symm.trans hkey')
                rw [hcompatible hid] at hvalue
                exact Option.some.inj (hvalue.symm.trans hvalue')
              · cases hvalue'
            · cases hvalue
  rintro _ ⟨step, hstep, rfl⟩ _ ⟨other, hother, rfl⟩ key value value' hvalue hvalue'
  by_cases hsame : step = other
  · rw [hsame] at hvalue
    exact Option.some.inj (hvalue.symm.trans hvalue')
  · have hpair : (step.Distinct other ∧ step.Compatible other) ∨
        (other.Distinct step ∧ other.Compatible step) := by
      have hboth := hdistinct.and hcompatible
      obtain ⟨i, hi, rfl⟩ := List.mem_iff_getElem.mp hstep
      obtain ⟨j, hj, rfl⟩ := List.mem_iff_getElem.mp hother
      rcases Nat.lt_trichotomy i j with hlt | heq | hlt
      · exact .inl (List.pairwise_iff_getElem.mp hboth i j hi hj hlt)
      · subst heq
        exact absurd rfl hsame
      · exact .inr (List.pairwise_iff_getElem.mp hboth j i hj hi hlt)
    rcases hpair with hforward | hbackward
    · exact hagree hforward.1 hforward.2 key value value' hvalue hvalue'
    · exact (hagree hbackward.1 hbackward.2 key value' value hvalue' hvalue).symm

end RowStep

end Hemlig.Scripts.MigrateSecretIdentity
