import Hemlig.Invariant.Gentle

/-!
# Gentle writes to the control table

The writes that neither create, replace nor remove a secret: marking a workflow,
releasing a lease, and everything on items that secrets do not depend on.
-/

namespace Hemlig

open Store DynamoRepository AgentSyncRepository

variable {init s : Cloud}

/-- The items a secret is made of. -/
def Key.ofSecret : Key → Bool
  | .head _ | .workflow _ _ | .lookup _ _ | .access _ _ _ => true
  | _ => false

/-- The items a sync index is made of. -/
def Key.ofIndex : Key → Bool
  | .syncState _ | .change _ _ => true
  | _ => false

/-- A table that has the same secrets. -/
theorem Gentle.of_table {table : Table Key Item}
    (hsame : ∀ key, key.ofSecret = true → table.get key = s.table.get key)
    (henvironment : ∀ name, (s.table.get (.environment name)).isSome →
      (table.get (.environment name)).isSome)
    (hregistry : s.registry.Changes (.ofTable table)) : Gentle s { s with table := table } :=
  { Gentle.refl s with
    registry := hregistry
    rows := .of_eq fun u sk => hsame (.workflow u sk) rfl
    heads := .of_eq fun u => hsame (.head u) rfl
    holds := .of_eq (fun u sk => hsame (.workflow u sk) rfl) (.of_eq rfl)
    history := .of_eq rfl
    claims := fun _ => .inl
    environments := fun {name} => henvironment name
    lookup := fun environment secretId => hsame (.lookup environment secretId) rfl
    access := fun consumerId environment u => hsame (.access consumerId environment u) rfl
    creating := fun {u} _ _ hhead hhead' _ => .inl (by
      have := (hsame (.head u) rfl).symm.trans hhead'
      simpa [hhead] using this.symm)
    lease := fun {u} _ _ _ hhead hhead' howner => by
      have := (hsame (.head u) rfl).symm.trans hhead'
      obtain rfl := by simpa [hhead] using this
      exact howner
    kept := fun hkept => ⟨hkept.known, hkept.locked, hkept.deleted⟩ }

theorem SyncKept.of_table {table : Table Key Item}
    (hsame : ∀ key, key.ofSecret = true ∨ key.ofIndex = true → table.get key = s.table.get key) :
    SyncKept s { s with table := table } where
  state environment := hsame (.syncState environment) (.inr rfl)
  change environment sk := hsame (.change environment sk) (.inr rfl)
  sequence := by
    intro u head head' hhead hhead'
    have := (hsame (.head u) (.inl rfl)).symm.trans hhead'
    obtain rfl := by simpa [hhead] using this
    rfl

/-- An item that is neither of a secret nor of an index changes. -/
theorem Gentle.set_other {key : Key} (item : Option (Item key)) (hsecret : key.ofSecret = false)
    (henvironment : ∀ name, key ≠ .environment name)
    (hregistry : s.registry.Changes (.ofTable (s.table.set key item))) :
    Gentle s { s with table := s.table.set key item } :=
  .of_table
    (fun other hother => Table.get_set_of_ne _ _ fun h => by simp [h, hsecret] at hother)
    (fun name hsome => by rwa [Table.get_set_of_ne _ _ (henvironment name).symm]) hregistry

theorem SyncKept.set_other {key : Key} (item : Option (Item key)) (hsecret : key.ofSecret = false)
    (hindex : key.ofIndex = false) : SyncKept s { s with table := s.table.set key item } :=
  .of_table fun other hother =>
    Table.get_set_of_ne _ _ fun h => by simp [h, hsecret, hindex] at hother

/-! ## Workflow rows -/

/-- One row changes without being settled; what a head names does not. -/
theorem Gentle.set_row {u : String} {sk : WorkflowSk} {row row' : StoredWorkflow}
    (hrow : s.workflow u sk = some row) (hkept : RowKept row row')
    (hnamed : row'.workflowState = .ready ∧ row'.s3VersionId = row.s3VersionId ∨
      row.workflowState ≠ .ready ∨ ∀ head, s.head u = some head → ¬ head.Names sk) :
    Gentle s { s with table := s.table.set (.workflow u sk) (some row') } := by
  have hother : ∀ key, key ≠ .workflow u sk →
      (s.table.set (.workflow u sk) (some row')).get key = s.table.get key :=
    fun key hne => Table.get_set_of_ne _ _ hne
  have hrows : ∀ u' sk', (u' = u ∧ sk' = sk) ∨
      (s.table.set (.workflow u sk) (some row')).get (.workflow u' sk') = s.workflow u' sk' := by
    intro u' sk'
    by_cases hsame : u' = u ∧ sk' = sk
    · exact .inl hsame
    · exact .inr (hother _ fun h => hsame (by simpa using h))
  refine
    { Gentle.refl s with
      rows := ?_
      heads := .of_eq fun u' => hother _ (by simp)
      holds := ?_
      history := .of_eq rfl
      claims := fun _ => .inl
      environments := fun {name} hsome =>
        (congrArg Option.isSome (hother (.environment name) (by simp))).trans hsome
      lookup := fun environment secretId => hother _ (by simp)
      access := fun consumerId environment u' => hother _ (by simp)
      creating := fun {u'} _ _ hhead hhead' _ => .inl (by
        have := (hother (.head u') (by simp)).symm.trans hhead'
        simpa [hhead] using this.symm)
      lease := fun {u'} _ _ _ hhead hhead' howner => by
        have := (hother (.head u') (by simp)).symm.trans hhead'
        obtain rfl := by simpa [hhead] using this
        exact howner
      kept := fun hkept => ⟨hkept.known, hkept.locked, hkept.deleted⟩ }
  · intro u' sk'
    rcases hrows u' sk' with ⟨rfl, rfl⟩ | hsame
    · rw [hrow, show Cloud.workflow { s with table := s.table.set (.workflow u' sk') (some row') }
        u' sk' = some row' from Table.get_set_self _ _ _]
      exact .some hkept
    · rw [show Cloud.workflow { s with table := s.table.set (.workflow u sk) (some row') } u' sk' =
        s.workflow u' sk' from hsame]
      cases s.workflow u' sk' with
      | none => exact .none
      | some other => exact .some (.refl other)
  · rintro u' head sk' versionId body hhead hcommitted hnames ⟨⟨current, hcurrent, hready, hversion,
      hserialized⟩, hobject⟩
    rcases hrows u' sk' with ⟨rfl, rfl⟩ | hsame
    · obtain rfl : row = current := by simpa [hrow] using hcurrent
      rcases hnamed with ⟨hready', hversion'⟩ | hnot | hnot
      · exact ⟨⟨row', Table.get_set_self _ _ _, hready', hversion'.trans hversion,
          hkept.step.serialized.trans hserialized⟩, hobject⟩
      · exact (hnot hready).elim
      · exact (hnot head hhead hnames).elim
    · exact ⟨⟨current, hsame.trans hcurrent, hready, hversion, hserialized⟩, hobject⟩

theorem SyncKept.set_row {u : String} {sk : WorkflowSk} (row' : Option StoredWorkflow) :
    SyncKept s { s with table := s.table.set (.workflow u sk) row' } where
  state _ := Table.get_set_of_ne _ _ (by simp)
  change _ _ := Table.get_set_of_ne _ _ (by simp)
  sequence := by
    intro u' head head' hhead hhead'
    have hsame : (s.table.set (.workflow u sk) row').get (.head u') = s.head u' :=
      Table.get_set_of_ne _ _ (by simp)
    obtain rfl := by simpa [hhead] using hsame.symm.trans hhead'
    rfl

/-- An unsettled row becomes retryable. -/
theorem RowKept.retryable {row : StoredWorkflow} (hprepared : row.workflowState = .prepared) :
    RowKept row (retryableRow row) where
  step := ⟨rfl, rfl, fun h => by simp [StoredWorkflow.Settled, hprepared] at h⟩
  settled h := by simp [StoredWorkflow.Settled, retryableRow] at h
  ok hok :=
    { uid := hok.uid
      objectKey := hok.objectKey
      documents := hok.documents
      version := hok.version
      due := by simp [retryableRow]
      stored := by
        have := hok.stored
        simpa [StoredWorkflow.Settled, retryableRow, hprepared] using this
      retention := fun h => by
        have := hok.retention h
        simp [hprepared] at this }

/-- A committed row whose object is gone. -/
theorem RowKept.deleted {row : StoredWorkflow} (hready : row.workflowState = .ready) :
    RowKept row (deletedRow row) where
  step := ⟨rfl, rfl, fun _ => ⟨.inr rfl, rfl⟩⟩
  settled _ := .inl hready
  ok hok :=
    { uid := hok.uid
      objectKey := hok.objectKey
      documents := hok.documents
      version := hok.version
      due := by
        have := hok.due
        simpa [deletedRow, hready] using this
      stored := by
        have := hok.stored
        simpa [StoredWorkflow.Settled, deletedRow, hready] using this
      retention := by simp [deletedRow] }

/-- A committed row that becomes a candidate for retention. -/
theorem RowKept.candidate {row : StoredWorkflow} (due : Time)
    (hready : row.workflowState = .ready) : RowKept row (candidateRow due row) where
  step := ⟨rfl, rfl, fun h => ⟨h, rfl⟩⟩
  settled := id
  ok hok :=
    { uid := hok.uid
      objectKey := hok.objectKey
      documents := hok.documents
      version := hok.version
      due := hok.due
      stored := hok.stored
      retention := fun _ => hready }

/-! ## Heads that say the same -/

/-- One head changes, but not in what it says. -/
theorem Gentle.of_table_head {table : Table Key Item} {u : String} {head head' : HeadRecord}
    (hsame : ∀ key, key.ofSecret = true → key ≠ .head u → table.get key = s.table.get key)
    (henvironment : ∀ name, (s.table.get (.environment name)).isSome →
      (table.get (.environment name)).isSome)
    (hhead : s.head u = some head) (hhead' : table.get (.head u) = some head')
    (hcontent : head'.content = head.content)
    (hlease : ∀ operationId, head'.leaseOwner = some operationId →
      head.leaseOwner = some operationId)
    (hcreating : ¬ head.Committed → head' = head ∨ head' = unleasedHead head)
    (hregistry : s.registry.Changes (.ofTable table)) :
    Gentle s { s with table := table } := by
  have hheads : ∀ u' other other', s.head u' = some other → table.get (.head u') = some other' →
      (u' = u ∧ other = head ∧ other' = head') ∨ other' = other := by
    intro u' other other' hsome hsome'
    by_cases hu : u' = u
    · subst hu
      exact .inl ⟨rfl, by simpa [hhead] using hsome.symm, by simpa [hhead'] using hsome'.symm⟩
    · rw [hsame (.head u') rfl (by simpa using hu)] at hsome'
      exact .inr (by simpa [show s.table.get (.head u') = some other from hsome] using hsome'.symm)
  refine
    { Gentle.refl s with
      rows := .of_eq fun u' sk => hsame (.workflow u' sk) rfl (by simp)
      heads := ?_
      holds := .of_eq (fun u' sk => hsame (.workflow u' sk) rfl (by simp)) (.of_eq rfl)
      history := .of_eq rfl
      claims := fun _ => .inl
      environments := fun {name} => henvironment name
      lookup := fun environment secretId => hsame (.lookup environment secretId) rfl (by simp)
      access := fun consumerId environment u' =>
        hsame (.access consumerId environment u') rfl (by simp)
      creating := fun hsome hsome' hnot => by
        rcases hheads _ _ _ hsome hsome' with ⟨rfl, rfl, rfl⟩ | rfl
        · exact hcreating hnot
        · exact .inl rfl
      lease := fun hsome hsome' howner => by
        rcases hheads _ _ _ hsome hsome' with ⟨rfl, rfl, rfl⟩ | rfl
        · exact hlease _ howner
        · exact howner
      kept := fun hkept => ⟨hkept.known, hkept.locked, hkept.deleted⟩
      registry := hregistry }
  intro u'
  by_cases hu : u' = u
  · subst hu
    rw [hhead, show Cloud.head { s with table := table } u' = some head' from hhead']
    exact .some hcontent
  · rw [show Cloud.head { s with table := table } u' = s.head u' from
      hsame (.head u') rfl (by simpa using hu)]
    cases s.head u' with
    | none => exact .none
    | some other => exact .some rfl

/-- A head loses its lease. -/
theorem Gentle.release {u : String} {head : HeadRecord} (hhead : s.head u = some head) :
    Gentle s { s with table := s.table.set (.head u) (some (unleasedHead head)) } :=
  .of_table_head (fun _ _ hne => Table.get_set_of_ne _ _ hne)
    (fun name hsome => by rwa [Table.get_set_of_ne _ _ (by simp)]) hhead
    (Table.get_set_self _ _ _) rfl (fun _ h => by simp [unleasedHead] at h) (fun _ => .inr rfl)
    (.same (Registry.ofTable_set_other _ _ rfl))

theorem SyncKept.release {u : String} {head : HeadRecord} (hhead : s.head u = some head) :
    SyncKept s { s with table := s.table.set (.head u) (some (unleasedHead head)) } where
  state _ := Table.get_set_of_ne _ _ (by simp)
  change _ _ := Table.get_set_of_ne _ _ (by simp)
  sequence := by
    intro u' other other' hsome hsome'
    by_cases hu : u' = u
    · subst hu
      rw [show Cloud.head { s with table := s.table.set (.head u') (some (unleasedHead head)) }
        u' = some (unleasedHead head) from Table.get_set_self _ _ _] at hsome'
      obtain rfl : head = other := by simpa [hhead] using hsome
      obtain rfl : unleasedHead head = other' := by simpa using hsome'
      rfl
    · rw [show Cloud.head { s with table := s.table.set (.head u) (some (unleasedHead head)) } u' =
        s.head u' from Table.get_set_of_ne _ _ (by simpa using hu)] at hsome'
      obtain rfl := by simpa [hsome] using hsome'
      rfl

end Hemlig
