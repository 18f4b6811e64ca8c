import Hemlig.Invariant.Writes

/-!
# Undoing a create

The transaction of `abortPreparedCreate` removes a head that never committed and the
name it holds.  Nothing else refers to either.
-/

namespace Hemlig

open Store DynamoRepository

variable {init s s' : Cloud} {u : String} {head : HeadRecord}

/-! ## The effect -/

structure Undone (s s' : Cloud) (u : String) (head : HeadRecord) : Prop where
  before : s.head u = some head
  uncommitted : ¬ head.Committed
  after : s'.head u = none
  heads : ∀ other, other ≠ u → s'.head other = s.head other
  lookup : s'.lookup head.environment head.secretId = none
  lookups : ∀ environment secretId,
    s'.lookup environment secretId = s.lookup environment secretId ∨
      environment = head.environment ∧ secretId = head.secretId
  other : ∀ key : Key, (∀ u, key ≠ .head u) → (∀ environment secretId,
    key ≠ .lookup environment secretId) → s'.table.get key = s.table.get key
  rest : s' = { s with table := s'.table }

/-- **The effect of the transaction.** -/
theorem undone_of_transact (hinv : NamesInv s) {environment secretId operationId : String}
    {conflicts : List ℕ} {table : Table Key Item}
    (h : transact s.table conflicts
      (abortPreparedCreateWrites environment secretId u operationId) = .ok table) :
    ∃ head, Undone s { s with table := table } u head := by
  have hheadWrite : Write.delete (.head u) (fun head =>
      head.leaseOwner = some operationId ∧ head.workflowState = .prepared) ∈
      abortPreparedCreateWrites environment secretId u operationId := by
    simp [abortPreparedCreateWrites]
  have hlookupWrite : Write.delete (.lookup environment secretId)
      (fun lookup => lookup.secretUid = u) ∈
      abortPreparedCreateWrites environment secretId u operationId := by
    simp [abortPreparedCreateWrites]
  obtain ⟨head, hhead, hcondition, hafter⟩ := get_of_delete h hheadWrite
  obtain ⟨lookup, hlookup, huid, hgone⟩ := get_of_delete h hlookupWrite
  -- The name that goes is the name of the head.
  obtain ⟨named, hnamed, henvironment, hsecretId, -⟩ := hinv.lookup hlookup
  rw [show lookup.secretUid = u by simpa using huid] at hnamed
  obtain rfl : head = named := Option.some.inj (hhead.symm.trans hnamed)
  subst henvironment hsecretId
  have hsame : ∀ key, key ≠ .head u →
      key ≠ .lookup head.environment head.secretId → table.get key = s.table.get key :=
    fun key hhead hlookup => get_of_not_mem h (by
      simp [abortPreparedCreateWrites, hhead, hlookup])
  refine ⟨head, hhead, fun hcommitted => ?_, hafter, fun other hother => ?_, hgone,
    fun environment secretId => ?_, fun key hhead hlookup => hsame key (hhead _) (hlookup _ _), rfl⟩
  · simp only [decide_eq_true_eq] at hcondition
    cases hcondition.2.symm.trans hcommitted
  · exact hsame _ (by simpa using hother) (by simp)
  · by_cases hkey : environment = head.environment ∧ secretId = head.secretId
    · exact .inr hkey
    · exact .inl (hsame _ (by simp) (by simpa using hkey))

/-! ## What it keeps -/

namespace Undone

variable (h : Undone s s' u head)
include h

theorem objects : s'.objects = s.objects := (congrArg Cloud.objects h.rest).trans rfl

theorem known : s'.known = s.known := (congrArg Cloud.known h.rest).trans rfl

theorem historyKept : HistoryKept s s' := .of_eq ((congrArg Cloud.history h.rest).trans rfl)

theorem row (u' : String) (sk : WorkflowSk) : s'.workflow u' sk = s.workflow u' sk :=
  h.other _ (by simp) (by simp)

/-- The heads that are left are old ones. -/
theorem head_backward {u' : String} {head' : HeadRecord} (hhead' : s'.head u' = some head') :
    u' ≠ u ∧ s.head u' = some head' := by
  by_cases hu : u' = u
  · subst hu
    cases h.after.symm.trans hhead'
  · exact ⟨hu, (h.heads u' hu).symm.trans hhead'⟩

theorem committed_forward {u' : String} {head' : HeadRecord} (hhead' : s.head u' = some head')
    (hcommitted : head'.Committed) : s'.head u' = some head' := by
  refine (h.heads u' ?_).trans hhead'
  rintro rfl
  obtain rfl : head = head' := Option.some.inj (h.before.symm.trans hhead')
  exact h.uncommitted hcommitted

theorem lookup_backward {environment secretId : String} {lookup : SecretLookup}
    (hlookup : s'.lookup environment secretId = some lookup) :
    s.lookup environment secretId = some lookup := by
  rcases h.lookups environment secretId with hsame | ⟨rfl, rfl⟩
  · exact hsame.symm.trans hlookup
  · cases h.lookup.symm.trans hlookup

/-- Only the undone secret had the name. -/
theorem lookup_forward (hinv : NamesInv s) {environment secretId : String} {lookup : SecretLookup}
    (hlookup : s.lookup environment secretId = some lookup) (hne : lookup.secretUid ≠ u) :
    s'.lookup environment secretId = some lookup := by
  rcases h.lookups environment secretId with hsame | ⟨rfl, rfl⟩
  · exact hsame.trans hlookup
  · obtain ⟨own, hown, huid⟩ := hinv.creating h.before h.uncommitted
    obtain rfl : lookup = own := Option.some.inj (hlookup.symm.trans hown)
    exact (hne huid).elim

theorem holdsKept : HoldsKept s s' := .of_eq h.row (.of_eq h.objects)

theorem describes {u' : String} {head' : HeadRecord} {control : ControlRevision}
    (hhead' : s.head u' = some head') (hcommitted : head'.Committed)
    (hdescribes : s.Describes u' head' control) : s'.Describes u' head' control :=
  h.holdsKept.describes hhead' hcommitted rfl hdescribes

theorem versions (u' : String) :
    s'.version u' = s.version u' ∧ s'.payloadVersion u' = s.payloadVersion u' := by
  by_cases hu : u' = u
  · subst hu
    simp [Cloud.version, Cloud.payloadVersion, h.after, h.before, Option.filter_some, h.uncommitted]
  · simp [Cloud.version, Cloud.payloadVersion, h.heads u' hu]

theorem dead {operationId : String} (hdead : s.Dead operationId) : s'.Dead operationId := by
  obtain ⟨⟨mutation, hprepared, hid⟩, hlease⟩ := hdead
  exact ⟨⟨mutation, hprepared.mono h.historyKept.history, hid⟩,
    fun u' head' hhead' => hlease u' head' (h.head_backward hhead').2⟩

theorem buried (hinv : HeadsInv s) : s'.Buried u := by
  obtain ⟨mutation, hprepared, huid, hcreates, -⟩ := hinv.creating h.before h.uncommitted
  exact ⟨h.after, mutation, hprepared.mono h.historyKept.history, hcreates.expected, huid⟩

theorem object (reference : ObjectReference) : s'.object reference = s.object reference := by
  rw [Cloud.object, Cloud.object, h.objects]

theorem kept {reference : ObjectReference} {time : Time} (hkept : s.Kept reference time) :
    s'.Kept reference time :=
  hkept.mono (fun hid => h.known ▸ hid)
    (fun object' hobject' => ⟨object', (h.object reference).symm.trans hobject',
      fun r hr => ⟨r, hr, le_rfl⟩⟩)
    fun _ hentry => .inl ((congrArg Cloud.history h.rest).trans rfl ▸ hentry)

/-! ### The parts of the invariant -/

theorem rowsInv (hinv : RowsInv s) : RowsInv s' :=
  hinv.transfer (.of_eq h.row) (fun hrow => .inl ((congrArg Cloud.index h.rest).trans rfl ▸ hrow))
    (fun hid => h.known ▸ hid)
    (fun hhead hcommitted => ⟨_, h.committed_forward hhead hcommitted, hcommitted⟩) h.historyKept

theorem headsInv (hinv : HeadsInv s) : HeadsInv s' where
  uid hhead' := hinv.uid (h.head_backward hhead').2
  environment hhead' := by
    rw [show s'.environment _ = s.environment _ from h.other _ (by simp) (by simp)]
    exact hinv.environment (h.head_backward hhead').2
  described := by
    intro u' head' hhead' hcommitted
    have hhead := (h.head_backward hhead').2
    obtain ⟨control, hdescribes⟩ := hinv.described hhead hcommitted
    exact ⟨control, h.describes hhead hcommitted hdescribes⟩
  creating := by
    intro u' head' hhead' hnot
    obtain ⟨mutation, hprepared, hrest⟩ := hinv.creating (h.head_backward hhead').2 hnot
    exact ⟨mutation, hprepared.mono h.historyKept.history, hrest⟩
  unsettled := by
    intro u' head' hhead' hnot sk row hrow
    rw [h.row] at hrow
    exact hinv.unsettled (h.head_backward hhead').2 hnot sk row hrow
  lease := by
    intro u' head' operationId hhead' howner
    obtain ⟨mutation, hprepared, hrest⟩ := hinv.lease (h.head_backward hhead').2 howner
    exact ⟨mutation, hprepared.mono h.historyKept.history, hrest⟩

theorem namesInv (hinv : NamesInv s) : NamesInv s' where
  lookup := by
    intro environment secretId lookup hlookup
    obtain ⟨named, hnamed, henvironment, hsecretId, hstate⟩ :=
      hinv.lookup (h.lookup_backward hlookup)
    refine ⟨named, (h.heads _ fun hu => ?_).trans hnamed, henvironment, hsecretId, hstate⟩
    rw [hu] at hnamed
    obtain rfl : head = named := Option.some.inj (h.before.symm.trans hnamed)
    rw [← henvironment, ← hsecretId, h.lookup] at hlookup
    cases hlookup
  creating := by
    intro u' head' hhead' hnot
    obtain ⟨hu, hhead⟩ := h.head_backward hhead'
    obtain ⟨lookup, hlookup, huid⟩ := hinv.creating hhead hnot
    exact ⟨lookup, h.lookup_forward hinv hlookup (huid ▸ hu), huid⟩
  archived harchived hlookup :=
    hinv.archived (h.historyKept.archivedAt harchived) (h.lookup_backward hlookup)

theorem access_eq (consumerId environment u' : String) :
    s'.access consumerId environment u' = s.access consumerId environment u' :=
  h.other _ (by simp) (by simp)

/-- What describes a committed head that is left is what described it before. -/
theorem describes_backward (hinv : HeadsInv s) {u' : String} {head' : HeadRecord}
    {control : ControlRevision} (hhead' : s'.head u' = some head') (hcommitted : head'.Committed)
    (hdescribes' : s'.Describes u' head' control) : s.Describes u' head' control := by
  have hhead := (h.head_backward hhead').2
  obtain ⟨other, hdescribes⟩ := hinv.described hhead hcommitted
  obtain rfl := (h.describes hhead hcommitted hdescribes).unique hdescribes'
  exact hdescribes

theorem accessInv (hinv : AccessInv s) (hheads : HeadsInv s) : AccessInv s' where
  record := by
    intro consumerId environment u' access haccess
    rw [h.access_eq] at haccess
    obtain ⟨hconsumer, huid, henvironment, head', hhead', hcommitted, hsame⟩ := hinv.record haccess
    exact ⟨hconsumer, huid, henvironment, head', h.committed_forward hhead' hcommitted, hcommitted,
      hsame⟩
  readable := by
    intro u' head' control hhead' hcommitted hdescribes consumerId
    simp only [h.access_eq]
    exact hinv.readable (h.head_backward hhead').2 hcommitted
      (h.describes_backward hheads hhead' hcommitted hdescribes) consumerId
  sealed := by
    intro u' known head' control harchived hhead' hcommitted hdescribes
    exact hinv.sealed (h.historyKept.archivedAt harchived) (h.head_backward hhead').2 hcommitted
      (h.describes_backward hheads hhead' hcommitted hdescribes)

theorem syncState (environment : String) : s'.syncState environment = s.syncState environment :=
  h.other _ (by simp) (by simp)

theorem change (environment sk : String) : s'.change environment sk = s.change environment sk :=
  h.other _ (by simp) (by simp)

theorem syncInv (hinv : SyncInv s) : SyncInv s' where
  row := by
    intro environment sk row hrow
    rw [h.change] at hrow
    obtain ⟨head', sequence, control, hhead', hcommitted, henvironment, hsequence, hsk, hdescribes,
      hrest⟩ := hinv.row hrow
    exact ⟨head', sequence, control, h.committed_forward hhead' hcommitted, hcommitted,
      henvironment, hsequence, hsk, h.describes hhead' hcommitted hdescribes, hrest⟩
  head := by
    intro u' head' sequence hhead' hsequence
    rw [h.syncState, h.change]
    obtain ⟨hcommitted, state, hstate, hfirst, hlast, hplace⟩ :=
      hinv.head (h.head_backward hhead').2 hsequence
    exact ⟨hcommitted, state, hstate, hfirst, hlast,
      hplace.imp_right fun ⟨harchived, hgone⟩ => ⟨harchived, hgone.mono h.historyKept.history⟩⟩
  distinct hhead hhead' := hinv.distinct (h.head_backward hhead).2 (h.head_backward hhead').2
  ready := by
    intro environment state u' head' hstate hready hhead'
    rw [h.syncState] at hstate
    exact hinv.ready hstate hready (h.head_backward hhead').2
  bound := by
    intro environment state hstate
    rw [h.syncState] at hstate
    exact hinv.bound hstate

theorem historyInv (hinv : HistoryInv init s) : HistoryInv init s' where
  operation hfirst hsecond :=
    hinv.operation (h.historyKept.prepared hfirst) (h.historyKept.prepared hsecond)
  committed hcommitted := by
    obtain ⟨hprepared, hdead⟩ := hinv.committed (h.historyKept.committed hcommitted)
    exact ⟨hprepared.mono h.historyKept.history, h.dead hdead⟩
  chain u' := by
    rw [h.historyKept.commits, (h.versions u').1]
    exact hinv.chain u'
  payload u' := by
    rw [h.historyKept.commits, (h.versions u').2]
    exact hinv.payload u'
  audit event hevent hoperation := by
    rw [(congrArg Cloud.audit h.rest).trans rfl] at hevent
    exact h.dead (hinv.audit event hevent hoperation)

/-! ### The step -/

theorem registry : s'.registry = s.registry :=
  Registry.ofTable_congr fun key hkey =>
    h.other key (by rintro _ rfl; cases hkey) (by rintro _ _ rfl; cases hkey)

/-- **Undoing a create keeps the invariant.** -/
theorem invariant (hinv : Invariant init s) : Invariant init s' where
  rows := h.rowsInv hinv.rows
  heads := h.headsInv hinv.heads
  names := h.namesInv hinv.names
  access := h.accessInv hinv.access hinv.heads
  sync := h.syncInv hinv.sync
  history := h.historyInv hinv.history
  known := hinv.known.transfer (fun hid => h.known ▸ hid)
    (fun hdrawn => .inl ((congrArg Cloud.drawnBy h.rest).trans rfl ▸ hdrawn))
    (fun hobject => h.known ▸ hinv.known.object (h.objects ▸ hobject)) h.historyKept
  retention := hinv.retention.transfer (fun hid => h.known ▸ hid)
    (fun ⟨entry, hentry, hevent⟩ =>
      ⟨entry, (congrArg Cloud.history h.rest).trans rfl ▸ hentry, hevent⟩)
    (fun _ hnone => (h.object _).trans hnone) h.kept h.historyKept
  records := hinv.records.transfer (.of_eq h.registry) fun _ hevent =>
    .inl ((congrArg (Cloud.Happened · _) h.rest).mp hevent)
  identities := hinv.identities.transfer (.same h.registry) fun hidentity =>
    .inl (by rwa [h.rest] at hidentity)
  capabilities := hinv.capabilities.transfer
    (.of_registry (congrArg Registry.capabilities h.registry) fun _ =>
      (congrArg (Cloud.Happened · _) h.rest).mp)
    (fun hid => h.known ▸ hid) h.historyKept.history

theorem evolves (hinv : Invariant init s) (actor : Option ℕ) : Evolves actor s s' where
  known hid := h.known ▸ hid
  drawn hdrawn := by rwa [(congrArg Cloud.drawnBy h.rest).trans rfl]
  history := h.historyKept.history
  placement := (congrArg Cloud.placement h.rest).trans rfl
  environments hsome := by rwa [show s'.environment _ = _ from h.other _ (by simp) (by simp)]
  prepared hprepared := .inl (h.historyKept.prepared hprepared)
  rows hrow := ⟨_, (h.row _ _).trans hrow, .refl _, fun hnot hsettled => (hnot hsettled).elim⟩
  heads hhead hcommitted := ⟨_, h.committed_forward hhead hcommitted, hcommitted, .inl rfl⟩
  identity hhead hhead' := by
    obtain rfl := Option.some.inj (hhead.symm.trans (h.head_backward hhead').2)
    exact ⟨rfl, rfl⟩
  births hnone hhead' := by cases hnone.symm.trans (h.head_backward hhead').2
  leases hhead' howner := .inl ⟨_, (h.head_backward hhead').2, howner⟩
  lookups := by
    intro environment secretId lookup hlookup
    by_cases hu : lookup.secretUid = u
    · exact .inr (.inr (hu ▸ h.buried hinv.heads))
    · exact .inl (h.lookup_forward hinv.names hlookup hu)
  archived harchived := .inl (h.historyKept.archivedAt harchived)
  access consumerId environment u' := .inl (h.access_eq consumerId environment u')
  objects hobject := .inl ⟨_, h.objects ▸ hobject, rfl, rfl⟩
  bodies _ hobject := ⟨_, (h.object _).symm.trans hobject, rfl⟩
  kept := h.kept
  counters environment := by
    rw [Cloud.counter, Cloud.counter, h.syncState]
    exact CounterLe.refl _
  sequences hhead hhead' := by
    obtain rfl := Option.some.inj (hhead.symm.trans (h.head_backward hhead').2)
    exact .inl rfl
  unsynced hhead' hcommitted hnone := ⟨_, (h.head_backward hhead').2, hcommitted, hnone⟩
  changes hrow := .inl ((h.change _ _).symm.trans hrow)
  registry := .of_eq h.registry
  evidence hevent := (congrArg Cloud.audit h.rest).trans rfl ▸ hevent

end Undone

end Hemlig
