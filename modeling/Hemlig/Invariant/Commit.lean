import Hemlig.Invariant.Index

/-!
# Committing a mutation

The transaction of `completeMutation` replaces the head, settles the new revisions,
marks the replaced ones for retention, and updates the name, the access records and
the sync index of the secret.  This module reads its effect off the writes and shows
that the head it leaves is described by the control revision it commits.
-/

namespace Hemlig

open Store DynamoRepository AgentSyncRepository

variable {init s s' : Cloud} {completed : CompletedMutation} {sequence : ℕ}
  {extendedAt : Option Time} {due : Time} {notifications : List NotificationOutboxRecord}

/-! ## Its writes -/

namespace CompletedMutation

/-- The new revisions of a commit, with their objects. -/
inductive Settles (completed : CompletedMutation) : WorkflowSk → ObjectReference → Prop
  | control : Settles completed (.control completed.prepared.control.controlVersionId)
      completed.controlObject
  | payload {payload : PreparedPayload} {object : ObjectReference}
      (hpayload : completed.prepared.payload = some payload)
      (hobject : completed.payloadObject = some object) :
      Settles completed (.payload payload.revision.payloadVersionId) object

/-- The kinds of writes of a commit. -/
inductive WriteOf (completed : CompletedMutation) (due : Time) (sequence : ℕ) : TableWrite → Prop
  | head : WriteOf completed due sequence (.update (.head completed.prepared.secretUid)
      (fun head => head.leaseOwner = some completed.prepared.operationId)
      (completed.head sequence))
  | ready {sk : WorkflowSk} {object : ObjectReference} (hsettles : completed.Settles sk object) :
      WriteOf completed due sequence
        (workflowReadyUpdate completed.prepared.secretUid sk object)
  | candidate {sk : WorkflowSk} : WriteOf completed due sequence
      (retentionCandidateUpdate completed.prepared.secretUid sk due)
  | name (harchive : completed.prepared.archive = true) : WriteOf completed due sequence
      (.delete (.lookup completed.prepared.environment completed.prepared.secretId)
        fun lookup => lookup.secretUid = completed.prepared.secretUid)
  | access (hreplace : completed.replaceAccess = true) {access : AccessRecord}
      (haccess : access ∈ completed.accessItems) : WriteOf completed due sequence
      (.put (.access access.consumerId access.environment access.secretUid) access fun _ => true)
  | notification (record : NotificationOutboxRecord) : WriteOf completed due sequence
      (.create (.notification record.eventId) record)

theorem mem_readyWrites {write : TableWrite} :
    write ∈ completed.readyWrites ↔ ∃ sk object, completed.Settles sk object ∧
      write = workflowReadyUpdate completed.prepared.secretUid sk object := by
  constructor
  · intro hmem
    rcases List.mem_cons.mp hmem with rfl | hmem
    · exact ⟨_, _, .control, rfl⟩
    · split at hmem
      · rename_i payload object hpayload hobject
        exact ⟨_, _, .payload hpayload hobject, List.mem_singleton.mp hmem⟩
      · cases hmem
  · rintro ⟨sk, object, hsettles, rfl⟩
    cases hsettles with
    | control => exact List.mem_cons_self
    | payload hpayload hobject =>
        simp [readyWrites, hpayload, hobject]

theorem writeOf_of_mem {write : TableWrite}
    (hmem : write ∈ completed.writes due notifications sequence) :
    completed.WriteOf due sequence write := by
  simp only [writes, List.mem_cons, List.mem_append] at hmem
  rcases hmem with rfl | (((hready | hcandidate) | hname) | haccess) | hnotification
  · exact .head
  · rw [mem_readyWrites] at hready
    obtain ⟨sk, object, hsettles, rfl⟩ := hready
    exact .ready hsettles
  · unfold candidateWrites at hcandidate
    split at hcandidate
    · cases hcandidate
    · rcases List.mem_cons.mp hcandidate with rfl | hpayload
      · exact .candidate
      · obtain ⟨_, -, rfl⟩ := List.mem_map.mp hpayload
        exact .candidate
  · unfold nameWrites at hname
    split at hname
    · rw [List.mem_singleton.mp hname]
      exact .name ‹_›
    · cases hname
  · unfold accessWrites at haccess
    split at haccess
    · obtain ⟨access, hitem, rfl⟩ := List.mem_map.mp haccess
      exact .access ‹_› hitem
    · cases haccess
  · obtain ⟨record, -, rfl⟩ := List.mem_map.mp hnotification
    exact .notification record

theorem head_mem_writes :
    Write.update (.head completed.prepared.secretUid)
      (fun head => head.leaseOwner = some completed.prepared.operationId)
      (completed.head sequence) ∈ completed.writes due notifications sequence :=
  List.mem_cons_self

theorem ready_mem_writes {sk : WorkflowSk} {object : ObjectReference}
    (hsettles : completed.Settles sk object) :
    workflowReadyUpdate completed.prepared.secretUid sk object ∈
      completed.writes due notifications sequence := by
  have hready : workflowReadyUpdate completed.prepared.secretUid sk object ∈
      completed.readyWrites := by
    rw [mem_readyWrites]
    exact ⟨sk, object, hsettles, rfl⟩
  simp only [writes, List.mem_cons, List.mem_append]
  exact .inr (.inl (.inl (.inl (.inl hready))))

theorem name_mem_writes (harchive : completed.prepared.archive = true) :
    Write.delete (.lookup completed.prepared.environment completed.prepared.secretId)
      (fun lookup => lookup.secretUid = completed.prepared.secretUid) ∈
      completed.writes due notifications sequence := by
  simp only [writes, List.mem_cons, List.mem_append]
  exact .inr (.inl (.inl (.inr (by simp [nameWrites, harchive]))))

theorem access_mem_writes (hreplace : completed.replaceAccess = true) {access : AccessRecord}
    (haccess : access ∈ completed.accessItems) :
    Write.put (.access access.consumerId access.environment access.secretUid) access
      (fun _ => true) ∈ completed.writes due notifications sequence := by
  simp only [writes, List.mem_cons, List.mem_append, accessWrites, hreplace, if_true]
  exact .inr (.inl (.inr (List.mem_map_of_mem haccess)))

/-- No write of the mutation itself is on the index. -/
theorem ofIndex_of_mem_writes {write : TableWrite}
    (hmem : write ∈ completed.writes due notifications sequence) : write.key.ofIndex = false := by
  cases writeOf_of_mem hmem <;> rfl

end CompletedMutation

/-! ## Its effect -/

/-- What becomes of a row. -/
inductive RowCommitted (s s' : Cloud) (completed : CompletedMutation) (u : String)
    (sk : WorkflowSk) : Prop
  | same (hsame : s'.workflow u sk = s.workflow u sk)
  | ready (row : StoredWorkflow) (object : ObjectReference)
      (hu : u = completed.prepared.secretUid) (hsettles : completed.Settles sk object)
      (hbefore : s.workflow u sk = some row) (hprepared : row.workflowState = .prepared)
      (hafter : s'.workflow u sk = some (readyRow object row))
  | candidate (row : StoredWorkflow) (due : Time)
      (hu : u = completed.prepared.secretUid) (hbefore : s.workflow u sk = some row)
      (hready : row.workflowState = .ready)
      (hafter : s'.workflow u sk = some (candidateRow due row))

structure Commitment (s s' : Cloud) (completed : CompletedMutation) (sequence : ℕ)
    (extendedAt : Option Time) : Prop where
  head : ∃ head, s.head completed.prepared.secretUid = some head ∧
    head.leaseOwner = some completed.prepared.operationId ∧
    s'.head completed.prepared.secretUid = some (completed.head sequence head)
  heads : ∀ u, u ≠ completed.prepared.secretUid → s'.head u = s.head u
  rows : ∀ u sk, RowCommitted s s' completed u sk
  settles : ∀ sk object, completed.Settles sk object →
    ∃ row, s.workflow completed.prepared.secretUid sk = some row ∧
      row.workflowState = .prepared ∧
      s'.workflow completed.prepared.secretUid sk = some (readyRow object row)
  lookups : ∀ environment secretId,
    s'.lookup environment secretId = s.lookup environment secretId ∨
      completed.prepared.archive = true ∧ s'.lookup environment secretId = none ∧
        ∃ lookup, s.lookup environment secretId = some lookup ∧
          lookup.secretUid = completed.prepared.secretUid
  name : completed.prepared.archive = true →
    s'.lookup completed.prepared.environment completed.prepared.secretId = none
  named : completed.prepared.archive = true → ∃ lookup,
    s.lookup completed.prepared.environment completed.prepared.secretId = some lookup ∧
      lookup.secretUid = completed.prepared.secretUid
  accessWritten : completed.replaceAccess = true → ∀ access ∈ completed.accessItems,
    s'.access access.consumerId access.environment access.secretUid = some access
  access : ∀ consumerId environment u,
    s'.access consumerId environment u = s.access consumerId environment u ∨
      completed.replaceAccess = true ∧ ∃ access ∈ completed.accessItems,
        access.consumerId = consumerId ∧ access.environment = environment ∧ access.secretUid = u
  environments : ∀ name, s'.environment name = s.environment name
  registry : s'.registry = s.registry
  rest : s' = { s.record (.committed completed sequence extendedAt) with table := s'.table }

section Transaction

variable {environment epoch : String} {record : AgentSyncRecord} {state : Option AgentSyncState}
  {ttl previous : Option ℕ} {conflicts : List ℕ} {table : Table Key Item}
  (h : transact s.table conflicts (publicationWrites environment record
    (completed.writes due notifications) state epoch ttl previous) = .ok table)

private theorem mem_commit {write : TableWrite}
    (hmem : write ∈ completed.writes due notifications (nextSequence state)) :
    write ∈ publicationWrites environment record (completed.writes due notifications) state epoch
      ttl previous :=
  mem_publicationWrites.mpr (.inr (.inl hmem))

include h

/-- A key outside the index is written by the mutation, or stays. -/
private theorem commit_cases {key : Key} (hindex : key.ofIndex = false) :
    table.get key = s.table.get key ∨
      ∃ write ∈ completed.writes due notifications (nextSequence state), write.key = key := by
  by_cases hkey : ∃ write ∈ completed.writes due notifications (nextSequence state),
      write.key = key
  · exact .inr hkey
  · exact .inl (get_of_publication h hindex fun write hwrite heq => hkey ⟨write, hwrite, heq⟩)

private theorem head_of_commit {u : String} (hu : u ≠ completed.prepared.secretUid) :
    table.get (.head u) = s.head u := by
  rcases commit_cases h (show (Key.head u).ofIndex = false from rfl) with
    hsame | ⟨write, hwrite, hkey⟩
  · exact hsame
  · cases CompletedMutation.writeOf_of_mem hwrite with
    | head => exact (hu (by simpa using hkey.symm)).elim
    | ready | candidate | name | access | notification => cases hkey

private theorem row_of_commit (u : String) (sk : WorkflowSk) :
    RowCommitted s ({ s with table := table }.record
      (.committed completed (nextSequence state) extendedAt)) completed u sk := by
  rcases commit_cases h (show (Key.workflow u sk).ofIndex = false from rfl) with
    hsame | ⟨write, hwrite, hkey⟩
  · exact .same hsame
  · cases CompletedMutation.writeOf_of_mem hwrite with
    | ready hsettles =>
        obtain ⟨rfl, rfl⟩ : completed.prepared.secretUid = u ∧ _ = sk := by
          simpa [workflowReadyUpdate] using hkey
        obtain ⟨row, hrow, hprepared, hafter⟩ := get_of_update h (mem_commit hwrite)
        exact .ready row _ rfl hsettles hrow (by simpa using hprepared) hafter
    | candidate =>
        obtain ⟨rfl, rfl⟩ : completed.prepared.secretUid = u ∧ _ = sk := by
          simpa [retentionCandidateUpdate] using hkey
        obtain ⟨row, hrow, hready, hafter⟩ := get_of_update h (mem_commit hwrite)
        exact .candidate row due rfl hrow (by simpa using hready) hafter
    | head | name | access | notification => cases hkey

private theorem lookup_of_commit (environment' secretId : String) :
    table.get (.lookup environment' secretId) = s.lookup environment' secretId ∨
      completed.prepared.archive = true ∧ table.get (.lookup environment' secretId) = none ∧
        ∃ lookup, s.lookup environment' secretId = some lookup ∧
          lookup.secretUid = completed.prepared.secretUid := by
  rcases commit_cases h (show (Key.lookup environment' secretId).ofIndex = false from rfl) with
    hsame | ⟨write, hwrite, hkey⟩
  · exact .inl hsame
  · cases CompletedMutation.writeOf_of_mem hwrite with
    | name harchive =>
        obtain ⟨rfl, rfl⟩ : completed.prepared.environment = environment' ∧
            completed.prepared.secretId = secretId := by
          simpa using hkey
        obtain ⟨lookup, hlookup, huid, hafter⟩ := get_of_delete h (mem_commit hwrite)
        exact .inr ⟨harchive, hafter, lookup, hlookup, by simpa using huid⟩
    | head | ready | candidate | access | notification => cases hkey

private theorem access_of_commit (consumerId environment' u : String) :
    table.get (.access consumerId environment' u) = s.access consumerId environment' u ∨
      completed.replaceAccess = true ∧ ∃ access ∈ completed.accessItems,
        access.consumerId = consumerId ∧ access.environment = environment' ∧
          access.secretUid = u := by
  rcases commit_cases h (show (Key.access consumerId environment' u).ofIndex = false from rfl) with
    hsame | ⟨write, hwrite, hkey⟩
  · exact .inl hsame
  · cases CompletedMutation.writeOf_of_mem hwrite with
    | access hreplace haccess => exact .inr ⟨hreplace, _, haccess, by simpa using hkey⟩
    | head | ready | candidate | name | notification => cases hkey

private theorem environment_of_commit (name : String) :
    table.get (.environment name) = s.environment name := by
  rcases commit_cases h (show (Key.environment name).ofIndex = false from rfl) with
    hsame | ⟨write, hwrite, hkey⟩
  · exact hsame
  · cases CompletedMutation.writeOf_of_mem hwrite <;> cases hkey

/-- A commit leaves the registry alone. -/
private theorem registry_of_commit : Registry.ofTable table = s.registry := by
  refine Registry.ofTable_congr fun key hkey => ?_
  have hindex : key.ofIndex = false := by
    cases key <;> simp_all [Key.ofRegistry, Key.ofIndex]
  rcases commit_cases h hindex with hsame | ⟨write, hwrite, rfl⟩
  · exact hsame
  · cases CompletedMutation.writeOf_of_mem hwrite <;> cases hkey

/-- **The effect of the transaction.** -/
theorem commitment_of_transact :
    Commitment s ({ s with table := table }.record
      (.committed completed (nextSequence state) extendedAt)) completed (nextSequence state)
      extendedAt where
  head := by
    obtain ⟨head, hhead, howner, hafter⟩ :=
      get_of_update h (mem_commit CompletedMutation.head_mem_writes)
    exact ⟨head, hhead, by simpa using howner, hafter⟩
  heads _ hu := head_of_commit h hu
  rows u sk := row_of_commit h u sk
  settles := by
    intro sk object hsettles
    obtain ⟨row, hrow, hprepared, hafter⟩ :=
      get_of_update h (mem_commit (CompletedMutation.ready_mem_writes hsettles))
    exact ⟨row, hrow, by simpa using hprepared, hafter⟩
  lookups := lookup_of_commit h
  name := by
    intro harchive
    obtain ⟨-, -, -, hafter⟩ :=
      get_of_delete h (mem_commit (CompletedMutation.name_mem_writes harchive))
    exact hafter
  named := by
    intro harchive
    obtain ⟨lookup, hlookup, huid, -⟩ :=
      get_of_delete h (mem_commit (CompletedMutation.name_mem_writes harchive))
    exact ⟨lookup, hlookup, by simpa using huid⟩
  accessWritten hreplace _ haccess :=
    get_of_mem h (mem_commit (CompletedMutation.access_mem_writes hreplace haccess))
  access := access_of_commit h
  environments := environment_of_commit h
  registry := registry_of_commit h
  rest := rfl

end Transaction

/-! ## The head before and after -/

/-- The head that a commit replaces: the one its own preparation created, or the one
its mutation was made from. -/
inductive Predecessor (s : Cloud) (completed : CompletedMutation) (head : HeadRecord) : Prop
  | created (hhead : head = createdHead completed.prepared) (hcreates : completed.prepared.Creates)
      (hprior : completed.priorHead = none) (haccess : completed.priorAccess = [])
  | updated (prior : HeadRecord) (control : ControlRevision) (hcommitted : head.Committed)
      (hcontent : head.content = prior.content) (hprior : completed.priorHead = some prior)
      (hdescribes : s.Describes completed.prepared.secretUid head control)
      (hready : UpdateReady s completed.prepared completed.priorAccess prior control)

/-- **The lease names the predecessor.** -/
theorem CommitReady.predecessor {pid : ℕ} (hinv : Invariant init s)
    (hready : CommitReady pid s completed extendedAt) {head : HeadRecord}
    (hhead : s.head completed.prepared.secretUid = some head)
    (howner : head.leaseOwner = some completed.prepared.operationId) :
    Predecessor s completed head := by
  obtain ⟨mutation, hprepared, hid, -, hexpected⟩ := hinv.heads.lease hhead howner
  obtain rfl := hinv.history.operation hprepared hready.prepared hid
  rcases hready.kind with ⟨hcreates, hprior, haccess⟩ | ⟨prior, control, hprior, hupdate⟩
  · have hnot : ¬ head.Committed := fun hcommitted => by
      cases hcreates.expected.symm.trans (hexpected hcommitted)
    obtain ⟨mutation, hprepared', -, -, -, rfl | rfl⟩ := hinv.heads.creating hhead hnot
    · obtain rfl := hinv.history.operation hprepared' hready.prepared (Option.some.inj howner)
      exact .created rfl hcreates hprior haccess
    · cases howner
  · obtain ⟨current, hcurrent, hcommitted, -, -, hagree⟩ := hupdate.snapshot.current
    obtain rfl : head = current := Option.some.inj (hhead.symm.trans hcurrent)
    have hcv : head.controlVersionId = prior.controlVersionId :=
      Option.some.inj ((hexpected hcommitted).symm.trans hupdate.updates.expected)
    obtain ⟨described, hdescribes⟩ := hinv.heads.described hhead hcommitted
    obtain rfl : described = control := by
      obtain ⟨-, -, -, ⟨⟨row, hrow, -, -, hserialized⟩, -⟩⟩ := hdescribes.stored
      obtain ⟨row', hrow', -, hserialized'⟩ := hupdate.snapshot.settled
      rw [hcv] at hrow
      obtain rfl : row = row' := Option.some.inj (hrow.symm.trans hrow')
      simpa using hserialized.symm.trans hserialized'
    exact .updated prior described hcommitted (hagree hcv) hprior hdescribes hupdate

namespace Predecessor

variable {head : HeadRecord}

theorem environment (h : Predecessor s completed head) :
    head.environment = completed.prepared.environment := by
  cases h with
  | created hhead => rw [hhead]; rfl
  | updated prior control _ hcontent _ _ hready =>
      exact (HeadRecord.environment_of_content hcontent).trans hready.updates.environment.symm

theorem secretId (h : Predecessor s completed head) :
    head.secretId = completed.prepared.secretId := by
  cases h with
  | created hhead => rw [hhead]; rfl
  | updated prior control _ hcontent _ _ hready =>
      exact (HeadRecord.secretId_of_content hcontent).trans hready.updates.secretId.symm

/-- The mutation was prepared on the version it replaces. -/
theorem expected (h : Predecessor s completed head)
    (hhead : s.head completed.prepared.secretUid = some head) :
    completed.prepared.expectedControlVersionId = s.version completed.prepared.secretUid := by
  cases h with
  | created heq hcreates => simp [Cloud.version, hhead, heq, createdHead, hcreates.expected]
  | updated prior control hcommitted hcontent _ _ hready =>
      rw [hready.updates.expected, eq_comm, Cloud.version_eq_some]
      exact ⟨head, hhead, hcommitted, HeadRecord.controlVersionId_of_content hcontent⟩

end Predecessor

/-- The payload of a head. -/
def HeadRecord.payloadFields (head : HeadRecord) :
    Option String × Option String × Option ObjectKey :=
  (head.payloadVersionId, head.payloadObjectVersionId, head.payloadObjectKey)

namespace CompletedMutation

variable (sequence : ℕ) (head : HeadRecord)

theorem payloadFields_of_payload {payload : PreparedPayload} {object : ObjectReference}
    (hpayload : completed.prepared.payload = some payload)
    (hobject : completed.payloadObject = some object) :
    (completed.head sequence head).payloadFields =
      (some payload.revision.payloadVersionId, some object.versionId, some object.key) := by
  simp [HeadRecord.payloadFields, CompletedMutation.head, hasPayload, payloadVersionId,
    payloadObjectVersionId, payloadObjectKey, hpayload, hobject]

theorem payloadFields_of_create (hpayload : completed.prepared.payload = none)
    (hobject : completed.payloadObject = none) (hprior : completed.priorHead = none) :
    (completed.head sequence head).payloadFields = (none, none, none) := by
  simp [HeadRecord.payloadFields, CompletedMutation.head, hasPayload, payloadVersionId,
    payloadObjectVersionId, payloadObjectKey, hpayload, hobject, hprior]

/-- A mutation without a payload keeps the payload of its predecessor. -/
theorem payloadFields_of_prior {prior : HeadRecord} {u : String} {control : ControlRevision}
    (hpayload : completed.prepared.payload = none) (hobject : completed.payloadObject = none)
    (hprior : completed.priorHead = some prior) (hdescribes : s.Describes u prior control) :
    (completed.head sequence head).payloadFields = prior.payloadFields := by
  cases hversion : prior.payloadVersionId with
  | none =>
      obtain ⟨hobjectVersion, hkey⟩ := hdescribes.noPayload hversion
      simp [HeadRecord.payloadFields, CompletedMutation.head, hasPayload, payloadVersionId,
        payloadObjectVersionId, payloadObjectKey, hpayload, hobject, hprior, hversion,
        hobjectVersion, hkey]
  | some payloadVersionId =>
      obtain ⟨versionId, -, hobjectVersion, hkey, -⟩ := hdescribes.payload _ hversion
      simp [HeadRecord.payloadFields, CompletedMutation.head, hasPayload,
        CompletedMutation.payloadVersionId, payloadObjectVersionId, payloadObjectKey, hpayload,
        hobject, hprior, hversion, hobjectVersion, hkey]

end CompletedMutation

namespace Commitment

variable {pid : ℕ} {head : HeadRecord} (h : Commitment s s' completed sequence extendedAt)
include h

theorem objects : s'.objects = s.objects := (congrArg Cloud.objects h.rest).trans rfl

theorem known : s'.known = s.known := (congrArg Cloud.known h.rest).trans rfl

theorem history :
    s'.history = s.history ++ [⟨s.now, s.known, .committed completed sequence extendedAt⟩] :=
  (congrArg Cloud.history h.rest).trans rfl

theorem history_extends : s.history <+: s'.history := h.history ▸ List.prefix_append _ _

/-! ### Rows -/

theorem row_forward {u : String} {sk : WorkflowSk} {row : StoredWorkflow}
    (hrow : s.workflow u sk = some row) : ∃ row', s'.workflow u sk = some row' ∧ RowStep row row' ∧
      (¬ row.Settled → row'.Settled → u = completed.prepared.secretUid ∧
        ∃ object, completed.Settles sk object) := by
  cases h.rows u sk with
  | same hsame => exact ⟨row, hsame.trans hrow, .refl _, fun hnot hsettled => (hnot hsettled).elim⟩
  | ready other object hu hsettles hbefore hprepared hafter =>
      obtain rfl : row = other := Option.some.inj (hrow.symm.trans hbefore)
      exact ⟨_, hafter, ⟨rfl, rfl, fun hsettled => by
        simp [StoredWorkflow.Settled, hprepared] at hsettled⟩, fun _ _ => ⟨hu, object, hsettles⟩⟩
  | candidate other due hu hbefore hready hafter =>
      obtain rfl : row = other := Option.some.inj (hrow.symm.trans hbefore)
      exact ⟨_, hafter, (RowKept.candidate due hready).step,
        fun hnot hsettled => (hnot hsettled).elim⟩

theorem row_backward {u : String} {sk : WorkflowSk} {row' : StoredWorkflow}
    (hrow' : s'.workflow u sk = some row') : ∃ row, s.workflow u sk = some row ∧
      (row'.Settled → row.Settled ∨ u = completed.prepared.secretUid) := by
  cases h.rows u sk with
  | same hsame => exact ⟨row', hsame.symm.trans hrow', .inl⟩
  | ready row object hu hsettles hbefore hprepared hafter => exact ⟨row, hbefore, fun _ => .inr hu⟩
  | candidate row due hu hbefore hready hafter => exact ⟨row, hbefore, fun _ => .inr hu⟩

/-- A committed revision stays committed. -/
theorem holds {u : String} {sk : WorkflowSk} {versionId : String} {body : ObjectBody}
    (hholds : s.Holds u sk versionId body) : s'.Holds u sk versionId body := by
  obtain ⟨⟨row, hrow, hready, hversion, hserialized⟩, hobject⟩ := hholds
  refine ⟨?_, by rwa [h.objects]⟩
  cases h.rows u sk with
  | same hsame => exact ⟨row, hsame.trans hrow, hready, hversion, hserialized⟩
  | ready other object hu hsettles hbefore hprepared hafter =>
      obtain rfl : row = other := Option.some.inj (hrow.symm.trans hbefore)
      cases hready.symm.trans hprepared
  | candidate other due hu hbefore hready' hafter =>
      obtain rfl : row = other := Option.some.inj (hrow.symm.trans hbefore)
      exact ⟨_, hafter, hready, hversion, hserialized⟩

/-- A new revision is committed. -/
theorem holds_settles {sk : WorkflowSk} {object : ObjectReference} {body : ObjectBody}
    (hsettles : completed.Settles sk object)
    (hstored : s.Stored completed.prepared.secretUid sk completed.prepared.operationId
      object.versionId body)
    (hserialized : ∀ row, s.workflow completed.prepared.secretUid sk = some row →
      row.serialized = body) :
    s'.Holds completed.prepared.secretUid sk object.versionId body := by
  obtain ⟨row, hrow, -, hafter⟩ := h.settles sk object hsettles
  obtain ⟨stored, hobject, hversion, hbody⟩ := hstored.object
  exact ⟨⟨_, hafter, rfl, rfl, hserialized row hrow⟩, stored, by rwa [h.objects], hversion, hbody⟩

theorem holds_control (hinv : RowsInv s) (hready : CommitReady pid s completed extendedAt) :
    s'.Holds completed.prepared.secretUid
      (.control completed.prepared.control.controlVersionId) completed.controlObject.versionId
      (.control completed.prepared.control) := by
  refine h.holds_settles .control hready.control fun row hrow => ?_
  obtain ⟨other, hother, -, hserialized⟩ := hinv.prepared hready.prepared
  obtain rfl : row = other := Option.some.inj (hrow.symm.trans hother)
  exact hserialized

theorem holds_payload (hinv : RowsInv s) (hready : CommitReady pid s completed extendedAt)
    {payload : PreparedPayload} (hpayload : completed.prepared.payload = some payload) :
    ∃ object, completed.payloadObject = some object ∧
      object.key = payloadKey completed.prepared.secretUid payload.revision.payloadVersionId ∧
      s'.Holds completed.prepared.secretUid (.payload payload.revision.payloadVersionId)
        object.versionId (.payload payload.revision) := by
  obtain ⟨object, hobject, hkey, hstored⟩ := hready.payload payload hpayload
  refine ⟨object, hobject, hkey, h.holds_settles (.payload hpayload hobject) hstored
    fun row hrow => ?_⟩
  obtain ⟨other, hother, -, hserialized⟩ := hinv.preparedPayload hready.prepared hpayload
  obtain rfl : row = other := Option.some.inj (hrow.symm.trans hother)
  exact hserialized

/-! ### The new head -/

/-- The payload that the new head names, and where it is stored. -/
theorem payload_of_head (hinv : RowsInv s) (hready : CommitReady pid s completed extendedAt)
    (hpredecessor : Predecessor s completed head) :
    completed.prepared.control.payloadVersionId =
        (completed.head sequence head).payloadVersionId ∧
      (∀ payloadVersionId, (completed.head sequence head).payloadVersionId = some payloadVersionId →
        ∃ versionId revision,
          (completed.head sequence head).payloadObjectVersionId = some versionId ∧
          (completed.head sequence head).payloadObjectKey =
            some (payloadKey completed.prepared.secretUid payloadVersionId) ∧
          s'.Holds completed.prepared.secretUid (.payload payloadVersionId) versionId
            (.payload revision)) ∧
      ((completed.head sequence head).payloadVersionId = none →
        (completed.head sequence head).payloadObjectVersionId = none ∧
          (completed.head sequence head).payloadObjectKey = none) := by
  cases hpayload : completed.prepared.payload with
  | some payload =>
      obtain ⟨object, hobject, hkey, hholds⟩ := h.holds_payload hinv hready hpayload
      obtain ⟨hversion, hobjectVersion, hobjectKey⟩ : (completed.head sequence head).payloadVersionId =
          some payload.revision.payloadVersionId ∧
          (completed.head sequence head).payloadObjectVersionId = some object.versionId ∧
          (completed.head sequence head).payloadObjectKey = some object.key := by
        simpa [HeadRecord.payloadFields] using
          CompletedMutation.payloadFields_of_payload sequence head hpayload
            hobject
      rw [hversion, hobjectVersion, hobjectKey]
      refine ⟨(hready.wellFormed.payload payload hpayload).2, fun payloadVersionId hsome => ?_,
        fun hnone => by cases hnone⟩
      obtain rfl := Option.some.inj hsome
      exact ⟨_, _, rfl, by rw [hkey], hholds⟩
  | none =>
      have hobject := hready.noPayload hpayload
      cases hpredecessor with
      | created hhead hcreates hprior haccess =>
          obtain ⟨hversion, hobjectVersion, hobjectKey⟩ :
              (completed.head sequence head).payloadVersionId = none ∧
              (completed.head sequence head).payloadObjectVersionId = none ∧
              (completed.head sequence head).payloadObjectKey = none := by
            simpa [HeadRecord.payloadFields] using
              CompletedMutation.payloadFields_of_create sequence head
                hpayload hobject hprior
          rw [hversion, hobjectVersion, hobjectKey]
          exact ⟨hcreates.payloadVersionId, fun _ hsome => absurd hsome (Option.some_ne_none _).symm,
            fun _ => ⟨rfl, rfl⟩⟩
      | updated prior control hcommitted hcontent hprior hdescribes hupdate =>
          have hdescribes' : s.Describes completed.prepared.secretUid prior control :=
            hdescribes.mono hcontent.symm fun _ _ _ _ hholds => hholds
          obtain ⟨hversion, hobjectVersion, hobjectKey⟩ :
              (completed.head sequence head).payloadVersionId = prior.payloadVersionId ∧
              (completed.head sequence head).payloadObjectVersionId =
                prior.payloadObjectVersionId ∧
              (completed.head sequence head).payloadObjectKey = prior.payloadObjectKey := by
            simpa [HeadRecord.payloadFields] using
              CompletedMutation.payloadFields_of_prior sequence head
                hpayload hobject hprior hdescribes'
          rw [hversion, hobjectVersion, hobjectKey]
          refine ⟨(hupdate.updates.payloadVersionId hpayload).trans hdescribes'.payloadVersionId,
            fun payloadVersionId hsome => ?_, hdescribes'.noPayload⟩
          obtain ⟨versionId, revision, hversion, hkey, hholds⟩ :=
            hdescribes'.payload payloadVersionId hsome
          exact ⟨versionId, revision, hversion, hkey, h.holds hholds⟩

/-- **The head that a commit leaves says what its control revision says.** -/
theorem describes (hinv : RowsInv s) (hready : CommitReady pid s completed extendedAt)
    (hpredecessor : Predecessor s completed head) :
    s'.Describes completed.prepared.secretUid (completed.head sequence head)
      completed.prepared.control := by
  obtain ⟨hversion, hpayload, hnone⟩ := h.payload_of_head hinv hready hpredecessor
  exact
    { stored := ⟨_, rfl, congrArg some hready.controlKey, h.holds_control hinv hready⟩
      secretId := hready.wellFormed.secretId.trans hpredecessor.secretId.symm
      environment := hready.wellFormed.environment.trans hpredecessor.environment.symm
      state := rfl
      metadata := rfl
      payloadVersionId := hversion
      payload := hpayload
      noPayload := hnone }

end Commitment

end Hemlig
