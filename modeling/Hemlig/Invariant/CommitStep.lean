import Hemlig.Invariant.Prepare
import Hemlig.Invariant.Projection

/-!
# A commit keeps the invariant

The secret that commits gets a head that its new control revision describes; every
other secret keeps its head, its rows and its records.
-/

namespace Hemlig

open Store DynamoRepository AgentSyncRepository

/-- A commit in a state that satisfies the invariant. -/
structure Committing (init s s' : Cloud) (completed : CompletedMutation) (sequence : ℕ)
    (extendedAt : Option Time) (pid : ℕ) (head : HeadRecord) : Prop where
  effect : Commitment s s' completed sequence extendedAt
  invariant : Invariant init s
  ready : CommitReady pid s completed extendedAt
  before : s.head completed.prepared.secretUid = some head
  owner : head.leaseOwner = some completed.prepared.operationId
  after : s'.head completed.prepared.secretUid = some (completed.head sequence head)
  predecessor : Predecessor s completed head

theorem Commitment.committing {init s s' : Cloud} {completed : CompletedMutation} {sequence : ℕ}
    {extendedAt : Option Time} {pid : ℕ} (h : Commitment s s' completed sequence extendedAt)
    (hinv : Invariant init s) (hready : CommitReady pid s completed extendedAt) :
    ∃ head, Committing init s s' completed sequence extendedAt pid head := by
  obtain ⟨head, hhead, howner, hafter⟩ := h.head
  exact ⟨head, h, hinv, hready, hhead, howner, hafter, hready.predecessor hinv hhead howner⟩

namespace Committing

variable {init s s' : Cloud} {completed : CompletedMutation} {sequence pid : ℕ}
  {extendedAt : Option Time} {head : HeadRecord}
  (h : Committing init s s' completed sequence extendedAt pid head)
include h

/-! ## What it keeps -/

theorem head_backward {u : String} {head' : HeadRecord} (hhead' : s'.head u = some head') :
    (u = completed.prepared.secretUid ∧ head' = completed.head sequence head) ∨
      u ≠ completed.prepared.secretUid ∧ s.head u = some head' := by
  by_cases hu : u = completed.prepared.secretUid
  · subst hu
    exact .inl ⟨rfl, Option.some.inj (hhead'.symm.trans h.after)⟩
  · exact .inr ⟨hu, (h.effect.heads u hu).symm.trans hhead'⟩

theorem committed_forward {u : String} {head' : HeadRecord} (hhead' : s.head u = some head')
    (hcommitted : head'.Committed) : ∃ head'', s'.head u = some head'' ∧ head''.Committed ∧
      head''.environment = head'.environment ∧ head''.secretId = head'.secretId := by
  by_cases hu : u = completed.prepared.secretUid
  · subst hu
    obtain rfl : head = head' := Option.some.inj (h.before.symm.trans hhead')
    exact ⟨_, h.after, rfl, rfl, rfl⟩
  · exact ⟨head', (h.effect.heads u hu).trans hhead', hcommitted, rfl, rfl⟩

/-- The head of another secret, with what describes it. -/
theorem describes_other {u : String} {head' : HeadRecord} {control : ControlRevision}
    (hdescribes : s.Describes u head' control) : s'.Describes u head' control :=
  hdescribes.mono rfl fun _ _ _ _ hholds => h.effect.holds hholds

theorem describes_backward {u : String} {head' : HeadRecord} {control : ControlRevision}
    (hhead : s.head u = some head') (hcommitted : head'.Committed)
    (hdescribes' : s'.Describes u head' control) : s.Describes u head' control := by
  obtain ⟨other, hdescribes⟩ := h.invariant.heads.described hhead hcommitted
  obtain rfl := (h.describes_other hdescribes).unique hdescribes'
  exact hdescribes

theorem describes : s'.Describes completed.prepared.secretUid (completed.head sequence head)
    completed.prepared.control :=
  h.effect.describes h.invariant.rows h.ready h.predecessor

theorem happened {event : Event} (hevent : s'.Happened event) :
    s.Happened event ∨ event = .committed completed sequence extendedAt :=
  hevent.of_append h.effect.history

theorem prepared {mutation : PreparedMutation} (hprepared : s'.Prepared mutation) :
    s.Prepared mutation := by
  rcases h.happened hprepared with hold | hnew
  · exact hold
  · cases hnew

/-- An archive that committed before, or this one. -/
theorem archivedAt {u : String} {known : List String} (harchived : s'.ArchivedAt u known) :
    s.ArchivedAt u known ∨ known = s.known ∧ u = completed.prepared.secretUid ∧
      completed.prepared.archive = true := by
  obtain ⟨entry, hentry, rfl, other, sequence', extendedAt', hevent, harchive, rfl⟩ := harchived
  rw [h.effect.history] at hentry
  rcases List.mem_append.mp hentry with hold | hnew
  · exact .inl ⟨entry, hold, rfl, other, sequence', extendedAt', hevent, harchive, rfl⟩
  · rw [List.mem_singleton.mp hnew] at hevent ⊢
    obtain ⟨rfl, -, -⟩ : completed = other ∧ sequence = sequence' ∧ extendedAt = extendedAt' := by
      simpa using hevent
    exact .inr ⟨rfl, rfl, harchive⟩

theorem not_archivedAt_of_create (hnot : ¬ head.Committed) {known : List String} :
    ¬ s.ArchivedAt completed.prepared.secretUid known := by
  rintro ⟨entry, hentry, -, other, sequence', extendedAt', hevent, -, huid⟩
  have hmem : other ∈ s.commits completed.prepared.secretUid :=
    List.mem_filterMap.mpr ⟨entry, hentry, by simp [hevent, huid]⟩
  exact (h.invariant.history.chain _).ne_none (List.ne_nil_of_mem hmem)
    (Cloud.versions_of_not_committed h.before hnot).1

theorem dead {operationId : String} (hdead : s.Dead operationId) : s'.Dead operationId := by
  obtain ⟨⟨mutation, hprepared, hid⟩, hlease⟩ := hdead
  refine ⟨⟨mutation, hprepared.mono h.effect.history_extends, hid⟩, fun u head' hhead' howner => ?_⟩
  rcases h.head_backward hhead' with ⟨-, rfl⟩ | ⟨-, hhead⟩
  · cases howner
  · exact hlease u head' hhead howner

/-- The operation that commits gives up its lease. -/
theorem dead_self : s'.Dead completed.prepared.operationId := by
  refine ⟨⟨_, h.ready.prepared.mono h.effect.history_extends, rfl⟩, fun u head' hhead' howner => ?_⟩
  rcases h.head_backward hhead' with ⟨-, rfl⟩ | ⟨hu, hhead⟩
  · cases howner
  · obtain ⟨mutation, hprepared, hid, huid, -⟩ := h.invariant.heads.lease hhead howner
    obtain rfl := h.invariant.history.operation hprepared h.ready.prepared hid
    exact hu huid.symm

/-! ## Rows and heads -/

theorem readyRow_ok {sk : WorkflowSk} {object : ObjectReference} {row : StoredWorkflow}
    (hsettles : completed.Settles sk object)
    (hok : WorkflowOk s.known completed.prepared.secretUid sk row)
    (hprepared : row.workflowState = .prepared) :
    WorkflowOk s.known completed.prepared.secretUid sk (readyRow object row) where
  uid := hok.uid
  objectKey := by
    cases hsettles with
    | control => exact h.ready.controlKey
    | payload hpayload hobject =>
        obtain ⟨other, hother, hkey, -⟩ := h.ready.payload _ hpayload
        obtain rfl := Option.some.inj (hobject.symm.trans hother)
        exact hkey
  documents := hok.documents
  version := hok.version
  due := by simp [readyRow]
  stored := by simp [readyRow, StoredWorkflow.Settled]
  retention hsome := by
    cases hprepared.symm.trans (hok.retention hsome)

theorem rowsInv : RowsInv s' where
  ok := by
    intro u sk row' hrow'
    rw [h.effect.known]
    cases h.effect.rows u sk with
    | same hsame => exact h.invariant.rows.ok (hsame.symm.trans hrow')
    | ready row object hu hsettles hbefore hprepared hafter =>
        subst hu
        obtain rfl := Option.some.inj (hafter.symm.trans hrow')
        exact h.readyRow_ok hsettles (h.invariant.rows.ok hbefore) hprepared
    | candidate row due hu hbefore hready hafter =>
        obtain rfl := Option.some.inj (hafter.symm.trans hrow')
        exact (RowKept.candidate due hready).ok (h.invariant.rows.ok hbefore)
  index := by
    intro u sk row hrow
    rw [(congrArg Cloud.index h.effect.rest).trans rfl] at hrow
    obtain ⟨hok, current, hcurrent, hstep⟩ := h.invariant.rows.index hrow
    obtain ⟨current', hcurrent', hstep', -⟩ := h.effect.row_forward hcurrent
    exact ⟨h.effect.known.symm ▸ hok, current', hcurrent', hstep.trans hstep'⟩
  settled := by
    intro u sk row' hrow' hsettled'
    obtain ⟨row, hrow, hsettled⟩ := h.effect.row_backward hrow'
    rcases hsettled hsettled' with hsettled | rfl
    · obtain ⟨head', hhead', hcommitted⟩ := h.invariant.rows.settled hrow hsettled
      obtain ⟨head'', hhead'', hcommitted', -⟩ := h.committed_forward hhead' hcommitted
      exact ⟨head'', hhead'', hcommitted'⟩
    · exact ⟨_, h.after, rfl⟩
  prepared := by
    intro mutation hprepared
    obtain ⟨row, hrow, hid, hserialized⟩ := h.invariant.rows.prepared (h.prepared hprepared)
    obtain ⟨row', hrow', hstep, -⟩ := h.effect.row_forward hrow
    exact ⟨row', hrow', hstep.operationId.trans hid, hstep.serialized.trans hserialized⟩
  preparedPayload := by
    intro mutation payload hprepared hpayload
    obtain ⟨row, hrow, hid, hserialized⟩ :=
      h.invariant.rows.preparedPayload (h.prepared hprepared) hpayload
    obtain ⟨row', hrow', hstep, -⟩ := h.effect.row_forward hrow
    exact ⟨row', hrow', hstep.operationId.trans hid, hstep.serialized.trans hserialized⟩

theorem headsInv : HeadsInv s' where
  uid := by
    intro u head' hhead'
    rcases h.head_backward hhead' with ⟨rfl, rfl⟩ | ⟨-, hhead⟩
    · exact (h.invariant.heads.uid h.before : head.secretUid = _ ∧ _)
    · exact h.invariant.heads.uid hhead
  environment := by
    intro u head' hhead'
    rw [h.effect.environments]
    rcases h.head_backward hhead' with ⟨rfl, rfl⟩ | ⟨-, hhead⟩
    · exact (h.invariant.heads.environment h.before : (s.environment head.environment).isSome)
    · exact h.invariant.heads.environment hhead
  described := by
    intro u head' hhead' hcommitted'
    rcases h.head_backward hhead' with ⟨rfl, rfl⟩ | ⟨-, hhead⟩
    · exact ⟨_, h.describes⟩
    · obtain ⟨control, hdescribes⟩ := h.invariant.heads.described hhead hcommitted'
      exact ⟨control, h.describes_other hdescribes⟩
  creating := by
    intro u head' hhead' hnot
    rcases h.head_backward hhead' with ⟨-, rfl⟩ | ⟨-, hhead⟩
    · exact (hnot rfl).elim
    · obtain ⟨mutation, hprepared, hrest⟩ := h.invariant.heads.creating hhead hnot
      exact ⟨mutation, hprepared.mono h.effect.history_extends, hrest⟩
  unsettled := by
    intro u head' hhead' hnot sk row' hrow' hsettled'
    rcases h.head_backward hhead' with ⟨-, rfl⟩ | ⟨hu, hhead⟩
    · exact hnot rfl
    · obtain ⟨row, hrow, hsettled⟩ := h.effect.row_backward hrow'
      exact h.invariant.heads.unsettled hhead hnot sk row hrow ((hsettled hsettled').resolve_right hu)
  lease := by
    intro u head' operationId hhead' howner
    rcases h.head_backward hhead' with ⟨-, rfl⟩ | ⟨-, hhead⟩
    · cases howner
    · obtain ⟨mutation, hprepared, hrest⟩ := h.invariant.heads.lease hhead howner
      exact ⟨mutation, hprepared.mono h.effect.history_extends, hrest⟩

/-! ## Names -/

theorem lookup_backward {environment secretId : String} {lookup : SecretLookup}
    (hlookup : s'.lookup environment secretId = some lookup) :
    s.lookup environment secretId = some lookup := by
  rcases h.effect.lookups environment secretId with hsame | ⟨-, hnone, -⟩
  · exact hsame.symm.trans hlookup
  · cases hnone.symm.trans hlookup

/-- An archive leaves its secret without a name. -/
theorem lookup_ne_of_archive (harchive : completed.prepared.archive = true)
    {environment secretId : String} {lookup : SecretLookup}
    (hlookup : s'.lookup environment secretId = some lookup) :
    lookup.secretUid ≠ completed.prepared.secretUid := by
  intro huid
  obtain ⟨named, hnamed, henvironment, hsecretId, -⟩ :=
    h.invariant.names.lookup (h.lookup_backward hlookup)
  rw [huid] at hnamed
  obtain rfl : head = named := Option.some.inj (h.before.symm.trans hnamed)
  rw [← henvironment, ← hsecretId, h.predecessor.environment, h.predecessor.secretId,
    h.effect.name harchive] at hlookup
  cases hlookup

/-- A secret with a name stays live unless it is archived. -/
theorem state_of_lookup (harchive : completed.prepared.archive = false)
    (hlive : head.state ≠ .archived) : completed.prepared.control.state ≠ .archived := by
  have hpredecessor := h.predecessor
  cases hpredecessor with
  | created hhead hcreates => exact hcreates.state
  | updated prior control hcommitted hcontent hprior hdescribes hready =>
      exact fun hstate => hlive
        (hdescribes.state.symm.trans (hready.updates.state harchive hstate))

theorem namesInv : NamesInv s' where
  lookup := by
    intro environment secretId lookup hlookup
    obtain ⟨named, hnamed, henvironment, hsecretId, hstate⟩ :=
      h.invariant.names.lookup (h.lookup_backward hlookup)
    by_cases hu : lookup.secretUid = completed.prepared.secretUid
    · rw [hu] at hnamed ⊢
      obtain rfl : head = named := Option.some.inj (h.before.symm.trans hnamed)
      refine ⟨_, h.after, henvironment, hsecretId, ?_⟩
      cases harchive : completed.prepared.archive with
      | true => exact (h.lookup_ne_of_archive harchive hlookup hu).elim
      | false => exact h.state_of_lookup harchive hstate
    · exact ⟨named, (h.effect.heads _ hu).trans hnamed, henvironment, hsecretId, hstate⟩
  creating := by
    intro u head' hhead' hnot
    rcases h.head_backward hhead' with ⟨-, rfl⟩ | ⟨hu, hhead⟩
    · exact (hnot rfl).elim
    · obtain ⟨lookup, hlookup, huid⟩ := h.invariant.names.creating hhead hnot
      refine ⟨lookup, ?_, huid⟩
      rcases h.effect.lookups head'.environment head'.secretId with
        hsame | ⟨-, -, other, hother, hother'⟩
      · exact hsame.trans hlookup
      · obtain rfl : lookup = other := Option.some.inj (hlookup.symm.trans hother)
        exact (hu (huid.symm.trans hother')).elim
  archived := by
    intro u known environment secretId lookup harchived hlookup
    rcases h.archivedAt harchived with hold | ⟨-, rfl, harchive⟩
    · exact h.invariant.names.archived hold (h.lookup_backward hlookup)
    · exact h.lookup_ne_of_archive harchive hlookup

/-! ## Access records -/

/-- The records of the other secrets stay. -/
theorem access_other {u : String} (hu : u ≠ completed.prepared.secretUid)
    (consumerId environment : String) :
    s'.access consumerId environment u = s.access consumerId environment u := by
  rcases h.effect.access consumerId environment u with hsame | ⟨-, access, haccess, -, -, huid⟩
  · exact hsame
  · obtain ⟨_, -, rfl⟩ := mem_accessItemsFor.mp haccess
    exact (hu huid.symm).elim

/-- The control revision of an archive has no ACL, and neither has one that was drawn
before the archive. -/
theorem sealed_self {known : List String}
    (harchived : s'.ArchivedAt completed.prepared.secretUid known)
    (hmem : completed.prepared.control.controlVersionId ∈ known) :
    completed.prepared.control.acl = [] := by
  have hpredecessor := h.predecessor
  cases hpredecessor with
  | created hhead hcreates =>
      rcases h.archivedAt harchived with hold | ⟨-, -, harchive⟩
      · exact (h.not_archivedAt_of_create (by simp [hhead, createdHead]) hold).elim
      · cases hcreates.archive.symm.trans harchive
  | updated prior control hcommitted hcontent hprior hdescribes hready =>
      rcases h.archivedAt harchived with hold | ⟨-, -, harchive⟩
      · have hversion : s.version completed.prepared.secretUid = some prior.controlVersionId :=
          Cloud.version_eq_some.mpr
            ⟨head, h.before, hcommitted, HeadRecord.controlVersionId_of_content hcontent⟩
        exact (hready.later known hold hmem hversion).elim
      · exact (hready.updates.archive harchive).2.1

theorem accessInv : AccessInv s' where
  record := by
    intro consumerId environment u access haccess
    rcases h.effect.access consumerId environment u with hsame | ⟨hreplace, item, hitem, hkey⟩
    · obtain ⟨hconsumer, huid, henvironment, head', hhead', hcommitted, hin⟩ :=
        h.invariant.access.record (hsame.symm.trans haccess)
      obtain ⟨head'', hhead'', hcommitted', hin', -⟩ := h.committed_forward hhead' hcommitted
      exact ⟨hconsumer, huid, henvironment, head'', hhead'', hcommitted', hin'.trans hin⟩
    · obtain ⟨rfl, rfl, rfl⟩ := hkey
      obtain rfl := Option.some.inj ((h.effect.accessWritten hreplace item hitem).symm.trans haccess)
      obtain ⟨consumer, -, rfl⟩ := mem_accessItemsFor.mp hitem
      exact ⟨rfl, rfl, rfl, _, h.after, rfl,
        h.predecessor.environment.trans h.ready.wellFormed.environment.symm⟩
  readable := by
    intro u head' control hhead' hcommitted' hdescribes' consumerId
    rcases h.head_backward hhead' with ⟨rfl, rfl⟩ | ⟨hu, hhead⟩
    · obtain rfl := h.describes.unique hdescribes'
      rw [show (completed.head sequence head).environment = completed.prepared.environment from
        h.predecessor.environment]
      exact h.effect.readable h.invariant h.ready h.before h.predecessor consumerId
    · simp only [h.access_other hu]
      exact h.invariant.access.readable hhead hcommitted'
        (h.describes_backward hhead hcommitted' hdescribes') consumerId
  sealed := by
    intro u known head' control harchived hhead' hcommitted' hdescribes' hmem
    rcases h.head_backward hhead' with ⟨rfl, rfl⟩ | ⟨hu, hhead⟩
    · obtain rfl := h.describes.unique hdescribes'
      exact h.sealed_self harchived hmem
    · rcases h.archivedAt harchived with hold | ⟨-, hsame, -⟩
      · exact h.invariant.access.sealed hold hhead hcommitted'
          (h.describes_backward hhead hcommitted' hdescribes') hmem
      · exact (hu hsame).elim

/-! ## History -/

theorem commits_self :
    s'.commits completed.prepared.secretUid =
      s.commits completed.prepared.secretUid ++ [completed] := by
  simp [Cloud.commits, h.effect.history]

theorem commits_other {u : String} (hu : u ≠ completed.prepared.secretUid) :
    s'.commits u = s.commits u := by
  simp [Cloud.commits, h.effect.history, hu.symm]

theorem versions_other {u : String} (hu : u ≠ completed.prepared.secretUid) :
    s'.version u = s.version u ∧ s'.payloadVersion u = s.payloadVersion u := by
  simp [Cloud.version, Cloud.payloadVersion, h.effect.heads u hu]

/-- A mutation without a payload leaves the payload version as it is. -/
theorem payloadVersion_self :
    s'.payloadVersion completed.prepared.secretUid =
      completed.carried.or (s.payloadVersion completed.prepared.secretUid) := by
  have hafter : s'.payloadVersion completed.prepared.secretUid =
      (completed.head sequence head).payloadVersionId :=
    Cloud.payloadVersion_of_committed h.after rfl
  obtain ⟨hversion, -⟩ := h.effect.payload_of_head h.invariant.rows h.ready h.predecessor
  rw [hafter, ← hversion]
  cases hpayload : completed.prepared.payload with
  | some payload =>
      simp [CompletedMutation.carried, hpayload, (h.ready.wellFormed.payload payload hpayload).2]
  | none =>
      have hpredecessor := h.predecessor
      cases hpredecessor with
      | created hhead hcreates =>
          have hnone := (Cloud.versions_of_not_committed h.before (by simp [hhead, createdHead])).2
          simp [CompletedMutation.carried, hpayload, hcreates.payloadVersionId, hnone]
      | updated prior control hcommitted hcontent hprior hdescribes hready =>
          have hsame : completed.prepared.control.payloadVersionId = head.payloadVersionId :=
            (hready.updates.payloadVersionId hpayload).trans hdescribes.payloadVersionId
          simp [CompletedMutation.carried, hpayload, hsame,
            Cloud.payloadVersion_of_committed h.before hcommitted]

theorem historyInv : HistoryInv init s' where
  operation hfirst hsecond :=
    h.invariant.history.operation (h.prepared hfirst) (h.prepared hsecond)
  committed := by
    intro other sequence' extendedAt' hcommitted
    rcases h.happened hcommitted with hold | hnew
    · obtain ⟨hprepared, hdead⟩ := h.invariant.history.committed hold
      exact ⟨hprepared.mono h.effect.history_extends, h.dead hdead⟩
    · obtain ⟨rfl, -, -⟩ : other = completed ∧ sequence' = sequence ∧ extendedAt' = extendedAt := by
        simpa using hnew
      exact ⟨h.ready.prepared.mono h.effect.history_extends, h.dead_self⟩
  chain := by
    intro u
    by_cases hu : u = completed.prepared.secretUid
    · subst hu
      rw [h.commits_self, show s'.version completed.prepared.secretUid =
        some completed.prepared.control.controlVersionId from
          Cloud.version_eq_some.mpr ⟨_, h.after, rfl, rfl⟩]
      exact (h.invariant.history.chain _).concat (h.predecessor.expected h.before)
    · rw [h.commits_other hu, (h.versions_other hu).1]
      exact h.invariant.history.chain u
  payload := by
    intro u
    by_cases hu : u = completed.prepared.secretUid
    · subst hu
      rw [h.payloadVersion_self, h.commits_self, h.invariant.history.payload]
      cases hcarried : completed.carried <;> simp [hcarried]
    · rw [h.commits_other hu, (h.versions_other hu).2]
      exact h.invariant.history.payload u
  audit event hevent hoperation := by
    rw [(congrArg Cloud.audit h.effect.rest).trans rfl] at hevent
    exact h.dead (h.invariant.history.audit event hevent hoperation)

/-! ## Identifiers and retention -/

theorem knownInv : KnownInv s' where
  drawn hdrawn := by
    rw [(congrArg Cloud.drawnBy h.effect.rest).trans rfl] at hdrawn
    rw [h.effect.known]
    exact h.invariant.known.drawn hdrawn
  operation hprepared := by
    rw [h.effect.known]
    exact h.invariant.known.operation (h.prepared hprepared)
  born hprepared hexpected := by
    rw [h.effect.known]
    exact h.invariant.known.born (h.prepared hprepared) hexpected
  entry := by
    intro entry hentry id hid
    rw [h.effect.known]
    rw [h.effect.history] at hentry
    rcases List.mem_append.mp hentry with hold | hnew
    · exact h.invariant.known.entry hold id hid
    · rw [List.mem_singleton.mp hnew] at hid
      exact hid
  object := by
    intro key object hobject
    rw [h.effect.objects] at hobject
    rw [h.effect.known]
    exact h.invariant.known.object hobject

theorem object (reference : ObjectReference) : s'.object reference = s.object reference := by
  rw [Cloud.object, Cloud.object, h.effect.objects]

theorem kept {reference : ObjectReference} {time : Time} (hkept : s.Kept reference time) :
    s'.Kept reference time :=
  hkept.mono (fun hid => h.effect.known ▸ hid)
    (fun object' hobject' => ⟨object', (h.object reference).symm.trans hobject',
      fun r hr => ⟨r, hr, le_rfl⟩⟩)
    fun entry hentry => by
      rw [h.effect.history] at hentry
      rcases List.mem_append.mp hentry with hold | hnew
      · exact .inl hold
      · exact .inr (by rw [List.mem_singleton.mp hnew]; simp)

theorem retentionInv : RetentionInv s' where
  deleted := by
    intro reference hdeleted
    rw [h.object, h.effect.known]
    rcases h.happened hdeleted with hold | hnew
    · exact h.invariant.retention.deleted hold
    · cases hnew
  kept := by
    intro other sequence' extendedAt' prior hcommitted hprior reference hreference
    rcases h.happened hcommitted with hold | hnew
    · exact h.kept (h.invariant.retention.kept hold hprior reference hreference)
    · obtain ⟨rfl, -, hextended⟩ :
          other = completed ∧ sequence' = sequence ∧ some extendedAt' = extendedAt := by
        simpa using hnew
      exact h.kept (h.ready.extended extendedAt' prior hextended.symm hprior reference hreference)

/-! ## The sync index -/

section Index

variable {state : Option AgentSyncState} {ttl previous : Option ℕ}

theorem publishedHead (hsequence : sequence = nextSequence state)
    (hpublication : Publication s s' completed.prepared.environment
      (syncRecord completed.prepared.secretUid completed.prepared.control) state ttl previous)
    (hpublish : PublishReady s completed.prepared.environment
      (syncRecord completed.prepared.secretUid completed.prepared.control) state ttl previous) :
    PublishedHead s s' completed.prepared.environment
      (syncRecord completed.prepared.secretUid completed.prepared.control) state previous
      completed.prepared.control head (completed.head sequence head) where
  before := h.before
  inEnvironment := h.predecessor.environment
  sequenceBefore :=
    hpublish.sequenced.sequence hpublication.counter head h.before h.predecessor.environment
  after := h.after
  committed := rfl
  inEnvironment' := h.predecessor.environment
  sequence := congrArg some hsequence
  describes := h.describes
  isRecord := rfl
  others := h.effect.heads

end Index

/-! ## The step -/

theorem replaced : Replaced s s' completed.prepared.secretUid := by
  refine ⟨_, h.after, rfl, ?_, fun payloadVersionId hversion => ?_⟩
  · obtain ⟨row, hrow, hprepared, -⟩ := h.effect.settles _ _ .control
    exact ⟨row, hrow, by simp [StoredWorkflow.Settled, hprepared]⟩
  · obtain ⟨hsame, -⟩ := h.effect.payload_of_head h.invariant.rows h.ready h.predecessor
    have hversion := hsame.trans hversion
    cases hpayload : completed.prepared.payload with
    | some payload =>
        obtain ⟨object, hobject, -⟩ := h.ready.payload payload hpayload
        obtain rfl : payload.revision.payloadVersionId = payloadVersionId :=
          Option.some.inj ((h.ready.wellFormed.payload payload hpayload).2.symm.trans hversion)
        obtain ⟨row, hrow, hprepared, -⟩ := h.effect.settles _ _ (.payload hpayload hobject)
        exact .inl ⟨row, hrow, by simp [StoredWorkflow.Settled, hprepared]⟩
    | none =>
        have hpredecessor := h.predecessor
        cases hpredecessor with
        | created hhead hcreates => cases hcreates.payloadVersionId.symm.trans hversion
        | updated prior control hcommitted hcontent hprior hdescribes hready =>
            refine .inr ⟨head, h.before, ?_⟩
            rw [← hdescribes.payloadVersionId, ← hready.updates.payloadVersionId hpayload, hversion]

theorem recordsInv : RecordsInv s' :=
  h.invariant.records.transfer (.of_eq h.effect.registry) fun hclaim hevent =>
    (h.happened hevent).imp_right fun heq => by
      rw [heq] at hclaim
      cases hclaim

theorem identitiesInv : IdentitiesInv s' :=
  h.invariant.identities.transfer (.same h.effect.registry) fun hidentity =>
    .inl (by rwa [h.effect.rest] at hidentity)

theorem capabilitiesInv : CapabilitiesInv s' :=
  h.invariant.capabilities.transfer
    (.of_registry (congrArg Registry.capabilities h.effect.registry)
      (.of_record rfl h.effect.history))
    (fun hid => h.effect.known ▸ hid) h.effect.history_extends

theorem evolves (hmoves : Moves s s') : Evolves (some pid) s s' where
  known hid := h.effect.known ▸ hid
  drawn hdrawn := by rwa [(congrArg Cloud.drawnBy h.effect.rest).trans rfl]
  history := h.effect.history_extends
  placement := (congrArg Cloud.placement h.effect.rest).trans rfl
  environments hsome := by rwa [h.effect.environments]
  registry := .of_eq h.effect.registry
  evidence hevent := by rwa [h.effect.rest]
  prepared hprepared := .inl (h.prepared hprepared)
  rows := by
    intro u sk row hrow
    obtain ⟨row', hrow', hstep, hsettled⟩ := h.effect.row_forward hrow
    refine ⟨row', hrow', hstep, fun hnot hsettled' => ⟨pid, rfl, ?_⟩⟩
    obtain ⟨rfl, object, hsettles⟩ := hsettled hnot hsettled'
    have hpending : s.Pending completed.prepared.secretUid sk completed.prepared.operationId := by
      cases hsettles with
      | control => exact h.ready.control.pending
      | payload hpayload hobject =>
          obtain ⟨_, -, -, hstored⟩ := h.ready.payload _ hpayload
          exact hstored.pending
    obtain ⟨other, hother, -, hid⟩ := hpending
    obtain rfl : row = other := Option.some.inj (hrow.symm.trans hother)
    exact hid ▸ h.ready.owns
  heads := by
    intro u head' hhead hcommitted
    by_cases hu : u = completed.prepared.secretUid
    · subst hu
      exact ⟨_, h.after, rfl, .inr h.replaced⟩
    · exact ⟨head', (h.effect.heads u hu).trans hhead, hcommitted, .inl rfl⟩
  identity := by
    intro u first second hfirst hsecond
    rcases h.head_backward hsecond with ⟨rfl, rfl⟩ | ⟨-, hhead⟩
    · obtain rfl : head = first := Option.some.inj (h.before.symm.trans hfirst)
      exact ⟨rfl, rfl⟩
    · obtain rfl : first = second := Option.some.inj (hfirst.symm.trans hhead)
      exact ⟨rfl, rfl⟩
  births := by
    intro u head' hnone hhead'
    rcases h.head_backward hhead' with ⟨rfl, -⟩ | ⟨-, hhead⟩
    · cases hnone.symm.trans h.before
    · cases hnone.symm.trans hhead
  leases := by
    intro u head' operationId hhead' howner
    rcases h.head_backward hhead' with ⟨-, rfl⟩ | ⟨-, hhead⟩
    · cases howner
    · exact .inl ⟨head', hhead, howner⟩
  lookups := by
    intro environment secretId lookup hlookup
    rcases h.effect.lookups environment secretId with hsame | ⟨harchive, -, other, hother, huid⟩
    · exact .inl (hsame.trans hlookup)
    · obtain rfl : lookup = other := Option.some.inj (hlookup.symm.trans hother)
      refine .inr (.inl ⟨s.known, ?_, fun _ hid => hid⟩)
      exact ⟨_, h.effect.history ▸ List.mem_append_right _ (List.mem_singleton_self _), rfl,
        completed, sequence, extendedAt, rfl, harchive, huid.symm⟩
  archived := by
    intro u known harchived
    rcases h.archivedAt harchived with hold | ⟨rfl, rfl, -⟩
    · exact .inl hold
    · exact .inr ⟨fun _ hid => hid, h.replaced⟩
  access := by
    intro consumerId environment u
    by_cases hu : u = completed.prepared.secretUid
    · exact .inr (hu ▸ h.replaced)
    · exact .inl (h.access_other hu consumerId environment)
  objects hobject := .inl ⟨_, h.effect.objects ▸ hobject, rfl, rfl⟩
  bodies _ hobject := ⟨_, (h.object _).symm.trans hobject, rfl⟩
  kept := h.kept
  counters := hmoves.counters
  sequences := hmoves.sequences
  unsynced := hmoves.unsynced
  changes := hmoves.changes

end Committing

/-- **A commit keeps the invariant.** -/
theorem commit_step {init s : Cloud} {completed : CompletedMutation} {extendedAt : Option Time}
    {pid : ℕ} {due : Time} {notifications : List NotificationOutboxRecord}
    {state : Option AgentSyncState} {epoch : String} {ttl previous : Option ℕ}
    {conflicts : List ℕ} {table : Table Key Item} (hinv : Invariant init s)
    (hready : CommitReady pid s completed extendedAt)
    (hpublish : PublishReady s completed.prepared.environment
      (syncRecord completed.prepared.secretUid completed.prepared.control) state ttl previous)
    (htransact : transact s.table conflicts (publicationWrites completed.prepared.environment
      (syncRecord completed.prepared.secretUid completed.prepared.control)
      (completed.writes due notifications) state epoch ttl previous) = .ok table) :
    ∃ head, Committing init s ({ s with table := table }.record
        (.committed completed (nextSequence state) extendedAt)) completed (nextSequence state)
        extendedAt pid head ∧
      Invariant init ({ s with table := table }.record
        (.committed completed (nextSequence state) extendedAt)) ∧
      Evolves (some pid) s ({ s with table := table }.record
        (.committed completed (nextSequence state) extendedAt)) := by
  have heffect : Commitment s ({ s with table := table }.record
      (.committed completed (nextSequence state) extendedAt)) completed (nextSequence state)
      extendedAt := commitment_of_transact htransact
  obtain ⟨head, h⟩ := heffect.committing hinv hready
  have hpublication : Publication s ({ s with table := table }.record
      (.committed completed (nextSequence state) extendedAt)) completed.prepared.environment
      (syncRecord completed.prepared.secretUid completed.prepared.control) state ttl previous :=
    publication_of_transact htransact
      (fun _ hwrite => CompletedMutation.ofIndex_of_mem_writes hwrite) _ rfl
  have hpublished := h.publishedHead rfl hpublication hpublish
  have hsync := hinv.sync.publish hpublication hpublished hpublish.safe
    (fun u other control _ _ _ hdescribes => h.describes_other hdescribes) hpublish.ttl
    heffect.history_extends
  exact ⟨head, h, ⟨h.rowsInv, h.headsInv, h.namesInv, h.accessInv, hsync, h.historyInv, h.knownInv,
    h.retentionInv, h.recordsInv, h.identitiesInv, h.capabilitiesInv⟩,
    h.evolves (hpublication.moves hpublished hpublish.safe)⟩

end Hemlig
