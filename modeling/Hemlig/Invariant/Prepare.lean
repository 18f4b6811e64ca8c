import Hemlig.Invariant.Writes
import Hemlig.Registry.Transactions

/-!
# Preparing a mutation

The transaction of `prepareMutation` adds unsettled rows and takes the lease of the
head, which it creates for a new secret.  Whatever was committed stays as it is.
-/

namespace Hemlig

open Store DynamoRepository

variable {init s s' : Cloud} {mutation : PreparedMutation}

/-! ## The effect of a preparation -/

/-- What becomes of the head of the secret. -/
inductive Acquired (s s' : Cloud) (mutation : PreparedMutation) : Prop
  | created (hnone : s.head mutation.secretUid = none)
      (hhead : s'.head mutation.secretUid = some (createdHead mutation))
      (hcreates : mutation.Creates)
  | leased (head : HeadRecord) (hbefore : s.head mutation.secretUid = some head)
      (hafter : s'.head mutation.secretUid = some (leasedHead mutation head))
      (hcommitted : head.Committed)
      (hexpected : mutation.expectedControlVersionId = some head.controlVersionId)

/-- The documents of a mutation. -/
def PreparedMutation.Writes (mutation : PreparedMutation) (body : ObjectBody) : Prop :=
  body = .control mutation.control ∨
    ∃ payload, mutation.payload = some payload ∧ body = .payload payload.revision

structure Preparation (s s' : Cloud) (mutation : PreparedMutation) : Prop where
  rows : ∀ u sk, s'.workflow u sk = s.workflow u sk ∨
    u = mutation.secretUid ∧ s.workflow u sk = none ∧
      ∃ row, s'.workflow u sk = some row ∧ ¬ row.Settled ∧ WorkflowOk s.known u sk row
  fresh : ∀ u sk row, s.workflow u sk = none → s'.workflow u sk = some row →
    row.workflowState = .prepared ∧ row.operationId = mutation.operationId ∧
      mutation.Writes row.serialized
  absent : s.workflow mutation.secretUid (.control mutation.control.controlVersionId) = none
  control : ∃ row, s'.workflow mutation.secretUid (.control mutation.control.controlVersionId) =
    some row ∧ row.operationId = mutation.operationId ∧ row.serialized = .control mutation.control
  payload : ∀ payload, mutation.payload = some payload →
    ∃ row, s'.workflow mutation.secretUid (.payload payload.revision.payloadVersionId) =
      some row ∧ row.operationId = mutation.operationId ∧
        row.serialized = .payload payload.revision
  acquired : Acquired s s' mutation
  heads : ∀ u, u ≠ mutation.secretUid → s'.head u = s.head u
  lookups : ∀ environment secretId, s'.lookup environment secretId = s.lookup environment secretId ∨
    mutation.Creates ∧ s.lookup environment secretId = none ∧
      environment = mutation.environment ∧ secretId = mutation.secretId
  lookup : mutation.Creates → ∃ lookup,
    s'.lookup mutation.environment mutation.secretId = some lookup ∧
      lookup.secretUid = mutation.secretUid
  other : ∀ key : Key, key.ofSecret = false → (∀ actor id, key ≠ .idempotency actor id) →
    s'.table.get key = s.table.get key
  access : ∀ consumerId environment u,
    s'.access consumerId environment u = s.access consumerId environment u
  claim : s.registry.Step (.claim mutation) s'.registry
  rest : s' = { s.record (.prepared mutation) with table := s'.table }

/-! ### Its writes -/

theorem mem_keys_prepareWrites {now : Time} {key : Key} :
    key ∈ (prepareWrites mutation now).map Write.key ↔
      key = .idempotency mutation.actor mutation.idempotencyKey ∨
      key = .workflow mutation.secretUid (.control mutation.control.controlVersionId) ∨
      (∃ payload, mutation.payload = some payload ∧
        key = .workflow mutation.secretUid (.payload payload.revision.payloadVersionId)) ∨
      key = .head mutation.secretUid ∨
      mutation.expectedControlVersionId = none ∧
        key = .lookup mutation.environment mutation.secretId := by
  cases hexpected : mutation.expectedControlVersionId with
  | none =>
      cases hpayload : mutation.payload <;>
        simp [prepareWrites, acquireWrites, hexpected, hpayload]
  | some expected =>
      cases hpayload : mutation.payload <;>
        simp [prepareWrites, acquireWrites, hexpected, hpayload]

theorem workflowOk_controlItem {known : List String} (hwell : mutation.WellFormed)
    (hcontrol : mutation.control.controlVersionId ∈ known) :
    WorkflowOk known mutation.secretUid (.control mutation.control.controlVersionId)
      (controlItem mutation) where
  uid := rfl
  objectKey := hwell.key
  documents := ⟨rfl, hwell.sound⟩
  version := hcontrol
  due := by simp [controlItem, workflowItem]
  stored := by simp [controlItem, workflowItem, StoredWorkflow.Settled]
  retention := by simp [controlItem, workflowItem]

theorem workflowOk_payloadItem {known : List String} (hwell : mutation.WellFormed)
    {payload : PreparedPayload} (hpayload : mutation.payload = some payload)
    (hknown : payload.revision.payloadVersionId ∈ known) :
    WorkflowOk known mutation.secretUid (.payload payload.revision.payloadVersionId)
      (payloadItem mutation payload) where
  uid := rfl
  objectKey := (hwell.payload payload hpayload).1
  documents := rfl
  version := hknown
  due := by simp [payloadItem, workflowItem]
  stored := by simp [payloadItem, workflowItem, StoredWorkflow.Settled]
  retention := by simp [payloadItem, workflowItem]

section Transaction

variable {pid : ℕ} {now : Time} {conflicts : List ℕ} {table : Table Key Item}
  (h : transact s.table conflicts (prepareWrites mutation now) = .ok table)
include h

theorem control_of_prepare :
    s.workflow mutation.secretUid (.control mutation.control.controlVersionId) = none ∧
      table.get (.workflow mutation.secretUid (.control mutation.control.controlVersionId)) =
        some (controlItem mutation) :=
  get_of_create h (by simp [prepareWrites])

theorem payload_of_prepare {payload : PreparedPayload} (hpayload : mutation.payload = some payload) :
    s.workflow mutation.secretUid (.payload payload.revision.payloadVersionId) = none ∧
      table.get (.workflow mutation.secretUid (.payload payload.revision.payloadVersionId)) =
        some (payloadItem mutation payload) :=
  get_of_create h (by simp [prepareWrites, hpayload])

theorem create_of_prepare (hexpected : mutation.expectedControlVersionId = none) :
    (s.head mutation.secretUid = none ∧
      table.get (.head mutation.secretUid) = some (createdHead mutation)) ∧
    s.lookup mutation.environment mutation.secretId = none ∧
      table.get (.lookup mutation.environment mutation.secretId) =
        some { secretUid := mutation.secretUid
               secretId := mutation.secretId
               environment := mutation.environment } :=
  ⟨get_of_create h (by simp [prepareWrites, acquireWrites, hexpected]),
    get_of_create h (by simp [prepareWrites, acquireWrites, hexpected])⟩

theorem lease_of_prepare {expected : String}
    (hexpected : mutation.expectedControlVersionId = some expected) :
    ∃ head, s.head mutation.secretUid = some head ∧
      (head.controlVersionId = expected ∧ head.leasable now = true) ∧
        table.get (.head mutation.secretUid) = some (leasedHead mutation head) := by
  have hmem : Write.update (.head mutation.secretUid)
      (fun head => head.controlVersionId = expected ∧ head.leasable now)
      (leasedHead mutation) ∈ prepareWrites mutation now := by
    simp [prepareWrites, acquireWrites, hexpected]
  obtain ⟨head, hhead, hcondition, hafter⟩ := get_of_update h hmem
  exact ⟨head, hhead, by simpa using hcondition, hafter⟩

/-- **The effect of the transaction.** -/
theorem preparation_of_transact (hready : PrepareReady pid s mutation) :
    Preparation s ({ s with table := table }.record (.prepared mutation)) mutation := by
  have hkind : mutation.expectedControlVersionId = none → mutation.Creates := by
    intro hnone
    rcases hready.kind with ⟨hcreates, -⟩ | ⟨head, control, -, hupdates⟩
    · exact hcreates
    · rw [hupdates.expected] at hnone
      cases hnone
  have hsame : ∀ key, key ∉ (prepareWrites mutation now).map Write.key →
      table.get key = s.table.get key := fun key hkey => get_of_not_mem h hkey
  refine ⟨fun u sk => ?_, fun u sk row hnone hrow => ?_, (control_of_prepare h).1, ?_,
    fun payload hpayload => ?_, ?_, fun u hu => ?_, ?_, fun hcreates => ?_,
    fun key hkey hidempotency => ?_, fun consumerId environment u => ?_,
    Registry.claim_of_transact h, rfl⟩
  · by_cases hkey : Key.workflow u sk ∈ (prepareWrites mutation now).map Write.key
    · rcases mem_keys_prepareWrites.mp hkey with hk | hk | ⟨payload, hpayload, hk⟩ | hk | ⟨-, hk⟩
      · cases hk
      · cases hk
        obtain ⟨hnone, hafter⟩ := control_of_prepare h
        exact .inr ⟨rfl, hnone, _, hafter, by simp [StoredWorkflow.Settled, controlItem, workflowItem],
          workflowOk_controlItem hready.wellFormed hready.control⟩
      · cases hk
        obtain ⟨hnone, hafter⟩ := payload_of_prepare h hpayload
        exact .inr ⟨rfl, hnone, _, hafter, by simp [StoredWorkflow.Settled, payloadItem, workflowItem],
          workflowOk_payloadItem hready.wellFormed hpayload (hready.payload payload hpayload)⟩
      · cases hk
      · cases hk
    · exact .inl (hsame _ hkey)
  · by_cases hkey : Key.workflow u sk ∈ (prepareWrites mutation now).map Write.key
    · rcases mem_keys_prepareWrites.mp hkey with hk | hk | ⟨payload, hpayload, hk⟩ | hk | ⟨-, hk⟩
      · cases hk
      · cases hk
        obtain rfl := Option.some.inj ((control_of_prepare h).2.symm.trans hrow)
        exact ⟨rfl, rfl, .inl rfl⟩
      · cases hk
        obtain rfl := Option.some.inj ((payload_of_prepare h hpayload).2.symm.trans hrow)
        exact ⟨rfl, rfl, .inr ⟨payload, hpayload, rfl⟩⟩
      · cases hk
      · cases hk
    · cases (hsame _ hkey).symm.trans hrow |>.symm.trans hnone
  · exact ⟨_, (control_of_prepare h).2, rfl, rfl⟩
  · exact ⟨_, (payload_of_prepare h hpayload).2, rfl, rfl⟩
  · rcases hready.kind with ⟨hcreates, -⟩ | ⟨head, control, hsnapshot, hupdates⟩
    · obtain ⟨⟨hnone, hafter⟩, -⟩ := create_of_prepare h hcreates.expected
      exact .created hnone hafter hcreates
    · obtain ⟨current, hcurrent, ⟨hcv, -⟩, hafter⟩ := lease_of_prepare h hupdates.expected
      obtain ⟨other, hother, hcommitted, -⟩ := hsnapshot.current
      obtain rfl : other = current := by simpa [hcurrent] using hother.symm
      exact .leased other hcurrent hafter hcommitted (by rw [hupdates.expected, hcv])
  · exact hsame _ (by simp [mem_keys_prepareWrites, hu])
  · intro environment secretId
    by_cases hkey : Key.lookup environment secretId ∈ (prepareWrites mutation now).map Write.key
    · rcases mem_keys_prepareWrites.mp hkey with hk | hk | ⟨_, -, hk⟩ | hk | ⟨hnone, hk⟩
      · cases hk
      · cases hk
      · cases hk
      · cases hk
      · cases hk
        exact .inr ⟨hkind hnone, (create_of_prepare h hnone).2.1, rfl, rfl⟩
    · exact .inl (hsame _ hkey)
  · exact ⟨_, (create_of_prepare h hcreates.expected).2.2, rfl⟩
  · refine hsame key fun hmem => ?_
    rcases mem_keys_prepareWrites.mp hmem with rfl | rfl | ⟨_, -, rfl⟩ | rfl | ⟨-, rfl⟩
    · exact hidempotency _ _ rfl
    · cases hkey
    · cases hkey
    · cases hkey
    · cases hkey
  · exact hsame _ (by simp [mem_keys_prepareWrites])

end Transaction

/-! ## What it keeps -/

namespace Preparation

variable {pid : ℕ} (h : Preparation s s' mutation)
include h

theorem objects : s'.objects = s.objects :=
  (congrArg Cloud.objects h.rest).trans rfl

theorem known : s'.known = s.known :=
  (congrArg Cloud.known h.rest).trans rfl

theorem drawnBy : s'.drawnBy = s.drawnBy :=
  (congrArg Cloud.drawnBy h.rest).trans rfl

theorem index : s'.index = s.index :=
  (congrArg Cloud.index h.rest).trans rfl

theorem audit : s'.audit = s.audit :=
  (congrArg Cloud.audit h.rest).trans rfl

theorem history : s'.history = s.history ++ [⟨s.now, s.known, .prepared mutation⟩] :=
  (congrArg Cloud.history h.rest).trans rfl

theorem history_extends : s.history <+: s'.history := h.history ▸ List.prefix_append _ _

theorem happened {event : Event} (hevent : s'.Happened event) :
    s.Happened event ∨ event = .prepared mutation :=
  hevent.of_append h.history

theorem prepared : s'.Prepared mutation :=
  ⟨_, h.history ▸ List.mem_append_right _ (List.mem_singleton_self _), rfl⟩

theorem prepared_cases {other : PreparedMutation} (hprepared : s'.Prepared other) :
    s.Prepared other ∨ other = mutation := by
  rcases h.happened hprepared with hold | hnew
  · exact .inl hold
  · exact .inr (by simpa using hnew)

theorem archivedAt {u : String} {known : List String} (harchived : s'.ArchivedAt u known) :
    s.ArchivedAt u known := by
  obtain ⟨entry, hentry, hknown, completed, sequence, extendedAt, hevent, hrest⟩ := harchived
  rw [h.history] at hentry
  rcases List.mem_append.mp hentry with hold | hnew
  · exact ⟨entry, hold, hknown, completed, sequence, extendedAt, hevent, hrest⟩
  · rw [List.mem_singleton.mp hnew] at hevent
    cases hevent

theorem commits (u : String) : s'.commits u = s.commits u := by
  simp [Cloud.commits, h.history]

theorem row_forward {u : String} {sk : WorkflowSk} {row : StoredWorkflow}
    (hrow : s.workflow u sk = some row) : s'.workflow u sk = some row := by
  rcases h.rows u sk with hsame | ⟨-, hnone, -⟩
  · exact hsame.trans hrow
  · cases hnone.symm.trans hrow

/-- The only control revision that it writes is its own. -/
theorem fresh_control {u : String} {sk : WorkflowSk} {row : StoredWorkflow}
    {control : ControlRevision} (hnone : s.workflow u sk = none)
    (hrow : s'.workflow u sk = some row) (hserialized : row.serialized = .control control) :
    control = mutation.control := by
  rcases (h.fresh u sk row hnone hrow).2.2 with hcontrol | ⟨payload, -, hpayload⟩
  · exact ObjectBody.control.inj (hserialized.symm.trans hcontrol)
  · cases hserialized.symm.trans hpayload

theorem row_backward {u : String} {sk : WorkflowSk} {row : StoredWorkflow}
    (hrow : s'.workflow u sk = some row) : s.workflow u sk = some row ∨
      u = mutation.secretUid ∧ ¬ row.Settled ∧ WorkflowOk s.known u sk row := by
  rcases h.rows u sk with hsame | ⟨hu, -, row', hrow', hunsettled, hok⟩
  · exact .inl (hsame.symm.trans hrow)
  · obtain rfl : row = row' := Option.some.inj (hrow.symm.trans hrow')
    exact .inr ⟨hu, hunsettled, hok⟩

theorem head_forward {u : String} {head : HeadRecord} (hhead : s.head u = some head) :
    ∃ head', s'.head u = some head' ∧ head'.content = head.content ∧
      head'.syncSequence = head.syncSequence := by
  by_cases hu : u = mutation.secretUid
  · subst hu
    rcases h.acquired with ⟨hnone, -, -⟩ | ⟨other, hother, hafter, -, -⟩
    · cases hnone.symm.trans hhead
    · obtain rfl : head = other := Option.some.inj (hhead.symm.trans hother)
      exact ⟨_, hafter, rfl, rfl⟩
  · exact ⟨head, (h.heads u hu).trans hhead, rfl, rfl⟩

/-- A head after the preparation: an old one, maybe with the lease, or the new one. -/
theorem head_backward {u : String} {head' : HeadRecord} (hhead' : s'.head u = some head') :
    (∃ head, s.head u = some head ∧ (head' = head ∨ u = mutation.secretUid ∧
      head' = leasedHead mutation head ∧ head.Committed ∧
        mutation.expectedControlVersionId = some head.controlVersionId)) ∨
    u = mutation.secretUid ∧ s.head u = none ∧ head' = createdHead mutation ∧
      mutation.Creates := by
  by_cases hu : u = mutation.secretUid
  · subst hu
    rcases h.acquired with ⟨hnone, hafter, hcreates⟩ | ⟨head, hbefore, hafter, hcommitted, hexpected⟩
    · exact .inr ⟨rfl, hnone, Option.some.inj (hhead'.symm.trans hafter), hcreates⟩
    · exact .inl ⟨head, hbefore, .inr ⟨rfl, Option.some.inj (hhead'.symm.trans hafter), hcommitted,
        hexpected⟩⟩
  · exact .inl ⟨head', (h.heads u hu).symm.trans hhead', .inl rfl⟩

theorem committed_backward {u : String} {head' : HeadRecord} (hhead' : s'.head u = some head')
    (hcommitted' : head'.Committed) : ∃ head, s.head u = some head ∧ head.Committed ∧
      head'.content = head.content ∧ head'.syncSequence = head.syncSequence := by
  rcases h.head_backward hhead' with ⟨head, hhead, rfl | ⟨-, rfl, -, -⟩⟩ | ⟨-, -, rfl, -⟩
  · exact ⟨_, hhead, hcommitted', rfl, rfl⟩
  · exact ⟨head, hhead, hcommitted', rfl, rfl⟩
  · cases hcommitted'

theorem describes {u : String} {head head' : HeadRecord} {control : ControlRevision}
    (hcontent : head'.content = head.content) (hdescribes : s.Describes u head control) :
    s'.Describes u head' control :=
  hdescribes.mono hcontent fun _ _ _ _ ⟨⟨row, hrow, hrest⟩, hobject⟩ =>
    ⟨⟨row, h.row_forward hrow, hrest⟩, by rwa [h.objects]⟩

theorem lookup_forward {environment secretId : String} {lookup : SecretLookup}
    (hlookup : s.lookup environment secretId = some lookup) :
    s'.lookup environment secretId = some lookup := by
  rcases h.lookups environment secretId with hsame | ⟨-, hnone, -⟩
  · exact hsame.trans hlookup
  · cases hnone.symm.trans hlookup

theorem lookup_backward {environment secretId : String} {lookup : SecretLookup}
    (hlookup : s'.lookup environment secretId = some lookup) :
    s.lookup environment secretId = some lookup ∨ mutation.Creates ∧
      environment = mutation.environment ∧ secretId = mutation.secretId ∧
        lookup.secretUid = mutation.secretUid := by
  rcases h.lookups environment secretId with hsame | ⟨hcreates, -, rfl, rfl⟩
  · exact .inl (hsame.symm.trans hlookup)
  · obtain ⟨other, hother, huid⟩ := h.lookup hcreates
    obtain rfl : lookup = other := Option.some.inj (hlookup.symm.trans hother)
    exact .inr ⟨hcreates, rfl, rfl, huid⟩

theorem syncState (environment : String) : s'.syncState environment = s.syncState environment :=
  h.other _ rfl (by simp)

theorem change (environment sk : String) : s'.change environment sk = s.change environment sk :=
  h.other _ rfl (by simp)

theorem counter (environment : String) : s'.counter environment = s.counter environment := by
  rw [Cloud.counter, Cloud.counter, h.syncState]

/-- The committed heads are the same, but for a lease. -/
theorem versions (u : String) :
    s'.version u = s.version u ∧ s'.payloadVersion u = s.payloadVersion u := by
  by_cases hu : u = mutation.secretUid
  · subst hu
    rcases h.acquired with ⟨hnone, hafter, -⟩ | ⟨head, hbefore, hafter, -, -⟩
    · simp [Cloud.version, Cloud.payloadVersion, hnone, hafter, createdHead]
    · simp [Cloud.version, Cloud.payloadVersion, hbefore, hafter, leasedHead, Option.filter_some]
      split <;> simp
  · simp [Cloud.version, Cloud.payloadVersion, h.heads u hu]

theorem dead (hunused : s.Unused mutation.operationId) {operationId : String}
    (hdead : s.Dead operationId) : s'.Dead operationId := by
  obtain ⟨⟨other, hprepared, hid⟩, hlease⟩ := hdead
  refine ⟨⟨other, hprepared.mono h.history_extends, hid⟩, fun u head' hhead' howner => ?_⟩
  have hne : operationId ≠ mutation.operationId := fun heq => hunused other hprepared (hid.trans heq)
  rcases h.head_backward hhead' with ⟨head, hhead, rfl | ⟨-, rfl, -, -⟩⟩ | ⟨-, -, rfl, -⟩
  · exact hlease u _ hhead howner
  · exact hne (Option.some.inj howner).symm
  · exact hne (Option.some.inj howner).symm

/-! ### The parts of the invariant -/

theorem rowsInv (hinv : RowsInv s) : RowsInv s' where
  ok := by
    intro u sk row hrow
    rw [h.known]
    rcases h.row_backward hrow with hold | ⟨-, -, hok⟩
    · exact hinv.ok hold
    · exact hok
  index := by
    intro u sk row hrow
    rw [h.index] at hrow
    rw [h.known]
    obtain ⟨hok, current, hcurrent, hstep⟩ := hinv.index hrow
    exact ⟨hok, current, h.row_forward hcurrent, hstep⟩
  settled := by
    intro u sk row hrow hsettled
    rcases h.row_backward hrow with hold | ⟨-, hunsettled, -⟩
    · obtain ⟨head, hhead, hcommitted⟩ := hinv.settled hold hsettled
      obtain ⟨head', hhead', hcontent, -⟩ := h.head_forward hhead
      exact ⟨head', hhead', (HeadRecord.committed_of_content hcontent).mpr hcommitted⟩
    · exact (hunsettled hsettled).elim
  prepared := by
    intro other hprepared
    rcases h.prepared_cases hprepared with hold | rfl
    · obtain ⟨row, hrow, hrest⟩ := hinv.prepared hold
      exact ⟨row, h.row_forward hrow, hrest⟩
    · exact h.control
  preparedPayload := by
    intro other payload hprepared hpayload
    rcases h.prepared_cases hprepared with hold | rfl
    · obtain ⟨row, hrow, hrest⟩ := hinv.preparedPayload hold hpayload
      exact ⟨row, h.row_forward hrow, hrest⟩
    · exact h.payload payload hpayload

theorem headsInv (hinv : Invariant init s) (hready : PrepareReady pid s mutation) :
    HeadsInv s' where
  uid := by
    intro u head' hhead'
    rcases h.head_backward hhead' with ⟨head, hhead, rfl | ⟨-, rfl, -, -⟩⟩ | ⟨rfl, -, rfl, hcreates⟩
    · exact hinv.heads.uid hhead
    · exact (hinv.heads.uid hhead : head.secretUid = u ∧ _)
    · exact ⟨rfl, hcreates.secretUid⟩
  environment := by
    intro u head' hhead'
    rw [show s'.environment head'.environment = s.environment head'.environment from
      h.other _ rfl (by simp)]
    rcases h.head_backward hhead' with ⟨head, hhead, rfl | ⟨-, rfl, -, -⟩⟩ | ⟨-, -, rfl, hcreates⟩
    · exact hinv.heads.environment hhead
    · exact (hinv.heads.environment hhead : (s.environment head.environment).isSome)
    · rcases hready.kind with ⟨-, -, -, hsome⟩ | ⟨head, control, -, hupdates⟩
      · exact hsome
      · cases hupdates.expected.symm.trans hcreates.expected
  described := by
    intro u head' hhead' hcommitted'
    obtain ⟨head, hhead, hcommitted, hcontent, -⟩ := h.committed_backward hhead' hcommitted'
    obtain ⟨control, hdescribes⟩ := hinv.heads.described hhead hcommitted
    exact ⟨control, h.describes hcontent hdescribes⟩
  creating := by
    intro u head' hhead' hnot
    rcases h.head_backward hhead' with ⟨head, hhead, rfl | ⟨-, rfl, hcommitted, -⟩⟩ |
      ⟨rfl, -, rfl, hcreates⟩
    · obtain ⟨other, hprepared, hrest⟩ := hinv.heads.creating hhead hnot
      exact ⟨other, hprepared.mono h.history_extends, hrest⟩
    · exact (hnot hcommitted).elim
    · exact ⟨mutation, h.prepared, rfl, hcreates, hready.wellFormed, .inl rfl⟩
  unsettled := by
    intro u head' hhead' hnot sk row hrow hsettled
    rcases h.row_backward hrow with hold | ⟨-, hunsettled, -⟩
    · rcases h.head_backward hhead' with ⟨head, hhead, rfl | ⟨-, rfl, hcommitted, -⟩⟩ |
        ⟨-, hnone, rfl, -⟩
      · exact hinv.heads.unsettled hhead hnot sk row hold hsettled
      · exact hnot hcommitted
      · obtain ⟨head, hhead, -⟩ := hinv.rows.settled hold hsettled
        cases hnone.symm.trans hhead
    · exact hunsettled hsettled
  lease := by
    intro u head' operationId hhead' howner
    rcases h.head_backward hhead' with ⟨head, hhead, rfl | ⟨rfl, rfl, -, hexpected⟩⟩ |
      ⟨rfl, -, rfl, -⟩
    · obtain ⟨other, hprepared, hrest⟩ := hinv.heads.lease hhead howner
      exact ⟨other, hprepared.mono h.history_extends, hrest⟩
    · exact ⟨mutation, h.prepared, Option.some.inj howner, rfl, fun _ => hexpected⟩
    · exact ⟨mutation, h.prepared, Option.some.inj howner, rfl, fun hcommitted => by
        cases hcommitted⟩

omit h in
/-- A secret that has no head was never archived. -/
theorem not_archivedAt (hinv : HistoryInv init s) {u : String} {known : List String}
    (hnone : s.head u = none) : ¬ s.ArchivedAt u known := by
  rintro ⟨entry, hentry, -, completed, sequence, extendedAt, hevent, -, huid⟩
  have hmem : completed ∈ s.commits u :=
    List.mem_filterMap.mpr ⟨entry, hentry, by simp [hevent, huid]⟩
  have hversion : s.version u = none := by simp [Cloud.version, hnone]
  have hchain := hinv.chain u
  rw [hversion] at hchain
  exact hchain.ne_none (List.ne_nil_of_mem hmem) rfl

theorem namesInv (hinv : Invariant init s) : NamesInv s' where
  lookup := by
    intro environment secretId lookup hlookup
    rcases h.lookup_backward hlookup with hold | ⟨hcreates, rfl, rfl, huid⟩
    · obtain ⟨head, hhead, henvironment, hsecretId, hstate⟩ := hinv.names.lookup hold
      obtain ⟨head', hhead', hcontent, -⟩ := h.head_forward hhead
      refine ⟨head', hhead', (HeadRecord.environment_of_content hcontent).trans henvironment,
        (HeadRecord.secretId_of_content hcontent).trans hsecretId, ?_⟩
      rwa [HeadRecord.state_of_content hcontent]
    · rw [huid]
      rcases h.acquired with ⟨-, hafter, -⟩ | ⟨head, -, -, -, hexpected⟩
      · exact ⟨_, hafter, rfl, rfl, hcreates.state⟩
      · cases hexpected.symm.trans hcreates.expected
  creating := by
    intro u head' hhead' hnot
    rcases h.head_backward hhead' with ⟨head, hhead, rfl | ⟨-, rfl, hcommitted, -⟩⟩ |
      ⟨rfl, -, rfl, hcreates⟩
    · obtain ⟨lookup, hlookup, huid⟩ := hinv.names.creating hhead hnot
      exact ⟨lookup, h.lookup_forward hlookup, huid⟩
    · exact (hnot hcommitted).elim
    · exact h.lookup hcreates
  archived := by
    intro u known environment secretId lookup harchived hlookup
    have harchived := h.archivedAt harchived
    rcases h.lookup_backward hlookup with hold | ⟨hcreates, -, -, huid⟩
    · exact hinv.names.archived harchived hold
    · rintro rfl
      rcases h.acquired with ⟨hnone, -, -⟩ | ⟨head, -, -, -, hexpected⟩
      · rw [huid] at harchived
        exact not_archivedAt hinv.history hnone harchived
      · cases hexpected.symm.trans hcreates.expected

theorem accessInv (hinv : Invariant init s) : AccessInv s' where
  record := by
    intro consumerId environment u access haccess
    rw [h.access] at haccess
    obtain ⟨hconsumer, huid, henvironment, head, hhead, hcommitted, hsame⟩ :=
      hinv.access.record haccess
    obtain ⟨head', hhead', hcontent, -⟩ := h.head_forward hhead
    exact ⟨hconsumer, huid, henvironment, head', hhead',
      (HeadRecord.committed_of_content hcontent).mpr hcommitted,
      (HeadRecord.environment_of_content hcontent).trans hsame⟩
  readable := by
    intro u head' control hhead' hcommitted' hdescribes' consumerId
    obtain ⟨head, hhead, hcommitted, hcontent, -⟩ := h.committed_backward hhead' hcommitted'
    obtain ⟨other, hdescribes⟩ := hinv.heads.described hhead hcommitted
    obtain rfl := (h.describes hcontent hdescribes).unique hdescribes'
    simp only [h.access, HeadRecord.environment_of_content hcontent]
    exact hinv.access.readable hhead hcommitted hdescribes consumerId
  sealed := by
    intro u known head' control harchived hhead' hcommitted' hdescribes' hmem
    obtain ⟨head, hhead, hcommitted, hcontent, -⟩ := h.committed_backward hhead' hcommitted'
    obtain ⟨other, hdescribes⟩ := hinv.heads.described hhead hcommitted
    obtain rfl := (h.describes hcontent hdescribes).unique hdescribes'
    rw [HeadRecord.controlVersionId_of_content hcontent] at hmem
    exact hinv.access.sealed (h.archivedAt harchived) hhead hcommitted hdescribes hmem

/-- A head with a sequence is an old one. -/
theorem sequence_backward {u : String} {head' : HeadRecord} {sequence : ℕ}
    (hhead' : s'.head u = some head') (hsequence : head'.syncSequence = some sequence) :
    ∃ head, s.head u = some head ∧ head'.content = head.content ∧
      head.syncSequence = some sequence := by
  rcases h.head_backward hhead' with ⟨head, hhead, rfl | ⟨-, rfl, -, -⟩⟩ | ⟨-, -, rfl, -⟩
  · exact ⟨_, hhead, rfl, hsequence⟩
  · exact ⟨head, hhead, rfl, hsequence⟩
  · cases hsequence

theorem syncInv (hinv : SyncInv s) : SyncInv s' where
  row := by
    intro environment sk row hrow
    rw [h.change] at hrow
    obtain ⟨head, sequence, control, hhead, hcommitted, henvironment, hsequence, hsk, hdescribes,
      hrest⟩ := hinv.row hrow
    obtain ⟨head', hhead', hcontent, hsame⟩ := h.head_forward hhead
    exact ⟨head', sequence, control, hhead',
      (HeadRecord.committed_of_content hcontent).mpr hcommitted,
      (HeadRecord.environment_of_content hcontent).trans henvironment, hsame.trans hsequence, hsk,
      h.describes hcontent hdescribes, hrest⟩
  head := by
    intro u head' sequence hhead' hsequence
    obtain ⟨head, hhead, hcontent, hsequence⟩ := h.sequence_backward hhead' hsequence
    rw [HeadRecord.committed_of_content hcontent, HeadRecord.environment_of_content hcontent,
      HeadRecord.state_of_content hcontent, h.syncState, h.change]
    obtain ⟨hcommitted, state, hstate, hfirst, hlast, hplace⟩ := hinv.head hhead hsequence
    exact ⟨hcommitted, state, hstate, hfirst, hlast,
      hplace.imp_right fun ⟨harchived, hgone⟩ => ⟨harchived, hgone.mono h.history_extends⟩⟩
  distinct := by
    intro u u' first' second' sequence hfirst' hsecond' henvironment hsequence hsequence'
    obtain ⟨first, hfirst, hcontent, hsequence⟩ := h.sequence_backward hfirst' hsequence
    obtain ⟨second, hsecond, hcontent', hsequence'⟩ := h.sequence_backward hsecond' hsequence'
    rw [HeadRecord.environment_of_content hcontent,
      HeadRecord.environment_of_content hcontent'] at henvironment
    exact hinv.distinct hfirst hsecond henvironment hsequence hsequence'
  ready := by
    intro environment state u head' hstate hready hhead' hcommitted' henvironment
    obtain ⟨head, hhead, hcommitted, hcontent, hsame⟩ := h.committed_backward hhead' hcommitted'
    rw [h.syncState] at hstate
    rw [hsame]
    exact hinv.ready hstate hready hhead hcommitted
      ((HeadRecord.environment_of_content hcontent).symm.trans henvironment)
  bound := by
    intro environment state hstate
    rw [h.syncState] at hstate
    exact hinv.bound hstate

theorem historyInv (hinv : HistoryInv init s) (hready : PrepareReady pid s mutation) :
    HistoryInv init s' where
  operation := by
    intro first second hfirst hsecond hid
    rcases h.prepared_cases hfirst with hfirst | rfl
    · rcases h.prepared_cases hsecond with hsecond | rfl
      · exact hinv.operation hfirst hsecond hid
      · exact (hready.unused first hfirst hid).elim
    · rcases h.prepared_cases hsecond with hsecond | rfl
      · exact (hready.unused second hsecond hid.symm).elim
      · rfl
  committed := by
    intro completed sequence extendedAt hcommitted
    rcases h.happened hcommitted with hold | hnew
    · obtain ⟨hprepared, hdead⟩ := hinv.committed hold
      exact ⟨hprepared.mono h.history_extends, h.dead hready.unused hdead⟩
    · cases hnew
  chain u := by
    rw [h.commits, (h.versions u).1]
    exact hinv.chain u
  payload u := by
    rw [h.commits, (h.versions u).2]
    exact hinv.payload u
  audit event hevent hoperation := by
    rw [h.audit] at hevent
    exact h.dead hready.unused (hinv.audit event hevent hoperation)

theorem knownInv (hinv : KnownInv s) (hready : PrepareReady pid s mutation) : KnownInv s' where
  drawn hdrawn := by
    rw [h.drawnBy] at hdrawn
    rw [h.known]
    exact hinv.drawn hdrawn
  operation hprepared := by
    rw [h.known]
    rcases h.prepared_cases hprepared with hold | rfl
    · exact hinv.operation hold
    · exact hinv.drawn hready.owns
  born hprepared hexpected := by
    rw [h.known]
    rcases h.prepared_cases hprepared with hold | rfl
    · exact hinv.born hold hexpected
    · rcases hready.kind with ⟨-, howns, -⟩ | ⟨head, control, -, hupdates⟩
      · exact hinv.drawn howns
      · cases hupdates.expected.symm.trans hexpected
  entry := by
    intro entry hentry id hid
    rw [h.known]
    rw [h.history] at hentry
    rcases List.mem_append.mp hentry with hold | hnew
    · exact hinv.entry hold id hid
    · rw [List.mem_singleton.mp hnew] at hid
      exact hid
  object := by
    intro key object hobject
    rw [h.objects] at hobject
    rw [h.known]
    exact hinv.object hobject

theorem object (reference : ObjectReference) : s'.object reference = s.object reference := by
  rw [Cloud.object, Cloud.object, h.objects]

theorem kept {reference : ObjectReference} {time : Time} (hkept : s.Kept reference time) :
    s'.Kept reference time :=
  hkept.mono (fun hid => h.known ▸ hid)
    (fun object' hobject' => ⟨object', (h.object reference).symm.trans hobject',
      fun r hr => ⟨r, hr, le_rfl⟩⟩)
    fun entry hentry => by
      rw [h.history] at hentry
      rcases List.mem_append.mp hentry with hold | hnew
      · exact .inl hold
      · exact .inr (by rw [List.mem_singleton.mp hnew]; simp)

theorem retentionInv (hinv : RetentionInv s) : RetentionInv s' where
  deleted := by
    intro reference hdeleted
    rw [h.object, h.known]
    rcases h.happened hdeleted with hold | hnew
    · exact hinv.deleted hold
    · cases hnew
  kept := by
    intro completed sequence extendedAt prior hcommitted hprior reference hreference
    rcases h.happened hcommitted with hold | hnew
    · exact h.kept (hinv.kept hold hprior reference hreference)
    · cases hnew

/-! ### The step -/

theorem evolves (hready : PrepareReady pid s mutation) : Evolves (some pid) s s' where
  known hid := h.known ▸ hid
  drawn hdrawn := by rwa [h.drawnBy]
  history := h.history_extends
  placement := (congrArg Cloud.placement h.rest).trans rfl
  environments hsome := by rwa [show s'.environment _ = _ from h.other _ rfl (by simp)]
  prepared := by
    intro other hprepared
    rcases h.prepared_cases hprepared with hold | rfl
    · exact .inl hold
    · refine .inr ⟨pid, rfl, hready.owns, fun hexpected => ?_⟩
      rcases hready.kind with ⟨-, howns, -⟩ | ⟨head, control, -, hupdates⟩
      · exact howns
      · cases hupdates.expected.symm.trans hexpected
  rows hrow := ⟨_, h.row_forward hrow, .refl _, fun hnot hsettled => (hnot hsettled).elim⟩
  heads hhead hcommitted := by
    obtain ⟨head', hhead', hcontent, -⟩ := h.head_forward hhead
    exact ⟨head', hhead', (HeadRecord.committed_of_content hcontent).mpr hcommitted, .inl hcontent⟩
  identity := by
    intro u head head' hhead hhead'
    obtain ⟨other, hother, hcontent, -⟩ := h.head_forward hhead
    obtain rfl : head' = other := Option.some.inj (hhead'.symm.trans hother)
    exact ⟨HeadRecord.environment_of_content hcontent, HeadRecord.secretId_of_content hcontent⟩
  births := by
    intro u head' hnone hhead'
    rcases h.head_backward hhead' with ⟨head, hhead, -⟩ | ⟨rfl, -, rfl, hcreates⟩
    · cases hnone.symm.trans hhead
    · refine ⟨rfl, ?_⟩
      rcases hready.kind with ⟨-, -, hunborn, -⟩ | ⟨head, control, -, hupdates⟩
      · exact hunborn
      · cases hupdates.expected.symm.trans hcreates.expected
  leases := by
    intro u head' operationId hhead' howner
    rcases h.head_backward hhead' with ⟨head, hhead, rfl | ⟨-, rfl, -, -⟩⟩ | ⟨-, -, rfl, -⟩
    · exact .inl ⟨_, hhead, howner⟩
    · exact .inr (Option.some.inj howner ▸ hready.unused)
    · exact .inr (Option.some.inj howner ▸ hready.unused)
  lookups hlookup := .inl (h.lookup_forward hlookup)
  archived harchived := .inl (h.archivedAt harchived)
  access consumerId environment u := .inl (h.access consumerId environment u)
  objects hobject := .inl ⟨_, h.objects ▸ hobject, rfl, rfl⟩
  bodies _ hobject := ⟨_, (h.object _).symm.trans hobject, rfl⟩
  kept := h.kept
  counters environment := by
    rw [h.counter]
    exact CounterLe.refl _
  sequences := by
    intro u head head' hhead hhead'
    obtain ⟨other, hother, -, hsame⟩ := h.head_forward hhead
    obtain rfl : head' = other := Option.some.inj (hhead'.symm.trans hother)
    exact .inl hsame
  unsynced := by
    intro u head' hhead' hcommitted' hnone
    obtain ⟨head, hhead, hcommitted, -, hsame⟩ := h.committed_backward hhead' hcommitted'
    exact ⟨head, hhead, hcommitted, hsame.symm.trans hnone⟩
  changes hrow := .inl ((h.change _ _).symm.trans hrow)
  registry := h.claim.extends
  evidence hevent := by rwa [h.audit]

/-- **Preparing a mutation keeps the invariant.** -/
theorem recordsInv (hinv : RecordsInv s) : RecordsInv s' := by
  refine hinv.transfer h.claim.extends fun {event claim} hclaim hevent => ?_
  rcases h.happened hevent with hold | rfl
  · exact .inl hold
  · cases hclaim
    exact .inr h.claim.claimed

theorem capabilitiesInv (hinv : CapabilitiesInv s) : CapabilitiesInv s' :=
  hinv.transfer (.of_registry h.claim.capabilities_of_claim (.of_record rfl h.history))
    (fun hid => h.known ▸ hid) h.history_extends

theorem invariant (hinv : Invariant init s) (hready : PrepareReady pid s mutation) :
    Invariant init s' where
  rows := h.rowsInv hinv.rows
  heads := h.headsInv hinv hready
  names := h.namesInv hinv
  access := h.accessInv hinv
  sync := h.syncInv hinv.sync
  history := h.historyInv hinv.history hready
  known := h.knownInv hinv.known hready
  retention := h.retentionInv hinv.retention
  records := h.recordsInv hinv.records
  identities := hinv.identities.transfer (.moved _ h.claim) fun hidentity =>
    .inl (by rwa [h.rest] at hidentity)
  capabilities := h.capabilitiesInv hinv.capabilities

end Preparation

end Hemlig
