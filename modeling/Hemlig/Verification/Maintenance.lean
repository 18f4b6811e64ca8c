import Hemlig.Verification.Mutations

/-!
# Recovery and retention

Recovery reports an operation only when its head or its lease is gone, and with it
its chance to commit.  Retention deletes only what no head names.
-/

namespace Hemlig

open Concurrent Store DynamoRepository

variable {init s s' : Cloud} {pid : ℕ}

section Specs

variable {issued : Request → Cloud → Prop} {F : Cloud → Prop}

/-- A write whose refusal is an answer. -/
theorem spec_conditionally {write : Service Unit} {R : Cloud → Prop}
    (h : Spec init issued pid F write fun _ s => R s) :
    Spec init issued pid F (conditionally write) fun done s => done = true → R s := by
  refine Discipline.Safe.recover (E := fun _ s => F s) (Spec.bind h fun _ =>
    .ret fun s _ hs _ => hs.2) fun failure => ?_
  refine .ite (fun _ => .ret fun s _ hs => ⟨hs, fun h => ?_⟩) fun _ => .raise fun _ _ hs => hs
  cases h

theorem harmless_conditionally {write : Service Unit} (h : write.Only Request.Harmless) :
    (conditionally write).Only Request.Harmless :=
  .recover (.bind h fun _ => trivial) fun _ => .ite trivial trivial

/-! ## Recovery -/

theorem lasts_dead {operationId : String} : Lasts init fun s => s.Dead operationId :=
  fun _ _ _ _ _ hevolves h => hevolves.dead h

/-- An operation whose head or whose lease is removed holds no lease any more. -/
theorem dead_of_removed (hinv : Invariant init s) {u operationId : String} {head : HeadRecord}
    (hhead : s.head u = some head) (howner : head.leaseOwner = some operationId)
    (hhistory : s.history <+: s'.history)
    (hself : ∀ head', s'.head u = some head' → head'.leaseOwner ≠ some operationId)
    (hother : ∀ other, other ≠ u → s'.head other = s.head other) : s'.Dead operationId := by
  obtain ⟨mutation, hprepared, hid, huid, -⟩ := hinv.heads.lease hhead howner
  refine ⟨⟨mutation, hprepared.mono hhistory, hid⟩, fun other head' hhead' howner' => ?_⟩
  by_cases hsame : other = u
  · exact hself head' (hsame ▸ hhead') howner'
  · rw [hother other hsame] at hhead'
    obtain ⟨mutation', hprepared', hid', huid', -⟩ := hinv.heads.lease hhead' howner'
    obtain rfl := hinv.history.operation hprepared hprepared' (hid.trans hid'.symm)
    exact hsame (huid'.symm.trans huid)

theorem spec_abortPreparedCreate (hF : Persists init pid F)
    (environment secretId secretUid operationId : String) :
    Spec init issued pid F (abortPreparedCreate environment secretId secretUid operationId)
      fun done s => done = true → s.Dead operationId := by
  refine spec_conditionally (.send hF rfl (fun _ _ _ => .abort) ?_)
  rintro s choice answer s' hinv - - - hperform
  simp only [perform] at hperform
  split at hperform <;> cases hperform
  rename_i table htransact
  obtain ⟨head, hundone⟩ := undone_of_transact hinv.names htransact
  have hwrite : Write.delete (.head secretUid) (fun head =>
      head.leaseOwner = some operationId ∧ head.workflowState = .prepared) ∈
      abortPreparedCreateWrites environment secretId secretUid operationId := by
    simp [abortPreparedCreateWrites]
  obtain ⟨current, hcurrent, hcondition, -⟩ := get_of_delete htransact hwrite
  have howner : current.leaseOwner = some operationId := by
    simp only [decide_eq_true_eq] at hcondition
    exact hcondition.1
  refine dead_of_removed hinv hcurrent howner List.prefix_rfl (fun head' hhead' => ?_) hundone.heads
  cases hundone.after.symm.trans hhead'

theorem spec_releaseLease (hF : Persists init pid F) (secretUid operationId : String) :
    Spec init issued pid F (releaseLease secretUid operationId)
      fun done s => done = true → s.Dead operationId := by
  refine spec_conditionally (.send hF rfl (fun _ _ _ => .release) ?_)
  rintro s choice answer s' hinv - - - hperform
  simp only [perform] at hperform
  split at hperform <;> cases hperform
  rename_i hholds
  obtain ⟨head, hhead, hcondition⟩ := Write.holds_update.mp hholds
  refine dead_of_removed hinv hhead (by simpa using hcondition) List.prefix_rfl
    (fun head' hhead' => ?_) fun other hother => ?_
  · rw [releaseLeaseWrite, Write.apply_update hhead] at hhead'
    cases (Table.get_set_self _ _ _).symm.trans hhead'
    intro howner
    cases howner
  · rw [releaseLeaseWrite, Write.apply_update hhead]
    exact Table.get_set_of_ne _ _ (by simpa using hother)

theorem spec_releaseHead (hF : Persists init pid F) (operationId secretUid : String)
    (head : HeadRecord) :
    Spec init issued pid F (Recovery.releaseHead operationId secretUid head)
      fun released s => released = true → s.Dead operationId := by
  refine .bind (spec_abortPreparedCreate hF _ _ _ _) fun aborted => ?_
  refine .ite (fun haborted => .ret fun s _ hs _ => hs.2 haborted) fun _ => ?_
  exact spec_releaseLease (hF.and (.imp lasts_dead.persists)) _ _

theorem spec_settleHead (hF : Persists init pid F) (operationId secretUid : String)
    (head : HeadRecord) :
    Spec init issued pid F (Recovery.settleHead operationId secretUid head) fun _ _ => True := by
  refine .bind (spec_releaseHead hF _ _ _) fun released => ?_
  refine .ite (fun hreleased => .send_any (hF.and (.imp lasts_dead.persists)) rfl ?_)
    fun _ => .ret fun _ _ _ => trivial
  exact fun s _ hs _ => hs.2 hreleased

theorem harmless_markAll (workflows : List IndexedWorkflow) :
    (Recovery.markAll workflows).Only Request.Harmless := by
  refine .bind ?_ fun _ => .ofExcept _
  suffices h : ∀ left pending, (Recovery.markAll.settle left pending).Only Request.Harmless from h _ _
  intro left
  induction left with
  | zero => exact fun _ => trivial
  | succ left ih =>
      intro pending
      refine .bind (Request.Harmless.send ⟨rfl, fun _ _ => trivial⟩) fun next => ?_
      cases pending[next % pending.length]? with
      | none => trivial
      | some workflow =>
          refine .bind (.recover (.bind (harmless_conditionally
            (Request.Harmless.send ⟨rfl, fun _ _ => .retryable⟩)) fun _ => trivial)
            fun _ => trivial) fun result => ?_
          exact .bind (ih _) fun _ => trivial

theorem spec_recoverOperation (hF : Persists init pid F) (operationId : String)
    (workflows : List IndexedWorkflow) :
    Spec init issued pid F (Recovery.recoverOperation operationId workflows) fun _ _ => True := by
  cases workflows with
  | nil => exact .ret fun _ _ _ => trivial
  | cons workflow rest =>
      refine (Spec.harmless hF (harmless_markAll _)).skip fun results => ?_
      refine .ite (fun _ => ?_) fun _ => .ret fun _ _ _ => trivial
      cases secretIdentityFromPk workflow.secretUid with
      | none => exact .ret fun _ _ _ => trivial
      | some secretUid =>
          refine Spec.skip (R := fun _ _ => True) (.get hF _ fun _ _ _ => trivial) fun found => ?_
          cases found with
          | none => exact .ret fun _ _ _ => trivial
          | some head => exact spec_settleHead hF _ _ _

/-- **Recovery** keeps the discipline. -/
theorem spec_recovery (hF : Persists init pid F) :
    Spec init issued pid F Recovery.handler fun _ _ => True := by
  refine (spec_now hF).skip fun now => ?_
  refine Spec.skip (.send_any hF rfl fun _ _ _ => trivial) fun expired => ?_
  exact (Spec.forM fun operationId _ => spec_recoverOperation hF _ _).skip fun _ =>
    .send_any hF rfl fun _ _ _ => trivial

/-! ## Retention -/

/-- What a process knows about a row that the retention index showed. -/
structure Cloud.Listed (s : Cloud) (workflow : IndexedWorkflow) : Prop where
  objectKey : workflow.row.objectKey = objectKeyOf workflow.secretUid workflow.sk
  settled : workflow.row.s3VersionId.isSome → ∃ row,
    s.workflow workflow.secretUid workflow.sk = some row ∧ row.Settled ∧
      row.s3VersionId = workflow.row.s3VersionId

theorem lasts_listed {workflow : IndexedWorkflow} : Lasts init fun s => s.Listed workflow := by
  intro s s' actor _ _ hevolves h
  refine ⟨h.objectKey, fun hsome => ?_⟩
  obtain ⟨row, hrow, hsettled, hversion⟩ := h.settled hsome
  obtain ⟨row', hrow', hstep, -⟩ := hevolves.rows hrow
  obtain ⟨hsettled', hversion'⟩ := hstep.settled hsettled
  exact ⟨row', hrow', hsettled', hversion'.trans hversion⟩

theorem spec_listReadyWorkflows (hF : Persists init pid F) :
    Spec init issued pid F listReadyWorkflows fun workflows s =>
      ∀ workflow ∈ workflows, s.Listed workflow := by
  refine .bind (spec_now hF) fun now => .send (hF.and (.const _)) rfl (fun _ _ _ => trivial) ?_
  rintro s choice workflows s' hinv - - - hperform workflow hmem
  cases hperform
  obtain ⟨⟨u, sk⟩, -, hshown⟩ := List.mem_filterMap.mp hmem
  obtain ⟨row, hrow, rfl⟩ := Option.map_eq_some_iff.mp hshown
  obtain ⟨hindexed, -⟩ := Option.filter_eq_some_iff.mp hrow
  obtain ⟨hok, current, hcurrent, hstep⟩ := hinv.rows.index hindexed
  refine ⟨hok.objectKey, fun hsome => ?_⟩
  obtain ⟨hsettled, hversion⟩ := hstep.settled (hok.stored.mp hsome)
  exact ⟨current, hcurrent, hsettled, hversion⟩

theorem lasts_superseded {u : String} {sk : WorkflowSk} :
    Lasts init fun s => s.Superseded u sk :=
  fun _ _ _ hinv _ hevolves h => hevolves.superseded hinv.rows h

theorem secretIdentityFromPk_eq {u u' : String} (h : secretIdentityFromPk u = some u') : u' = u := by
  unfold secretIdentityFromPk at h
  split at h
  · cases h
  · exact (Option.some.inj h).symm

theorem harmless_canDeleteVersion (reference : ObjectReference) :
    (ObjectStore.canDeleteVersion reference).Only Request.Harmless :=
  .bind (Request.Harmless.send ⟨rfl, fun _ _ => trivial⟩) fun _ =>
    .bind (Request.Harmless.send ⟨rfl, fun _ _ => trivial⟩) fun _ => trivial

/-- **Retention deletes only what no head names.** -/
theorem spec_examine (hF : Persists init pid F) {workflow : IndexedWorkflow}
    (hlisted : ∀ s, F s → s.Listed workflow) :
    Spec init issued pid F (Retention.examine workflow) fun _ _ => True := by
  unfold Retention.examine
  cases hversion : workflow.row.s3VersionId with
  | none => exact .ret fun _ _ _ => trivial
  | some versionId =>
      cases hpk : secretIdentityFromPk workflow.secretUid with
      | none => exact .ret fun _ _ _ => trivial
      | some u =>
          obtain rfl := secretIdentityFromPk_eq hpk
          refine .bind (R := fun head s => Retention.isCurrent workflow.sk head = false →
            s.Superseded workflow.secretUid workflow.sk) (.get hF _ fun s hinv hs hnot => ?_)
            fun head => ?_
          · obtain ⟨row, hrow, hsettled, -⟩ := (hlisted s hs).settled (by rw [hversion]; rfl)
            refine ⟨⟨row, hrow, hsettled⟩, fun head hhead hnames => ?_⟩
            rw [show s.table.get (.head workflow.secretUid) = some head from hhead] at hnot
            cases hnot.symm.trans hnames
          have hkeep : Persists init pid fun s => F s ∧ (Retention.isCurrent workflow.sk head = false →
              s.Superseded workflow.secretUid workflow.sk) := hF.and (.imp lasts_superseded.persists)
          refine .ite (fun _ => .ret fun _ _ _ => trivial) fun hnot => ?_
          have hsuperseded : ∀ s, F s ∧ (Retention.isCurrent workflow.sk head = false →
              s.Superseded workflow.secretUid workflow.sk) →
                s.Superseded workflow.secretUid workflow.sk :=
            fun s hs => hs.2 (Bool.eq_false_of_not_eq_true hnot)
          refine (Spec.harmless hkeep (harmless_canDeleteVersion _)).skip fun canDelete => ?_
          refine .ite (fun _ => ?_) fun _ => .ret fun _ _ _ => trivial
          refine Spec.skip (.send_any hkeep rfl fun s _ hs => ?_) fun _ => ?_
          · exact ⟨_, _, (hlisted s hs.1).objectKey, hsuperseded s hs⟩
          refine Spec.skip (.send_any hkeep rfl fun s _ hs => ?_) fun _ => ?_
          · exact SanctionedWrite.deleted (hsuperseded s hs)
          refine .send_any hkeep rfl fun _ _ _ hrecovery => ?_
          cases (show "revision.retention.delete" ≠ "workflow.recovery" by decide) hrecovery

theorem spec_retention (hF : Persists init pid F) :
    Spec init issued pid F Retention.handler fun _ _ => True := by
  refine .bind (spec_listReadyWorkflows hF) fun workflows => .forM fun workflow hmem => ?_
  exact spec_examine (hF.and (.forall fun _ => .imp lasts_listed.persists))
    fun s hs => hs.2 workflow hmem

end Specs

end Hemlig
