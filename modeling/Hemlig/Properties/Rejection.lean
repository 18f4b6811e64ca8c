import Hemlig.Properties.Successes
import Hemlig.Verification.Rejection

/-!
# A rejected bundle fails its enrollment

When API Gateway reports warnings on the candidate of an enrollment, the call that observes them
first publishes the current bundle again and then fails the enrollment.  The first can fail: it is
then the only thing that happened.  The operation stays `PREPARED` and keeps the lease, in
particular where the candidate is the current bundle itself.
-/

namespace Hemlig

open Concurrent Store DynamoRepository ConsumerService

variable {init s s' : Cloud} {pid : ℕ} {tape rest : List Choice} {operation : EnrollmentRecord}
  {operationId : String}

/-! ## The rows of the enrollment -/

/-- The enrollment has failed, with its identity, and neither the consumer nor the truststore waits
for it. -/
structure Cloud.EnrollmentFailed (s : Cloud) (operation : EnrollmentRecord) : Prop where
  failed : ∃ row, s.enrollment operation.operationId = some row ∧
    row.record.workflowState = .failed
  identity : ∃ identity, s.identity operation.apiFingerprint = some identity ∧
    identity.status = .failed
  consumer : ∀ consumer, s.consumer operation.consumerId = some consumer →
    consumer.status ≠ .pending
  lease : ∀ state, s.truststoreState = some state → state.leaseOwner = none

/-- The operation is prepared and holds the lease. -/
def Cloud.Publishing (s : Cloud) (operation : EnrollmentRecord) : Prop :=
  ∃ identity row consumer state, s.registry.Waiting operation identity row consumer state

theorem Cloud.Publishing.of_table (h : s.Publishing operation) (htable : s'.table = s.table) :
    s'.Publishing operation := by
  unfold Cloud.Publishing Cloud.registry at h ⊢
  rw [htable]
  exact h

/-- Nothing has failed as long as the rows are there. -/
theorem Cloud.Publishing.not_failed (h : s.Publishing operation) :
    ¬ s.EnrollmentFailed operation := by
  obtain ⟨identity, row, consumer, state, hwaiting⟩ := h
  intro hfailed
  obtain ⟨other, hother, hstate⟩ := hfailed.failed
  obtain rfl : row = other := Option.some.inj (hwaiting.storedRow.symm.trans hother)
  cases hwaiting.prepared.symm.trans hstate

/-- A prepared operation that has got the lease. -/
theorem Cloud.Leased.publishing (h : s.Leased s' operationId) (hsound : s.registry.Sound)
    {row : StoredEnrollment operationId} (hrow : s.enrollment operationId = some row)
    (hprepared : row.record.workflowState = .prepared) : s'.Publishing row.record := by
  obtain ⟨operation, rfl⟩ := row
  obtain ⟨identity, hidentity, hcreated⟩ := hsound.created hrow
  obtain ⟨consumer, hconsumer, hwaits⟩ := hsound.waiting hrow hprepared
  obtain ⟨state, hstate, howner⟩ := h.held
  have hkept : ∀ key, key ≠ Key.truststoreState → s'.table.get key = s.table.get key := h.others
  refine ⟨identity, ⟨operation, rfl⟩, consumer, state, ?_⟩
  exact
    { storedIdentity := (hkept (.identity _) nofun).trans hidentity
      pending := hcreated.agrees.pending_iff.mp hprepared
      owner := hcreated.consumerId
      storedRow := (hkept (.enrollment _) nofun).trans hrow
      prepared := hprepared
      fixed := rfl
      storedConsumer := (hkept (.consumer _) nofun).trans hconsumer
      waiting := hwaits.pending
      storedState := hstate
      lease := howner }

/-! ## The transaction -/

/-- Every condition of the transaction holds. -/
theorem Cloud.Publishing.holds (h : s.Publishing operation) :
    ∀ write ∈ failEnrollmentWrites operation, write.holds s.table = true := by
  obtain ⟨identity, row, consumer, state, hwaiting⟩ := h
  simp only [failEnrollmentWrites, identityWrite, operationWrite, truststoreWrite,
    Registry.operationType_eq, if_true, List.cons_append, List.nil_append, List.forall_mem_cons,
    Write.holds_update, Write.holds_delete, decide_eq_true_eq]
  exact ⟨⟨identity, hwaiting.storedIdentity, hwaiting.pending, hwaiting.owner⟩,
    ⟨row, hwaiting.storedRow, hwaiting.prepared⟩, ⟨state, hwaiting.storedState, hwaiting.lease⟩,
    ⟨consumer, hwaiting.storedConsumer, hwaiting.waiting⟩, fun write hmem => (List.not_mem_nil hmem).elim⟩

theorem length_failEnrollmentWrites : (failEnrollmentWrites operation).length = 4 := by
  simp [failEnrollmentWrites, Registry.operationType_eq]

/-- The transaction is made unless one of its writes meets another one. -/
theorem Cloud.Publishing.transact (h : s.Publishing operation) (conflicts : List ℕ) :
    (∃ table, Store.transact s.table conflicts (failEnrollmentWrites operation) = .ok table) ↔
      ∀ index < 4, index ∉ conflicts := by
  have hnodup : ((failEnrollmentWrites operation).map Write.key).Nodup := by
    simp [failEnrollmentWrites, identityWrite, operationWrite, truststoreWrite,
      Registry.operationType_eq]
  have hsize : (failEnrollmentWrites operation).length ≤ maximumWrites := by
    rw [length_failEnrollmentWrites]
    decide
  have hlength : (failEnrollmentWrites operation).length = 4 := length_failEnrollmentWrites
  rw [← hlength]
  exact transact_ok_iff hnodup hsize h.holds conflicts

/-- **The transaction fails the enrollment.** -/
theorem Cloud.Publishing.failed (h : s.Publishing operation) {conflicts : List ℕ}
    (htransact : Store.transact s.table conflicts (failEnrollmentWrites operation) = .ok s'.table) :
    s'.EnrollmentFailed operation := by
  obtain ⟨identity, row, consumer, state, hwaiting⟩ := h
  have hstep := Registry.fail_of_transact ⟨row, hwaiting.storedRow, hwaiting.fixed⟩ htransact
  generalize hafter : Registry.ofTable s'.table = after at hstep
  cases hstep with
  | @fail _ identity' row' consumer' state' hwaiting' =>
      refine ⟨⟨row'.settle .failed, ?_, rfl⟩, ⟨identity'.withStatus .failed, ?_, rfl⟩, ?_, ?_⟩
      · show (Registry.ofTable s'.table).enrollments _ = _
        rw [hafter]
        exact Function.update_self ..
      · show (Registry.ofTable s'.table).identities _ = _
        rw [hafter]
        exact Function.update_self ..
      · intro other hother
        have hnone : (Registry.ofTable s'.table).consumers operation.consumerId = some other := hother
        rw [hafter] at hnone
        cases (Function.update_self ..).symm.trans hnone
      · intro other hother
        have hreleased : (Registry.ofTable s'.table).truststore = some other := hother
        rw [hafter] at hreleased
        obtain rfl := Option.some.inj hreleased
        rfl

/-! ## The call that observes the warnings -/

/-- The transaction on a tape fails the enrollment if the store makes it, and changes nothing
otherwise. -/
theorem failed_iff (h : s.Publishing operation) {outcome : Except Failure Unit}
    (hrun : service.onTape pid (failEnrollment operation) tape s = some (outcome, s')) :
    s'.EnrollmentFailed operation ↔ ∃ settle, tape = [settle] ∧ Gateway.Settles settle := by
  obtain ⟨settle, response, rfl, hexec, -⟩ := onTape_send hrun
  have hmade : ∀ response, perform pid settle s
      (.transactWrite (failEnrollmentWrites operation) none) = some (response, s') →
        (s'.EnrollmentFailed operation ↔ ∀ index < 4, index ∉ settle.conflicts) := by
    intro response hperform
    simp only [perform] at hperform
    rw [← h.transact settle.conflicts]
    cases htransact : Store.transact s.table settle.conflicts (failEnrollmentWrites operation) with
    | ok table =>
        rw [htransact] at hperform
        cases hperform
        exact iff_of_true (h.failed htransact) ⟨table, rfl⟩
    | error error =>
        rw [htransact] at hperform
        have hsame : s' = s := by cases error <;> cases hperform <;> rfl
        rw [hsame]
        refine iff_of_false h.not_failed fun hok => ?_
        obtain ⟨_, hok⟩ := hok
        cases hok
  have hsettles : (∃ other, [settle] = [other] ∧ Gateway.Settles other) ↔
      Gateway.Settles settle := by
    constructor
    · rintro ⟨other, heq, hsettle⟩
      exact (List.singleton_inj.mp heq) ▸ hsettle
    · exact fun hsettle => ⟨settle, rfl, hsettle⟩
  rw [hsettles, Gateway.Settles]
  unfold exec at hexec
  cases hfault : settle.fault with
  | none =>
      rw [hfault] at hexec
      rw [hmade response hexec]
      exact (and_iff_right (by simp)).symm
  | lost =>
      rw [hfault] at hexec
      have hsame : s' = s := by
        cases hexec
        rfl
      rw [hsame]
      exact iff_of_false h.not_failed fun hsettle => hsettle.1 rfl
  | unanswered =>
      rw [hfault] at hexec
      obtain ⟨result, hperform, heq⟩ := Option.map_eq_some_iff.mp hexec
      obtain ⟨-, rfl⟩ := Prod.mk.inj heq
      rw [hmade result.1 hperform]
      exact (and_iff_right (by simp)).symm

/-- The publication of a rollback: the current bundle, if there is one. -/
def republish : Option String × Option String → Service Unit
  | (some key, some versionId) => publishTruststore key versionId
  | _ => .ret ()

theorem rollbackRejectedTruststore_eq (operation : EnrollmentRecord) :
    rollbackRejectedTruststore operation =
      getTruststoreState.bind fun state =>
        (republish (state.bind TruststoreState.currentTruststoreKey,
          state.bind TruststoreState.currentTruststoreVersionId)).bind fun _ =>
            failEnrollment operation := by
  unfold rollbackRejectedTruststore
  simp only [Program.bind_eq]
  congr 1
  funext state
  generalize state.bind TruststoreState.currentTruststoreKey = key
  generalize state.bind TruststoreState.currentTruststoreVersionId = versionId
  cases key with
  | none => rfl
  | some key => cases versionId <;> rfl

/-- A republished bundle leaves what the answers of API Gateway leave. -/
theorem restored_of_republish {bundle : Option String × Option String} {read : Choice}
    (hread : read.fault = .none) {outcome : Except Failure Unit}
    (h : service.onTape pid (republish bundle) tape s = some (outcome, s')) :
    Gateway.restored bundle (read :: (tape ++ rest)) = outcome.toOption.map fun _ => rest := by
  unfold Gateway.restored
  dsimp only
  rw [if_neg (not_not.mpr hread)]
  obtain ⟨key, versionId⟩ := bundle
  cases key with
  | none =>
      obtain ⟨rfl, rfl, -⟩ := System.onTape_ret h
      rfl
  | some key =>
      cases versionId with
      | none =>
          obtain ⟨rfl, rfl, -⟩ := System.onTape_ret h
          rfl
      | some versionId => exact confirmed_of_publish h

theorem table_of_republish {bundle : Option String × Option String}
    {outcome : Except Failure Unit}
    (h : service.onTape pid (republish bundle) tape s = some (outcome, s')) :
    s'.table = s.table := by
  obtain ⟨key, versionId⟩ := bundle
  cases key with
  | none =>
      obtain ⟨-, -, rfl⟩ := System.onTape_ret h
      rfl
  | some key =>
      cases versionId with
      | none =>
          obtain ⟨-, -, rfl⟩ := System.onTape_ret h
          rfl
      | some versionId => exact table_of_publish h

/-- **The enrollment fails just where the domain goes back to the current bundle**, and the store
makes the transaction after it. -/
theorem rolledBack_iff (h : s.Publishing operation) {outcome : Except Failure Unit}
    (hrun : service.onTape pid (rollbackRejectedTruststore operation) tape s =
      some (outcome, s')) :
    s'.EnrollmentFailed operation ↔ Gateway.RollsBack s.currentBundle tape := by
  rw [rollbackRejectedTruststore_eq] at hrun
  rcases System.onTape_bind_inv hrun with ⟨error, rfl, hunread⟩ |
    ⟨state, front, back, middle, rfl, hread, hrest⟩
  · -- the state is not read
    obtain ⟨read, response, rfl, hexec, heq⟩ := onTape_send hunread
    have hfault : read.fault ≠ .none := by
      intro hnone
      rw [exec_of_no_fault hnone] at hexec
      cases hexec
      cases heq
    have htable : s'.table = s.table :=
      Request.TableKept.table (q := .get .truststoreState) trivial hexec
    refine iff_of_false (h.of_table htable).not_failed ?_
    rintro ⟨settle, rest, hrestored, -⟩
    unfold Gateway.restored at hrestored
    dsimp only at hrestored
    rw [if_pos hfault] at hrestored
    cases hrestored
  · obtain ⟨read, response, rfl, hexec, heq⟩ := onTape_send hread
    have hnone : read.fault = .none := by
      by_contra hfault
      rw [exec_of_fault hfault hexec] at heq
      cases heq
    rw [exec_of_no_fault hnone] at hexec
    obtain ⟨rfl, rfl⟩ := Prod.mk.inj (Option.some.inj hexec)
    obtain rfl : state = s.truststoreState := Except.ok.inj heq
    rcases System.onTape_bind_inv hrest with ⟨error, rfl, hrefused⟩ |
      ⟨_, front', back', middle', rfl, hpublished, hsettle⟩
    · -- the current bundle is not confirmed
      refine iff_of_false (h.of_table (table_of_republish hrefused)).not_failed ?_
      rintro ⟨settle, rest, hrestored, -⟩
      have hleft : Gateway.restored s.currentBundle (read :: (back ++ [])) = none :=
        restored_of_republish hnone hrefused
      rw [List.append_nil] at hleft
      cases hrestored.symm.trans hleft
    · have hrestored : Gateway.restored s.currentBundle (read :: (front' ++ back')) = some back' :=
        restored_of_republish hnone hpublished
      rw [failed_iff (h.of_table (table_of_republish hpublished)) hsettle]
      obtain ⟨settle, response, rfl, -, -⟩ := onTape_send hsettle
      show _ ↔ ∃ settle' rest, _ ∧ _
      constructor
      · rintro ⟨other, heq, hsettles⟩
        exact ⟨other, [], hrestored.trans (congrArg some heq), hsettles⟩
      · rintro ⟨other, rest, hother, hsettles⟩
        obtain heq := Option.some.inj (hrestored.symm.trans hother)
        obtain ⟨rfl, rfl⟩ := List.cons.inj heq
        exact ⟨settle, rfl, hsettles⟩

/-- The call of a prepared operation has got the lease and asked API Gateway for its candidate, up
to a report that shows warnings on it; `answers` is what the environment answers from there on. -/
def Cloud.Rejected (s : Cloud) (pid : ℕ) (operation : EnrollmentRecord)
    (tape answers : List Choice) : Prop :=
  ∃ row read front reports found between after,
    s.enrollment operation.operationId = some row ∧ row.record = operation ∧
    operation.workflowState = .prepared ∧ read.fault = .none ∧
    service.onTape pid (candidate operation) front s = some (.ok found, between) ∧
    service.onTape pid (publishTruststore found.1.key found.1.versionId) reports between =
      some (.error truststoreRejected, after) ∧
    tape = read :: (front ++ (reports ++ answers))

/-- A rejected candidate is rolled back, whatever would follow its publication. -/
theorem onTape_publishOrRollback {truststore : TruststoreReference} {front answers : List Choice}
    {next : Unit → Service ConsumerProvisioningResult} {middle : Cloud}
    (hreports : service.onTape pid (publishTruststore truststore.key truststore.versionId) front s =
      some (.error truststoreRejected, middle))
    {outcome : Except Failure ConsumerProvisioningResult}
    (h : service.onTape pid ((publishOrRollback operation truststore).bind next)
      (front ++ answers) s = some (outcome, s')) :
    ∃ ended, service.onTape pid (rollbackRejectedTruststore operation) answers middle =
      some (ended, s') := by
  have hhandler : service.onTape pid ((publishOrRollback operation truststore).bind next)
      (front ++ answers) s =
        service.onTape pid ((rollbackRejectedTruststore operation).bind fun _ =>
          (Program.raise truststoreRejected : Service ConsumerProvisioningResult)) answers middle := by
    refine (System.onTape_recover_bind hreports).trans ?_
    simp only [if_true, Program.bind_eq, Program.bind_assoc]
    rfl
  rw [hhandler] at h
  rcases System.onTape_bind_inv h with ⟨error, -, hfailed⟩ |
    ⟨value, front', back', middle', rfl, hdone, hraised⟩
  · exact ⟨_, hfailed⟩
  · obtain ⟨rfl, -, rfl⟩ := System.onTape_raise hraised
    rw [List.append_nil]
    exact ⟨_, hdone⟩

/-- **A call that observes warnings on its candidate fails the enrollment just where it can roll
the domain back.** -/
theorem rejected_fails_iff (hinit : Initial init) {actions : List ServiceAction} {w : ServiceWorld}
    (hrun : service.run (World.initial init) actions = some w) {answers : List Choice}
    (hrejected : w.store.Rejected pid operation tape answers)
    {outcome : Except Failure ConsumerProvisioningResult}
    (h : service.onTape pid (ConsumerService.resume operation.operationId) tape w.store =
      some (outcome, s')) :
    s'.EnrollmentFailed operation ↔ Gateway.RollsBack w.store.currentBundle answers := by
  obtain ⟨row, read, front, reports, found, between, after, hrow, hrecord, hprepared, hread,
    hcandidate, hreports, rfl⟩ := hrejected
  have hleased := leased_of_candidate hcandidate
  rw [← hrecord] at hprepared hcandidate
  have hpublishing : between.Publishing operation :=
    hrecord ▸ hleased.publishing (invariant_of_run hinit hrun).identities.sound hrow hprepared
  have htable : after.table = between.table := table_of_publish hreports
  have hbundle : after.currentBundle = w.store.currentBundle := by
    rw [← hleased.current, Cloud.currentBundle, Cloud.currentBundle, Cloud.truststoreState, htable]
  rw [onTape_resume hrow hprepared hread hcandidate, hrecord] at h
  obtain ⟨ended, hrollback⟩ := onTape_publishOrRollback hreports h
  rw [← hbundle]
  exact rolledBack_iff (hpublishing.of_table htable) hrollback

namespace Sample

/-- The call on a tape in three parts, if its candidate is rejected after the first two. -/
def rejected (s : Cloud) (pid : ℕ) (operationId : String) (read : Choice)
    (front reports answers : List Choice) : Option (EnrollmentRecord × Cloud) := do
  let row ← s.enrollment operationId
  let found ← service.onTape pid (candidate row.record) front s
  let truststore ← found.1.toOption
  let published ← service.onTape pid
    (publishTruststore truststore.1.key truststore.1.versionId) reports found.2
  let ended ← service.onTape pid (ConsumerService.resume operationId)
    (read :: (front ++ (reports ++ answers))) s
  if row.record.workflowState = .prepared ∧ read.fault = .none ∧
      published.1 = .error truststoreRejected then
    some (row.record, ended.2)
  else none

theorem of_rejected {read : Choice} {front reports answers : List Choice}
    (h : rejected s pid operationId read front reports answers = some (operation, s')) :
    s.Rejected pid operation (read :: (front ++ (reports ++ answers))) answers ∧
      ∃ outcome, service.onTape pid (ConsumerService.resume operation.operationId)
        (read :: (front ++ (reports ++ answers))) s = some (outcome, s') := by
  obtain ⟨⟨record, rfl⟩, hrow, h⟩ := Option.bind_eq_some_iff.mp h
  obtain ⟨⟨found, between⟩, hfound, h⟩ := Option.bind_eq_some_iff.mp h
  obtain ⟨truststore, htruststore, h⟩ := Option.bind_eq_some_iff.mp h
  obtain ⟨⟨published, after⟩, hpublished, h⟩ := Option.bind_eq_some_iff.mp h
  obtain ⟨⟨outcome, ended⟩, hended, h⟩ := Option.bind_eq_some_iff.mp h
  obtain ⟨⟨hprepared, hread, hrejected⟩, heq⟩ := Option.ite_none_right_eq_some.mp h
  obtain ⟨rfl, rfl⟩ := Prod.mk.inj (Option.some.inj heq)
  have hok : found = .ok truststore := by
    cases found with
    | ok value => exact congrArg Except.ok (Option.some.inj htruststore)
    | error error => cases htruststore
  have herror : published = .error truststoreRejected := hrejected
  rw [hok] at hfound
  rw [herror] at hpublished
  exact ⟨⟨⟨record, rfl⟩, read, front, reports, truststore, between, after, hrow, rfl, hprepared,
    hread, hfound, hpublished, rfl⟩, outcome, hended⟩

/-- The domain has the bundle of the operation and shows a warning on it. -/
def warning (operationId id : String) : Choice :=
  { supplying operationId id with
    domain := { (supplying operationId id).domain with truststoreWarnings := ["untrusted"] } }

/-- The first enrollment is rejected, and the store answers what follows. -/
def rejectedFirst : Option (EnrollmentRecord × Cloud) :=
  rejected (reached Cloud.empty _ started).store 2 "op" (supplying "op" "bundle")
    (List.replicate 9 (supplying "op" "bundle"))
    [supplying "op" "bundle", warning "op" "bundle"]
    (List.replicate 2 (supplying "op" "bundle"))

theorem rejectedFirst_checked : rejectedFirst.isSome = true ∧
    (reached Cloud.empty _ started).store.currentBundle = (none, none) := by
  decide +kernel

/-- Another consumer is enrolled under the same roots, up to the prepared operation `op2`. -/
def startingAnother : List ServiceAction :=
  .start 2 (.admin (.enrollConsumer (enrollment "app2" "key2" "e2")) "corr") ::
    steps 2 (List.replicate 15 (supplying "op" "op2"))

/-- Its candidate is the current bundle, on which the domain now shows a warning. -/
def rejectedCurrent (s : Cloud) : Option (EnrollmentRecord × Cloud) :=
  rejected s 2 "op2" (supplying "op" "bundle") (List.replicate 7 (supplying "op" "bundle"))
    [supplying "op" "bundle", warning "op" "bundle"]
    [supplying "op" "bundle", supplying "op" "bundle", warning "op" "bundle"]

theorem startedAnother_checked : (service.run (World.initial Cloud.empty)
    ((starting ++ publishing) ++ startingAnother)).any (fun w => decide
      (((rejectedCurrent w.store).bind fun found =>
        (found.2.enrollment found.1.operationId).map (·.record.workflowState)) =
          some .prepared)) = true := by
  decide +kernel

theorem startedAnother : (service.run (World.initial Cloud.empty)
    ((starting ++ publishing) ++ startingAnother)).isSome = true :=
  Option.isSome_of_any startedAnother_checked

end Sample

theorem rejected_fails_iff_first : ∃ operation s',
    Sample.rejectedFirst = some (operation, s') ∧ s'.EnrollmentFailed operation := by
  obtain ⟨hsome, hbundle⟩ := Sample.rejectedFirst_checked
  obtain ⟨⟨operation, s'⟩, hrejected⟩ := Option.isSome_iff_exists.mp hsome
  obtain ⟨hat, outcome, hcall⟩ := Sample.of_rejected hrejected
  refine ⟨operation, s', hrejected, (rejected_fails_iff Initial.empty
    (run_reached Sample.started) hat hcall).mpr
      ⟨Sample.supplying "op" "bundle", [], ?_, nofun, fun _ _ => List.not_mem_nil⟩⟩
  rw [hbundle]
  rfl

/-- **A rejected bundle that is the current one keeps the lease.** -/
theorem rejected_keeps_lease : ¬ ∀ init, Initial init → ∀ actions (w : ServiceWorld),
    service.run (World.initial init) actions = some w →
      ∀ pid operation tape answers, w.store.Rejected pid operation tape answers →
        ∀ outcome s', service.onTape pid (ConsumerService.resume operation.operationId) tape
          w.store = some (outcome, s') → s'.EnrollmentFailed operation := by
  intro hall
  have hstate := reached_of_any Sample.startedAnother_checked
  obtain ⟨⟨operation, s'⟩, hrejected, hrow⟩ := Option.bind_eq_some_iff.mp hstate
  obtain ⟨row, hrow, hprepared⟩ := Option.map_eq_some_iff.mp hrow
  obtain ⟨hat, outcome, hcall⟩ := Sample.of_rejected hrejected
  have hfailed := hall _ Initial.empty _ _ (run_reached Sample.startedAnother) 2 operation _ _ hat
    outcome s' hcall
  obtain ⟨other, hother, hstate'⟩ := hfailed.failed
  obtain rfl : row = other := Option.some.inj (hrow.symm.trans hother)
  cases hprepared.symm.trans hstate'

end Hemlig
