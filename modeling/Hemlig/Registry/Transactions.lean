import Hemlig.Registry.Machine

/-!
# The transactions of the registry are its moves

A transaction of the repository that commits makes the move of the same name; a
single write likewise.  The conditions of the writes are what the move asks for, but
for one: that an operation given to a transaction is the one that was enrolled.
-/

namespace Hemlig.Registry

open Store DynamoRepository

variable {table table' : Table Key Item} {conflicts : List ℕ}

/-- What a committed transaction found, and the rows it set. -/
private theorem committed {writes : List TableWrite}
    (h : transact table conflicts writes = .ok table') :
    (∀ write ∈ writes, write.holds table = true) ∧
      table' = writes.foldl
        (fun current write => current.set write.key (write.effect (table.get write.key)))
        table := by
  obtain ⟨hnodup, hholds, rfl⟩ := transact_eq_ok h
  exact ⟨hholds, applyAll_eq_sets hnodup table⟩

/-! ## Enrollments -/

theorem start_of_transact {enrollment : PreparedEnrollment} (hmatches : enrollment.Matches)
    (h : transact table conflicts (startEnrollmentWrites enrollment) = .ok table') :
    (ofTable table).Step (.start enrollment) (ofTable table') := by
  obtain ⟨hholds, rfl⟩ := committed h
  simp only [startEnrollmentWrites, List.forall_mem_cons, Write.holds_create] at hholds
  obtain ⟨hrecord, hidentity, henrollment, hconsumer, -⟩ := hholds
  simp only [startEnrollmentWrites, List.foldl_cons, List.foldl_nil, Write.create, Write.put,
    ofTable_set_consumer, ofTable_set_enrollment, ofTable_set_identity, ofTable_set_idempotency]
  exact .start hmatches hrecord hidentity henrollment hconsumer

/-- An enrollment always ends together with its consumer's profile. -/
theorem operationType_eq (operationType : EnrollmentOperationType) : operationType = .enroll := by
  cases operationType
  rfl

theorem complete_of_transact {operation : EnrollmentRecord} {truststore : TruststoreReference}
    {rootFingerprints : List String} (henrolled : (ofTable table).Enrolled operation)
    (h : transact table conflicts
      (completeEnrollmentWrites operation truststore rootFingerprints) = .ok table') :
    (ofTable table).Step (.complete operation truststore rootFingerprints) (ofTable table') := by
  obtain ⟨hholds, rfl⟩ := committed h
  simp only [completeEnrollmentWrites, identityWrite, operationWrite, truststoreWrite,
    operationType_eq, if_true, List.cons_append, List.nil_append, List.forall_mem_cons,
    Write.holds_update, decide_eq_true_eq] at hholds
  obtain ⟨⟨identity, hidentity, hpending, howner⟩, ⟨row, hrow, hprepared⟩,
    ⟨state, hstate, hlease⟩, ⟨consumer, hconsumer, hwaiting, henvironment⟩, -⟩ := hholds
  obtain ⟨row', hrow', hfixed⟩ := henrolled
  obtain rfl : row = row' := Option.some.inj (hrow.symm.trans hrow')
  simp only [completeEnrollmentWrites, identityWrite, operationWrite, truststoreWrite,
    operationType_eq, if_true, List.cons_append, List.nil_append, List.foldl_cons, List.foldl_nil,
    Write.update, hidentity, hrow, hstate, hconsumer, Option.map_some, ofTable_set_consumer,
    ofTable_set_enrollment, ofTable_set_identity, ofTable_set_truststoreState]
  exact .complete ⟨hidentity, hpending, howner, hrow, hprepared, hfixed, hconsumer, hwaiting,
    hstate, hlease⟩ henvironment

theorem fail_of_transact {operation : EnrollmentRecord}
    (henrolled : (ofTable table).Enrolled operation)
    (h : transact table conflicts (failEnrollmentWrites operation) = .ok table') :
    (ofTable table).Step (.fail operation) (ofTable table') := by
  obtain ⟨hholds, rfl⟩ := committed h
  simp only [failEnrollmentWrites, identityWrite, operationWrite, truststoreWrite,
    operationType_eq, if_true, List.cons_append, List.nil_append, List.forall_mem_cons,
    Write.holds_update, Write.holds_delete, decide_eq_true_eq] at hholds
  obtain ⟨⟨identity, hidentity, hpending, howner⟩, ⟨row, hrow, hprepared⟩,
    ⟨state, hstate, hlease⟩, ⟨consumer, hconsumer, hwaiting⟩, -⟩ := hholds
  obtain ⟨row', hrow', hfixed⟩ := henrolled
  obtain rfl : row = row' := Option.some.inj (hrow.symm.trans hrow')
  simp only [failEnrollmentWrites, identityWrite, operationWrite, truststoreWrite,
    operationType_eq, if_true, List.cons_append, List.nil_append, List.foldl_cons, List.foldl_nil,
    Write.update, Write.delete, hidentity, hrow, hstate, Option.map_some, ofTable_set_consumer,
    ofTable_set_enrollment, ofTable_set_identity, ofTable_set_truststoreState]
  exact .fail ⟨hidentity, hpending, howner, hrow, hprepared, hfixed, hconsumer, hwaiting,
    hstate, hlease⟩

theorem associate_of_holds {operation : EnrollmentRecord} {actor : Actor}
    {idempotencyKey : String} (henrolled : (ofTable table).Enrolled operation)
    (h : (associateWrite operation actor idempotencyKey).holds table = true) :
    (ofTable table).Step (.associate operation actor idempotencyKey)
      (ofTable ((associateWrite operation actor idempotencyKey).apply table)) := by
  rw [associateWrite, Write.apply_create, ofTable_set_idempotency]
  exact .associate henrolled (Write.holds_create.mp h)

/-! ## Identities -/

theorem rotate_of_transact {actor : Actor} {idempotencyKey : String}
    {requestDigest : OperationDigest} {identity : ApiIdentity} {rootFingerprint : String}
    (hactive : (ofTable table).ActiveConsumer identity.consumerId)
    (h : transact table conflicts
      (createApiIdentityWrites actor idempotencyKey requestDigest identity rootFingerprint) =
        .ok table') :
    (ofTable table).Step (.rotate actor idempotencyKey requestDigest identity rootFingerprint)
      (ofTable table') := by
  obtain ⟨hholds, rfl⟩ := committed h
  simp only [createApiIdentityWrites, List.forall_mem_cons, Write.holds_create] at hholds
  obtain ⟨hrecord, hidentity, -⟩ := hholds
  simp only [createApiIdentityWrites, List.foldl_cons, List.foldl_nil, Write.create, Write.put,
    ofTable_set_identity, ofTable_set_idempotency]
  exact .rotate hactive hrecord hidentity

theorem revoke_of_transact {actor : Actor} {idempotencyKey : String}
    {requestDigest : OperationDigest} {consumerId fingerprint : String}
    (h : transact table conflicts
      (revokeApiIdentityWrites actor idempotencyKey requestDigest consumerId fingerprint) =
        .ok table') :
    (ofTable table).Step (.revoke actor idempotencyKey requestDigest consumerId fingerprint)
      (ofTable table') := by
  obtain ⟨hholds, rfl⟩ := committed h
  simp only [revokeApiIdentityWrites, List.forall_mem_cons, Write.holds_create,
    Write.holds_update, decide_eq_true_eq] at hholds
  obtain ⟨hrecord, ⟨identity, hidentity, howner, hkind, hactive⟩, -⟩ := hholds
  simp only [revokeApiIdentityWrites, List.foldl_cons, List.foldl_nil, Write.create, Write.put,
    Write.update, hidentity, Option.map_some, ofTable_set_identity, ofTable_set_idempotency]
  exact .revoke hrecord hidentity howner hkind hactive

/-! ## The mutations of secrets -/

/-- Rows of other items are set. -/
private theorem ofTable_foldl_set {writes : List TableWrite}
    (hwrites : ∀ write ∈ writes, write.key.ofRegistry = false) (current : Table Key Item) :
    ofTable (writes.foldl
        (fun current write => current.set write.key (write.effect (table.get write.key))) current) =
      ofTable current := by
  induction writes generalizing current with
  | nil => rfl
  | cons write rest ih =>
      have hrest := ih (fun other hother => hwrites other (List.mem_cons_of_mem _ hother))
        (current.set write.key (write.effect (table.get write.key)))
      exact hrest.trans (ofTable_set_other _ _ (hwrites write (List.mem_cons_self ..)))

theorem claim_of_transact {mutation : PreparedMutation} {now : Time}
    (h : transact table conflicts (prepareWrites mutation now) = .ok table') :
    (ofTable table).Step (.claim mutation) (ofTable table') := by
  obtain ⟨hholds, rfl⟩ := committed h
  simp only [prepareWrites, List.cons_append, List.forall_mem_cons, Write.holds_create] at hholds
  simp only [prepareWrites, List.cons_append, List.foldl_cons]
  rw [ofTable_foldl_set]
  · simp only [Write.create, Write.put, ofTable_set_idempotency,
      ofTable_set_other _ _ (show Key.ofRegistry (.workflow _ _) = false from rfl)]
    exact .claim hholds.1
  · intro write hwrite
    cases hexpected : mutation.expectedControlVersionId with
    | none =>
        cases hpayload : mutation.payload <;>
          simp [acquireWrites, hexpected, hpayload] at hwrite <;> aesop
    | some expected =>
        cases hpayload : mutation.payload <;>
          simp [acquireWrites, hexpected, hpayload] at hwrite <;> aesop

/-! ## The truststore and the evidence -/

theorem mark_of_apply (actor : Actor) (idempotencyKey eventId : String) :
    (ofTable table).Step (.mark actor idempotencyKey eventId)
      (ofTable ((markAuditSucceededWrite actor idempotencyKey eventId).apply table)) := by
  rw [Write.apply, markAuditSucceededWrite, ofTable_set_idempotency]
  exact .mark

/-- A write to the truststore state that leaves one. -/
theorem truststore_of_apply (table : Table Key Item) (write : TableWrite)
    (hkey : write.key = .truststoreState)
    (hsome : (write.effect (table.get write.key)).isSome) :
    ∃ state, (ofTable table).Step (.truststore state) (ofTable (write.apply table)) := by
  obtain ⟨key, condition, effect⟩ := write
  obtain rfl : key = .truststoreState := hkey
  obtain ⟨state, hstate⟩ := Option.isSome_iff_exists.mp hsome
  refine ⟨state, ?_⟩
  simp only at hstate
  simp only [Write.apply, hstate, ofTable_set_truststoreState]
  exact .truststore

/-! ## The grants of agents -/

theorem grant_of_transact {grant : AgentGrantRecord}
    (h : transact table conflicts (createAgentGrantWrites grant) = .ok table') :
    (ofTable table).Step (.grant grant) (ofTable table') := by
  obtain ⟨hholds, rfl⟩ := committed h
  simp only [createAgentGrantWrites, List.forall_mem_cons, Write.holds_create] at hholds
  obtain ⟨hgrant, hconsumer, -⟩ := hholds
  simp only [createAgentGrantWrites, List.foldl_cons, List.foldl_nil, Write.create, Write.put,
    ofTable_set_agentGrant, ofTable_set_agentGrantOf]
  exact .grant hgrant hconsumer

theorem policy_of_holds {grant : AgentGrantRecord} {removeDisplayName : Bool}
    (h : (updateAgentGrantWrite grant removeDisplayName).holds table = true) :
    (ofTable table).Step (.policy grant removeDisplayName)
      (ofTable ((updateAgentGrantWrite grant removeDisplayName).apply table)) := by
  obtain ⟨stored, hstored, -⟩ := Write.holds_update.mp h
  rw [updateAgentGrantWrite, Write.apply_update hstored, ofTable_set_agentGrant]
  exact .policy hstored

theorem activate_of_holds {grantId fingerprint : String} {activatedAt : Time}
    (h : (activateAgentGrantWrite grantId fingerprint activatedAt).holds table = true) :
    (ofTable table).Step (.activate grantId fingerprint activatedAt)
      (ofTable ((activateAgentGrantWrite grantId fingerprint activatedAt).apply table)) := by
  obtain ⟨stored, hstored, hpending⟩ := Write.holds_update.mp h
  rw [activateAgentGrantWrite, Write.apply_update hstored, ofTable_set_agentGrant]
  exact .activate hstored (of_decide_eq_true hpending)

theorem issue_of_holds {capability : BootstrapCapabilityRecord}
    (h : (createBootstrapCapabilityWrite capability).holds table = true) :
    (ofTable table).Step (.issue capability)
      (ofTable ((createBootstrapCapabilityWrite capability).apply table)) := by
  rw [createBootstrapCapabilityWrite, Write.apply_create, ofTable_set_bootstrap]
  exact .issue (Write.holds_create.mp h)

theorem consume_of_holds {tokenHash fingerprint : String} {consumedAt : Time}
    (h : (consumeBootstrapCapabilityWrite tokenHash fingerprint consumedAt).holds table = true) :
    (ofTable table).Step (.consume tokenHash fingerprint consumedAt)
      (ofTable ((consumeBootstrapCapabilityWrite tokenHash fingerprint consumedAt).apply table)) := by
  obtain ⟨stored, hstored, hpending⟩ := Write.holds_update.mp h
  rw [consumeBootstrapCapabilityWrite, Write.apply_update hstored, ofTable_set_bootstrap]
  exact .consume hstored (of_decide_eq_true hpending)

/-- A capability is removed. -/
theorem forget_of_set (tokenHash : String) :
    (ofTable table).Step (.forget tokenHash)
      (ofTable (table.set (.bootstrap tokenHash) none)) := by
  rw [ofTable_set_bootstrap]
  exact .forget

end Hemlig.Registry
