import Hemlig.Invariant.Discipline
import Hemlig.Invariant.Writes
import Hemlig.Registry.Transactions

/-!
# The registry and the secrets

The writes of the registry touch no item of a secret and none of a sync index, so they
are gentle, whatever they do to the registry itself: one move, or none.
-/

namespace Hemlig

open Store DynamoRepository

variable {init s : Cloud} {pid : ℕ}

/-! ## The items of the registry -/

/-- The items that neither a secret nor a sync index is made of. -/
structure Key.Apart (key : Key) : Prop where
  secret : key.ofSecret = false
  index : key.ofIndex = false
  environment : ∀ name, key ≠ .environment name

/-- The items the registry writes. -/
def Key.ofRegistration (key : Key) : Bool :=
  key.ofRegistry || match key with
    | .issuer | .truststoreRoot _ => true
    | _ => false

theorem Key.apart_of_registration {key : Key} (h : key.ofRegistration = true) : key.Apart := by
  cases key <;> first | cases h; done | exact ⟨rfl, rfl, by simp⟩

theorem RegistryTransaction.ofRegistration {writes : List TableWrite} {note : Option Event}
    (h : RegistryTransaction s writes note) :
    ∀ write ∈ writes, write.key.ofRegistration = true := by
  cases h with
  | start | rotate | revoke | issuer | grant =>
      simp [startEnrollmentWrites, createApiIdentityWrites, revokeApiIdentityWrites,
        createIssuerWrites, ensureRootWrite, createAgentGrantWrites, Key.ofRegistration,
        Key.ofRegistry]
  | complete | fail =>
      simp [completeEnrollmentWrites, failEnrollmentWrites, identityWrite, operationWrite,
        truststoreWrite, Registry.operationType_eq, Key.ofRegistration, Key.ofRegistry]

/-- A transaction touches no capability. -/
theorem RegistryTransaction.not_bootstrap {writes : List TableWrite} {note : Option Event}
    (h : RegistryTransaction s writes note) (tokenHash : String) :
    Key.bootstrap tokenHash ∉ writes.map Write.key := by
  cases h with
  | start | rotate | revoke | issuer | grant =>
      simp [startEnrollmentWrites, createApiIdentityWrites, revokeApiIdentityWrites,
        createIssuerWrites, ensureRootWrite, createAgentGrantWrites]
  | complete | fail =>
      simp [completeEnrollmentWrites, failEnrollmentWrites, identityWrite, operationWrite,
        truststoreWrite, Registry.operationType_eq]

theorem RegistryWrite.not_bootstrap {write : TableWrite} (h : RegistryWrite s write)
    (tokenHash : String) : write.key ≠ .bootstrap tokenHash := by
  cases h <;> simp [associateWrite, markAuditSucceededWrite, acquireTruststoreLeaseWrite,
    recordTruststoreBundleWrite, ensureRootWrite, updateAgentGrantWrite]

theorem RegistryWrite.ofRegistration {write : TableWrite} (h : RegistryWrite s write) :
    write.key.ofRegistration = true := by
  cases h <;> rfl

theorem RegistryTransaction.ofOthers {writes : List TableWrite} {event : Event}
    (h : RegistryTransaction s writes (some event)) :
    event.ofOthers = true ∧ event.ofCapability = false := by
  cases h <;> exact ⟨rfl, rfl⟩

theorem RegistryNote.ofRegistration {write : TableWrite} {event : Event}
    (h : RegistryNote pid s write event) : write.key.ofRegistration = true := by
  cases h <;> rfl

theorem RegistryNote.ofOthers {write : TableWrite} {event : Event}
    (h : RegistryNote pid s write event) : event.ofOthers = true ∧ event.claim = none := by
  cases h <;> exact ⟨rfl, rfl⟩

/-! ## What the writes do to the registry -/

/-- **A transaction of the registry is one of its moves, or leaves it alone.** -/
theorem RegistryTransaction.changes {writes : List TableWrite} {note : Option Event}
    (h : RegistryTransaction s writes note) {conflicts : List ℕ} {table : Table Key Item}
    (htransact : transact s.table conflicts writes = .ok table) :
    s.registry.Changes (.ofTable table) := by
  cases h with
  | start hmatches => exact .moved _ (Registry.start_of_transact hmatches htransact)
  | complete henrolled => exact .moved _ (Registry.complete_of_transact henrolled htransact)
  | fail henrolled => exact .moved _ (Registry.fail_of_transact henrolled htransact)
  | rotate hactive => exact .moved _ (Registry.rotate_of_transact hactive htransact)
  | revoke => exact .moved _ (Registry.revoke_of_transact htransact)
  | issuer =>
      exact .same (Registry.ofTable_of_transact htransact
        (by simp [createIssuerWrites, ensureRootWrite, Key.ofRegistry]))
  | grant => exact .moved _ (Registry.grant_of_transact htransact)

/-- What it notes is what it claims. -/
theorem RegistryTransaction.claimed {writes : List TableWrite} {event : Event}
    (h : RegistryTransaction s writes (some event)) {conflicts : List ℕ} {table : Table Key Item}
    (htransact : transact s.table conflicts writes = .ok table)
    {claim : (Actor × String) × IdempotencyRecord} (hclaim : event.claim = some claim) :
    (Registry.ofTable table).Claimed claim := by
  have hcreate : ∀ {actor : Actor} {idempotencyKey : String} {record : IdempotencyRecord},
      .create (.idempotency actor idempotencyKey) record ∈ writes →
        (Registry.ofTable table).Claimed ((actor, idempotencyKey), record) :=
    fun hmem => ⟨_, (get_of_create htransact hmem).2, rfl⟩
  cases h <;> cases hclaim <;> exact hcreate List.mem_cons_self

theorem RegistryWrite.changes {write : TableWrite} (h : RegistryWrite s write)
    (hholds : write.holds s.table = true) : s.registry.Changes (.ofTable (write.apply s.table)) := by
  cases h with
  | associate henrolled => exact .moved _ (Registry.associate_of_holds henrolled hholds)
  | mark => exact .moved _ (Registry.mark_of_apply _ _ _)
  | lease =>
      obtain ⟨state, hstep⟩ := Registry.truststore_of_apply s.table
        (acquireTruststoreLeaseWrite _ _ _) rfl rfl
      exact .moved _ hstep
  | stage =>
      obtain ⟨state, hstate, -⟩ := Write.holds_update.mp hholds
      obtain ⟨after, hstep⟩ := Registry.truststore_of_apply s.table
        (recordTruststoreBundleWrite _ _ _) rfl
        (by simp [recordTruststoreBundleWrite, Write.update, hstate])
      exact .moved _ hstep
  | root => exact .same (Registry.ofTable_set_other _ _ rfl)
  | policy => exact .moved _ (Registry.policy_of_holds hholds)

theorem RegistryNote.changes {write : TableWrite} {event : Event}
    (h : RegistryNote pid s write event) (hholds : write.holds s.table = true) :
    s.registry.Changes (.ofTable (write.apply s.table)) := by
  cases h with
  | activate => exact .moved _ (Registry.activate_of_holds hholds)
  | issue => exact .moved _ (Registry.issue_of_holds hholds)
  | consume => exact .moved _ (Registry.consume_of_holds hholds)

/-! ## The steps -/

/-- **A transaction of the registry is quiet.** -/
theorem registration_step (hinv : Invariant init s) {writes : List TableWrite}
    {note : Option Event} (h : RegistryTransaction s writes note) {conflicts : List ℕ}
    {table : Table Key Item} (htransact : transact s.table conflicts writes = .ok table) :
    Quiet init s ({ s with table := table }.recordAny note) := by
  have hsame : ∀ key : Key, ¬ key.Apart → table.get key = s.table.get key := by
    intro key hkey
    refine get_of_not_mem htransact fun hmem => ?_
    obtain ⟨write, hwrite, rfl⟩ := List.mem_map.mp hmem
    exact hkey (Key.apart_of_registration (h.ofRegistration write hwrite))
  have htable : Gentle s { s with table := table } := by
    refine .of_table (fun key hsecret => hsame key fun hkey => ?_) (fun name hsome => ?_)
      (h.changes htransact)
    · cases hsecret.symm.trans hkey.secret
    · rwa [hsame _ fun hkey => hkey.environment name rfl]
  have hsync : SyncKept s { s with table := table } := by
    refine .of_table fun key hkey => hsame key fun hapart => ?_
    rcases hkey with hsecret | hindex
    · cases hsecret.symm.trans hapart.secret
    · cases hindex.symm.trans hapart.index
  have hrow : ∀ tokenHash, table.get (.bootstrap tokenHash) = s.capability tokenHash :=
    fun tokenHash => get_of_not_mem htransact (h.not_bootstrap tokenHash)
  cases note with
  | none =>
      exact htable.quiet_of_kept hinv hsync
        (.of_kept (fun {tokenHash _} hstored => (hrow tokenHash).symm.trans hstored) fun _ => id) id
        fun _ hnone => hnone
  | some event =>
      exact htable.quiet_of_recorded hinv hsync h.ofOthers.1 (h.claimed htransact)
        (.of_kept (fun {tokenHash _} hstored => (hrow tokenHash).symm.trans hstored)
          (.of_record h.ofOthers.2 rfl))

/-- A single write to an item apart from secrets and indexes. -/
theorem quiet_apart (hinv : Invariant init s) {key : Key} (item : Option (Item key))
    (hkey : key.Apart) (hregistry : s.registry.Changes (.ofTable (s.table.set key item)))
    (hcapabilities : CapabilitiesStep s { s with table := s.table.set key item }) :
    Quiet init s { s with table := s.table.set key item } :=
  (Gentle.set_other item hkey.secret hkey.environment hregistry).quiet_of_kept hinv
    (.set_other item hkey.secret hkey.index) hcapabilities id fun _ hnone => hnone

/-- An item that is no capability. -/
theorem CapabilitiesStep.set_other {key : Key} (item : Option (Item key))
    (hkey : ∀ tokenHash, key ≠ .bootstrap tokenHash) :
    CapabilitiesStep s { s with table := s.table.set key item } :=
  .of_kept (fun {tokenHash _} hstored =>
    (Table.get_set_of_ne _ _ (hkey tokenHash).symm).symm.trans hstored) fun _ => id

/-- A capability is removed. -/
theorem CapabilitiesStep.forget (tokenHash : String) :
    CapabilitiesStep s { s with table := s.table.set (.bootstrap tokenHash) none } := by
  refine .of_kept (fun {other stored} hstored => ?_) fun _ => id
  by_cases hother : other = tokenHash
  · subst hother
    cases (Table.get_set_self _ _ _).symm.trans hstored
  · exact (Table.get_set_of_ne _ _ (by simpa using hother)).symm.trans hstored

/-- **A single write of the registry is quiet.** -/
theorem registration_write (hinv : Invariant init s) {write : TableWrite}
    (h : RegistryWrite s write) (hholds : write.holds s.table = true) :
    Quiet init s { s with table := write.apply s.table } :=
  quiet_apart hinv _ (Key.apart_of_registration h.ofRegistration) (h.changes hholds)
    (.set_other _ h.not_bootstrap)

/-! ### Noted writes -/

/-- What a write to one item leaves of the capabilities. -/
private theorem capability_of_set {key : Key} {item : Option (Item key)} {event : Event}
    {tokenHash : String} {stored : StoredCapability tokenHash}
    (hstored : Cloud.capability ({ s with table := s.table.set key item }.record event) tokenHash =
      some stored) (hkey : key ≠ .bootstrap tokenHash) : s.capability tokenHash = some stored :=
  (Table.get_set_of_ne _ _ hkey.symm).symm.trans hstored

theorem CapabilitiesStep.issue {capability : BootstrapCapabilityRecord}
    (hknown : capability.tokenHash ∈ s.known)
    (hfresh : ∀ grantId, ¬ s.IssuedFor capability.tokenHash grantId)
    (hpending : capability.status = .pending) :
    CapabilitiesStep s ({ s with
        table := s.table.set (.bootstrap capability.tokenHash) (some ⟨capability, rfl⟩) }.record
      (.issued capability)) where
  row {tokenHash stored'} hstored' := by
    by_cases htoken : capability.tokenHash = tokenHash
    · subst htoken
      obtain rfl := Option.some.inj ((Table.get_set_self _ _ _).symm.trans hstored')
      exact .inr (.inl ⟨hfresh, ⟨capability, .record _, rfl, rfl⟩, hpending⟩)
    · exact .inl (capability_of_set hstored' (by simpa using htoken))
  issued {tokenHash grantId} := by
    rintro ⟨other, hhappened, htoken, hgrant⟩
    rcases hhappened.of_append rfl with hold | hnew
    · exact .inl ⟨other, hold, htoken, hgrant⟩
    · obtain rfl : other = capability := by simpa using hnew
      subst htoken hgrant
      exact .inr ⟨hfresh, hknown, _, Table.get_set_self _ _ _, rfl⟩
  bound hbound := by
    rcases hbound.of_append rfl with hold | hnew
    · exact .inl hold
    · cases hnew

theorem CapabilitiesStep.consume {tokenHash fingerprint : String} {consumedAt : Time}
    {stored : StoredCapability tokenHash} (hstored : s.capability tokenHash = some stored)
    (hpending : stored.record.status = .pending) :
    CapabilitiesStep s ({ s with
        table := s.table.set (.bootstrap tokenHash)
          (some (consumeCapability fingerprint consumedAt stored)) }.record
      (.consumed tokenHash fingerprint)) where
  row {other stored'} hstored' := by
    by_cases hother : tokenHash = other
    · subst hother
      obtain rfl := Option.some.inj ((Table.get_set_self _ _ _).symm.trans hstored')
      exact .inr (.inr ⟨stored, fingerprint, hstored, hpending, rfl,
        by simp [consumedWith, consumeCapability], .record _⟩)
    · exact .inl (capability_of_set hstored' (by simpa using hother))
  issued := by
    rintro other grantId ⟨capability, hhappened, hrest⟩
    rcases hhappened.of_append rfl with hold | hnew
    · exact .inl ⟨capability, hold, hrest⟩
    · cases hnew
  bound {other fingerprint'} hbound := by
    rcases hbound.of_append rfl with hold | hnew
    · exact .inl hold
    · obtain ⟨rfl, rfl⟩ : other = tokenHash ∧ fingerprint' = fingerprint := by simpa using hnew
      exact .inr ⟨stored, _, hstored, hpending, Table.get_set_self _ _ _,
        by simp [consumedWith, consumeCapability]⟩

theorem RegistryNote.capabilities (hinv : Invariant init s) {write : TableWrite} {event : Event}
    (h : RegistryNote pid s write event) (hholds : write.holds s.table = true) :
    CapabilitiesStep s ({ s with table := write.apply s.table }.record event) := by
  cases h with
  | activate =>
      exact .of_kept (fun hstored => capability_of_set hstored (by simp [activateAgentGrantWrite]))
        (.of_record rfl rfl)
  | issue howns hfresh hpending =>
      exact .issue (hinv.known.drawn howns) hfresh hpending
  | consume =>
      obtain ⟨stored, hstored, hpending⟩ := Write.holds_update.mp hholds
      rw [consumeBootstrapCapabilityWrite, Write.apply_update hstored]
      exact .consume hstored (of_decide_eq_true hpending)

/-- **A noted write of the registry is quiet.** -/
theorem registration_note (hinv : Invariant init s) {write : TableWrite} {event : Event}
    (h : RegistryNote pid s write event) (hholds : write.holds s.table = true) :
    Quiet init s ({ s with table := write.apply s.table }.record event) := by
  have hapart := Key.apart_of_registration h.ofRegistration
  refine (Gentle.set_other _ hapart.secret hapart.environment (h.changes hholds)).quiet_of_recorded
    hinv (.set_other _ hapart.secret hapart.index) h.ofOthers.1 (fun hclaim => ?_)
    (h.capabilities hinv hholds)
  cases h.ofOthers.2.symm.trans hclaim

end Hemlig
