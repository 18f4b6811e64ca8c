import Hemlig.Verification.Requests

/-!
# The requests that change the registry

A request changes the registry by the claim of a mutation, or it is one of the writes of the
registry; no other one touches it.  What a single write leaves can then be read off its row.
-/

namespace Hemlig

open Concurrent Store DynamoRepository AgentSyncRepository

variable {init s s' : Cloud} {pid : ℕ} {q : Request}

/-- What a request does to the registry. -/
inductive Registering (pid : ℕ) (q : Request) (s s' : Cloud) : Prop
  | same (h : s'.registry = s.registry)
  | claim {mutation : PreparedMutation} (h : s.registry.Step (.claim mutation) s'.registry)
  | write {write : TableWrite} (hq : q = .write write) (h : RegistryWrite s write)
      (hholds : write.holds s.table = true) (happly : s'.table = write.apply s.table)
  | note {write : TableWrite} {event : Event} (hq : q = .writeNoted write event)
      (h : RegistryNote pid s write event) (hholds : write.holds s.table = true)
      (happly : s'.table = write.apply s.table)
  | transact {writes : List TableWrite} {note : Option Event} {conflicts : List ℕ}
      (hq : q = .transactWrite writes note) (h : RegistryTransaction s writes note)
      (htransact : transact s.table conflicts writes = .ok s'.table)

/-- A single write to an item that is not of the registry. -/
private theorem registering_of_other {write : TableWrite} (hkey : write.key.ofRegistry = false)
    (happly : s'.table = write.apply s.table) : Registering pid q s s' := by
  refine .same ?_
  show Registry.ofTable s'.table = Registry.ofTable s.table
  rw [happly]
  exact Registry.ofTable_set_other _ _ hkey

/-- A transaction that writes no item of the registry. -/
private theorem registering_of_others {writes : List TableWrite} {conflicts : List ℕ}
    (hkeys : ∀ write ∈ writes, write.key.ofRegistry = false)
    (htransact : transact s.table conflicts writes = .ok s'.table) : Registering pid q s s' :=
  .same (Registry.ofTable_of_transact htransact hkeys)

/-- **Every request does one of these to the registry.** -/
theorem Requested.registering (h : Requested init pid q s s') : Registering pid q s s' := by
  obtain ⟨-, hready, -, htable⟩ := h
  cases htable with
  | same hsame => exact .same (congrArg Registry.ofTable hsame)
  | write write hq hholds happly =>
      subst hq
      cases hready with
      | retryable | release | deleted | enable | cursor => exact registering_of_other rfl happly
      | registry hregistry => exact .write rfl hregistry hholds happly
  | noted write note hq hholds happly =>
      subst hq
      exact .note rfl hready hholds happly
  | transact writes note conflicts hq htransact =>
      subst hq
      cases hready with
      | prepare hprepare => exact .claim (preparation_of_transact htransact hprepare).claim
      | commit hcommit hpublish hnotifications hsize =>
          exact .same (commitment_of_transact htransact : Commitment s _ _ _ none).registry
      | backfill hbackfill hpublish =>
          refine registering_of_others (fun write hwrite => ?_) htransact
          rcases mem_publicationWrites.mp hwrite with rfl | hbuilt | rfl | ⟨sequence, -, rfl⟩
          · simp [key_counterWrite, Key.ofRegistry]
          · simp only [resequence, List.mem_singleton] at hbuilt
            subst hbuilt
            rfl
          · rfl
          · rfl
      | createEnvironment =>
          refine registering_of_others ?_ htransact
          simp [createEnvironmentWrites, countWrite, AgentSyncRepository.emptyState, Key.ofRegistry]
      | emptyState =>
          refine registering_of_others ?_ htransact
          simp [AgentSyncRepository.emptyState, Key.ofRegistry]
      | abort =>
          refine registering_of_others ?_ htransact
          simp [abortPreparedCreateWrites, Key.ofRegistry]
      | registry hregistry => exact .transact rfl hregistry htransact

/-! ## The record of a key -/

/-- What a request does to the record of a key. -/
inductive RecordChange (q : Request) (s s' : Cloud) (actor : Actor) (idempotencyKey : String) : Prop
  | same (h : s'.idempotency actor idempotencyKey = s.idempotency actor idempotencyKey)
  | claimed {record : IdempotencyRecord} (hnone : s.idempotency actor idempotencyKey = none)
      (hrecord : s'.idempotency actor idempotencyKey = some record)
      (hstatus : record.status ≠ .succeeded)
  | marked {eventId : String}
      (hq : q = .write (markAuditSucceededWrite actor idempotencyKey eventId))
      (h : (∃ record, s.idempotency actor idempotencyKey = some record ∧
        s.Proves actor record eventId) ∨ s.ShowsIssuer eventId)
      (hrecord : s'.idempotency actor idempotencyKey =
        some (((s.idempotency actor idempotencyKey).getD { status := .succeeded }).succeed eventId))

theorem Requested.record (h : Requested init pid q s s') (actor : Actor) (idempotencyKey : String) :
    RecordChange q s s' actor idempotencyKey := by
  have hmoved : ∀ {move}, s.registry.Step move s'.registry →
      (∀ eventId, move ≠ .mark actor idempotencyKey eventId) →
        RecordChange q s s' actor idempotencyKey := by
    intro move hstep hmark
    rcases hstep.record (actor, idempotencyKey) with hsame | ⟨hnone, record, hrecord, hstatus⟩ |
      ⟨eventId, hmove⟩
    · exact .same hsame
    · exact .claimed hnone hrecord hstatus
    · exact (hmark eventId hmove).elim
  have hregistry : ∀ {table}, s'.table = table → s'.registry = .ofTable table := by
    rintro table rfl
    rfl
  cases h.registering with
  | same h => exact .same (congrFun (congrArg Registry.records h) (actor, idempotencyKey))
  | claim h => exact hmoved h (by simp)
  | @write write hq hwrite hholds happly =>
      by_cases hkey : Key.idempotency actor idempotencyKey = write.key
      · cases hwrite with
        | associate henrolled =>
            have hstep := Registry.associate_of_holds henrolled hholds
            rw [← hregistry happly] at hstep
            exact hmoved hstep (by simp)
        | @mark actor' idempotencyKey' eventId hevidence =>
            cases hkey
            refine .marked hq hevidence ?_
            show s'.table.get _ = _
            rw [happly]
            exact Table.get_set_self _ _ _
        | lease | stage | root | policy => cases hkey
      · refine .same ?_
        show s'.table.get _ = s.table.get _
        rw [happly, write.get_apply_of_ne _ hkey]
  | note hq hnote hholds happly =>
      refine .same ?_
      show s'.table.get _ = s.table.get _
      rw [happly, Write.get_apply_of_ne]
      cases hnote <;> exact fun hkey => by cases hkey
  | transact hq htransaction htransact =>
      cases htransaction with
      | start hmatches => exact hmoved (Registry.start_of_transact hmatches htransact) (by simp)
      | complete henrolled => exact hmoved (Registry.complete_of_transact henrolled htransact) (by simp)
      | fail henrolled => exact hmoved (Registry.fail_of_transact henrolled htransact) (by simp)
      | rotate hactive => exact hmoved (Registry.rotate_of_transact hactive htransact) (by simp)
      | revoke => exact hmoved (Registry.revoke_of_transact htransact) (by simp)
      | grant => exact hmoved (Registry.grant_of_transact htransact) (by simp)
      | issuer =>
          have hsame := Registry.ofTable_of_transact htransact
            (by simp [createIssuerWrites, ensureRootWrite, Key.ofRegistry])
          exact .same (congrFun (congrArg Registry.records hsame) (actor, idempotencyKey))

end Hemlig
