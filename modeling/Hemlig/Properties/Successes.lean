import Hemlig.Properties.Enrollments
import Hemlig.Verification.Registering

/-!
# A success proves its audit

A record is marked without any condition, so what keeps it truthful is who marks it: every
operation marks the key that it claimed with the event that it wrote itself.  Only the
registration of an issuer marks a key that it never claims.  As long as it is not sent under
the key of an operation, each succeeded record names the evidence of its own operation.
-/

namespace Hemlig

open Concurrent DynamoRepository

variable {init s s' : Cloud}

/-! ## Truthful records -/

/-- The record names the evidence of the operation that claimed its key, or, if none did, of
the registration of an issuer. -/
def Cloud.Truthful (s : Cloud) (actor : Actor) (record : IdempotencyRecord) : Prop :=
  ∃ eventId, record.terminalAuditEventId = some eventId ∧
    (s.Proves actor record eventId ∨ record.requestDigest = none ∧ s.ShowsIssuer eventId)

/-- Every succeeded record is truthful. -/
def SuccessesProved (s : Cloud) : Prop :=
  ∀ actor idempotencyKey record, s.idempotency actor idempotencyKey = some record →
    record.status = .succeeded → s.Truthful actor record

/-- No issuer is registered under the key of an operation. -/
def KeysApart (q : Request) (s : Cloud) : Prop :=
  ∀ actor idempotencyKey eventId,
    q = .write (markAuditSucceededWrite actor idempotencyKey eventId) → s.ShowsIssuer eventId →
      ∀ record, s.idempotency actor idempotencyKey = some record → record.requestDigest = none

theorem successesProved_empty : SuccessesProved Cloud.empty := by
  intro actor idempotencyKey record hrecord
  cases hrecord

theorem lasts_showsIssuer {eventId : String} : Lasts init fun s => s.ShowsIssuer eventId := by
  rintro s s' owner - - hevolves ⟨event, hevent, hid, hoperation⟩
  exact ⟨event, hevolves.evidence hevent, hid, hoperation⟩

theorem lasts_truthful {actor : Actor} {record : IdempotencyRecord} :
    Lasts init fun s => s.Truthful actor record := by
  intro s s' owner hinv hinv' hevolves h
  obtain ⟨eventId, hterminal, hproves | ⟨hdigest, hissuer⟩⟩ := h
  · exact ⟨eventId, hterminal, .inl (lasts_proves s s' owner hinv hinv' hevolves hproves)⟩
  · exact ⟨eventId, hterminal,
      .inr ⟨hdigest, lasts_showsIssuer s s' owner hinv hinv' hevolves hissuer⟩⟩

/-! ## Steps -/

/-- A request leaves every succeeded record truthful. -/
theorem Requested.successesProved {pid : ℕ} {q : Request} (h : Requested init pid q s s')
    (hapart : KeysApart q s) (hs : SuccessesProved s) : SuccessesProved s' := by
  intro actor idempotencyKey record' hrecord' hsucceeded
  have hlasts : ∀ {record}, s.Truthful actor record → s'.Truthful actor record :=
    lasts_truthful s s' _ h.before h.kept.invariant h.kept.evolves
  cases h.record actor idempotencyKey with
  | same hsame =>
      exact hlasts (hs actor idempotencyKey record' (hsame.symm.trans hrecord') hsucceeded)
  | claimed hnone hrecord hstatus =>
      obtain rfl := Option.some.inj (hrecord.symm.trans hrecord')
      exact (hstatus hsucceeded).elim
  | @marked eventId hq hevidence hrecord =>
      obtain rfl := Option.some.inj (hrecord.symm.trans hrecord')
      refine hlasts ?_
      rcases hevidence with ⟨record, hstored, event, hevent, hid, houtcome, hactor, hattests⟩ |
        hissuer
      · -- The event attests what the record said before it was marked.
        rw [hstored]
        refine ⟨eventId, rfl, .inl ⟨event, hevent, hid, houtcome, hactor, ?_⟩⟩
        exact attests_of_fixed rfl hattests
      · refine ⟨eventId, rfl, .inr ⟨?_, hissuer⟩⟩
        cases hstored : s.idempotency actor idempotencyKey with
        | none => rfl
        | some record => exact hapart actor idempotencyKey eventId hq hissuer record hstored

/-- A step that is not a request marks nothing. -/
theorem Unasked.successesProved (h : Unasked init s s') (hs : SuccessesProved s) :
    SuccessesProved s' := by
  intro actor idempotencyKey record hrecord hsucceeded
  obtain ⟨capabilities, hregistry⟩ := h.registry
  have hsame : s'.idempotency actor idempotencyKey = s.idempotency actor idempotencyKey :=
    congrFun (congrArg Registry.records hregistry) (actor, idempotencyKey)
  exact lasts_truthful s s' none h.before h.quiet.invariant (h.quiet.evolves none)
    (hs actor idempotencyKey record (hsame.symm.trans hrecord) hsucceeded)

/-! ## What was answered -/

/-- The key of an operation is claimed with the digest of its request. -/
theorem AdminRequest.Result.claimed (hinv : Invariant init s) {request : AdminRequest}
    {response : AdminResponse} (h : request.Result response s)
    (hissuer : ∀ actor idempotencyKey, request ≠ .registerIssuer actor idempotencyKey) :
    ∃ record, s.registry.Claimed ((request.actor, request.idempotencyKey), record) ∧
      record.requestDigest.isSome = true := by
  have hachieved : ∀ {actor : Actor} {idempotencyKey : String} {control : ControlRevision},
      s.Achieved actor idempotencyKey control →
        ∃ record, s.registry.Claimed ((actor, idempotencyKey), record) ∧
          record.requestDigest.isSome = true := by
    rintro actor idempotencyKey control ⟨completed, ⟨sequence, extendedAt, hhappened⟩, rfl, rfl, -⟩
    exact ⟨_, hinv.records.claimed rfl (hinv.history.committed hhappened).1, rfl⟩
  cases request with
  | registerIssuer actor idempotencyKey => exact (hissuer actor idempotencyKey rfl).elim
  | createSecret | updateSecret | archiveSecret | revokeGrant =>
      cases response <;> first | exact hachieved h | exact h.elim
  | enrollConsumer =>
      cases response with
      | enrollment =>
          obtain ⟨requestDigest, -, record, -, hclaimed, hdigest, -⟩ := h
          exact ⟨record, hclaimed, by rw [hdigest]; rfl⟩
      | control => exact hachieved h
      | identity | issuer => exact h.elim
  | rotateIdentity =>
      cases response with
      | identity =>
          obtain ⟨requestDigest, -, record, hclaimed, hdigest, -⟩ := h
          exact ⟨record, hclaimed, by rw [hdigest]; rfl⟩
      | control => exact hachieved h
      | enrollment | issuer => exact h.elim
  | revokeIdentity =>
      cases response with
      | identity =>
          obtain ⟨-, record, hclaimed, hdigest, -⟩ := h
          exact ⟨record, hclaimed, by rw [hdigest]; rfl⟩
      | control => exact hachieved h
      | enrollment | issuer => exact h.elim

/-- The operation under the key has the evidence that its record names. -/
def Cloud.ProvedUnder (s : Cloud) (actor : Actor) (idempotencyKey : String) : Prop :=
  ∃ record eventId, s.idempotency actor idempotencyKey = some record ∧
    record.terminalAuditEventId = some eventId ∧ s.Proves actor record eventId

theorem AdminRequest.Concluded.proved (hinv : Invariant init s) (hproved : SuccessesProved s)
    {request : AdminRequest} {response : AdminResponse} (h : request.Concluded response s)
    (hissuer : ∀ actor idempotencyKey, request ≠ .registerIssuer actor idempotencyKey) :
    s.ProvedUnder request.actor request.idempotencyKey := by
  obtain ⟨record, hrecord, hsucceeded⟩ := h.2
  obtain ⟨claimed, ⟨current, hcurrent, hfixed⟩, hdigest⟩ := h.1.claimed hinv hissuer
  have hsame : current = record := Option.some.inj (hcurrent.symm.trans hrecord)
  subst hsame
  have hsome : current.requestDigest = claimed.requestDigest := by
    simp only [IdempotencyRecord.fixed, IdempotencyRecord.mk.injEq] at hfixed
    exact hfixed.1
  obtain ⟨eventId, hterminal, hproves | ⟨hnone, -⟩⟩ := hproved _ _ _ hrecord hsucceeded
  · exact ⟨current, eventId, hrecord, hterminal, hproves⟩
  · rw [← hsome, hnone] at hdigest
    cases hdigest

/-! ## Every run -/

/-- **Where no issuer is registered under the key of an operation, every succeeded record
proves its audit, and every operation that was answered has its own.** -/
theorem successes_proved (hinit : Initial init) (hproved : SuccessesProved init) {w : ServiceWorld}
    {actions : List ServiceAction} (hrun : service.run (World.initial init) actions = some w)
    (hapart : ∀ q s, IssuedIn init actions q s → KeysApart q s) :
    SuccessesProved w.store ∧
      ∀ pid request correlationId response,
        w.procs pid = some (.admin request correlationId, .ret (.admin response)) →
          (∀ actor idempotencyKey, request.authenticated ≠ .registerIssuer actor idempotencyKey) →
            w.store.ProvedUnder request.authenticated.actor request.authenticated.idempotencyKey := by
  have hstore : SuccessesProved w.store := by
    refine run_keeps_requests hinit hrun hapart (P := SuccessesProved) (fun _ _ h => h.successesProved)
      (fun _ _ _ _ h => h.successesProved) hproved
  refine ⟨hstore, fun pid request correlationId response hproc hissuer => ?_⟩
  have hconcluded : request.authenticated.Concluded response w.store := result_of_run hinit hrun hproc
  exact hconcluded.proved (invariant_of_run hinit hrun) hstore hissuer

/-! ## Two runs -/

namespace Sample

/-- An issuer is registered under the key `k`. -/
def registering (idempotencyKey : String) : List ServiceAction :=
  .start 2 (.admin (.registerIssuer admin idempotencyKey) "corr") ::
    steps 2 (List.replicate 9 (supplying "op" "root"))

/-- No request marks a key that has a record. -/
def marksNoRecord : Request → Cloud → Bool
  | .write write, s =>
      match write.key with
      | .idempotency actor idempotencyKey => (s.idempotency actor idempotencyKey).isNone
      | _ => true
  | _, _ => true

theorem issued_checked : ((service.run (World.initial Cloud.empty)
      (founding ++ creating 1 "a" "k1" ++ registering "k2")).any (fun w => decide
        ((w.store.idempotency admin "k2").map IdempotencyRecord.status = some .succeeded)) = true ∧
    everyRequest marksNoRecord (World.initial Cloud.empty)
      (founding ++ creating 1 "a" "k1" ++ registering "k2") = true) ∧
    (service.run (World.initial Cloud.empty)
      (founding ++ creating 1 "a" "k1" ++ registering "k1")).any (fun w => decide
        (((w.store.idempotency admin "k1").map fun record =>
            (record.status, record.operationId, record.operationType,
              record.requestDigest.isSome)) = some (.succeeded, some "op-a", none, true) ∧
          w.store.audit.all fun event => event.target.all (·.1 = "rootFingerprint"))) = true := by
  decide +kernel

theorem issued_apart : (service.run (World.initial Cloud.empty)
    (founding ++ creating 1 "a" "k1" ++ registering "k2")).isSome = true :=
  Option.isSome_of_any issued_checked.1.1

theorem issued_over : (service.run (World.initial Cloud.empty)
    (founding ++ creating 1 "a" "k1" ++ registering "k1")).isSome = true :=
  Option.isSome_of_any issued_checked.2

theorem keysApart_of_marksNoRecord {q : Request} (h : marksNoRecord q s = true) : KeysApart q s := by
  intro actor idempotencyKey eventId hq _ record hrecord
  subst hq
  have hnone : (s.idempotency actor idempotencyKey).isNone = true := h
  rw [hrecord] at hnone
  cases hnone

end Sample

theorem successes_proved_issued :
    ((reached Cloud.empty _ Sample.issued_apart).store.idempotency Sample.admin "k2").map
        IdempotencyRecord.status = some .succeeded ∧
      SuccessesProved (reached Cloud.empty _ Sample.issued_apart).store :=
  ⟨reached_of_any Sample.issued_checked.1.1,
    (successes_proved Initial.empty successesProved_empty (run_reached Sample.issued_apart)
      fun _ _ hissued => Sample.keysApart_of_marksNoRecord
        (of_everyRequest Sample.issued_checked.1.2 hissued)).1⟩

/-- **An issuer that is registered under the key of a create marks its record.** -/
theorem successes_unproved : ¬ ∀ (w : ServiceWorld) actions,
    service.run (World.initial Cloud.empty) actions = some w → SuccessesProved w.store := by
  intro hall
  have hproved := hall _ _ (run_reached Sample.issued_over)
  obtain ⟨hrecord, htargets⟩ := reached_of_any Sample.issued_checked.2
  generalize reached Cloud.empty _ Sample.issued_over = w at hproved hrecord htargets
  obtain ⟨record, hrecord, hfields⟩ := Option.map_eq_some_iff.mp hrecord
  simp only [Prod.mk.injEq] at hfields
  obtain ⟨hstatus, hoperation, htype, hdigest⟩ := hfields
  obtain ⟨eventId, -, ⟨event, hevent, -, -, -, hattests⟩ | ⟨hnone, -⟩⟩ :=
    hproved _ _ record hrecord hstatus
  · -- The event of the issuer names no control revision.
    rw [Cloud.Attests, htype] at hattests
    obtain ⟨completed, -, -, hmem⟩ := hattests
    have htarget := hmem ("environment", completed.prepared.control.environment)
      List.mem_cons_self
    have hname := List.all_eq_true.mp (List.all_eq_true.mp htargets event hevent) _ htarget
    simp at hname
  · rw [hnone] at hdigest
    cases hdigest

end Hemlig
