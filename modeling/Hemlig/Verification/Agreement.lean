import Hemlig.Verification.Evidence
import Hemlig.Verification.Reading

/-!
# Reads find what their head promises

A process that has read a committed head knows the documents of the objects it names: they
repeat the head for as long as they are stored.  So the checks that a read makes of the
documents it fetches never fail.  That the documents were well written is not part of the
invariant, as a past may hold others; it is therefore asked of the state that the head was
read in.
-/

namespace Hemlig

open Concurrent Store DynamoRepository SecretService

variable {init s s' : Cloud} {pid : ℕ}

/-! ## Documents -/

/-- A control revision repeats its secret, and names a payload once it is active. -/
structure ControlRevision.Documented (control : ControlRevision) (secretUid : String) : Prop where
  schemaVersion : control.schemaVersion = 1
  secretUid : control.secretUid = some secretUid
  active : control.state = .active → control.payloadVersionId.isSome = true

/-- Every revision repeats the secret that it belongs to. -/
structure Documented (s : Cloud) : Prop where
  control : ∀ {u sk row control}, s.workflow u sk = some row → row.serialized = .control control →
    control.Documented u
  payload : ∀ {u sk row payload}, s.workflow u sk = some row → row.serialized = .payload payload →
    ∃ head, s.head u = some head ∧ head.Committed ∧
      payload.Belongs u head.secretId head.environment

theorem documented_empty : Documented Cloud.empty where
  control h := by cases h
  payload h := by cases h

/-! ## What a head promises -/

/-- The control revision repeats the head. -/
structure ControlRevision.Repeats (control : ControlRevision) (head : HeadRecord) : Prop where
  schemaVersion : control.schemaVersion = 1
  secretUid : control.secretUid = some head.secretUid
  secretId : control.secretId = head.secretId
  environment : control.environment = head.environment
  controlVersionId : control.controlVersionId = head.controlVersionId
  payloadVersionId : control.payloadVersionId = head.payloadVersionId
  state : control.state = head.state

/-- The payload revision repeats the head. -/
structure PayloadRevision.Repeats (payload : PayloadRevision) (head : HeadRecord) : Prop where
  belongs : payload.Belongs head.secretUid head.secretId head.environment
  payloadVersionId : head.payloadVersionId = some payload.payloadVersionId

/-- The objects that a head names repeat it for as long as they are stored. -/
structure Cloud.Agrees (s : Cloud) (head : HeadRecord) : Prop where
  control : ∃ reference, controlReference head = some reference ∧ reference.versionId ∈ s.known ∧
    ∀ object, s.object reference = some object →
      ∃ control, object.body = .control control ∧ control.Repeats head
  payload : head.payloadVersionId.isSome = true → ∃ reference,
    payloadReference head = some reference ∧ reference.versionId ∈ s.known ∧
      ∀ object, s.object reference = some object →
        ∃ payload, object.body = .payload payload ∧ payload.Repeats head

theorem lasts_agrees {head : HeadRecord} : Lasts init fun s => s.Agrees head := by
  have hbody : ∀ {s s' : Cloud} {actor : Option ℕ} {reference : ObjectReference}
      {p : ObjectBody → Prop}, Evolves actor s s' → reference.versionId ∈ s.known →
        (∀ object, s.object reference = some object → p object.body) →
          reference.versionId ∈ s'.known ∧
            ∀ object, s'.object reference = some object → p object.body := by
    intro s s' actor reference p hevolves hknown hp
    refine ⟨hevolves.known hknown, fun object' hobject' => ?_⟩
    obtain ⟨object, hobject, hsame⟩ := hevolves.bodies hknown hobject'
    exact hsame ▸ hp object hobject
  intro s s' actor _ _ hevolves h
  obtain ⟨reference, hreference, hknown, hcontrol⟩ := h.control
  refine ⟨⟨reference, hreference, hbody (p := fun body => ∃ control, body = .control control ∧
    control.Repeats head) hevolves hknown hcontrol⟩, fun hsome => ?_⟩
  obtain ⟨reference, hreference, hknown, hpayload⟩ := h.payload hsome
  exact ⟨reference, hreference, hbody (p := fun body => ∃ payload, body = .payload payload ∧
    payload.Repeats head) hevolves hknown hpayload⟩

/-- The object of a revision, and the document in it. -/
theorem Cloud.Holds.object {u : String} {sk : WorkflowSk} {versionId : String} {body : ObjectBody}
    (h : s.Holds u sk versionId body) (hinv : Invariant init s) :
    versionId ∈ s.known ∧ ∃ object, s.object ⟨objectKeyOf u sk, versionId⟩ = some object ∧
      object.body = body := by
  obtain ⟨-, object, hobject, rfl, hbody⟩ := h
  refine ⟨hinv.known.object hobject, object, ?_, hbody⟩
  exact Option.filter_eq_some_iff.mpr ⟨hobject, by simp⟩

/-- **A committed head is repeated by the objects it names.** -/
theorem agrees_of_head (hinv : Invariant init s) (hdocumented : Documented s) {u : String}
    {head : HeadRecord} (hhead : s.head u = some head) (hcommitted : head.Committed) :
    s.Agrees head := by
  obtain ⟨control, hdescribes⟩ := hinv.heads.described hhead hcommitted
  obtain ⟨rfl, -⟩ := hinv.heads.uid hhead
  constructor
  · obtain ⟨versionId, hversion, hkey, hholds⟩ := hdescribes.stored
    obtain ⟨hknown, object, hobject, hbody⟩ := hholds.object hinv
    refine ⟨⟨controlKey head.secretUid head.controlVersionId, versionId⟩,
      by simp [controlReference, hversion, hkey], hknown, fun other hother => ?_⟩
    obtain rfl : object = other := Option.some.inj (hobject.symm.trans hother)
    obtain ⟨row, hrow, -, -, hserialized⟩ := hholds.1
    have hcontrol := hdocumented.control hrow hserialized
    have hdocument := (hinv.rows.ok hrow).documents
    rw [hserialized] at hdocument
    exact ⟨control, hbody,
      { schemaVersion := hcontrol.schemaVersion
        secretUid := hcontrol.secretUid
        secretId := hdescribes.secretId
        environment := hdescribes.environment
        controlVersionId := hdocument.1
        payloadVersionId := hdescribes.payloadVersionId
        state := hdescribes.state }⟩
  · intro hsome
    obtain ⟨payloadVersionId, hpayload⟩ := Option.isSome_iff_exists.mp hsome
    obtain ⟨versionId, revision, hversion, hkey, hholds⟩ := hdescribes.payload _ hpayload
    obtain ⟨hknown, object, hobject, hbody⟩ := hholds.object hinv
    refine ⟨⟨payloadKey head.secretUid payloadVersionId, versionId⟩,
      by simp [payloadReference, hversion, hkey], hknown, fun other hother => ?_⟩
    obtain rfl : object = other := Option.some.inj (hobject.symm.trans hother)
    obtain ⟨row, hrow, -, -, hserialized⟩ := hholds.1
    obtain ⟨current, hcurrent, -, hbelongs⟩ := hdocumented.payload hrow hserialized
    obtain rfl : current = head := Option.some.inj (hcurrent.symm.trans hhead)
    have hdocument := (hinv.rows.ok hrow).documents
    rw [hserialized] at hdocument
    obtain rfl : revision.payloadVersionId = payloadVersionId := hdocument
    exact ⟨revision, hbody, hbelongs, hpayload⟩

/-- An active head is committed. -/
theorem committed_of_active (hinv : Invariant init s) {u : String} {head : HeadRecord}
    (hhead : s.head u = some head) (hactive : head.state = .active) : head.Committed := by
  by_contra hnot
  obtain ⟨mutation, -, -, hcreates, -, rfl | rfl⟩ := hinv.heads.creating hhead hnot
  · exact hcreates.inactive hactive
  · exact hcreates.inactive hactive

theorem ControlRevision.Repeats.agrees {control : ControlRevision} {head : HeadRecord}
    (h : control.Repeats head) :
    controlAgrees { control with secretUid := some head.secretUid } head head.secretId = true := by
  simp [controlAgrees, h.schemaVersion, h.secretId, h.environment, h.controlVersionId,
    h.payloadVersionId, h.state]

theorem PayloadRevision.Repeats.agrees {payload : PayloadRevision} {head : HeadRecord}
    (h : payload.Repeats head) : payloadAgrees payload head head.secretId = true := by
  simp [payloadAgrees, h.belongs.schemaVersion, h.belongs.secretUid, h.belongs.secretId,
    h.belongs.environment, h.payloadVersionId]

/-! ## What a read never raises -/

/-- The answers of `readActivePayload` to documents that do not match. -/
def disagreements : List Failure :=
  [.api (serviceUnavailable "The secret head and control revision do not agree."),
    .api (serviceUnavailable "The secret payload does not have an immutable object version."),
    .api (serviceUnavailable "The secret payload revision does not match the authorized head.")]

theorem aws_not_mem_disagreements (failure : AwsFailure) : Failure.aws failure ∉ disagreements := by
  simp [disagreements]

/-- A process made a request where some document was not well written. -/
def Undocumented (issued : Request → Cloud → Prop) : Prop :=
  ∃ q first, issued q first ∧ ¬ Documented first

/-- A failure that is not a disagreement, unless some document was not well written. -/
def Excused (issued : Request → Cloud → Prop) (failure : Failure) : Prop :=
  failure ∈ disagreements → Undocumented issued

section Specs

variable {issued : Request → Cloud → Prop} {F : Cloud → Prop} {α β : Type}

/-- A specification that also says what the program may fail with. -/
abbrev Excusing (init : Cloud) (issued : Request → Cloud → Prop) (pid : ℕ) (F : Cloud → Prop)
    (program : Service α) (R : α → Cloud → Prop) : Prop :=
  (discipline init).Safe issued pid F program (fun value s => F s ∧ R value s)
    fun failure _ => Excused issued failure

theorem Spec.excusing {program : Service α} {R : α → Cloud → Prop}
    (h : Spec init issued pid F program R) (hraises : program.Raises (· ∉ disagreements)) :
    Excusing init issued pid F program R :=
  (Discipline.Safe.raises h hraises).weaken (fun _ _ hs => hs) (fun _ _ _ hs => hs)
    fun _ _ _ hs hmem => (hs.2 hmem).elim

/-- Where some document was not well written, every failure is excused. -/
theorem Spec.excusing_of_undocumented {program : Service α} {R : α → Cloud → Prop}
    (h : Spec init issued pid F program R) (hundocumented : Undocumented issued) :
    Excusing init issued pid F program R :=
  h.weaken (fun _ _ hs => hs) (fun _ _ _ hs => hs) fun _ _ _ _ _ => hundocumented

theorem Excusing.bind {program : Service α} {R : α → Cloud → Prop} {next : α → Service β}
    {R' : β → Cloud → Prop} (h : Excusing init issued pid F program R)
    (hnext : ∀ value, Excusing init issued pid (fun s => F s ∧ R value s) (next value) R') :
    Excusing init issued pid F (program.bind next) R' :=
  Discipline.Safe.bind h fun value => Discipline.Safe.post (hnext value) fun _ _ _ hs =>
    ⟨hs.1.1, hs.2⟩

/-! ### Programs that raise nothing of the kind -/

theorem raises_send (q : Request) : (send q).Raises (· ∉ disagreements) := by
  intro response
  cases response with
  | ok answer => trivial
  | error failure => exact aws_not_mem_disagreements failure

theorem raises_requireSome {error : ApiError} (herror : Failure.api error ∉ disagreements)
    (value : Option α) : (requireSome error value : Service α).Raises (· ∉ disagreements) := by
  cases value with
  | none => exact herror
  | some value => trivial

theorem raises_getAgentGrantForConsumer (consumerId : String) :
    (getAgentGrantForConsumer consumerId).Raises (· ∉ disagreements) := by
  refine .bind (raises_send _) fun grantId => ?_
  cases grantId with
  | none => trivial
  | some grantId => exact .bind (raises_send _) fun _ => trivial

theorem raises_requireCapability (consumerId environment : String) (capability : AgentCapability) :
    (AgentService.requireCapability consumerId environment capability).Raises
      (· ∉ disagreements) := by
  refine .bind (.bind (raises_getAgentGrantForConsumer _) fun grant =>
    raises_requireSome (by decide) _) fun grant => .ite trivial ?_
  show Failure.api (forbidden "The agent grant does not allow this operation.") ∉ disagreements
  decide

theorem raises_requireHead (environment secretId : String) :
    (requireHead environment secretId).Raises (· ∉ disagreements) := by
  refine .bind (.bind (.bind (raises_send _) fun _ => trivial) fun secretUid => ?_) fun head =>
    raises_requireSome (by decide) _
  cases secretUid with
  | none => trivial
  | some secretUid => exact raises_send _

theorem raises_getControl (head : HeadRecord) : (getControl head).Raises (· ∉ disagreements) := by
  refine .bind (raises_requireSome (by decide) _) fun reference =>
    .bind (raises_send _) fun body => .bind ?_ fun _ => trivial
  cases body with
  | control control => trivial
  | payload payload =>
      show Failure.error "not a control revision" ∉ disagreements
      decide

theorem raises_getAccessAndHead (consumerId environment secretId : String) :
    (getAccessAndHead consumerId environment secretId).Raises (· ∉ disagreements) := by
  refine .bind (.bind (raises_send _) fun _ => trivial) fun secretUid => ?_
  cases secretUid with
  | none => trivial
  | some secretUid => exact raises_send _

theorem raises_ret (value : α) : (Program.ret value : Service α).Raises (· ∉ disagreements) :=
  trivial

/-! ### Reads -/

/-- A head that was read in a request of the process: if it is active, its objects repeat it. -/
def Cloud.Promised (s : Cloud) (issued : Request → Cloud → Prop) (head : HeadRecord) : Prop :=
  ¬ Undocumented issued → head.state = .active → s.Agrees head

theorem lasts_promised {head : HeadRecord} :
    Lasts init fun s => s.Promised issued head :=
  .imp (.imp lasts_agrees)

theorem promised_of_head (hinv : Invariant init s) {q : Request} (hissued : issued q s) {u : String}
    {head : HeadRecord} (hhead : s.head u = some head) : s.Promised issued head := by
  intro hdocumented hactive
  refine agrees_of_head hinv ?_ hhead (committed_of_active hinv hhead hactive)
  by_contra hnot
  exact hdocumented ⟨q, s, hissued, hnot⟩

/-- The object under a reference of an agreeing head. -/
theorem excusing_getJson (hF : Persists init pid F) {reference : ObjectReference}
    {p : ObjectBody → Prop}
    (h : ∀ s, F s → ∀ object, s.object reference = some object → p object.body) :
    Excusing init issued pid F (ObjectStore.getJson reference) fun body _ => p body := by
  refine (Spec.send hF rfl (fun s _ _ => ?_) ?_).excusing (raises_send (.getObject reference))
  · exact trivial
  intro s choice body s' _ _ hs _ hperform
  simp only [perform] at hperform
  split at hperform <;> cases hperform
  exact h s hs _ ‹_›

/-- **The checks of a read never fail.** -/
theorem excusing_readActivePayload (hF : Persists init pid F) {head : HeadRecord}
    (hpromised : ∀ s, F s → s.Promised issued head) (hactive : head.state = .active) :
    Excusing init issued pid F (readActivePayload head.secretId head) fun _ _ => True := by
  by_cases hundocumented : Undocumented issued
  · exact ((spec_readActivePayload hF _ _).post fun _ _ _ _ _ => trivial).excusing_of_undocumented
      hundocumented
  have hagrees : ∀ s, F s → s.Agrees head := fun s hs => hpromised s hs hundocumented hactive
  refine .ite (fun _ => (Spec.raise).excusing ?_) fun hsome => ?_
  · show Failure.api (notFound "The secret has no active payload.") ∉ disagreements
    decide
  have hpayload : head.payloadVersionId.isSome = true := by
    simpa [Option.isSome_iff_ne_none] using hsome
  refine Excusing.bind (R := fun control _ => controlAgrees control head head.secretId = true) ?_
    fun control => .of_fact (fun _ _ hs => hs.2) fun hcheck => ?_
  · -- The control revision of the head.
    refine Excusing.bind ((Spec.requireSome _).excusing (raises_requireSome (by decide) _))
      fun reference => ?_
    have hknows : Persists init pid fun s => F s ∧ controlReference head = some reference :=
      hF.and (.const _)
    refine Excusing.bind (excusing_getJson hknows (p := fun body => ∃ control,
      body = .control control ∧ control.Repeats head) fun s hs => ?_) fun body => ?_
    · obtain ⟨other, hother, -, hbody⟩ := (hagrees s hs.1).control
      obtain rfl : reference = other := Option.some.inj (hs.2.symm.trans hother)
      exact hbody
    · refine .of_fact (fun _ _ hs => hs.2) fun ⟨control, hbody, hrepeats⟩ => ?_
      subst hbody
      exact (Spec.ret fun _ _ _ => hrepeats.agrees).excusing trivial
  · rw [if_pos hcheck]
    -- The payload revision of the head.
    refine .of_fact (p := ∃ reference, payloadReference head = some reference) (fun s _ hs => ?_)
      fun ⟨reference, hreference⟩ => ?_
    · obtain ⟨reference, hreference, -⟩ := (hagrees s hs.1).payload hpayload
      exact ⟨reference, hreference⟩
    rw [hreference]
    have hknows : Persists init pid fun s => F s ∧
        controlAgrees control head head.secretId = true := hF.and (.const _)
    show Excusing init issued pid _ ((ObjectStore.getJson reference).bind _) _
    refine Excusing.bind (excusing_getJson hknows (p := fun body => ∃ payload,
      body = .payload payload ∧ payload.Repeats head) fun s hs => ?_) fun body =>
        .of_fact (fun _ _ hs => hs.2) fun ⟨payload, hbody, hrepeats⟩ => ?_
    · obtain ⟨other, hother, -, hbody⟩ := (hagrees s hs.1).payload hpayload
      obtain rfl : reference = other := Option.some.inj (hreference.symm.trans hother)
      exact hbody
    subst hbody
    show Excusing init issued pid _ (ite _ _ _) _
    rw [if_pos hrepeats.agrees]
    refine Excusing.bind (Spec.excusing (R := fun _ _ => True)
      (Spec.send_any (hknows.and (.const _)) rfl fun _ _ _ => trivial) (raises_send _))
      fun plaintext => (Spec.ret fun _ _ _ => trivial).excusing trivial

/-- The access record and the head of a read, which are got in one request. -/
theorem excusing_getAccessAndHead (hF : Persists init pid F)
    (consumerId environment secretId : String) :
    Excusing init issued pid F (getAccessAndHead consumerId environment secretId) fun found s =>
      ∀ head, found.2 = some head → s.Promised issued head := by
  refine Spec.excusing ?_ (raises_getAccessAndHead _ _ _)
  refine Spec.skip (spec_getSecretUid hF [] (by simp)) fun found => ?_
  cases found with
  | none => exact .ret fun _ _ _ _ h => (nomatch h)
  | some u =>
      refine .send hF rfl (fun _ _ _ => trivial) ?_
      intro s choice result s' hinv _ _ hissued hperform head hhead
      cases hperform
      exact promised_of_head hinv hissued hhead

theorem excusing_read (hF : Persists init pid F) {consumerId environment secretId : String}
    {ifNoneMatch : Option String} {event : AuditEvent}
    (hoperation : event.operation ≠ "workflow.recovery") :
    Excusing init issued pid F (SecretService.read consumerId environment secretId ifNoneMatch
      (send (.auditWrite event))) fun _ _ => True := by
  have hforbidden : Failure.api (forbidden) ∉ disagreements := by decide
  refine Excusing.bind (excusing_getAccessAndHead hF _ _ _) ?_
  rintro ⟨access, head⟩
  cases access with
  | none => exact Spec.raise.excusing hforbidden
  | some access =>
      cases head with
      | none => exact Spec.raise.excusing hforbidden
      | some head =>
          have hknows : Persists init pid fun s => F s ∧
              ∀ found, some head = some found → s.Promised issued found :=
            hF.and (Lasts.forall fun _ => .imp lasts_promised).persists
          refine .ite (fun hcheck => ?_) fun _ => Spec.raise.excusing hforbidden
          obtain ⟨-, hsecretId, -, hactive⟩ := of_decide_eq_true (Bool.and_eq_true_iff.mp hcheck).2
          refine Excusing.bind ((spec_auditWrite hknows hoperation).excusing (raises_send _))
            fun _ => .ite (fun _ => (Spec.ret fun _ _ _ => trivial).excusing trivial) fun _ => ?_
          rw [← hsecretId]
          exact excusing_readActivePayload (hknows.and (.const _))
            (fun s hs => hs.1.2 head rfl) hactive

theorem excusing_agentRead (hF : Persists init pid F) {consumerId environment secretId : String}
    {ifNoneMatch : Option String} {correlationId : String} :
    Excusing init issued pid F
      (Consumer.agentRead consumerId environment secretId ifNoneMatch correlationId)
      fun _ _ => True := by
  refine Excusing.bind ((Spec.harmless hF (harmless_requireCapability _ _ _)).excusing
    (raises_requireCapability _ _ _)) fun grant => ?_
  have hsnapshot : (getControlSnapshot environment secretId).Raises (· ∉ disagreements) :=
    .bind (raises_requireHead _ _) fun head => .bind (raises_getControl _) fun _ => trivial
  refine Excusing.bind (((spec_getControlSnapshot (hF.and (.const _)) [] (by simp)).post
    fun _ _ _ _ _ => trivial).excusing (R := fun _ _ => True) hsnapshot) fun snapshot => ?_
  have hscope : (AgentService.requireReadScope snapshot.control grant).Raises
      (· ∉ disagreements) := by
    refine .ite trivial ?_
    show Failure.api (forbidden "The agent grant does not allow this secret.") ∉ disagreements
    decide
  refine Excusing.bind ((Spec.harmless ((hF.and (.const _)).and (.const _))
    (harmless_requireSecretPermission _ _ _)).excusing hscope) fun _ => ?_
  exact excusing_read (((hF.and (.const _)).and (.const _)).and (.const _))
    (operation_ne _ _ (by decide))

/-! ### The administrator -/

theorem excusing_requireHead (hF : Persists init pid F) (environment secretId : String) :
    Excusing init issued pid F (requireHead environment secretId) fun head s =>
      head.secretId = secretId ∧ s.Promised issued head := by
  refine Spec.excusing ?_ (raises_requireHead _ _)
  refine .bind (R := fun found s => ∀ head, found = some head →
    head.secretId = secretId ∧ s.Promised issued head) ?_ fun found =>
      (Spec.requireSome found).post fun head s _ hs hsome => hs.2 head hsome
  refine .bind (spec_getSecretUid hF [] (by simp)) fun found => ?_
  cases found with
  | none => exact .ret fun _ _ _ _ h => (nomatch h)
  | some u =>
      have hknows : Persists init pid fun s => F s ∧
          ∀ u', some u = some u' → s.Found environment secretId u' [] :=
        hF.and (.forall fun u' => .imp lasts_found.persists)
      refine .send hknows rfl (fun _ _ _ => trivial) ?_
      intro s choice result s' hinv _ hs hissued hperform head hhead
      cases hperform
      exact ⟨((hs.2 u rfl).of_head hhead).2, promised_of_head hinv hissued hhead⟩

theorem excusing_adminRead (hF : Persists init pid F) {environment secretId : String}
    {actor : Actor} {correlationId : String} :
    Excusing init issued pid F (Admin.readPayload environment secretId actor correlationId)
      fun _ _ => True := by
  refine Excusing.bind (R := fun _ _ => True) ?_ fun payload => ?_
  · refine Excusing.bind (excusing_requireHead hF environment secretId) fun head => ?_
    refine .ite (fun _ => Spec.raise.excusing ?_) fun hactive => ?_
    · show Failure.api (notFound "The secret has no active payload.") ∉ disagreements
      decide
    · refine .of_fact (fun _ _ hs => hs.2.1) fun hsecretId => ?_
      subst hsecretId
      have hknows : Persists init pid fun s => F s ∧ head.secretId = head.secretId ∧
          s.Promised issued head := hF.and ((Lasts.const _).and lasts_promised).persists
      exact excusing_readActivePayload hknows (fun s hs => hs.2.2) (not_not.mp hactive)
  · have hwrite : (Recovery.writeEvent
        { correlationId := correlationId
          outcome := .succeeded
          actor := AdminRequest.humanActor actor
          operation := "adminget:/v1/admin/secrets/" ++ secretId ++ "/payload"
          target := [("environment", environment), ("secretId", secretId),
            ("controlVersionId", payload.controlVersionId),
            ("payloadVersionId", payload.payloadVersionId.getD "")]
          reasonCode := none }).Raises (· ∉ disagreements) :=
      .bind (raises_send _) fun _ => .bind (raises_send _) fun _ => trivial
    refine Excusing.bind ((spec_writeEvent (hF.and (.const _)) ?_).excusing hwrite) fun _ =>
      (Spec.ret fun _ _ _ => trivial).excusing trivial
    show "adminget:/v1/admin/secrets/" ++ secretId ++ "/payload" ≠ _
    rw [String.append_assoc]
    exact operation_ne "adminget:/v1/admin/secrets/" _ (by decide)

end Specs

end Hemlig
