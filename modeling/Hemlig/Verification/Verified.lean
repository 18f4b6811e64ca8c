import Hemlig.Verification.Agreement
import Hemlig.Verification.Backfill
import Hemlig.Verification.Following
import Hemlig.Verification.Redemption

/-!
# All programs are verified

Every program of the service may be run from any state of a run, so the invariant
holds throughout every run, and what a read or a following client returns has the
meaning its specification gives it.
-/

namespace Hemlig

open Concurrent Store DynamoRepository

variable {init s s' : Cloud} {pid : ℕ}

/-! ## The remaining programs -/

section Specs

variable {issued : Request → Cloud → Prop} {F : Cloud → Prop}

theorem harmless_createEnvironment (environment : EnvironmentRecord) :
    (createEnvironment environment).Only Request.Harmless := by
  refine .recover (.bind (Request.Harmless.send ⟨rfl, fun _ _ => trivial⟩) fun epoch => ?_)
    fun _ => trivial
  exact Request.Harmless.send ⟨rfl, fun _ _ => .createEnvironment⟩

theorem spec_create_environment (hF : Persists init pid F) (name : String) (actor : Actor) :
    Spec init issued pid F (EnvironmentService.create name actor) fun _ _ => True := by
  refine Spec.skip Spec.assertOk fun _ => (spec_now hF).skip fun now => ?_
  exact (Spec.harmless hF (harmless_createEnvironment _)).skip fun _ => .ret fun _ _ _ => trivial

end Specs

/-! ## What a program promises -/

/-- What holds when a process started with an input has returned. -/
def Input.Result (issued : Request → Cloud → Prop) (pid : ℕ) : Input → Output → Cloud → Prop
  | .read consumerId environment secretId _ _, .read result, _ =>
      AuthorizedAt issued consumerId environment secretId result
  | .agentRead consumerId environment secretId _ _, .read result, _ =>
      AuthorizedAt issued consumerId environment secretId result
  | .follow follower _, .followed cycles, s => Followed issued pid follower cycles s
  | .create request, .control control, s => s.Achieved request.actor request.idempotencyKey control
  | .update request, .control control, s => s.Achieved request.actor request.idempotencyKey control
  | .archive request, .control control, s => s.Achieved request.actor request.idempotencyKey control
  | .agentUpdate request, .control control, s =>
      s.Achieved request.actor request.idempotencyKey control
  | .revoke _ _ actor idempotencyKey, .control control, s =>
      s.Achieved actor idempotencyKey control
  | .admin request _, .admin response, s => request.authenticated.Concluded response s
  | .grant request _, .grant response, s => request.Result response s
  | _, _, _ => True

theorem persists_result {issued : Request → Cloud → Prop} {input : Input} {output : Output} :
    Persists init pid (input.Result issued pid output) := by
  cases input <;> cases output <;> first
    | exact .const _
    | exact persists_followed
    | exact lasts_achieved.persists
    | exact lasts_concluded.persists
    | exact lasts_grantResult.persists

/-- The revision that a request names is known. -/
def Input.Registered (input : Input) (s : Cloud) : Prop :=
  ∀ version, input.ifMatch = some version → version ∈ s.known

theorem lasts_registered {input : Input} : Lasts init input.Registered :=
  .forall fun _ => .imp lasts_known

theorem registered_register (input : Input) (s : Cloud) : input.Registered (input.register s) := by
  intro version hversion
  rw [Input.register, hversion]
  exact List.mem_cons_self

theorem runs_code (issued : Request → Cloud → Prop) (input : Input) :
    Runs init issued pid input.Registered input.code (input.Result issued pid) := by
  have hF : Persists init pid input.Registered := lasts_registered.persists
  cases input with
  | createEnvironment name actor =>
      exact (spec_create_environment hF _ _).next (fun _ _ _ hs _ => hs) fun _ => .ret fun _ _ _ => trivial
  | create request =>
      exact Discipline.Safe.bind (runs_adminCreate hF) fun _ => .ret fun _ _ hs => hs
  | update request =>
      exact Discipline.Safe.bind (runs_adminUpdate hF fun s hs => hs _ rfl) fun _ =>
        .ret fun _ _ hs => hs
  | archive request =>
      exact Discipline.Safe.bind (runs_archive hF fun s hs => hs _ rfl) fun _ =>
        .ret fun _ _ hs => hs
  | agentUpdate request =>
      exact Discipline.Safe.bind (runs_agentUpdate hF) fun _ => .ret fun _ _ hs => hs
  | revoke consumerId secretId actor idempotencyKey =>
      exact Discipline.Safe.bind (runs_revokeConsumerSecretGrant hF) fun _ =>
        .ret fun _ _ hs => hs
  | reconcile request =>
      exact Discipline.Safe.bind (runs_reconcileAgentReadAccess hF) fun _ =>
        .ret fun _ _ _ => trivial
  | read consumerId environment secretId ifNoneMatch correlationId =>
      exact (spec_consumerRead hF).bind_runs fun _ => .ret fun _ _ hs => hs.2
  | agentRead consumerId environment secretId ifNoneMatch correlationId =>
      exact (spec_agentRead hF).bind_runs fun _ => .ret fun _ _ hs => hs.2
  | adminRead environment secretId actor correlationId =>
      exact Discipline.Safe.bind ((excusing_adminRead hF).weaken (fun _ _ hs => hs)
        (fun _ _ _ _ => trivial) fun _ _ _ _ => trivial) fun _ => .ret fun _ _ _ => trivial
  | follow follower cycles =>
      exact Discipline.Safe.bind ((runs_follow cycles []).of_pre fun _ _ _ => trivial) fun _ =>
        .ret fun _ _ hs => hs
  | recovery =>
      exact (spec_recovery hF).next (fun _ _ _ hs _ => hs) fun _ => .ret fun _ _ _ => trivial
  | releaseLease secretUid operationId =>
      exact (spec_releaseLease hF _ _).next (fun _ _ _ hs _ => hs) fun _ => .ret fun _ _ _ => trivial
  | retention =>
      exact (spec_retention hF).next (fun _ _ _ hs _ => hs) fun _ => .ret fun _ _ _ => trivial
  | backfill apply =>
      exact Discipline.Safe.bind (runs_backfill hF apply) fun _ => .ret fun _ _ _ => trivial
  | admin request correlationId =>
      refine Discipline.Safe.bind (runs_operate hF (fun s hs version hversion => hs _ ?_) ?_)
        fun _ => .ret fun _ _ hs => hs
      · rw [← hversion]
        exact (request.authenticated_ifMatch).symm
      · rw [request.authenticated_actor]
        rfl
  | recoverEnrollments =>
      exact (spec_enrollments hF).next (fun _ _ _ hs _ => hs) fun _ => .ret fun _ _ _ => trivial
  | grant request correlationId =>
      exact Discipline.Safe.bind (runs_grant lasts_registered request correlationId) fun _ =>
        .ret fun _ _ hs => hs

/-- What is known when a process has failed. -/
def Input.Failed (issued : Request → Cloud → Prop) : Input → Failure → Prop
  | .read _ _ _ _ _, failure => Excused issued failure
  | .agentRead _ _ _ _ _, failure => Excused issued failure
  | .adminRead _ _ _ _, failure => Excused issued failure
  | _, _ => True

theorem fails_code (issued : Request → Cloud → Prop) (input : Input) :
    (discipline init).Safe issued pid input.Registered input.code (fun _ _ => True)
      fun failure _ => input.Failed issued failure := by
  have hF : Persists init pid input.Registered := lasts_registered.persists
  have hread : ∀ {program : Service SecretReadResult},
      Excusing init issued pid input.Registered program (fun _ _ => True) →
        (discipline init).Safe issued pid input.Registered (.read <$> program : Service Output)
          (fun _ _ => True) fun failure _ => Excused issued failure :=
    fun h => Discipline.Safe.bind h fun _ => .ret fun _ _ _ => trivial
  cases input with
  | read consumerId environment secretId ifNoneMatch correlationId =>
      exact hread (excusing_read hF (operation_ne _ _ (by decide)))
  | agentRead consumerId environment secretId ifNoneMatch correlationId =>
      exact hread (excusing_agentRead hF)
  | adminRead environment secretId actor correlationId => exact hread (excusing_adminRead hF)
  | _ =>
      exact (runs_code issued _).weaken (fun _ _ hs => hs) (fun _ _ _ _ => trivial)
        fun _ _ _ _ => trivial

/-- **The service is verified.** -/
theorem verified (init : Cloud) :
    (discipline init).Verified (fun issued pid input => input.Result issued pid)
      fun issued _ input failure _ => input.Failed issued failure where
  safe issued _ input s _ :=
    ((runs_code issued input).both (fails_code issued input)).weaken
      (fun _ _ heq => ⟨heq ▸ registered_register input s, heq ▸ registered_register input s⟩)
      (fun _ _ _ h => h.1) fun _ _ _ h => h.2
  stable _ _ _ _ := persists_result.stable
  failure _ _ _ _ := .const _ _

/-! ## Runs -/

theorem Initial.happened (h : Initial init) {event : Event} : ¬ init.Happened event := by
  rintro ⟨entry, hentry, -⟩
  rw [h.history] at hentry
  cases hentry

theorem Initial.issued (h : Initial init) {tokenHash grantId : String} :
    ¬ init.IssuedFor tokenHash grantId := fun ⟨_, hissued, _⟩ => h.happened hissued

theorem Initial.invariant (h : Initial init) : Invariant init init where
  rows :=
    { ok := fun hrow => (h.row hrow).1
      index := fun hrow => by simp [h.index] at hrow
      settled := fun hrow _ => (h.row hrow).2.2
      prepared := fun hprepared => (h.happened hprepared).elim
      preparedPayload := fun hprepared => (h.happened hprepared).elim }
  heads :=
    { uid := fun hhead => ⟨(h.head hhead).2.1, (h.head hhead).2.2.1⟩
      environment := fun hhead => (h.head hhead).2.2.2.2.2.1
      described := fun hhead _ => (h.head hhead).2.2.2.2.2.2
      creating := fun hhead hnot => (hnot (h.head hhead).1).elim
      unsettled := fun hhead hnot => (hnot (h.head hhead).1).elim
      lease := fun hhead howner => by simp [(h.head hhead).2.2.2.1] at howner }
  names :=
    { lookup := h.lookup
      creating := fun hhead hnot => (hnot (h.head hhead).1).elim
      archived := fun harchived => by
        obtain ⟨entry, hentry, -⟩ := harchived
        rw [h.history] at hentry
        cases hentry }
  access :=
    { record := h.access
      readable := fun hhead _ hdescribes => h.readable hhead hdescribes
      sealed := fun harchived => by
        obtain ⟨entry, hentry, -⟩ := harchived
        rw [h.history] at hentry
        cases hentry }
  sync :=
    { row := fun hrow => by simp [h.change] at hrow
      head := fun hhead hsequence => by simp [(h.head hhead).2.2.2.2.1] at hsequence
      distinct := fun hhead _ _ hsequence => by simp [(h.head hhead).2.2.2.2.1] at hsequence
      ready := fun hstate => by simp [h.syncState] at hstate
      bound := fun hstate => by simp [h.syncState] at hstate }
  history :=
    { operation := fun hprepared => (h.happened hprepared).elim
      committed := fun hcommitted => (h.happened hcommitted).elim
      chain := fun u => by simp [Cloud.commits, h.history, Chain]
      payload := fun u => by simp [Cloud.commits, h.history]
      audit := fun event hevent => by simp [h.audit] at hevent }
  known :=
    { drawn := fun hdrawn => by simp [h.drawnBy] at hdrawn
      operation := fun hprepared => (h.happened hprepared).elim
      born := fun hprepared => (h.happened hprepared).elim
      entry := fun hentry => by simp [h.history] at hentry
      object := h.object }
  retention :=
    { deleted := fun hdeleted => (h.happened hdeleted).elim
      kept := fun hcommitted => (h.happened hcommitted).elim }
  records := { claimed := fun _ hevent => (h.happened hevent).elim }
  identities :=
    { sound := .of_none h.identity h.enrollment h.consumer h.idempotency
      grants := h.agentGrant
      index := fun hidentity => by simp [h.identityIndex] at hidentity }
  capabilities :=
    { stored := fun hstored => by simp [h.capability] at hstored
      known := fun hissued => (h.issued hissued).elim
      issued := fun hissued => (h.issued hissued).elim
      bound := fun hbound => (h.happened hbound).elim
      consumed := fun hstored => by simp [h.capability] at hstored
      unique := fun hbound => (h.happened hbound).elim }

/-- **The invariant holds in every run.** -/
theorem invariant_of_run (hinit : Initial init) {w : ServiceWorld} {actions : List ServiceAction}
    (hrun : service.run (World.initial init) actions = some w) : Invariant init w.store :=
  (Discipline.sound (preserved init) (verified init) hinit.invariant hrun).1

/-- **What a process returned has its meaning.** -/
theorem result_of_run (hinit : Initial init) {w : ServiceWorld} {actions : List ServiceAction}
    (hrun : service.run (World.initial init) actions = some w) {pid : ℕ} {input : Input}
    {output : Output} (hproc : w.procs pid = some (input, .ret output)) :
    input.Result (Discipline.Issued service (World.initial init) actions pid) pid output w.store := by
  obtain ⟨hinv, hstanding⟩ :=
    Discipline.sound (preserved init) (verified init) hinit.invariant hrun
  exact (hstanding pid input _ hproc).returned hinv

/-- **What a process failed with has its reason.** -/
theorem failed_of_run (hinit : Initial init) {w : ServiceWorld} {actions : List ServiceAction}
    (hrun : service.run (World.initial init) actions = some w) {pid : ℕ} {input : Input}
    {failure : Failure} (hproc : w.procs pid = some (input, .raise failure)) :
    input.Failed (Discipline.Issued service (World.initial init) actions pid) failure := by
  obtain ⟨hinv, hstanding⟩ :=
    Discipline.sound (preserved init) (verified init) hinit.invariant hrun
  exact (hstanding pid input _ hproc).raised hinv

/-- **Every request of a run is issued under the discipline.** -/
theorem ready_of_run (hinit : Initial init) {w : ServiceWorld} {actions : List ServiceAction}
    (hrun : service.run (World.initial init) actions = some w) {pid : ℕ} {input : Input}
    {q : Request} {next : Response q → Service Output}
    (hproc : w.procs pid = some (input, .call q next)) : RequestReady pid w.store q := by
  obtain ⟨hinv, hstanding⟩ :=
    Discipline.sound (preserved init) (verified init) hinit.invariant hrun
  exact (hstanding pid input _ hproc).pre hinv

end Hemlig
