import Hemlig.Verification.Mutations

/-!
# The mutations of grants, and those of agents

Revoking a consumer and reconciling the grant of an agent are updates by name of a
secret whose control revision was read before; an agent updates by the UID of its
grant and never names an ACL.
-/

namespace Hemlig

open Concurrent Store DynamoRepository SecretService

variable {init s s' : Cloud} {pid : ℕ}

section Specs

variable {issued : Request → Cloud → Prop} {F : Cloud → Prop}

theorem harmless_assertNotAgent (allowAgentAcl : Bool) (consumerId : String) :
    (assertNotAgent allowAgentAcl consumerId).Only Request.Harmless := by
  refine .ite trivial (.bind (harmless_getAgentGrantForConsumer _) fun _ => ?_)
  exact .ite trivial trivial

/-- An update whose prior control revision was read before. -/
theorem runs_update_of_loaded {input : UpdateSecretInput} {head : HeadRecord}
    {document : ControlRevision} (hF : Persists init pid F)
    (hloaded : ∀ s, F s → s.Loaded head.secretUid head document)
    (hexpected : input.expectedControlVersionId = document.controlVersionId)
    (hacl : WellFormedAcl document.acl → ∀ acl, input.acl = some acl → WellFormedAcl acl)
    (hfrom : ∀ acl, input.acl = some acl →
      acl.length ≤ document.acl.length ∨ ∃ grant, acl = document.acl ++ [grant]) :
    Runs init issued pid F (SecretService.update input) fun control s =>
      s.Achieved input.actor input.idempotencyKey control := by
  refine .of_fact (fun s _ hs => (hloaded s hs).sound.acl) fun hdocument => ?_
  have hversion : ∀ s, F s → head.controlVersionId = input.expectedControlVersionId :=
    fun s hs => (hexpected.trans (hloaded s hs).version).symm
  refine runs_update hF (fun s hs => ?_) (hacl hdocument) fun s hs acl heq => ?_
  · rw [← hversion s hs]
    exact (hloaded s hs).known
  · exact .inr ⟨head.secretUid, _, document, rfl, hversion s hs ▸ (hloaded s hs).snapshot.settled,
      hfrom acl heq⟩

theorem runs_revokeConsumerSecretGrant {input : RevokeConsumerSecretGrantInput}
    (hF : Persists init pid F) :
    Runs init issued pid F (revokeConsumerSecretGrant input) fun control s =>
      s.Achieved input.actor input.idempotencyKey control := by
  refine Spec.assertOk.next (fun _ _ _ hs _ => hs) fun _ => ?_
  refine Spec.assertOk.next (fun _ _ _ hs _ => hs) fun _ => ?_
  refine Spec.next (R := fun _ _ => True) (.get hF _ fun _ _ _ => trivial) (fun _ _ _ hs _ => hs)
    fun found => ?_
  refine (Spec.requireSome found).next (fun _ _ _ hs _ => hs) fun consumer => ?_
  refine (Spec.harmless hF (harmless_assertNotAgent _ _)).next (fun _ _ _ hs _ => hs) fun _ => ?_
  refine (spec_requireHead hF [] (by simp)).next (fun _ _ _ _ h => h.read) fun head => ?_
  refine (spec_getControl lasts_headRead.persists fun s hs => hs).bind_runs
    fun current => runs_of_snapped fun document hdocument => ?_
  obtain rfl : current = _ := hdocument
  refine .ite (fun _ => .raise fun _ _ _ => trivial) fun _ => ?_
  refine runs_update_of_loaded (lasts_headRead.and lasts_loaded).persists (fun s hs => hs.2) rfl ?_ ?_
  · rintro hdocument acl heq
    cases heq
    exact hdocument.filter _
  · rintro acl heq
    cases heq
    exact .inl (List.length_filter_le _ _)

theorem runs_grantAgentConsumerReadAccess {consumerId environment secretId secretUid : String}
    {actor : Actor} (hF : Persists init pid F) :
    Runs init issued pid F
      (grantAgentConsumerReadAccess consumerId environment secretId secretUid actor)
      fun _ _ => True := by
  refine (spec_requireHead hF [] (by simp)).next (fun _ _ _ _ h => h.read) fun head => ?_
  refine .ite (fun _ => .ret fun _ _ _ => trivial) fun _ => ?_
  refine (spec_getControl lasts_headRead.persists fun s hs => hs).bind_runs
    fun current => runs_of_snapped fun document hdocument => ?_
  obtain rfl : current = _ := hdocument
  refine .ite (fun _ => .ret fun _ _ _ => trivial) fun hnew => ?_
  refine (spec_newId (lasts_headRead.and lasts_loaded).persists _).next (fun _ _ _ hs _ => hs)
    fun idempotencyKey => ?_
  refine Discipline.Safe.bind (runs_update_of_loaded (lasts_headRead.and lasts_loaded).persists
    (fun s hs => hs.2) rfl ?_ ?_) fun _ => .ret fun _ _ _ => trivial
  · rintro hdocument acl heq
    cases heq
    refine hdocument.concat fun hmem => hnew ?_
    obtain ⟨grant, hgrant, hsame⟩ := List.mem_map.mp hmem
    exact List.any_eq_true.mpr ⟨grant, hgrant, by simpa using hsame⟩
  · rintro acl heq
    cases heq
    exact .inr ⟨_, rfl⟩

/-! ## Reconciling the grant of an agent -/

theorem harmless_consumerSecretGrant (environment : String) (access : AccessRecord) :
    (consumerSecretGrant environment access).Only Request.Harmless := by
  refine .ite (.bind (Request.Harmless.get _).send fun _ => ?_) trivial
  trivial

theorem harmless_listConsumerSecretGrants (consumerId environment : String)
    (startKey : Option String) :
    (listConsumerSecretGrants consumerId environment startKey).Only Request.Harmless := by
  refine .bind (Request.Harmless.send ⟨rfl, fun _ _ => trivial⟩) fun response => ?_
  exact .bind (.mapM (harmless_consumerSecretGrant environment) _) fun _ => trivial

theorem harmless_listAllConsumerSecretGrants (consumerId environment : String) :
    (listAllConsumerSecretGrants consumerId environment).Only Request.Harmless := by
  refine .bind (Request.Harmless.send ⟨rfl, fun _ _ => trivial⟩) fun most => ?_
  generalize (none : Option String) = cursor
  induction most generalizing cursor with
  | zero => trivial
  | succ left ih =>
      refine .bind (harmless_listConsumerSecretGrants _ _ _) fun page => ?_
      cases page.lastEvaluatedKey with
      | none => trivial
      | some key => exact .bind (ih (some key)) fun _ => trivial

theorem runs_reconcileAgentReadAccess {input : ReconcileAgentReadAccessInput}
    (hF : Persists init pid F) :
    Runs init issued pid F (reconcileAgentReadAccess input) fun _ _ => True := by
  refine (Spec.harmless hF (harmless_listAllConsumerSecretGrants _ _)).next
    (fun _ _ _ _ _ => trivial) fun current => ?_
  refine Discipline.Safe.bind (R := fun _ _ => True) (.forM fun grant _ => ?_)
    fun _ => .forM fun grant _ => ?_
  · refine .ite (fun _ => .ret fun _ _ _ => trivial) fun _ => ?_
    refine (spec_newId (.const _) _).next (fun _ _ _ hs _ => hs) fun idempotencyKey => ?_
    exact Discipline.Safe.bind (runs_revokeConsumerSecretGrant (.const _)) fun _ =>
      .ret fun _ _ _ => trivial
  · exact .ite (fun _ => .ret fun _ _ _ => trivial) fun _ =>
      runs_grantAgentConsumerReadAccess (.const _)

/-! ## The update of an agent -/

theorem harmless_requireCapability (consumerId environment : String)
    (capability : AgentCapability) :
    (AgentService.requireCapability consumerId environment capability).Only Request.Harmless := by
  have hsome : ∀ (error : ApiError) (grant : Option AgentGrantRecord),
      (requireSome error grant).Only Request.Harmless := by
    intro error grant
    cases grant <;> trivial
  have hgrant : (AgentService.requireGrant consumerId environment).Only Request.Harmless :=
    .bind (harmless_getAgentGrantForConsumer _) fun _ => hsome _ _
  exact .bind hgrant fun grant => .ite trivial trivial

theorem harmless_requireSecretPermission (secretUid : Option String) (grant : AgentGrantRecord)
    (permission : AgentCapability) :
    (AgentService.requireSecretPermission secretUid grant permission).Only Request.Harmless :=
  .ite trivial trivial

theorem runs_agentUpdate {input : AgentSecretWriteInput} (hF : Persists init pid F) :
    Runs init issued pid F (AgentService.update input) fun control s =>
      s.Achieved input.actor input.idempotencyKey control := by
  refine (Spec.requireSome _).next (fun _ _ _ hs _ => hs) fun expected => ?_
  refine (Spec.harmless hF (harmless_requireCapability _ _ _)).next (fun _ _ _ hs _ => hs)
    fun grant => ?_
  refine (Spec.requireSome _).next (fun _ _ _ hs _ => hs) fun secretUid => ?_
  refine (spec_getControlSnapshotBySecretUid hF secretUid).next (fun _ _ _ _ h =>
    And.intro True.intro h) ?_
  rintro ⟨head, control⟩
  refine runs_of_snapped fun document hdocument => ?_
  simp only at hdocument
  subst hdocument
  have hloaded : Persists init pid fun s => s.Loaded head.secretUid head document :=
    lasts_loaded.persists
  refine .ite (fun _ => .raise fun _ _ _ => trivial) fun hnamed => ?_
  refine .ite (fun _ => .raise fun _ _ _ => trivial) fun _ => ?_
  refine (Spec.harmless (Persists.and (.const _) hloaded)
    (harmless_requireSecretPermission _ _ _)).next (fun _ _ _ hs _ => hs.2) fun _ => ?_
  refine .of_fact (fun s _ hs => hs.secretId) fun hsecretId => ?_
  refine runs_updateFromSnapshot (fun s hs => hs) (fun s _ hacl => (hacl rfl).elim)
    (fun s _ => nofun) ?_ nofun
  have hsame := not_or.mp hnamed
  exact hsecretId.symm.trans (not_not.mp hsame.2)

/-! ## The administrative routes -/

theorem runs_adminCreate {request : CreateRequest} (hF : Persists init pid F) :
    Runs init issued pid F (Admin.create request) fun control s =>
      s.Achieved request.actor request.idempotencyKey control := by
  refine Spec.assertOk.bind_runs fun acl => ?_
  refine .of_fact (fun s _ hs => hs.2) fun hacl => ?_
  exact runs_create (hF.and (.const _)) (parseGrants_ok hacl) (length_le_of_parseGrants hacl)

theorem parseOptionalGrants_ok {value : Option (List RawGrant)} {acl : Option (List Grant)}
    (h : Admin.parseOptionalGrants value = .ok acl) :
    ∀ grants, acl = some grants → WellFormedAcl grants ∧ grants.length ≤ maximumAclGrants := by
  intro grants hgrants
  cases value with
  | none => cases h.trans (congrArg Except.ok hgrants)
  | some raw =>
      cases hparsed : parseGrants raw with
      | error error => simp [Admin.parseOptionalGrants, hparsed, Except.map] at h
      | ok parsed =>
          obtain rfl : some parsed = acl := by
            simpa [Admin.parseOptionalGrants, hparsed, Except.map] using h
          cases hgrants
          exact ⟨parseGrants_ok hparsed, length_le_of_parseGrants hparsed⟩

theorem runs_adminUpdate {request : UpdateRequest} (hF : Persists init pid F)
    (hknown : ∀ s, F s → request.ifMatch ∈ s.known) :
    Runs init issued pid F (Admin.update request) fun control s =>
      s.Achieved request.actor request.idempotencyKey control := by
  refine Spec.assertOk.bind_runs fun acl => ?_
  refine .of_fact (fun s _ hs => hs.2) fun hacl => ?_
  have hparsed := parseOptionalGrants_ok hacl
  exact runs_update (hF.and (.const _)) (fun s hs => hknown s hs.1)
    (fun acl heq => (hparsed acl heq).1) fun s _ acl heq => .inl (hparsed acl heq).2

end Specs

end Hemlig
