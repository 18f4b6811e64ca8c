import Hemlig.Handlers.Consumer
import Hemlig.Verification.Grants

/-!
# What a reading consumer is authorized by

A read decides on the access record and the head that one transactional get returned.
At that moment the record said what the control revision of the head says.
-/

namespace Hemlig

open Concurrent Store DynamoRepository SecretService

variable {init s : Cloud} {pid : ℕ} {issued : Request → Cloud → Prop} {F : Cloud → Prop}

/-- The read got an access record and a head in one request. -/
structure GotAccess (init : Cloud) (issued : Request → Cloud → Prop)
    (consumerId environment u : String) (access : AccessRecord) (head : HeadRecord)
    (first : Cloud) : Prop where
  issued : issued (.transactGet (.access consumerId environment u) (.head u)) first
  invariant : Invariant init first
  access : first.access consumerId environment u = some access
  head : first.head u = some head

theorem spec_getAccessAndHead (hF : Persists init pid F) (consumerId environment secretId : String) :
    Spec init issued pid F (getAccessAndHead consumerId environment secretId) fun result _ =>
      ∀ access head, result = (some access, some head) →
        ∃ u first, GotAccess init issued consumerId environment u access head first := by
  refine Spec.skip (spec_getSecretUid hF [] (by simp)) fun found => ?_
  cases found with
  | none => exact .ret fun _ _ _ _ _ h => (nomatch h)
  | some u =>
      refine .send hF rfl (fun _ _ _ => trivial) ?_
      rintro s choice result s' hinv - - hissued hperform access head heq
      cases hperform
      exact ⟨u, s, hissued, hinv, (Prod.mk.inj heq).1, (Prod.mk.inj heq).2⟩

/-- At some moment of its request the consumer was authorized: the head of the secret was
active at the version that is returned, and the consumer was in the ACL of that control
revision. -/
def AuthorizedAt (issued : Request → Cloud → Prop) (consumerId environment secretId : String)
    (result : SecretReadResult) : Prop :=
  ∃ u first head control,
    issued (.transactGet (.access consumerId environment u) (.head u)) first ∧
      first.head u = some head ∧ head.Committed ∧ head.state = .active ∧
      head.environment = environment ∧ head.secretId = secretId ∧
      head.controlVersionId = result.controlVersionId ∧ first.Describes u head control ∧
      consumerId ∈ readers control

/-- **An accepted access record means that the consumer is in the ACL.** -/
theorem GotAccess.authorized {consumerId environment secretId u : String} {access : AccessRecord}
    {head : HeadRecord} {first : Cloud}
    (h : GotAccess init issued consumerId environment u access head first)
    (hgrants : accessGrants access environment secretId = true)
    (hserves : headServes head access secretId = true) {result : SecretReadResult}
    (hresult : result.controlVersionId = head.controlVersionId) :
    AuthorizedAt issued consumerId environment secretId result := by
  obtain ⟨henvironment, -, hread, hstate⟩ := of_decide_eq_true hgrants
  obtain ⟨hsame, hsecretId, -, hactive⟩ := of_decide_eq_true hserves
  obtain ⟨-, -, -, current, hcurrent, hcommitted, -⟩ := h.invariant.access.record h.access
  obtain rfl : current = head := Option.some.inj (hcurrent.symm.trans h.head)
  obtain ⟨control, hdescribes⟩ := h.invariant.heads.described h.head hcommitted
  have hmine : current.environment = environment := hsame.trans henvironment
  refine ⟨u, first, current, control, h.issued, h.head, hcommitted, hactive, hmine, hsecretId,
    hresult.symm, hdescribes, ?_⟩
  refine (h.invariant.access.readable h.head hcommitted hdescribes consumerId).mp ⟨access, ?_, ?_⟩
  · exact hmine ▸ h.access
  · exact decide_eq_true ⟨hread, hstate⟩

theorem spec_readActivePayload (hF : Persists init pid F) (secretId : String) (head : HeadRecord) :
    Spec init issued pid F (readActivePayload secretId head) fun result _ =>
      result.controlVersionId = head.controlVersionId := by
  have hget : ∀ reference, Spec init issued pid F (send (.getObject reference)) fun _ _ => True :=
    fun _ => .send_any hF rfl fun _ _ _ => trivial
  refine .ite (fun _ => .raise) fun _ => ?_
  refine Spec.skip (R := fun _ _ => True) ?_ fun control => ?_
  · refine Spec.skip (Spec.requireSome _) fun reference => (hget reference).skip fun body => ?_
    cases body with
    | control control => exact .ret fun _ _ _ => trivial
    | payload payload => exact .raise
  refine .ite (fun _ => ?_) fun _ => .raise
  refine Spec.skip (Spec.requireSome _) fun reference => (hget reference).skip fun body => ?_
  refine Spec.skip (R := fun _ _ => True) ?_ fun payload => ?_
  · cases body with
    | control control => exact .raise
    | payload payload => exact .ret fun _ _ _ => trivial
  refine .ite (fun _ => ?_) fun _ => .raise
  exact Spec.skip (R := fun _ _ => True) (.send_any hF rfl fun _ _ _ => trivial) fun plaintext =>
    .ret fun _ _ _ => rfl

theorem spec_read (hF : Persists init pid F) {consumerId environment secretId : String}
    {ifNoneMatch : Option String} {onAuthorized : Service Unit}
    (hauthorized : Spec init issued pid F onAuthorized fun _ _ => True) :
    Spec init issued pid F
      (SecretService.read consumerId environment secretId ifNoneMatch onAuthorized)
      fun result _ => AuthorizedAt issued consumerId environment secretId result := by
  refine .bind_fact (spec_getAccessAndHead hF consumerId environment secretId) ?_
  rintro ⟨access, head⟩ hfound
  cases access with
  | none => exact .raise
  | some access =>
      cases head with
      | none => exact .raise
      | some head =>
          obtain ⟨u, first, hgot⟩ := hfound access head rfl
          refine .ite (fun hcheck => ?_) fun _ => .raise
          obtain ⟨hgrants, hserves⟩ := Bool.and_eq_true_iff.mp hcheck
          refine hauthorized.skip fun _ => .ite (fun _ => .ret fun _ _ _ => ?_) fun _ => ?_
          · exact hgot.authorized hgrants hserves rfl
          · exact (spec_readActivePayload hF secretId head).post fun result _ _ _ hresult =>
              hgot.authorized hgrants hserves hresult

/-! ## The routes -/

theorem spec_auditWrite (hF : Persists init pid F) {event : AuditEvent}
    (hoperation : event.operation ≠ "workflow.recovery") :
    Spec init issued pid F (send (.auditWrite event)) fun _ _ => True :=
  .send_any hF rfl fun _ _ _ h => (hoperation h).elim

/-- The name of a route is not the one recovery reports under. -/
theorem operation_ne (route : String) (secretId : String)
    (h : ¬ route.toList <+: "workflow.recovery".toList) : route ++ secretId ≠ "workflow.recovery" := by
  intro heq
  refine h ⟨secretId.toList, ?_⟩
  rw [← String.toList_append, heq]

theorem spec_consumerRead (hF : Persists init pid F)
    {consumerId environment secretId correlationId : String} {ifNoneMatch : Option String} :
    Spec init issued pid F
      (Consumer.read consumerId environment secretId ifNoneMatch correlationId)
      fun result _ => AuthorizedAt issued consumerId environment secretId result :=
  spec_read hF (spec_auditWrite hF (operation_ne _ _ (by decide)))

theorem spec_agentRead (hF : Persists init pid F)
    {consumerId environment secretId correlationId : String} {ifNoneMatch : Option String} :
    Spec init issued pid F
      (Consumer.agentRead consumerId environment secretId ifNoneMatch correlationId)
      fun result _ => AuthorizedAt issued consumerId environment secretId result := by
  refine (Spec.harmless hF (harmless_requireCapability _ _ _)).skip fun grant => ?_
  refine (spec_getControlSnapshot hF [] (by simp)).skip fun snapshot => ?_
  refine (Spec.harmless hF (harmless_requireSecretPermission _ _ _)).skip fun _ => ?_
  exact spec_read hF (spec_auditWrite hF (operation_ne _ _ (by decide)))

end Hemlig
