import Hemlig.Properties.Chain

/-!
# Reads are authorized by the current control

An access record lets its consumer read exactly if the consumer is in the ACL of the
control revision that the head names.  A read that is answered got both in one request.
-/

namespace Hemlig

open Concurrent DynamoRepository

variable {init s : Cloud}

/-- The consumer is in the ACL of the committed control revision of a secret. -/
def Cloud.Grants (s : Cloud) (u environment consumerId : String) : Prop :=
  ∃ head control, s.head u = some head ∧ head.Committed ∧ head.environment = environment ∧
    s.Describes u head control ∧ consumerId ∈ control.acl.map Grant.consumerId

theorem acl_wellFormed (hinv : Invariant init s) {u : String} {head : HeadRecord}
    {control : ControlRevision} (hdescribes : s.Describes u head control) :
    WellFormedAcl control.acl := by
  obtain ⟨versionId, -, -, ⟨row, hrow, -, -, hserialized⟩, -⟩ := hdescribes.stored
  have hdocument := (hinv.rows.ok hrow).documents
  rw [hserialized] at hdocument
  exact hdocument.2.acl

/-- **The access records are those of the ACL.** -/
theorem access_iff_grants (hinv : Invariant init s) (u environment consumerId : String) :
    (∃ access, s.access consumerId environment u = some access ∧ access.active = true) ↔
      s.Grants u environment consumerId := by
  constructor
  · rintro ⟨access, haccess, hactive⟩
    obtain ⟨-, -, -, head, hhead, hcommitted, rfl⟩ := hinv.access.record haccess
    obtain ⟨control, hdescribes⟩ := hinv.heads.described hhead hcommitted
    refine ⟨head, control, hhead, hcommitted, rfl, hdescribes, ?_⟩
    rw [← mem_readers (acl_wellFormed hinv hdescribes)]
    exact (hinv.access.readable hhead hcommitted hdescribes consumerId).mp ⟨access, haccess, hactive⟩
  · rintro ⟨head, control, hhead, hcommitted, rfl, hdescribes, hmem⟩
    rw [← mem_readers (acl_wellFormed hinv hdescribes)] at hmem
    exact (hinv.access.readable hhead hcommitted hdescribes consumerId).mpr hmem

/-- **Reads are exactly authorized.**  In every state of every run an access record marks
a secret readable if and only if the consumer is in the ACL of the control revision that
its committed head names; and a read that was answered was authorized at the moment of its
transactional get. -/
theorem reads_authorized (hinit : Initial init) {w : ServiceWorld} {actions : List ServiceAction}
    (hrun : service.run (World.initial init) actions = some w) :
    (∀ u environment consumerId,
      (∃ access, w.store.access consumerId environment u = some access ∧ access.active = true) ↔
        w.store.Grants u environment consumerId) ∧
    ∀ pid consumerId environment secretId ifNoneMatch correlationId result,
      w.procs pid = some (.read consumerId environment secretId ifNoneMatch correlationId,
          .ret (.read result)) ∨
        w.procs pid = some (.agentRead consumerId environment secretId ifNoneMatch correlationId,
          .ret (.read result)) →
      AuthorizedAt (Discipline.Issued service (World.initial init) actions pid) consumerId
        environment secretId result := by
  refine ⟨access_iff_grants (invariant_of_run hinit hrun), ?_⟩
  rintro pid consumerId environment secretId ifNoneMatch correlationId result (hproc | hproc)
  · exact result_of_run hinit hrun hproc
  · exact result_of_run hinit hrun hproc

theorem reads_authorized_created :
    (∃ access, (reached Cloud.empty _ Sample.created).store.access "agent" "prod" "sec-a" =
      some access ∧ access.active = true) ↔
        (reached Cloud.empty _ Sample.created).store.Grants "sec-a" "prod" "agent" :=
  (reads_authorized Initial.empty (run_reached Sample.created)).1 "sec-a" "prod" "agent"

end Hemlig
