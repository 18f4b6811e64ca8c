import Hemlig.Properties.Chain

/-!
# Retention deletes no live object

Retention deletes only objects that no head refers to, and no head refers to them again;
and an object that was current stays for ninety days after the commit that replaced it.
-/

namespace Hemlig

open Concurrent

variable {init s s' : Cloud}

/-- A head that is not committed refers to nothing. -/
theorem references_createdHead (mutation : PreparedMutation) :
    (createdHead mutation).references = [] ∧
      (DynamoRepository.unleasedHead (createdHead mutation)).references = [] := by
  constructor <;> cases hpayload : mutation.control.payloadVersionId <;>
    simp [HeadRecord.references, SecretService.controlReference, SecretService.payloadReference,
      DynamoRepository.unleasedHead, createdHead, hpayload]

/-- A head refers to objects that are there. -/
theorem object_of_reference (hinv : Invariant init s) {u : String} {head : HeadRecord}
    (hhead : s.head u = some head) {reference : ObjectReference}
    (hmem : reference ∈ head.references) : ∃ object, s.object reference = some object := by
  by_cases hcommitted : head.Committed
  · obtain ⟨control, hdescribes⟩ := hinv.heads.described hhead hcommitted
    rcases List.mem_append.mp hmem with hmem | hmem
    · obtain ⟨versionId, hversion, hkey, -, object, hobject, hsame, -⟩ := hdescribes.stored
      have href : some reference = some ⟨controlKey u head.controlVersionId, versionId⟩ := by
        rw [← Option.mem_toList.mp hmem, SecretService.controlReference, hversion, hkey]
      cases href
      exact ⟨object, Option.filter_eq_some_iff.mpr ⟨hobject, by simpa using hsame⟩⟩
    · obtain ⟨payloadVersionId, hpayload, href⟩ :=
        Option.bind_eq_some_iff.mp (Option.mem_toList.mp hmem)
      obtain ⟨versionId, revision, hversion, hkey, -, object, hobject, hsame, -⟩ :=
        hdescribes.payload payloadVersionId hpayload
      rw [SecretService.payloadReference, hversion, hkey] at href
      cases href
      exact ⟨object, Option.filter_eq_some_iff.mpr ⟨hobject, by simpa using hsame⟩⟩
  · obtain ⟨mutation, -, -, -, -, rfl | rfl⟩ := hinv.heads.creating hhead hcommitted
    · rw [(references_createdHead mutation).1] at hmem
      cases hmem
    · rw [(references_createdHead mutation).2] at hmem
      cases hmem

/-- What a head refers to does not depend on its lease and its place in the index. -/
theorem references_of_content {head head' : HeadRecord} (h : head'.content = head.content) :
    head'.references = head.references := by
  show head'.content.references = head.content.references
  rw [h]

/-- **A commit finds what it replaces locked.** -/
theorem Committing.kept_references {completed : CompletedMutation} {sequence pid : ℕ}
    {extendedAt : Option Time} {head : HeadRecord}
    (h : Committing init s s' completed sequence extendedAt pid head) {reference : ObjectReference}
    (hmem : reference ∈ head.references) :
    ∃ time, extendedAt = some time ∧ s'.Kept reference (time + 91 * day) := by
  cases h.predecessor with
  | created hhead =>
      rw [hhead, (references_createdHead _).1] at hmem
      cases hmem
  | updated prior control hcommitted hcontent hprior hdescribes hready =>
      obtain ⟨time, htime⟩ := Option.isSome_iff_exists.mp
        (h.ready.timed (by rw [hprior]; rfl))
      refine ⟨time, htime, h.kept (h.ready.extended time prior htime hprior reference ?_)⟩
      rwa [← references_of_content hcontent]

/-- **Retention is safe.**  In every state of every run an object version that was deleted
is not one that a head refers to.  And a version that a head referred to before a commit
replaced it, where the commit came within a day of the extended lock, is not deleted within
ninety days of that commit, whatever happens later. -/
theorem retention_safe (hinit : Initial init) {w : ServiceWorld} {actions : List ServiceAction}
    (hrun : service.run (World.initial init) actions = some w) :
    (∀ reference, w.store.Happened (.deleted reference) →
      ∀ u head, w.store.head u = some head → reference ∉ head.references) ∧
    ∀ action w' completed sequence extendedAt, service.act w action = some w' →
      w'.store.history = w.store.history ++
        [⟨w.store.now, w.store.known, .committed completed sequence extendedAt⟩] →
      (∀ time, extendedAt = some time → w.store.now ≤ time + day) →
      ∀ head reference, w.store.head completed.prepared.secretUid = some head →
        reference ∈ head.references → ∀ later w'', service.run w' later = some w'' →
          ∀ deletion ∈ w''.store.history, deletion.event = .deleted reference →
            w.store.now + 90 * day ≤ deletion.time := by
  have hinv := invariant_of_run hinit hrun
  constructor
  · intro reference hdeleted u head hhead hmem
    obtain ⟨object, hobject⟩ := object_of_reference hinv hhead hmem
    rw [(hinv.retention.deleted hdeleted).2] at hobject
    cases hobject
  · intro action w' completed sequence extendedAt hact hhistory htimely head reference hhead hmem
      later w'' hlater deletion hdeletion hevent
    have hstep := stepped_of_act hinit hrun hact
    obtain ⟨pid, current, hcommitting⟩ := hstep.committing hhistory
    obtain rfl : current = head := Option.some.inj (hcommitting.before.symm.trans hhead)
    obtain ⟨time, htime, hkept⟩ := hcommitting.kept_references hmem
    have hreached : service.run (World.initial init) (actions ++ [action]) = some w' := by
      rw [service.run_append, hrun]
      simp [System.run, hact]
    have hkept' := run_keeps hinit hreached hlater
      (P := fun s => s.Kept reference (time + 91 * day))
      (fun s s' hstep hkept => hstep.evolves.elim fun _ hevolves => hevolves.kept hkept) hkept
    have hlate := hkept'.deleted deletion hdeletion hevent
    have hsoon := htimely time htime
    calc w.store.now + 90 * day ≤ time + day + 90 * day := Nat.add_le_add_right hsoon _
      _ = time + 91 * day := Nat.add_assoc _ _ _
      _ ≤ deletion.time := hlate

namespace Sample

/-- Two revisions are due, and a pass stops after it deleted the object of the first one. -/
def interrupted : List ServiceAction :=
  founding ++ creating 1 "a" "k1" ++ updating 2 "ctl-a" "b" "k2" ++ updating 3 "ctl-b" "c" "k3" ++
    [.environment (.tick (100 * day)), .environment (.replicate "sec-a" (.control "ctl-a")),
      .environment (.replicate "sec-a" (.control "ctl-b")), .start 4 .retention] ++
    steps 4 [plain, { rows := [("sec-a", .control "ctl-a"), ("sec-a", .control "ctl-b")] },
      plain, plain, plain, plain]

theorem interrupted_checked :
    (service.run (World.initial Cloud.empty) interrupted).any (fun w => decide
      ((w.store.head "sec-a").isSome = true ∧
        ∃ entry ∈ w.store.history,
          entry.event = .deleted ⟨controlKey "sec-a" "ctl-a", "v-a"⟩)) = true := by
  decide +kernel

theorem interrupted_runs :
    (service.run (World.initial Cloud.empty) interrupted).isSome = true :=
  Option.isSome_of_any interrupted_checked

/-- Where the pass stops. -/
abbrev halted : ServiceWorld := reached Cloud.empty _ interrupted_runs

theorem head_halted : (halted.store.head "sec-a").isSome = true :=
  (reached_of_any interrupted_checked).1

theorem deleted_halted :
    halted.store.Happened (.deleted ⟨controlKey "sec-a" "ctl-a", "v-a"⟩) :=
  (reached_of_any interrupted_checked).2

end Sample

theorem retention_safe_interrupted : ∃ head, Sample.halted.store.head "sec-a" = some head ∧
    (⟨controlKey "sec-a" "ctl-a", "v-a"⟩ : ObjectReference) ∉ head.references := by
  obtain ⟨head, hhead⟩ := Option.isSome_iff_exists.mp Sample.head_halted
  exact ⟨head, hhead, (retention_safe Initial.empty (run_reached Sample.interrupted_runs)).1 _
    Sample.deleted_halted "sec-a" head hhead⟩

end Hemlig
