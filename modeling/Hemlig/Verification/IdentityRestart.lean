import Hemlig.Verification.IdentityResume

/-!
# Starting the identity migration again

Where the migration can go on (`Continuable`), what the stopped run left is sound in turn: the
steps that remain are those that were not made, each writes what it would have written, and the
objects that the stopped run copied are found as they were copied.  So both runs together make
the writes of one run, and end in its table.
-/

namespace Hemlig.Scripts.MigrateSecretIdentity

open Store (Rewrite)
open Store.Rewrite (After Coherent)

variable {copyVersionId : String → String} {table : Table} {bucket : Bucket}
  {items rows items' : List Item} {plan : MigrationPlan} {mid final : Progress}

/-! ## What the stopped run left is sound -/

namespace Stopped

variable {done : List Step} (h : Stopped copyVersionId table bucket plan done mid)
include h

/-- The objects go where they went. -/
theorem destinationAt_eq :
    destinationAt copyVersionId mid.bucket = destinationAt copyVersionId bucket := by
  funext move sourceKey sourceVersionId
  unfold destinationAt
  cases destinationKey move sourceKey with
  | none => rfl
  | some key => exact congrArg (fun version => Except.ok (key, version)) (h.copied.versionAt key)

theorem rowAt_eq : rowAt copyVersionId mid.bucket = rowAt copyVersionId bucket := by
  funext step
  cases step with
  | copy object => rfl
  | secret move =>
      unfold rowAt targetOf
      rw [h.destinationAt_eq]
  | access move => rfl
  | notification backfill => rfl

theorem requests_before {copy : ObjectCopy} {move : SecretMove}
    (hrequest : Requests mid.table copy move) : Requests table copy move :=
  { hrequest with moved := (h.isMove_iff.mp hrequest.moved).1 }

theorem noneFresh (hfresh : NoneFresh copyVersionId table) : NoneFresh copyVersionId mid.table :=
  fun copy move hrequest => hfresh copy move (h.requests_before hrequest)

end Stopped

section Continuing

variable {done : List Step} (h : Stopped copyVersionId table bucket plan done mid)
  (hsound : Sound copyVersionId table bucket) (hcontinuable : Continuable table mid.table)

include h hsound hcontinuable

omit hsound in
/-- Rows that are kept under an environment belong to a secret whose head is still to be moved. -/
theorem ours_after {pk : String} (hscoped : (scopedSecretId pk).isSome) {move : SecretMove}
    (hmove : IsMove table move) (hpk : pk = move.targetPk) :
    ∃ other, IsMove mid.table other ∧ pk = other.targetPk := by
  obtain ⟨head, hstored, hheaded⟩ := hmove.home
  have hheadMove := IsMove.of_headed hstored hheaded
  by_cases hkept : mid.table head.key = some head
  · exact ⟨_, h.move_after hheadMove (h.not_mem_of_kept hkept), hpk.trans hmove.targetPk⟩
  · have hhash := hcontinuable.unseen head (.of_headed hstored hheaded) hkept move.environment
      hheaded.environment
    rw [hpk, hmove.targetPk, scopedSecretId_secretPk hmove.home.ne_empty hmove.home.clean.1
      hmove.home.clean.2] at hscoped
    exact absurd hhash hscoped

/-- **What is left can be planned.** -/
theorem plannable_after : Plannable mid.table := by
  have hplannable := hsound.plannable
  refine ⟨?_, ?_, ?_, ?_, ?_, ?_, ?_, ?_⟩
  · intro item hstored hlegacy hsk
    exact hplannable.heads (h.stored_of_legacy hstored hlegacy) hlegacy hsk
  · intro item secretId hstored hid
    have hbefore := h.stored_of_legacy hstored (isLegacySecretItem_of_eq_some hid)
    obtain ⟨environment, hhome⟩ := hplannable.owned hbefore hid
    have hmove : IsMove table { source := item, secretId, environment, sourcePk := item.pk
                                targetPk := secretPk environment secretId } :=
      ⟨hbefore, hid, hhome, rfl, rfl⟩
    exact ⟨environment, (h.move_after hmove (h.not_mem_of_kept hstored)).home⟩
  · intro item hstored hscoped
    rcases h.after.get item.key with ⟨_, ⟨step, hmem, rfl⟩, hwrite⟩ | ⟨-, hsame⟩
    · obtain ⟨move, rfl, hmove⟩ := only_secrets h hsound hcontinuable hmem
      rw [hstored] at hwrite
      simp only [rowAt, RowStep.write_move] at hwrite
      split at hwrite
      · rename_i hkey
        exact ours_after h hcontinuable hscoped hmove (congrArg Key.pk hkey)
      · split at hwrite <;> cases hwrite
    · obtain ⟨move, hmove, hpk⟩ := hplannable.ours (hsame.symm.trans hstored) hscoped
      exact ours_after h hcontinuable hscoped hmove hpk
  · intro item hstored hlegacy
    have hkept := others_kept h hsound hcontinuable (family_access hlegacy) (by decide)
    obtain ⟨move, hmove, rfl⟩ := hplannable.access (hkept.symm.trans hstored) hlegacy
    exact ⟨move, (isAccessMove_iff h hsound hcontinuable).mpr hmove, rfl⟩
  · intro item hstored hpending
    have hkept := others_kept h hsound hcontinuable (family_pending hpending) (by decide)
    have hbefore := hkept.symm.trans hstored
    obtain ⟨eventId, secretId, environment, heventId, hid, hhome, hsame⟩ :=
      hplannable.notifications hbefore hpending
    exact ⟨eventId, secretId, environment, heventId, hid,
      (home_named h hcontinuable hbefore (.inr hpending) hid).mpr hhome, hsame⟩
  · exact fun hmove => hplannable.complete (h.isMove_iff.mp hmove).1
  · exact fun hmove => hplannable.requests (h.isMove_iff.mp hmove).1
  · exact fun hmove hmove' =>
      hplannable.coherent (h.isMove_iff.mp hmove).1 (h.isMove_iff.mp hmove').1

/-- A row that is still to be moved has a free place to go to. -/
theorem ready_after {step : Step} (hstep : IsStep table step) (hnot : step ∉ done) :
    (rowAt copyVersionId bucket step).Ready mid.table := by
  have hready := hsound.ready hstep
  cases step with
  | copy object => exact absurd hstep id
  | secret move =>
      have hmove : IsMove table move := hstep
      show mid.table { pk := move.targetPk, sk := move.source.sk } = none
      rcases h.after.get { pk := move.targetPk, sk := move.source.sk } with
        ⟨_, ⟨other, hmem, rfl⟩, hwrite⟩ | ⟨-, hsame⟩
      · obtain ⟨move', rfl, -⟩ := only_secrets h hsound hcontinuable hmem
        have hcompatible : ({ pk := move.targetPk, sk := move.source.sk } : Key) ≠
            { pk := move'.targetPk, sk := move'.source.sk } :=
          hsound.compatible hstep (h.within _ hmem) fun heq =>
            hnot (heq ▸ hmem)
        simp only [rowAt, RowStep.write_move] at hwrite
        rw [if_neg hcompatible] at hwrite
        split at hwrite
        · exact (Option.some.inj hwrite).symm
        · cases hwrite
      · rw [hsame]
        exact hready
  | access move =>
      have hmove : IsAccessMove table move := hstep
      show mid.table { pk := move.sourcePk, sk := move.targetSk } = none
      rw [others_kept h hsound hcontinuable hmove.family (by decide)]
      exact hready
  | notification backfill =>
      obtain ⟨item, hstored, hsame⟩ := hready
      refine ⟨item, ?_, hsame⟩
      rw [others_kept h hsound hcontinuable (family_notification _) (by decide)]
      exact hstored

/-- **What is left is sound.** -/
theorem sound_after (hplan : PlanOf table plan) (hfresh : NoneFresh copyVersionId table) :
    Sound copyVersionId mid.table mid.bucket := by
  have hsource : ∀ {copy move}, Requests mid.table copy move →
      sourceOf mid.bucket copy = sourceOf bucket copy := fun hrequest =>
    h.copied.source (hfresh _ _ (h.requests_before hrequest))
  refine ⟨plannable_after h hsound hcontinuable, ?_, ?_, ?_, ?_, ?_, ?_, ?_⟩
  · exact fun hrequest hrequest' =>
      hsound.exact (h.requests_before hrequest) (h.requests_before hrequest')
  · intro copy move hrequest
    have hbefore := h.requests_before hrequest
    obtain ⟨source, hcopyable⟩ := hsound.copyable hbefore
    refine ⟨source, (hsource hrequest).trans hcopyable.found, hcopyable.measured, ?_⟩
    intro existing hexisting
    rcases h.copied.origin hexisting with hold | ⟨other, source', hother, hkey, hsource', rfl⟩
    · exact hcopyable.existing existing hold
    · obtain ⟨move', hrequest'⟩ := hplan.copies hother
      have hagree := hsound.agree hrequest' hbefore hkey source' source hsource' hcopyable.found
      exact ⟨hagree.checksum, hagree.length⟩
  · intro copy copy' move move' hrequest hrequest' hkey source source' hfound hfound'
    exact hsound.agree (h.requests_before hrequest) (h.requests_before hrequest') hkey source
      source' ((hsource hrequest).symm.trans hfound) ((hsource hrequest').symm.trans hfound')
  · intro move hmove
    rw [h.destinationAt_eq]
    exact hsound.resolvable (h.isMove_iff.mp hmove).1
  · intro step hstep
    rw [h.rowAt_eq]
    obtain ⟨hbefore, hnot⟩ := (isStep_iff h hsound hcontinuable).mp hstep
    exact ready_after h hsound hcontinuable hbefore hnot
  · intro step step' hstep hstep' hne
    rw [h.rowAt_eq]
    exact hsound.compatible ((isStep_iff h hsound hcontinuable).mp hstep).1
      ((isStep_iff h hsound hcontinuable).mp hstep').1 hne
  · intro item hstored hpending hnone
    have hkept := others_kept h hsound hcontinuable (family_pending hpending) (by decide)
    obtain ⟨backfill, hbackfill, hkey⟩ :=
      hsound.filled (hkept.symm.trans hstored) hpending hnone
    exact ⟨backfill, (isBackfill_iff h hsound hcontinuable).mpr hbackfill, hkey⟩

/-- A step that is left writes what it would have written. -/
theorem write_after {step : Step} (hstep : IsStep table step) :
    (rowAt copyVersionId mid.bucket step).write mid.table =
      (rowAt copyVersionId bucket step).write table := by
  rw [h.rowAt_eq]
  cases step with
  | copy object => exact absurd hstep id
  | secret move => rfl
  | access move => rfl
  | notification backfill =>
      funext key
      simp only [rowAt, RowStep.write_fill]
      by_cases hkey : key = notificationKey backfill.eventId
      · rw [if_pos hkey, if_pos hkey, hkey,
          others_kept h hsound hcontinuable (family_notification _) (by decide)]
      · rw [if_neg hkey, if_neg hkey]

/-- **Both runs together make the writes of one run.** -/
theorem after_both (hplan : PlanOf table plan) {again : Table}
    (hagain : After (Writes copyVersionId mid.table mid.bucket) mid.table again) :
    After (Writes copyVersionId table bucket) table again := by
  have hunion : {write | ∃ step ∈ done, write = (rowAt copyVersionId bucket step).write table} ∪
      Writes copyVersionId mid.table mid.bucket = Writes copyVersionId table bucket := by
    ext write
    constructor
    · rintro (⟨step, hmem, rfl⟩ | ⟨step, hstep, rfl⟩)
      · exact ⟨step, h.within step hmem, rfl⟩
      · have hbefore := ((isStep_iff h hsound hcontinuable).mp hstep).1
        exact ⟨step, hbefore, write_after h hsound hcontinuable hbefore⟩
    · rintro ⟨step, hstep, rfl⟩
      by_cases hmem : step ∈ done
      · exact .inl ⟨step, hmem, rfl⟩
      · exact .inr ⟨step, (isStep_iff h hsound hcontinuable).mpr ⟨hstep, hmem⟩,
          (write_after h hsound hcontinuable hstep).symm⟩
  have hboth := h.after.trans hagain (hunion ▸ hsound.coherent hplan)
  rwa [hunion] at hboth

end Continuing

end Hemlig.Scripts.MigrateSecretIdentity
