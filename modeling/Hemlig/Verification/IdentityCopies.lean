import Hemlig.Store.Checked
import Hemlig.Verification.IdentityPlan

/-!
# The copies of the identity migration

An object is copied only where its key has no version yet; what is there already has to have the
same contents.  So whether the copies of a plan succeed can be read off the bucket that the run
finds, and the version that a key names afterwards does not depend on the order of the copies,
nor on whether a run that was stopped made some of them (`versionAt`).

S3 makes the version ids: none of them is named before the copy exists (`Fresh`).
-/

namespace Hemlig.Scripts.MigrateSecretIdentity

open Store (Checked)

variable {copyVersionId : String → String} {copy other : ObjectCopy} {bucket bucket' : Bucket}

/-! ## One copy -/

def sourceOf (bucket : Bucket) (copy : ObjectCopy) : Option ObjectVersion :=
  headVersion bucket copy.sourceKey copy.sourceVersionId

/-- The two versions have the same contents, as far as can be seen. -/
structure SameContents (version version' : ObjectVersion) : Prop where
  checksum : version.checksumSHA256 = version'.checksumSHA256
  length : version.contentLength = version'.contentLength

/-- The version is one that contents can be compared with. -/
structure Measured (version : ObjectVersion) : Prop where
  checksum : version.checksumSHA256 ≠ none
  length : version.contentLength ≠ none

/-- The copy can be made, or is there. -/
structure Copyable (bucket : Bucket) (copy : ObjectCopy) (source : ObjectVersion) : Prop where
  found : sourceOf bucket copy = some source
  measured : Measured source
  existing : ∀ existing, headObject bucket copy.destinationKey = some existing →
    SameContents existing source

/-- The version that a key names once it has been copied to. -/
def versionAt (copyVersionId : String → String) (bucket : Bucket) (key : String) : String :=
  ((headObject bucket key).map ObjectVersion.versionId).getD (copyVersionId key)

/-- The copy with its destination. -/
def located (copyVersionId : String → String) (bucket : Bucket) (copy : ObjectCopy) : ObjectCopy :=
  { copy with destinationVersionId := some (versionAt copyVersionId bucket copy.destinationKey) }

/-- The bucket after the copy. -/
def copyInto (copyVersionId : String → String) (bucket : Bucket) (key : String)
    (source : ObjectVersion) : Bucket :=
  match headObject bucket key with
  | some _ => bucket
  | none => putVersion bucket key (copied copyVersionId source key)

theorem ensureCopied_eq_ok {result : ObjectCopy × Bucket} :
    ensureCopied copyVersionId copy bucket = .ok result ↔
      ∃ source, Copyable bucket copy source ∧
        result = (located copyVersionId bucket copy,
          copyInto copyVersionId bucket copy.destinationKey source) := by
  unfold ensureCopied located versionAt copyInto
  cases hsource : headVersion bucket copy.sourceKey copy.sourceVersionId with
  | none =>
      constructor
      · intro h
        cases h
      · intro ⟨source, hcopyable, _⟩
        exact absurd (hsource.symm.trans hcopyable.found) (by simp)
  | some source =>
      dsimp only
      have hsame : ∀ {source'}, Copyable bucket copy source' → source' = source := fun h =>
        Option.some.inj (h.found.symm.trans hsource)
      split
      · rename_i hmissing
        constructor
        · intro h
          cases h
        · intro ⟨source', hcopyable, _⟩
          obtain rfl := hsame hcopyable
          exact absurd hmissing (not_or.mpr ⟨hcopyable.measured.checksum, hcopyable.measured.length⟩)
      · rename_i hmeasured
        rw [not_or] at hmeasured
        cases hexisting : headObject bucket copy.destinationKey with
        | some existing =>
            dsimp only
            split
            · rename_i hdiffers
              constructor
              · intro h
                cases h
              · intro ⟨source', hcopyable, _⟩
                obtain rfl := hsame hcopyable
                have hcontents := hcopyable.existing existing hexisting
                exact absurd hdiffers
                  (not_or.mpr ⟨not_not.mpr hcontents.checksum, not_not.mpr hcontents.length⟩)
            · rename_i hequal
              rw [not_or, not_not, not_not] at hequal
              constructor
              · intro h
                refine ⟨source, ⟨hsource, ⟨hmeasured.1, hmeasured.2⟩, ?_⟩, (Except.ok.inj h).symm⟩
                intro found hfound
                obtain rfl := Option.some.inj (hexisting.symm.trans hfound)
                exact ⟨hequal.1, hequal.2⟩
              · intro ⟨source', hcopyable, hresult⟩
                rw [hresult]
                rfl
        | none =>
            dsimp only
            have hequal : ¬ ((copied copyVersionId source copy.destinationKey).checksumSHA256 ≠
                source.checksumSHA256 ∨
                  (copied copyVersionId source copy.destinationKey).contentLength ≠
                    source.contentLength) :=
              not_or.mpr ⟨not_not.mpr rfl, not_not.mpr rfl⟩
            rw [if_neg hequal]
            constructor
            · intro h
              refine ⟨source, ⟨hsource, ⟨hmeasured.1, hmeasured.2⟩, ?_⟩, (Except.ok.inj h).symm⟩
              intro found hfound
              exact absurd (hexisting.symm.trans hfound) (by simp)
            · intro ⟨source', hcopyable, hresult⟩
              obtain rfl := hsame hcopyable
              rw [hresult]
              rfl

/-! ## What a copy changes -/

theorem headObject_eq_none {key : String} (h : headObject bucket key = none) : bucket key = [] := by
  unfold headObject at h
  exact List.head?_eq_none_iff.mp h

theorem headObject_copyInto {key key' : String} {source : ObjectVersion} :
    headObject (copyInto copyVersionId bucket key source) key' =
      if key' = key ∧ headObject bucket key = none then some (copied copyVersionId source key)
      else headObject bucket key' := by
  unfold copyInto
  cases hexisting : headObject bucket key with
  | some existing => simp
  | none =>
      by_cases hkey : key' = key
      · simp [hkey, headObject, putVersion]
      · simp [hkey, headObject, putVersion]

/-- No copy has the version id. -/
def Fresh (copyVersionId : String → String) (copy : ObjectCopy) : Prop :=
  ∀ key, copy.sourceVersionId ≠ copyVersionId key

/-- What is copied is not changed by copies. -/
theorem sourceOf_copyInto (hfresh : Fresh copyVersionId other) {key : String}
    {source : ObjectVersion} :
    sourceOf (copyInto copyVersionId bucket key source) other = sourceOf bucket other := by
  unfold copyInto
  cases hexisting : headObject bucket key with
  | some existing => rfl
  | none =>
      unfold sourceOf headVersion putVersion
      by_cases hkey : other.sourceKey = key
      · have hid : ¬ (copied copyVersionId source key).versionId = other.sourceVersionId :=
          fun h => hfresh key h.symm
        simp only [hkey, if_true, headObject_eq_none hexisting]
        simp [hid]
      · simp only [hkey, if_false]

theorem versionAt_copyInto {key key' : String} {source : ObjectVersion} :
    versionAt copyVersionId (copyInto copyVersionId bucket key source) key' =
      versionAt copyVersionId bucket key' := by
  unfold versionAt
  rw [headObject_copyInto]
  split
  · rename_i hboth
    rw [hboth.1, hboth.2]
    rfl
  · rfl

/-! ## All copies -/

/-- The bucket after the copy, if it can be made. -/
def performCopy (copyVersionId : String → String) (bucket : Bucket) (copy : ObjectCopy) :
    Except String Bucket :=
  (ensureCopied copyVersionId copy bucket).map Prod.snd

theorem performCopy_eq_ok : performCopy copyVersionId bucket copy = .ok bucket' ↔
    ∃ source, Copyable bucket copy source ∧
      bucket' = copyInto copyVersionId bucket copy.destinationKey source := by
  unfold performCopy
  constructor
  · intro h
    cases hresult : ensureCopied copyVersionId copy bucket with
    | error issue =>
        rw [hresult] at h
        cases h
    | ok result =>
        rw [hresult] at h
        obtain ⟨source, hcopyable, rfl⟩ := ensureCopied_eq_ok.mp hresult
        exact ⟨source, hcopyable, (Except.ok.inj h).symm⟩
  · intro ⟨source, hcopyable, hbucket⟩
    rw [ensureCopied_eq_ok.mpr ⟨source, hcopyable, rfl⟩, hbucket]
    rfl

/-- What is known of a copy before it is made, if the run found the bucket `start`. -/
structure Unread (copyVersionId : String → String) (start bucket : Bucket) (copy : ObjectCopy) :
    Prop where
  fresh : Fresh copyVersionId copy
  same : sourceOf bucket copy = sourceOf start copy

/-- Copies to one key are of the same contents. -/
def Agree (start : Bucket) (copy other : ObjectCopy) : Prop :=
  copy.destinationKey = other.destinationKey → ∀ source source',
    sourceOf start copy = some source → sourceOf start other = some source' →
      SameContents source source'

/-- A copy decides about another one only where both go to one key. -/
theorem checked_copies (start : Bucket) :
    Checked (performCopy copyVersionId) (Unread copyVersionId start)
      (fun bucket copy => ∃ source, Copyable bucket copy source) (fun _ _ => True)
      (Agree start) where
  ready {bucket copy} _ := by
    simp only [performCopy_eq_ok]
    constructor
    · intro ⟨bucket', source, hcopyable, _⟩
      exact ⟨source, hcopyable⟩
    · intro ⟨source, hcopyable⟩
      exact ⟨_, source, hcopyable, rfl⟩
  given {bucket bucket' copy other} _ hother _ hperform := by
    obtain ⟨source, -, rfl⟩ := performCopy_eq_ok.mp hperform
    exact ⟨hother.fresh, (sourceOf_copyInto hother.fresh).trans hother.same⟩
  next {bucket bucket' copy other} hcopy hother _ hperform := by
    obtain ⟨source, hcopyable, rfl⟩ := performCopy_eq_ok.mp hperform
    have hstart : sourceOf start copy = some source := hcopy.same.symm.trans hcopyable.found
    constructor
    · intro ⟨source', hready⟩
      have hfound : sourceOf bucket other = some source' :=
        (sourceOf_copyInto hother.fresh).symm.trans hready.found
      constructor
      · refine ⟨source', hfound, hready.measured, fun existing hexisting => ?_⟩
        refine hready.existing existing ?_
        rw [headObject_copyInto, if_neg, hexisting]
        intro hboth
        rw [hboth.1, hboth.2] at hexisting
        cases hexisting
      · intro hkey first second hfirst hsecond
        obtain rfl := Option.some.inj (hstart.symm.trans hfirst)
        obtain rfl := Option.some.inj ((hother.same.symm.trans hfound).symm.trans hsecond)
        cases hexisting : headObject bucket copy.destinationKey with
        | some existing =>
            have hafter := hready.existing existing (by
              rw [headObject_copyInto, if_neg (by simp [hexisting]), ← hkey, hexisting])
            have hbefore := hcopyable.existing existing hexisting
            exact ⟨hbefore.checksum.symm.trans hafter.checksum,
              hbefore.length.symm.trans hafter.length⟩
        | none =>
            have hafter := hready.existing _ (by
              rw [headObject_copyInto, if_pos ⟨hkey.symm, hexisting⟩])
            exact ⟨hafter.checksum, hafter.length⟩
    · intro ⟨⟨source', hready⟩, hagree⟩
      refine ⟨source', (sourceOf_copyInto hother.fresh).trans hready.found, hready.measured, ?_⟩
      intro existing hexisting
      rw [headObject_copyInto] at hexisting
      split at hexisting
      · rename_i hboth
        obtain rfl := Option.some.inj hexisting
        have hsame := hagree hboth.1.symm source source' hstart
          (hother.same.symm.trans hready.found)
        exact ⟨hsame.checksum, hsame.length⟩
      · exact hready.existing existing hexisting

/-! ## The bucket after some copies -/

/-- The bucket was made of `start` by copies of the kind. -/
structure CopiedFrom (copyVersionId : String → String) (start : Bucket) (kind : ObjectCopy → Prop)
    (bucket : Bucket) : Prop where
  source : ∀ {copy}, Fresh copyVersionId copy → sourceOf bucket copy = sourceOf start copy
  kept : ∀ {key version}, headObject start key = some version →
    headObject bucket key = some version
  origin : ∀ {key version}, headObject bucket key = some version →
    headObject start key = some version ∨ ∃ copy source, kind copy ∧ copy.destinationKey = key ∧
      sourceOf start copy = some source ∧ version = copied copyVersionId source key

variable {start : Bucket} {kind : ObjectCopy → Prop}

theorem CopiedFrom.refl : CopiedFrom copyVersionId start kind start :=
  ⟨fun _ => rfl, id, .inl⟩

theorem CopiedFrom.versionAt (h : CopiedFrom copyVersionId start kind bucket) (key : String) :
    versionAt copyVersionId bucket key = versionAt copyVersionId start key := by
  unfold MigrateSecretIdentity.versionAt
  cases hstart : headObject start key with
  | some version => rw [h.kept hstart]
  | none =>
      cases hbucket : headObject bucket key with
      | none => rfl
      | some version =>
          rcases h.origin hbucket with hold | ⟨copy, source, -, -, -, rfl⟩
          · exact absurd (hstart.symm.trans hold) (by simp)
          · rfl

theorem CopiedFrom.performCopy (h : CopiedFrom copyVersionId start kind bucket)
    (hkind : kind copy) (hfresh : Fresh copyVersionId copy)
    (hperform : performCopy copyVersionId bucket copy = .ok bucket') :
    CopiedFrom copyVersionId start kind bucket' := by
  obtain ⟨source, hcopyable, rfl⟩ := performCopy_eq_ok.mp hperform
  refine ⟨fun hother => (sourceOf_copyInto hother).trans (h.source hother), ?_, ?_⟩
  · intro key version hversion
    rw [headObject_copyInto, if_neg, h.kept hversion]
    intro hboth
    exact absurd ((h.kept (hboth.1 ▸ hversion)).symm.trans hboth.2) (by simp)
  · intro key version hversion
    rw [headObject_copyInto] at hversion
    split at hversion
    · rename_i hboth
      exact .inr ⟨copy, source, hkind, hboth.1.symm, (h.source hfresh).symm.trans hcopyable.found,
        by rw [hboth.1, Option.some.inj hversion]⟩
    · exact h.origin hversion

theorem CopiedFrom.foldlM {copies : List ObjectCopy}
    (h : CopiedFrom copyVersionId start kind bucket) (hkind : ∀ copy ∈ copies, kind copy)
    (hfresh : ∀ copy ∈ copies, Fresh copyVersionId copy)
    (hperform : copies.foldlM (MigrateSecretIdentity.performCopy copyVersionId) bucket =
      .ok bucket') : CopiedFrom copyVersionId start kind bucket' := by
  induction copies generalizing bucket with
  | nil =>
      obtain rfl : bucket = bucket' := Except.ok.inj hperform
      exact h
  | cons copy rest ih =>
      rw [List.foldlM_cons, bind_eq_ok] at hperform
      obtain ⟨middle, hfirst, hrest⟩ := hperform
      exact ih (h.performCopy (hkind _ List.mem_cons_self) (hfresh _ List.mem_cons_self) hfirst)
        (fun other hmem => hkind _ (List.mem_cons_of_mem _ hmem))
        (fun other hmem => hfresh _ (List.mem_cons_of_mem _ hmem)) hrest

/-- Once it was made, every copy is there. -/
theorem headObject_of_foldlM {copies : List ObjectCopy}
    (hperform : copies.foldlM (performCopy copyVersionId) bucket = .ok bucket') :
    (∀ key, headObject bucket key ≠ none → headObject bucket' key ≠ none) ∧
      ∀ copy ∈ copies, headObject bucket' copy.destinationKey ≠ none := by
  induction copies generalizing bucket with
  | nil =>
      obtain rfl : bucket = bucket' := Except.ok.inj hperform
      exact ⟨fun _ => id, fun _ hmem => absurd hmem List.not_mem_nil⟩
  | cons copy rest ih =>
      rw [List.foldlM_cons, bind_eq_ok] at hperform
      obtain ⟨middle, hfirst, hrest⟩ := hperform
      obtain ⟨hkept, hmade⟩ := ih hrest
      obtain ⟨source, -, rfl⟩ := performCopy_eq_ok.mp hfirst
      constructor
      · intro key hkey
        refine hkept key ?_
        rw [headObject_copyInto]
        split
        · simp
        · exact hkey
      · rintro other (_ | ⟨_, hmem⟩)
        · refine hkept _ ?_
          rw [headObject_copyInto]
          split
          · simp
          · rename_i hnot
            exact fun hnone => hnot ⟨rfl, hnone⟩
        · exact hmade other hmem

theorem headVersion_headObject {key : String} {version : ObjectVersion}
    (h : headObject bucket key = some version) :
    headVersion bucket key version.versionId = some version := by
  unfold headObject at h
  unfold headVersion
  obtain ⟨rest, hrest⟩ := List.head?_eq_some_iff.mp h
  rw [hrest]
  simp

end Hemlig.Scripts.MigrateSecretIdentity
