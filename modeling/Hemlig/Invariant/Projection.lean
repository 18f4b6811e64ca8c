import Hemlig.Invariant.Commit

/-!
# The access projection

A commit writes access records only if the set of readers changes; it then writes one
for every consumer of the old and the new grants.  Either way the active records
afterwards are those of the new readers.
-/

namespace Hemlig

open Store

/-! ## Readers -/

theorem mem_readers {control : ControlRevision} (h : WellFormedAcl control.acl)
    {consumerId : String} :
    consumerId ∈ readers control ↔ consumerId ∈ control.acl.map Grant.consumerId := by
  have hall : control.acl.filter (fun grant => .read ∈ grant.permissions) = control.acl :=
    List.filter_eq_self.mpr fun grant hgrant => by simp [h.read grant hgrant]
  rw [readers, hall]

theorem readers_congr {control control' : ControlRevision} (h : control.acl = control'.acl) :
    readers control = readers control' := by
  rw [readers, readers, h]

theorem hasRead_iff {acl : List Grant} (h : WellFormedAcl acl) {consumerId : String} :
    hasRead acl consumerId = true ↔ consumerId ∈ acl.map Grant.consumerId := by
  rw [hasRead, Option.any_eq_true]
  constructor
  · rintro ⟨grant, hfind, -⟩
    have hmem := List.mem_reverse.mp (List.mem_of_find?_eq_some hfind)
    obtain rfl : grant.consumerId = consumerId := by simpa using List.find?_some hfind
    exact List.mem_map_of_mem hmem
  · intro hmem
    obtain ⟨grant, hgrant, rfl⟩ := List.mem_map.mp hmem
    have hsome : (acl.reverse.find? (·.consumerId = grant.consumerId)).isSome :=
      List.find?_isSome.mpr ⟨grant, List.mem_reverse.mpr hgrant, by simp⟩
    obtain ⟨found, hfound⟩ := Option.isSome_iff_exists.mp hsome
    have hread := h.read found (List.mem_reverse.mp (List.mem_of_find?_eq_some hfound))
    exact ⟨found, hfound, by simp [hread]⟩

theorem accessItem_active {secretUid consumerId : String} {control : ControlRevision}
    (hstate : control.state ≠ .revoked) :
    (accessItem secretUid control consumerId).active = hasRead control.acl consumerId := by
  cases hread : hasRead control.acl consumerId <;>
    simp [accessItem, AccessRecord.active, hread, hstate]

theorem mem_accessItemsFor {secretUid : String} {control : ControlRevision}
    {prior : List AccessRecord} {access : AccessRecord} :
    access ∈ accessItemsFor secretUid control prior ↔
      ∃ consumerId, (consumerId ∈ prior.map AccessRecord.consumerId ∨
        consumerId ∈ control.acl.map Grant.consumerId) ∧
          accessItem secretUid control consumerId = access := by
  simp only [accessItemsFor, List.mem_map, mem_distinct, List.mem_append]

/-! ## The fast path -/

/-- **The fast path is exact.**  If the prior records are those of the old readers and
the projection is unchanged, then the new readers are the old ones. -/
theorem readers_of_unchanged {control : ControlRevision} {prior : List AccessRecord}
    {old : String → Prop} (hprior : ∀ access ∈ prior, access.active = true ↔ old access.consumerId)
    (hold : ∀ consumerId, old consumerId → ∃ access ∈ prior, access.consumerId = consumerId)
    (h : accessProjectionChanged control prior = false) (consumerId : String) :
    old consumerId ↔ consumerId ∈ readers control := by
  have hactive : old consumerId ↔
      consumerId ∈ distinct ((prior.filter (·.active)).map AccessRecord.consumerId) := by
    simp only [mem_distinct, List.mem_map, List.mem_filter]
    constructor
    · intro hc
      obtain ⟨access, haccess, rfl⟩ := hold consumerId hc
      exact ⟨access, ⟨haccess, (hprior access haccess).mpr hc⟩, rfl⟩
    · rintro ⟨access, ⟨haccess, hisActive⟩, rfl⟩
      exact (hprior access haccess).mp hisActive
  simp only [accessProjectionChanged, Bool.or_eq_false_iff, decide_eq_false_iff_not, not_not,
    List.any_eq_false, decide_eq_true_eq] at h
  obtain ⟨hlength, hsub⟩ := h
  have hperm : (distinct (readers control)).Perm
      (distinct ((prior.filter (·.active)).map AccessRecord.consumerId)) :=
    (List.subperm_of_subset (nodup_distinct _) hsub).perm_of_length_le hlength.ge
  rw [hactive, ← hperm.mem_iff, mem_distinct]

/-! ## The records after a commit -/

/-- A consumer may read a secret by its record. -/
def Cloud.Readable (s : Cloud) (u environment consumerId : String) : Prop :=
  ∃ access, s.access consumerId environment u = some access ∧ access.active = true

namespace Commitment

variable {init s s' : Cloud} {completed : CompletedMutation} {sequence pid : ℕ}
  {extendedAt : Option Time} {head : HeadRecord}

/-- A secret that never committed has no records. -/
theorem not_readable (hinv : AccessInv s) {u : String} (hhead : s.head u = some head)
    (hnot : ¬ head.Committed) (environment consumerId : String) :
    ¬ s.Readable u environment consumerId := by
  rintro ⟨access, haccess, -⟩
  obtain ⟨-, -, -, other, hother, hcommitted, -⟩ := hinv.record haccess
  obtain rfl : head = other := Option.some.inj (hhead.symm.trans hother)
  exact hnot hcommitted

/-- The prior records of an update are those of the readers before. -/
theorem prior_exact (hinv : AccessInv s) (hhead : s.head completed.prepared.secretUid = some head)
    {prior : HeadRecord} {control : ControlRevision} (hcommitted : head.Committed)
    (hcontent : head.content = prior.content)
    (hdescribes : s.Describes completed.prepared.secretUid head control)
    (hprior : PriorAccessOk s completed.prepared.secretUid prior control completed.priorAccess) :
    (∀ access ∈ completed.priorAccess,
      access.active = true ↔ access.consumerId ∈ readers control) ∧
    ∀ consumerId ∈ readers control,
      ∃ access ∈ completed.priorAccess, access.consumerId = consumerId := by
  have hversion : s.version completed.prepared.secretUid = some prior.controlVersionId :=
    Cloud.version_eq_some.mpr
      ⟨head, hhead, hcommitted, HeadRecord.controlVersionId_of_content hcontent⟩
  have hreadable := hinv.readable hhead hcommitted hdescribes
  rw [HeadRecord.environment_of_content hcontent] at hreadable
  constructor
  · intro access haccess
    have hcurrent := hprior.accurate access haccess hversion
    rw [← hreadable]
    constructor
    · exact fun hactive => ⟨access, hcurrent.symm, hactive⟩
    · rintro ⟨other, hother, hactive⟩
      obtain rfl : access = other := Option.some.inj (hcurrent.trans hother)
      exact hactive
  · intro consumerId hconsumer
    obtain ⟨access, haccess, -⟩ := (hreadable consumerId).mpr hconsumer
    obtain ⟨grant, hgrant, rfl⟩ := List.mem_map.mp hconsumer
    rcases hprior.complete grant (List.mem_of_mem_filter hgrant) with hmem | hnone
    · exact hmem
    · cases (hnone hversion).trans haccess

/-- The readers before, and what the prior records say about them. -/
theorem readable_before (hinv : Invariant init s)
    (hhead : s.head completed.prepared.secretUid = some head)
    (hpredecessor : Predecessor s completed head) :
    ∃ old : String → Prop,
      (∀ consumerId, s.Readable completed.prepared.secretUid completed.prepared.environment
        consumerId ↔ old consumerId) ∧
      ((∀ consumerId, old consumerId ↔ consumerId ∈ readers completed.prepared.control) ∨
        (∀ access ∈ completed.priorAccess, access.active = true ↔ old access.consumerId) ∧
        ∀ consumerId, old consumerId →
          ∃ access ∈ completed.priorAccess, access.consumerId = consumerId) := by
  cases hpredecessor with
  | created heq hcreates hprior haccess =>
      have hnot : ¬ head.Committed := by simp [heq, createdHead]
      refine ⟨fun _ => False, fun consumerId => ?_, .inr ?_⟩
      · simpa using not_readable hinv.access hhead hnot _ _
      · simp [haccess]
  | updated prior control hcommitted hcontent hprior hdescribes hready =>
      have henvironment : head.environment = completed.prepared.environment :=
        (HeadRecord.environment_of_content hcontent).trans hready.updates.environment.symm
      refine ⟨(· ∈ readers control), fun consumerId => ?_, ?_⟩
      · rw [← henvironment]
        exact hinv.access.readable hhead hcommitted hdescribes consumerId
      · rcases hready.access with hacl | hok
        · exact .inl fun consumerId => by rw [readers_congr hacl]
        · exact .inr (prior_exact hinv.access hhead hcommitted hcontent hdescribes hok)

variable (h : Commitment s s' completed sequence extendedAt)
include h

/-- A record that the commit writes. -/
theorem access_of_replace (hready : CommitReady pid s completed extendedAt)
    (hreplace : completed.replaceAccess = true) {consumerId : String}
    (hmem : consumerId ∈ completed.priorAccess.map AccessRecord.consumerId ∨
      consumerId ∈ completed.prepared.control.acl.map Grant.consumerId) :
    s'.access consumerId completed.prepared.environment completed.prepared.secretUid =
      some (accessItem completed.prepared.secretUid completed.prepared.control consumerId) := by
  have := h.accessWritten hreplace
    (accessItem completed.prepared.secretUid completed.prepared.control consumerId)
    (mem_accessItemsFor.mpr ⟨consumerId, hmem, rfl⟩)
  rwa [← hready.wellFormed.environment]

/-- A record that the commit does not write. -/
theorem access_of_not_mem {consumerId : String}
    (hprior : consumerId ∉ completed.priorAccess.map AccessRecord.consumerId)
    (hacl : consumerId ∉ completed.prepared.control.acl.map Grant.consumerId)
    (environment u : String) :
    s'.access consumerId environment u = s.access consumerId environment u := by
  rcases h.access consumerId environment u with hsame | ⟨-, access, haccess, hconsumer, -, -⟩
  · exact hsame
  · obtain ⟨other, hmem, rfl⟩ := mem_accessItemsFor.mp haccess
    obtain rfl : other = consumerId := hconsumer
    exact (hmem.elim hprior hacl).elim

/-- **After a commit the readers are those of the new control revision.** -/
theorem readable (hinv : Invariant init s) (hready : CommitReady pid s completed extendedAt)
    (hhead : s.head completed.prepared.secretUid = some head)
    (hpredecessor : Predecessor s completed head) (consumerId : String) :
    s'.Readable completed.prepared.secretUid completed.prepared.environment consumerId ↔
      consumerId ∈ readers completed.prepared.control := by
  obtain ⟨old, hreadable, hold⟩ := readable_before hinv hhead hpredecessor
  have hsound := hready.wellFormed.sound
  cases hreplace : completed.replaceAccess with
  | true =>
      by_cases hmem : consumerId ∈ completed.priorAccess.map AccessRecord.consumerId ∨
          consumerId ∈ completed.prepared.control.acl.map Grant.consumerId
      · simp only [Cloud.Readable, h.access_of_replace hready hreplace hmem, Option.some.injEq,
          exists_eq_left', accessItem_active hsound.state, hasRead_iff hsound.acl,
          mem_readers hsound.acl]
      · obtain ⟨hprior, hacl⟩ := not_or.mp hmem
        have hsame : s'.Readable completed.prepared.secretUid completed.prepared.environment
            consumerId ↔ old consumerId := by
          rw [← hreadable]
          simp only [Cloud.Readable, h.access_of_not_mem hprior hacl]
        rw [hsame, mem_readers hsound.acl]
        refine iff_of_false (fun hc => ?_) hacl
        rcases hold with hsame | ⟨-, hcomplete⟩
        · exact hacl ((mem_readers hsound.acl).mp ((hsame consumerId).mp hc))
        · obtain ⟨access, haccess, rfl⟩ := hcomplete consumerId hc
          exact hprior (List.mem_map_of_mem haccess)
  | false =>
      have hsame : s'.Readable completed.prepared.secretUid completed.prepared.environment
          consumerId ↔ old consumerId := by
        rw [← hreadable]
        have : ∀ environment u,
            s'.access consumerId environment u = s.access consumerId environment u :=
          fun environment u => by
            rcases h.access consumerId environment u with hkept | ⟨hreplaced, -⟩
            · exact hkept
            · cases hreplace.symm.trans hreplaced
        simp only [Cloud.Readable, this]
      rw [hsame]
      rcases hold with hold | ⟨hexact, hcomplete⟩
      · exact hold consumerId
      · exact readers_of_unchanged hexact hcomplete hreplace consumerId

end Commitment

end Hemlig
