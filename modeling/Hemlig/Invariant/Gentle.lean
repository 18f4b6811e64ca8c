import Hemlig.Invariant.Frame

/-!
# Gentle steps

A step is gentle if no secret is created, replaced or removed: rows are not settled,
heads say what they said, names and access records stay.  All steps are gentle but
three: preparing a create, committing, and undoing a create.
-/

namespace Hemlig

open Store

structure Gentle (s s' : Cloud) : Prop where
  rows : RowsKept s s'
  heads : HeadsKept s s'
  holds : HoldsKept s s'
  history : HistoryKept s s'
  known : ∀ {id}, id ∈ s.known → id ∈ s'.known
  drawn : ∀ {id pid}, s.drawnBy id = some pid → s'.drawnBy id = some pid
  drawnKnown : ∀ {id pid}, s'.drawnBy id = some pid → s.drawnBy id = some pid ∨ id ∈ s'.known
  now : s.now ≤ s'.now
  placement : s'.placement = s.placement
  environments : ∀ {name}, (s.environment name).isSome → (s'.environment name).isSome
  lookup : ∀ environment secretId, s'.lookup environment secretId = s.lookup environment secretId
  access : ∀ consumerId environment u,
    s'.access consumerId environment u = s.access consumerId environment u
  creating : ∀ {u head head'}, s.head u = some head → s'.head u = some head' →
    ¬ head.Committed → head' = head ∨ head' = DynamoRepository.unleasedHead head
  lease : ∀ {u head head' operationId}, s.head u = some head → s'.head u = some head' →
    head'.leaseOwner = some operationId → head.leaseOwner = some operationId
  index : ∀ {u sk row}, s'.index u sk = some row → s.index u sk = some row ∨
    s.workflow u sk = some row
  identityIndex : ∀ {fingerprint identity}, s'.identityIndex fingerprint = some identity →
    s.identityIndex fingerprint = some identity ∨ s.identity fingerprint = some identity
  audit : ∀ event ∈ s'.audit, event ∈ s.audit ∨
    (event.operation = "workflow.recovery" → s.Dead event.correlationId)
  objects : ∀ {key object}, s.objects key = some object →
    (∃ object', s'.objects key = some object' ∧ object'.versionId = object.versionId ∧
      object'.body = object.body) ∨ ∃ u sk, key = objectKeyOf u sk ∧ s.Superseded u sk
  bodies : ∀ {key object'}, s'.objects key = some object' →
    (∃ object, s.objects key = some object ∧ object.versionId = object'.versionId ∧
      object.body = object'.body) ∨ object'.versionId ∉ s.known ∧ object'.versionId ∈ s'.known
  kept : ∀ {reference time}, s.Kept reference time → s'.Kept reference time
  registry : s.registry.Changes s'.registry
  claims : ∀ {event claim}, event.claim = some claim → s'.Happened event →
    s.Happened event ∨ s'.registry.Claimed claim
  evidence : ∀ {event}, event ∈ s.audit → event ∈ s'.audit

/-- How the sync index moves in a step. -/
structure Moves (s s' : Cloud) : Prop where
  counters : ∀ environment, CounterLe (s.counter environment) (s'.counter environment)
  sequences : ∀ {u head head'}, s.head u = some head → s'.head u = some head' →
    head'.syncSequence = head.syncSequence ∨
      s'.counter head.environment ≠ s.counter head.environment
  unsynced : ∀ {u head'}, s'.head u = some head' → head'.Committed →
    head'.syncSequence = none → ∃ head, s.head u = some head ∧ head.Committed ∧
      head.syncSequence = none
  changes : ∀ {environment sk row}, s'.change environment sk = some row →
    s.change environment sk = some row ∨ PublishedAfter s environment sk row

theorem Gentle.evolves {s s' : Cloud} (h : Gentle s s') (hmoves : Moves s s')
    (actor : Option ℕ) : Evolves actor s s' where
  known := h.known
  drawn := h.drawn
  history := h.history.history
  placement := h.placement
  environments := h.environments
  prepared hprepared := .inl (h.history.prepared hprepared)
  rows hrow := by
    obtain ⟨row', hrow', hkept⟩ := h.rows.forward hrow
    exact ⟨row', hrow', hkept.step, fun hnot hsettled => (hnot (hkept.settled hsettled)).elim⟩
  heads hhead hcommitted := by
    obtain ⟨head', hhead', hcontent⟩ := h.heads.forward hhead
    exact ⟨head', hhead', (HeadRecord.committed_of_content hcontent).mpr hcommitted, .inl hcontent⟩
  identity := by
    intro u head head' hhead hhead'
    obtain ⟨other, hother, hcontent⟩ := h.heads.forward hhead
    obtain rfl : head' = other := by simpa [hhead'] using hother
    exact ⟨HeadRecord.environment_of_content hcontent, HeadRecord.secretId_of_content hcontent⟩
  births := by
    intro u head' hnone hhead'
    obtain ⟨head, hhead, -⟩ := h.heads.backward hhead'
    simp [hnone] at hhead
  leases hhead' howner := by
    obtain ⟨head, hhead, -⟩ := h.heads.backward hhead'
    exact .inl ⟨head, hhead, h.lease hhead hhead' howner⟩
  lookups hlookup := .inl ((h.lookup _ _).trans hlookup)
  archived harchived := .inl (h.history.archivedAt harchived)
  access consumerId environment u := .inl (h.access consumerId environment u)
  objects := h.objects
  bodies := by
    intro reference object' hknown hobject'
    obtain ⟨hstored', hversion'⟩ := Option.filter_eq_some_iff.mp hobject'
    have hsame' : object'.versionId = reference.versionId := by simpa using hversion'
    rcases h.bodies hstored' with ⟨object, hstored, hsame, hbody⟩ | ⟨hfresh, -⟩
    · exact ⟨object, Option.filter_eq_some_iff.mpr ⟨hstored, by simp [hsame, hsame']⟩, hbody⟩
    · exact (hfresh (hsame' ▸ hknown)).elim
  kept := h.kept
  counters := hmoves.counters
  sequences := hmoves.sequences
  unsynced := hmoves.unsynced
  changes := hmoves.changes
  registry := h.registry.extends
  evidence := h.evidence

/-- A step that is gentle and leaves the index alone. -/
theorem SyncKept.moves {s s' : Cloud} (h : SyncKept s s') (hheads : HeadsKept s s') :
    Moves s s' where
  counters environment := by
    rw [Cloud.counter, Cloud.counter, h.state]
    exact CounterLe.refl _
  sequences hhead hhead' := .inl (h.sequence hhead hhead')
  unsynced hhead' hcommitted' hnone := by
    obtain ⟨head, hhead, hcontent⟩ := hheads.backward hhead'
    exact ⟨head, hhead, (HeadRecord.committed_of_content hcontent).mp hcommitted',
      (h.sequence hhead hhead').symm.trans hnone⟩
  changes hrow := .inl ((h.change _ _).symm.trans hrow)

theorem Gentle.invariant {init s s' : Cloud} (h : Gentle s s') (hinv : Invariant init s)
    (hmoves : Moves s s') (hsync : SyncInv s') (hretention : RetentionInv s')
    (hcapabilities : CapabilitiesStep s s') : Invariant init s' where
  rows := hinv.rows.transfer h.rows h.index h.known
    (fun hhead hcommitted => by
      obtain ⟨head', hhead', hcontent⟩ := h.heads.forward hhead
      exact ⟨head', hhead', (HeadRecord.committed_of_content hcontent).mpr hcommitted⟩) h.history
  heads := hinv.heads.transfer h.heads h.holds h.rows h.environments h.creating h.lease h.history
  names := hinv.names.transfer h.heads h.lookup h.history
  access := hinv.access.transfer hinv.heads h.heads h.holds h.access h.history
  sync := hsync
  history := hinv.history.transfer h.heads h.history (h.evolves hmoves none).dead h.audit
  known := hinv.known.transfer h.known h.drawnKnown
    (fun hobject => (h.bodies hobject).elim
      (fun ⟨_, hold, hversion, _⟩ => hversion ▸ h.known (hinv.known.object hold)) And.right)
    h.history
  retention := hretention
  records := hinv.records.transfer h.registry.extends h.claims
  identities := hinv.identities.transfer h.registry h.identityIndex
  capabilities := hinv.capabilities.transfer hcapabilities h.known h.history.history

/-- A gentle step that neither touches the index nor deletes an object. -/
theorem Gentle.invariant_of_kept {init s s' : Cloud} (h : Gentle s s') (hinv : Invariant init s)
    (hsync : SyncKept s s') (hcapabilities : CapabilitiesStep s s')
    (hdeleted : ∀ {reference}, s'.Happened (.deleted reference) →
      s.Happened (.deleted reference))
    (hgone : ∀ {reference}, reference.versionId ∈ s.known → s.object reference = none →
      s'.object reference = none) : Invariant init s' :=
  h.invariant hinv (hsync.moves h.heads)
    (hinv.sync.transfer h.heads h.holds hsync h.history.history)
    (hinv.retention.transfer h.known hdeleted hgone h.kept h.history) hcapabilities

/-- A gentle step that keeps the invariant and disturbs nobody. -/
structure Quiet (init s s' : Cloud) : Prop where
  gentle : Gentle s s'
  invariant : Invariant init s'
  evolves : ∀ actor, Evolves actor s s'

theorem Gentle.quiet {init s s' : Cloud} (h : Gentle s s') (hinv : Invariant init s)
    (hmoves : Moves s s') (hsync : SyncInv s') (hretention : RetentionInv s')
    (hcapabilities : CapabilitiesStep s s') : Quiet init s s' :=
  ⟨h, h.invariant hinv hmoves hsync hretention hcapabilities,
    fun actor => h.evolves hmoves actor⟩

theorem Gentle.quiet_of_kept {init s s' : Cloud} (h : Gentle s s') (hinv : Invariant init s)
    (hsync : SyncKept s s') (hcapabilities : CapabilitiesStep s s')
    (hdeleted : ∀ {reference}, s'.Happened (.deleted reference) → s.Happened (.deleted reference))
    (hgone : ∀ {reference}, reference.versionId ∈ s.known → s.object reference = none →
      s'.object reference = none) : Quiet init s s' :=
  ⟨h, h.invariant_of_kept hinv hsync hcapabilities hdeleted hgone,
    fun actor => h.evolves (hsync.moves h.heads) actor⟩

/-! ## Steps outside the control table -/

/-- Nothing but what is known, drawn, indexed or audited changes, and time. -/
theorem Gentle.refl (s : Cloud) : Gentle s s where
  rows := .of_eq fun _ _ => rfl
  heads := .of_eq fun _ => rfl
  holds := .of_eq (fun _ _ => rfl) (.of_eq rfl)
  history := .of_eq rfl
  known := id
  drawn := id
  drawnKnown := .inl
  now := le_rfl
  placement := rfl
  environments := id
  lookup _ _ := rfl
  access _ _ _ := rfl
  creating hhead hhead' _ := .inl (by simpa [hhead] using hhead'.symm)
  lease hhead hhead' howner := by
    obtain rfl := by simpa [hhead] using hhead'
    exact howner
  index := .inl
  identityIndex := .inl
  audit _ := .inl
  objects hobject := .inl ⟨_, hobject, rfl, rfl⟩
  bodies hobject := .inl ⟨_, hobject, rfl, rfl⟩
  kept := id
  registry := .refl _
  claims _ := .inl
  evidence := id

theorem SyncKept.refl (s : Cloud) : SyncKept s s where
  state _ := rfl
  change _ _ := rfl
  sequence hhead hhead' := by
    obtain rfl := by simpa [hhead] using hhead'
    rfl

theorem Quiet.refl {init s : Cloud} (hinv : Invariant init s) : Quiet init s s :=
  ⟨.refl s, hinv, fun actor =>
    (Gentle.refl s).evolves ((SyncKept.refl s).moves (Gentle.refl s).heads) actor⟩

variable {init s : Cloud}

/-- New identifiers are known; some have an owner. -/
theorem Gentle.learn {known : List String} {drawnBy : String → Option ℕ}
    (hdrawn : ∀ {id pid}, s.drawnBy id = some pid → drawnBy id = some pid)
    (hknown : ∀ {id pid}, drawnBy id = some pid → s.drawnBy id = some pid ∨ id ∈ known) :
    Gentle s { s with known := known ++ s.known, drawnBy := drawnBy } :=
  { Gentle.refl s with
    history := .of_eq rfl
    known := fun hid => List.mem_append_right _ hid
    drawn := hdrawn
    drawnKnown := fun hid => (hknown hid).imp_right fun h => List.mem_append_left _ h
    bodies := fun hobject => .inl ⟨_, hobject, rfl, rfl⟩
    kept := fun hkept => hkept.mono (fun hid => List.mem_append_right _ hid)
      (fun object' hobject' => ⟨object', hobject', fun r hr => ⟨r, hr, le_rfl⟩⟩)
      fun _ h => .inl h }

theorem Gentle.audit_write {event : AuditEvent}
    (h : event.operation = "workflow.recovery" → s.Dead event.correlationId) :
    Gentle s { s with audit := s.audit ++ [event] } :=
  { Gentle.refl s with
    history := .of_eq rfl
    audit := fun other hother => by
      rcases List.mem_append.mp hother with hold | hnew
      · exact .inl hold
      · exact .inr fun hoperation => by
          obtain rfl := List.mem_singleton.mp hnew
          exact h hoperation
    evidence := fun hevent => List.mem_append_left _ hevent
    kept := fun hkept => ⟨hkept.known, hkept.locked, hkept.deleted⟩ }

theorem Gentle.tick (elapsed : Time) : Gentle s { s with now := s.now + elapsed } :=
  { Gentle.refl s with
    history := .of_eq rfl
    now := Nat.le_add_right _ _
    kept := fun hkept => ⟨hkept.known, hkept.locked, hkept.deleted⟩ }

theorem Gentle.replicateIdentity (fingerprint : String) :
    Gentle s { s with identityIndex := fun fingerprint' =>
      if fingerprint' = fingerprint then s.identity fingerprint'
      else s.identityIndex fingerprint' } :=
  { Gentle.refl s with
    history := .of_eq rfl
    identityIndex := fun {fingerprint' identity} hidentity => by
      simp only at hidentity
      split at hidentity
      · exact .inr hidentity
      · exact .inl hidentity
    kept := fun hkept => ⟨hkept.known, hkept.locked, hkept.deleted⟩ }

theorem Gentle.replicate (secretUid : String) (sk : WorkflowSk) :
    Gentle s { s with index := fun u sk' =>
      if u = secretUid ∧ sk' = sk then s.workflow u sk' else s.index u sk' } :=
  { Gentle.refl s with
    history := .of_eq rfl
    index := fun {u sk' row} hrow => by
      simp only at hrow
      split at hrow
      · exact .inr hrow
      · exact .inl hrow
    kept := fun hkept => ⟨hkept.known, hkept.locked, hkept.deleted⟩ }

/-- The events that say nothing of secrets and their objects. -/
def Event.ofOthers : Event → Bool
  | .truststoreReconciled | .enrolled _ | .rotated _ _ _ _ _ | .revoked _ _ _ _ _ | .granted _
  | .activated _ _ | .issued _ | .consumed _ _ => true
  | _ => false

/-- A gentle write to the table that the history keeps. -/
theorem Gentle.recorded {table : Table Key Item} {event : Event}
    (h : Gentle s { s with table := table }) (hevent : event.ofOthers = true)
    (hclaims : ∀ {claim}, event.claim = some claim → (Registry.ofTable table).Claimed claim) :
    Gentle s ({ s with table := table }.record event) :=
  { h with
    claims := fun hclaim hhappened => by
      rcases hhappened.of_append rfl with hold | rfl
      · exact .inl hold
      · exact .inr (hclaims hclaim)
    history := .of_append rfl (fun _ heq => by simp [heq, Event.ofOthers] at hevent)
      fun _ _ _ heq => by simp [heq, Event.ofOthers] at hevent
    kept := fun hkept => hkept.mono id
      (fun object' hobject' => ⟨object', hobject', fun r hr => ⟨r, hr, le_rfl⟩⟩)
      fun entry hentry => by
        rcases List.mem_append.mp hentry with hold | hnew
        · exact .inl hold
        · refine .inr fun heq => ?_
          rw [List.mem_singleton.mp hnew] at heq
          simp [show event = _ from heq, Event.ofOthers] at hevent }

theorem Gentle.quiet_of_recorded {init : Cloud} {table : Table Key Item} {event : Event}
    (h : Gentle s { s with table := table }) (hinv : Invariant init s)
    (hsync : SyncKept s { s with table := table }) (hevent : event.ofOthers = true)
    (hclaims : ∀ {claim}, event.claim = some claim → (Registry.ofTable table).Claimed claim)
    (hcapabilities : CapabilitiesStep s ({ s with table := table }.record event)) :
    Quiet init s ({ s with table := table }.record event) := by
  refine (h.recorded hevent hclaims).quiet_of_kept hinv { hsync with } hcapabilities
    (fun hdeleted => ?_)
    fun _ hnone => hnone
  rcases hdeleted.of_append rfl with hold | rfl
  · exact hold
  · cases hevent

/-! ## Objects -/

/-- A new object under a new version. -/
theorem Gentle.put {key : ObjectKey} {versionId : String} {body : ObjectBody}
    {retainUntil : Option Time} (hnone : s.objects key = none) (hfresh : versionId ∉ s.known) :
    Gentle s ({ s with known := versionId :: s.known }.setObject key
      (some ⟨versionId, body, retainUntil⟩)) := by
  have hobjects : ∀ {k object}, s.objects k = some object →
      Function.update s.objects key (some ⟨versionId, body, retainUntil⟩) k = some object := by
    intro k object hobject
    rw [Function.update_of_ne (fun hkey => by simp [hkey, hnone] at hobject), hobject]
  refine
    { Gentle.refl s with
      history := .of_eq rfl
      holds := .of_eq (fun _ _ => rfl) fun k object hobject => ⟨object, hobjects hobject, rfl, rfl⟩
      known := fun hid => List.mem_cons_of_mem _ hid
      drawnKnown := .inl
      objects := fun hobject => .inl ⟨_, hobjects hobject, rfl, rfl⟩
      bodies := ?_
      kept := ?_ }
  · intro k object hobject
    simp only [Cloud.setObject] at hobject
    by_cases hkey : k = key
    · subst hkey
      rw [Function.update_self] at hobject
      cases hobject
      exact .inr ⟨hfresh, by simp [Cloud.setObject]⟩
    · rw [Function.update_of_ne hkey] at hobject
      exact .inl ⟨object, hobject, rfl, rfl⟩
  · intro reference time hkept
    refine hkept.mono (fun hid => List.mem_cons_of_mem _ hid) (fun object' hobject' => ?_)
      fun _ h => .inl h
    simp only [Cloud.object, Cloud.setObject] at hobject'
    by_cases hkey : reference.key = key
    · rw [hkey, Function.update_self] at hobject'
      obtain ⟨hsame, hversion⟩ := Option.filter_eq_some_iff.mp hobject'
      cases hsame
      exact (hfresh (by simpa [show versionId = reference.versionId by simpa using hversion]
        using hkept.known)).elim
    · rw [Function.update_of_ne hkey] at hobject'
      exact ⟨object', hobject', fun r hr => ⟨r, hr, le_rfl⟩⟩

/-- A longer lock. -/
theorem Gentle.extend {reference : ObjectReference} {object : StoredObject} {retainUntil : Time}
    (hobject : s.object reference = some object)
    (hlonger : object.retainUntil.any (retainUntil < ·) = false) :
    Gentle s (s.setObject reference.key
      (some { object with retainUntil := some retainUntil })) := by
  obtain ⟨hstored, hversion⟩ := Option.filter_eq_some_iff.mp hobject
  have hobjects : ∀ {k other}, s.objects k = some other →
      ∃ other', Function.update s.objects reference.key
        (some { object with retainUntil := some retainUntil }) k = some other' ∧
          other'.versionId = other.versionId ∧ other'.body = other.body := by
    intro k other hother
    by_cases hkey : k = reference.key
    · subst hkey
      obtain rfl : object = other := by simpa [hstored] using hother
      exact ⟨_, Function.update_self .., rfl, rfl⟩
    · exact ⟨other, by rw [Function.update_of_ne hkey, hother], rfl, rfl⟩
  refine
    { Gentle.refl s with
      history := .of_eq rfl
      holds := .of_eq (fun _ _ => rfl) fun k other hother => hobjects hother
      objects := fun hother => .inl (hobjects hother)
      bodies := ?_
      kept := ?_ }
  · intro k other hother
    simp only [Cloud.setObject] at hother
    by_cases hkey : k = reference.key
    · subst hkey
      rw [Function.update_self] at hother
      cases hother
      exact .inl ⟨object, hstored, rfl, rfl⟩
    · rw [Function.update_of_ne hkey] at hother
      exact .inl ⟨other, hother, rfl, rfl⟩
  · intro target time hkept
    refine hkept.mono id (fun object' hobject' => ?_) fun _ h => .inl h
    simp only [Cloud.object, Cloud.setObject] at hobject'
    by_cases hkey : target.key = reference.key
    · rw [hkey, Function.update_self] at hobject'
      obtain ⟨hsame, htarget⟩ := Option.filter_eq_some_iff.mp hobject'
      cases hsame
      refine ⟨object, by rw [Cloud.object, hkey, hstored]; simpa using htarget,
        fun r hr => ⟨retainUntil, rfl, ?_⟩⟩
      simpa [hr] using hlonger
    · rw [Function.update_of_ne hkey] at hobject'
      exact ⟨object', hobject', fun r hr => ⟨r, hr, le_rfl⟩⟩

/-- The object of a superseded revision is deleted when its lock has ended. -/
theorem Gentle.delete {reference : ObjectReference} {object : StoredObject}
    (hobject : s.object reference = some object)
    (hlock : object.locked s.now = false) {u : String} {sk : WorkflowSk}
    (hkey : reference.key = objectKeyOf u sk) (hsuperseded : s.Superseded u sk) :
    Gentle s ((s.setObject reference.key none).record (.deleted reference)) := by
  obtain ⟨hstored, hversion⟩ := Option.filter_eq_some_iff.mp hobject
  refine
    { Gentle.refl s with
      holds := ?_
      history := .of_append rfl (by simp) (by simp)
      claims := fun hclaim hevent => (hevent.of_append rfl).imp_right fun heq => by
        rw [heq] at hclaim
        cases hclaim
      objects := ?_
      bodies := ?_
      kept := ?_ }
  · rintro u' head sk' versionId body hhead hcommitted hnames ⟨hrow, other, hother, hrest⟩
    refine ⟨hrow, other, ?_, hrest⟩
    have hne : objectKeyOf u' sk' ≠ reference.key := by
      intro hsame
      obtain ⟨rfl, rfl⟩ := objectKeyOf_inj (hsame.trans hkey)
      exact hsuperseded.2 head hhead hnames
    simp only [Cloud.record, Cloud.setObject]
    rw [Function.update_of_ne hne, hother]
  · intro k other hother
    by_cases hsame : k = reference.key
    · exact .inr ⟨u, sk, hsame.trans hkey, hsuperseded⟩
    · refine .inl ⟨other, ?_, rfl, rfl⟩
      simp only [Cloud.record, Cloud.setObject]
      rw [Function.update_of_ne hsame, hother]
  · intro k other hother
    simp only [Cloud.record, Cloud.setObject] at hother
    by_cases hsame : k = reference.key
    · rw [hsame, Function.update_self] at hother
      cases hother
    · rw [Function.update_of_ne hsame] at hother
      exact .inl ⟨other, hother, rfl, rfl⟩
  · intro target time hkept
    refine ⟨hkept.known, fun other hother => ?_, fun entry hentry hevent => ?_⟩
    · simp only [Cloud.object, Cloud.record, Cloud.setObject] at hother
      by_cases hsame : target.key = reference.key
      · rw [hsame, Function.update_self] at hother
        simp at hother
      · rw [Function.update_of_ne hsame] at hother
        exact hkept.locked other hother
    · simp only [Cloud.record, Cloud.setObject] at hentry
      rcases List.mem_append.mp hentry with hold | hnew
      · exact hkept.deleted entry hold hevent
      · rw [List.mem_singleton.mp hnew] at hevent ⊢
        obtain rfl : reference = target := by simpa using hevent
        obtain ⟨until', hretain, htime⟩ := hkept.locked object hobject
        have : ¬ s.now < until' := by simpa [StoredObject.locked, hretain] using hlock
        exact htime.trans (not_lt.mp this)

end Hemlig
