import Hemlig.Invariant.Discipline

/-!
# Frames

Most steps leave most of the cloud alone.  Each lemma here transfers one part of the
invariant along a step that keeps what that part is about; the modules after this
one only argue about the parts that a step really changes.
-/

namespace Hemlig

open Store DynamoRepository

/-! ## Describing heads -/

theorem Cloud.Describes.unique {s : Cloud} {u : String} {head : HeadRecord}
    {control control' : ControlRevision} (h : s.Describes u head control)
    (h' : s.Describes u head control') : control = control' := by
  obtain ⟨-, -, -, ⟨⟨row, hrow, -, -, hserialized⟩, -⟩⟩ := h.stored
  obtain ⟨-, -, -, ⟨⟨row', hrow', -, -, hserialized'⟩, -⟩⟩ := h'.stored
  obtain rfl : row = row' := by simpa [hrow] using hrow'
  simpa using hserialized.symm.trans hserialized'

/-- Another head with the same content, over a cloud that still holds what it names. -/
theorem Cloud.Describes.mono {s s' : Cloud} {u : String} {head head' : HeadRecord}
    {control : ControlRevision} (h : s.Describes u head control)
    (hcontent : head'.content = head.content)
    (hholds : ∀ sk versionId body, head.Names sk → s.Holds u sk versionId body →
      s'.Holds u sk versionId body) : s'.Describes u head' control := by
  have hfield : ∀ {α : Type} (f : HeadRecord → α), (∀ other : HeadRecord, f other.content = f other) →
      f head' = f head := fun f hf => by rw [← hf head', hcontent, hf]
  have hcv := hfield HeadRecord.controlVersionId fun _ => rfl
  have hpayload := hfield HeadRecord.payloadVersionId fun _ => rfl
  refine ⟨?_, ?_, ?_, ?_, ?_, ?_, ?_, ?_⟩
  · obtain ⟨versionId, hversion, hkey, hrow⟩ := h.stored
    refine ⟨versionId, (hfield HeadRecord.controlObjectVersionId fun _ => rfl).trans hversion, ?_, ?_⟩
    · rw [hcv]
      exact (hfield HeadRecord.controlObjectKey fun _ => rfl).trans hkey
    · rw [hcv]
      exact hholds _ _ _ (by simp) hrow
  · exact h.secretId.trans (hfield HeadRecord.secretId fun _ => rfl).symm
  · exact h.environment.trans (hfield HeadRecord.environment fun _ => rfl).symm
  · exact h.state.trans (hfield HeadRecord.state fun _ => rfl).symm
  · exact h.metadata.trans (hfield HeadRecord.metadata fun _ => rfl).symm
  · exact h.payloadVersionId.trans hpayload.symm
  · intro payloadVersionId hsome
    rw [hpayload] at hsome
    obtain ⟨versionId, revision, hversion, hkey, hrow⟩ := h.payload payloadVersionId hsome
    exact ⟨versionId, revision, (hfield HeadRecord.payloadObjectVersionId fun _ => rfl).trans hversion,
      (hfield HeadRecord.payloadObjectKey fun _ => rfl).trans hkey,
      hholds _ _ _ (by simpa using hsome) hrow⟩
  · intro hnone
    rw [hpayload] at hnone
    obtain ⟨hversion, hkey⟩ := h.noPayload hnone
    exact ⟨(hfield HeadRecord.payloadObjectVersionId fun _ => rfl).trans hversion,
      (hfield HeadRecord.payloadObjectKey fun _ => rfl).trans hkey⟩

/-! ## Steps that keep rows and heads -/

/-- A row that is not settled by the step. -/
structure RowKept (row row' : StoredWorkflow) : Prop where
  step : RowStep row row'
  settled : row'.Settled → row.Settled
  ok : ∀ {known u sk}, WorkflowOk known u sk row → WorkflowOk known u sk row'

theorem RowKept.refl (row : StoredWorkflow) : RowKept row row := ⟨.refl row, id, id⟩

/-- No row appears, disappears or is settled. -/
def RowsKept (s s' : Cloud) : Prop :=
  ∀ u sk, Option.Rel RowKept (s.workflow u sk) (s'.workflow u sk)

theorem RowsKept.of_eq {s s' : Cloud} (h : ∀ u sk, s'.workflow u sk = s.workflow u sk) :
    RowsKept s s' := by
  intro u sk
  rw [h u sk]
  cases s.workflow u sk with
  | none => exact .none
  | some row => exact .some (.refl row)

theorem RowsKept.forward {s s' : Cloud} (h : RowsKept s s') {u : String} {sk : WorkflowSk}
    {row : StoredWorkflow} (hrow : s.workflow u sk = some row) :
    ∃ row', s'.workflow u sk = some row' ∧ RowKept row row' := by
  have hrel := h u sk
  rw [hrow] at hrel
  cases hrow' : s'.workflow u sk with
  | none =>
      rw [hrow'] at hrel
      cases hrel
  | some row' =>
      rw [hrow'] at hrel
      cases hrel with
      | some hkept => exact ⟨row', rfl, hkept⟩

theorem RowsKept.backward {s s' : Cloud} (h : RowsKept s s') {u : String} {sk : WorkflowSk}
    {row' : StoredWorkflow} (hrow' : s'.workflow u sk = some row') :
    ∃ row, s.workflow u sk = some row ∧ RowKept row row' := by
  have hrel := h u sk
  rw [hrow'] at hrel
  cases hrow : s.workflow u sk with
  | none =>
      rw [hrow] at hrel
      cases hrel
  | some row =>
      rw [hrow] at hrel
      cases hrel with
      | some hkept => exact ⟨row, rfl, hkept⟩

/-- Two heads that say the same. -/
def SameContent (head head' : HeadRecord) : Prop := head'.content = head.content

/-- No head appears, disappears or is replaced. -/
def HeadsKept (s s' : Cloud) : Prop :=
  ∀ u, Option.Rel SameContent (s.head u) (s'.head u)

theorem HeadsKept.of_eq {s s' : Cloud} (h : ∀ u, s'.head u = s.head u) : HeadsKept s s' := by
  intro u
  rw [h u]
  cases s.head u with
  | none => exact .none
  | some head => exact .some rfl

theorem HeadsKept.forward {s s' : Cloud} (h : HeadsKept s s') {u : String} {head : HeadRecord}
    (hhead : s.head u = some head) :
    ∃ head', s'.head u = some head' ∧ head'.content = head.content := by
  have hrel := h u
  rw [hhead] at hrel
  cases hhead' : s'.head u with
  | none =>
      rw [hhead'] at hrel
      cases hrel
  | some head' =>
      rw [hhead'] at hrel
      cases hrel with
      | some hsame => exact ⟨head', rfl, hsame⟩

theorem HeadsKept.backward {s s' : Cloud} (h : HeadsKept s s') {u : String} {head' : HeadRecord}
    (hhead' : s'.head u = some head') :
    ∃ head, s.head u = some head ∧ head'.content = head.content := by
  have hrel := h u
  rw [hhead'] at hrel
  cases hhead : s.head u with
  | none =>
      rw [hhead] at hrel
      cases hrel
  | some head =>
      rw [hhead] at hrel
      cases hrel with
      | some hsame => exact ⟨head, rfl, hsame⟩

section Content

variable {head head' : HeadRecord} (h : head'.content = head.content)
include h

theorem HeadRecord.committed_of_content : head'.Committed ↔ head.Committed := by
  show head'.content.workflowState = .ready ↔ head.content.workflowState = .ready
  rw [h]

theorem HeadRecord.environment_of_content : head'.environment = head.environment := by
  rw [show head'.environment = head'.content.environment from rfl, h]
  rfl

theorem HeadRecord.secretId_of_content : head'.secretId = head.secretId := by
  rw [show head'.secretId = head'.content.secretId from rfl, h]
  rfl

theorem HeadRecord.secretUid_of_content : head'.secretUid = head.secretUid := by
  rw [show head'.secretUid = head'.content.secretUid from rfl, h]
  rfl

theorem HeadRecord.state_of_content : head'.state = head.state := by
  rw [show head'.state = head'.content.state from rfl, h]
  rfl

end Content

/-- Whatever a committed head names stays committed and stored. -/
def HoldsKept (s s' : Cloud) : Prop :=
  ∀ u head sk versionId body, s.head u = some head → head.Committed → head.Names sk →
    s.Holds u sk versionId body → s'.Holds u sk versionId body

/-- Objects stay what they are, but for their locks. -/
def ObjectsKept (s s' : Cloud) : Prop :=
  ∀ key object, s.objects key = some object → ∃ object', s'.objects key = some object' ∧
    object'.versionId = object.versionId ∧ object'.body = object.body

theorem ObjectsKept.of_eq {s s' : Cloud} (h : s'.objects = s.objects) : ObjectsKept s s' :=
  fun _ object hobject => ⟨object, h ▸ hobject, rfl, rfl⟩

theorem HoldsKept.of_eq {s s' : Cloud} (hrows : ∀ u sk, s'.workflow u sk = s.workflow u sk)
    (hobjects : ObjectsKept s s') : HoldsKept s s' := by
  rintro u head sk versionId body - - - ⟨⟨row, hrow, hrest⟩, object, hobject, hversion, hbody⟩
  obtain ⟨object', hobject', hversion', hbody'⟩ := hobjects _ object hobject
  exact ⟨⟨row, (hrows u sk).trans hrow, hrest⟩, object', hobject', hversion'.trans hversion,
    hbody'.trans hbody⟩

/-- The description of a head carries over. -/
theorem HoldsKept.describes {s s' : Cloud} (h : HoldsKept s s') {u : String}
    {head head' : HeadRecord} {control : ControlRevision} (hhead : s.head u = some head)
    (hcommitted : head.Committed) (hcontent : head'.content = head.content)
    (hdescribes : s.Describes u head control) : s'.Describes u head' control :=
  hdescribes.mono hcontent fun sk versionId body hnames hholds =>
    h u head sk versionId body hhead hcommitted hnames hholds

theorem HeadsKept.version {s s' : Cloud} (h : HeadsKept s s') (u : String) :
    s'.version u = s.version u := by
  cases hhead : s.head u with
  | none =>
      have hrel := h u
      rw [hhead] at hrel
      cases hhead' : s'.head u with
      | none => simp [Cloud.version, hhead, hhead']
      | some head' =>
          rw [hhead'] at hrel
          cases hrel
  | some head =>
      obtain ⟨head', hhead', hcontent⟩ := h.forward hhead
      have hcommitted := HeadRecord.committed_of_content hcontent
      have hcv := HeadRecord.controlVersionId_of_content hcontent
      simp only [Cloud.version, hhead, hhead', Option.filter_some, hcommitted]
      split <;> simp [hcv]

theorem HeadsKept.payloadVersion {s s' : Cloud} (h : HeadsKept s s') (u : String) :
    s'.payloadVersion u = s.payloadVersion u := by
  cases hhead : s.head u with
  | none =>
      have hrel := h u
      rw [hhead] at hrel
      cases hhead' : s'.head u with
      | none => simp [Cloud.payloadVersion, hhead, hhead']
      | some head' =>
          rw [hhead'] at hrel
          cases hrel
  | some head =>
      obtain ⟨head', hhead', hcontent⟩ := h.forward hhead
      have hcommitted := HeadRecord.committed_of_content hcontent
      have hpayload := HeadRecord.payloadVersionId_of_content hcontent
      simp only [Cloud.payloadVersion, hhead, hhead', Option.filter_some, hcommitted]
      split <;> simp [hpayload]

/-! ## Transfer -/

/-- The history grows by events that no part of the invariant but retention and the
index is about. -/
structure HistoryKept (s s' : Cloud) : Prop where
  history : s.history <+: s'.history
  entry : ∀ entry ∈ s'.history, entry ∈ s.history ∨
    (entry.known = s.known ∧ entry.time = s.now ∧
      (∀ mutation, entry.event ≠ .prepared mutation) ∧
      ∀ completed sequence extendedAt, entry.event ≠ .committed completed sequence extendedAt)
  commits : ∀ u, s'.commits u = s.commits u

theorem HistoryKept.of_eq {s s' : Cloud} (h : s'.history = s.history) : HistoryKept s s' where
  history := h ▸ List.prefix_rfl
  entry _ hentry := .inl (h ▸ hentry)
  commits u := by simp [Cloud.commits, h]

/-- The history of a recorded event that is neither a preparation nor a commit. -/
theorem HistoryKept.of_append {s s' : Cloud} {event : Event}
    (h : s'.history = s.history ++ [⟨s.now, s.known, event⟩])
    (hprepared : ∀ mutation, event ≠ .prepared mutation)
    (hcommitted : ∀ completed sequence extendedAt, event ≠ .committed completed sequence extendedAt) :
    HistoryKept s s' where
  history := h ▸ List.prefix_append _ _
  entry entry hentry := by
    rw [h] at hentry
    rcases List.mem_append.mp hentry with hold | hnew
    · exact .inl hold
    · rw [List.mem_singleton.mp hnew]
      exact .inr ⟨rfl, rfl, hprepared, hcommitted⟩
  commits u := by
    simp only [Cloud.commits, h, List.filterMap_append]
    cases event <;> simp_all

namespace HistoryKept

variable {s s' : Cloud} (h : HistoryKept s s')
include h

theorem prepared {mutation : PreparedMutation} (hprepared : s'.Prepared mutation) :
    s.Prepared mutation := by
  obtain ⟨entry, hentry, hevent⟩ := hprepared
  rcases h.entry entry hentry with hold | ⟨-, -, hnot, -⟩
  · exact ⟨entry, hold, hevent⟩
  · exact (hnot mutation hevent).elim

theorem committed {completed : CompletedMutation} {sequence : ℕ} {extendedAt : Option Time}
    (hcommitted : s'.Happened (.committed completed sequence extendedAt)) :
    s.Happened (.committed completed sequence extendedAt) := by
  obtain ⟨entry, hentry, hevent⟩ := hcommitted
  rcases h.entry entry hentry with hold | ⟨-, -, -, hnot⟩
  · exact ⟨entry, hold, hevent⟩
  · exact (hnot _ _ _ hevent).elim

theorem archivedAt {u : String} {known : List String} (harchived : s'.ArchivedAt u known) :
    s.ArchivedAt u known := by
  obtain ⟨entry, hentry, hknown, completed, sequence, extendedAt, hevent, hrest⟩ := harchived
  rcases h.entry entry hentry with hold | ⟨-, -, -, hnot⟩
  · exact ⟨entry, hold, hknown, completed, sequence, extendedAt, hevent, hrest⟩
  · exact (hnot _ _ _ hevent).elim

end HistoryKept

theorem RowsInv.transfer {s s' : Cloud} (h : RowsInv s) (hrows : RowsKept s s')
    (hindex : ∀ {u sk row}, s'.index u sk = some row → s.index u sk = some row ∨
      s.workflow u sk = some row)
    (hknown : ∀ {id}, id ∈ s.known → id ∈ s'.known)
    (hheads : ∀ {u head}, s.head u = some head → head.Committed →
      ∃ head', s'.head u = some head' ∧ head'.Committed)
    (hhistory : HistoryKept s s') : RowsInv s' := by
  have hmono : ∀ {u sk row}, WorkflowOk s.known u sk row → WorkflowOk s'.known u sk row :=
    fun hok => { hok with version := hknown hok.version }
  refine ⟨fun hrow' => ?_, fun hrow => ?_, fun hrow' hsettled => ?_, fun hprepared => ?_,
    fun hprepared hpayload => ?_⟩
  · obtain ⟨row, hrow, hkept⟩ := hrows.backward hrow'
    exact hkept.ok (hmono (h.ok hrow))
  · rcases hindex hrow with hold | hcurrent
    · obtain ⟨hok, current, hcurrent, hstep⟩ := h.index hold
      obtain ⟨current', hcurrent', hkept⟩ := hrows.forward hcurrent
      exact ⟨hmono hok, current', hcurrent', hstep.trans hkept.step⟩
    · obtain ⟨current', hcurrent', hkept⟩ := hrows.forward hcurrent
      exact ⟨hmono (h.ok hcurrent), current', hcurrent', hkept.step⟩
  · obtain ⟨row, hrow, hkept⟩ := hrows.backward hrow'
    obtain ⟨head, hhead, hcommitted⟩ := h.settled hrow (hkept.settled hsettled)
    exact hheads hhead hcommitted
  · obtain ⟨row, hrow, hid, hserialized⟩ := h.prepared (hhistory.prepared hprepared)
    obtain ⟨row', hrow', hkept⟩ := hrows.forward hrow
    exact ⟨row', hrow', hkept.step.operationId.trans hid, hkept.step.serialized.trans hserialized⟩
  · obtain ⟨row, hrow, hid, hserialized⟩ :=
      h.preparedPayload (hhistory.prepared hprepared) hpayload
    obtain ⟨row', hrow', hkept⟩ := hrows.forward hrow
    exact ⟨row', hrow', hkept.step.operationId.trans hid, hkept.step.serialized.trans hserialized⟩

theorem HeadsInv.transfer {s s' : Cloud} (h : HeadsInv s) (hheads : HeadsKept s s')
    (hholds : HoldsKept s s') (hrows : RowsKept s s')
    (henvironment : ∀ {name}, (s.environment name).isSome → (s'.environment name).isSome)
    (hcreating : ∀ {u head head'}, s.head u = some head → s'.head u = some head' →
      ¬ head.Committed → head' = head ∨ head' = DynamoRepository.unleasedHead head)
    (hlease : ∀ {u head head' operationId}, s.head u = some head → s'.head u = some head' →
      head'.leaseOwner = some operationId → head.leaseOwner = some operationId)
    (hhistory : HistoryKept s s') : HeadsInv s' where
  uid := by
    intro u head' hhead'
    obtain ⟨head, hhead, hcontent⟩ := hheads.backward hhead'
    obtain ⟨hsame, hname⟩ := h.uid hhead
    exact ⟨(HeadRecord.secretUid_of_content hcontent).trans hsame, hname⟩
  environment := by
    intro u head' hhead'
    obtain ⟨head, hhead, hcontent⟩ := hheads.backward hhead'
    rw [HeadRecord.environment_of_content hcontent]
    exact henvironment (h.environment hhead)
  described := by
    intro u head' hhead' hcommitted'
    obtain ⟨head, hhead, hcontent⟩ := hheads.backward hhead'
    have hcommitted := (HeadRecord.committed_of_content hcontent).mp hcommitted'
    obtain ⟨control, hdescribes⟩ := h.described hhead hcommitted
    exact ⟨control, hholds.describes hhead hcommitted hcontent hdescribes⟩
  creating := by
    intro u head' hhead' hnot'
    obtain ⟨head, hhead, hcontent⟩ := hheads.backward hhead'
    have hnot : ¬ head.Committed :=
      fun hcommitted => hnot' ((HeadRecord.committed_of_content hcontent).mpr hcommitted)
    obtain ⟨mutation, hprepared, huid, hcreates, hwell, hhead₀⟩ := h.creating hhead hnot
    refine ⟨mutation, hprepared.mono hhistory.history, huid, hcreates, hwell, ?_⟩
    rcases hcreating hhead hhead' hnot with rfl | rfl
    · exact hhead₀
    · rcases hhead₀ with rfl | rfl
      · exact .inr rfl
      · exact .inr rfl
  unsettled := by
    intro u head' hhead' hnot' sk row' hrow'
    obtain ⟨head, hhead, hcontent⟩ := hheads.backward hhead'
    obtain ⟨row, hrow, hkept⟩ := hrows.backward hrow'
    have hnot : ¬ head.Committed :=
      fun hcommitted => hnot' ((HeadRecord.committed_of_content hcontent).mpr hcommitted)
    exact fun hsettled => h.unsettled hhead hnot sk row hrow (hkept.settled hsettled)
  lease := by
    intro u head' operationId hhead' howner'
    obtain ⟨head, hhead, hcontent⟩ := hheads.backward hhead'
    obtain ⟨mutation, hprepared, hid, huid, hexpected⟩ :=
      h.lease hhead (hlease hhead hhead' howner')
    refine ⟨mutation, hprepared.mono hhistory.history, hid, huid, fun hcommitted' => ?_⟩
    rw [HeadRecord.controlVersionId_of_content hcontent]
    exact hexpected ((HeadRecord.committed_of_content hcontent).mp hcommitted')

theorem NamesInv.transfer {s s' : Cloud} (h : NamesInv s) (hheads : HeadsKept s s')
    (hlookup : ∀ environment secretId, s'.lookup environment secretId = s.lookup environment secretId)
    (hhistory : HistoryKept s s') : NamesInv s' where
  lookup := by
    intro environment secretId lookup hsome
    rw [hlookup] at hsome
    obtain ⟨head, hhead, henvironment, hsecretId, hstate⟩ := h.lookup hsome
    obtain ⟨head', hhead', hcontent⟩ := hheads.forward hhead
    refine ⟨head', hhead', (HeadRecord.environment_of_content hcontent).trans henvironment,
      (HeadRecord.secretId_of_content hcontent).trans hsecretId, ?_⟩
    rwa [HeadRecord.state_of_content hcontent]
  creating := by
    intro u head' hhead' hnot
    obtain ⟨head, hhead, hcontent⟩ := hheads.backward hhead'
    obtain ⟨lookup, hsome, huid⟩ := h.creating hhead
      fun hcommitted => hnot ((HeadRecord.committed_of_content hcontent).mpr hcommitted)
    refine ⟨lookup, ?_, huid⟩
    rw [hlookup, HeadRecord.environment_of_content hcontent,
      HeadRecord.secretId_of_content hcontent]
    exact hsome
  archived := by
    intro u known environment secretId lookup harchived hsome
    rw [hlookup] at hsome
    exact h.archived (hhistory.archivedAt harchived) hsome

theorem AccessInv.transfer {s s' : Cloud} (h : AccessInv s) (hinv : HeadsInv s)
    (hheads : HeadsKept s s') (hholds : HoldsKept s s')
    (haccess : ∀ consumerId environment u,
      s'.access consumerId environment u = s.access consumerId environment u)
    (hhistory : HistoryKept s s') : AccessInv s' where
  record := by
    intro consumerId environment u access hsome
    rw [haccess] at hsome
    obtain ⟨hconsumer, huid, henvironment, head, hhead, hcommitted, hsame⟩ := h.record hsome
    obtain ⟨head', hhead', hcontent⟩ := hheads.forward hhead
    exact ⟨hconsumer, huid, henvironment, head', hhead',
      (HeadRecord.committed_of_content hcontent).mpr hcommitted,
      (HeadRecord.environment_of_content hcontent).trans hsame⟩
  readable := by
    intro u head' control' hhead' hcommitted' hdescribes' consumerId
    obtain ⟨head, hhead, hcontent⟩ := hheads.backward hhead'
    have hcommitted := (HeadRecord.committed_of_content hcontent).mp hcommitted'
    obtain ⟨control, hdescribes⟩ := hinv.described hhead hcommitted
    obtain rfl := (hholds.describes hhead hcommitted hcontent hdescribes).unique hdescribes'
    simp only [haccess, HeadRecord.environment_of_content hcontent]
    exact h.readable hhead hcommitted hdescribes consumerId
  sealed := by
    intro u known head' control' harchived hhead' hcommitted' hdescribes' hmem
    obtain ⟨head, hhead, hcontent⟩ := hheads.backward hhead'
    have hcommitted := (HeadRecord.committed_of_content hcontent).mp hcommitted'
    obtain ⟨control, hdescribes⟩ := hinv.described hhead hcommitted
    obtain rfl := (hholds.describes hhead hcommitted hcontent hdescribes).unique hdescribes'
    rw [HeadRecord.controlVersionId_of_content hcontent] at hmem
    exact h.sealed (hhistory.archivedAt harchived) hhead hcommitted hdescribes hmem

/-- Nothing of the sync index changes. -/
structure SyncKept (s s' : Cloud) : Prop where
  state : ∀ environment, s'.syncState environment = s.syncState environment
  change : ∀ environment sk, s'.change environment sk = s.change environment sk
  sequence : ∀ {u head head'}, s.head u = some head → s'.head u = some head' →
    head'.syncSequence = head.syncSequence

theorem SyncInv.transfer {s s' : Cloud} (h : SyncInv s)
    (hheads : HeadsKept s s') (hholds : HoldsKept s s') (hsync : SyncKept s s')
    (hhistory : s.history <+: s'.history) : SyncInv s' where
  row := by
    intro environment sk row hsome
    rw [hsync.change] at hsome
    obtain ⟨head, sequence, control, hhead, hcommitted, henvironment, hsequence, hsk, hdescribes,
      hrecord, httl⟩ := h.row hsome
    obtain ⟨head', hhead', hcontent⟩ := hheads.forward hhead
    exact ⟨head', sequence, control, hhead',
      (HeadRecord.committed_of_content hcontent).mpr hcommitted,
      (HeadRecord.environment_of_content hcontent).trans henvironment,
      (hsync.sequence hhead hhead').trans hsequence, hsk,
      hholds.describes hhead hcommitted hcontent hdescribes, hrecord, httl⟩
  head := by
    intro u head' sequence hhead' hsequence
    obtain ⟨head, hhead, hcontent⟩ := hheads.backward hhead'
    rw [hsync.sequence hhead hhead'] at hsequence
    obtain ⟨hcommitted, state, hstate, hfirst, hlast, hrow⟩ := h.head hhead hsequence
    refine ⟨(HeadRecord.committed_of_content hcontent).mpr hcommitted, state, ?_, hfirst, hlast, ?_⟩
    · rw [hsync.state, HeadRecord.environment_of_content hcontent]
      exact hstate
    · rw [hsync.change, HeadRecord.environment_of_content hcontent,
        HeadRecord.state_of_content hcontent]
      exact hrow.imp_right fun ⟨harchived, hexpired⟩ => ⟨harchived, hexpired.mono hhistory⟩
  distinct := by
    intro u u' head head' sequence hhead hhead' henvironment hsequence hsequence'
    obtain ⟨first, hfirst, hcontent⟩ := hheads.backward hhead
    obtain ⟨second, hsecond, hcontent'⟩ := hheads.backward hhead'
    rw [HeadRecord.environment_of_content hcontent,
      HeadRecord.environment_of_content hcontent'] at henvironment
    rw [hsync.sequence hfirst hhead] at hsequence
    rw [hsync.sequence hsecond hhead'] at hsequence'
    exact h.distinct hfirst hsecond henvironment hsequence hsequence'
  ready := by
    intro environment state u head' hstate hready hhead' hcommitted' henvironment
    obtain ⟨head, hhead, hcontent⟩ := hheads.backward hhead'
    rw [hsync.state] at hstate
    rw [hsync.sequence hhead hhead']
    exact h.ready hstate hready hhead ((HeadRecord.committed_of_content hcontent).mp hcommitted')
      ((HeadRecord.environment_of_content hcontent).symm.trans henvironment)
  bound := by
    intro environment state hstate
    rw [hsync.state] at hstate
    exact h.bound hstate

theorem HistoryInv.transfer {init s s' : Cloud} (h : HistoryInv init s) (hheads : HeadsKept s s')
    (hhistory : HistoryKept s s') (hdead : ∀ {operationId}, s.Dead operationId → s'.Dead operationId)
    (haudit : ∀ event ∈ s'.audit, event ∈ s.audit ∨
      (event.operation = "workflow.recovery" → s.Dead event.correlationId)) :
    HistoryInv init s' where
  operation hprepared hprepared' :=
    h.operation (hhistory.prepared hprepared) (hhistory.prepared hprepared')
  committed hcommitted := by
    obtain ⟨hprepared, hd⟩ := h.committed (hhistory.committed hcommitted)
    exact ⟨hprepared.mono hhistory.history, hdead hd⟩
  chain u := by
    rw [hhistory.commits, hheads.version]
    exact h.chain u
  payload u := by
    rw [hhistory.commits, hheads.payloadVersion]
    exact h.payload u
  audit event hevent hoperation := by
    rcases haudit event hevent with hold | hnew
    · exact hdead (h.audit event hold hoperation)
    · exact hdead (hnew hoperation)

theorem KnownInv.transfer {s s' : Cloud} (h : KnownInv s)
    (hknown : ∀ {id}, id ∈ s.known → id ∈ s'.known)
    (hdrawn : ∀ {id pid}, s'.drawnBy id = some pid → s.drawnBy id = some pid ∨ id ∈ s'.known)
    (hobjects : ∀ {key object}, s'.objects key = some object → object.versionId ∈ s'.known)
    (hhistory : HistoryKept s s') : KnownInv s' where
  drawn hsome := (hdrawn hsome).elim (fun hold => hknown (h.drawn hold)) id
  operation hprepared := hknown (h.operation (hhistory.prepared hprepared))
  born hprepared hexpected := hknown (h.born (hhistory.prepared hprepared) hexpected)
  entry hentry id hid := by
    rcases hhistory.entry _ hentry with hold | ⟨hsame, -, -, -⟩
    · exact hknown (h.entry hold id hid)
    · exact hknown (hsame ▸ hid)
  object := hobjects

theorem RetentionInv.transfer {s s' : Cloud} (h : RetentionInv s)
    (hknown : ∀ {id}, id ∈ s.known → id ∈ s'.known)
    (hdeleted : ∀ {reference}, s'.Happened (.deleted reference) →
      s.Happened (.deleted reference))
    (hgone : ∀ {reference}, reference.versionId ∈ s.known → s.object reference = none →
      s'.object reference = none)
    (hkept : ∀ {reference time}, s.Kept reference time → s'.Kept reference time)
    (hhistory : HistoryKept s s') : RetentionInv s' where
  deleted hevent := by
    obtain ⟨hold, hnone⟩ := h.deleted (hdeleted hevent)
    exact ⟨hknown hold, hgone hold hnone⟩
  kept hcommitted hprior reference hreference :=
    hkept (h.kept (hhistory.committed hcommitted) hprior reference hreference)

theorem RecordsInv.transfer {s s' : Cloud} (h : RecordsInv s)
    (hextends : s.registry.Extends s'.registry)
    (hclaims : ∀ {event claim}, event.claim = some claim → s'.Happened event →
      s.Happened event ∨ s'.registry.Claimed claim) : RecordsInv s' where
  claimed hclaim hevent := by
    rcases hclaims hclaim hevent with hold | hnew
    · exact (h.claimed hclaim hold).mono hextends
    · exact hnew

/-! ## Identities -/

theorem IdentitiesInv.transfer {s s' : Cloud} (h : IdentitiesInv s)
    (hchanges : s.registry.Changes s'.registry)
    (hindex : ∀ {fingerprint identity}, s'.identityIndex fingerprint = some identity →
      s.identityIndex fingerprint = some identity ∨ s.identity fingerprint = some identity) :
    IdentitiesInv s' where
  sound := hchanges.sound h.sound
  grants := hchanges.soleGrants h.grants
  index {fingerprint identity} hidentity' := by
    -- What the index shows is what was there before the step, or even earlier.
    have hbefore : ∃ current, s.identity fingerprint = some current ∧
        IdentityStep identity current := by
      rcases hindex hidentity' with hold | hnow
      · exact h.index hold
      · exact ⟨identity, hnow, .refl identity⟩
    obtain ⟨current, hcurrent, hstep⟩ := hbefore
    obtain ⟨current', hcurrent', hstep'⟩ := hchanges.extends.identities hcurrent
    exact ⟨current', hcurrent', hstep.trans hstep'⟩

/-! ## Capabilities -/

/-- What a step does to the capabilities: it may issue one with a token that has never
been issued, consume one that is pending, or remove one. -/
structure CapabilitiesStep (s s' : Cloud) : Prop where
  row : ∀ {tokenHash stored'}, s'.capability tokenHash = some stored' →
    s.capability tokenHash = some stored' ∨
    ((∀ grantId, ¬ s.IssuedFor tokenHash grantId) ∧
      s'.IssuedFor tokenHash stored'.record.grantId ∧ stored'.record.status = .pending) ∨
    ∃ stored fingerprint, s.capability tokenHash = some stored ∧
      stored.record.status = .pending ∧ stored'.record.grantId = stored.record.grantId ∧
      consumedWith stored'.record fingerprint = true ∧ s'.Bound tokenHash fingerprint
  issued : ∀ {tokenHash grantId}, s'.IssuedFor tokenHash grantId →
    s.IssuedFor tokenHash grantId ∨ (∀ grantId, ¬ s.IssuedFor tokenHash grantId) ∧
      tokenHash ∈ s'.known ∧
        ∃ stored', s'.capability tokenHash = some stored' ∧ stored'.record.grantId = grantId
  bound : ∀ {tokenHash fingerprint}, s'.Bound tokenHash fingerprint →
    s.Bound tokenHash fingerprint ∨ ∃ stored stored', s.capability tokenHash = some stored ∧
      stored.record.status = .pending ∧ s'.capability tokenHash = some stored' ∧
      consumedWith stored'.record fingerprint = true

/-- The events that issue or consume a capability. -/
def Event.ofCapability : Event → Bool
  | .issued _ | .consumed _ _ => true
  | _ => false

/-- Nothing is issued or consumed. -/
theorem CapabilitiesStep.of_kept {s s' : Cloud}
    (hrow : ∀ {tokenHash stored}, s'.capability tokenHash = some stored →
      s.capability tokenHash = some stored)
    (hevents : ∀ {event}, event.ofCapability = true → s'.Happened event → s.Happened event) :
    CapabilitiesStep s s' where
  row hstored := .inl (hrow hstored)
  issued := fun ⟨capability, hhappened, hrest⟩ => .inl ⟨capability, hevents rfl hhappened, hrest⟩
  bound hconsumed := .inl (hevents rfl hconsumed)

theorem CapabilitiesStep.refl (s : Cloud) : CapabilitiesStep s s := .of_kept id fun _ => id

/-- The capabilities of the registry stay. -/
theorem CapabilitiesStep.of_registry {s s' : Cloud}
    (hrow : s'.registry.capabilities = s.registry.capabilities)
    (hevents : ∀ {event}, event.ofCapability = true → s'.Happened event → s.Happened event) :
    CapabilitiesStep s s' :=
  .of_kept (fun {tokenHash _} hstored => (congrFun hrow tokenHash).symm.trans hstored) hevents

/-- One event is added to the history. -/
theorem Cloud.Happened.of_record {s s' : Cloud} {event noted : Event} {time : Time}
    {known : List String} (hnoted : noted.ofCapability = false)
    (h : s'.history = s.history ++ [⟨time, known, noted⟩]) (hevent : event.ofCapability = true)
    (hhappened : s'.Happened event) : s.Happened event := by
  rcases hhappened.of_append h with hold | rfl
  · exact hold
  · cases hevent.symm.trans hnoted

theorem Cloud.IssuedFor.mono {s s' : Cloud} {tokenHash grantId : String}
    (h : s.IssuedFor tokenHash grantId) (hhistory : s.history <+: s'.history) :
    s'.IssuedFor tokenHash grantId :=
  let ⟨capability, hhappened, hrest⟩ := h
  ⟨capability, hhappened.mono hhistory, hrest⟩

/-- A capability that is bound is not pending. -/
theorem not_pending_of_consumedWith {capability : BootstrapCapabilityRecord} {fingerprint : String}
    (h : consumedWith capability fingerprint = true) : capability.status ≠ .pending := by
  intro hpending
  simp [consumedWith, hpending] at h

theorem consumedWith_inj {capability : BootstrapCapabilityRecord} {fingerprint fingerprint' : String}
    (h : consumedWith capability fingerprint = true)
    (h' : consumedWith capability fingerprint' = true) : fingerprint = fingerprint' := by
  simp only [consumedWith, decide_eq_true_eq] at h h'
  exact Option.some.inj (h.2.symm.trans h'.2)

theorem CapabilitiesInv.transfer {s s' : Cloud} (h : CapabilitiesInv s)
    (hstep : CapabilitiesStep s s') (hknown : ∀ {id}, id ∈ s.known → id ∈ s'.known)
    (hhistory : s.history <+: s'.history) : CapabilitiesInv s' where
  stored hstored' := by
    rcases hstep.row hstored' with hsame | ⟨-, hissued, -⟩ | ⟨stored, _, hstored, -, hgrant, -, -⟩
    · exact (h.stored hsame).mono hhistory
    · exact hissued
    · exact hgrant ▸ (h.stored hstored).mono hhistory
  known hissued := by
    rcases hstep.issued hissued with hold | ⟨-, hnew, -⟩
    · exact hknown (h.known hold)
    · exact hnew
  issued hissued hissued' := by
    rcases hstep.issued hissued with hold | ⟨hfresh, -, stored, hstored, rfl⟩ <;>
      rcases hstep.issued hissued' with hold' | ⟨hfresh', -, stored', hstored', rfl⟩
    · exact h.issued hold hold'
    · exact (hfresh' _ hold).elim
    · exact (hfresh _ hold').elim
    · obtain rfl := Option.some.inj (hstored.symm.trans hstored')
      rfl
  bound {tokenHash fingerprint} hbound := by
    rcases hstep.bound hbound with hold | ⟨stored, stored', hstored, -, hstored', hwith⟩
    · obtain ⟨⟨grantId, hissued⟩, hconsumed⟩ := h.bound hold
      refine ⟨⟨grantId, hissued.mono hhistory⟩, fun {stored'} hstored' => ?_⟩
      rcases hstep.row hstored' with hsame | ⟨hfresh, -, -⟩ | ⟨stored, _, hstored, hpending, -⟩
      · exact hconsumed hsame
      · exact (hfresh _ hissued).elim
      · exact (not_pending_of_consumedWith (hconsumed hstored) hpending).elim
    · refine ⟨⟨_, (h.stored hstored).mono hhistory⟩, fun {other} hother => ?_⟩
      obtain rfl := Option.some.inj (hstored'.symm.trans hother)
      exact hwith
  consumed hstored' hconsumed := by
    rcases hstep.row hstored' with hsame | ⟨-, -, hpending⟩ | ⟨_, fingerprint, -, -, -, -, hbound⟩
    · obtain ⟨fingerprint, hbound⟩ := h.consumed hsame hconsumed
      exact ⟨fingerprint, hbound.mono hhistory⟩
    · cases hpending.symm.trans hconsumed
    · exact ⟨fingerprint, hbound⟩
  unique hbound hbound' := by
    rcases hstep.bound hbound with hold | ⟨stored, after, hstored, hpending, hafter, hwith⟩ <;>
      rcases hstep.bound hbound' with hold' | ⟨stored', after', hstored', hpending', hafter', hwith'⟩
    · exact h.unique hold hold'
    · exact (not_pending_of_consumedWith ((h.bound hold).2 hstored') hpending').elim
    · exact (not_pending_of_consumedWith ((h.bound hold').2 hstored) hpending).elim
    · obtain rfl := Option.some.inj (hafter.symm.trans hafter')
      exact consumedWith_inj hwith hwith'

/-- Locks that do not get shorter, and no deletion. -/
theorem Cloud.Kept.mono {s s' : Cloud} {reference : ObjectReference} {time : Time}
    (h : s.Kept reference time) (hknown : ∀ {id}, id ∈ s.known → id ∈ s'.known)
    (hobject : ∀ object', s'.object reference = some object' → ∃ object,
      s.object reference = some object ∧ ∀ retainUntil, object.retainUntil = some retainUntil →
        ∃ later, object'.retainUntil = some later ∧ retainUntil ≤ later)
    (hentry : ∀ entry ∈ s'.history, entry ∈ s.history ∨ entry.event ≠ .deleted reference) :
    s'.Kept reference time where
  known := hknown h.known
  locked object' hobject' := by
    obtain ⟨object, hsome, hlater⟩ := hobject object' hobject'
    obtain ⟨retainUntil, hretain, htime⟩ := h.locked object hsome
    obtain ⟨later, hlater, hle⟩ := hlater retainUntil hretain
    exact ⟨later, hlater, htime.trans hle⟩
  deleted entry hmem hevent := by
    rcases hentry entry hmem with hold | hnot
    · exact h.deleted entry hold hevent
    · exact (hnot hevent).elim

end Hemlig
