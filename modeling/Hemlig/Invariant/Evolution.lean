import Hemlig.Invariant.Statement
import Hemlig.Registry.Machine

/-!
# How the cloud evolves

`Evolves actor s s'` collects what any single step can do, whoever makes it: rows
and committed heads persist, a committed head is only replaced by a revision that
was unsettled before, names are released by archives and undone creates, counters
grow.  A process relies on nothing else about the others.  The facts it remembers
are defined here, each with the proof that it survives such a step.
-/

namespace Hemlig

open Store

/-! ## The relation -/

/-- The head of a secret is replaced by one that names an unsettled revision. -/
def Replaced (s s' : Cloud) (u : String) : Prop :=
  ∃ head', s'.head u = some head' ∧ head'.Committed ∧
    (∃ row, s.workflow u (.control head'.controlVersionId) = some row ∧ ¬ row.Settled) ∧
    ∀ payloadVersionId, head'.payloadVersionId = some payloadVersionId →
      (∃ row, s.workflow u (.payload payloadVersionId) = some row ∧ ¬ row.Settled) ∨
        ∃ head, s.head u = some head ∧ head.payloadVersionId = some payloadVersionId

/-- The place of a row lies beyond the counter of its index. -/
def PublishedAfter (s : Cloud) (environment sk : String) (row : ChangeRow) : Prop :=
  ∃ sequence, sk = syncSk sequence row.record.secretUid ∧ sequence ≤ maximumSafeInteger ∧
    ∀ state, s.syncState environment = some state → state.sequence < sequence

structure Evolves (actor : Option ℕ) (s s' : Cloud) : Prop where
  known : ∀ {id}, id ∈ s.known → id ∈ s'.known
  drawn : ∀ {id pid}, s.drawnBy id = some pid → s'.drawnBy id = some pid
  history : s.history <+: s'.history
  placement : s'.placement = s.placement
  environments : ∀ {name}, (s.environment name).isSome → (s'.environment name).isSome
  prepared : ∀ {mutation}, s'.Prepared mutation → s.Prepared mutation ∨
    ∃ pid, actor = some pid ∧ s.drawnBy mutation.operationId = some pid ∧
      (mutation.expectedControlVersionId = none → s.drawnBy mutation.secretUid = some pid)
  rows : ∀ {u sk row}, s.workflow u sk = some row → ∃ row', s'.workflow u sk = some row' ∧
    RowStep row row' ∧ (¬ row.Settled → row'.Settled →
      ∃ pid, actor = some pid ∧ s.drawnBy row.operationId = some pid)
  heads : ∀ {u head}, s.head u = some head → head.Committed →
    ∃ head', s'.head u = some head' ∧ head'.Committed ∧
      (head'.content = head.content ∨ Replaced s s' u)
  identity : ∀ {u head head'}, s.head u = some head → s'.head u = some head' →
    head'.environment = head.environment ∧ head'.secretId = head.secretId
  births : ∀ {u head'}, s.head u = none → s'.head u = some head' →
    head'.syncSequence = none ∧ ∀ mutation, s.Prepared mutation →
      mutation.expectedControlVersionId = none → mutation.secretUid ≠ u
  leases : ∀ {u head' operationId}, s'.head u = some head' →
    head'.leaseOwner = some operationId →
      (∃ head, s.head u = some head ∧ head.leaseOwner = some operationId) ∨
        ∀ mutation, s.Prepared mutation → mutation.operationId ≠ operationId
  lookups : ∀ {environment secretId lookup}, s.lookup environment secretId = some lookup →
    s'.lookup environment secretId = some lookup ∨
      (∃ known, s'.ArchivedAt lookup.secretUid known ∧ ∀ id ∈ s.known, id ∈ known) ∨
        s'.Buried lookup.secretUid
  archived : ∀ {u known}, s'.ArchivedAt u known → s.ArchivedAt u known ∨
    (∀ id ∈ s.known, id ∈ known) ∧ Replaced s s' u
  access : ∀ consumerId environment u,
    s'.access consumerId environment u = s.access consumerId environment u ∨ Replaced s s' u
  objects : ∀ {key object}, s.objects key = some object →
    (∃ object', s'.objects key = some object' ∧ object'.versionId = object.versionId ∧
      object'.body = object.body) ∨ ∃ u sk, key = objectKeyOf u sk ∧ s.Superseded u sk
  bodies : ∀ {reference object'}, reference.versionId ∈ s.known →
    s'.object reference = some object' →
      ∃ object, s.object reference = some object ∧ object.body = object'.body
  kept : ∀ {reference time}, s.Kept reference time → s'.Kept reference time
  counters : ∀ environment, CounterLe (s.counter environment) (s'.counter environment)
  sequences : ∀ {u head head'}, s.head u = some head → s'.head u = some head' →
    head'.syncSequence = head.syncSequence ∨
      s'.counter head.environment ≠ s.counter head.environment
  unsynced : ∀ {u head'}, s'.head u = some head' → head'.Committed →
    head'.syncSequence = none → ∃ head, s.head u = some head ∧ head.Committed ∧
      head.syncSequence = none
  changes : ∀ {environment sk row}, s'.change environment sk = some row →
    s.change environment sk = some row ∨ PublishedAfter s environment sk row
  registry : s.registry.Extends s'.registry
  evidence : ∀ {event}, event ∈ s.audit → event ∈ s'.audit

/-! ## What follows -/

theorem Cloud.Happened.mono {s s' : Cloud} {event : Event} (h : s.Happened event)
    (hbefore : s.history <+: s'.history) : s'.Happened event := by
  obtain ⟨entry, hentry, hevent⟩ := h
  exact ⟨entry, hbefore.subset hentry, hevent⟩

theorem Cloud.ArchivedAt.mono {s s' : Cloud} {u : String} {known : List String}
    (h : s.ArchivedAt u known) (hbefore : s.history <+: s'.history) : s'.ArchivedAt u known := by
  obtain ⟨entry, hentry, hrest⟩ := h
  exact ⟨entry, hbefore.subset hentry, hrest⟩

@[simp] theorem HeadRecord.names_control (head : HeadRecord) (controlVersionId : String) :
    head.Names (.control controlVersionId) ↔ controlVersionId = head.controlVersionId := by
  simp [HeadRecord.Names, Retention.isCurrent]

@[simp] theorem HeadRecord.names_payload (head : HeadRecord) (payloadVersionId : String) :
    head.Names (.payload payloadVersionId) ↔ head.payloadVersionId = some payloadVersionId := by
  simp [HeadRecord.Names, Retention.isCurrent]

theorem HeadRecord.controlVersionId_of_content {head head' : HeadRecord}
    (h : head'.content = head.content) : head'.controlVersionId = head.controlVersionId := by
  show head'.content.controlVersionId = head.content.controlVersionId
  rw [h]

theorem HeadRecord.payloadVersionId_of_content {head head' : HeadRecord}
    (h : head'.content = head.content) : head'.payloadVersionId = head.payloadVersionId := by
  show head'.content.payloadVersionId = head.content.payloadVersionId
  rw [h]

theorem HeadRecord.names_of_content {head head' : HeadRecord} (h : head'.content = head.content)
    (sk : WorkflowSk) : head'.Names sk ↔ head.Names sk := by
  cases sk with
  | control controlVersionId => simp [controlVersionId_of_content h]
  | payload payloadVersionId => simp [payloadVersionId_of_content h]

/-- A replaced head names no revision that was settled, unless it is a payload that
its predecessor named. -/
theorem Replaced.not_names {s s' : Cloud} {u : String} (h : Replaced s s' u) {sk : WorkflowSk}
    {row : StoredWorkflow} (hrow : s.workflow u sk = some row) (hsettled : row.Settled)
    (hhead : ∀ head, s.head u = some head → ¬ head.Names sk) :
    ∀ head', s'.head u = some head' → ¬ head'.Names sk := by
  obtain ⟨head', hhead', -, ⟨control, hcontrol, hunsettled⟩, hpayload⟩ := h
  intro other hother hnames
  obtain rfl : head' = other := by simpa [hhead'] using hother
  cases sk with
  | control controlVersionId =>
      obtain rfl : controlVersionId = head'.controlVersionId := by simpa using hnames
      obtain rfl : row = control := by simpa [hrow] using hcontrol
      exact hunsettled hsettled
  | payload payloadVersionId =>
      rcases hpayload payloadVersionId (by simpa using hnames) with
        ⟨payload, hpayload, hunsettled⟩ | ⟨head, hsame, hprior⟩
      · obtain rfl : row = payload := by simpa [hrow] using hpayload
        exact hunsettled hsettled
      · exact hhead head hsame (by simpa using hprior)

/-- A replaced head does not name a control revision that was settled. -/
theorem Replaced.controlVersionId_ne {s s' : Cloud} {u : String} (h : Replaced s s' u)
    {controlVersionId : String} {body : ObjectBody}
    (hsettled : s.SettledDocument u (.control controlVersionId) body) {head' : HeadRecord}
    (hhead' : s'.head u = some head') : head'.controlVersionId ≠ controlVersionId := by
  obtain ⟨other, hother, -, ⟨row, hrow, hunsettled⟩, -⟩ := h
  obtain rfl : head' = other := by simpa [hhead'] using hother
  rintro rfl
  obtain ⟨row', hrow', hsettled', -⟩ := hsettled
  obtain rfl : row = row' := by simpa [hrow] using hrow'
  exact hunsettled hsettled'

namespace Evolves

variable {actor : Option ℕ} {s s' : Cloud}

theorem happened (h : Evolves actor s s') {event : Event} (hevent : s.Happened event) :
    s'.Happened event :=
  hevent.mono h.history

theorem settledDocument (h : Evolves actor s s') {u : String} {sk : WorkflowSk}
    {body : ObjectBody} (hdocument : s.SettledDocument u sk body) :
    s'.SettledDocument u sk body := by
  obtain ⟨row, hrow, hsettled, hserialized⟩ := hdocument
  obtain ⟨row', hrow', hstep, -⟩ := h.rows hrow
  exact ⟨row', hrow', (hstep.settled hsettled).1, hstep.serialized.trans hserialized⟩

theorem aclFrom (h : Evolves actor s s') {expected : Option String} {acl : List Grant}
    (hfrom : s.AclFrom expected acl) : s'.AclFrom expected acl := by
  refine hfrom.imp_right ?_
  rintro ⟨u, version, control, hexpected, hsettled, hacl⟩
  exact ⟨u, version, control, hexpected, h.settledDocument hsettled, hacl⟩

theorem superseded (h : Evolves actor s s') (hinv : RowsInv s) {u : String} {sk : WorkflowSk}
    (hsuperseded : s.Superseded u sk) : s'.Superseded u sk := by
  obtain ⟨⟨row, hrow, hsettled⟩, hhead⟩ := hsuperseded
  obtain ⟨row', hrow', hstep, -⟩ := h.rows hrow
  refine ⟨⟨row', hrow', (hstep.settled hsettled).1⟩, ?_⟩
  obtain ⟨head, hcurrent, hcommitted⟩ := hinv.settled hrow hsettled
  obtain ⟨head', hhead', -, hsame | hreplaced⟩ := h.heads hcurrent hcommitted
  · intro other hother
    obtain rfl : head' = other := by simpa [hhead'] using hother
    exact fun hnames => hhead head hcurrent ((HeadRecord.names_of_content hsame sk).mp hnames)
  · exact hreplaced.not_names hrow hsettled hhead

theorem dead (h : Evolves actor s s') {operationId : String} (hdead : s.Dead operationId) :
    s'.Dead operationId := by
  obtain ⟨⟨mutation, hprepared, hid⟩, hlease⟩ := hdead
  refine ⟨⟨mutation, h.happened hprepared, hid⟩, fun u head' hhead' howner => ?_⟩
  rcases h.leases hhead' howner with ⟨head, hhead, hprior⟩ | hunused
  · exact hlease u head hhead hprior
  · exact hunused mutation hprepared hid

theorem buried (h : Evolves actor s s') {u : String} (hburied : s.Buried u) : s'.Buried u := by
  obtain ⟨hnone, mutation, hprepared, hexpected, huid⟩ := hburied
  refine ⟨?_, mutation, h.happened hprepared, hexpected, huid⟩
  cases hhead' : s'.head u with
  | none => rfl
  | some head' => exact ((h.births hnone hhead').2 mutation hprepared hexpected huid).elim

end Evolves

/-! ## What a process remembers -/

/-- The process drew the identifier. -/
def Cloud.Owns (s : Cloud) (pid : ℕ) (id : String) : Prop := s.drawnBy id = some pid

/-- No mutation was prepared under the operation. -/
def Cloud.Unused (s : Cloud) (operationId : String) : Prop :=
  ∀ mutation, s.Prepared mutation → mutation.operationId ≠ operationId

/-- No create of the secret was prepared. -/
def Cloud.Unborn (s : Cloud) (u : String) : Prop :=
  ∀ mutation, s.Prepared mutation → mutation.expectedControlVersionId = none →
    mutation.secretUid ≠ u

/-- What a committed head and its control revision said when they were read. -/
structure Cloud.Snapshot (s : Cloud) (u : String) (head : HeadRecord)
    (control : ControlRevision) : Prop where
  settled : s.SettledDocument u (.control head.controlVersionId) (.control control)
  payload : ∀ payloadVersionId, head.payloadVersionId = some payloadVersionId →
    ∃ body, s.SettledDocument u (.payload payloadVersionId) body
  current : ∃ current, s.head u = some current ∧ current.Committed ∧
    current.environment = head.environment ∧ current.secretId = head.secretId ∧
      (current.controlVersionId = head.controlVersionId → current.content = head.content)

/-- A known version of a secret found by its name: the name is still its own, or an
archive of it committed with that version known, or its create was undone. -/
structure Cloud.Named (s : Cloud) (environment secretId u version : String) : Prop where
  known : version ∈ s.known
  name : (∃ lookup, s.lookup environment secretId = some lookup ∧ lookup.secretUid = u) ∨
    (∃ known, s.ArchivedAt u known ∧ version ∈ known) ∨ s.Buried u

/-- The identifier was drawn after every archive of the secret, as long as the secret
is at that version. -/
def Cloud.DrawnLater (s : Cloud) (u version id : String) : Prop :=
  ∀ known, s.ArchivedAt u known → id ∈ known → s.version u ≠ some version

/-- The access record of a consumer as it was at some version of the secret. -/
def Cloud.PriorAt (s : Cloud) (u version consumerId environment : String)
    (access : Option AccessRecord) : Prop :=
  s.version u = some version → access = s.access consumerId environment u

/-- An unsettled revision of an operation. -/
def Cloud.Pending (s : Cloud) (u : String) (sk : WorkflowSk) (operationId : String) : Prop :=
  ∃ row, s.workflow u sk = some row ∧ ¬ row.Settled ∧ row.operationId = operationId

/-- The object of an unsettled revision. -/
structure Cloud.Stored (s : Cloud) (u : String) (sk : WorkflowSk) (operationId versionId : String)
    (body : ObjectBody) : Prop where
  pending : s.Pending u sk operationId
  object : ∃ object, s.objects (objectKeyOf u sk) = some object ∧
    object.versionId = versionId ∧ object.body = body

/-- The place of a secret in its index, as long as the counter stands. -/
structure Cloud.Sequenced (s : Cloud) (environment u : String) (counter : Option (String × ℕ))
    (previous : Option ℕ) : Prop where
  reached : CounterLe counter (s.counter environment)
  sequence : s.counter environment = counter → ∀ head, s.head u = some head →
    head.environment = environment → head.syncSequence = previous
  committed : previous.isSome → ∃ head, s.head u = some head ∧ head.Committed

/-- Every committed head without a sequence lies at or after a position of the scan. -/
def Cloud.SyncedBefore (s : Cloud) (position : ℕ) : Prop :=
  ∀ u head, s.head u = some head → head.Committed → head.syncSequence = none →
    position ≤ s.placement u

/-- Every committed head has a sequence. -/
def Cloud.AllSynced (s : Cloud) : Prop :=
  ∀ u head, s.head u = some head → head.Committed → head.syncSequence ≠ none

/-- A settled revision that no head names, with the version of its object. -/
def Cloud.Replaceable (s : Cloud) (u : String) (sk : WorkflowSk) (versionId : String) : Prop :=
  s.Superseded u sk ∧ ∃ row, s.workflow u sk = some row ∧ row.Settled ∧
    row.s3VersionId = some versionId

/-! ### Versions -/

theorem Cloud.version_eq_some {s : Cloud} {u version : String} :
    s.version u = some version ↔
      ∃ head, s.head u = some head ∧ head.Committed ∧ head.controlVersionId = version := by
  simp only [Cloud.version, Option.map_eq_some_iff, Option.filter_eq_some_iff,
    decide_eq_true_eq, and_assoc]

theorem Cloud.payloadVersion_of_committed {s : Cloud} {u : String} {head : HeadRecord}
    (hhead : s.head u = some head) (hcommitted : head.Committed) :
    s.payloadVersion u = head.payloadVersionId := by
  rw [Cloud.payloadVersion, hhead, Option.filter_some, if_pos (by simpa using hcommitted)]
  rfl

theorem Cloud.versions_of_not_committed {s : Cloud} {u : String} {head : HeadRecord}
    (hhead : s.head u = some head) (hnot : ¬ head.Committed) :
    s.version u = none ∧ s.payloadVersion u = none := by
  rw [Cloud.version, Cloud.payloadVersion, hhead, Option.filter_some, if_neg (by simpa using hnot)]
  exact ⟨rfl, rfl⟩

/-- A settled revision is the version of its secret only if it was before. -/
theorem Evolves.version {actor : Option ℕ} {s s' : Cloud} (h : Evolves actor s s')
    (hinv : RowsInv s) {u version : String} {body : ObjectBody}
    (hsettled : s.SettledDocument u (.control version) body) (hversion : s'.version u = some version) :
    s.version u = some version ∧ ¬ Replaced s s' u := by
  obtain ⟨head', hhead', -, hcv⟩ := Cloud.version_eq_some.mp hversion
  obtain ⟨row, hrow, hrowsettled, -⟩ := hsettled
  obtain ⟨head, hhead, hcommitted⟩ := hinv.settled hrow hrowsettled
  have hnot : ¬ Replaced s s' u := fun hreplaced =>
    hreplaced.controlVersionId_ne ⟨row, hrow, hrowsettled, rfl⟩ hhead' hcv
  obtain ⟨other, hother, -, hsame | hreplaced⟩ := h.heads hhead hcommitted
  · obtain rfl : head' = other := by simpa [hhead'] using hother
    exact ⟨Cloud.version_eq_some.mpr ⟨head, hhead, hcommitted,
      (HeadRecord.controlVersionId_of_content hsame).symm.trans hcv⟩, hnot⟩
  · exact (hnot hreplaced).elim

/-! ## They survive -/

namespace Evolves

variable {actor : Option ℕ} {s s' : Cloud} {pid : ℕ}

theorem owns (h : Evolves actor s s') {id : String} (howns : s.Owns pid id) : s'.Owns pid id :=
  h.drawn howns

theorem unused (h : Evolves actor s s') (hactor : actor ≠ some pid) {operationId : String}
    (howns : s.Owns pid operationId) (hunused : s.Unused operationId) :
    s'.Unused operationId := by
  intro mutation hprepared heq
  rcases h.prepared hprepared with hprepared | ⟨other, hother, hdrawn, -⟩
  · exact hunused mutation hprepared heq
  · have hsame : other = pid := by
      have := (heq ▸ hdrawn : s.drawnBy operationId = some other).symm.trans howns
      simpa using this
    exact hactor (hsame ▸ hother)

theorem unborn (h : Evolves actor s s') (hactor : actor ≠ some pid) {u : String}
    (howns : s.Owns pid u) (hunborn : s.Unborn u) : s'.Unborn u := by
  intro mutation hprepared hexpected heq
  rcases h.prepared hprepared with hprepared | ⟨other, hother, -, hdrawn⟩
  · exact hunborn mutation hprepared hexpected heq
  · have hsame : other = pid := by
      have := (heq ▸ hdrawn hexpected : s.drawnBy u = some other).symm.trans howns
      simpa using this
    exact hactor (hsame ▸ hother)

theorem snapshot (h : Evolves actor s s') {u : String} {head : HeadRecord}
    {control : ControlRevision} (hsnapshot : s.Snapshot u head control) :
    s'.Snapshot u head control where
  settled := h.settledDocument hsnapshot.settled
  payload payloadVersionId hsome :=
    (hsnapshot.payload payloadVersionId hsome).imp fun _ hsettled => h.settledDocument hsettled
  current := by
    obtain ⟨current, hcurrent, hcommitted, henvironment, hsecretId, hagree⟩ := hsnapshot.current
    obtain ⟨current', hcurrent', hcommitted', hcontent⟩ := h.heads hcurrent hcommitted
    obtain ⟨henvironment', hsecretId'⟩ := h.identity hcurrent hcurrent'
    refine ⟨current', hcurrent', hcommitted', henvironment'.trans henvironment,
      hsecretId'.trans hsecretId, fun hcv => ?_⟩
    rcases hcontent with hsame | hreplaced
    · rw [hsame]
      exact hagree ((HeadRecord.controlVersionId_of_content hsame).symm.trans hcv)
    · exact (hreplaced.controlVersionId_ne hsnapshot.settled hcurrent' hcv).elim

theorem named (h : Evolves actor s s') {environment secretId u version : String}
    (hnamed : s.Named environment secretId u version) :
    s'.Named environment secretId u version where
  known := h.known hnamed.known
  name := by
    rcases hnamed.name with ⟨lookup, hlookup, rfl⟩ | ⟨known, harchived, hmem⟩ | hburied
    · rcases h.lookups hlookup with hkept | ⟨known, harchived, hsub⟩ | hburied
      · exact .inl ⟨lookup, hkept, rfl⟩
      · exact .inr (.inl ⟨known, harchived, hsub _ hnamed.known⟩)
      · exact .inr (.inr hburied)
    · exact .inr (.inl ⟨known, harchived.mono h.history, hmem⟩)
    · exact .inr (.inr (h.buried hburied))

theorem drawnLater (h : Evolves actor s s') (hinv : RowsInv s) {u version id : String}
    {body : ObjectBody} (hsettled : s.SettledDocument u (.control version) body)
    (hlater : s.DrawnLater u version id) : s'.DrawnLater u version id := by
  intro known harchived hmem hversion
  obtain ⟨hbefore, hnot⟩ := h.version hinv hsettled hversion
  rcases h.archived harchived with harchived | ⟨-, hreplaced⟩
  · exact hlater known harchived hmem hbefore
  · exact hnot hreplaced

theorem priorAt (h : Evolves actor s s') (hinv : RowsInv s)
    {u version consumerId environment : String} {body : ObjectBody} {access : Option AccessRecord}
    (hsettled : s.SettledDocument u (.control version) body)
    (hprior : s.PriorAt u version consumerId environment access) :
    s'.PriorAt u version consumerId environment access := by
  intro hversion
  obtain ⟨hbefore, hnot⟩ := h.version hinv hsettled hversion
  rcases h.access consumerId environment u with hsame | hreplaced
  · rw [hsame]
    exact hprior hbefore
  · exact (hnot hreplaced).elim

theorem pending (h : Evolves actor s s') (hactor : actor ≠ some pid) {u : String}
    {sk : WorkflowSk} {operationId : String} (howns : s.Owns pid operationId)
    (hpending : s.Pending u sk operationId) : s'.Pending u sk operationId := by
  obtain ⟨row, hrow, hunsettled, rfl⟩ := hpending
  obtain ⟨row', hrow', hstep, howner⟩ := h.rows hrow
  refine ⟨row', hrow', fun hsettled => ?_, hstep.operationId⟩
  obtain ⟨other, hother, hdrawn⟩ := howner hunsettled hsettled
  have hsame : other = pid := by simpa using hdrawn.symm.trans howns
  exact hactor (hsame ▸ hother)

theorem stored (h : Evolves actor s s') (hactor : actor ≠ some pid) {u : String}
    {sk : WorkflowSk} {operationId versionId : String} {body : ObjectBody}
    (howns : s.Owns pid operationId) (hstored : s.Stored u sk operationId versionId body) :
    s'.Stored u sk operationId versionId body where
  pending := h.pending hactor howns hstored.pending
  object := by
    obtain ⟨object, hobject, hversion, hbody⟩ := hstored.object
    rcases h.objects hobject with ⟨object', hobject', hversion', hbody'⟩ | ⟨u', sk', hkey, hsup⟩
    · exact ⟨object', hobject', hversion'.trans hversion, hbody'.trans hbody⟩
    · obtain ⟨rfl, rfl⟩ := objectKeyOf_inj hkey
      obtain ⟨row, hrow, hunsettled, -⟩ := hstored.pending
      obtain ⟨⟨row', hrow', hsettled⟩, -⟩ := hsup
      obtain rfl : row = row' := by simpa [hrow] using hrow'
      exact (hunsettled hsettled).elim

theorem sequenced (h : Evolves actor s s') {environment u : String}
    {counter : Option (String × ℕ)} {previous : Option ℕ}
    (hsequenced : s.Sequenced environment u counter previous) :
    s'.Sequenced environment u counter previous where
  reached := hsequenced.reached.trans (h.counters environment)
  sequence := by
    intro hcounter head' hhead' henvironment
    have hstood : s.counter environment = counter :=
      (hsequenced.reached.antisymm (hcounter ▸ h.counters environment)).symm
    cases hhead : s.head u with
    | none =>
        cases hprevious : previous with
        | none => exact (h.births hhead hhead').1
        | some sequence =>
            obtain ⟨head, hsome, -⟩ := hsequenced.committed (by simp [hprevious])
            simp [hhead] at hsome
    | some head =>
        have hidentity := (h.identity hhead hhead').1.symm.trans henvironment
        have hsequence := hsequenced.sequence hstood head hhead hidentity
        rcases h.sequences hhead hhead' with hsame | hmoved
        · exact hsame.trans hsequence
        · rw [hidentity, hcounter, hstood] at hmoved
          exact (hmoved rfl).elim
  committed := by
    intro hsome
    obtain ⟨head, hhead, hcommitted⟩ := hsequenced.committed hsome
    obtain ⟨head', hhead', hcommitted', -⟩ := h.heads hhead hcommitted
    exact ⟨head', hhead', hcommitted'⟩

theorem syncedBefore (h : Evolves actor s s') {position : ℕ} (hsynced : s.SyncedBefore position) :
    s'.SyncedBefore position := by
  intro u head' hhead' hcommitted' hnone'
  obtain ⟨head, hhead, hcommitted, hnone⟩ := h.unsynced hhead' hcommitted' hnone'
  rw [h.placement]
  exact hsynced u head hhead hcommitted hnone

theorem allSynced (h : Evolves actor s s') (hsynced : s.AllSynced) : s'.AllSynced := by
  intro u head' hhead' hcommitted' hnone'
  obtain ⟨head, hhead, hcommitted, hnone⟩ := h.unsynced hhead' hcommitted' hnone'
  exact hsynced u head hhead hcommitted hnone

theorem replaceable (h : Evolves actor s s') (hinv : RowsInv s) {u : String} {sk : WorkflowSk}
    {versionId : String} (hreplaceable : s.Replaceable u sk versionId) :
    s'.Replaceable u sk versionId := by
  obtain ⟨hsuperseded, row, hrow, hsettled, hversion⟩ := hreplaceable
  obtain ⟨row', hrow', hstep, -⟩ := h.rows hrow
  obtain ⟨hsettled', hversion'⟩ := hstep.settled hsettled
  exact ⟨h.superseded hinv hsuperseded, row', hrow', hsettled', hversion'.trans hversion⟩

end Evolves

end Hemlig
