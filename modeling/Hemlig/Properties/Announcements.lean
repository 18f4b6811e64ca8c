import Hemlig.Properties.Authorization
import Hemlig.Verification.Requests

/-!
# Commits are announced

The rows of the outbox that a commit creates name everyone whose view of the secret it changes: the
readers that it leaves are told of the change, and those that it takes the secret from are told of
the revocation, each once (`commits_announced`).  No other request creates a row.

Where the set of readers stays, the recipients are read off the ACL and no access record is looked
at; `readers_of_unchanged` says that this shortcut is exact.
-/

namespace Hemlig

open Concurrent Store DynamoRepository AgentSyncRepository

variable {init s s' : Cloud} {completed : CompletedMutation} {sequence pid : ℕ}
  {extendedAt : Option Time} {head : HeadRecord} {q : Request}
  {u consumerId eventId : String}

/-! ## Recipients -/

/-- Whom the access items of a commit name, by what they grant. -/
theorem mem_accessItems_active (hsound : completed.prepared.control.Sound u) (told : Bool → Bool) :
    consumerId ∈ (completed.accessItems.filter (told ·.active)).map AccessRecord.consumerId ↔
      (consumerId ∈ completed.priorAccess.map AccessRecord.consumerId ∨
        consumerId ∈ completed.prepared.control.acl.map Grant.consumerId) ∧
      told (hasRead completed.prepared.control.acl consumerId) = true := by
  rw [List.mem_map]
  constructor
  · rintro ⟨access, hmem, rfl⟩
    obtain ⟨haccess, htold⟩ := List.mem_filter.mp hmem
    obtain ⟨other, hother, rfl⟩ := mem_accessItemsFor.mp haccess
    rw [accessItem_active hsound.state] at htold
    exact ⟨hother, htold⟩
  · rintro ⟨hconsumer, htold⟩
    refine ⟨_, List.mem_filter.mpr
      ⟨mem_accessItemsFor.mpr ⟨consumerId, hconsumer, rfl⟩, ?_⟩, rfl⟩
    rwa [accessItem_active hsound.state]

theorem mem_recipients_changed (hsound : completed.prepared.control.Sound u) :
    consumerId ∈ completed.recipients .changed ↔
      consumerId ∈ readers completed.prepared.control := by
  cases hreplace : completed.replaceAccess with
  | false => simp only [CompletedMutation.recipients, hreplace, Bool.false_eq_true, if_false]
  | true =>
      rw [mem_readers hsound.acl, ← hasRead_iff hsound.acl, CompletedMutation.recipients, hreplace,
        if_pos rfl]
      refine (mem_accessItems_active hsound id).trans ⟨And.right, fun hread => ?_⟩
      exact ⟨.inr ((hasRead_iff hsound.acl).mp hread), hread⟩

theorem mem_recipients_revoked (hsound : completed.prepared.control.Sound u) :
    consumerId ∈ completed.recipients .revoked ↔ completed.replaceAccess = true ∧
      consumerId ∈ completed.priorAccess.map AccessRecord.consumerId ∧
      consumerId ∉ readers completed.prepared.control := by
  cases hreplace : completed.replaceAccess with
  | false => simp [CompletedMutation.recipients, hreplace]
  | true =>
      rw [mem_readers hsound.acl, ← hasRead_iff hsound.acl, CompletedMutation.recipients, hreplace,
        if_pos rfl, eq_self_iff_true, true_and]
      refine (mem_accessItems_active hsound not).trans ?_
      rw [Bool.not_eq_true', ← Bool.not_eq_true]
      constructor
      · rintro ⟨hconsumer, hnot⟩
        exact ⟨hconsumer.resolve_right fun hacl => hnot ((hasRead_iff hsound.acl).mpr hacl), hnot⟩
      · rintro ⟨hprior, hnot⟩
        exact ⟨.inl hprior, hnot⟩

theorem nodup_recipients (hsound : completed.prepared.control.Sound u) (kind : ChangeKind) :
    (completed.recipients kind).Nodup := by
  have hitems : (completed.accessItems.map AccessRecord.consumerId).Nodup := by
    rw [CompletedMutation.accessItems, accessItemsFor, List.map_map]
    exact (List.map_id _).symm ▸ nodup_distinct _
  cases kind with
  | changed =>
      simp only [CompletedMutation.recipients]
      split
      · exact hitems.sublist (List.filter_sublist.map _)
      · exact hsound.acl.nodup.sublist (List.filter_sublist.map _)
  | revoked =>
      simp only [CompletedMutation.recipients]
      split
      · exact hitems.sublist (List.filter_sublist.map _)
      · exact List.nodup_nil

/-- Only readers have a prior record. -/
theorem readable_of_prior (hinv : Invariant init s)
    (hhead : s.head completed.prepared.secretUid = some head)
    (hpredecessor : Predecessor s completed head)
    (hmem : consumerId ∈ completed.priorAccess.map AccessRecord.consumerId) :
    s.Readable completed.prepared.secretUid completed.prepared.environment consumerId := by
  obtain ⟨access, haccess, rfl⟩ := List.mem_map.mp hmem
  cases hpredecessor with
  | created heq hcreates hprior hnone =>
      rw [hnone] at haccess
      cases haccess
  | updated prior control hcommitted hcontent hprior hdescribes hready =>
      have henvironment : head.environment = completed.prepared.environment :=
        (HeadRecord.environment_of_content hcontent).trans hready.updates.environment.symm
      rw [← henvironment]
      refine (hinv.access.readable hhead hcommitted hdescribes _).mpr ?_
      exact (mem_readers (acl_wellFormed hinv hdescribes)).mpr (hready.consumer access haccess)

/-- **Revocations.**  Told of one is exactly who could read the secret and no longer can. -/
theorem mem_recipients_revoked_iff (hinv : Invariant init s)
    (hready : CommitReady pid s completed extendedAt)
    (hhead : s.head completed.prepared.secretUid = some head)
    (hpredecessor : Predecessor s completed head) :
    consumerId ∈ completed.recipients .revoked ↔
      s.Readable completed.prepared.secretUid completed.prepared.environment consumerId ∧
        consumerId ∉ readers completed.prepared.control := by
  rw [mem_recipients_revoked hready.wellFormed.sound]
  constructor
  · exact fun h => ⟨readable_of_prior hinv hhead hpredecessor h.2.1, h.2.2⟩
  · rintro ⟨hbefore, hafter⟩
    obtain ⟨old, hreadable, hold⟩ := Commitment.readable_before hinv hhead hpredecessor
    have hwas := (hreadable consumerId).mp hbefore
    obtain hsame | ⟨hexact, hcomplete⟩ := hold
    · exact absurd ((hsame consumerId).mp hwas) hafter
    · refine ⟨?_, ?_, hafter⟩
      · -- Where the readers stay, whoever could read it still can.
        by_contra hreplace
        rw [Bool.not_eq_true] at hreplace
        exact hafter ((readers_of_unchanged hexact hcomplete hreplace consumerId).mp hwas)
      · obtain ⟨access, haccess, rfl⟩ := hcomplete consumerId hwas
        exact List.mem_map_of_mem haccess

/-! ## Rows -/

/-- A row of the outbox is created. -/
def Announced (s s' : Cloud) (record : NotificationOutboxRecord) : Prop :=
  s.table.get (.notification record.eventId) = none ∧
    s'.table.get (.notification record.eventId) = some record

/-- The writes of a commit to the outbox are those of its rows. -/
theorem notification_of_mem_writes {due : Time} {notifications : List NotificationOutboxRecord}
    {write : TableWrite} (hmem : write ∈ completed.writes due notifications sequence)
    (hkey : write.key = .notification eventId) :
    ∃ record ∈ notifications, write = .create (.notification record.eventId) record := by
  simp only [CompletedMutation.writes, List.mem_cons, List.mem_append] at hmem
  obtain rfl | (((hwrite | hwrite) | hwrite) | hwrite) | hwrite := hmem
  · cases hkey
  · obtain ⟨sk, object, -, rfl⟩ := CompletedMutation.mem_readyWrites.mp hwrite
    cases hkey
  · unfold CompletedMutation.candidateWrites at hwrite
    split at hwrite
    · cases hwrite
    · obtain rfl | hpayload := List.mem_cons.mp hwrite
      · cases hkey
      · obtain ⟨_, -, rfl⟩ := List.mem_map.mp hpayload
        cases hkey
  · unfold CompletedMutation.nameWrites at hwrite
    split at hwrite
    · rw [List.mem_singleton.mp hwrite] at hkey
      cases hkey
    · cases hwrite
  · unfold CompletedMutation.accessWrites at hwrite
    split at hwrite
    · obtain ⟨access, -, rfl⟩ := List.mem_map.mp hwrite
      cases hkey
    · cases hwrite
  · obtain ⟨record, hrecord, rfl⟩ := List.mem_map.mp hwrite
    exact ⟨record, hrecord, rfl⟩

section Transaction

variable {due : Time} {notifications : List NotificationOutboxRecord} {environment epoch : String}
  {published : AgentSyncRecord} {state : Option AgentSyncState} {ttl previous : Option ℕ}
  {conflicts : List ℕ}
  (h : transact s.table conflicts (publicationWrites environment published
    (completed.writes due notifications) state epoch ttl previous) = .ok s'.table)
include h

/-- **The rows that a commit creates are those it was given.** -/
theorem announced_iff_of_transact {record : NotificationOutboxRecord} :
    Announced s s' record ↔ record ∈ notifications := by
  constructor
  · rintro ⟨hnone, hsome⟩
    by_cases hwritten : ∃ write ∈ completed.writes due notifications (nextSequence state),
        write.key = .notification record.eventId
    · obtain ⟨write, hwrite, hkey⟩ := hwritten
      obtain ⟨other, hother, rfl⟩ := notification_of_mem_writes hwrite hkey
      have hcreated := (get_of_create h (mem_publicationWrites.mpr (.inr (.inl hwrite)))).2
      have hid : other.eventId = record.eventId := Key.notification.inj hkey
      rw [hid] at hcreated
      obtain rfl : other = record := Option.some.inj (hcreated.symm.trans hsome)
      exact hother
    · have hindex : Key.ofIndex (.notification record.eventId) = false := rfl
      have hsame := get_of_publication h hindex fun write hwrite hkey =>
        hwritten ⟨write, hwrite, hkey⟩
      cases hnone.symm.trans (hsame.symm.trans hsome)
  · intro hmem
    refine get_of_create h (mem_publicationWrites.mpr (.inr (.inl ?_)))
    simp only [CompletedMutation.writes, List.mem_cons, List.mem_append]
    exact .inr (.inr (List.mem_map_of_mem hmem))

end Transaction

/-- The outbox is written by commits only. -/
theorem notification_not_mem {writes : List TableWrite} {note : Option Event}
    (hready : Sanctioned pid s writes note)
    (hnote : ∀ completed sequence extendedAt,
      note ≠ some (.committed completed sequence extendedAt)) :
    Key.notification eventId ∉ writes.map Write.key := by
  intro hmem
  obtain ⟨write, hwrite, hkey⟩ := List.mem_map.mp hmem
  cases hready with
  | prepare hprepare =>
      rcases mem_keys_prepareWrites.mp hmem with h | h | ⟨_, -, h⟩ | h | ⟨-, h⟩ <;> cases h
  | commit => exact hnote _ _ _ rfl
  | backfill hbackfill hpublish =>
      rcases mem_publicationWrites.mp hwrite with rfl | hbuilt | rfl | ⟨_, -, rfl⟩
      · cases (key_counterWrite _ _ _ _).symm.trans hkey
      · rw [List.mem_singleton.mp hbuilt] at hkey
        cases hkey
      · cases hkey
      · cases hkey
  | createEnvironment => simp [createEnvironmentWrites, emptyState, countWrite] at hmem
  | emptyState hsynced => simp [emptyState] at hmem
  | abort => simp [abortPreparedCreateWrites] at hmem
  | registry hregistry =>
      have hof := hregistry.ofRegistration write hwrite
      rw [hkey] at hof
      cases hof

/-! ## Announcements -/

/-- What a commit announces: the readers it leaves are told of the change, and those it takes the
secret from of the revocation. -/
structure Announcement (s s' : Cloud) (u environment : String) (control : ControlRevision) :
    Prop where
  changed : ∀ consumerId, (∃ record, Announced s s' record ∧ record.kind = .changed ∧
    consumerId ∈ record.consumerIds) ↔ s'.Readable u environment consumerId
  revoked : ∀ consumerId, (∃ record, Announced s s' record ∧ record.kind = .revoked ∧
    consumerId ∈ record.consumerIds) ↔
      s.Readable u environment consumerId ∧ ¬ s'.Readable u environment consumerId
  once : ∀ record other, Announced s s' record → Announced s s' other → record.kind = other.kind →
    record = other
  distinct : ∀ record, Announced s s' record → record.consumerIds.Nodup
  notice : ∀ record, Announced s s' record →
    record = control.notice record.eventId record.kind record.consumerIds

namespace CompletedMutation.Announces

variable {notifications : List NotificationOutboxRecord} (h : completed.Announces notifications)
include h

theorem consumerIds {record : NotificationOutboxRecord} (hmem : record ∈ notifications) :
    record.consumerIds = completed.recipients record.kind :=
  congrArg NotificationOutboxRecord.consumerIds (h.notice record hmem)

/-- The recipients of a kind are those of its row. -/
theorem mem_recipients {kind : ChangeKind} : (∃ record ∈ notifications, record.kind = kind ∧
    consumerId ∈ record.consumerIds) ↔ consumerId ∈ completed.recipients kind := by
  constructor
  · rintro ⟨record, hmem, rfl, hconsumer⟩
    rw [← h.consumerIds hmem]
    exact hconsumer
  · intro hconsumer
    obtain ⟨record, hmem, rfl⟩ := h.complete kind (List.ne_nil_of_mem hconsumer)
    exact ⟨record, hmem, rfl, h.consumerIds hmem ▸ hconsumer⟩

end CompletedMutation.Announces

/-- A commit that creates the rows of its announcement. -/
theorem Committing.announcement (h : Committing init s s' completed sequence extendedAt pid head)
    {notifications : List NotificationOutboxRecord} (hannounces : completed.Announces notifications)
    (hrows : ∀ record, Announced s s' record ↔ record ∈ notifications) :
    Announcement s s' completed.prepared.secretUid completed.prepared.environment
      completed.prepared.control := by
  have hreadable := h.effect.readable h.invariant h.ready h.before h.predecessor
  have hsound := h.ready.wellFormed.sound
  have htold : ∀ consumerId kind, (∃ record, Announced s s' record ∧ record.kind = kind ∧
      consumerId ∈ record.consumerIds) ↔ consumerId ∈ completed.recipients kind := by
    intro consumerId kind
    simp only [hrows]
    exact hannounces.mem_recipients
  constructor
  · intro consumerId
    rw [htold, hreadable]
    exact mem_recipients_changed hsound
  · intro consumerId
    rw [htold, hreadable]
    exact mem_recipients_revoked_iff h.invariant h.ready h.before h.predecessor
  · intro record other hrecord hother hkind
    exact List.inj_on_of_nodup_map hannounces.kinds ((hrows record).mp hrecord)
      ((hrows other).mp hother) hkind
  · intro record hrecord
    rw [hannounces.consumerIds ((hrows record).mp hrecord)]
    exact nodup_recipients hsound _
  · intro record hrecord
    have hmem := (hrows record).mp hrecord
    rw [hannounces.consumerIds hmem]
    exact hannounces.notice record hmem

/-- A transaction has its effect, or none. -/
theorem recorded_of_transactWrite {writes : List TableWrite} {note : Option Event} {choice : Choice}
    {response : Response (.transactWrite writes note)}
    (hexec : exec pid (.transactWrite writes note) choice s = some (response, s')) :
    s' = s ∨ ∃ table, s' = { s with table := table }.recordAny note := by
  have hperform : ∀ {answer after},
      perform pid choice s (.transactWrite writes note) = some (answer, after) →
        after = s ∨ ∃ table, after = { s with table := table }.recordAny note := by
    intro answer after h
    simp only [perform] at h
    split at h <;> cases h
    · exact .inr ⟨_, rfl⟩
    · exact .inl rfl
    · exact .inl rfl
  unfold exec at hexec
  split at hexec
  · exact hperform hexec
  · split at hexec <;> cases hexec
    exact .inl rfl
  · split at hexec
    · cases hexec
    · obtain ⟨⟨answer, after⟩, h, heq⟩ := Option.map_eq_some_iff.mp hexec
      cases heq
      exact hperform h

/-- A request that creates a row is the transaction of a commit. -/
theorem commit_of_announced {choice : Choice} {answer : Response q}
    (hready : RequestReady pid s q) (hexec : exec pid q choice s = some (answer, s'))
    {record : NotificationOutboxRecord} (h : Announced s s' record) :
    ∃ writes completed sequence extendedAt,
      q = .transactWrite writes (some (.committed completed sequence extendedAt)) ∧
        s'.history = s.history ++ [⟨s.now, s.known, .committed completed sequence extendedAt⟩] := by
  have hchanged : s'.table.get (.notification record.eventId) ≠
      s.table.get (.notification record.eventId) := by
    rw [h.1, h.2]
    simp
  cases tableStep_exec hexec with
  | same hsame =>
      rw [hsame] at hchanged
      exact absurd rfl hchanged
  | write write hq hholds happly =>
      -- No single write is to the outbox.
      subst hq
      rw [happly] at hchanged
      refine absurd (write.get_apply_of_ne _ fun hkey => ?_) hchanged
      cases hready with
      | retryable | release | deleted | enable | cursor => cases hkey
      | registry hregistry =>
          have hof := hregistry.ofRegistration
          rw [← hkey] at hof
          cases hof
  | noted write note hq hholds happly =>
      subst hq
      rw [happly] at hchanged
      refine absurd (write.get_apply_of_ne _ fun hkey => ?_) hchanged
      have hof := hready.ofRegistration
      rw [← hkey] at hof
      cases hof
  | transact writes note conflicts hq htransact =>
      subst hq
      by_cases hnote : ∃ completed sequence extendedAt,
          note = some (.committed completed sequence extendedAt)
      · obtain ⟨completed, sequence, extendedAt, rfl⟩ := hnote
        refine ⟨writes, completed, sequence, extendedAt, rfl, ?_⟩
        obtain rfl | ⟨table, rfl⟩ := recorded_of_transactWrite hexec
        · exact absurd rfl hchanged
        · rfl
      · push Not at hnote
        exact absurd (get_of_not_mem htransact (notification_not_mem hready hnote)) hchanged

/-- What is gentle commits nothing. -/
theorem Gentle.not_committed (h : Gentle s s') (hhistory : s'.history =
    s.history ++ [⟨s.now, s.known, .committed completed sequence extendedAt⟩]) : False := by
  have hcommits := h.history.commits completed.prepared.secretUid
  simp [Cloud.commits, hhistory] at hcommits

/-- The step that records a commit is its transaction. -/
theorem Transition.of_committed (h : Transition init pid q s s')
    (hhistory : s'.history =
      s.history ++ [⟨s.now, s.known, .committed completed sequence extendedAt⟩]) :
    ∃ writes head, q = .transactWrite writes (some (.committed completed sequence extendedAt)) ∧
      Committing init s s' completed sequence extendedAt pid head := by
  cases h with
  | gentle hgentle => exact (hgentle.not_committed hhistory).elim
  | undone hq hundone =>
      have hcommits := hundone.historyKept.commits completed.prepared.secretUid
      simp [Cloud.commits, hhistory] at hcommits
  | prepared hq hready hpreparation => simp [hpreparation.history] at hhistory
  | @committed other writes sequence' extendedAt' head hq hcommitting =>
      rw [hcommitting.effect.history] at hhistory
      simp only [List.append_cancel_left_eq, List.cons.injEq, Entry.mk.injEq, Event.committed.injEq,
        true_and, and_true] at hhistory
      obtain ⟨rfl, rfl, rfl⟩ := hhistory
      exact ⟨writes, head, hq, hcommitting⟩

/-- The transaction of a commit has created its rows. -/
theorem Requested.announcement (h : Requested init pid q s s')
    (hhistory : s'.history =
      s.history ++ [⟨s.now, s.known, .committed completed sequence extendedAt⟩]) :
    Announcement s s' completed.prepared.secretUid completed.prepared.environment
      completed.prepared.control := by
  obtain ⟨writes, head, rfl, hcommitting⟩ := h.kept.transition.of_committed hhistory
  obtain ⟨-, hready, -, htable⟩ := h
  cases htable with
  | same hsame =>
      -- The head has lost its lease.
      have hhead : s'.head completed.prepared.secretUid = some head := by
        rw [← hcommitting.before, Cloud.head, hsame]
      have hlease : head.leaseOwner = none := congrArg HeadRecord.leaseOwner
        (Option.some.inj (hhead.symm.trans hcommitting.after))
      cases hcommitting.owner.symm.trans hlease
  | write write hq => cases hq
  | noted write note hq => cases hq
  | transact writes note conflicts hq htransact =>
      cases hq
      cases hready with
      | commit hcommit hpublish hnotifications hsize =>
          exact hcommitting.announcement hnotifications fun record =>
            announced_iff_of_transact htransact
      | registry hregistry => cases hregistry

/-- **Commits are announced.**  In every run the transaction of a commit creates, together with the
new head, the rows that tell exactly those who can read the secret now of the change, and exactly
those who could read it before and no longer can of the revocation, each of them once; and no other
request creates a row. -/
theorem commits_announced (hinit : Initial init) {w : ServiceWorld} {actions : List ServiceAction}
    (hrun : service.run (World.initial init) actions = some w) :
    (∀ action w' completed sequence extendedAt, service.act w action = some w' →
      w'.store.history = w.store.history ++
        [⟨w.store.now, w.store.known, .committed completed sequence extendedAt⟩] →
      Announcement w.store w'.store completed.prepared.secretUid completed.prepared.environment
        completed.prepared.control) ∧
    ∀ pid choice w' record, service.act w (.step pid choice) = some w' →
      Announced w.store w'.store record → ∃ completed sequence extendedAt,
        w'.store.history = w.store.history ++
          [⟨w.store.now, w.store.known, .committed completed sequence extendedAt⟩] := by
  have hinv := invariant_of_run hinit hrun
  constructor
  · intro action w' completed sequence extendedAt hact hhistory
    rcases service.act_cases hact with ⟨pid, input, rfl, -, rfl⟩ |
      ⟨pid, choice, input, q, next, answer, after, rfl, hproc, hexec, rfl⟩ |
      ⟨event, after, rfl, hevent, rfl⟩
    · exact ((quiet_register hinv input).gentle.not_committed hhistory).elim
    · have hready := ready_of_run hinit hrun hproc
      exact Requested.announcement ⟨hinv, hready, kept_exec hinv hready hexec,
        tableStep_exec hexec⟩ hhistory
    · exact ((quiet_event hinv hevent).gentle.not_committed hhistory).elim
  · intro pid choice w' record hact hannounced
    rcases service.act_cases hact with ⟨_, _, heq, -⟩ |
      ⟨_, _, input, q, next, answer, after, heq, hproc, hexec, rfl⟩ | ⟨_, _, heq, -⟩
    · cases heq
    · cases heq
      obtain ⟨writes, completed, sequence, extendedAt, -, hhistory⟩ :=
        commit_of_announced (ready_of_run hinit hrun hproc) hexec hannounced
      exact ⟨completed, sequence, extendedAt, hhistory⟩
    · cases heq

namespace Sample

/-- `api-key` is created for one reader. -/
def lending : List ServiceAction :=
  founding ++ .start 1 (.create { creation "k1" with acl := [⟨"app", ["read"]⟩] }) :: steps 1
    [plain, plain, plain, plain, fresh "a", fresh "a", plain, fresh "op-a", plain, plain, plain,
      fresh "v-a", fresh "n-a", plain, plain, plain]

/-- An update takes it from its reader, up to its commit. -/
def unsharing : List ServiceAction :=
  lending ++ .start 2 (.update { rotation "ctl-a" "k2" with acl := some [] }) :: steps 2
    [plain, plain, plain, plain, plain, fresh "b", plain, plain, plain, plain, plain, fresh "op-b",
      plain, plain, plain, fresh "v-b", plain, plain, fresh "n-b", plain, plain, plain]

/-- What the former reader is told. -/
def revocation : NotificationOutboxRecord where
  eventId := "n-b"
  consumerIds := ["app"]
  secretId := "api-key"
  environment := "prod"
  controlVersionId := "ctl-b"
  payloadVersionId := none
  kind := .revoked
  createdAt := 0
  status := .pending

/-- The next step creates the row. -/
theorem unsharing_checked :
    (service.run (World.initial (registered ["app"] none)) unsharing).any (fun w => decide
      (w.store.table.get (.notification revocation.eventId) = none ∧
        (service.act w (.step 2 plain)).any (fun w' => decide
          (w'.store.table.get (.notification revocation.eventId) = some revocation)) = true)) = true := by
  decide +kernel

theorem unsharing_runs :
    (service.run (World.initial (registered ["app"] none)) unsharing).isSome = true :=
  Option.isSome_of_any unsharing_checked

abbrev shared : ServiceWorld := reached (registered ["app"] none) _ unsharing_runs

theorem unsharing_commits : (service.act shared (.step 2 plain)).isSome = true :=
  Option.isSome_of_any (reached_of_any unsharing_checked).2

abbrev unshared : ServiceWorld := (service.act shared (.step 2 plain)).get unsharing_commits

theorem announced_revocation : Announced shared.store unshared.store revocation :=
  ⟨(reached_of_any unsharing_checked).1,
    of_decide_eq_true (Option.get_of_any_eq_true _ _ (reached_of_any unsharing_checked).2)⟩

end Sample

theorem commits_announced_unshared :
    Announced Sample.shared.store Sample.unshared.store Sample.revocation ∧
      ∃ u environment control,
        Announcement Sample.shared.store Sample.unshared.store u environment control := by
  have hannounced := commits_announced (Sample.initial_registered ["app"] none)
    (run_reached Sample.unsharing_runs)
  have hact : service.act Sample.shared (.step 2 Sample.plain) = some Sample.unshared :=
    (Option.some_get Sample.unsharing_commits).symm
  obtain ⟨completed, sequence, extendedAt, hhistory⟩ :=
    hannounced.2 2 Sample.plain _ _ hact Sample.announced_revocation
  exact ⟨Sample.announced_revocation, _, _, _, hannounced.1 _ _ completed sequence extendedAt hact
    hhistory⟩

end Hemlig
