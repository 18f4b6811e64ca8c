import Hemlig.Properties.Chain
import Hemlig.Repositories.SyncKeys
import Hemlig.Verification.Requests

/-!
# Publications are well formed, but for one collision

The transaction of a publication names each key once, unless the sequence that the head had
when it was read is the one that comes after the counter as it was read before: then the row
to remove is the row to write.  It is so when another publication of the same secret commits
between the two reads.
-/

namespace Hemlig

open Concurrent Store DynamoRepository AgentSyncRepository

variable {init s s' : Cloud} {pid : ℕ} {completed : CompletedMutation} {due : Time}
  {notifications : List NotificationOutboxRecord} {sequence : ℕ} {state : Option AgentSyncState}
  {epoch : String} {ttl previous : Option ℕ} {environment : String} {record : AgentSyncRecord}
  {build : ℕ → List TableWrite}

/-! ## The keys of a mutation -/

/-- The workflows that a commit ends are unsettled. -/
theorem unsettled_of_ready (hready : CommitReady pid s completed extendedAt) {write : TableWrite}
    (hmem : write ∈ completed.readyWrites) : ∃ sk row,
      write.key = .workflow completed.prepared.secretUid sk ∧
        s.workflow completed.prepared.secretUid sk = some row ∧ ¬ row.Settled := by
  obtain ⟨sk, object, hsettles, rfl⟩ := CompletedMutation.mem_readyWrites.mp hmem
  cases hsettles with
  | control =>
      obtain ⟨row, hrow, hnot, -⟩ := hready.control.pending
      exact ⟨_, row, rfl, hrow, hnot⟩
  | payload hpayload hobject =>
      obtain ⟨_, -, -, hstored⟩ := hready.payload _ hpayload
      obtain ⟨row, hrow, hnot, -⟩ := hstored.pending
      exact ⟨_, row, rfl, hrow, hnot⟩

/-- Those it replaces are settled. -/
theorem settled_of_candidate (hready : CommitReady pid s completed extendedAt) {write : TableWrite}
    (hmem : write ∈ completed.candidateWrites due) : ∃ sk row,
      write.key = .workflow completed.prepared.secretUid sk ∧
        s.workflow completed.prepared.secretUid sk = some row ∧ row.Settled := by
  rcases hready.kind with ⟨-, hprior, -⟩ | ⟨head, control, hprior, hupdate⟩
  · simp [CompletedMutation.candidateWrites, hprior] at hmem
  · simp only [CompletedMutation.candidateWrites, hprior] at hmem
    rcases List.mem_cons.mp hmem with rfl | hmem
    · obtain ⟨row, hrow, hsettled, -⟩ := hupdate.snapshot.settled
      exact ⟨_, row, rfl, hrow, hsettled⟩
    · obtain ⟨payloadVersionId, hpayload, rfl⟩ := List.mem_map.mp hmem
      obtain ⟨body, row, hrow, hsettled, -⟩ :=
        hupdate.snapshot.payload payloadVersionId (Option.mem_toList.mp hpayload)
      exact ⟨_, row, rfl, hrow, hsettled⟩

theorem nodup_rowKeys (hready : CommitReady pid s completed extendedAt) :
    ((completed.readyWrites ++ completed.candidateWrites due).map Write.key).Nodup := by
  rw [List.map_append, List.nodup_append]
  refine ⟨?_, ?_, ?_⟩
  · unfold CompletedMutation.readyWrites
    split <;> simp [workflowReadyUpdate]
  · unfold CompletedMutation.candidateWrites
    split
    · exact List.nodup_nil
    · rename_i prior _
      cases prior.payloadVersionId <;> simp [retentionCandidateUpdate]
  · rintro key hkey key' hkey' rfl
    obtain ⟨ready, hmem, rfl⟩ := List.mem_map.mp hkey
    obtain ⟨candidate, hmem', hsame⟩ := List.mem_map.mp hkey'
    obtain ⟨sk, row, hsk, hrow, hnot⟩ := unsettled_of_ready hready hmem
    obtain ⟨sk', row', hsk', hrow', hsettled⟩ := settled_of_candidate hready hmem'
    obtain ⟨-, rfl⟩ := Key.workflow.inj ((hsk'.symm.trans hsame).trans hsk)
    obtain rfl := Option.some.inj (hrow.symm.trans hrow')
    exact hnot hsettled

theorem nodup_accessKeys : (completed.accessWrites.map Write.key).Nodup := by
  unfold CompletedMutation.accessWrites
  split
  · rw [List.map_map, CompletedMutation.accessItems, accessItemsFor, List.map_map]
    refine List.Nodup.map ?_ (nodup_distinct _)
    intro consumerId consumerId' hsame
    exact (Key.access.inj hsame).1
  · exact List.nodup_nil

theorem nodup_notificationKeys
    (hnotifications : (notifications.map NotificationOutboxRecord.eventId).Nodup) :
    ((CompletedMutation.notificationWrites notifications).map Write.key).Nodup := by
  have hkeys : (CompletedMutation.notificationWrites notifications).map Write.key =
      (notifications.map NotificationOutboxRecord.eventId).map Key.notification := by
    simp [CompletedMutation.notificationWrites, Function.comp_def]
  rw [hkeys]
  exact hnotifications.map fun _ _ hsame => Key.notification.inj hsame

/-- The kinds of items that a commit writes. -/
def kindOf : Key → ℕ
  | .head _ => 0
  | .workflow _ _ => 1
  | .lookup _ _ => 2
  | .access _ _ _ => 3
  | _ => 4

theorem kindOf_row {key : Key} (hmem : key ∈
    (completed.readyWrites ++ completed.candidateWrites due).map Write.key) : kindOf key = 1 := by
  obtain ⟨write, hwrite, rfl⟩ := List.mem_map.mp hmem
  rcases List.mem_append.mp hwrite with hwrite | hwrite
  · obtain ⟨sk, object, -, rfl⟩ := CompletedMutation.mem_readyWrites.mp hwrite
    rfl
  · unfold CompletedMutation.candidateWrites at hwrite
    split at hwrite
    · cases hwrite
    · rcases List.mem_cons.mp hwrite with rfl | hwrite
      · rfl
      · obtain ⟨_, -, rfl⟩ := List.mem_map.mp hwrite
        rfl

theorem kindOf_name {key : Key} (hmem : key ∈ completed.nameWrites.map Write.key) :
    kindOf key = 2 := by
  unfold CompletedMutation.nameWrites at hmem
  split at hmem
  · rw [List.mem_singleton.mp hmem]
    rfl
  · cases hmem

theorem kindOf_access {key : Key} (hmem : key ∈ completed.accessWrites.map Write.key) :
    kindOf key = 3 := by
  obtain ⟨write, hwrite, rfl⟩ := List.mem_map.mp hmem
  unfold CompletedMutation.accessWrites at hwrite
  split at hwrite
  · obtain ⟨access, -, rfl⟩ := List.mem_map.mp hwrite
    rfl
  · cases hwrite

theorem kindOf_notification {key : Key}
    (hmem : key ∈ (CompletedMutation.notificationWrites notifications).map Write.key) :
    kindOf key = 4 := by
  obtain ⟨write, hwrite, rfl⟩ := List.mem_map.mp hmem
  obtain ⟨record, -, rfl⟩ := List.mem_map.mp hwrite
  rfl

/-- **A mutation names each of its keys once.** -/
theorem nodup_writes (hready : CommitReady pid s completed extendedAt)
    (hnotifications : (notifications.map NotificationOutboxRecord.eventId).Nodup) :
    ((completed.writes due notifications sequence).map Write.key).Nodup := by
  have hname : (completed.nameWrites.map Write.key).Nodup := by
    unfold CompletedMutation.nameWrites
    split <;> simp
  simp only [CompletedMutation.writes, List.map_cons, List.nodup_cons]
  rw [List.map_append, List.map_append, List.map_append]
  refine ⟨fun hmem => ?_, ?_⟩
  · simp only [List.mem_append] at hmem
    rcases hmem with ((hmem | hmem) | hmem) | hmem
    · cases kindOf_row hmem
    · cases kindOf_name hmem
    · cases kindOf_access hmem
    · cases kindOf_notification hmem
  · refine List.nodup_append.mpr ⟨List.nodup_append.mpr ⟨List.nodup_append.mpr
      ⟨nodup_rowKeys hready, hname, ?_⟩, nodup_accessKeys, ?_⟩, nodup_notificationKeys hnotifications, ?_⟩
    · rintro key hkey key' hkey' rfl
      cases (kindOf_row hkey).symm.trans (kindOf_name hkey')
    · rintro key hkey key' hkey' rfl
      rcases List.mem_append.mp hkey with hkey | hkey
      · cases (kindOf_row hkey).symm.trans (kindOf_access hkey')
      · cases (kindOf_name hkey).symm.trans (kindOf_access hkey')
    · rintro key hkey key' hkey' rfl
      simp only [List.mem_append] at hkey
      rcases hkey with (hkey | hkey) | hkey
      · cases (kindOf_row hkey).symm.trans (kindOf_notification hkey')
      · cases (kindOf_name hkey).symm.trans (kindOf_notification hkey')
      · cases (kindOf_access hkey).symm.trans (kindOf_notification hkey')

/-! ## The keys of a publication -/

theorem keys_publicationWrites :
    (publicationWrites environment record build state epoch ttl previous).map Write.key =
      .syncState environment :: ((build (nextSequence state)).map Write.key ++
        .change environment (syncSk (nextSequence state) record.secretUid) ::
          previous.toList.map fun sequence =>
            .change environment (syncSk sequence record.secretUid)) := by
  have hcounter : (counterWrite environment state epoch (nextSequence state)).key =
      .syncState environment := by
    cases state <;> rfl
  simp [publicationWrites, hcounter, rowWrite, previousWrites, Function.comp_def]

/-- **A publication names each key once, unless the row it removes is the one it writes.** -/
theorem nodup_publication_iff (hbuild : ((build (nextSequence state)).map Write.key).Nodup)
    (hindex : ∀ write ∈ build (nextSequence state), write.key.ofIndex = false) :
    ((publicationWrites environment record build state epoch ttl previous).map Write.key).Nodup ↔
      previous ≠ some (nextSequence state) := by
  have hforeign : ∀ key ∈ (build (nextSequence state)).map Write.key, key.ofIndex = false := by
    intro key hmem
    obtain ⟨write, hwrite, rfl⟩ := List.mem_map.mp hmem
    exact hindex write hwrite
  have hchange : ∀ sk, Key.change environment sk ∉ (build (nextSequence state)).map Write.key :=
    fun sk hmem => nomatch hforeign _ hmem
  have hstate : Key.syncState environment ∉ (build (nextSequence state)).map Write.key :=
    fun hmem => nomatch hforeign _ hmem
  rw [keys_publicationWrites, List.nodup_cons, List.nodup_append]
  simp only [List.mem_append, not_or, List.nodup_cons]
  constructor
  · rintro ⟨-, -, ⟨hnot, -⟩, -⟩ rfl
    exact hnot (List.mem_singleton.mpr rfl)
  · intro hne
    refine ⟨⟨hstate, ?_⟩, hbuild, ⟨?_, ?_⟩, ?_⟩
    · simp
    · intro hmem
      obtain ⟨sequence, hsequence, hsame⟩ := List.mem_map.mp hmem
      obtain rfl := Option.mem_toList.mp hsequence
      refine syncSk_ne (fun heq => hne ?_) record.secretUid (Key.change.inj hsame).2
      rw [heq]
    · cases previous <;> simp
    · rintro key hkey key' hkey' rfl
      rcases List.mem_cons.mp hkey' with rfl | hmem
      · exact hchange _ hkey
      · obtain ⟨sequence, -, rfl⟩ := List.mem_map.mp hmem
        exact hchange _ hkey

/-! ## The publications of a run -/

/-- A transaction that publishes, by the counter and the head that were read for it: that of
a commit, or that of a backfill. -/
def Publishes (writes : List TableWrite) (note : Option Event) (state : Option AgentSyncState)
    (previous : Option ℕ) : Prop :=
  (∃ completed due notifications epoch ttl extendedAt,
    writes = publicationWrites completed.prepared.environment
      (syncRecord completed.prepared.secretUid completed.prepared.control)
      (completed.writes due notifications) state epoch ttl previous ∧
    note = some (.committed completed (nextSequence state) extendedAt)) ∨
  ∃ pk head control epoch ttl,
    writes = publicationWrites head.environment (syncRecord head.secretUid control)
      (resequence pk head) state epoch ttl previous ∧
    note = none

/-- **A transaction is well formed**: it names each key once, it is not rejected as
malformed, and if it is refused for nothing but the counter, its first write, or for meeting
other transactions, it is tried again. -/
structure WellFormed (s : Cloud) (writes : List TableWrite) : Prop where
  named : (writes.map Write.key).Nodup
  answered : ∀ conflicts, transact s.table conflicts writes ≠ .error .validation
  retried : ∀ conflicts reasons, transact s.table conflicts writes = .error (.canceled reasons) →
    (∀ write ∈ writes.tail, write.holds s.table = true) →
      counterContention (.aws (.transactionCanceled reasons)) = true

/-- The reasons of a transaction of which only the counter is refused. -/
theorem contention_of_reasons {table : Table Key Item} {conflicts : List ℕ} {first : TableWrite}
    {rest : List TableWrite} (hrest : ∀ write ∈ rest, write.holds table = true)
    (hrefused : (reasons table conflicts (first :: rest)).all (· = .none) = false) :
    counterContention (.aws (.transactionCanceled (reasons table conflicts (first :: rest)))) = true := by
  refine Bool.and_eq_true_iff.mpr ⟨?_, ?_⟩
  · obtain ⟨reason, hmem, hreason⟩ := List.all_eq_false.mp hrefused
    refine List.any_eq_true.mpr ⟨reason, hmem, ?_⟩
    cases reason <;> simp_all
  · refine List.all_eq_true.mpr fun outcome hmem => ?_
    obtain ⟨index, hindex, rfl⟩ := List.mem_mapIdx.mp hmem
    simp only [reasons, List.getElem_mapIdx, id_eq, decide_eq_true_eq]
    by_cases hconflict : index ∈ conflicts
    · rw [if_pos hconflict]
      exact .inr (.inl rfl)
    · rw [if_neg hconflict]
      cases index with
      | zero =>
          by_cases hholds : (first :: rest)[0].holds table = true
          · exact .inl (if_pos hholds)
          · exact .inr (.inr ⟨rfl, if_neg hholds⟩)
      | succ index => exact .inl (if_pos (hrest _ (List.getElem_mem _)))

/-- The notification under a key. -/
def notificationOf : Key → Option String
  | .notification eventId => some eventId
  | _ => none

theorem notifications_of_publication :
    ((publicationWrites environment record (completed.writes due notifications) state epoch ttl
      previous).map Write.key).filterMap notificationOf =
        notifications.map NotificationOutboxRecord.eventId := by
  have hnone : ∀ {keys : List Key} {kind : ℕ}, (∀ key ∈ keys, kindOf key = kind) → kind < 4 →
      keys.filterMap notificationOf = [] := by
    intro keys kind hkeys hkind
    refine List.filterMap_eq_nil_iff.mpr fun key hmem => ?_
    have hkey := hkeys key hmem
    cases key <;> first | rfl | (simp only [kindOf] at hkey; omega)
  have hsome : ((CompletedMutation.notificationWrites notifications).map Write.key).filterMap
      notificationOf = notifications.map NotificationOutboxRecord.eventId := by
    simp [CompletedMutation.notificationWrites, List.filterMap_map, Function.comp_def, notificationOf]
  rw [keys_publicationWrites, CompletedMutation.writes, List.map_cons, List.map_append,
    List.map_append, List.map_append]
  simp only [List.filterMap_cons, List.filterMap_append, List.cons_append,
    hnone (fun _ => kindOf_row) (by omega), hnone (fun _ => kindOf_name) (by omega),
    hnone (fun _ => kindOf_access) (by omega), hsome]
  cases previous <;> simp [notificationOf]

/-- A transaction within the size limit whose keys are distinct is well formed. -/
theorem wellFormed_of_nodup (hsize : (publicationWrites environment record build state epoch ttl
      previous).length ≤ maximumWrites)
    (hnodup : ((publicationWrites environment record build state epoch ttl previous).map
      Write.key).Nodup) :
    WellFormed s (publicationWrites environment record build state epoch ttl previous) where
  named := hnodup
  answered conflicts := transact_ne_validation hnodup hsize
  retried conflicts codes hrefused hrest := by
    obtain rfl := transact_eq_canceled hrefused
    refine contention_of_reasons hrest ?_
    rw [Bool.eq_false_iff]
    intro hall
    rw [publicationWrites] at hrefused
    unfold transact at hrefused
    rw [if_pos ⟨hnodup, hsize⟩, if_pos hall] at hrefused
    cases hrefused

/-- The writes of an issued publication, but for those on the index. -/
theorem build_of_publishes (hready : Sanctioned pid s writes note)
    (hpublishes : Publishes writes note state previous) :
    ∃ environment record build epoch ttl,
      writes = publicationWrites environment record build state epoch ttl previous ∧
        ((build (nextSequence state)).map Write.key).Nodup ∧
        (∀ write ∈ build (nextSequence state), write.key.ofIndex = false) ∧
        writes.length ≤ maximumWrites := by
  rcases hpublishes with ⟨completed, due, notifications, epoch, ttl, extendedAt, hwrites, hnote⟩ |
    ⟨pk, head, control, epoch, ttl, hwrites, -⟩
  · have hfacts : ∃ extendedAt, CommitReady pid s completed extendedAt ∧
        (notifications.map NotificationOutboxRecord.eventId).Nodup ∧ writes.length ≤ maximumWrites := by
      cases hready with
      | @commit other otherAt _ others _ _ _ _ hcommit hpublish hnotifications hsize =>
          simp only [Option.some.injEq, Event.committed.injEq] at hnote
          obtain ⟨rfl, -, -⟩ := hnote
          have hsame := notifications_of_publication.symm.trans
            ((congrArg (fun writes => (writes.map Write.key).filterMap notificationOf) hwrites).trans
              notifications_of_publication)
          exact ⟨_, hcommit, hsame ▸ hnotifications.eventIds, hsize⟩
      | prepare => cases hnote
      | backfill | createEnvironment | emptyState | abort => cases hnote
      | registry hregistry => cases hregistry <;> cases hnote
    obtain ⟨extendedAt, hcommit, hnotifications, hsize⟩ := hfacts
    exact ⟨_, _, _, epoch, ttl, hwrites, nodup_writes hcommit hnotifications,
      fun write hmem => CompletedMutation.ofIndex_of_mem_writes hmem, hsize⟩
  · refine ⟨_, _, _, epoch, ttl, hwrites, by simp [resequence], ?_, ?_⟩
    · intro write hmem
      rw [List.mem_singleton.mp hmem]
      rfl
    · rw [hwrites]
      cases previous <;> simp [publicationWrites, resequence, previousWrites, maximumWrites]

/-- The parts of an issued publication. -/
theorem parts_of_issued (hinit : Initial init) {actions : List ServiceAction}
    {writes : List TableWrite} {note : Option Event} {s : Cloud}
    (hissued : IssuedIn init actions (.transactWrite writes note) s)
    (hpublishes : Publishes writes note state previous) :
    ∃ environment record build epoch ttl,
      writes = publicationWrites environment record build state epoch ttl previous ∧
        ((build (nextSequence state)).map Write.key).Nodup ∧
        (∀ write ∈ build (nextSequence state), write.key.ofIndex = false) ∧
        writes.length ≤ maximumWrites := by
  obtain ⟨pid, before, choice, middle, input, next, -, hmiddle, rfl, hproc⟩ := hissued
  have hready : Sanctioned pid middle.store writes note := ready_of_run hinit hmiddle hproc
  exact build_of_publishes hready hpublishes

/-- The transaction that a process sends next. -/
def nextTransaction (w : ServiceWorld) (pid : ℕ) : Option (List TableWrite × Option Event) :=
  match w.procs pid with
  | some (_, .call (.transactWrite writes note) _) => some (writes, note)
  | _ => none

/-- It commits a mutation, and the keys it names are distinct or not. -/
def commitsWithKeys (distinct : Bool) (transaction : List TableWrite × Option Event) : Bool :=
  (decide (transaction.1.map Write.key).Nodup == distinct) &&
    match transaction.2 with
    | some (.committed _ _ _) => true
    | _ => false

/-- The publication of a commit that a process is about to send. -/
theorem issued_of_nextTransaction (pid : ℕ) (distinct : Bool) (hinit : Initial init)
    {w : ServiceWorld} {actions : List ServiceAction}
    (hrun : service.run (World.initial init) actions = some w)
    (hnext : (nextTransaction w pid).any (commitsWithKeys distinct) = true) :
    ∃ writes note state previous,
      IssuedIn init (actions ++ [.step pid {}]) (.transactWrite writes note) w.store ∧
        Publishes writes note state previous ∧
          ((writes.map Write.key).Nodup ↔ distinct = true) := by
  unfold nextTransaction at hnext
  split at hnext
  · rename_i input writes note next hproc
    simp only [Option.any_some, commitsWithKeys, Bool.and_eq_true, beq_iff_eq] at hnext
    obtain ⟨hkeys, hcommit⟩ := hnext
    have hready : Sanctioned pid w.store writes note := ready_of_run hinit hrun hproc
    have hpublishes : ∃ state previous, Publishes writes note state previous := by
      cases hready with
      | commit => exact ⟨_, _, .inl ⟨_, _, _, _, _, _, rfl, rfl⟩⟩
      | prepare => cases hcommit
      | backfill | createEnvironment | emptyState | abort => cases hcommit
      | registry hregistry => cases hregistry <;> cases hcommit
    obtain ⟨state, previous, hpublishes⟩ := hpublishes
    refine ⟨writes, note, state, previous, ⟨pid, actions, {}, w, input, next, List.prefix_rfl, hrun,
      rfl, hproc⟩, hpublishes, ?_⟩
    rw [← hkeys, decide_eq_true_iff]
  · cases hnext

namespace Sample

/-- Where `api-key` is about to be created. -/
def committing : List ServiceAction := (founding ++ creating 1 "a" "k1").dropLast

/-- A process that changes `api-key` has read the counter; a backfill publishes the secret;
then the process reads its head. -/
def overtaken : List ServiceAction :=
  founding ++ creating 1 "a" "k1" ++ .start 2 (.update (rotation "ctl-a" "k2")) ::
    steps 2 [plain, plain, plain, plain, fresh "b", plain, fresh "op-b", plain, plain, plain,
      fresh "v-b", plain, plain, plain, plain] ++
    .start 3 (.backfill true) ::
      steps 3 [{ number := 1 }, plain, { number := 1 }, plain, plain, plain, plain, plain, plain] ++
    [.step 2 plain]

/-- The next request of the process commits, under keys that are distinct in the first run only. -/
theorem committing_checked :
    (service.run (World.initial Cloud.empty) committing).any (fun w => decide
      ((nextTransaction w 1).any (commitsWithKeys true) = true)) = true ∧
    (service.run (World.initial Cloud.empty) overtaken).any (fun w => decide
      ((nextTransaction w 2).any (commitsWithKeys false) = true)) = true := by
  decide +kernel

theorem committing_runs : (service.run (World.initial Cloud.empty) committing).isSome = true :=
  Option.isSome_of_any committing_checked.1

theorem overtaken_runs : (service.run (World.initial Cloud.empty) overtaken).isSome = true :=
  Option.isSome_of_any committing_checked.2

end Sample

end Hemlig
