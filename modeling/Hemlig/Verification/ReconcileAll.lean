import Hemlig.Verification.Checkpoints
import Mathlib.Data.List.Dedup

/-!
# Whole passes

The loops of a pass, one after the other: the consumers are made ready, the imports are settled, the
exports write nothing that a cursor depends on, and the cursors are stored.
-/

namespace Hemlig.Kubernetes

open Concurrent Controller Store

variable {runtime : Runtime} {issued : Request → Cluster → Prop} {pid : ℕ} {s s' : Cluster}
  {F : Cluster → Prop} {Spec : Type}

/-! ## Lists -/

theorem Resources.mem_list {resources : Resources Spec} {resource : Resource Spec} :
    resource ∈ resources.list ↔
      ∃ key stored, resources.get key = some stored ∧ stored.resource key = resource := by
  unfold Resources.list
  rw [List.mem_filterMap]
  constructor
  · rintro ⟨key, -, hget⟩
    obtain ⟨stored, hstored, rfl⟩ := Option.map_eq_some_iff.mp hget
    exact ⟨key, stored, hstored, rfl⟩
  · rintro ⟨key, stored, hstored, rfl⟩
    refine ⟨key, List.mem_dedup.mpr (resources.covered key (by rw [hstored]; rfl)), ?_⟩
    rw [hstored]
    rfl

/-- Each resource is listed once. -/
theorem Resources.nodup_list (resources : Resources Spec) : (keysOf resources.list).Nodup := by
  unfold Resources.list keysOf
  rw [List.map_filterMap]
  refine List.Nodup.filterMap (fun first second key hfirst hsecond => ?_)
    (List.nodup_dedup resources.keys)
  have of_mem {other : NamespacedName}
      (h : key ∈ ((resources.get other).map (·.resource other)).map fun resource =>
        keyOf resource.metadata) : key = other := by
    obtain ⟨resource, hresource, rfl⟩ := Option.mem_map.mp h
    obtain ⟨stored, -, rfl⟩ := Option.mem_map.mp hresource
    rfl
  exact (of_mem hfirst).symm.trans (of_mem hsecond)

/-! ## Imports -/

/-- The consumer that a resource may use is ready, and is the one it refers to. -/
theorem mem_of_usable {readyConsumers : List ReadyConsumer} {metadata : ObjectMeta}
    {consumerRef : String} {consumerNamespace : Option String} {consumer : ReadyConsumer}
    (h : usable metadata consumerNamespace
      (referenced readyConsumers metadata consumerRef consumerNamespace) = some consumer) :
    consumer ∈ readyConsumers ∧ keyOf consumer.resource.metadata =
      consumerReferenceKey metadata.inNamespace consumerRef consumerNamespace := by
  unfold usable referenced at h
  split at h
  · have hfound := List.find?_some h
    rw [decide_eq_true_eq] at hfound
    exact ⟨List.mem_of_find?_eq_some h, hfound⟩
  · cases h

/-- **The imports**, by induction on those that are left. -/
theorem safe_reconcileImports {readyConsumers : List ReadyConsumer}
    (hdistinct : (readyConsumers.map fun consumer => keyOf consumer.resource.metadata).Nodup)
    (imports : List SecretImport) (hnodup : (keysOf imports).Nodup) (progress : Progress) :
    (passes runtime).Safe issued pid
      (Owned pid fun s => s.Known imports (keysOf imports) readyConsumers)
      (reconcileImports runtime readyConsumers imports progress)
      (fun _ => Owned pid fun s => s.Known [] [] readyConsumers) (fun _ _ => True) := by
  induction imports generalizing progress with
  | nil => exact .ret fun _ _ hs => hs
  | cons resource left ih =>
      obtain ⟨hapart, hnodup⟩ := List.nodup_cons.mp hnodup
      have hlasting := lasting_known (resource :: left) (keysOf (resource :: left)) readyConsumers
      have hrest := Discipline.Safe.bind (safe_reconcileImport hapart hdistinct fun _ hready =>
        mem_of_usable hready) fun outcome => ih hnodup (progress.add (usable resource.metadata
          resource.spec.consumerNamespace (referenced readyConsumers resource.metadata
            resource.spec.consumerRef resource.spec.consumerNamespace)) outcome)
      unfold reconcileImports
      dsimp only
      split
      · exact .bind ((safe_removeOwnedImport hlasting resource).weaken (fun _ _ h => h)
          (fun _ _ _ h => h) fun _ _ _ _ => trivial) fun _ => hrest
      · exact hrest

/-! ## Exports -/

theorem only_selectGrant {α : Type} {sync : Synchronization} {secretId : String}
    {capability : AgentCapability} {next : AgentSecretGrant → Pass α}
    (h : ∀ selected, (next selected).Only Request.Harmless) :
    ((selectGrant sync secretId capability).bind next).Only Request.Harmless := by
  unfold selectGrant
  cases sync.config.secretGrants.find? (·.secretId = secretId) with
  | none => trivial
  | some selected =>
      dsimp only
      split
      · trivial
      · split
        · trivial
        · exact h selected

theorem only_setStatus (metadata : ObjectMeta) (status : ReconciliationStatus)
    (currentStatus : Option ReconciliationStatus) :
    (setStatus .exports metadata status currentStatus).Only Request.Harmless :=
  .ite trivial (only_request trivial)

theorem only_exportControl (resource : SecretExport) (consumer : ReadyConsumer)
    (indexed : Option AgentSyncEntry) :
    (exportControl resource consumer indexed).Only Request.Harmless := by
  refine .recover ?_ fun failure => .ite trivial trivial
  cases indexed.bind fun indexed => indexed.metadata.map fun metadata =>
      (⟨indexed.controlVersionId, indexed.payloadVersionId, metadata⟩ : AgentControl) with
  | none => exact only_request trivial
  | some control => trivial

theorem only_writeExport (resource : SecretExport) (consumer : ReadyConsumer) (secretUid : String)
    (payload : SecretPayload) (checksum : String) :
    (writeExport runtime resource consumer secretUid payload checksum).Only Request.Harmless := by
  refine .bind (only_exportControl ..) fun current => .ite ?_ (.bind (only_request trivial)
    fun control => ?_)
  · exact .ite trivial (only_request trivial)
  · exact .ite trivial (only_request trivial)

theorem only_reconcileExport (resource : SecretExport) (consumer : Option ReadyConsumer) :
    (reconcileExport runtime resource consumer).Only Request.Harmless := by
  cases consumer with
  | none => exact .bind (only_setStatus ..) fun _ => trivial
  | some consumer =>
      refine .recover (.bind ?_ fun _ => trivial) fun failure =>
        .bind (only_setStatus ..) fun _ => trivial
      refine only_selectGrant fun selected => .bind (only_request trivial) fun source => ?_
      refine .ite trivial (.ite trivial (.bind (only_writeExport ..) fun written => ?_))
      exact only_setStatus ..

theorem only_reconcileExports (readyConsumers : List ReadyConsumer)
    (secretExports : List SecretExport) (progress : Progress) :
    (reconcileExports runtime readyConsumers secretExports progress).Only Request.Harmless := by
  induction secretExports generalizing progress with
  | nil => trivial
  | cons resource rest ih => exact .bind (only_reconcileExport ..) fun outcome => ih _

/-! ## Consumers -/

theorem cursor_of_storedCursor {status : Option ReconciliationStatus} {identity : SyncIdentity}
    {checkpoint : Checkpoint} (h : storedCursor status identity = some checkpoint) :
    status.bind ReconciliationStatus.cursor = some (identity, checkpoint) := by
  unfold storedCursor at h
  split at h
  · rename_i hidentity
    cases status with
    | none => cases h
    | some status =>
        change status.syncIdentity = some identity at hidentity
        change status.syncCursor = some checkpoint at h
        show status.cursor = _
        rw [ReconciliationStatus.cursor, hidentity, h]
        rfl
  · cases h

/-- A consumer that is ready keeps the cursor it was listed with. -/
theorem cursor_readyStatus (resource : Consumer) (config : AgentGrantRecord) :
    (readyStatus resource config).cursor = resource.status.bind ReconciliationStatus.cursor := by
  cases hstatus : resource.status with
  | none =>
      unfold readyStatus
      rw [hstatus]
      rfl
  | some status =>
      unfold readyStatus
      rw [hstatus]
      rfl

/-- A consumer that has completed a cycle is tracked from then on. -/
theorem Cluster.Readying.ready {resource : Consumer} {rest : List Consumer}
    {imports : List SecretImport} {readyConsumers : List ReadyConsumer}
    (h : s.Readying (resource :: rest) imports readyConsumers) {identity : SyncIdentity}
    {sync : Synchronization}
    (hcompleted : s.Completed identity (storedCursor resource.status identity) sync)
    (status : ReconciliationStatus) :
    s.Readying rest imports (readyConsumers ++ [⟨resource, identity, sync, status⟩]) where
  remembers other hother := h.remembers other (List.mem_cons_of_mem _ hother)
  unlisted := h.unlisted
  known :=
    { pending := h.known.pending
      tracks := by
        intro consumer hconsumer
        obtain hbefore | hnew := List.mem_append.mp hconsumer
        · exact h.known.tracks consumer hbefore
        · obtain rfl := List.mem_singleton.mp hnew
          refine ⟨hcompleted, fun checkpoint hcheckpoint => ?_, fun key hkey stored version hstored
            hrecorded => ?_⟩
          · obtain ⟨hbounds, hcovers⟩ := h.remembers resource List.mem_cons_self identity checkpoint
              (cursor_of_storedCursor hcheckpoint)
            exact ⟨hbounds, fun key _ => hcovers key⟩
          · rw [h.unlisted key hkey stored hstored] at hrecorded
            cases hrecorded }

/-- A consumer that is not ready is left out. -/
theorem Cluster.Readying.skip {resource : Consumer} {rest : List Consumer}
    {imports : List SecretImport} {readyConsumers : List ReadyConsumer}
    (h : s.Readying (resource :: rest) imports readyConsumers) :
    s.Readying rest imports readyConsumers where
  remembers other hother := h.remembers other (List.mem_cons_of_mem _ hother)
  unlisted := h.unlisted
  known := h.known

/-- The status of a consumer is written, with a cursor that covers every import or with none. -/
theorem safe_patchConsumer (hF : Lasting F) {metadata : ObjectMeta} {status : ReconciliationStatus}
    {currentStatus : Option ReconciliationStatus}
    (hpatch : ∀ s : Cluster, F s → F (s.patchStatus (keyOf metadata) status .consumers).2)
    (hready : ∀ s, F s → ∀ identity checkpoint, status.cursor = some (identity, checkpoint) →
      s.Synced (keyOf metadata) identity checkpoint) :
    (passes runtime).Safe issued pid (Owned pid F)
      (setStatus .consumers metadata status currentStatus) (fun _ => Owned pid F)
      (fun _ => Owned pid F) := by
  have hwrite : ∀ s, s.Sound → F s →
      s.Ready runtime (.patchStatus .consumers (keyOf metadata) status) := fun s _ hs => hready s hs
  exact (safe_setStatus hF hwrite hpatch fun _ _ hs => hs).weaken (fun _ _ h => h)
    (fun _ _ _ h => h) fun _ _ _ hs => hs.imp fun h => h.elim id id

/-- What a pass knows of the imports is not about the statuses of the consumers. -/
theorem Cluster.Known.patchConsumers {left : List SecretImport} {unsettled : List NamespacedName}
    {readyConsumers : List ReadyConsumer} (h : s.Known left unsettled readyConsumers)
    (key : NamespacedName) (status : ReconciliationStatus) :
    (s.patchStatus key status .consumers).2.Known left unsettled readyConsumers where
  pending := h.pending
  tracks consumer hconsumer :=
    have htracks := h.tracks consumer hconsumer
    ⟨⟨htracks.completed.bounds, htracks.completed.covers, htracks.completed.unreported⟩,
      htracks.earlier, htracks.settled⟩

theorem Cluster.Readying.patchConsumers {consumers : List Consumer} {imports : List SecretImport}
    {readyConsumers : List ReadyConsumer} (h : s.Readying consumers imports readyConsumers)
    (key : NamespacedName) (status : ReconciliationStatus) :
    (s.patchStatus key status .consumers).2.Readying consumers imports readyConsumers :=
  ⟨h.remembers, h.unlisted, h.known.patchConsumers key status⟩

theorem only_assertNamespaceAllowed (inNamespace : String) (provider : Provider) :
    (assertNamespaceAllowed inNamespace provider).Only Request.Harmless :=
  .bind (only_request trivial) fun _ => .ite trivial trivial

theorem safe_readyConsumer {resource : Consumer} {rest : List Consumer}
    {imports : List SecretImport} {readyConsumers : List ReadyConsumer} (providers : List Provider) :
    (passes runtime).Safe issued pid
      (Owned pid fun s => s.Readying (resource :: rest) imports readyConsumers)
      (readyConsumer runtime resource providers)
      (fun ready s => ready.resource = resource ∧
        Owned pid (fun s => s.Readying rest imports (readyConsumers ++ [ready])) s)
      (fun _ => Owned pid fun s => s.Readying (resource :: rest) imports readyConsumers) := by
  have hlasting := lasting_readying (resource :: rest) imports readyConsumers
  unfold readyConsumer
  cases providers.find? (·.name = resource.spec.providerRef) with
  | none => exact .raise fun _ _ hs => hs
  | some provider =>
      change (passes runtime).Safe issued pid _ ((assertNamespaceAllowed _ provider).bind _) _ _
      refine .bind (safe_only hlasting (only_assertNamespaceAllowed _ _)) fun _ =>
        .bind (safe_loadOrBootstrapIdentity hlasting resource provider) fun identity =>
        .bind (safe_synchronize hlasting _ _) fun sync => ?_
      have hsynced := hlasting.and (lasting_completed ⟨provider.spec.apiUrl, identity.certificate⟩
        (storedCursor resource.status ⟨provider.spec.apiUrl, identity.certificate⟩) sync)
      refine .bind ((safe_patchConsumer hsynced (fun s hs => ?_) fun s hs => ?_).weaken
        (fun _ _ h => h) (fun _ _ _ h => h) fun _ _ _ hs => hs.imp And.left) fun _ => ?_
      · exact ⟨hs.1.patchConsumers _ _, hs.2.bounds, hs.2.covers, hs.2.unreported⟩
      · rw [cursor_readyStatus]
        exact hs.1.remembers resource List.mem_cons_self
      · exact .ret fun _ _ hs => ⟨rfl, hs.imp fun h => h.1.ready h.2 _⟩

/-- **One consumer.** -/
theorem safe_reconcileConsumer {resource : Consumer} {rest : List Consumer}
    {imports : List SecretImport} {readyConsumers : List ReadyConsumer} (providers : List Provider) :
    (passes runtime).Safe issued pid
      (Owned pid fun s => s.Readying (resource :: rest) imports readyConsumers)
      (reconcileConsumer runtime resource providers)
      (fun outcome s => (∀ ready, outcome.1 = some ready → ready.resource = resource) ∧
        Owned pid (fun s => s.Readying rest imports (readyConsumers ++ outcome.1.toList)) s)
      (fun _ _ => True) := by
  refine .recover (.bind (safe_readyConsumer providers) fun ready => .ret fun _ _ hs =>
    ⟨fun other hother => ?_, hs.2⟩) fun failure => ?_
  · exact Option.some.inj hother ▸ hs.1
  · refine .bind ((safe_patchConsumer (lasting_readying (resource :: rest) imports readyConsumers)
      (fun s hs => hs.patchConsumers _ _)
      fun s hs identity checkpoint hcursor => by cases hcursor).weaken (fun _ _ h => h)
      (fun _ _ _ h => h) fun _ _ _ _ => trivial) fun _ => .ret fun _ _ hs =>
      ⟨by simp, hs.imp fun h => ?_⟩
    rw [Option.toList_none, List.append_nil]
    exact h.skip

/-- **The consumers**, by induction on those that are left. -/
theorem safe_reconcileConsumers (providers : List Provider) {imports : List SecretImport}
    (consumers : List Consumer) (readyConsumers : List ReadyConsumer)
    (passRetryError : Option PassFailure)
    (hdistinct : ((readyConsumers.map fun consumer => keyOf consumer.resource.metadata) ++
      keysOf consumers).Nodup) :
    (passes runtime).Safe issued pid
      (Owned pid fun s => s.Readying consumers imports readyConsumers)
      (reconcileConsumers runtime providers consumers readyConsumers passRetryError)
      (fun outcome s => (outcome.1.map fun consumer => keyOf consumer.resource.metadata).Nodup ∧
        Owned pid (fun s => s.Known imports (keysOf imports) outcome.1) s) (fun _ _ => True) := by
  induction consumers generalizing readyConsumers passRetryError with
  | nil =>
      refine .ret fun _ _ hs => ⟨?_, hs.imp fun h => h.known⟩
      simpa [keysOf] using hdistinct
  | cons resource rest ih =>
      refine .bind (safe_reconcileConsumer providers) fun outcome => ?_
      obtain ⟨ready, failure⟩ := outcome
      refine .of_fact (fun _ _ hs => hs.1) fun hready => (ih _ _ ?_).of_pre fun _ _ hs => hs.2
      cases ready with
      | none =>
          rw [Option.toList_none, List.append_nil]
          exact hdistinct.sublist ((List.sublist_cons_self _ _).append_left _)
      | some ready =>
          rw [Option.toList_some, List.map_append, List.map_singleton, List.append_assoc,
            hready ready rfl]
          exact hdistinct

/-- **The cursors**, each of which covers what every import records. -/
theorem safe_storeCheckpoints {readyConsumers : List ReadyConsumer}
    (syncFailed : List NamespacedName) (consumers : List ReadyConsumer)
    (hready : consumers ⊆ readyConsumers) :
    (passes runtime).Safe issued pid (Owned pid fun s => s.Known [] [] readyConsumers)
      (storeCheckpoints syncFailed consumers) (fun _ _ => True) (fun _ _ => True) := by
  induction consumers with
  | nil => exact .ret fun _ _ _ => trivial
  | cons consumer rest ih =>
      obtain ⟨hmem, hrest⟩ := List.cons_subset.mp hready
      have hwrite : (passes runtime).Safe issued pid
          (Owned pid fun s => s.Known [] [] readyConsumers)
          (setStatus .consumers consumer.resource.metadata (completedStatus consumer)
            (some consumer.readyStatus)) (fun _ => Owned pid fun s => s.Known [] [] readyConsumers)
          (fun _ _ => True) := by
        refine (safe_patchConsumer (lasting_known _ _ _) (fun s hs => hs.patchConsumers _ _)
          fun s hs identity checkpoint hcursor => ?_).weaken (fun _ _ h => h) (fun _ _ _ h => h)
          fun _ _ _ _ => trivial
        obtain ⟨rfl, rfl⟩ := Prod.mk.inj (Option.some.inj hcursor)
        have htracks := hs.tracks consumer hmem
        exact ⟨htracks.completed.bounds, fun key => htracks.settled key (by simp)⟩
      unfold storeCheckpoints
      split
      · exact .bind hwrite fun _ => ih hrest
      · exact ih hrest

/-! ## Passes -/

/-- What a pass lists is as it is stored. -/
theorem Cluster.Sound.remembers (h : s.Sound) : ∀ resource ∈ s.consumers.list, s.Remembers resource := by
  intro resource hresource identity checkpoint hcursor
  obtain ⟨key, stored, hstored, rfl⟩ := Resources.mem_list.mp hresource
  exact h.synced hstored hcursor

theorem Cluster.pending_list (s : Cluster) : ∀ resource ∈ s.imports.list, s.Pending resource := by
  intro resource hresource
  obtain ⟨key, stored, hstored, rfl⟩ := Resources.mem_list.mp hresource
  refine ⟨stored, key, rfl, fun current hcurrent => .inr ?_⟩
  rw [Option.some.inj (hcurrent.symm.trans hstored)]
  exact .refl stored

theorem Cluster.not_listed (s : Cluster) {key : NamespacedName} (hkey : key ∉ keysOf s.imports.list)
    (stored : Stored ImportSpec) : s.imports.get key ≠ some stored := fun hstored =>
  hkey (List.mem_map.mpr ⟨stored.resource key, Resources.mem_list.mpr ⟨key, stored, hstored, rfl⟩, rfl⟩)

/-- **The body of a pass.** -/
theorem safe_reconcileResources :
    (passes runtime).Safe issued pid (fun _ => True) (reconcileResources runtime) (fun _ _ => True)
      (fun _ _ => True) := by
  have htrue : Lasting fun _ => True := .const True
  refine .bind (R := fun _ => Owned pid fun _ => True) ((safe_only htrue
    (only_request (q := .listProviders) trivial)).weaken (fun _ _ _ _ => trivial) (fun _ _ _ h => h)
    fun _ _ _ _ => trivial) fun (providers : List Provider) => ?_
  refine .bind ((safe_answer (q := .listConsumers) (p := fun consumers => (keysOf consumers).Nodup)
      (R := fun (consumers : List Consumer) s => ∀ resource ∈ consumers, s.Remembers resource) htrue
      trivial (by simp) (fun _ _ _ => trivial) ?_).weaken (fun _ _ h => h) (fun _ _ _ h => h)
      fun _ _ _ _ => trivial) fun (consumers : List Consumer) => ?_
  · intro s choice consumers hsound _ hanswer
    obtain rfl := Except.ok.inj hanswer
    exact ⟨s.consumers.nodup_list, hsound.remembers⟩
  refine .of_fact (fun _ _ hs => hs.1) fun hconsumers => ?_
  have hremember : Lasting fun s => ∀ resource ∈ consumers, s.Remembers resource :=
    fun s s' _ hlater h resource hresource identity checkpoint hcursor =>
      (h resource hresource identity checkpoint hcursor).later hlater
  refine .bind (((safe_answer (q := .listImports) (p := fun imports => (keysOf imports).Nodup)
      (R := fun (imports : List SecretImport) s => s.Readying consumers imports []) hremember
      trivial (by simp) (fun _ _ _ => trivial) ?_).of_pre fun _ _ hs => hs.2.imp And.right).weaken
      (fun _ _ h => h) (fun _ _ _ h => h) fun _ _ _ _ => trivial) fun (imports : List SecretImport) => ?_
  · intro s choice imports _ hs hanswer
    obtain rfl := Except.ok.inj hanswer
    exact ⟨s.imports.nodup_list, hs, fun key hkey stored hstored =>
      absurd hstored (s.not_listed hkey stored), s.pending_list, by simp⟩
  refine .of_fact (fun _ _ hs => hs.1) fun himports => ?_
  refine .bind (((safe_only (lasting_readying consumers imports []) (only_request
    (q := .listExports) trivial)).of_pre fun _ _ hs => hs.2.imp And.right).weaken (fun _ _ h => h)
    (fun _ _ _ h => h) fun _ _ _ _ => trivial) fun (secretExports : List SecretExport) => ?_
  refine .bind (safe_reconcileConsumers providers consumers [] none hconsumers) fun outcome => ?_
  obtain ⟨readyConsumers, failure⟩ := outcome
  refine .of_fact (fun _ _ hs => hs.1) fun hdistinct => ?_
  refine .bind ((safe_reconcileImports hdistinct imports himports _).of_pre fun _ _ hs => hs.2)
    fun imported => .bind ((safe_only (lasting_known [] [] readyConsumers)
      (only_reconcileExports ..)).weaken (fun _ _ h => h) (fun _ _ _ h => h) fun _ _ _ _ => trivial)
    fun progress => .bind (safe_storeCheckpoints _ readyConsumers fun _ h => h) fun _ =>
    .ret fun _ _ _ => trivial

theorem safe_finish : (passes runtime).Safe issued pid (fun _ => True) (send .finish)
    (fun _ _ => True) fun _ _ => True :=
  (safe_send (q := .finish) (F := fun _ => True) (R := fun _ _ => True) (.const True) trivial
    (by simp) (fun _ _ _ => trivial) fun _ _ _ _ _ _ => trivial).weaken (fun _ _ _ _ => trivial)
    (fun _ _ _ _ => trivial) fun _ _ _ _ => trivial

theorem safe_start : (passes runtime).Safe issued pid (fun _ => True) (send .start)
    (fun _ _ => True) fun _ _ => True :=
  .bind (.request (fun _ _ _ _ h => h) (fun _ _ _ _ => trivial) fun _ _ _ _ _ _ _ _ => trivial)
    fun _ => .ofExcept (fun _ _ _ _ _ => trivial) fun _ _ _ _ _ => trivial

/-- **A pass.** -/
theorem safe_reconcileAll :
    (passes runtime).Safe issued pid (fun _ => True) (reconcileAll runtime) (fun _ _ => True)
      (fun _ _ => True) := by
  refine .bind safe_start fun (started : Bool) => .ite (fun _ => ?_) fun _ =>
    .ret fun _ _ _ => trivial
  refine .bind (.recover safe_reconcileResources fun failure => .bind safe_finish fun _ =>
    .raise fun _ _ _ => trivial) fun failure => .bind safe_finish fun _ => .ret fun _ _ _ => trivial

/-- Passes respect the discipline. -/
theorem passes_verified :
    (passes runtime).Verified (fun _ _ _ _ _ => True) (fun _ _ _ _ _ => True) where
  safe _ _ _ _ _ := safe_reconcileAll.of_pre fun _ _ _ => trivial
  stable _ _ _ _ _ _ _ _ _ := trivial
  failure _ _ _ _ _ _ _ _ _ := trivial

end Hemlig.Kubernetes
