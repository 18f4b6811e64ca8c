import Hemlig.Verification.Passes

/-!
# The cycles of a pass

A cycle reads page after page up to the number that its first page has fixed.  A secret that is
published meanwhile leaves the range of the cycle, and takes a number that the next cycle reads.  So
after each page the client has an entry for every granted secret of the range read so far
(`Cycling`), and after the last one for every granted secret that was published since the cursor the
cycle began with (`Completed`).
-/

namespace Hemlig.Kubernetes

open Concurrent Controller Store

variable {runtime : Runtime} {issued : Request → Cluster → Prop} {pid : ℕ} {s s' : Cluster}
  {sites : Sites} {F : Cluster → Prop}

/-! ## Pages -/

/-- Every entry of a page is kept, under its UID. -/
theorem setAll_cases (entries : Entries) (changes : List AgentSyncEntry) (secretUid : String) :
    (∃ entry ∈ changes, entry.secretUid = secretUid ∧
      setAll entries changes secretUid = some entry) ∨
    ((∀ entry ∈ changes, entry.secretUid ≠ secretUid) ∧
      setAll entries changes secretUid = entries secretUid) := by
  induction changes generalizing entries with
  | nil => exact .inr ⟨by simp, rfl⟩
  | cons first rest ih =>
      obtain ⟨entry, hentry, huid, hset⟩ | ⟨hne, hset⟩ :=
        ih (Function.update entries first.secretUid (some first))
      · exact .inl ⟨entry, List.mem_cons_of_mem _ hentry, huid, hset⟩
      · by_cases hfirst : first.secretUid = secretUid
        · subst hfirst
          exact .inl ⟨first, List.mem_cons_self, rfl, hset.trans (Function.update_self ..)⟩
        · refine .inr ⟨fun entry hentry => ?_,
            hset.trans (Function.update_of_ne (Ne.symm hfirst) _ _)⟩
          rcases List.mem_cons.mp hentry with rfl | hrest
          · exact hfirst
          · exact hne entry hrest

theorem Sites.mem_published {site environment : String} {published : Published} :
    published ∈ sites.published site environment ↔
      (∃ secretUid, sites.index.get secretUid = some published) ∧ published.site = site ∧
        published.environment = environment := by
  unfold Sites.published
  rw [List.mem_filter, decide_eq_true_eq, List.mem_filterMap]
  refine and_congr_left fun _ => ⟨fun ⟨secretUid, _, hget⟩ => ⟨secretUid, hget⟩, ?_⟩
  rintro ⟨secretUid, hget⟩
  exact ⟨secretUid, List.mem_dedup.mpr (sites.index.covered _ (by rw [hget]; rfl)), hget⟩

/-- A grant covers a secret, whatever the order of its digest. -/
theorem exists_mem_grantDigest {grant : AgentGrantRecord} {secretUid : String} :
    (∃ entry ∈ (AgentSyncService.grantDigest grant).2.1, entry.secretUid = secretUid) ↔
      ∃ entry ∈ grant.secretGrants, entry.secretUid = secretUid := by
  show (∃ entry ∈ AgentSyncService.digestGrants grant.secretGrants, _) ↔ _
  unfold AgentSyncService.digestGrants
  constructor
  · rintro ⟨entry, hentry, huid⟩
    obtain ⟨original, horiginal, rfl⟩ := List.mem_map.mp ((List.mem_insertionSort _).mp hentry)
    exact ⟨original, horiginal, huid⟩
  · rintro ⟨entry, hentry, huid⟩
    exact ⟨_, (List.mem_insertionSort _).mpr (List.mem_map_of_mem hentry), huid⟩

/-- The entry of a record that the grant covers. -/
theorem Sites.Sound.entryOf (h : sites.Sound) {identity : SyncIdentity} {grant : AgentGrantRecord}
    (hgrant : sites.agents identity = some grant) {secretUid : String} {published : Published}
    (hpublished : sites.index.get secretUid = some published)
    (hcovered : ∃ entry ∈ grant.secretGrants, entry.secretUid = secretUid) :
    (AgentSyncService.entryOf grant published.record).isSome := by
  obtain ⟨entry, hentry, huid⟩ := hcovered
  have hnamed := h.named hpublished
  have hfound : (grant.secretGrants.reverse.find?
      (·.secretUid = published.record.secretUid)).isSome := by
    rw [List.find?_isSome]
    exact ⟨entry, List.mem_reverse.mpr hentry, by simp [huid, hnamed]⟩
  obtain ⟨selected, hselected⟩ := Option.isSome_iff_exists.mp hfound
  have hmem := List.mem_reverse.mp (List.mem_of_find?_eq_some hselected)
  have hselectedUid : selected.secretUid = secretUid := by
    have hpred := List.find?_some hselected
    rw [decide_eq_true_eq] at hpred
    exact hpred.trans hnamed
  obtain ⟨other, hother, -, -, hsecretId⟩ := h.grants hgrant selected hmem
  obtain rfl : published = other :=
    Option.some.inj (hpublished.symm.trans (hselectedUid ▸ hother))
  unfold AgentSyncService.entryOf AgentSyncService.selectedGrant
  rw [hselected, Option.isSome_map, Option.filter_some, if_pos]
  · rfl
  · exact decide_eq_true hsecretId.symm

/-- What a page shows is published. -/
theorem Sites.mem_changes {identity : SyncIdentity} {grant : AgentGrantRecord} {cursor : PageCursor}
    {last : ℕ} (h : sites.Sound) {entry : AgentSyncEntry}
    (hentry : entry ∈ (sites.pageAt identity grant cursor last).changes) :
    ∃ published, sites.index.get entry.secretUid = some published ∧
      entry.controlVersionId = published.record.controlVersionId := by
  obtain ⟨record, hrecord, hsome⟩ := List.mem_filterMap.mp hentry
  obtain ⟨published, hpublished, rfl⟩ := List.mem_map.mp hrecord
  obtain ⟨⟨secretUid, hget⟩, -⟩ := mem_published.mp (List.mem_of_mem_filter hpublished)
  obtain ⟨selected, -, rfl⟩ := Option.map_eq_some_iff.mp hsome
  refine ⟨published, ?_, rfl⟩
  rw [← h.named hget] at hget
  exact hget

/-- A page shows every granted secret of its range. -/
theorem Sites.exists_change {identity : SyncIdentity} {grant : AgentGrantRecord}
    {cursor : PageCursor} {last : ℕ} (h : sites.Sound)
    (hgrant : sites.agents identity = some grant) {secretUid : String} {published : Published}
    (hpublished : sites.index.get secretUid = some published)
    (hsite : published.site = identity.apiUrl) (henvironment : published.environment = grant.environment)
    (hlower : cursor.last < published.sequence)
    (hupper : published.sequence ≤ min (max cursor.last last) cursor.checkpoint.through)
    (hcovered : ∃ entry ∈ grant.secretGrants, entry.secretUid = secretUid) :
    ∃ entry ∈ (sites.pageAt identity grant cursor last).changes, entry.secretUid = secretUid := by
  obtain ⟨entry, hentry⟩ := Option.isSome_iff_exists.mp (h.entryOf hgrant hpublished hcovered)
  refine ⟨entry, List.mem_filterMap.mpr ⟨published.record, List.mem_map.mpr ⟨published,
    List.mem_filter.mpr ⟨mem_published.mpr ⟨⟨_, hpublished⟩, hsite, henvironment⟩,
      decide_eq_true ⟨hlower, hupper⟩⟩, rfl⟩, hentry⟩, ?_⟩
  obtain ⟨selected, -, rfl⟩ := Option.map_eq_some_iff.mp hentry
  exact h.named hpublished

/-! ## Cursors -/

/-- Where a request starts to read: at its cursor, or at the checkpoint it continues from. -/
structure Starts (query : SyncQuery) (grant : AgentGrantRecord) (counter : ℕ) (cursor : PageCursor) :
    Prop where
  environment : cursor.checkpoint.environment = grant.environment
  digest : cursor.checkpoint.digest = AgentSyncService.grantDigest grant
  through : cursor.checkpoint.through ≤ counter
  query : query = .cursor cursor ∨ ∃ syncCursor, query = .syncCursor syncCursor ∧
    cursor.last = cursor.after ∧ (cursor.snapshot = false → ∃ earlier, syncCursor = some earlier ∧
      earlier.environment = cursor.checkpoint.environment ∧ cursor.after = earlier.through)

theorem Sites.of_cursorFits {checkpoint : Checkpoint} {grant : AgentGrantRecord} {through : ℕ}
    (h : cursorFits checkpoint grant through = .ok ()) : checkpoint.environment = grant.environment ∧
      checkpoint.digest = AgentSyncService.grantDigest grant ∧ checkpoint.through ≤ through := by
  unfold cursorFits at h
  split at h
  · cases h
  · rename_i hscope
    split at h
    · cases h
    · rename_i hfits
      rw [not_or, not_not, not_not] at hscope
      rw [not_or, not_not, not_lt] at hfits
      exact ⟨hscope.2, hfits⟩

theorem Sites.starts {query : SyncQuery} {grant : AgentGrantRecord} {counter : ℕ}
    {cursor : PageCursor} (h : startCursor query grant counter = .ok cursor) :
    Starts query grant counter cursor := by
  cases query with
  | cursor given =>
      change (cursorFits given.checkpoint grant counter).map (fun _ => given) = _ at h
      cases hfits : cursorFits given.checkpoint grant counter with
      | error failure =>
          rw [hfits] at h
          cases h
      | ok _ =>
          rw [hfits] at h
          obtain rfl := Except.ok.inj h
          obtain ⟨henvironment, hdigest, hthrough⟩ := of_cursorFits hfits
          exact ⟨henvironment, hdigest, hthrough, .inl rfl⟩
  | syncCursor syncCursor =>
      cases syncCursor with
      | none =>
          obtain rfl := Except.ok.inj h
          exact ⟨rfl, rfl, le_rfl, .inr ⟨none, rfl, rfl, by simp⟩⟩
      | some earlier =>
          change (cursorFits earlier grant counter).map _ = _ at h
          cases hfits : cursorFits earlier grant counter with
          | error failure =>
              rw [hfits] at h
              cases h
          | ok _ =>
              rw [hfits] at h
              obtain rfl := Except.ok.inj h
              obtain ⟨henvironment, -, -⟩ := of_cursorFits hfits
              exact ⟨rfl, rfl, le_rfl, .inr ⟨some earlier, rfl, rfl,
                fun _ => ⟨earlier, rfl, henvironment, rfl⟩⟩⟩

theorem Sites.of_syncAgent {identity : SyncIdentity} {query : SyncQuery} {last : ℕ} {page : SyncPage}
    (h : sites.syncAgent identity query last = .ok page) :
    ∃ grant cursor, sites.agents identity = some grant ∧
      Starts query grant (sites.counter identity.apiUrl grant.environment) cursor ∧
      page = sites.pageAt identity grant cursor last := by
  unfold Sites.syncAgent at h
  cases hgrant : sites.activeGrant identity with
  | error failure =>
      rw [hgrant] at h
      cases h
  | ok grant =>
      rw [hgrant] at h
      change (startCursor query grant _).bind _ = _ at h
      cases hcursor : startCursor query grant (sites.counter identity.apiUrl grant.environment) with
      | error failure =>
          rw [hcursor] at h
          cases h
      | ok cursor =>
          rw [hcursor] at h
          refine ⟨grant, cursor, ?_, Sites.starts hcursor, (Except.ok.inj h).symm⟩
          unfold Sites.activeGrant at hgrant
          cases hagent : sites.agents identity with
          | none =>
              rw [hagent] at hgrant
              cases hgrant
          | some found =>
              rw [hagent] at hgrant
              dsimp only at hgrant
              split at hgrant
              · rw [Except.ok.inj hgrant]
              · cases hgrant

/-! ## Cycles -/

/-- A cycle under way: what it has read so far. -/
structure Cluster.Cycling (s : Cluster) (identity : SyncIdentity) (syncCursor : Option Checkpoint)
    (cursor : PageCursor) (entries : Entries) : Prop where
  bounds : s.Bounds identity cursor.checkpoint
  origin : cursor.snapshot = false → ∃ earlier, syncCursor = some earlier ∧
    earlier.environment = cursor.checkpoint.environment ∧ cursor.after = earlier.through
  covers : ∀ secretUid entry, entries secretUid = some entry →
    s.Covers identity cursor.checkpoint secretUid entry.controlVersionId
  complete : ∀ secretUid published, s.sites.index.get secretUid = some published →
    published.site = identity.apiUrl → published.environment = cursor.checkpoint.environment →
    cursor.after < published.sequence →
    published.sequence ≤ min cursor.last cursor.checkpoint.through →
    (∃ entry ∈ cursor.checkpoint.digest.2.1, entry.secretUid = secretUid) →
    entries secretUid ≠ none

/-- A completed cycle: what it has not reported was published before it, or after it. -/
structure Cluster.Completed (s : Cluster) (identity : SyncIdentity)
    (syncCursor : Option Checkpoint) (sync : Synchronization) : Prop where
  bounds : s.Bounds identity sync.checkpoint
  covers : ∀ secretUid entry, sync.entries secretUid = some entry →
    s.Covers identity sync.checkpoint secretUid entry.controlVersionId
  unreported : sync.snapshot = false → ∃ earlier, syncCursor = some earlier ∧
    earlier.environment = sync.checkpoint.environment ∧
    ∀ entry ∈ sync.config.secretGrants, sync.entries entry.secretUid = none →
      ∀ published, s.sites.index.get entry.secretUid = some published →
        published.site = identity.apiUrl → published.environment = sync.checkpoint.environment →
        published.sequence ≤ earlier.through ∨ sync.checkpoint.through < published.sequence

theorem lasting_cycling (identity : SyncIdentity) (syncCursor : Option Checkpoint)
    (cursor : PageCursor) (entries : Entries) :
    Lasting fun s => s.Cycling identity syncCursor cursor entries := by
  intro s s' _ hlater h
  refine ⟨h.bounds.later hlater, h.origin, fun secretUid entry hentry =>
    (h.covers secretUid entry hentry).later h.bounds hlater, ?_⟩
  intro secretUid published hpublished hsite henvironment hlower hupper hcovered
  obtain ⟨hbefore, -⟩ | hnew := hlater.sites.index hpublished
  · exact h.complete secretUid published hbefore hsite henvironment hlower hupper hcovered
  · have hbounds := h.bounds
    unfold Cluster.Bounds at hbounds
    rw [hsite, henvironment] at hnew
    omega

theorem lasting_completed (identity : SyncIdentity) (syncCursor : Option Checkpoint)
    (sync : Synchronization) : Lasting fun s => s.Completed identity syncCursor sync := by
  intro s s' _ hlater h
  refine ⟨h.bounds.later hlater, fun secretUid entry hentry =>
    (h.covers secretUid entry hentry).later h.bounds hlater, fun hsnapshot => ?_⟩
  obtain ⟨earlier, hsync, henvironment, hgaps⟩ := h.unreported hsnapshot
  refine ⟨earlier, hsync, henvironment, fun entry hentry hnone published hpublished hsite henv => ?_⟩
  obtain ⟨hbefore, -⟩ | hnew := hlater.sites.index hpublished
  · exact hgaps entry hentry hnone published hbefore hsite henv
  · have hbounds := h.bounds
    unfold Cluster.Bounds at hbounds
    rw [hsite, henv] at hnew
    exact .inr (by omega)

/-- What a request continues: nothing, or a cycle under way. -/
def Cluster.Continues (s : Cluster) (identity : SyncIdentity) (syncCursor : Option Checkpoint)
    (query : SyncQuery) (entries : Entries) : Prop :=
  match query with
  | .syncCursor given => given = syncCursor ∧ entries = fun _ => none
  | .cursor cursor => s.Cycling identity syncCursor cursor entries

theorem lasting_continues (identity : SyncIdentity) (syncCursor : Option Checkpoint)
    (query : SyncQuery) (entries : Entries) :
    Lasting fun s => s.Continues identity syncCursor query entries := by
  cases query with
  | syncCursor given => exact .const _
  | cursor cursor => exact lasting_cycling identity syncCursor cursor entries

/-- A request starts where the cycle stands. -/
theorem Cluster.Continues.cycling {identity : SyncIdentity} {syncCursor : Option Checkpoint}
    {query : SyncQuery} {entries : Entries} (h : s.Continues identity syncCursor query entries)
    {grant : AgentGrantRecord} {cursor : PageCursor}
    (hstarts : Starts query grant (s.sites.counter identity.apiUrl grant.environment) cursor) :
    s.Cycling identity syncCursor cursor entries := by
  obtain rfl | ⟨given, rfl, hlast, horigin⟩ := hstarts.query
  · exact h
  · obtain ⟨rfl, rfl⟩ := h
    refine ⟨?_, horigin, fun _ _ hentry => (by cases hentry), ?_⟩
    · have hthrough := hstarts.through
      rw [← hstarts.environment] at hthrough
      exact hthrough
    · intro secretUid published _ _ _ hlower hupper _
      rw [hlast] at hupper
      omega

/-- **One page.**  It brings a cycle up to where the page ends. -/
theorem Cluster.Cycling.page {identity : SyncIdentity} {syncCursor : Option Checkpoint}
    {cursor : PageCursor} {entries : Entries} (h : s.Cycling identity syncCursor cursor entries)
    (hsound : s.Sound) {query : SyncQuery} {grant : AgentGrantRecord}
    (hgrant : s.sites.agents identity = some grant)
    (hstarts : Starts query grant (s.sites.counter identity.apiUrl grant.environment) cursor)
    (last : ℕ) :
    s.Cycling identity syncCursor { cursor with last := max cursor.last last }
      (setAll entries (s.sites.pageAt identity grant cursor last).changes) where
  bounds := h.bounds
  origin := h.origin
  covers := by
    intro secretUid entry hset
    obtain ⟨change, hchange, huid, hsome⟩ | ⟨-, hkept⟩ :=
      setAll_cases entries (s.sites.pageAt identity grant cursor last).changes secretUid
    · obtain rfl : change = entry := Option.some.inj (hsome.symm.trans hset)
      obtain ⟨published, hpublished, hversion⟩ := Sites.mem_changes hsound.sites hchange
      rw [hversion]
      exact hsound.covers hpublished identity cursor.checkpoint secretUid
    · exact h.covers secretUid entry (hkept.symm.trans hset)
  complete := by
    intro secretUid published hpublished hsite henvironment hlower hupper hcovered
    obtain ⟨change, hchange, huid, hsome⟩ | ⟨hnone, hkept⟩ :=
      setAll_cases entries (s.sites.pageAt identity grant cursor last).changes secretUid
    · rw [hsome]
      exact Option.some_ne_none _
    · rw [hkept]
      -- The page has not shown it, so that it was read before.
      by_cases hread : published.sequence ≤ cursor.last
      · refine h.complete secretUid published hpublished hsite henvironment hlower ?_ hcovered
        have hthrough := le_trans hupper (min_le_right _ _)
        exact le_min hread hthrough
      · dsimp only at hcovered
        rw [hstarts.digest, exists_mem_grantDigest] at hcovered
        have hwithin : published.sequence ≤ min (max cursor.last last) cursor.checkpoint.through :=
          hupper
        obtain ⟨change, hchange, huid⟩ := Sites.exists_change hsound.sites hgrant hpublished hsite
          (henvironment.trans hstarts.environment) (not_le.mp hread) hwithin hcovered
        exact absurd huid (hnone change hchange)

/-- The last page completes the cycle. -/
theorem Cluster.Cycling.completed {identity : SyncIdentity} {syncCursor : Option Checkpoint}
    {cursor : PageCursor} {entries : Entries} (h : s.Cycling identity syncCursor cursor entries)
    (hdone : cursor.checkpoint.through ≤ cursor.last) {grant : AgentGrantRecord}
    (hdigest : cursor.checkpoint.digest = AgentSyncService.grantDigest grant) :
    s.Completed identity syncCursor ⟨grant, entries, cursor.snapshot, cursor.checkpoint⟩ where
  bounds := h.bounds
  covers := h.covers
  unreported := by
    intro hsnapshot
    obtain ⟨earlier, hsync, henvironment, hafter⟩ := h.origin hsnapshot
    refine ⟨earlier, hsync, henvironment, fun entry hentry hnone published hpublished hsite henv => ?_⟩
    by_contra hcontra
    rw [not_or, not_le, not_lt] at hcontra
    refine h.complete entry.secretUid published hpublished hsite henv (by omega) ?_ ?_ hnone
    · exact le_min (hcontra.2.trans hdone) hcontra.2
    · rw [hdigest, exists_mem_grantDigest]
      exact ⟨entry, hentry, rfl⟩

/-! ## The loop -/

/-- **The pages of a cycle.**  By induction on the pages that are left. -/
theorem safe_pages (hF : Lasting F) (identity : SyncIdentity) (syncCursor : Option Checkpoint)
    (left : ℕ) (query : SyncQuery) (entries : Entries) :
    (passes runtime).Safe issued pid
      (Owned pid fun s => F s ∧ s.Continues identity syncCursor query entries)
      (synchronize.pages identity left query entries)
      (fun sync => Owned pid fun s => F s ∧ s.Completed identity syncCursor sync)
      (fun _ => Owned pid F) := by
  induction left generalizing query entries with
  | zero => exact .raise fun _ _ hs => hs.imp And.left
  | succ left ih =>
      have hlasting := hF.and (lasting_continues identity syncCursor query entries)
      refine .bind ((safe_send (q := .syncAgent identity query) (R := fun (page : SyncPage) s =>
          ∃ grant cursor, page.config = grant ∧ page.snapshot = cursor.snapshot ∧
            cursor.checkpoint.digest = AgentSyncService.grantDigest grant ∧
            s.Cycling identity syncCursor cursor (setAll entries page.changes) ∧
            (page.nextCursor = some cursor ∨ (page.nextCursor = none ∧
              page.syncCursor = some cursor.checkpoint ∧
              cursor.checkpoint.through ≤ cursor.last))) hlasting trivial (by simp)
          (fun _ _ _ => trivial) ?_).weaken (fun _ _ h => h) (fun _ _ _ h => h)
          fun _ _ _ hs => hs.imp And.left) fun (page : SyncPage) => ?_
      · intro s choice page hsound hs hanswer
        obtain ⟨grant, cursor, hgrant, hstarts, rfl⟩ := Sites.of_syncAgent hanswer
        have hpage := (hs.2.cycling hstarts).page hsound hgrant hstarts choice.last
        refine ⟨grant, { cursor with last := max cursor.last choice.last }, rfl, rfl, hstarts.digest,
          hpage, ?_⟩
        by_cases hdone : cursor.checkpoint.through ≤ max cursor.last choice.last
        · exact .inr ⟨if_pos (decide_eq_true hdone), if_pos (decide_eq_true hdone), hdone⟩
        · exact .inl (if_neg (by simpa using hdone))
      · dsimp only
        cases hnext : page.nextCursor with
        | some cursor =>
            refine (ih (.cursor cursor) (setAll entries page.changes)).of_pre fun _ _ hs =>
              hs.imp fun h => ?_
            obtain ⟨⟨hFs, -⟩, grant, current, -, -, -, hcycling, hcases⟩ := h
            obtain hsome | ⟨hnone, -⟩ := hcases
            · obtain rfl := Option.some.inj hsome
              exact ⟨hFs, hcycling⟩
            · cases hnone
        | none =>
            cases hsync : page.syncCursor with
            | none => exact .raise fun _ _ hs => hs.imp fun h => h.1.1
            | some checkpoint =>
                refine .ret fun _ _ hs => hs.imp fun h => ?_
                obtain ⟨⟨hFs, -⟩, grant, current, rfl, hsnapshot, hdigest, hcycling, hcases⟩ := h
                obtain hsome | ⟨-, hcheckpoint, hdone⟩ := hcases
                · cases hsome
                · obtain rfl := Option.some.inj hcheckpoint
                  rw [hsnapshot]
                  exact ⟨hFs, hcycling.completed hdone hdigest⟩

/-- **A cycle.**  A snapshot taken instead of it remembers no cursor. -/
theorem safe_synchronize (hF : Lasting F) (identity : SyncIdentity)
    (syncCursor : Option Checkpoint) :
    (passes runtime).Safe issued pid (Owned pid F) (synchronize identity syncCursor)
      (fun sync => Owned pid fun s => F s ∧ s.Completed identity syncCursor sync)
      (fun _ => Owned pid F) := by
  refine .recover (E := fun _ => Owned pid F)
    ((safe_pages hF identity syncCursor pageLimit (.syncCursor syncCursor) _).of_pre
      fun _ _ hs => hs.imp fun h => ⟨h, rfl, rfl⟩) fun failure => .ite (fun _ => ?_) fun _ =>
    .raise fun _ _ hs => hs
  refine ((safe_pages hF identity none pageLimit (.syncCursor none) _).of_pre
    fun _ _ hs => hs.imp fun h => ⟨h, rfl, rfl⟩).post fun sync _ _ hs => hs.imp fun h => ?_
  refine ⟨h.1, h.2.bounds, h.2.covers, fun hsnapshot => ?_⟩
  obtain ⟨earlier, hnone, -⟩ := h.2.unreported hsnapshot
  cases hnone

end Hemlig.Kubernetes
