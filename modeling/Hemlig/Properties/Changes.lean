import Hemlig.Repositories.Changes
import Hemlig.Properties.Archive
import Hemlig.Verification.Undisturbed

/-!
# The pages of the change feed

The feed collapses the records of a reused name within a page.  Followed to its end it names
each secret once if and only if no name has records on two pages; it then shows what a single
page would have shown.
-/

namespace Hemlig

open Concurrent DynamoRepository

variable {s : Cloud} {pid : ℕ} {choose : Request → Choice} {consumerId environment : String}

/-! ## What the programs answer -/

/-- A loop of reads. -/
theorem finish_mapM {α β : Type} {f : α → Service β} {g : α → β} {items : List α}
    (h : ∀ item ∈ items, service.finish pid choose (f item) s = some (.ok (g item), s)) :
    service.finish pid choose (items.mapM f) s = some (.ok (items.map g), s) := by
  rw [← List.mapM'_eq_mapM]
  induction items with
  | nil => rfl
  | cons item rest ih =>
      rw [List.mapM'_cons, List.map_cons]
      refine (System.finish_bind_ok (h item List.mem_cons_self)).trans ?_
      exact (System.finish_bind_ok (ih fun other hmem => h other (List.mem_cons_of_mem _ hmem))).trans rfl

namespace Cloud

variable (s)

/-- The UID behind a name. -/
def liveSecretUid (environment secretId : String) : Option String :=
  (s.lookup environment secretId).map SecretLookup.secretUid

/-- What the feed shows of an access record. -/
def changeOf (access : AccessRecord) : AccessRecord :=
  if .read ∉ access.permissions ∨ access.state = .revoked then access
  else access.snapshot (s.head access.secretUid)

/-- What the feed shows of the records of a name. -/
def pickChange (environment secretId : String) : List AccessRecord → Option AccessRecord
  | [] => none
  | [first] => some first
  | first :: rest => some (chooseChange (s.liveSecretUid environment secretId) first (first :: rest))

/-- What the feed shows of the records of a page. -/
def collapsed (environment : String) (changes : List AccessRecord) : List AccessRecord :=
  Paging.collapse AccessRecord.secretId (s.pickChange environment) changes

end Cloud

theorem finish_getSecretUid (hchoose : Faultless choose) (environment secretId : String) :
    service.finish pid choose (getSecretUid environment secretId) s =
      some (.ok (s.liveSecretUid environment secretId), s) :=
  (System.finish_bind_ok (finish_send hchoose rfl)).trans rfl

theorem finish_currentAccessSnapshot (hchoose : Faultless choose) (access : AccessRecord) :
    service.finish pid choose (currentAccessSnapshot access) s = some (.ok (s.changeOf access), s) := by
  unfold currentAccessSnapshot Cloud.changeOf
  split
  · rfl
  · exact (System.finish_bind_ok (finish_send hchoose rfl)).trans rfl

theorem finish_collapseGroup (hchoose : Faultless choose) (environment secretId : String)
    (group : List AccessRecord) :
    service.finish pid choose (collapseGroup environment secretId group) s =
      some (.ok (s.pickChange environment secretId group).toList, s) := by
  match group with
  | [] => rfl
  | [first] => rfl
  | first :: second :: rest =>
      exact (System.finish_bind_ok (finish_getSecretUid hchoose environment secretId)).trans rfl

theorem finish_collapse (hchoose : Faultless choose) (environment : String)
    (changes : List AccessRecord) :
    service.finish pid choose (collapseReusedSecretIds environment changes) s =
      some (.ok (s.collapsed environment changes), s) := by
  refine (System.finish_bind_ok (finish_mapM fun secretId _ =>
    finish_collapseGroup hchoose environment secretId _)).trans ?_
  show some (Except.ok (List.map _ _).flatten, s) = _
  rw [← List.flatMap_def, Cloud.collapsed, Paging.collapse, List.filterMap_eq_flatMap_toList]

theorem finish_listAccess (hchoose : Faultless choose) (consumerId environment : String)
    (startKey : Option String) :
    service.finish pid choose (listAccess consumerId environment startKey) s =
      some (.ok ⟨s.collapsed environment ((s.accessFrom consumerId environment startKey
        (choose (.accessPage consumerId environment startKey)).last).map s.changeOf),
          (choose (.accessPage consumerId environment startKey)).last⟩, s) := by
  refine (System.finish_bind_ok (finish_send hchoose rfl)).trans ?_
  refine (System.finish_bind_ok (finish_mapM fun access _ =>
    finish_currentAccessSnapshot hchoose access)).trans ?_
  exact (System.finish_bind_ok (finish_collapse hchoose environment _)).trans rfl

/-! ## The pages of a feed -/

/-- The pages of a feed, each with the keys it lies between. -/
def pageBounds (choose : Request → Choice) (consumerId environment : String) :
    ℕ → Option String → List (Option String × Option String)
  | 0, _ => []
  | left + 1, cursor =>
      match (choose (.accessPage consumerId environment cursor)).last with
      | none => [(cursor, none)]
      | some key => (cursor, some key) :: pageBounds choose consumerId environment left (some key)

/-- The record of a secret lies on the page. -/
def onPage (page : Option String × Option String) (u : String) : Bool :=
  page.1.all (· < u) && page.2.all (u ≤ ·)

theorem finish_allChanges (hchoose : Faultless choose) {left : ℕ} {cursor : Option String}
    {entries : List AccessRecord} {s' : Cloud}
    (h : service.finish pid choose (Consumer.allChanges consumerId environment left cursor) s =
      some (.ok entries, s')) :
    entries = (pageBounds choose consumerId environment left cursor).flatMap (fun page =>
      s.collapsed environment ((s.accessFrom consumerId environment page.1 page.2).map s.changeOf)) ∧
    ∀ u, cursor.all (· < u) = true →
      ∃ page ∈ pageBounds choose consumerId environment left cursor, onPage page u = true := by
  induction left generalizing cursor entries s' with
  | zero => cases h
  | succ left ih =>
      rw [Consumer.allChanges, Program.bind_eq,
        System.finish_bind_ok (finish_listAccess hchoose consumerId environment cursor)] at h
      rw [pageBounds]
      cases hlast : (choose (.accessPage consumerId environment cursor)).last with
      | none =>
          simp only [hlast] at h
          cases h
          refine ⟨by simp, fun u hafter => ⟨_, List.mem_singleton.mpr rfl, ?_⟩⟩
          exact Bool.and_eq_true_iff.mpr ⟨hafter, rfl⟩
      | some key =>
          simp only [hlast, Program.bind_eq] at h
          rw [System.finish_bind] at h
          obtain ⟨⟨outcome, after⟩, hrest, hdone⟩ := Option.bind_eq_some_iff.mp h
          cases outcome with
          | error error => cases hdone
          | ok rest =>
              obtain ⟨rfl, hcover⟩ := ih hrest
              cases hdone
              refine ⟨by simp, fun u hafter => ?_⟩
              by_cases hkey : u ≤ key
              · refine ⟨_, List.mem_cons_self, ?_⟩
                exact Bool.and_eq_true_iff.mpr ⟨hafter, decide_eq_true hkey⟩
              · obtain ⟨page, hmem, hpage⟩ := hcover u (decide_eq_true (not_le.mp hkey))
                exact ⟨page, List.mem_cons_of_mem _ hmem, hpage⟩

/-! ## The records behind a feed -/

namespace Cloud

variable (s)

/-- The access records of a consumer, each with the UID of its key. -/
def accessRows (consumerId environment : String) : List (String × AccessRecord) :=
  s.table.keys.dedup.filterMap fun
    | .access consumerId' environment' secretUid =>
        if consumerId' = consumerId ∧ environment' = environment then
          (s.access consumerId environment secretUid).map fun access => (secretUid, access)
        else none
    | _ => none

theorem mem_accessRows {u : String} {access : AccessRecord} :
    (u, access) ∈ s.accessRows consumerId environment ↔
      s.access consumerId environment u = some access := by
  simp only [accessRows, List.mem_filterMap, List.mem_dedup]
  constructor
  · rintro ⟨key, -, hrow⟩
    split at hrow
    · split at hrow
      · obtain ⟨other, hother, heq⟩ := Option.map_eq_some_iff.mp hrow
        cases heq
        exact hother
      · cases hrow
    · cases hrow
  · intro haccess
    refine ⟨.access consumerId environment u, s.table.covered _ ?_, ?_⟩
    · exact Option.isSome_iff_exists.mpr ⟨access, haccess⟩
    · simp [haccess]

theorem accessFrom_eq (consumerId environment : String) (page : Option String × Option String) :
    s.accessFrom consumerId environment page.1 page.2 =
      ((s.accessRows consumerId environment).filter fun row => onPage page row.1).map Prod.snd := by
  rw [accessFrom, accessRows, List.filter_filterMap, List.map_filterMap]
  refine List.filterMap_congr fun key _ => ?_
  cases key with
  | access consumerId' environment' u =>
      by_cases hmine : consumerId' = consumerId ∧ environment' = environment
      · obtain ⟨rfl, rfl⟩ := hmine
        have honPage : onPage page u = true ↔
            page.1.all (· < u) = true ∧ page.2.all (u ≤ ·) = true := Bool.and_eq_true_iff
        cases haccess : s.access consumerId' environment' u with
        | none => simp only [haccess, ite_self, Option.map_none, Option.filter_none, and_self]
        | some access =>
            by_cases hpage : onPage page u = true
            · simp only [haccess, honPage.mp hpage, hpage, and_self, if_true, Option.map_some,
                Option.filter_some]
            · have hnot : ¬ (page.1.all (· < u) = true ∧ page.2.all (u ≤ ·) = true) :=
                fun h => hpage (honPage.mpr h)
              simp only [haccess, hnot, and_false, if_false, and_self, if_true, Option.map_some,
                Option.filter_some, hpage]
              rfl
      · have hnot : ¬ (consumerId' = consumerId ∧ environment' = environment ∧
            page.1.all (· < u) = true ∧ page.2.all (u ≤ ·) = true) := fun h => hmine ⟨h.1, h.2.1⟩
        simp only [hmine, hnot, if_false, Option.filter_none, Option.map_none]
  | _ => rfl

end Cloud

/-! ## What a feed shows -/

theorem secretId_changeOf (access : AccessRecord) : (s.changeOf access).secretId = access.secretId := by
  unfold Cloud.changeOf AccessRecord.snapshot AccessRecord.revokedEntry
  repeat' split
  all_goals rfl

theorem secretUid_changeOf (access : AccessRecord) :
    (s.changeOf access).secretUid = access.secretUid := by
  unfold Cloud.changeOf AccessRecord.snapshot AccessRecord.revokedEntry
  repeat' split
  all_goals rfl

theorem mem_chooseChange (live : Option String) {first : AccessRecord} {group : List AccessRecord}
    (hfirst : first ∈ group) :
    ∃ change ∈ group, (chooseChange live first group).secretId = change.secretId := by
  unfold chooseChange
  split
  · exact ⟨_, List.mem_of_find?_eq_some ‹_›, rfl⟩
  · cases hrevocation : group.find? fun change =>
        decide (change.state = .revoked ∨ .read ∉ change.permissions) with
    | none => exact ⟨first, hfirst, rfl⟩
    | some revocation => exact ⟨revocation, List.mem_of_find?_eq_some hrevocation, rfl⟩

/-- What stands for a name has it. -/
theorem secretId_pickChange {secretId : String} {group : List AccessRecord} {entry : AccessRecord}
    (hgroup : ∀ change ∈ group, change.secretId = secretId)
    (hpick : s.pickChange environment secretId group = some entry) : entry.secretId = secretId := by
  match group with
  | [] => cases hpick
  | [first] =>
      obtain rfl := Option.some.inj hpick
      exact hgroup _ List.mem_cons_self
  | first :: second :: rest =>
      obtain rfl := Option.some.inj hpick
      obtain ⟨change, hmem, heq⟩ := mem_chooseChange (s.liveSecretUid environment secretId)
        (List.mem_cons_self (a := first) (l := second :: rest))
      exact heq.trans (hgroup change hmem)

/-- The live record stands for its name. -/
theorem secretUid_pickChange {secretId : String} {group : List AccessRecord} {change entry : AccessRecord}
    (hmem : change ∈ group) (hlive : s.liveSecretUid environment secretId = some change.secretUid)
    (hpick : s.pickChange environment secretId group = some entry) :
    entry.secretUid = change.secretUid := by
  match group with
  | [] => cases hpick
  | [first] =>
      obtain rfl := Option.some.inj hpick
      rw [List.mem_singleton.mp hmem]
  | first :: second :: rest =>
      cases hpick
      unfold chooseChange
      split
      · rename_i liveChange hfound
        have hsame := List.find?_some hfound
        simpa [hlive] using hsame
      · rename_i hnone
        have hnot := List.find?_eq_none.mp hnone change hmem
        simp [hlive] at hnot

/-- Something stands for every name. -/
theorem isSome_pickChange {secretId : String} {group : List AccessRecord} {change : AccessRecord}
    (hmem : change ∈ group) : ∃ entry, s.pickChange environment secretId group = some entry := by
  match group with
  | [] => cases hmem
  | [first] => exact ⟨first, rfl⟩
  | first :: second :: rest => exact ⟨_, rfl⟩

/-- The name of a record. -/
def nameOf (row : String × AccessRecord) : String := row.2.secretId

/-- What stands for a name, by its records. -/
def Cloud.pickRow (s : Cloud) (environment secretId : String) (group : List (String × AccessRecord)) :
    Option AccessRecord :=
  s.pickChange environment secretId (group.map fun row => s.changeOf row.2)

theorem keeps_pickRow : Paging.Keeps nameOf (s.pickRow environment) AccessRecord.secretId := by
  intro rows row hrow
  have hmem : row ∈ Paging.group nameOf rows (nameOf row) := Paging.mem_group.mpr ⟨hrow, rfl⟩
  obtain ⟨entry, hentry⟩ : ∃ entry, s.pickChange environment (nameOf row) _ = some entry :=
    isSome_pickChange (List.mem_map_of_mem (f := fun row => s.changeOf row.2) hmem)
  have hname : entry.secretId = nameOf row := by
    refine secretId_pickChange (fun change hchange => ?_) hentry
    obtain ⟨other, hother, rfl⟩ := List.mem_map.mp hchange
    exact (secretId_changeOf _).trans (Paging.mem_group.mp hother).2
  rw [Cloud.pickRow, hentry, Option.map_some, hname]

/-- A page shows what its records collapse to. -/
theorem collapsed_rows (rows : List (String × AccessRecord)) :
    s.collapsed environment ((rows.map Prod.snd).map s.changeOf) =
      Paging.collapse nameOf (s.pickRow environment) rows := by
  rw [Cloud.collapsed, List.map_map, Paging.collapse_map]
  have hname : (fun row : String × AccessRecord => ((s.changeOf ∘ Prod.snd) row).secretId) = nameOf :=
    funext fun row => secretId_changeOf _
  rw [hname]
  rfl

/-- **A feed is settled**: it names each secret once, by the live record if the consumer has
one, and shows what a single page with all records would have shown. -/
structure FeedSettled (s : Cloud) (consumerId environment : String) (entries : List AccessRecord) :
    Prop where
  once : (entries.map AccessRecord.secretId).Nodup
  live : ∀ u access, s.access consumerId environment u = some access →
    s.liveSecretUid environment access.secretId = some access.secretUid →
      ∃ entry ∈ entries, entry.secretId = access.secretId ∧ entry.secretUid = access.secretUid
  whole : ∀ entry, entry ∈ entries ↔
    entry ∈ s.collapsed environment ((s.accessFrom consumerId environment none none).map s.changeOf)

/-- No name has access records on two pages. -/
def Cloud.Undivided (s : Cloud) (consumerId environment : String)
    (pages : List (Option String × Option String)) : Prop :=
  pages.Pairwise fun page page' => ∀ u u' access access',
    s.access consumerId environment u = some access →
      s.access consumerId environment u' = some access' → onPage page u = true →
        onPage page' u' = true → access.secretId ≠ access'.secretId

theorem undivided_iff {pages : List (Option String × Option String)} :
    s.Undivided consumerId environment pages ↔
      Paging.Undivided nameOf (s.accessRows consumerId environment)
        (pages.map fun page row => onPage page row.1) := by
  rw [Cloud.Undivided, Paging.Undivided, List.pairwise_map]
  refine List.Pairwise.iff fun page page' => ?_
  constructor
  · rintro h ⟨u, access⟩ hrow ⟨u', access'⟩ hrow' hpage hpage'
    exact h u u' access access' (s.mem_accessRows.mp hrow) (s.mem_accessRows.mp hrow') hpage hpage'
  · intro h u u' access access' haccess haccess' hpage hpage'
    exact h (u, access) (s.mem_accessRows.mpr haccess) (u', access') (s.mem_accessRows.mpr haccess')
      hpage hpage'

/-- **When a feed is settled.**  A feed that is followed to its end is settled if and only if
no name has access records on two of its pages. -/
theorem feed_settled_iff (hchoose : Faultless choose) {left : ℕ} {entries : List AccessRecord}
    {s' : Cloud}
    (h : service.finish pid choose (Consumer.allChanges consumerId environment left none) s =
      some (.ok entries, s')) :
    FeedSettled s consumerId environment entries ↔
      s.Undivided consumerId environment (pageBounds choose consumerId environment left none) := by
  obtain ⟨hentries, hcover⟩ := finish_allChanges hchoose h
  have hcells : entries = Paging.collapseCells nameOf (s.pickRow environment)
      (s.accessRows consumerId environment)
      ((pageBounds choose consumerId environment left none).map fun page row => onPage page row.1) := by
    rw [hentries, Paging.collapseCells, List.flatMap_map]
    refine congrArg (List.flatMap · _) (funext fun page => ?_)
    rw [Cloud.accessFrom_eq, collapsed_rows]
  have hall : s.collapsed environment ((s.accessFrom consumerId environment none none).map s.changeOf) =
      Paging.collapse nameOf (s.pickRow environment) (s.accessRows consumerId environment) := by
    rw [s.accessFrom_eq consumerId environment (none, none), collapsed_rows]
    refine congrArg _ (List.filter_eq_self.mpr fun row _ => rfl)
  rw [undivided_iff, ← Paging.nodup_collapseCells_iff keeps_pickRow, ← hcells]
  refine ⟨FeedSettled.once, fun hnodup => ?_⟩
  have hwhole : ∀ entry, entry ∈ entries ↔ entry ∈ Paging.collapse nameOf (s.pickRow environment)
      (s.accessRows consumerId environment) := by
    intro entry
    rw [hcells] at hnodup ⊢
    refine Paging.mem_collapseCells_iff ((Paging.nodup_collapseCells_iff keeps_pickRow).mp hnodup) ?_
    intro row _
    obtain ⟨page, hmem, hpage⟩ := hcover row.1 rfl
    exact ⟨_, List.mem_map_of_mem hmem, hpage⟩
  refine ⟨hnodup, fun u access haccess hlive => ?_, fun entry => by rw [hall, hwhole]⟩
  have hrow := s.mem_accessRows.mpr haccess
  have hmem : s.changeOf access ∈ (Paging.group nameOf (s.accessRows consumerId environment)
      access.secretId).map fun row => s.changeOf row.2 :=
    List.mem_map.mpr ⟨(u, access), Paging.mem_group.mpr ⟨hrow, rfl⟩, rfl⟩
  obtain ⟨entry, hentry⟩ : ∃ entry, s.pickChange environment access.secretId _ = some entry :=
    isSome_pickChange hmem
  refine ⟨entry, (hwhole entry).mpr (Paging.mem_collapse.mpr ⟨_, hrow, hentry⟩), ?_, ?_⟩
  · refine secretId_pickChange (fun change hchange => ?_) hentry
    obtain ⟨other, hother, rfl⟩ := List.mem_map.mp hchange
    exact (secretId_changeOf _).trans (Paging.mem_group.mp hother).2
  · rw [secretUid_pickChange hmem (by rw [secretUid_changeOf]; exact hlive) hentry,
      secretUid_changeOf]

/-! ## A name on two pages -/

namespace Sample

/-- The consumer `app-one` was registered. -/
def appRegistered : Cloud := registered ["app-one"] none

/-- A process creates `api-key`, which `app-one` may read. -/
def sharing (pid : ℕ) (tag idempotencyKey : String) : List ServiceAction :=
  .start pid (.create { creation idempotencyKey with acl := [⟨"app-one", ["read"]⟩] }) :: steps pid
    [plain, plain, plain, plain, fresh tag, fresh tag, plain, fresh ("op-" ++ tag), plain, plain, plain,
      fresh ("v-" ++ tag), fresh ("n-" ++ tag), plain, plain, plain]

/-- `api-key` is created, archived and created again. -/
def readopted : List ServiceAction :=
  founding ++ sharing 1 "a" "k1" ++
    .start 2 (.archive ⟨"api-key", "prod", "ctl-a", admin, "k2"⟩) :: steps 2
      [plain, plain, plain, fresh "b", plain, plain, plain, plain, plain, plain, fresh "op-b",
        plain, plain, plain, fresh "v-b", plain, plain, fresh "n-b", plain, plain, plain, plain, plain] ++
    sharing 3 "c" "k3"

theorem readopted_checked : (service.run (World.initial appRegistered) readopted).any (fun w => decide
    ((w.store.lookup "prod" "api-key").map SecretLookup.secretUid = some "sec-c")) = true := by
  decide +kernel

theorem readopted_runs : (service.run (World.initial appRegistered) readopted).isSome = true :=
  Option.isSome_of_any readopted_checked

/-- What the feed of `app-one` names, by the end of its first page. -/
def feed (last : Option String) : Option (List String) :=
  (service.finish 4
    (fun
      | .accessPage _ _ none => { last := last }
      | _ => {})
    (Consumer.allChanges "app-one" "prod" 2 none) (reached Sample.appRegistered _ readopted_runs).store).bind
      fun outcome => outcome.1.toOption.map (·.map AccessRecord.secretId)

theorem feed_readopted :
    feed none = some ["api-key"] ∧ feed (some "sec-b") = some ["api-key", "api-key"] := by
  decide +kernel

end Sample

/-- The feed that `feed` shows was followed to its end. -/
theorem finish_of_feed {last : Option String} {names : List String}
    (hfeed : Sample.feed last = some names) :
    ∃ choose : Request → Choice, Faultless choose ∧ (choose (.accessPage "app-one" "prod" none)).last = last ∧
      ∃ entries s', service.finish 4 choose (Consumer.allChanges "app-one" "prod" 2 none)
          (reached Sample.appRegistered _ Sample.readopted_runs).store = some (.ok entries, s') ∧
        entries.map AccessRecord.secretId = names := by
  obtain ⟨⟨outcome, s'⟩, hfinish, hnames⟩ := Option.bind_eq_some_iff.mp hfeed
  cases outcome with
  | error failure => cases hnames
  | ok entries =>
      refine ⟨_, fun q => ?_, rfl, entries, s', hfinish, Option.some.inj hnames⟩
      split <;> rfl

theorem feed_settled_readopted : ∃ entries,
    FeedSettled (reached Sample.appRegistered _ Sample.readopted_runs).store "app-one" "prod" entries ∧
      entries.map AccessRecord.secretId = ["api-key"] := by
  obtain ⟨choose, hchoose, hlast, entries, s', hfinish, hnames⟩ :=
    finish_of_feed Sample.feed_readopted.1
  refine ⟨entries, (feed_settled_iff hchoose hfinish).mpr ?_, hnames⟩
  rw [pageBounds, hlast]
  exact List.pairwise_singleton _ _

/-- **A feed names a secret twice.**  The records of its archived and its live UID lie on two
pages. -/
theorem feed_unsettled : ¬ ∀ (init : Cloud), Initial init → ∀ (w : ServiceWorld)
    (actions : List ServiceAction), service.run (World.initial init) actions = some w →
      ∀ (pid : ℕ) (choose : Request → Choice), Faultless choose →
        ∀ consumerId environment left entries s',
          service.finish pid choose (Consumer.allChanges consumerId environment left none) w.store =
              some (.ok entries, s') →
            FeedSettled w.store consumerId environment entries := by
  intro hall
  obtain ⟨choose, hchoose, -, entries, s', hfinish, hnames⟩ :=
    finish_of_feed Sample.feed_readopted.2
  have hsettled := hall _ (Sample.initial_registered _ _) _ _ (run_reached Sample.readopted_runs) 4 choose hchoose
    _ _ _ _ _ hfinish
  have honce := hsettled.once
  rw [hnames] at honce
  revert honce
  decide

end Hemlig
