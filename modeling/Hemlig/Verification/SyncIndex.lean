import Hemlig.Repositories.SyncKeys
import Hemlig.Verification.Rules

/-!
# What a page of the index shows

Each secret has at most one row, at the sequence of its head, and a row is never
changed: it only leaves the index, or stays.  New rows lie beyond the counter.  So
what a cycle has collected up to some key stays true while it reads on, as long as
it only looks up to where the counter stood when it began.
-/

namespace Hemlig

open Concurrent Store AgentSyncService Controller

variable {init s s' : Cloud} {pid : ℕ}

/-! ## Records of the index -/

/-- The index of an environment holds a record at a sequence. -/
def Cloud.Indexed (s : Cloud) (environment : String) (sequence : ℕ) (record : AgentSyncRecord) :
    Prop :=
  ∃ row, s.change environment (syncSk sequence record.secretUid) = some row ∧ row.record = record

/-- The counter of an environment has passed a sequence. -/
def Cloud.Reached (s : Cloud) (environment : String) (through : ℕ) : Prop :=
  ∃ state, s.syncState environment = some state ∧ through ≤ state.sequence

theorem Cloud.Reached.safe (hinv : Invariant init s) {environment : String} {through : ℕ}
    (h : s.Reached environment through) : through ≤ maximumSafeInteger := by
  obtain ⟨state, hstate, hle⟩ := h
  exact hle.trans (hinv.sync.bound hstate)

theorem Evolves.reached {actor : Option ℕ} (h : Evolves actor s s') {environment : String}
    {through : ℕ} (hreached : s.Reached environment through) : s'.Reached environment through := by
  obtain ⟨state, hstate, hle⟩ := hreached
  have hcounter := h.counters environment
  simp only [Cloud.counter, hstate, Option.map_some] at hcounter
  cases hstate' : s'.syncState environment with
  | none => simp [hstate', CounterLe] at hcounter
  | some state' =>
      simp only [hstate', Option.map_some, CounterLe] at hcounter
      exact ⟨state', hstate', hle.trans hcounter.2⟩

/-- A record stands at the sequence of its head. -/
theorem Cloud.Indexed.head (hinv : Invariant init s) {environment : String} {sequence : ℕ}
    {record : AgentSyncRecord} (h : s.Indexed environment sequence record)
    (hsafe : sequence ≤ maximumSafeInteger) :
    ∃ head, s.head record.secretUid = some head ∧ head.Committed ∧
      head.environment = environment ∧ head.syncSequence = some sequence ∧ 1 ≤ sequence := by
  obtain ⟨row, hrow, rfl⟩ := h
  obtain ⟨head, sequence', control, hhead, hcommitted, henvironment, hsequence, hsk, -⟩ :=
    hinv.sync.row hrow
  obtain ⟨-, state, hstate, hpos, hle, -⟩ := hinv.sync.head hhead hsequence
  have hsafe' := hle.trans (hinv.sync.bound hstate)
  obtain ⟨rfl, -⟩ := (syncSk_inj hsafe hsafe').mp hsk
  exact ⟨head, hhead, hcommitted, henvironment, hsequence, hpos⟩

/-- **A secret has one record.** -/
theorem Cloud.Indexed.unique (hinv : Invariant init s) {environment : String}
    {sequence sequence' : ℕ} {record record' : AgentSyncRecord}
    (h : s.Indexed environment sequence record) (h' : s.Indexed environment sequence' record')
    (hsafe : sequence ≤ maximumSafeInteger) (hsafe' : sequence' ≤ maximumSafeInteger)
    (huid : record.secretUid = record'.secretUid) : sequence = sequence' ∧ record = record' := by
  obtain ⟨head, hhead, -, -, hsequence, -⟩ := h.head hinv hsafe
  obtain ⟨head', hhead', -, -, hsequence', -⟩ := h'.head hinv hsafe'
  rw [huid] at hhead
  obtain rfl : head = head' := Option.some.inj (hhead.symm.trans hhead')
  obtain rfl : sequence = sequence' := Option.some.inj (hsequence.symm.trans hsequence')
  obtain ⟨row, hrow, rfl⟩ := h
  obtain ⟨row', hrow', rfl⟩ := h'
  rw [huid] at hrow
  exact ⟨rfl, congrArg ChangeRow.record (Option.some.inj (hrow.symm.trans hrow'))⟩

/-- A record that the counter has passed is not a new one. -/
theorem Evolves.indexed {actor : Option ℕ} (h : Evolves actor s s') (hinv : Invariant init s)
    {environment : String} {through sequence : ℕ} {record : AgentSyncRecord}
    (hreached : s.Reached environment through) (hle : sequence ≤ through)
    (hindexed : s'.Indexed environment sequence record) :
    s.Indexed environment sequence record := by
  obtain ⟨row, hrow, rfl⟩ := hindexed
  rcases h.changes hrow with hsame | ⟨sequence', hsk, hsafe', hbeyond⟩
  · exact ⟨row, hsame, rfl⟩
  · have hsafe := hle.trans (hreached.safe hinv)
    obtain ⟨rfl, -⟩ := (syncSk_inj hsafe hsafe').mp hsk
    obtain ⟨state, hstate, hthrough⟩ := hreached
    have := hbeyond state hstate
    omega

/-! ## What a cycle has collected -/

/-- Between `after` and `through`, the entries of the records whose keys satisfy `seen`
are collected, and nothing else is. -/
structure Collected (s : Cloud) (environment : String) (grant : AgentGrantRecord)
    (after through : ℕ) (seen : String → Prop) (entries : Entries) : Prop where
  reached : s.Reached environment through
  held : ∀ {sequence record entry}, s.Indexed environment sequence record → after < sequence →
    sequence ≤ through → seen (syncSk sequence record.secretUid) →
      entryOf grant record = some entry → entries record.secretUid = some entry
  clean : ∀ {sequence record}, s.Indexed environment sequence record → sequence ≤ after →
    sequence ≤ through → entries record.secretUid = none

theorem lasts_collected {environment : String} {grant : AgentGrantRecord} {after through : ℕ}
    {seen : String → Prop} {entries : Entries} :
    Lasts init fun s => Collected s environment grant after through seen entries :=
  fun _ _ _ hinv _ hevolves h =>
    { reached := hevolves.reached h.reached
      held := fun hindexed hafter hle => h.held (hevolves.indexed hinv h.reached hle hindexed) hafter hle
      clean := fun hindexed hafter hle =>
        h.clean (hevolves.indexed hinv h.reached hle hindexed) hafter hle }

/-- Since the counter was read, records only came in beyond it, and the secrets that had
one still have a place. -/
structure Since (first s : Cloud) (environment : String) (through : ℕ) : Prop where
  reached : s.Reached environment through
  records : ∀ {sequence record}, s.Indexed environment sequence record → sequence ≤ through →
    first.Indexed environment sequence record
  heads : ∀ {sequence record}, first.Indexed environment sequence record → sequence ≤ through →
    ∃ head sequence', s.head record.secretUid = some head ∧ head.environment = environment ∧
      head.Committed ∧ head.syncSequence = some sequence'

theorem lasts_since {first : Cloud} {environment : String} {through : ℕ} :
    Lasts init fun s => Since first s environment through := by
  intro s s' actor hinv _ hevolves h
  refine ⟨hevolves.reached h.reached, fun hindexed hle =>
    h.records (hevolves.indexed hinv h.reached hle hindexed) hle, fun hindexed hle => ?_⟩
  obtain ⟨head, sequence', hhead, henvironment, hcommitted, hsequence⟩ := h.heads hindexed hle
  obtain ⟨head', hhead', hcommitted', -⟩ := hevolves.heads hhead hcommitted
  refine ⟨head', ?_⟩
  cases hnone : head'.syncSequence with
  | none =>
      obtain ⟨other, hother, -, hunsynced⟩ := hevolves.unsynced hhead' hcommitted' hnone
      obtain rfl : head = other := Option.some.inj (hhead.symm.trans hother)
      cases hunsynced.symm.trans hsequence
  | some sequence'' =>
      exact ⟨sequence'', hhead', (hevolves.identity hhead hhead').1.trans henvironment,
        hcommitted', rfl⟩

theorem Since.refl (hinv : Invariant init s) {environment : String} {through : ℕ}
    (hreached : s.Reached environment through) : Since s s environment through := by
  refine ⟨hreached, fun h _ => h, fun {sequence record} hindexed hle => ?_⟩
  obtain ⟨head, hhead, hcommitted, henvironment, hsequence, -⟩ :=
    hindexed.head hinv (hle.trans (hreached.safe hinv))
  exact ⟨head, sequence, hhead, henvironment, hcommitted, hsequence⟩

/-! ## Applying a page -/

theorem setAll_of_not_mem {entries : Entries} {changes : List AgentSyncEntry} {u : String}
    (h : ∀ entry ∈ changes, entry.secretUid ≠ u) : setAll entries changes u = entries u := by
  induction changes generalizing entries with
  | nil => rfl
  | cons entry rest ih =>
      rw [setAll, List.foldl_cons]
      refine (ih fun other hother => h other (List.mem_cons_of_mem _ hother)).trans ?_
      exact Function.update_of_ne (h entry List.mem_cons_self).symm _ _

theorem setAll_of_mem {entries : Entries} {changes : List AgentSyncEntry} {entry : AgentSyncEntry}
    (hmem : entry ∈ changes)
    (hunique : ∀ other ∈ changes, other.secretUid = entry.secretUid → other = entry) :
    setAll entries changes entry.secretUid = some entry := by
  induction changes generalizing entries with
  | nil => cases hmem
  | cons first rest ih =>
      rw [setAll, List.foldl_cons]
      by_cases hrest : entry ∈ rest
      · exact ih hrest fun other hother => hunique other (List.mem_cons_of_mem _ hother)
      · obtain rfl : entry = first := (List.mem_cons.mp hmem).resolve_right hrest
        refine (setAll_of_not_mem fun other hother huid => ?_).trans (Function.update_self ..)
        exact hrest (hunique other (List.mem_cons_of_mem _ hother) huid ▸ hother)

theorem secretUid_of_entryOf {grant : AgentGrantRecord} {record : AgentSyncRecord}
    {entry : AgentSyncEntry} (h : entryOf grant record = some entry) :
    entry.secretUid = record.secretUid := by
  obtain ⟨selected, -, rfl⟩ := Option.map_eq_some_iff.mp h
  rfl

/-- What a page shows: records of the range beyond what was seen, and all of them up to
where the page ends. -/
structure Shown (s : Cloud) (environment : String) (after through : ℕ) (seen seen' : String → Prop)
    (records : List AgentSyncRecord) : Prop where
  sound : ∀ record ∈ records, ∃ sequence, s.Indexed environment sequence record ∧
    after < sequence ∧ sequence ≤ through ∧ ¬ seen (syncSk sequence record.secretUid)
  complete : ∀ {sequence record}, s.Indexed environment sequence record → after < sequence →
    sequence ≤ through → ¬ seen (syncSk sequence record.secretUid) →
      seen' (syncSk sequence record.secretUid) → record ∈ records

/-- **A page continues what was collected.** -/
theorem Collected.page (hinv : Invariant init s) {environment : String} {grant : AgentGrantRecord}
    {after through : ℕ} {seen seen' : String → Prop} {entries : Entries}
    (h : Collected s environment grant after through seen entries)
    {records : List AgentSyncRecord} (hshown : Shown s environment after through seen seen' records) :
    Collected s environment grant after through seen'
      (setAll entries (visibleEntries grant records)) := by
  have hsafe := h.reached.safe hinv
  have hchange : ∀ entry ∈ visibleEntries grant records, ∃ record ∈ records,
      entryOf grant record = some entry ∧ entry.secretUid = record.secretUid := by
    intro entry hentry
    obtain ⟨record, hrecord, hsome⟩ := List.mem_filterMap.mp hentry
    exact ⟨record, hrecord, hsome, secretUid_of_entryOf hsome⟩
  refine ⟨h.reached, fun {sequence record entry} hindexed hafter hle hseen' hentry => ?_,
    fun {sequence record} hindexed hbefore hle => ?_⟩
  · by_cases hseen : seen (syncSk sequence record.secretUid)
    · rw [setAll_of_not_mem]
      · exact h.held hindexed hafter hle hseen hentry
      · intro other hother huid
        obtain ⟨record', hrecord', -, huid'⟩ := hchange other hother
        obtain ⟨sequence', hindexed', -, hle', hunseen⟩ := hshown.sound record' hrecord'
        obtain ⟨rfl, rfl⟩ := hindexed'.unique hinv hindexed (hle'.trans hsafe) (hle.trans hsafe)
          (huid'.symm.trans huid)
        exact hunseen hseen
    · have hmem := hshown.complete hindexed hafter hle hseen hseen'
      have huid := secretUid_of_entryOf hentry
      rw [← huid]
      refine setAll_of_mem (List.mem_filterMap.mpr ⟨record, hmem, hentry⟩) fun other hother hsame => ?_
      obtain ⟨record', hrecord', hentry', huid'⟩ := hchange other hother
      obtain ⟨sequence', hindexed', -, hle', -⟩ := hshown.sound record' hrecord'
      obtain ⟨-, rfl⟩ := hindexed'.unique hinv hindexed (hle'.trans hsafe) (hle.trans hsafe)
        (huid'.symm.trans (hsame.trans huid))
      exact Option.some.inj (hentry'.symm.trans hentry)
  · rw [setAll_of_not_mem]
    · exact h.clean hindexed hbefore hle
    · intro other hother huid
      obtain ⟨record', hrecord', -, huid'⟩ := hchange other hother
      obtain ⟨sequence', hindexed', hafter', hle', -⟩ := hshown.sound record' hrecord'
      obtain ⟨rfl, -⟩ := hindexed'.unique hinv hindexed (hle'.trans hsafe) (hle.trans hsafe)
        (huid'.symm.trans huid)
      omega

/-! ## The query of a page -/

theorem mem_changesBetween {environment first last sk : String} {startKey : Option String}
    {row : ChangeRow} :
    (sk, row) ∈ s.changesBetween environment first last startKey ↔
      s.change environment sk = some row ∧ first ≤ sk ∧ sk ≤ last ∧ startKey.all (· < sk) = true := by
  rw [Cloud.changesBetween, List.mem_insertionSort, List.mem_filterMap]
  constructor
  · rintro ⟨key, -, hkey⟩
    split at hkey
    · rename_i environment' sk'
      split at hkey
      · rename_i hrange
        obtain ⟨found, hfound, heq⟩ := Option.map_eq_some_iff.mp hkey
        cases heq
        exact ⟨hfound, hrange.2⟩
      · cases hkey
    · cases hkey
  · rintro ⟨hrow, hrange⟩
    refine ⟨.change environment sk, ?_, ?_⟩
    · exact List.mem_dedup.mpr (s.table.covered _ (Option.isSome_iff_exists.mpr ⟨row, hrow⟩))
    · simp only [hrange, and_self, if_true]
      rw [hrow]
      rfl

theorem sorted_changesBetween {environment first last : String} {startKey : Option String} :
    (s.changesBetween environment first last startKey).Pairwise fun left right =>
      left.1 ≤ right.1 :=
  List.pairwise_insertionSort _ _

/-- The row of a key in a range of the index. -/
def Cloud.changeAt (s : Cloud) (environment first last : String) (startKey : Option String) :
    Key → Option (String × ChangeRow)
  | .change environment' sk =>
      if environment' = environment ∧ first ≤ sk ∧ sk ≤ last ∧ startKey.all (· < sk) then
        (s.change environment sk).map fun row => (sk, row)
      else none
  | _ => none

theorem nodup_changesBetween {environment first last : String} {startKey : Option String} :
    ((s.changesBetween environment first last startKey).map Prod.fst).Nodup := by
  rw [Cloud.changesBetween, ((List.perm_insertionSort _ _).map _).nodup_iff, List.map_filterMap]
  refine (List.nodup_dedup _).filterMap fun key key' sk hkey hkey' => ?_
  have hname : ∀ {key}, sk ∈ (s.changeAt environment first last startKey key).map Prod.fst →
      key = Key.change environment sk := by
    intro key h
    obtain ⟨found, hfound, rfl⟩ := Option.map_eq_some_iff.mp h
    unfold Cloud.changeAt at hfound
    split at hfound
    · split at hfound
      · rename_i hrange
        obtain ⟨row, -, rfl⟩ := Option.map_eq_some_iff.mp hfound
        rw [hrange.1]
      · cases hfound
    · cases hfound
  rw [hname hkey, hname hkey']

/-- What lies before the key that a page starts after. -/
def Before (startKey : Option String) (sk : String) : Prop := ∃ last, startKey = some last ∧ sk ≤ last

/-- What lies up to the last key of a page; all of it after the last page. -/
def UpTo (lastKey : Option String) (sk : String) : Prop := ∀ last, lastKey = some last → sk ≤ last

/-- The rows after those that a page shows lie beyond its last key. -/
theorem mem_take_of_le {rows : List (String × ChangeRow)} {count : ℕ}
    (hsorted : rows.Pairwise fun left right => left.1 ≤ right.1)
    (hnodup : (rows.map Prod.fst).Nodup) {item last : String × ChangeRow} (hitem : item ∈ rows)
    (hlast : last ∈ rows.take count) (hle : item.1 ≤ last.1) : item ∈ rows.take count := by
  rw [← List.take_append_drop count rows] at hsorted hnodup hitem
  rcases List.mem_append.mp hitem with htake | hdrop
  · exact htake
  · have hge : last.1 ≤ item.1 := (List.pairwise_append.mp hsorted).2.2 last hlast item hdrop
    rw [List.map_append, List.nodup_append] at hnodup
    exact absurd (le_antisymm hge hle) (hnodup.2.2 last.1 (List.mem_map_of_mem hlast) item.1
      (List.mem_map_of_mem hdrop))

/-- **A page shows the rows up to its last key.** -/
theorem mem_pageOf {rows : List (String × ChangeRow)} {choice : Choice}
    (hsorted : rows.Pairwise fun left right => left.1 ≤ right.1)
    (hnodup : (rows.map Prod.fst).Nodup) {item : String × ChangeRow} (hitem : item ∈ rows)
    (hupTo : UpTo (pageOf rows choice).lastEvaluatedKey item.1) :
    item ∈ (pageOf rows choice).items := by
  simp only [pageOf] at hupTo ⊢
  split at hupTo
  · cases hlast : (rows.take (choice.number % 100 + 1)).getLast? with
    | none =>
        have hempty := List.getLast?_eq_none_iff.mp hlast
        rcases List.take_eq_nil_iff.mp hempty with hzero | rfl
        · omega
        · cases hitem
    | some last =>
        refine mem_take_of_le hsorted hnodup hitem (List.mem_of_getLast? hlast) ?_
        exact hupTo last.1 (by rw [hlast]; rfl)
  · rename_i hall
    have hlength : ¬ (rows.take (choice.number % 100 + 1)).length < rows.length :=
      fun h => hall (.inl h)
    rw [List.length_take] at hlength
    rwa [List.take_of_length_le (by omega)]

theorem shown_of_page (hinv : Invariant init s) {environment : String} {after through : ℕ}
    (hreached : s.Reached environment through) (hlt : after < through) {startKey : Option String}
    {choice : Choice} :
    let page := pageOf (s.changesBetween environment (syncSk (after + 1) "")
      (sequenceKey through ++ "\uffff") startKey) choice
    Shown s environment after through (Before startKey) (UpTo page.lastEvaluatedKey)
      (page.items.map fun item => item.2.record) := by
  intro page
  have hsafe := hreached.safe hinv
  constructor
  · intro record hrecord
    obtain ⟨⟨sk, row⟩, hitem, rfl⟩ := List.mem_map.mp hrecord
    obtain ⟨hrow, hfirst, hlast, hstart⟩ :=
      mem_changesBetween.mp (List.mem_of_mem_take hitem)
    obtain ⟨head, sequence, control, hhead, -, -, hsequence, rfl, -⟩ := hinv.sync.row hrow
    obtain ⟨-, state, hstate, -, hle, -⟩ := hinv.sync.head hhead hsequence
    have hsafe' := hle.trans (hinv.sync.bound hstate)
    obtain ⟨-, id, huid⟩ := hinv.heads.uid hhead
    refine ⟨sequence, ⟨row, hrow, rfl⟩, ?_, ?_, ?_⟩
    · exact (first_le_syncSk hsafe' (by omega) _).mp hfirst
    · exact (syncSk_le_last hsafe' hsafe (huid ▸ secretUid_lt_last id)).mp hlast
    · rintro ⟨last, rfl, hle⟩
      exact absurd (of_decide_eq_true hstart) (not_lt.mpr hle)
  · intro sequence record hindexed hafter hle hunseen hseen
    have hsafe' := hle.trans hsafe
    obtain ⟨head, hhead, -⟩ := hindexed.head hinv hsafe'
    obtain ⟨-, id, huid⟩ := hinv.heads.uid hhead
    obtain ⟨row, hrow, rfl⟩ := hindexed
    refine List.mem_map.mpr ⟨(syncSk sequence row.record.secretUid, row), ?_, rfl⟩
    refine mem_pageOf sorted_changesBetween nodup_changesBetween (mem_changesBetween.mpr
      ⟨hrow, ?_, ?_, ?_⟩) hseen
    · exact (first_le_syncSk hsafe' (by omega) _).mpr hafter
    · exact (syncSk_le_last hsafe' hsafe (huid ▸ secretUid_lt_last id)).mpr hle
    · cases startKey with
      | none => rfl
      | some last => exact decide_eq_true (not_le.mp fun h => hunseen ⟨last, rfl, h⟩)

end Hemlig
