import Hemlig.Invariant.Writes
import Hemlig.Repositories.SyncKeys

/-!
# Steps on the sync index

A publication moves the counter of its environment, the sequence of one head and the
row of that secret together.  Its effect is described once (`Publication`) and keeps
the index whatever else its transaction does; commits and backfills are instances.
The other steps on an index create it, let it serve, or remove the row of an archived
secret.
-/

namespace Hemlig

open Store DynamoRepository AgentSyncRepository

variable {s s' : Cloud}

/-! ## The effect of a publication -/

structure Publication (s s' : Cloud) (environment : String) (record : AgentSyncRecord)
    (state : Option AgentSyncState) (ttl previous : Option ℕ) : Prop where
  counter : s.counter environment = state.map fun state => (state.epoch, state.sequence)
  moved : ∃ after, s'.syncState environment = some after ∧
    after.sequence = nextSequence state ∧
    (∀ before, s.syncState environment = some before →
      after.epoch = before.epoch ∧ after.ready = before.ready) ∧
    (s.syncState environment = none → after.ready = false)
  states : ∀ other, other ≠ environment → s'.syncState other = s.syncState other
  row : s'.change environment (syncSk (nextSequence state) record.secretUid) =
    some { record := record, ttl := ttl }
  removed : ∀ sequence, previous = some sequence → sequence ≠ nextSequence state →
    s'.change environment (syncSk sequence record.secretUid) = none
  changes : ∀ other sk, (other ≠ environment ∨ sk ≠ syncSk (nextSequence state) record.secretUid ∧
    ∀ sequence, previous = some sequence → sk ≠ syncSk sequence record.secretUid) →
    s'.change other sk = s.change other sk

theorem mem_publicationWrites {environment : String} {record : AgentSyncRecord}
    {build : ℕ → List TableWrite} {state : Option AgentSyncState} {epoch : String}
    {ttl previous : Option ℕ} {write : TableWrite} :
    write ∈ publicationWrites environment record build state epoch ttl previous ↔
      write = counterWrite environment state epoch (nextSequence state) ∨
      write ∈ build (nextSequence state) ∨
      write = rowWrite environment record (nextSequence state) ttl ∨
      ∃ sequence, previous = some sequence ∧
        write = .remove (.change environment (syncSk sequence record.secretUid)) := by
  simp only [publicationWrites, List.mem_cons, List.mem_append, previousWrites, List.mem_map,
    Option.mem_toList]
  constructor
  · rintro (h | h | h | ⟨sequence, hsequence, h⟩)
    · exact .inl h
    · exact .inr (.inl h)
    · exact .inr (.inr (.inl h))
    · exact .inr (.inr (.inr ⟨sequence, hsequence, h.symm⟩))
  · rintro (h | h | h | ⟨sequence, hsequence, h⟩)
    · exact .inl h
    · exact .inr (.inl h)
    · exact .inr (.inr (.inl h))
    · exact .inr (.inr (.inr ⟨sequence, hsequence, h.symm⟩))

theorem key_counterWrite (environment : String) (state : Option AgentSyncState) (epoch : String)
    (sequence : ℕ) :
    (counterWrite environment state epoch sequence).key = .syncState environment := by
  cases state <;> rfl

section Transaction

variable {environment epoch : String} {record : AgentSyncRecord} {build : ℕ → List TableWrite}
  {state : Option AgentSyncState} {ttl previous : Option ℕ} {conflicts : List ℕ}
  {table : Table Key Item}
  (h : transact s.table conflicts
    (publicationWrites environment record build state epoch ttl previous) = .ok table)
include h

/-- What the counter says before and after a publication. -/
theorem counter_of_publication : s.counter environment =
      state.map (fun state => (state.epoch, state.sequence)) ∧
    ∃ after, table.get (.syncState environment) = some after ∧
      after.sequence = nextSequence state ∧
      (∀ before, s.syncState environment = some before →
        after.epoch = before.epoch ∧ after.ready = before.ready) ∧
      (s.syncState environment = none → after.ready = false) := by
  have hmem : counterWrite environment state epoch (nextSequence state) ∈
      publicationWrites environment record build state epoch ttl previous :=
    mem_publicationWrites.mpr (.inl rfl)
  cases state with
  | none =>
      obtain ⟨hnone, hafter⟩ := get_of_create h hmem
      refine ⟨by simp [Cloud.counter, Cloud.syncState, hnone], _, hafter, rfl, fun before hbefore => ?_,
        fun _ => rfl⟩
      cases hnone.symm.trans hbefore
  | some state =>
      obtain ⟨before, hbefore, hcondition, hafter⟩ := get_of_update h hmem
      obtain ⟨hsequence, hepoch⟩ : before.sequence = state.sequence ∧ before.epoch = state.epoch := by
        simpa using hcondition
      refine ⟨by simp [Cloud.counter, Cloud.syncState, hbefore, hsequence, hepoch], _, hafter, rfl,
        fun other hother => ?_, fun hnone => ?_⟩
      · cases hbefore.symm.trans hother
        exact ⟨rfl, rfl⟩
      · cases hbefore.symm.trans hnone

/-- A key outside the index changes only through the caller's writes. -/
theorem get_of_publication {key : Key} (hindex : key.ofIndex = false)
    (hbuild : ∀ write ∈ build (nextSequence state), write.key ≠ key) :
    table.get key = s.table.get key := by
  refine get_of_not_mem h fun hmem => ?_
  obtain ⟨write, hwrite, rfl⟩ := List.mem_map.mp hmem
  rcases mem_publicationWrites.mp hwrite with rfl | hbuilt | rfl | ⟨sequence, -, rfl⟩
  · simp [key_counterWrite, Key.ofIndex] at hindex
  · exact hbuild write hbuilt rfl
  · simp [rowWrite, Key.ofIndex] at hindex
  · simp [Key.ofIndex] at hindex

theorem publication_of_transact
    (hbuild : ∀ write ∈ build (nextSequence state), write.key.ofIndex = false) (s' : Cloud)
    (hs' : s'.table = table) : Publication s s' environment record state ttl previous := by
  obtain ⟨hcounter, hstate⟩ := counter_of_publication h
  have hrow : rowWrite environment record (nextSequence state) ttl ∈
      publicationWrites environment record build state epoch ttl previous :=
    mem_publicationWrites.mpr (.inr (.inr (.inl rfl)))
  refine ⟨hcounter, by rw [Cloud.syncState, hs']; exact hstate, fun other hother => ?_, ?_, fun sequence hsequence hne => ?_,
    fun other sk hother => ?_⟩
  · rw [Cloud.syncState, hs']
    refine get_of_not_mem h fun hmem => ?_
    obtain ⟨write, hwrite, hkey⟩ := List.mem_map.mp hmem
    rcases mem_publicationWrites.mp hwrite with rfl | hbuilt | rfl | ⟨sequence, -, rfl⟩
    · rw [key_counterWrite] at hkey
      exact hother (by simpa using hkey.symm)
    · have := hbuild write hbuilt
      simp [hkey, Key.ofIndex] at this
    · simp [rowWrite] at hkey
    · simp at hkey
  · rw [Cloud.change, hs']
    exact (get_of_create h hrow).2
  · rw [Cloud.change, hs']
    exact get_of_mem h (mem_publicationWrites.mpr (.inr (.inr (.inr ⟨sequence, hsequence, rfl⟩))))
  · rw [Cloud.change, hs']
    refine get_of_not_mem h fun hmem => ?_
    obtain ⟨write, hwrite, hkey⟩ := List.mem_map.mp hmem
    rcases mem_publicationWrites.mp hwrite with rfl | hbuilt | rfl | ⟨sequence, hsequence, rfl⟩
    · simp [key_counterWrite] at hkey
    · have := hbuild write hbuilt
      simp [hkey, Key.ofIndex] at this
    · simp only [rowWrite, Write.key_create, Key.change.injEq] at hkey
      rcases hother with hne | ⟨hne, -⟩
      · exact hne hkey.1.symm
      · exact hne hkey.2.symm
    · simp only [Write.key_remove, Key.change.injEq] at hkey
      rcases hother with hne | ⟨-, hne⟩
      · exact hne hkey.1.symm
      · exact hne sequence hsequence hkey.2.symm

end Transaction

/-! ## The index after a publication -/

/-- The head of the secret that is published, before and after. -/
structure PublishedHead (s s' : Cloud) (environment : String) (record : AgentSyncRecord)
    (state : Option AgentSyncState) (previous : Option ℕ) (control : ControlRevision)
    (head head' : HeadRecord) : Prop where
  before : s.head record.secretUid = some head
  inEnvironment : head.environment = environment
  sequenceBefore : head.syncSequence = previous
  after : s'.head record.secretUid = some head'
  committed : head'.Committed
  inEnvironment' : head'.environment = environment
  sequence : head'.syncSequence = some (nextSequence state)
  describes : s'.Describes record.secretUid head' control
  isRecord : record = syncRecord record.secretUid control
  others : ∀ u, u ≠ record.secretUid → s'.head u = s.head u

section Published

variable {environment : String} {record : AgentSyncRecord} {state : Option AgentSyncState}
  {ttl previous : Option ℕ} {control : ControlRevision} {head head' : HeadRecord}

theorem Publication.sequence_lt (h : Publication s s' environment record state ttl previous)
    {before : AgentSyncState} (hbefore : s.syncState environment = some before) :
    before.sequence < nextSequence state := by
  have hcounter := h.counter
  rw [Cloud.counter, hbefore] at hcounter
  cases state with
  | none => simp at hcounter
  | some state =>
      have : before.sequence = state.sequence := by simpa using (congrArg (Option.map Prod.snd) hcounter)
      simp [nextSequence, this]

/-- A row other than the new one was there before. -/
theorem Publication.change_of_some (h : Publication s s' environment record state ttl previous)
    {other sk : String} {row : ChangeRow}
    (hown : ¬ (other = environment ∧ sk = syncSk (nextSequence state) record.secretUid))
    (hrow : s'.change other sk = some row) : s'.change other sk = s.change other sk := by
  refine h.changes other sk ?_
  by_cases henvironment : other = environment
  · subst henvironment
    refine .inr ⟨fun hsk => hown ⟨rfl, hsk⟩, fun sequence hsequence hsk => ?_⟩
    by_cases hsame : sequence = nextSequence state
    · exact hown ⟨rfl, hsame ▸ hsk⟩
    · rw [hsk, h.removed sequence hsequence hsame] at hrow
      cases hrow
  · exact .inl henvironment

theorem Publication.moves (h : Publication s s' environment record state ttl previous)
    (hhead : PublishedHead s s' environment record state previous control head head')
    (hsafe : nextSequence state ≤ maximumSafeInteger) : Moves s s' where
  counters other := by
    by_cases hother : other = environment
    · subst hother
      obtain ⟨after, hafter, hsequence, hkept, -⟩ := h.moved
      cases hbefore : s.syncState other with
      | none => simp [Cloud.counter, hbefore, CounterLe]
      | some before =>
          have hlt := h.sequence_lt hbefore
          rw [Cloud.counter, Cloud.counter, hbefore, hafter]
          exact ⟨(hkept before hbefore).1.symm, by simp [hsequence]; omega⟩
    · rw [Cloud.counter, Cloud.counter, h.states other hother]
      exact CounterLe.refl _
  sequences := by
    intro u first second hfirst hsecond
    by_cases hu : u = record.secretUid
    · subst hu
      obtain rfl : head = first := by simpa [hhead.before] using hfirst
      refine .inr fun hsame => ?_
      rw [hhead.inEnvironment] at hsame
      obtain ⟨after, hafter, hsequence, -, -⟩ := h.moved
      rw [Cloud.counter, Cloud.counter, hafter] at hsame
      cases hbefore : s.syncState environment with
      | none => simp [hbefore] at hsame
      | some before =>
          have hlt := h.sequence_lt hbefore
          have : after.sequence = before.sequence := by
            rw [hbefore] at hsame
            simpa using congrArg (Option.map Prod.snd) hsame
          omega
    · rw [hhead.others u hu] at hsecond
      obtain rfl : first = second := by simpa [hfirst] using hsecond
      exact .inl rfl
  unsynced := by
    intro u other hother hcommitted hnone
    by_cases hu : u = record.secretUid
    · subst hu
      obtain rfl : head' = other := by simpa [hhead.after] using hother
      simp [hhead.sequence] at hnone
    · rw [hhead.others u hu] at hother
      exact ⟨other, hother, hcommitted, hnone⟩
  changes := by
    intro other sk row hrow
    by_cases hown : other = environment ∧ sk = syncSk (nextSequence state) record.secretUid
    · obtain ⟨rfl, rfl⟩ := hown
      obtain rfl : { record := record, ttl := ttl } = row := Option.some.inj (h.row.symm.trans hrow)
      exact .inr ⟨_, rfl, hsafe, fun before hbefore => h.sequence_lt hbefore⟩
    · exact .inl ((h.change_of_some hown hrow).symm.trans hrow)

/-- The previous sequence of a published head is a safe integer. -/
theorem PublishedHead.previous_le (hhead : PublishedHead s s' environment record state previous
      control head head') (hinv : SyncInv s) {sequence : ℕ} (hsequence : previous = some sequence) :
    sequence ≤ maximumSafeInteger := by
  obtain ⟨-, before, hbefore, -, hle, -⟩ :=
    hinv.head hhead.before (hhead.sequenceBefore.trans hsequence)
  exact hle.trans (hinv.bound hbefore)

/-- **A publication keeps the index.** -/
theorem SyncInv.publish (hinv : SyncInv s)
    (h : Publication s s' environment record state ttl previous)
    (hhead : PublishedHead s s' environment record state previous control head head')
    (hsafe : nextSequence state ≤ maximumSafeInteger)
    (hdescribes : ∀ u other control, u ≠ record.secretUid → s.head u = some other →
      other.Committed → s.Describes u other control → s'.Describes u other control)
    (httl : ttl.isSome → record.state = .archived)
    (hhistory : s.history <+: s'.history) : SyncInv s' where
  row := by
    intro environment' sk row hrow
    by_cases hown : environment' = environment ∧ sk = syncSk (nextSequence state) record.secretUid
    · obtain ⟨rfl, rfl⟩ := hown
      obtain rfl : { record := record, ttl := ttl } = row := by simpa [h.row] using hrow
      exact ⟨head', _, control, hhead.after, hhead.committed, hhead.inEnvironment', hhead.sequence,
        rfl, hhead.describes, hhead.isRecord, fun hsome => by
          have hstate : record.state = control.state := congrArg AgentSyncRecord.state hhead.isRecord
          exact hstate.symm.trans (httl hsome)⟩
    · have hkept := h.change_of_some hown hrow
      rw [hkept] at hrow
      obtain ⟨other, sequence, control', hother, hcommitted, henvironment, hsequence, hsk,
        hdescribed, hrecord, httl'⟩ := hinv.row hrow
      have hu : row.record.secretUid ≠ record.secretUid := by
        intro hu
        rw [hu] at hother hsk
        obtain rfl : head = other := by simpa [hhead.before] using hother
        have hprevious := hhead.sequenceBefore.symm.trans hsequence
        have hsame : environment' = environment := henvironment.symm.trans hhead.inEnvironment
        subst hsame
        by_cases heq : sequence = nextSequence state
        · exact hown ⟨rfl, heq ▸ hsk⟩
        · rw [← hkept, hsk, h.removed sequence hprevious heq] at hrow
          cases hrow
      exact ⟨other, sequence, control', (hhead.others _ hu).trans hother, hcommitted, henvironment,
        hsequence, hsk, hdescribes _ other control' hu hother hcommitted hdescribed, hrecord, httl'⟩
  head := by
    intro u other sequence hother hsequence
    obtain ⟨after, hafter, hnext, hkept, -⟩ := h.moved
    by_cases hu : u = record.secretUid
    · subst hu
      obtain rfl : head' = other := by simpa [hhead.after] using hother
      obtain rfl : nextSequence state = sequence := by simpa [hhead.sequence] using hsequence
      rw [hhead.inEnvironment']
      exact ⟨hhead.committed, after, hafter, by simp [nextSequence], hnext.ge,
        .inl (by rw [h.row]; rfl)⟩
    · rw [hhead.others u hu] at hother
      obtain ⟨hcommitted, before, hbefore, hfirst, hlast, hrow⟩ := hinv.head hother hsequence
      refine ⟨hcommitted, ?_⟩
      have hchange : s'.change other.environment (syncSk sequence u) =
          s.change other.environment (syncSk sequence u) := by
        have hbound := hlast.trans (hinv.bound hbefore)
        refine h.changes _ _ (.inr ⟨fun hsk => hu ?_, fun earlier hearlier hsk => hu ?_⟩)
        · exact ((syncSk_inj hbound hsafe).mp hsk).2
        · exact ((syncSk_inj hbound (hhead.previous_le hinv hearlier)).mp hsk).2
      rw [hchange]
      have hrow' := hrow.imp_right fun ⟨harchived, hexpired⟩ =>
        And.intro harchived (hexpired.mono hhistory)
      by_cases henvironment : other.environment = environment
      · rw [henvironment] at hbefore hrow' ⊢
        have hlt := h.sequence_lt hbefore
        exact ⟨after, hafter, hfirst, by omega, hrow'⟩
      · exact ⟨before, (h.states _ henvironment).trans hbefore, hfirst, hlast, hrow'⟩
  distinct := by
    have hlater : ∀ u other sequence, u ≠ record.secretUid → s.head u = some other →
        other.environment = environment → other.syncSequence = some sequence →
          sequence ≠ nextSequence state := by
      intro u other sequence hu hother henvironment hsequence hsame
      obtain ⟨-, before, hbefore, -, hlast, -⟩ := hinv.head hother hsequence
      rw [henvironment] at hbefore
      have hlt := h.sequence_lt hbefore
      omega
    intro u u' first second sequence hfirst hsecond henvironment hsequence hsequence'
    by_cases hu : u = record.secretUid
    · by_cases hu' : u' = record.secretUid
      · exact hu.trans hu'.symm
      · subst hu
        obtain rfl : head' = first := by simpa [hhead.after] using hfirst
        rw [hhead.others u' hu'] at hsecond
        obtain rfl : nextSequence state = sequence := by simpa [hhead.sequence] using hsequence
        exact (hlater u' second _ hu' hsecond (henvironment.symm.trans hhead.inEnvironment')
          hsequence' rfl).elim
    · by_cases hu' : u' = record.secretUid
      · subst hu'
        obtain rfl : head' = second := by simpa [hhead.after] using hsecond
        rw [hhead.others u hu] at hfirst
        obtain rfl : nextSequence state = sequence := by simpa [hhead.sequence] using hsequence'
        exact (hlater u first _ hu hfirst (henvironment.trans hhead.inEnvironment')
          hsequence rfl).elim
      · rw [hhead.others u hu] at hfirst
        rw [hhead.others u' hu'] at hsecond
        exact hinv.distinct hfirst hsecond henvironment hsequence hsequence'
  ready := by
    intro environment' after u other hafter hready hother hcommitted henvironment
    by_cases hu : u = record.secretUid
    · subst hu
      obtain rfl : head' = other := by simpa [hhead.after] using hother
      simp [hhead.sequence]
    · rw [hhead.others u hu] at hother
      by_cases hsame : environment' = environment
      · subst hsame
        obtain ⟨current, hcurrent, -, hkept, hnone⟩ := h.moved
        obtain rfl : current = after := by simpa [hcurrent] using hafter
        cases hbefore : s.syncState environment' with
        | none => simp [hnone hbefore] at hready
        | some before =>
            exact hinv.ready hbefore ((hkept before hbefore).2 ▸ hready) hother hcommitted
              henvironment
      · rw [h.states _ hsame] at hafter
        exact hinv.ready hafter hready hother hcommitted henvironment
  bound := by
    intro environment' after hafter
    by_cases hsame : environment' = environment
    · subst hsame
      obtain ⟨current, hcurrent, hnext, -, -⟩ := h.moved
      obtain rfl : current = after := by simpa [hcurrent] using hafter
      rw [hnext]
      exact hsafe
    · rw [h.states _ hsame] at hafter
      exact hinv.bound hafter

end Published

/-! ## Gentle steps on the index -/

section Backfill

variable {init : Cloud} {pk epoch : String} {head : HeadRecord} {control : ControlRevision}
  {state : Option AgentSyncState} {ttl previous : Option ℕ} {conflicts : List ℕ}
  {table : Table Key Item}

/-- A head that is given a sequence. -/
theorem Gentle.resequence {u : String} {current : HeadRecord} {sequence : ℕ}
    (hsame : ∀ key, key.ofSecret = true → key ≠ .head u → table.get key = s.table.get key)
    (henvironment : ∀ name, table.get (.environment name) = s.table.get (.environment name))
    (hcurrent : s.head u = some current) (hcommitted : current.Committed)
    (hafter : table.get (.head u) = some { current with syncSequence := some sequence })
    (hregistry : Registry.ofTable table = s.registry) :
    Gentle s { s with table := table } :=
  .of_table_head hsame (fun name hsome => by rwa [henvironment name]) hcurrent hafter rfl
    (fun _ howner => howner) (fun hnot => (hnot hcommitted).elim) (.same hregistry)

/-- **A backfill is gentle and keeps the index.** -/
theorem backfill_step (hinv : Invariant init s) (hready : BackfillReady s pk head control)
    (hpublish : PublishReady s head.environment (syncRecord head.secretUid control) state ttl
      previous)
    (htransact : transact s.table conflicts
      (publicationWrites head.environment (syncRecord head.secretUid control)
        (resequence pk head) state epoch ttl previous) = .ok table) :
    Quiet init s { s with table := table } := by
  obtain rfl := hready.uid
  have hbuild : ∀ write ∈ resequence head.secretUid head (nextSequence state),
      write.key = .head head.secretUid := by
    simp [resequence]
  have hpublication : Publication s { s with table := table } head.environment
      (syncRecord head.secretUid control) state ttl previous :=
    publication_of_transact htransact (fun write hwrite => by rw [hbuild write hwrite]; rfl) _ rfl
  obtain ⟨current, hcurrent, hcondition, hafter⟩ := get_of_update htransact
    (mem_publicationWrites.mpr (.inr (.inl (List.mem_singleton_self _))))
  obtain ⟨hcv, hcommitted⟩ :
      current.controlVersionId = head.controlVersionId ∧ current.Committed := by
    simpa using hcondition
  have hother : ∀ key : Key, key.ofIndex = false → key ≠ .head head.secretUid →
      table.get key = s.table.get key := fun key hindex hne =>
    get_of_publication htransact hindex fun write hwrite hkey => hne (by
      rw [← hkey, hbuild write hwrite])
  have hsecret : ∀ key : Key, key.ofSecret = true → key ≠ .head head.secretUid →
      table.get key = s.table.get key := fun key hkey hne =>
    hother key (by cases key <;> simp_all [Key.ofSecret, Key.ofIndex]) hne
  have hregistry : Registry.ofTable table = s.registry :=
    Registry.ofTable_congr fun key hkey =>
      hother key (by cases key <;> simp_all [Key.ofRegistry, Key.ofIndex]) (by rintro rfl; cases hkey)
  have hgentle : Gentle s { s with table := table } :=
    .resequence hsecret (fun name => hother _ rfl (by simp)) hcurrent hcommitted hafter hregistry
  -- The document that the backfill read is the revision that the current head names.
  obtain ⟨described, hdescribes⟩ := hinv.heads.described hcurrent hcommitted
  obtain ⟨row, hrow, hserialized⟩ := hready.document
  obtain rfl : described = control := by
    obtain ⟨-, -, -, ⟨⟨row', hrow', -, -, hserialized'⟩, -⟩⟩ := hdescribes.stored
    rw [hcv] at hrow'
    obtain rfl : row = row' := by simpa [hrow] using hrow'
    simpa using hserialized'.symm.trans hserialized
  have henvironment : current.environment = head.environment := by
    have := hready.control
    simp only [controlMatches, decide_eq_true_eq] at this
    exact hdescribes.environment.symm.trans this.2.1
  have hheads : ∀ u, u ≠ head.secretUid →
      Cloud.head { s with table := table } u = s.head u := fun u hu =>
    hsecret (.head u) rfl (by simpa using hu)
  have hpublished : PublishedHead s { s with table := table } head.environment
      (syncRecord head.secretUid described) state previous described current
      { current with syncSequence := some (nextSequence state) } :=
    { before := hcurrent
      inEnvironment := henvironment
      sequenceBefore :=
        hpublish.sequenced.sequence hpublication.counter current hcurrent henvironment
      after := hafter
      committed := hcommitted
      inEnvironment' := henvironment
      sequence := rfl
      describes := hgentle.holds.describes hcurrent hcommitted rfl hdescribes
      isRecord := rfl
      others := hheads }
  have hsync : SyncInv { s with table := table } :=
    hinv.sync.publish hpublication hpublished hpublish.safe
      (fun u other control hu hother hcommitted hdescribes =>
        hgentle.holds.describes hother hcommitted rfl hdescribes)
      hpublish.ttl List.prefix_rfl
  have hmoves := hpublication.moves hpublished hpublish.safe
  exact hgentle.quiet hinv hmoves hsync
    (hinv.retention.transfer id id (fun _ hnone => hnone) hgentle.kept hgentle.history)
    (.of_registry (congrArg Registry.capabilities hregistry) fun _ => id)

end Backfill

/-! ### The state of an index -/

/-- Only the state of one index changes, and its counter does not go back. -/
theorem Moves.of_state {table : Table Key Item}
    (hheads : ∀ u, table.get (.head u) = s.table.get (.head u))
    (hchanges : ∀ environment sk row, table.get (.change environment sk) = some row →
      s.change environment sk = some row)
    (hcounters : ∀ environment,
      CounterLe (s.counter environment) (Cloud.counter { s with table := table } environment)) :
    Moves s { s with table := table } where
  counters := hcounters
  sequences := by
    intro u head head' hhead hhead'
    obtain rfl := by simpa [hhead] using (hheads u).symm.trans hhead'
    exact .inl rfl
  unsynced := by
    intro u head' hhead' hcommitted hnone
    exact ⟨head', (hheads u).symm.trans hhead', hcommitted, hnone⟩
  changes hrow := .inl (hchanges _ _ _ hrow)

/-- The rows of the index and all secrets stay, and the state that changes may serve. -/
theorem SyncInv.of_state {table : Table Key Item} (hinv : SyncInv s)
    (hgentle : Gentle s { s with table := table })
    (hheads : ∀ u, table.get (.head u) = s.table.get (.head u))
    (hchanges : ∀ environment sk, table.get (.change environment sk) =
      s.table.get (.change environment sk))
    (hstates : ∀ environment before, s.syncState environment = some before →
      ∃ after, table.get (.syncState environment) = some after ∧ after.sequence = before.sequence)
    (hbound : ∀ environment after, table.get (.syncState environment) = some after →
      after.sequence ≤ maximumSafeInteger)
    (hready : ∀ environment after, table.get (.syncState environment) = some after →
      after.ready = true → (∃ before, s.syncState environment = some before ∧
        before.ready = true) ∨ ∀ u head, s.head u = some head → head.Committed →
          head.environment = environment → head.syncSequence ≠ none) :
    SyncInv { s with table := table } where
  row := by
    intro environment sk row hrow
    obtain ⟨head, sequence, control, hhead, hcommitted, henvironment, hsequence, hsk, hdescribes,
      hrest⟩ := hinv.row ((hchanges environment sk).symm.trans hrow)
    exact ⟨head, sequence, control, (hheads _).trans hhead, hcommitted, henvironment, hsequence,
      hsk, hgentle.holds.describes hhead hcommitted rfl hdescribes, hrest⟩
  head := by
    intro u head sequence hhead hsequence
    obtain ⟨hcommitted, before, hbefore, hfirst, hlast, hrow⟩ :=
      hinv.head ((hheads u).symm.trans hhead) hsequence
    obtain ⟨after, hafter, hsame⟩ := hstates _ before hbefore
    refine ⟨hcommitted, after, hafter, hfirst, hsame ▸ hlast, hrow.imp_left fun hsome => ?_⟩
    exact (congrArg Option.isSome (hchanges _ _)).trans hsome
  distinct hhead hhead' := hinv.distinct ((hheads _).symm.trans hhead) ((hheads _).symm.trans hhead')
  ready := by
    intro environment after u head hafter hserves hhead hcommitted henvironment
    have hhead := (hheads u).symm.trans hhead
    rcases hready environment after hafter hserves with ⟨before, hbefore, hserved⟩ | hall
    · exact hinv.ready hbefore hserved hhead hcommitted henvironment
    · exact Option.isSome_iff_ne_none.mpr (hall u head hhead hcommitted henvironment)
  bound := fun {environment after} => hbound environment after

section State

variable {init : Cloud} {table : Table Key Item}

/-- A step on the state of an index. -/
theorem state_step (hinv : Invariant init s)
    (hother : ∀ key, key.ofSecret = true → table.get key = s.table.get key)
    (henvironments : ∀ name, (s.table.get (.environment name)).isSome →
      (table.get (.environment name)).isSome)
    (hchanges : ∀ environment sk, table.get (.change environment sk) =
      s.table.get (.change environment sk))
    (hstates : ∀ environment before, s.syncState environment = some before →
      ∃ after, table.get (.syncState environment) = some after ∧
        after.epoch = before.epoch ∧ after.sequence = before.sequence)
    (hbound : ∀ environment after, table.get (.syncState environment) = some after →
      after.sequence ≤ maximumSafeInteger)
    (hready : ∀ environment after, table.get (.syncState environment) = some after →
      after.ready = true → (∃ before, s.syncState environment = some before ∧
        before.ready = true) ∨ ∀ u head, s.head u = some head → head.Committed →
          head.environment = environment → head.syncSequence ≠ none)
    (hregistry : Registry.ofTable table = s.registry) :
    Quiet init s { s with table := table } := by
  have hheads : ∀ u, table.get (.head u) = s.table.get (.head u) := fun u => hother _ rfl
  have hgentle : Gentle s { s with table := table } := 
    .of_table hother henvironments (.same hregistry)
  have hmoves : Moves s { s with table := table } := by
    refine .of_state hheads (fun environment sk row hrow => (hchanges environment sk).symm.trans hrow)
      fun environment => ?_
    cases hbefore : s.syncState environment with
    | none => simp [Cloud.counter, hbefore, CounterLe]
    | some before =>
        obtain ⟨after, hafter, hepoch, hsequence⟩ := hstates environment before hbefore
        rw [Cloud.counter, Cloud.counter, hbefore,
          show Cloud.syncState { s with table := table } environment = some after from hafter]
        exact ⟨hepoch.symm, hsequence.ge⟩
  have hsync := hinv.sync.of_state hgentle hheads hchanges
    (fun environment before hbefore =>
      (hstates environment before hbefore).imp fun _ h => ⟨h.1, h.2.2⟩) hbound hready
  exact hgentle.quiet hinv hmoves hsync
    (hinv.retention.transfer id id (fun _ hnone => hnone) hgentle.kept hgentle.history)
    (.of_registry (congrArg Registry.capabilities hregistry) fun _ => id)

/-- **A new index is ready where no secret waits for a sequence.** -/
theorem empty_step (hinv : Invariant init s) {environment epoch : String} {conflicts : List ℕ}
    {writes : List TableWrite} (htransact : transact s.table conflicts writes = .ok table)
    (hmem : emptyState environment epoch ∈ writes)
    (hkeys : ∀ write ∈ writes, write.key = .syncState environment ∨
      write.key.ofSecret = false ∧ write.key.ofIndex = false)
    (hregistry : ∀ write ∈ writes, write.key.ofRegistry = false)
    (henvironments : ∀ name, (s.table.get (.environment name)).isSome →
      (table.get (.environment name)).isSome)
    (hsynced : ∀ u head, s.head u = some head → head.Committed →
      head.environment = environment → head.syncSequence ≠ none) :
    Quiet init s { s with table := table } := by
  obtain ⟨hnone, hafter⟩ : s.table.get (.syncState environment) = none ∧
      table.get (.syncState environment) = some { epoch := epoch, sequence := 0, ready := true } :=
    get_of_create htransact hmem
  have hsame : ∀ key : Key, key ≠ .syncState environment →
      (key.ofSecret = true ∨ key.ofIndex = true) → table.get key = s.table.get key := by
    intro key hne hkind
    refine get_of_not_mem htransact fun hkey => ?_
    obtain ⟨write, hwrite, rfl⟩ := List.mem_map.mp hkey
    rcases hkeys write hwrite with heq | ⟨hsecret, hindex⟩
    · exact hne heq
    · simp [hsecret, hindex] at hkind
  have hstate : ∀ other after, table.get (.syncState other) = some after →
      (other = environment ∧ after = { epoch := epoch, sequence := 0, ready := true }) ∨
        s.syncState other = some after := by
    intro other after hsome
    by_cases hother : other = environment
    · subst hother
      exact .inl ⟨rfl, Option.some.inj (hsome.symm.trans hafter)⟩
    · exact .inr ((hsame _ (by simpa using hother) (.inr rfl)).symm.trans hsome)
  refine state_step hinv (fun key hkey => hsame key (by rintro rfl; simp [Key.ofSecret] at hkey)
    (.inl hkey)) henvironments (fun other sk => hsame _ (by simp) (.inr rfl)) ?_ ?_ ?_
    (Registry.ofTable_of_transact htransact hregistry)
  · intro other before hbefore
    have hne : other ≠ environment := by
      rintro rfl
      cases hnone.symm.trans hbefore
    exact ⟨before, (hsame _ (by simpa using hne) (.inr rfl)).trans hbefore, rfl, rfl⟩
  · intro other after hsome
    rcases hstate other after hsome with ⟨-, rfl⟩ | hbefore
    · exact Nat.zero_le _
    · exact hinv.sync.bound hbefore
  · intro other after hsome hready
    rcases hstate other after hsome with ⟨rfl, -⟩ | hbefore
    · exact .inr hsynced
    · exact .inl ⟨after, hbefore, hready⟩

theorem createEnvironment_step (hinv : Invariant init s) {environment : EnvironmentRecord}
    {epoch : String} {conflicts : List ℕ}
    (htransact : transact s.table conflicts (createEnvironmentWrites environment epoch) = .ok table) :
    Quiet init s { s with table := table } := by
  have hempty : emptyState environment.name epoch ∈ createEnvironmentWrites environment epoch := by
    simp [createEnvironmentWrites]
  obtain ⟨hnone, hafter⟩ : s.table.get (.environment environment.name) = none ∧
      table.get (.environment environment.name) = some environment :=
    get_of_create htransact (by simp [createEnvironmentWrites])
  refine empty_step hinv htransact hempty
    (by simp [createEnvironmentWrites, emptyState, countWrite, Key.ofSecret, Key.ofIndex])
    (by simp [createEnvironmentWrites, emptyState, countWrite, Key.ofRegistry])
    (fun name hsome => ?_) fun u head hhead _ henvironment => ?_
  · by_cases hname : name = environment.name
    · subst hname
      exact Option.isSome_iff_exists.mpr ⟨_, hafter⟩
    · rwa [get_of_not_mem htransact
        (by simp [createEnvironmentWrites, emptyState, countWrite, hname])]
  · have hsome := hinv.heads.environment hhead
    rw [henvironment, Cloud.environment, hnone] at hsome
    cases hsome

theorem emptyState_step (hinv : Invariant init s) {environment epoch : String}
    {conflicts : List ℕ} (hsynced : s.AllSynced)
    (htransact : transact s.table conflicts [emptyState environment epoch] = .ok table) :
    Quiet init s { s with table := table } :=
  empty_step hinv htransact (List.mem_singleton_self _) (by simp [emptyState])
    (by simp [emptyState, Key.ofRegistry])
    (fun name hsome => by
      rwa [get_of_not_mem htransact (by simp [emptyState])])
    fun u head hhead hcommitted _ => hsynced u head hhead hcommitted

/-- An index may serve once every secret has a sequence. -/
theorem enable_step (hinv : Invariant init s) {environment : String} (hsynced : s.AllSynced)
    (hholds : (enableWrite environment).holds s.table = true) :
    Quiet init s { s with table := (enableWrite environment).apply s.table } := by
  obtain ⟨current, hcurrent, -⟩ := Write.holds_update.mp hholds
  have hsame : ∀ key : Key, key ≠ .syncState environment →
      ((enableWrite environment).apply s.table).get key = s.table.get key :=
    fun key hne => Write.get_apply_of_ne _ _ hne
  have hafter : ((enableWrite environment).apply s.table).get (.syncState environment) =
      some { current with ready := true } := by
    refine (Write.get_apply_self (enableWrite environment) s.table).trans ?_
    show Option.map _ (s.table.get (.syncState environment)) = _
    rw [hcurrent]
    rfl
  have hstate : ∀ other after,
      ((enableWrite environment).apply s.table).get (.syncState other) = some after →
        (other = environment ∧ after = { current with ready := true }) ∨
          s.syncState other = some after := by
    intro other after hsome
    by_cases hother : other = environment
    · subst hother
      exact .inl ⟨rfl, Option.some.inj (hsome.symm.trans hafter)⟩
    · exact .inr ((hsame _ (by simpa using hother)).symm.trans hsome)
  refine state_step hinv (fun key hkey => hsame key (by rintro rfl; simp [Key.ofSecret] at hkey))
    (fun name hsome => by rwa [hsame _ (by simp)]) (fun other sk => hsame _ (by simp)) ?_ ?_ ?_
    (Registry.ofTable_set_other _ _ rfl)
  · intro other before hbefore
    by_cases hother : other = environment
    · subst hother
      obtain rfl : current = before := Option.some.inj (hcurrent.symm.trans hbefore)
      exact ⟨_, hafter, rfl, rfl⟩
    · exact ⟨before, (hsame _ (by simpa using hother)).trans hbefore, rfl, rfl⟩
  · intro other after hsome
    rcases hstate other after hsome with ⟨rfl, rfl⟩ | hbefore
    · exact (hinv.sync.bound hcurrent : current.sequence ≤ maximumSafeInteger)
    · exact hinv.sync.bound hbefore
  · intro other after hsome hready
    rcases hstate other after hsome with ⟨rfl, -⟩ | hbefore
    · exact .inr fun u head hhead hcommitted _ => hsynced u head hhead hcommitted
    · exact .inl ⟨after, hbefore, hready⟩

end State

/-! ### Expiry -/

/-- **DynamoDB removes the row of an archived secret.** -/
theorem expire_step {init : Cloud} (hinv : Invariant init s) {environment sk : String}
    {row : ChangeRow} (hrow : s.change environment sk = some row) (httl : row.ttl.isSome) :
    Quiet init s ({ s with table := s.table.set (.change environment sk) none }.record
      (.expired environment sk)) := by
  have hsame : ∀ key : Key, key ≠ .change environment sk →
      (s.table.set (.change environment sk) none).get key = s.table.get key :=
    fun key hne => Table.get_set_of_ne _ _ hne
  have hheads : ∀ u, (s.table.set (.change environment sk) none).get (.head u) = s.head u :=
    fun u => hsame _ (by simp)
  have hchanges : ∀ other sk' row',
      (s.table.set (.change environment sk) none).get (.change other sk') = some row' →
        s.change other sk' = some row' := by
    intro other sk' row' hrow'
    refine (hsame _ fun heq => ?_).symm.trans hrow'
    obtain ⟨rfl, rfl⟩ : other = environment ∧ sk' = sk := by simpa using heq
    cases (Table.get_set_self _ _ _).symm.trans hrow'
  have hgentle : Gentle s ({ s with table := s.table.set (.change environment sk) none }.record
      (.expired environment sk)) :=
    { (Gentle.set_other none rfl (by simp) (.same (Registry.ofTable_set_other _ _ rfl)) :
        Gentle s { s with table := s.table.set (.change environment sk) none }) with
      history := .of_append rfl (by simp) (by simp)
      claims := fun hclaim hevent => (hevent.of_append rfl).imp_right fun heq => by
        rw [heq] at hclaim
        cases hclaim
      kept := fun hkept => hkept.mono id
        (fun object' hobject' => ⟨object', hobject', fun r hr => ⟨r, hr, le_rfl⟩⟩)
        fun entry hentry => by
          rcases List.mem_append.mp hentry with hold | hnew
          · exact .inl hold
          · exact .inr (by rw [List.mem_singleton.mp hnew]; simp) }
  have hmoves : Moves s ({ s with table := s.table.set (.change environment sk) none }.record
      (.expired environment sk)) :=
    { Moves.of_state (s := s) hheads hchanges fun other => by
        rw [Cloud.counter, Cloud.counter,
          show Cloud.syncState { s with table := s.table.set (.change environment sk) none } other =
            s.syncState other from hsame _ (by simp)]
        exact CounterLe.refl _ with }
  obtain ⟨expired, sequence, control, hexpired, hcommitted, henvironment, hsequence, hsk,
    hdescribes, -, harchived⟩ := hinv.sync.row hrow
  have hhappened : Cloud.Happened ({ s with
      table := s.table.set (.change environment sk) none }.record (.expired environment sk))
      (.expired environment sk) :=
    ⟨_, List.mem_append_right _ (List.mem_singleton_self _), rfl⟩
  have hsync : SyncInv ({ s with table := s.table.set (.change environment sk) none }.record
      (.expired environment sk)) := by
    refine ⟨?_, ?_, ?_, ?_, ?_⟩
    · intro other sk' row' hrow'
      obtain ⟨head, sequence', control', hhead, hcommitted', henvironment', hsequence', hsk',
        hdescribes', hrest⟩ := hinv.sync.row (hchanges other sk' row' hrow')
      exact ⟨head, sequence', control', (hheads _).trans hhead, hcommitted', henvironment',
        hsequence', hsk', hgentle.holds.describes hhead hcommitted' rfl hdescribes', hrest⟩
    · intro u head sequence' hhead hsequence'
      have hhead := (hheads u).symm.trans hhead
      obtain ⟨hcommitted', state, hstate, hfirst, hlast, hplace⟩ := hinv.sync.head hhead hsequence'
      refine ⟨hcommitted', state, (hsame _ (by simp)).trans hstate, hfirst, hlast, ?_⟩
      rcases hplace with hsome | ⟨hstate', hgone⟩
      · by_cases hkey : Key.change head.environment (syncSk sequence' u) = .change environment sk
        · -- The row that expires is the one of this head.
          obtain ⟨henv, hskeq⟩ : head.environment = environment ∧ syncSk sequence' u = sk := by
            simpa using hkey
          obtain ⟨-, state', hstate', -, hlast', -⟩ := hinv.sync.head hexpired hsequence
          have huid : u = row.record.secretUid :=
            ((syncSk_inj (hlast.trans (hinv.sync.bound hstate))
              (hlast'.trans (hinv.sync.bound hstate'))).mp (hskeq.trans hsk)).2
          rw [← huid] at hexpired
          obtain rfl : head = expired := Option.some.inj (hhead.symm.trans hexpired)
          refine .inr ⟨hdescribes.state.symm.trans (harchived httl), ?_⟩
          rw [henv, hskeq]
          exact hhappened
        · exact .inl ((congrArg Option.isSome (hsame _ hkey)).trans hsome)
      · exact .inr ⟨hstate', hgone.mono hgentle.history.history⟩
    · intro u u' head head' sequence' hhead hhead'
      exact hinv.sync.distinct ((hheads u).symm.trans hhead) ((hheads u').symm.trans hhead')
    · intro other state u head hstate hready hhead
      exact hinv.sync.ready ((hsame _ (by simp)).symm.trans hstate) hready
        ((hheads u).symm.trans hhead)
    · intro other state hstate
      exact hinv.sync.bound ((hsame _ (by simp)).symm.trans hstate)
  refine hgentle.quiet hinv hmoves hsync
    (hinv.retention.transfer id (fun hdeleted => ?_) (fun _ hnone => hnone) hgentle.kept
      hgentle.history)
    (.of_registry (congrArg Registry.capabilities (Registry.ofTable_set_other _ _ rfl))
      (.of_record rfl rfl))
  obtain ⟨entry, hentry, hevent⟩ := hdeleted
  rcases List.mem_append.mp hentry with hold | hnew
  · exact ⟨entry, hold, hevent⟩
  · rw [List.mem_singleton.mp hnew] at hevent
    cases hevent

end Hemlig
