import Hemlig.Properties.Chain

/-!
# The sync index agrees with the heads

Live mutations, the backfill, the readiness mark and the removal of expired rows keep
head, counter and row of every secret in step.
-/

namespace Hemlig

open Concurrent Store

variable {init s : Cloud}

/-- The archived row of a head at a sequence was removed when its TTL had passed. -/
def Cloud.ExpiredRow (s : Cloud) (u : String) (head : HeadRecord) (sequence : ℕ) : Prop :=
  head.state = .archived ∧ s.Happened (.expired head.environment (syncSk sequence u))

/-- The row of a head: it stands at the sequence of the head and holds the record of the
control revision that the head names. -/
def Cloud.RowOf (s : Cloud) (u : String) (head : HeadRecord) (sequence : ℕ) : Prop :=
  ∃ control row, s.Describes u head control ∧
    s.change head.environment (syncSk sequence u) = some row ∧ row.record = syncRecord u control

/-- A row at the sequence that the head of its secret names. -/
def Cloud.RowAt (s : Cloud) (environment : String) (sequence : ℕ) (row : ChangeRow) : Prop :=
  s.change environment (syncSk sequence row.record.secretUid) = some row ∧
    ∃ head, s.head row.record.secretUid = some head ∧ head.environment = environment ∧
      head.syncSequence = some sequence

/-- The index of one environment. -/
structure IndexAgrees (s : Cloud) (environment : String) : Prop where
  /-- A head with a sequence has its row, unless that has expired. -/
  row : ∀ u head sequence, s.head u = some head → head.environment = environment →
    head.syncSequence = some sequence → ¬ s.ExpiredRow u head sequence → s.RowOf u head sequence
  /-- Every row is the one its head names; so no secret has two. -/
  named : ∀ sk row, s.change environment sk = some row →
    ∃ sequence, sk = syncSk sequence row.record.secretUid ∧ s.RowAt environment sequence row
  /-- Distinct rows have distinct sequences. -/
  distinct : ∀ sequence row row', s.RowAt environment sequence row →
    s.RowAt environment sequence row' → row = row'
  /-- No row lies beyond the counter. -/
  counted : ∀ sequence row, s.RowAt environment sequence row →
    ∃ state, s.syncState environment = some state ∧ sequence ≤ state.sequence
  /-- A ready index has a row for every live head. -/
  ready : ∀ state u head, s.syncState environment = some state → state.ready = true →
    s.head u = some head → head.Committed → head.environment = environment →
      head.state ≠ .archived → ∃ sequence, head.syncSequence = some sequence ∧
        s.RowOf u head sequence

theorem rowOf_of_head (hinv : Invariant init s) {u : String} {head : HeadRecord} {sequence : ℕ}
    (hhead : s.head u = some head) (hsequence : head.syncSequence = some sequence)
    (hexpired : ¬ s.ExpiredRow u head sequence) : s.RowOf u head sequence := by
  obtain ⟨-, state, hstate, -, hle, hrow | hremoved⟩ := hinv.sync.head hhead hsequence
  · obtain ⟨row, hrow⟩ := Option.isSome_iff_exists.mp hrow
    obtain ⟨current, sequence', control, hcurrent, -, -, hsequence', hsk, hdescribes, hrecord, -⟩ :=
      hinv.sync.row hrow
    obtain ⟨state', hstate', -, hle', -⟩ := (hinv.sync.head hcurrent hsequence').2
    have hbound := hle.trans (hinv.sync.bound hstate)
    have hbound' := hle'.trans (hinv.sync.bound hstate')
    obtain ⟨-, huid⟩ := (syncSk_inj hbound hbound').mp hsk
    rw [← huid] at hcurrent hdescribes hrecord
    obtain rfl : current = head := Option.some.inj (hcurrent.symm.trans hhead)
    exact ⟨control, row, hdescribes, hrow, hrecord⟩
  · exact (hexpired hremoved).elim

/-- **The index of every environment agrees with its heads, in every state of every run.** -/
theorem index_agrees (hinit : Initial init) {w : ServiceWorld} {actions : List ServiceAction}
    (hrun : service.run (World.initial init) actions = some w) (environment : String) :
    IndexAgrees w.store environment := by
  have hinv := invariant_of_run hinit hrun
  refine ⟨fun u head sequence hhead _ hsequence hexpired =>
    rowOf_of_head hinv hhead hsequence hexpired, ?_, ?_, ?_, ?_⟩
  · intro sk row hrow
    obtain ⟨head, sequence, control, hhead, -, henvironment, hsequence, rfl, -⟩ := hinv.sync.row hrow
    exact ⟨sequence, rfl, hrow, head, hhead, henvironment, hsequence⟩
  · rintro sequence row row' ⟨hrow, head, hhead, rfl, hsequence⟩
      ⟨hrow', head', hhead', henvironment, hsequence'⟩
    have huid := hinv.sync.distinct hhead hhead' henvironment.symm hsequence hsequence'
    rw [huid] at hrow
    exact Option.some.inj (hrow.symm.trans hrow')
  · rintro sequence row ⟨-, head, hhead, rfl, hsequence⟩
    obtain ⟨-, state, hstate, -, hle, -⟩ := hinv.sync.head hhead hsequence
    exact ⟨state, hstate, hle⟩
  · intro state u head hstate hready hhead hcommitted henvironment hlive
    obtain ⟨sequence, hsequence⟩ := Option.isSome_iff_exists.mp
      (hinv.sync.ready hstate hready hhead hcommitted henvironment)
    exact ⟨sequence, hsequence, rowOf_of_head hinv hhead hsequence fun hexpired =>
      hlive hexpired.1⟩

theorem index_agrees_created :
    (reached Cloud.empty _ Sample.created).store.change "prod" (syncSk 1 "sec-a") ≠ none ∧
      IndexAgrees (reached Cloud.empty _ Sample.created).store "prod" :=
  ⟨by decide +kernel, index_agrees Initial.empty (run_reached Sample.created) "prod"⟩

end Hemlig
