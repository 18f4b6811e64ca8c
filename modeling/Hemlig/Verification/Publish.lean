import Hemlig.Verification.Reads

/-!
# Publishing

A publication reads the counter before the head: as long as the counter stands
where it was read, the head has the sequence that was read after it.  An attempt
that loses the counter to another one changed nothing and may be repeated.
-/

namespace Hemlig

open Concurrent Store AgentSyncRepository

variable {init s s' : Cloud} {pid : ℕ}

/-- What a transaction answers. -/
theorem exec_transactWrite {writes : List TableWrite} {note : Option Event} {choice : Choice}
    {response : Response (.transactWrite writes note)}
    (hexec : exec pid (.transactWrite writes note) choice s = some (response, s')) :
    (response = .ok () ∧ ∃ table, transact s.table choice.conflicts writes = .ok table ∧
      s' = { s with table := table }.recordAny note) ∨
    (s' = s ∧ ∃ reasons, response = .error (.transactionCanceled reasons) ∧
      transact s.table choice.conflicts writes = .error (.canceled reasons)) ∨
    (s' = s ∧ response = .error .validation ∧
      transact s.table choice.conflicts writes = .error .validation) ∨
    response = .error .unavailable := by
  unfold exec at hexec
  split at hexec
  · simp only [perform] at hexec
    split at hexec <;> cases hexec
    · exact .inl ⟨rfl, _, ‹_›, rfl⟩
    · exact .inr (.inr (.inl ⟨rfl, rfl, ‹_›⟩))
    · exact .inr (.inl ⟨rfl, _, rfl, ‹_›⟩)
  · simp only [Request.isLocal, Bool.false_eq_true, if_false] at hexec
    cases hexec
    exact .inr (.inr (.inr rfl))
  · simp only [Request.isLocal, Bool.false_eq_true, if_false] at hexec
    obtain ⟨outcome, -, heq⟩ := Option.map_eq_some_iff.mp hexec
    cases heq
    exact .inr (.inr (.inr rfl))

/-- A transaction that is answered has taken effect. -/
theorem transact_of_answer {writes : List TableWrite} {note : Option Event} {choice : Choice}
    {answer : Unit} (hexec : exec pid (.transactWrite writes note) choice s = some (.ok answer, s')) :
    ∃ table, transact s.table choice.conflicts writes = .ok table ∧
      s' = { s with table := table }.recordAny note := by
  rcases exec_transactWrite hexec with ⟨-, hdone⟩ | ⟨-, _, h, -⟩ | ⟨-, h, -⟩ | h
  · exact hdone
  · cases h
  · cases h
  · cases h

/-- A transaction that lost the counter changed nothing. -/
theorem unchanged_of_contention {writes : List TableWrite} {note : Option Event} {choice : Choice}
    {failure : AwsFailure}
    (hexec : exec pid (.transactWrite writes note) choice s = some (.error failure, s'))
    (hcontention : counterContention (.aws failure) = true) : s' = s := by
  rcases exec_transactWrite hexec with ⟨hok, -⟩ | ⟨hsame, -⟩ | ⟨hsame, -⟩ | hunavailable
  · cases hok
  · exact hsame
  · exact hsame
  · cases hunavailable
    cases hcontention

/-! ## Assembling the writes -/

theorem lasts_counter {environment : String} {counter : Option (String × ℕ)} :
    Lasts init fun s => CounterLe counter (s.counter environment) :=
  fun _ _ _ _ _ hevolves h => h.trans (hevolves.counters environment)

theorem lasts_sequenced {environment u : String} {counter : Option (String × ℕ)}
    {previous : Option ℕ} : Lasts init fun s => s.Sequenced environment u counter previous :=
  fun _ _ _ _ _ hevolves h => hevolves.sequenced h

/-- The head read after the counter. -/
theorem sequenced_of_read (hinv : Invariant init s) {environment u : String}
    {counter : Option (String × ℕ)} (hcounter : CounterLe counter (s.counter environment)) :
    s.Sequenced environment u counter ((s.head u).bind HeadRecord.syncSequence) where
  reached := hcounter
  sequence := by
    intro _ head hhead _
    rw [hhead]
    rfl
  committed := by
    intro hsome
    obtain ⟨sequence, hsequence⟩ := Option.isSome_iff_exists.mp hsome
    obtain ⟨head, hhead, hsync⟩ := Option.bind_eq_some_iff.mp hsequence
    exact ⟨head, hhead, (hinv.sync.head hhead hsync).1⟩

section Specs

variable {issued : Request → Cloud → Prop} {F : Cloud → Prop} {environment : String}
  {record : AgentSyncRecord} {build : ℕ → List TableWrite}

/-- The writes of a publication, made from what was read. -/
def Assembled (s : Cloud) (environment : String) (record : AgentSyncRecord)
    (build : ℕ → List TableWrite) (items : List TableWrite) (sequence : ℕ) : Prop :=
  ∃ state epoch ttl previous,
    items = publicationWrites environment record build state epoch ttl previous ∧
      sequence = nextSequence state ∧ PublishReady s environment record state ttl previous ∧
        items.length ≤ 100

theorem lasts_assembled {items : List TableWrite} {sequence : ℕ} :
    Lasts init fun s => Assembled s environment record build items sequence := by
  rintro s s' actor - - hevolves ⟨state, epoch, ttl, previous, hitems, hsequence, hready, hsize⟩
  exact ⟨state, epoch, ttl, previous, hitems, hsequence,
    { hready with sequenced := hevolves.sequenced hready.sequenced }, hsize⟩

theorem spec_assemble (hF : Persists init pid F) :
    Spec init issued pid F (assemble environment record build) fun assembled s =>
      Assembled s environment record build assembled.1 assembled.2 := by
  refine .bind (R := fun state s =>
    CounterLe (state.map fun state => (state.epoch, state.sequence)) (s.counter environment))
    (.get hF _ fun s _ _ => CounterLe.refl _) fun state => ?_
  refine .bind (R := fun head s => s.Sequenced environment record.secretUid
    (state.map fun state => (state.epoch, state.sequence)) (head.bind HeadRecord.syncSequence))
    (.get (hF.and lasts_counter.persists) _ fun s hinv hs => sequenced_of_read hinv hs.2)
    fun head => ?_
  have hread : Persists init pid fun s => (F s ∧
      CounterLe (state.map fun state => (state.epoch, state.sequence)) (s.counter environment)) ∧
        s.Sequenced environment record.secretUid
          (state.map fun state => (state.epoch, state.sequence)) (head.bind HeadRecord.syncSequence) :=
    (hF.and lasts_counter.persists).and lasts_sequenced.persists
  refine .ite (fun _ => .raise) fun hsafe => ?_
  refine .bind (R := fun _ _ => True) ?_ fun epoch => ?_
  · exact .ite (fun _ => (spec_newId hread "").post fun _ _ _ _ _ => trivial)
      fun _ => .ret fun _ _ _ => trivial
  refine .bind (R := fun (ttl : Option ℕ) _ => ttl.isSome → record.state = .archived) ?_ fun ttl => ?_
  · refine .ite (fun harchived => .bind (spec_now (hread.and (.const _))) fun now => ?_)
      fun _ => .ret fun _ _ _ hsome => by cases hsome
    exact .ret fun _ _ _ _ => harchived
  refine .ite (fun _ => .raise) fun hsize => .ret fun s _ hs => ?_
  exact ⟨state, epoch, ttl, _, rfl, rfl, ⟨hs.1.1.2, by omega, hs.2⟩, not_lt.mp hsize⟩

/-- **A publication** is safe if each of its transactions is, and if one that lost the
counter keeps what the process knows. -/
theorem safe_publish {note : ℕ → Option Event} {R : Unit → Cloud → Prop}
    {E : Failure → Cloud → Prop} (hF : Persists init pid F)
    (hE : ∀ failure s, Invariant init s → F s → E failure s)
    (hsend : ∀ items sequence, (discipline init).Safe issued pid
      (fun s => F s ∧ Assembled s environment record build items sequence)
      (send (.transactWrite items (note sequence))) R
      fun failure s => E failure s ∧ (counterContention failure = true → F s)) :
    (discipline init).Safe issued pid F (publish environment record build note) R E := by
  suffices h : ∀ left, (discipline init).Safe issued pid F
      (publish.attempts environment record build note left) R E from h 8
  intro left
  induction left with
  | zero => exact Discipline.Safe.raise fun s hinv hs => hE _ s hinv hs
  | succ left ih =>
      refine Discipline.Safe.bind ((spec_assemble hF).weaken (fun _ _ h => h) (fun _ _ _ h => h)
        (hE · · · ·)) ?_
      rintro ⟨items, sequence⟩
      refine Discipline.Safe.recover (hsend items sequence) fun failure => ?_
      refine .ite (fun hcontention => ih.of_pre fun s _ hs => hs.2 hcontention) fun _ => ?_
      exact Discipline.Safe.raise fun s _ hs => hs.1

end Specs

end Hemlig
