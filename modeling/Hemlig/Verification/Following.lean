import Hemlig.Verification.Maintenance
import Hemlig.Verification.SyncIndex

/-!
# What a following client holds

A cycle reads the counter, pages through the records up to there and ends with a
checkpoint.  While it runs, the records it has not seen yet either stay or leave the
index, so its entries are those of the records that are still there.  A client that
applies one cycle after the other therefore holds the entry of every record up to its
last checkpoint.
-/

namespace Hemlig

open Concurrent Store AgentSyncService Controller DynamoRepository

variable {init s s' : Cloud} {pid : ℕ}

/-! ## Cursors -/

/-- What a token of the process stands for. -/
structure Cloud.CursorIs (s : Cloud) (pid : ℕ) (token : String) (cursor : StoredCursor) : Prop where
  owns : s.Owns pid token
  known : token ∈ s.known
  stored : ∀ found, s.table.get (.cursor token) = some found → found = cursor

theorem persists_cursorIs {token : String} {cursor : StoredCursor} :
    Persists init pid fun s => s.CursorIs pid token cursor := by
  intro s s' _ _ hrely h
  obtain ⟨actor, -, hevolves⟩ := hrely.evolves
  exact ⟨hevolves.owns h.owns, hevolves.known h.known,
    fun found hfound => h.stored found (hrely.cursors h.owns hfound)⟩

/-- Some tokens of the process, each with what it stands for. -/
def Cloud.Cursors (s : Cloud) (pid : ℕ) (tokens : List (String × StoredCursor)) : Prop :=
  ∀ pair ∈ tokens, s.CursorIs pid pair.1 pair.2

theorem persists_cursors {tokens : List (String × StoredCursor)} :
    Persists init pid fun s => s.Cursors pid tokens :=
  .forall fun _ => .imp persists_cursorIs

section Specs

variable {issued : Request → Cloud → Prop} {L F : Cloud → Prop}

/-- A new token. -/
structure Cloud.FreshToken (s : Cloud) (pid : ℕ) (tokens : List (String × StoredCursor))
    (token : String) : Prop where
  owns : s.Owns pid token
  known : token ∈ s.known
  other : ∀ pair ∈ tokens, token ≠ pair.1

theorem lasts_freshToken {tokens : List (String × StoredCursor)} {token : String} :
    Lasts init fun s => s.FreshToken pid tokens token :=
  fun _ _ _ _ _ hevolves h => ⟨hevolves.owns h.owns, hevolves.known h.known, h.other⟩

/-- Storing a cursor under a new token changes none of the others. -/
theorem cursors_of_create {tokens : List (String × StoredCursor)} {token : String}
    {cursor : StoredCursor} (hfresh : s.FreshToken pid tokens token)
    (hcursors : s.Cursors pid tokens) {choice : Choice}
    {answer : Response (.write (.create (.cursor token) cursor))}
    (hperform : perform pid choice s (.write (.create (.cursor token) cursor)) =
      some (answer, s')) :
    s'.Cursors pid tokens ∧ (answer = .ok () → s'.CursorIs pid token cursor) := by
  simp only [perform] at hperform
  split at hperform <;> cases hperform
  · refine ⟨fun pair hpair => ⟨(hcursors pair hpair).owns, (hcursors pair hpair).known, ?_⟩,
      fun _ => ⟨hfresh.owns, hfresh.known, ?_⟩⟩
    · intro found hfound
      refine (hcursors pair hpair).stored found ((Write.get_apply_of_ne _ _ ?_).symm.trans hfound)
      intro heq
      exact hfresh.other pair hpair (Key.cursor.inj heq).symm
    · intro found hfound
      have hself := Write.get_apply_self (Write.create (K := Key) (V := Item) (.cursor token) cursor)
        s.table
      exact (Option.some.inj (hself.symm.trans hfound)).symm
  · exact ⟨hcursors, fun h => by cases h⟩

theorem cursors_of_exec {tokens : List (String × StoredCursor)} {token : String}
    {cursor : StoredCursor} (hfresh : s.FreshToken pid tokens token)
    (hcursors : s.Cursors pid tokens) {choice : Choice}
    {answer : Response (.write (.create (.cursor token) cursor))}
    (hexec : exec pid (.write (.create (.cursor token) cursor)) choice s = some (answer, s')) :
    s'.Cursors pid tokens ∧ (answer = .ok () → s'.CursorIs pid token cursor) := by
  unfold exec at hexec
  split at hexec
  · exact cursors_of_create hfresh hcursors hexec
  · split at hexec <;> cases hexec
    exact ⟨hcursors, fun h => by cases h⟩
  · split at hexec
    · cases hexec
    · obtain ⟨⟨answer', after⟩, hperform, heq⟩ := Option.map_eq_some_iff.mp hexec
      cases heq
      exact ⟨(cursors_of_create hfresh hcursors hperform).1, fun h => by cases h⟩

variable {tokens : List (String × StoredCursor)}

/-- What a client keeps: what no step can change, and what its tokens stand for. -/
abbrev Keeping (pid : ℕ) (L : Cloud → Prop) (tokens : List (String × StoredCursor)) (s : Cloud) :
    Prop :=
  L s ∧ s.Cursors pid tokens

theorem persists_keeping (hL : Lasts init L) : Persists init pid (Keeping pid L tokens) :=
  hL.persists.and persists_cursors

theorem spec_createCursor (hL : Lasts init L) {token : String} {cursor : StoredCursor} :
    Spec init issued pid (fun s => Keeping pid L tokens s ∧ s.FreshToken pid tokens token)
      (createCursor token cursor) fun created s => created = true → s.CursorIs pid token cursor := by
  have hstable : (discipline init).Stable pid fun s =>
      Keeping pid L tokens s ∧ s.FreshToken pid tokens token :=
    ((persists_keeping hL).and lasts_freshToken.persists).stable
  have hkeep : ∀ s choice answer s', Invariant init s → Invariant init s' →
      Keeping pid L tokens s ∧ s.FreshToken pid tokens token →
      exec pid (.write (.create (.cursor token) cursor)) choice s = some (answer, s') →
        (Keeping pid L tokens s' ∧ s'.FreshToken pid tokens token) ∧
          (answer = .ok () → s'.CursorIs pid token cursor) := by
    intro s choice answer s' hinv hinv' hs hexec
    have hready : RequestReady pid s (.write (.create (.cursor token) cursor)) := .cursor hs.2.owns
    have hevolves := (kept_exec hinv hready hexec).evolves
    obtain ⟨hcursors, hcursor⟩ := cursors_of_exec hs.2 hs.1.2 hexec
    exact ⟨⟨⟨hL s s' _ hinv hinv' hevolves hs.1.1, hcursors⟩,
      lasts_freshToken s s' _ hinv hinv' hevolves hs.2⟩, hcursor⟩
  refine spec_conditionally (R := fun s => s.CursorIs pid token cursor)
    (safe_send hstable (fun s _ hs => SanctionedWrite.cursor hs.2.owns) ?_ ?_)
  · rintro s choice ⟨⟩ s' hinv hinv' hs - hexec
    obtain ⟨hs', hcursor⟩ := hkeep s choice _ s' hinv hinv' hs hexec
    exact ⟨hs', hcursor rfl⟩
  · exact fun s choice failure s' hinv hinv' hs hexec =>
      (hkeep s choice _ s' hinv hinv' hs hexec).1

/-- A program that keeps more than the rest of the program needs after a failure. -/
theorem Spec.then {α β : Type} {F G P : Cloud → Prop} {program : Service α}
    {R : α → Cloud → Prop} {next : α → Service β} {R' : β → Cloud → Prop}
    (h : Spec init issued pid G program R) (hP : ∀ s, Invariant init s → P s → G s)
    (hF : ∀ s, G s → F s) (hnext : ∀ value, (discipline init).Safe issued pid
      (fun s => G s ∧ R value s) (next value) R' fun _ s => F s) :
    (discipline init).Safe issued pid P (program.bind next) R' fun _ s => F s :=
  Discipline.Safe.bind (h.weaken hP (fun _ _ _ hs => hs) fun _ s _ hs => hF s hs) hnext

theorem spec_encodeCursor (hL : Lasts init L) {cursor : StoredCursor} :
    Spec init issued pid (Keeping pid L tokens) (CursorService.encode cursor)
      fun token s => s.CursorIs pid token cursor := by
  rw [CursorService.encode]
  generalize 3 = attempts
  induction attempts with
  | zero => exact .raise
  | succ left ih =>
      refine Discipline.Safe.bind (spec_newId (persists_keeping hL) "") fun token => ?_
      refine Spec.then (spec_createCursor hL) ?_ (fun s hs => hs.1) fun created => ?_
      · rintro s - ⟨hs, hdrawn, -, -, hother⟩
        refine ⟨hs, hdrawn.owns, hdrawn.known, fun pair hpair => hother pair.1 ?_⟩
        exact fun s hs => (hs.2 pair hpair).known
      · refine Discipline.Safe.ite (fun hcreated => Discipline.Safe.ret fun s _ hs => ?_) fun _ =>
          Discipline.Safe.of_pre ih fun s _ hs => hs.1.1
        exact ⟨hs.1.1, hs.2 hcreated⟩

/-- **A stored cursor stands for its position.** -/
theorem spec_encode (hL : Lasts init L) {scope : String} {position : Position} :
    Spec init issued pid (Keeping pid L tokens) (AgentSyncService.encode scope position)
      fun token s => ∃ cursor, cursor.position = position ∧ s.CursorIs pid token cursor :=
  Spec.post (spec_encodeCursor hL) fun _ _ _ _ hs => ⟨_, rfl, hs⟩

/-- A token of the process is decoded to the position it stands for. -/
theorem spec_decode (hF : Persists init pid F) {token scope : String} {cursor : StoredCursor}
    (hcursor : ∀ s, F s → s.CursorIs pid token cursor) :
    Spec init issued pid F (decode token scope) fun position _ =>
      position = cursor.position ∧ position.after ≤ position.through := by
  refine .bind (.get hF (.cursor token) (R := fun found _ => ∀ stored, found = some stored →
    stored = cursor) fun s _ hs => (hcursor s hs).stored) fun found => ?_
  refine .bind (Spec.requireSome found) fun stored => ?_
  have hpersists : Persists init pid fun s => (F s ∧ ∀ stored, found = some stored →
      stored = cursor) ∧ found = some stored := (hF.and (.const _)).and (.const _)
  refine .ite (fun _ => .raise) fun _ => .bind (spec_now hpersists) fun now => ?_
  refine .ite (fun _ => .raise) fun _ => .ite (fun _ => .raise) fun hle => .ret ?_
  rintro s - ⟨⟨⟨-, hstored⟩, hfound⟩, -⟩
  exact ⟨congrArg StoredCursor.position (hstored stored hfound), not_lt.mp hle⟩

/-! ## One cycle -/

variable (issued) in
/-- The cycle read the counter when it stood at `through`. -/
def Began (s : Cloud) (environment : String) (through : ℕ) : Prop :=
  ∃ first state, issued (.get (.syncState environment)) first ∧
    first.syncState environment = some state ∧ state.sequence = through ∧
      Since first s environment through

theorem lasts_began {environment : String} {through : ℕ} :
    Lasts init fun s => Began issued s environment through :=
  .exists fun _ => .exists fun _ => (Lasts.const _).and
    ((Lasts.const _).and ((Lasts.const _).and lasts_since))

/-- A snapshot starts from nothing, another cycle from the last checkpoint. -/
def StartsFrom (prior : Option ℕ) (snapshot : Bool) (after : ℕ) : Prop :=
  snapshot = true ∧ after = 0 ∨ snapshot = false ∧ prior = some after

variable (issued) in
/-- A cycle that has collected entries up to a position. -/
structure Cycling (follower : Follower) (prior : Option ℕ) (s : Cloud) (position : Position)
    (entries : Entries) : Prop where
  le : position.after ≤ position.through
  collected : Collected s follower.environment follower.grant position.after position.through
    (Before position.lastSk) entries
  began : Began issued s follower.environment position.through
  start : StartsFrom prior position.snapshot position.after

theorem lasts_cycling {follower : Follower} {prior : Option ℕ} {position : Position}
    {entries : Entries} :
    Lasts init fun s => Cycling issued follower prior s position entries :=
  fun s s' actor hinv hinv' hevolves h =>
    ⟨h.le, lasts_collected s s' actor hinv hinv' hevolves h.collected,
      lasts_began s s' actor hinv hinv' hevolves h.began, h.start⟩

variable (issued) in
/-- A cycle that has collected everything up to its checkpoint. -/
structure Finished (follower : Follower) (prior : Option ℕ) (s : Cloud) (cycle : Synchronized)
    (through : ℕ) : Prop where
  collected : ∃ after, Collected s follower.environment follower.grant after through
    (fun _ => True) cycle.entries ∧ StartsFrom prior cycle.snapshot after
  began : Began issued s follower.environment through

theorem lasts_finished {follower : Follower} {prior : Option ℕ} {cycle : Synchronized}
    {through : ℕ} : Lasts init fun s => Finished issued follower prior s cycle through := by
  intro s s' actor hinv hinv' hevolves ⟨⟨after, hcollected, hstart⟩, hbegan⟩
  exact ⟨⟨after, lasts_collected s s' actor hinv hinv' hevolves hcollected, hstart⟩,
    lasts_began s s' actor hinv hinv' hevolves hbegan⟩

variable (issued) in
/-- What a request of a cycle presents, and the entries collected so far. -/
inductive Presents (follower : Follower) (L : Cloud → Prop) (tokens : List (String × StoredCursor))
    (prior : Option ℕ) : SyncQuery → Entries → Prop
  | snapshot : Presents follower L tokens prior ⟨none, none⟩ fun _ => none
  | delta {token : String} {cursor : StoredCursor} (hmem : (token, cursor) ∈ tokens)
      (hprior : prior = some cursor.position.through) :
      Presents follower L tokens prior ⟨some token, none⟩ fun _ => none
  | page {token : String} {cursor : StoredCursor} {entries : Entries}
      (hmem : (token, cursor) ∈ tokens)
      (hcycling : ∀ s, L s → Cycling issued follower prior s cursor.position entries) :
      Presents follower L tokens prior ⟨none, some token⟩ entries

variable {follower : Follower} {prior : Option ℕ} {query : SyncQuery} {entries : Entries}

/-- Nothing is collected at the beginning of a cycle. -/
theorem Cycling.begin {position : Position} (hle : position.after ≤ position.through)
    (hbegan : Began issued s follower.environment position.through)
    (hstart : StartsFrom prior position.snapshot position.after) (hlast : position.lastSk = none) :
    Cycling issued follower prior s position fun _ => none := by
  refine ⟨hle, ?_, hbegan, hstart⟩
  obtain ⟨first, state, -, -, -, hsince⟩ := hbegan
  refine ⟨hsince.reached, fun _ _ _ hseen _ => ?_, fun _ _ _ => rfl⟩
  obtain ⟨last, hsome, -⟩ := hlast ▸ hseen
  cases hsome

/-- Where a cycle stands after its request was checked; a checkpoint that a delta
presents lies where the delta starts. -/
structure Stands (issued : Request → Cloud → Prop) (follower : Follower)
    (tokens : List (String × StoredCursor)) (prior : Option ℕ) (query : SyncQuery)
    (entries : Entries) (s : Cloud) (position : Position) : Prop where
  cycling : Cycling issued follower prior s position entries
  presented : ∀ token, query.syncCursor = some token →
    ∃ cursor, (token, cursor) ∈ tokens ∧ cursor.position.through = position.after

theorem spec_startPosition (hL : Lasts init L)
    (hpresents : Presents issued follower L tokens prior query entries) {scope : String}
    {state : AgentSyncState} {now : Time} :
    Spec init issued pid
      (fun s => Keeping pid L tokens s ∧ Began issued s follower.environment state.sequence)
      (startPosition scope query follower.grant state now) fun position s =>
        Stands issued follower tokens prior query entries s position := by
  have hF : Persists init pid fun s =>
      Keeping pid L tokens s ∧ Began issued s follower.environment state.sequence :=
    (persists_keeping hL).and lasts_began.persists
  cases hpresents with
  | snapshot =>
      refine .ret fun s _ hs => ⟨.begin (Nat.zero_le _) hs.2 (.inl ⟨rfl, rfl⟩) rfl, ?_⟩
      rintro token ⟨⟩
  | @delta token cursor hmem hprior =>
      refine .bind (spec_decode hF fun s hs => hs.1.2 _ hmem) fun position => .ite (fun hfits => ?_)
        fun _ => .raise
      refine .ite (fun _ => .ret ?_) fun _ => .raise
      rintro s - ⟨hs, rfl, hle⟩
      have hthrough : cursor.position.through ≤ state.sequence := by
        simp only [positionFits, decide_eq_true_eq] at hfits
        exact hfits.2.2
      refine ⟨.begin hthrough hs.2 (.inr ⟨rfl, hprior⟩) rfl, fun other hother => ?_⟩
      cases hother
      exact ⟨cursor, hmem, rfl⟩
  | @page token cursor entries hmem hcycling =>
      refine .bind (spec_decode hF fun s hs => hs.1.2 _ hmem) fun position => .ite (fun _ => ?_)
        fun _ => .raise
      refine .ite (fun _ => .ret ?_) fun _ => .raise
      rintro s - ⟨hs, rfl, -⟩
      refine ⟨hcycling s hs.1.1, fun other hother => ?_⟩
      cases hother

/-- **A page continues a cycle.** -/
theorem spec_page (hF : Persists init pid F) {position : Position}
    (hcycling : ∀ s, F s → Cycling issued follower prior s position entries) :
    Spec init issued pid F
      (AgentSyncRepository.page follower.environment position.after position.through position.lastSk)
      fun page s => Collected s follower.environment follower.grant position.after position.through
        (UpTo page.2) (setAll entries (visibleEntries follower.grant page.1)) := by
  refine .ite (fun heq => .ret fun s hinv hs => ?_) fun hne => ?_
  · refine (hcycling s hs).collected.page hinv ⟨fun _ hmem => (nomatch hmem), ?_⟩
    intro sequence record _ hafter hle
    omega
  · refine .bind (R := fun response s => Collected s follower.environment follower.grant
        position.after position.through (UpTo response.lastEvaluatedKey)
        (setAll entries (visibleEntries follower.grant
          (response.items.map fun item => item.2.record))))
      (.send hF rfl (fun _ _ _ => trivial) ?_) fun response => .ret fun s _ hs => hs.2
    rintro s choice response s' hinv - hs - hperform
    cases hperform
    have hcollected := (hcycling s hs).collected
    have hlt : position.after < position.through := by
      have := (hcycling s hs).le
      omega
    exact hcollected.page hinv (shown_of_page hinv hcollected.reached hlt)

/-- What a page of a cycle leads to. -/
def Answered (issued : Request → Cloud → Prop) (pid : ℕ) (follower : Follower) (prior : Option ℕ)
    (entries : Entries) (page : AgentSyncPage) (s : Cloud) : Prop :=
  (∀ token, page.nextCursor = some token → ∃ cursor, s.CursorIs pid token cursor ∧
    Cycling issued follower prior s cursor.position (setAll entries page.changes)) ∧
  ∀ token, page.nextCursor = none → page.syncCursor = some token → ∃ cursor,
    s.CursorIs pid token cursor ∧ Finished issued follower prior s
      ⟨setAll entries page.changes, page.snapshot, token⟩ cursor.position.through

theorem spec_checkpoint (hL : Lasts init L) {scope : String} {position : Position}
    (hpresented : ∀ token, query.syncCursor = some token →
      ∃ cursor, (token, cursor) ∈ tokens ∧ cursor.position.through = position.after) :
    Spec init issued pid (Keeping pid L tokens) (checkpoint scope query position) fun token s =>
      ∃ cursor, cursor.position.through = position.through ∧ s.CursorIs pid token cursor := by
  have hencode : Spec init issued pid (Keeping pid L tokens)
      (AgentSyncService.encode scope
        { position with kind := .checkpoint, after := position.through, lastSk := none })
      fun token s => ∃ cursor, cursor.position.through = position.through ∧
        s.CursorIs pid token cursor := by
    refine Spec.post (spec_encode hL) ?_
    rintro token s - - ⟨cursor, hposition, hs⟩
    exact ⟨cursor, (congrArg Position.through hposition :), hs⟩
  unfold checkpoint
  cases hquery : query.syncCursor with
  | none => exact hencode
  | some token =>
      refine .ite (fun heq => .ret fun s _ hs => ?_) fun _ => hencode
      obtain ⟨cursor, hmem, hthrough⟩ := hpresented token hquery
      exact ⟨cursor, hthrough.trans heq, hs.2 _ hmem⟩

theorem spec_answer (hL : Lasts init L) {scope : String} {position : Position}
    (hpresented : ∀ token, query.syncCursor = some token →
      ∃ cursor, (token, cursor) ∈ tokens ∧ cursor.position.through = position.after) :
    (discipline init).Safe issued pid
      (fun s => Keeping pid L tokens s ∧ Cycling issued follower prior s position entries)
      (answer follower.environment scope query follower.grant position)
      (fun page s => Keeping pid L tokens s ∧ Answered issued pid follower prior entries page s)
      fun _ s => Keeping pid L tokens s := by
  have hF : Persists init pid fun s =>
      Keeping pid L tokens s ∧ Cycling issued follower prior s position entries :=
    (persists_keeping hL).and lasts_cycling.persists
  refine Spec.then (spec_page hF fun s hs => hs.2) (fun _ _ hs => hs) (fun _ hs => hs.1)
    fun page => ?_
  obtain ⟨records, lastSk⟩ := page
  cases lastSk with
  | some last =>
      have hL' : Lasts init fun s => L s ∧ Cycling issued follower prior s
          { position with kind := .page, lastSk := some last }
          (setAll entries (visibleEntries follower.grant records)) := hL.and lasts_cycling
      refine Spec.then (G := Keeping pid _ tokens) (spec_encode hL') ?_
        (fun s hs => ⟨hs.1.1, hs.2⟩) fun token => Discipline.Safe.ret ?_
      · rintro s - ⟨⟨hs, hcycling⟩, hcollected⟩
        refine ⟨⟨hs.1, hcycling.le, ?_, hcycling.began, hcycling.start⟩, hs.2⟩
        exact { hcollected with
          held := fun hindexed hafter hle hbefore => by
            obtain ⟨_, hsome, hbefore⟩ := hbefore
            cases hsome
            exact hcollected.held hindexed hafter hle fun _ hlast => by cases hlast; exact hbefore }
      · rintro s - ⟨⟨⟨hs, hcycling⟩, hcursors⟩, cursor, hposition, hcursor⟩
        refine ⟨⟨hs, hcursors⟩, fun other hother => ?_, fun _ hnone => by cases hnone⟩
        cases hother
        exact ⟨cursor, hcursor, hposition ▸ hcycling⟩
  | none =>
      have hL' : Lasts init fun s => L s ∧ ∀ token, Finished issued follower prior s
          ⟨setAll entries (visibleEntries follower.grant records), position.snapshot, token⟩
          position.through := hL.and (.forall fun _ => lasts_finished)
      refine Spec.then (G := Keeping pid _ tokens) (spec_checkpoint hL' hpresented) ?_
        (fun s hs => ⟨hs.1.1, hs.2⟩) fun token => Discipline.Safe.ret ?_
      · rintro s - ⟨⟨hs, hcycling⟩, hcollected⟩
        refine ⟨⟨hs.1, fun token => ⟨⟨position.after, ?_, hcycling.start⟩, hcycling.began⟩⟩, hs.2⟩
        exact { hcollected with
          held := fun hindexed hafter hle _ => hcollected.held hindexed hafter hle
            fun _ hlast => by cases hlast }
      · rintro s - ⟨⟨⟨hs, hfinished⟩, hcursors⟩, cursor, hthrough, hcursor⟩
        refine ⟨⟨hs, hcursors⟩, fun _ hsome => (nomatch hsome), fun other _ hother => ?_⟩
        cases hother
        exact ⟨cursor, hcursor, hthrough ▸ hfinished token⟩

/-- The counter, and what begins when it is read. -/
theorem spec_state (hF : Persists init pid F) (environment : String) :
    Spec init issued pid F (AgentSyncRepository.state environment) fun result s =>
      ∀ state, result = some state → Began issued s environment state.sequence := by
  refine .send hF rfl (fun _ _ _ => trivial) ?_
  rintro s choice result s' hinv - - hissued hperform state hstate
  cases hperform
  exact ⟨s, state, hissued, hstate, rfl, .refl hinv ⟨state, hstate, le_rfl⟩⟩

/-- **One request of a cycle.** -/
theorem spec_sync (hL : Lasts init L)
    (hpresents : Presents issued follower L tokens prior query entries) :
    Spec init issued pid (Keeping pid L tokens)
      (sync follower.consumerId follower.environment query (some follower.grant))
      (Answered issued pid follower prior entries) := by
  refine Spec.then (Spec.requireSome _) (fun _ _ hs => hs) (fun _ hs => hs) fun grant =>
    Discipline.Safe.of_fact (p := grant = follower.grant) (fun s _ hs => ?_) ?_
  · exact (Option.some.inj (Option.filter_eq_some_iff.mp hs.2).1).symm
  rintro rfl
  refine Discipline.Safe.of_pre (P := Keeping pid L tokens) ?_ fun s _ hs => hs.1
  refine Spec.ite (fun _ => Spec.raise) fun _ => ?_
  refine Spec.then (spec_state (persists_keeping hL) _) (fun _ _ hs => hs) (fun _ hs => hs)
    fun found => ?_
  refine Spec.then (Spec.requireSome _) (fun _ _ hs => hs) (fun _ hs => hs.1) fun state => ?_
  have hbegan : Persists init pid fun s =>
      Keeping pid L tokens s ∧ Began issued s follower.environment state.sequence :=
    (persists_keeping hL).and lasts_began.persists
  refine Spec.then (spec_now hbegan) ?_ (fun _ hs => hs.1) fun now => ?_
  · rintro s - ⟨⟨hs, hfound⟩, hstate⟩
    exact ⟨hs, hfound state (Option.filter_eq_some_iff.mp hstate).1⟩
  refine Spec.then (spec_startPosition hL hpresents) (fun _ _ hs => hs.1) (fun _ hs => hs.1)
    fun position => ?_
  refine Discipline.Safe.of_fact (p := ∀ token, query.syncCursor = some token →
      ∃ cursor, (token, cursor) ∈ tokens ∧ cursor.position.through = position.after)
    (fun s _ hs => hs.2.presented) fun hpresented => ?_
  exact Discipline.Safe.of_pre (spec_answer hL hpresented) fun s _ hs => ⟨hs.1.1, hs.2.cycling⟩

/-! ## Completed cycles -/

/-- A cycle has ended with a checkpoint. -/
def Completed (issued : Request → Cloud → Prop) (pid : ℕ) (follower : Follower) (prior : Option ℕ)
    (cycle : Synchronized) (s : Cloud) : Prop :=
  ∃ cursor, s.CursorIs pid cycle.checkpoint cursor ∧
    Finished issued follower prior s cycle cursor.position.through

/-- **The pages of a cycle.** -/
theorem spec_pages (hL : Lasts init L) (left : ℕ)
    (hpresents : Presents issued follower L tokens prior query entries) :
    Spec init issued pid (Keeping pid L tokens) (synchronize.pages follower left query entries)
      (Completed issued pid follower prior) := by
  induction left generalizing L tokens query entries with
  | zero => exact .raise
  | succ left ih =>
      refine Spec.then (spec_sync hL hpresents) (fun _ _ hs => hs) (fun _ hs => hs) fun page => ?_
      cases hcursor : page.nextCursor with
      | some token =>
          refine Discipline.Safe.of_pre (P := fun s => ∃ cursor,
            (Keeping pid L tokens s ∧ s.CursorIs pid token cursor) ∧
              Cycling issued follower prior s cursor.position (setAll entries page.changes))
            (Discipline.Safe.exists fun cursor => ?_) ?_
          · have hL' : Lasts init fun s => L s ∧
                Cycling issued follower prior s cursor.position (setAll entries page.changes) :=
              hL.and lasts_cycling
            have hpage : Presents issued follower _ ((token, cursor) :: tokens) prior
                ⟨none, some token⟩ (setAll entries page.changes) :=
              .page List.mem_cons_self fun s (hs : L s ∧ _) => hs.2
            refine (ih hL' hpage).weaken ?_ ?_ ?_
            · rintro s - ⟨⟨hs, hcursor⟩, hcycling⟩
              exact ⟨⟨hs.1, hcycling⟩, List.forall_mem_cons.mpr ⟨hcursor, hs.2⟩⟩
            · rintro cycle s - ⟨⟨hs, hcursors⟩, hcompleted⟩
              exact ⟨⟨hs.1, (List.forall_mem_cons.mp hcursors).2⟩, hcompleted⟩
            · rintro failure s - ⟨hs, hcursors⟩
              exact ⟨hs.1, (List.forall_mem_cons.mp hcursors).2⟩
          · rintro s - ⟨hs, hnext, -⟩
            obtain ⟨cursor, hcursorIs, hcycling⟩ := hnext token hcursor
            exact ⟨cursor, ⟨hs, hcursorIs⟩, hcycling⟩
      | none =>
          cases hcheckpoint : page.syncCursor with
          | none =>
              exact fun s _ hs => hs.1
          | some token =>
              exact fun s _ hs => ⟨hs.1, hs.2.2 token hcursor hcheckpoint⟩

/-- A cycle from a checkpoint, or from nothing if that is outdated. -/
theorem spec_synchronize (hL : Lasts init L) {syncCursor : Option String}
    (hpresents : Presents issued follower L tokens prior ⟨syncCursor, none⟩ fun _ => none) :
    Spec init issued pid (Keeping pid L tokens) (synchronize follower syncCursor)
      (Completed issued pid follower prior) := by
  refine Discipline.Safe.recover (spec_pages hL _ hpresents) fun failure => ?_
  refine Spec.ite (fun _ => spec_pages hL _ .snapshot) fun _ => Spec.raise

/-! ## One cycle after the other -/

/-- The entries of all records up to some sequence. -/
def Held (follower : Follower) (through : ℕ) (entries : Entries) (s : Cloud) : Prop :=
  s.Reached follower.environment through ∧ ∀ sequence record entry,
    s.Indexed follower.environment sequence record → sequence ≤ through →
      entryOf follower.grant record = some entry → entries record.secretUid = some entry

theorem lasts_held {through : ℕ} {held : Entries} : Lasts init (Held follower through held) :=
  fun _ _ _ hinv _ hevolves h => ⟨hevolves.reached h.1, fun sequence record entry hindexed hle =>
    h.2 sequence record entry (hevolves.indexed hinv h.1 hle hindexed) hle⟩

/-- **A cycle brings what is held up to its checkpoint.** -/
theorem Finished.held (hinv : Invariant init s) {cycle : Synchronized} {through : ℕ}
    (h : Finished issued follower prior s cycle through) {held : Entries}
    (hprior : ∀ after, prior = some after → Held follower after held s) :
    Held follower through (applyCycle held cycle) s := by
  obtain ⟨⟨after, hcollected, hstart⟩, -⟩ := h
  refine ⟨hcollected.reached, fun sequence record entry hindexed hle hentry => ?_⟩
  unfold applyCycle
  rcases hstart with ⟨hsnapshot, rfl⟩ | ⟨hdelta, hafter⟩
  · obtain ⟨-, -, -, -, -, hpos⟩ := hindexed.head hinv (hle.trans (hcollected.reached.safe hinv))
    rw [hsnapshot, if_pos rfl]
    exact hcollected.held hindexed hpos hle trivial hentry
  · rw [hdelta, if_neg Bool.false_ne_true]
    by_cases hlater : after < sequence
    · rw [hcollected.held hindexed hlater hle trivial hentry, Option.some_or]
    · have hbefore : sequence ≤ after := not_lt.mp hlater
      rw [hcollected.clean hindexed hbefore hle, Option.none_or]
      exact (hprior after hafter).2 sequence record entry hindexed hbefore hentry

/-- What a client holds after its cycles, the last one first. -/
def Followed (issued : Request → Cloud → Prop) (pid : ℕ) (follower : Follower) :
    List Synchronized → Cloud → Prop
  | [], _ => True
  | cycle :: earlier, s => ∃ cursor, s.CursorIs pid cycle.checkpoint cursor ∧
      Held follower cursor.position.through (heldAfter (cycle :: earlier)) s ∧
      ∃ prior, Finished issued follower prior s cycle cursor.position.through ∧
        (earlier = [] → prior = none) ∧
        ∀ previous ∈ earlier.head?, ∃ cursor', s.CursorIs pid previous.checkpoint cursor' ∧
          prior = some cursor'.position.through

theorem persists_followed {done : List Synchronized} :
    Persists init pid (Followed issued pid follower done) := by
  cases done with
  | nil => exact .const _
  | cons cycle earlier =>
      exact .exists fun _ => persists_cursorIs.and (lasts_held.persists.and
        (.exists fun _ => lasts_finished.persists.and ((Persists.const _).and
          (.forall fun _ => .imp (.exists fun _ => persists_cursorIs.and (.const _))))))

/-- **A client that follows an index.** -/
theorem runs_follow (n : ℕ) (done : List Synchronized) :
    Runs init issued pid (Followed issued pid follower done) (follow follower n done)
      (Followed issued pid follower) := by
  induction n generalizing done with
  | zero => exact fun _ _ hs => hs
  | succ left ih =>
      refine Discipline.Safe.bind (R := fun cycle => Followed issued pid follower (cycle :: done))
        ?_ fun cycle => ih (cycle :: done)
      cases done with
      | nil =>
          have hcycle : Spec init issued pid (Keeping pid (fun _ => True) [])
              (synchronize follower none) (Completed issued pid follower none) :=
            spec_synchronize (.const _) .snapshot
          refine hcycle.weaken ?_ ?_ fun _ _ _ _ => trivial
          · exact fun s _ _ => ⟨trivial, fun _ hmem => nomatch hmem⟩
          · rintro cycle s hinv ⟨-, cursor, hcursor, hfinished⟩
            exact ⟨cursor, hcursor, hfinished.held hinv fun _ hnone => (nomatch hnone), none, hfinished,
              fun _ => rfl, fun _ hmem => nomatch hmem⟩
      | cons last earlier =>
          refine Discipline.Safe.exists fun cursor => ?_
          have hL : Lasts init (Held follower cursor.position.through (heldAfter (last :: earlier))) :=
            lasts_held
          refine (spec_synchronize hL (.delta List.mem_cons_self rfl)).weaken
            (P := Keeping pid _ [(last.checkpoint, cursor)]) ?_ ?_ fun _ _ _ _ => trivial
          · exact fun s _ hs => ⟨hs.2.1, List.forall_mem_cons.mpr ⟨hs.1, fun _ hmem => nomatch hmem⟩⟩
          · rintro cycle s hinv ⟨⟨hheld, hcursors⟩, cursor', hcursor', hfinished⟩
            refine ⟨cursor', hcursor', hfinished.held hinv fun after hafter => ?_, _, hfinished,
              nofun, ?_⟩
            · cases hafter
              exact hheld
            · intro previous hprevious
              cases hprevious
              exact ⟨cursor, hcursors _ List.mem_cons_self, rfl⟩

end Specs

end Hemlig
