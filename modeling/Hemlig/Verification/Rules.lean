import Hemlig.Invariant.Preservation

/-!
# Rules for the programs of the service

What a process may rely on between its requests (`Rely`), the assertions that
survive it (`Persists`), and specifications in the style of a frame: `Spec F program R`
says that the program may be run wherever `F` holds, that it keeps `F` whether it
returns or raises, and that it returns only values with `R`.  Programs that read are
specified so; a mutation ends with its commit and keeps nothing.
-/

namespace Hemlig

open Concurrent Store DynamoRepository AgentSyncRepository

variable {init s s' : Cloud} {pid : ℕ}

/-! ## What a process relies on -/

/-- What happens between two requests of a process, and in its own quiet requests. -/
structure Rely (pid : ℕ) (s s' : Cloud) : Prop where
  evolves : ∃ actor, actor ≠ some pid ∧ Evolves actor s s'
  cursors : ∀ {token cursor}, s.Owns pid token → s'.table.get (.cursor token) = some cursor →
    s.table.get (.cursor token) = some cursor
  tokens : ∀ {token grantId}, s.Owns pid token → s'.IssuedFor token grantId →
    s.IssuedFor token grantId

theorem cursor_not_mem {writes : List TableWrite} {note : Option Event}
    (hready : Sanctioned pid s writes note) (token : String) :
    Key.cursor token ∉ writes.map Write.key := by
  intro hmem
  obtain ⟨write, hwrite, hkey⟩ := List.mem_map.mp hmem
  cases hready with
  | prepare hprepare =>
      rcases mem_keys_prepareWrites.mp hmem with h | h | ⟨_, -, h⟩ | h | ⟨-, h⟩ <;> cases h
  | commit hcommit hpublish hnotifications hsize =>
      rcases mem_publicationWrites.mp hwrite with rfl | hbuilt | rfl | ⟨_, -, rfl⟩
      · cases (key_counterWrite _ _ _ _).symm.trans hkey
      · cases CompletedMutation.writeOf_of_mem hbuilt <;> cases hkey
      · cases hkey
      · cases hkey
  | backfill hbackfill hpublish =>
      rcases mem_publicationWrites.mp hwrite with rfl | hbuilt | rfl | ⟨_, -, rfl⟩
      · cases (key_counterWrite _ _ _ _).symm.trans hkey
      · rw [List.mem_singleton.mp hbuilt] at hkey
        cases hkey
      · cases hkey
      · cases hkey
  | createEnvironment =>
      simp [createEnvironmentWrites, emptyState, countWrite] at hmem
  | emptyState hsynced => simp [emptyState] at hmem
  | abort => simp [abortPreparedCreateWrites] at hmem
  | registry hregistry =>
      have hof := hregistry.ofRegistration write hwrite
      rw [hkey] at hof
      cases hof

theorem cursor_of_perform {q : Request} (hready : RequestReady pid s q) {choice : Choice}
    {answer : Response q} (hperform : perform pid choice s q = some (answer, s')) {token : String}
    {cursor : StoredCursor} (hcursor : s'.table.get (.cursor token) = some cursor) :
    s.table.get (.cursor token) = some cursor ∨ q.quiet = false ∧ s.Owns pid token := by
  cases q with
  | write write =>
      simp only [perform] at hperform
      split at hperform
      · cases hperform
        by_cases hkey : Key.cursor token = write.key
        · cases hready with
          | cursor howns =>
              cases hkey
              exact .inr ⟨rfl, howns⟩
          | registry hregistry =>
              have hof := hregistry.ofRegistration
              rw [← hkey] at hof
              cases hof
          | retryable | release | deleted | enable => cases hkey
        · rw [Write.get_apply_of_ne _ _ hkey] at hcursor
          exact .inl hcursor
      · cases hperform
        exact .inl hcursor
  | writeNoted write note =>
      simp only [perform] at hperform
      split at hperform
      · cases hperform
        have hof := hready.ofRegistration
        refine .inl ((Write.get_apply_of_ne _ _ ?_).symm.trans hcursor)
        rintro hkey
        rw [← hkey] at hof
        cases hof
      · cases hperform
        exact .inl hcursor
  | transactWrite writes note =>
      simp only [perform] at hperform
      split at hperform
      · cases hperform
        rename_i table htransact
        have hsame : table.get (.cursor token) = some cursor := by
          cases note <;> exact hcursor
        rw [get_of_not_mem htransact (cursor_not_mem hready token)] at hsame
        exact .inl hsame
      · cases hperform
        exact .inl hcursor
      · cases hperform
        exact .inl hcursor
  | newId tag =>
      simp only [perform] at hperform
      split at hperform <;> cases hperform
      exact .inl hcursor
  | putObject key body | putBundle key pem =>
      simp only [perform] at hperform
      split at hperform
      · cases hperform
        exact .inl hcursor
      · split at hperform <;> cases hperform
        exact .inl hcursor
  | newRoot =>
      obtain ⟨certificate, -, heq⟩ := Option.map_eq_some_iff.mp hperform
      cases heq
      exact .inl hcursor
  | extendRetention reference retainUntil | deleteObject reference =>
      simp only [perform] at hperform
      split at hperform
      · split at hperform <;> cases hperform <;> exact .inl hcursor
      · cases hperform
        exact .inl hcursor
  | getObject reference | getRetention reference | getBundle _ | updateDomainName _ _
  | provision _ _ _ =>
      simp only [perform] at hperform
      split at hperform <;> cases hperform <;> exact .inl hcursor
  | now | choose | get _ | transactGet _ _ | expiredPrepared _ | readyWorkflows _
  | changePage _ _ _ _ | environmentPage _ | accessPage _ _ _ | scanHeads _ | encrypt _
  | decrypt _ | auditWrite _ | reconcileTruststore | dueEnrollments _ | truststoreRootPage _
  | issueLeaf _ _ _ | encryptIssuerKey | decryptIssuerKey _ | getDomainName | identityPage _ =>
      cases hperform
      exact .inl hcursor

/-- Only its owner stores a cursor. -/
theorem cursor_of_exec {q : Request} (hready : RequestReady pid s q) {choice : Choice}
    {answer : Response q} (hexec : exec pid q choice s = some (answer, s')) {token : String}
    {cursor : StoredCursor} (hcursor : s'.table.get (.cursor token) = some cursor) :
    s.table.get (.cursor token) = some cursor ∨ q.quiet = false ∧ s.Owns pid token := by
  unfold exec at hexec
  split at hexec
  · exact cursor_of_perform hready hexec hcursor
  · split at hexec <;> cases hexec
    exact .inl hcursor
  · split at hexec
    · cases hexec
    · obtain ⟨⟨answer', after⟩, hperform, heq⟩ := Option.map_eq_some_iff.mp hexec
      cases heq
      exact cursor_of_perform hready hperform hcursor

theorem cursor_of_event {event : EnvironmentEvent} (hevent : event.apply s = some s')
    {token : String} {cursor : StoredCursor}
    (hcursor : s'.table.get (.cursor token) = some cursor) :
    s.table.get (.cursor token) = some cursor := by
  cases event with
  | tick elapsed | replicate u sk | replicateIdentity fingerprint =>
      cases hevent
      exact hcursor
  | expireChange environment sk =>
      simp only [EnvironmentEvent.apply] at hevent
      split at hevent <;> cases hevent
      exact (Table.get_set_of_ne _ _ (by simp)).symm.trans hcursor
  | expireCapability tokenHash =>
      simp only [EnvironmentEvent.apply] at hevent
      split at hevent <;> cases hevent
      exact (Table.get_set_of_ne _ _ (by simp)).symm.trans hcursor
  | expireCursor other =>
      simp only [EnvironmentEvent.apply] at hevent
      split at hevent <;> cases hevent
      by_cases htoken : token = other
      · subst htoken
        cases (Table.get_set_self _ _ _).symm.trans hcursor
      · exact (Table.get_set_of_ne _ _ (by simpa using htoken)).symm.trans hcursor
  | foreign key item =>
      simp only [EnvironmentEvent.apply] at hevent
      split at hevent <;> cases hevent
      rename_i hforeign
      refine (Table.get_set_of_ne _ _ ?_).symm.trans hcursor
      rintro rfl
      cases hforeign

/-! ### The history -/

/-- The event that a request adds to the history. -/
def Request.event : Request → Option Event
  | .transactWrite _ note => note
  | .writeNoted _ note => some note
  | .deleteObject reference => some (.deleted reference)
  | .reconcileTruststore => some .truststoreReconciled
  | _ => none

/-- A request adds its event to the history, or nothing. -/
theorem happened_of_exec {q : Request} {choice : Choice} {answer : Response q}
    (hexec : exec pid q choice s = some (answer, s')) {event : Event} (hevent : s'.Happened event) :
    s.Happened event ∨ q.event = some event := by
  obtain rfl | ⟨outcome, hperform⟩ : s' = s ∨ ∃ outcome : Response q,
      perform pid choice s q = some (outcome, s') := by
    unfold exec at hexec
    split at hexec
    · exact .inr ⟨_, hexec⟩
    · split at hexec <;> cases hexec
      exact .inl rfl
    · split at hexec
      · cases hexec
      · obtain ⟨⟨outcome, after⟩, hperform, heq⟩ := Option.map_eq_some_iff.mp hexec
        cases heq
        exact .inr ⟨outcome, hperform⟩
  · exact .inl hevent
  have happended : ∀ {noted : Event} {time : Time} {known : List String},
      s'.history = s.history ++ [⟨time, known, noted⟩] → s.Happened event ∨ some noted = some event :=
    fun happend => (hevent.of_append happend).imp_right fun heq => by rw [heq]
  cases q with
  | writeNoted write note =>
      simp only [perform] at hperform
      split at hperform <;> cases hperform
      · exact happended rfl
      · exact .inl hevent
  | transactWrite writes note =>
      simp only [perform] at hperform
      split at hperform <;> cases hperform
      · cases note with
        | none => exact .inl hevent
        | some note => exact happended rfl
      · exact .inl hevent
      · exact .inl hevent
  | deleteObject reference =>
      simp only [perform] at hperform
      split at hperform
      · split at hperform <;> cases hperform
        · exact .inl hevent
        · exact happended rfl
      · cases hperform
        exact .inl hevent
  | reconcileTruststore =>
      cases hperform
      exact happended rfl
  | newRoot =>
      obtain ⟨certificate, -, heq⟩ := Option.map_eq_some_iff.mp hperform
      cases heq
      exact .inl hevent
  | newId _ | write _ | getObject _ | getRetention _ | getBundle _ | updateDomainName _ _
  | provision _ _ _ =>
      simp only [perform] at hperform
      split at hperform <;> cases hperform <;> exact .inl hevent
  | putObject _ _ | putBundle _ _ =>
      simp only [perform] at hperform
      split at hperform
      · cases hperform
        exact .inl hevent
      · split at hperform <;> cases hperform
        exact .inl hevent
  | extendRetention _ _ =>
      simp only [perform] at hperform
      split at hperform
      · split at hperform <;> cases hperform <;> exact .inl hevent
      · cases hperform
        exact .inl hevent
  | now | choose | get _ | transactGet _ _ | expiredPrepared _ | readyWorkflows _
  | changePage _ _ _ _ | environmentPage _ | accessPage _ _ _ | scanHeads _ | encrypt _
  | decrypt _ | auditWrite _ | dueEnrollments _ | truststoreRootPage _ | issueLeaf _ _ _
  | encryptIssuerKey | decryptIssuerKey _ | getDomainName | identityPage _ =>
      cases hperform
      exact .inl hevent

/-- An event of the environment expires a row, at most. -/
theorem happened_of_event {event : EnvironmentEvent} (hevent : event.apply s = some s')
    {noted : Event} (hnoted : s'.Happened noted) :
    s.Happened noted ∨ ∃ environment sk, noted = .expired environment sk := by
  cases event with
  | tick _ | replicate _ _ | replicateIdentity _ =>
      cases hevent
      exact .inl hnoted
  | expireChange environment sk =>
      simp only [EnvironmentEvent.apply] at hevent
      split at hevent <;> cases hevent
      exact (hnoted.of_append rfl).imp_right fun heq => ⟨environment, sk, heq⟩
  | expireCursor _ | expireCapability _ | foreign _ _ =>
      simp only [EnvironmentEvent.apply] at hevent
      split at hevent <;> cases hevent
      exact .inl hnoted

/-- Only its owner issues a token. -/
theorem issued_of_exec {q : Request} (hready : RequestReady pid s q) {choice : Choice}
    {answer : Response q} (hexec : exec pid q choice s = some (answer, s'))
    {token grantId : String} (hissued : s'.IssuedFor token grantId) :
    s.IssuedFor token grantId ∨ q.quiet = false ∧ s.Owns pid token := by
  obtain ⟨capability, hhappened, rfl, hgrant⟩ := hissued
  rcases happened_of_exec hexec hhappened with hold | hnew
  · exact .inl ⟨capability, hold, rfl, hgrant⟩
  · cases q with
    | writeNoted write note =>
        cases hnew
        cases hready with
        | issue howns => exact .inr ⟨rfl, howns⟩
    | transactWrite writes note =>
        cases hnew
        cases hready with
        | registry hregistry => cases hregistry
    | _ => cases hnew

/-- **What the others do is what a process relies on.** -/
theorem rely_of_interference (hinv : Invariant init s)
    (hstep : (discipline init).Interference pid s s') : Rely pid s s' := by
  refine ⟨interference_evolves hinv hstep, fun {token cursor} howns hcursor => ?_,
    fun {token grantId} howns hissued => ?_⟩
  · cases hstep with
    | request hne hpre hexec =>
        rcases cursor_of_exec hpre hexec hcursor with hsame | ⟨-, hother⟩
        · exact hsame
        · exact (hne (Option.some.inj (hother.symm.trans howns))).elim
    | start hregister =>
        subst hregister
        exact hcursor
    | environment hevent => exact cursor_of_event hevent hcursor
  · cases hstep with
    | request hne hpre hexec =>
        rcases issued_of_exec hpre hexec hissued with hsame | ⟨-, hother⟩
        · exact hsame
        · exact (hne (Option.some.inj (hother.symm.trans howns))).elim
    | start hregister =>
        subst hregister
        exact hissued
    | environment hevent =>
        obtain ⟨capability, hhappened, hrest⟩ := hissued
        rcases happened_of_event hevent hhappened with hold | ⟨_, _, hnew⟩
        · exact ⟨capability, hold, hrest⟩
        · cases hnew

theorem invariant_of_interference (hinv : Invariant init s)
    (hstep : (discipline init).Interference pid s s') : Invariant init s' := by
  cases hstep with
  | request hne hpre hexec => exact (kept_exec hinv hpre hexec).invariant
  | start hregister => exact hregister ▸ (quiet_register hinv _).invariant
  | environment hevent => exact (quiet_event hinv hevent).invariant

/-- A quiet request of the process itself is no worse. -/
theorem rely_of_quiet (hinv : Invariant init s) {q : Request} (hready : RequestReady pid s q)
    (hquiet : q.quiet = true) {choice : Choice} {answer : Response q}
    (hexec : exec pid q choice s = some (answer, s')) : Rely pid s s' := by
  refine ⟨⟨none, by simp, (kept_exec hinv hready hexec).quiet hquiet⟩, fun _ hcursor => ?_,
    fun _ hissued => ?_⟩
  · rcases cursor_of_exec hready hexec hcursor with hsame | ⟨hnot, -⟩
    · exact hsame
    · cases hquiet.symm.trans hnot
  · rcases issued_of_exec hready hexec hissued with hsame | ⟨hnot, -⟩
    · exact hsame
    · cases hquiet.symm.trans hnot

/-! ## Assertions that persist -/

/-- An assertion that survives everything a process relies on. -/
def Persists (init : Cloud) (pid : ℕ) (F : Cloud → Prop) : Prop :=
  ∀ s s', Invariant init s → Invariant init s' → Rely pid s s' → F s → F s'

/-- An assertion that survives every step, also a mutation of the process itself. -/
def Lasts (init : Cloud) (F : Cloud → Prop) : Prop :=
  ∀ s s' (actor : Option ℕ), Invariant init s → Invariant init s' → Evolves actor s s' →
    F s → F s'

theorem Lasts.persists {F : Cloud → Prop} (h : Lasts init F) : Persists init pid F := by
  intro s s' hinv hinv' hrely hF
  obtain ⟨actor, -, hevolves⟩ := hrely.evolves
  exact h s s' actor hinv hinv' hevolves hF

theorem Persists.stable {F : Cloud → Prop} (h : Persists init pid F) :
    (discipline init).Stable pid F :=
  fun s s' hinv hstep hF =>
    h s s' hinv (invariant_of_interference hinv hstep) (rely_of_interference hinv hstep) hF

theorem Persists.and {F G : Cloud → Prop} (hF : Persists init pid F) (hG : Persists init pid G) :
    Persists init pid fun s => F s ∧ G s :=
  fun s s' hinv hinv' hrely h => ⟨hF s s' hinv hinv' hrely h.1, hG s s' hinv hinv' hrely h.2⟩

theorem Persists.const (p : Prop) : Persists init pid fun _ => p :=
  fun _ _ _ _ _ h => h

theorem Persists.exists {ξ : Sort*} {F : ξ → Cloud → Prop} (h : ∀ x, Persists init pid (F x)) :
    Persists init pid fun s => ∃ x, F x s :=
  fun s s' hinv hinv' hrely ⟨x, hx⟩ => ⟨x, h x s s' hinv hinv' hrely hx⟩

theorem Persists.forall {ξ : Sort*} {F : ξ → Cloud → Prop} (h : ∀ x, Persists init pid (F x)) :
    Persists init pid fun s => ∀ x, F x s :=
  fun s s' hinv hinv' hrely hF x => h x s s' hinv hinv' hrely (hF x)

theorem Persists.imp {p : Prop} {F : Cloud → Prop} (h : Persists init pid F) :
    Persists init pid fun s => p → F s :=
  fun s s' hinv hinv' hrely hF hp => h s s' hinv hinv' hrely (hF hp)

theorem Lasts.and {F G : Cloud → Prop} (hF : Lasts init F) (hG : Lasts init G) :
    Lasts init fun s => F s ∧ G s :=
  fun s s' actor hinv hinv' hstep h => ⟨hF s s' actor hinv hinv' hstep h.1, hG s s' actor hinv hinv' hstep h.2⟩

theorem Lasts.const (p : Prop) : Lasts init fun _ => p :=
  fun _ _ _ _ _ _ h => h

theorem Lasts.exists {ξ : Sort*} {F : ξ → Cloud → Prop} (h : ∀ x, Lasts init (F x)) :
    Lasts init fun s => ∃ x, F x s :=
  fun s s' actor hinv hinv' hstep ⟨x, hx⟩ => ⟨x, h x s s' actor hinv hinv' hstep hx⟩

theorem Lasts.forall {ξ : Sort*} {F : ξ → Cloud → Prop} (h : ∀ x, Lasts init (F x)) :
    Lasts init fun s => ∀ x, F x s :=
  fun s s' actor hinv hinv' hstep hF x => h x s s' actor hinv hinv' hstep (hF x)

theorem Lasts.imp {p : Prop} {F : Cloud → Prop} (h : Lasts init F) : Lasts init fun s => p → F s :=
  fun s s' actor hinv hinv' hstep hF hp => h s s' actor hinv hinv' hstep (hF hp)

theorem Lasts.or {F G : Cloud → Prop} (hF : Lasts init F) (hG : Lasts init G) :
    Lasts init fun s => F s ∨ G s :=
  fun s s' actor hinv hinv' hstep => Or.imp (hF s s' actor hinv hinv' hstep) (hG s s' actor hinv hinv' hstep)

/-! ## Specifications -/

/-- The program keeps `F` in any case, and returns values with `R`. -/
abbrev Spec (init : Cloud) (issued : Request → Cloud → Prop) (pid : ℕ) {α : Type}
    (F : Cloud → Prop) (program : Service α) (R : α → Cloud → Prop) : Prop :=
  (discipline init).Safe issued pid F program (fun value s => F s ∧ R value s) fun _ s => F s

/-- The program may be run wherever `F` holds, and returns values with `R`; an error
promises nothing. -/
abbrev Runs (init : Cloud) (issued : Request → Cloud → Prop) (pid : ℕ) {α : Type}
    (F : Cloud → Prop) (program : Service α) (R : α → Cloud → Prop) : Prop :=
  (discipline init).Safe issued pid F program R fun _ _ => True

section Rules

variable {issued : Request → Cloud → Prop} {α β : Type} {F : Cloud → Prop}

theorem Spec.runs {program : Service α} {R : α → Cloud → Prop}
    (h : Spec init issued pid F program R) :
    Runs init issued pid F program fun value s => F s ∧ R value s :=
  h.weaken (fun _ _ h => h) (fun _ _ _ h => h) fun _ _ _ _ => trivial

theorem Spec.bind {program : Service α} {R : α → Cloud → Prop} {next : α → Service β}
    {R' : β → Cloud → Prop} (h : Spec init issued pid F program R)
    (hnext : ∀ value, Spec init issued pid (fun s => F s ∧ R value s) (next value) R') :
    Spec init issued pid F (program.bind next) R' :=
  Discipline.Safe.bind h fun value => (hnext value).weaken (fun _ _ h => h)
    (fun _ _ _ h => ⟨h.1.1, h.2⟩) fun _ _ _ h => h.1

/-- A step whose result is of no use. -/
theorem Spec.skip {program : Service α} {R : α → Cloud → Prop} {next : α → Service β}
    {R' : β → Cloud → Prop} (h : Spec init issued pid F program R)
    (hnext : ∀ value, Spec init issued pid F (next value) R') :
    Spec init issued pid F (program.bind next) R' :=
  Discipline.Safe.bind (h.weaken (fun _ _ h => h) (fun _ _ _ h => h.1) fun _ _ _ h => h) hnext

/-- A step whose result satisfies a fact that no store can change. -/
theorem Spec.bind_fact {program : Service α} {p : α → Prop} {next : α → Service β}
    {R' : β → Cloud → Prop} (h : Spec init issued pid F program fun value _ => p value)
    (hnext : ∀ value, p value → Spec init issued pid F (next value) R') :
    Spec init issued pid F (program.bind next) R' :=
  Discipline.Safe.bind h fun value => .of_fact (fun _ _ hs => hs.2) fun hfact =>
    Discipline.Safe.of_pre (hnext value hfact) fun _ _ hs => hs.1

/-- A mutation after a program that reads. -/
theorem Spec.bind_runs {program : Service α} {R : α → Cloud → Prop} {next : α → Service β}
    {R' : β → Cloud → Prop} (h : Spec init issued pid F program R)
    (hnext : ∀ value, Runs init issued pid (fun s => F s ∧ R value s) (next value) R') :
    Runs init issued pid F (program.bind next) R' :=
  Discipline.Safe.bind h.runs hnext

/-- The same, going on with what is needed of it. -/
theorem Spec.next {program : Service α} {R G : α → Cloud → Prop} {next : α → Service β}
    {R' : β → Cloud → Prop} (h : Spec init issued pid F program R)
    (hG : ∀ value s, Invariant init s → F s → R value s → G value s)
    (hnext : ∀ value, Runs init issued pid (G value) (next value) R') :
    Runs init issued pid F (program.bind next) R' :=
  h.bind_runs fun value => Discipline.Safe.of_pre (hnext value) fun s hinv hs =>
    hG value s hinv hs.1 hs.2

theorem Runs.raise {failure : Failure} {R : α → Cloud → Prop} :
    Runs init issued pid F (.raise failure) R :=
  fun _ _ _ => True.intro

/-- A mutation keeps what every step keeps. -/
theorem Runs.keep {G : Cloud → Prop} (hG : Lasts init G) {program : Service α}
    {R : α → Cloud → Prop} (h : Runs init issued pid (fun _ => True) program R) :
    Spec init issued pid G program R :=
  (Discipline.Safe.keep hG.persists.stable
    (fun hinv hready hexec hs => hG _ _ _ hinv (kept_exec hinv hready hexec).invariant
      (kept_exec hinv hready hexec).evolves hs) h).weaken
    (fun _ _ hs => ⟨trivial, hs⟩) (fun _ _ _ hs => ⟨hs.2, hs.1⟩) fun _ _ _ hs => hs.2

theorem Spec.post {program : Service α} {R R' : α → Cloud → Prop}
    (h : Spec init issued pid F program R)
    (hR : ∀ value s, Invariant init s → F s → R value s → R' value s) :
    Spec init issued pid F program R' :=
  Discipline.Safe.post h fun value s hinv hs => ⟨hs.1, hR value s hinv hs.1 hs.2⟩

/-- What is known implies something more. -/
theorem Spec.deduce {G : Cloud → Prop} {program : Service α} {R : α → Cloud → Prop}
    (hG : ∀ s, Invariant init s → F s → G s)
    (h : Spec init issued pid (fun s => F s ∧ G s) program R) :
    Spec init issued pid F program R :=
  h.weaken (fun s hinv hs => ⟨hs, hG s hinv hs⟩) (fun _ _ _ hs => ⟨hs.1.1, hs.2⟩)
    fun _ _ _ hs => hs.1

/-- Two ways to say what is kept. -/
theorem Spec.frame {G : Cloud → Prop} {program : Service α} {R : α → Cloud → Prop}
    (h : Spec init issued pid G program R) (hF : ∀ s, F s ↔ G s) :
    Spec init issued pid F program R :=
  h.weaken (fun s _ hs => (hF s).mp hs) (fun _ s _ hs => ⟨(hF s).mpr hs.1, hs.2⟩)
    fun _ s _ hs => (hF s).mpr hs

theorem Spec.ret {value : α} {R : α → Cloud → Prop} (h : ∀ s, Invariant init s → F s → R value s) :
    Spec init issued pid F (.ret value) R :=
  fun s hinv hF => ⟨hF, h s hinv hF⟩

theorem Spec.raise {failure : Failure} {R : α → Cloud → Prop} :
    Spec init issued pid F (.raise failure) R :=
  fun _ _ hF => hF

theorem Spec.ite {c : Prop} [Decidable c] {first second : Service α} {R : α → Cloud → Prop}
    (hfirst : c → Spec init issued pid F first R) (hsecond : ¬ c → Spec init issued pid F second R) :
    Spec init issued pid F (if c then first else second) R :=
  Discipline.Safe.ite hfirst hsecond

theorem Spec.forM {items : List α} {f : α → Service PUnit}
    (h : ∀ item ∈ items, Spec init issued pid F (f item) fun _ _ => True) :
    Spec init issued pid F (items.forM f) fun _ _ => True :=
  Discipline.Safe.post (Discipline.Safe.forM fun item hmem =>
    Discipline.Safe.post (h item hmem) fun _ _ _ hs => hs.1) fun _ _ _ hs => ⟨hs, trivial⟩

theorem Spec.requireSome {error : ApiError} (value : Option α) :
    Spec init issued pid F (requireSome error value) fun result _ => value = some result := by
  cases value with
  | none => exact .raise
  | some result => exact .ret fun _ _ _ => rfl

theorem Spec.assertOk {outcome : Except ApiError α} :
    Spec init issued pid F (assertOk outcome) fun result _ => outcome = .ok result := by
  cases outcome with
  | ok value => exact .ret fun _ _ _ => rfl
  | error error => exact .raise

/-! ### Requests -/

/-- What holds after a response. -/
def afterResponse {q : Request} (R : Answer q → Cloud → Prop) (E : Failure → Cloud → Prop) :
    Response q → Cloud → Prop
  | .ok answer => R answer
  | .error failure => E (.aws failure)

/-- A request, with what holds after an answer and after a failure. -/
theorem safe_send {q : Request} {R : Answer q → Cloud → Prop} {E : Failure → Cloud → Prop}
    (hstable : (discipline init).Stable pid F)
    (hready : ∀ s, Invariant init s → F s → RequestReady pid s q)
    (hok : ∀ s choice answer s', Invariant init s → Invariant init s' → F s → issued q s →
      exec pid q choice s = some (.ok answer, s') → R answer s')
    (herror : ∀ s choice failure s', Invariant init s → Invariant init s' → F s →
      exec pid q choice s = some (.error failure, s') → E (.aws failure) s') :
    (discipline init).Safe issued pid F (send q) R E := by
  refine Discipline.Safe.bind (R := afterResponse R E) ?_ fun response => ?_
  · refine Discipline.Safe.request hstable hready fun s choice response s' hinv hs hissued hexec => ?_
    have hinv' := (kept_exec hinv (hready s hinv hs) hexec).invariant
    cases response with
    | ok answer => exact hok s choice answer s' hinv hinv' hs hissued hexec
    | error failure => exact herror s choice failure s' hinv hinv' hs hexec
  · cases response with
    | ok answer => exact fun s _ hs => hs
    | error failure => exact fun s _ hs => hs

/-- Only a request without a fault is answered. -/
theorem perform_of_exec {q : Request} {choice : Choice} {answer : Answer q}
    (hexec : exec pid q choice s = some (.ok answer, s')) :
    perform pid choice s q = some (.ok answer, s') := by
  unfold exec at hexec
  split at hexec
  · exact hexec
  · split at hexec <;> cases hexec
  · split at hexec
    · cases hexec
    · obtain ⟨outcome, -, heq⟩ := Option.map_eq_some_iff.mp hexec
      cases heq

/-- What a request answers, and what then holds. -/
theorem Spec.send (hF : Persists init pid F) {q : Request} {R : Answer q → Cloud → Prop}
    (hquiet : q.quiet = true) (hready : ∀ s, Invariant init s → F s → RequestReady pid s q)
    (hok : ∀ s choice answer s', Invariant init s → Invariant init s' → F s → issued q s →
      perform pid choice s q = some (.ok answer, s') → R answer s') :
    Spec init issued pid F (send q) R := by
  have hkeep : ∀ s choice answer s', Invariant init s → Invariant init s' → F s →
      exec pid q choice s = some (answer, s') → F s' := fun s choice answer s' hinv hinv' hs hexec =>
    hF s s' hinv hinv' (rely_of_quiet hinv (hready s hinv hs) hquiet hexec) hs
  refine safe_send hF.stable hready (fun s choice answer s' hinv hinv' hs hissued hexec => ?_)
    fun s choice failure s' hinv hinv' hs hexec => hkeep s choice _ s' hinv hinv' hs hexec
  exact ⟨hkeep s choice _ s' hinv hinv' hs hexec,
    hok s choice answer s' hinv hinv' hs hissued (perform_of_exec hexec)⟩

/-- A request that needs nothing and promises nothing. -/
theorem Spec.send_any (hF : Persists init pid F) {q : Request} (hquiet : q.quiet = true)
    (hready : ∀ s, Invariant init s → F s → RequestReady pid s q) :
    Spec init issued pid F (Hemlig.send q) fun _ _ => True :=
  .send hF hquiet hready fun _ _ _ _ _ _ _ _ _ => True.intro

/-- The item under a key. -/
theorem Spec.get (hF : Persists init pid F) (key : Key) {R : Option (Item key) → Cloud → Prop}
    (h : ∀ s, Invariant init s → F s → R (s.table.get key) s) :
    Spec init issued pid F (Hemlig.send (.get key)) R := by
  refine .send hF rfl (fun _ _ _ => True.intro) fun s choice answer s' hinv _ hs _ hperform => ?_
  cases hperform
  exact h s hinv hs

/-! ### Harmless programs -/

/-- A request that may be sent at any time. -/
def Request.Harmless (q : Request) : Prop :=
  q.quiet = true ∧ ∀ pid s, RequestReady pid s q

/-- **A harmless program keeps everything that persists.** -/
theorem Spec.harmless (hF : Persists init pid F) {program : Service α}
    (h : program.Only Request.Harmless) : Spec init issued pid F program fun _ _ => True := by
  have hframe : (discipline init).Frame pid Request.Harmless F :=
    { stable := hF.stable
      pre := fun hq _ => hq.2 _ _
      own := fun hq hinv hexec hs => hF _ _ hinv (kept_exec hinv (hq.2 _ _) hexec).invariant
        (rely_of_quiet hinv (hq.2 _ _) hq.1 hexec) hs }
  exact (Discipline.Safe.only hframe h).weaken (fun _ _ h => h) (fun _ _ _ h => ⟨h, True.intro⟩)
    fun _ _ _ h => h

end Rules

end Hemlig
