import Hemlig.Verification.Steps

/-!
# Runs by their requests

The invariants of the earlier modules hold whatever the processes do.  What follows here
is for properties that hold only as long as no request of a certain kind is made: a run is
taken apart into its requests, each with the state it is issued in, and the table a request
leaves is that of its own writes.
-/

namespace Hemlig

open Concurrent Store DynamoRepository AgentSyncRepository

variable {init s s' : Cloud} {pid : ℕ} {q : Request}

/-! ## The table a request leaves -/

/-- What a request does to the table. -/
inductive TableStep (q : Request) (s s' : Cloud) : Prop
  | same (hsame : s'.table = s.table)
  | write (write : TableWrite) (hq : q = .write write) (hholds : write.holds s.table = true)
      (happly : s'.table = write.apply s.table)
  | noted (write : TableWrite) (note : Event) (hq : q = .writeNoted write note)
      (hholds : write.holds s.table = true) (happly : s'.table = write.apply s.table)
  | transact (writes : List TableWrite) (note : Option Event) (conflicts : List ℕ)
      (hq : q = .transactWrite writes note)
      (htransact : transact s.table conflicts writes = .ok s'.table)

theorem tableStep_perform {choice : Choice} {answer : Response q}
    (h : perform pid choice s q = some (answer, s')) : TableStep q s s' := by
  cases q with
  | write write =>
      simp only [perform] at h
      split at h
      · cases h
        exact .write write rfl ‹_› rfl
      · cases h
        exact .same rfl
  | writeNoted write note =>
      simp only [perform] at h
      split at h
      · cases h
        exact .noted write note rfl ‹_› rfl
      · cases h
        exact .same rfl
  | transactWrite writes note =>
      simp only [perform] at h
      split at h
      · cases h
        refine .transact writes note choice.conflicts rfl ?_
        cases note <;> assumption
      · cases h
        exact .same rfl
      · cases h
        exact .same rfl
  | newRoot =>
      obtain ⟨certificate, -, heq⟩ := Option.map_eq_some_iff.mp h
      cases heq
      exact .same rfl
  | newId _ | putObject _ _ | extendRetention _ _ | deleteObject _ | getObject _
  | getRetention _ | putBundle _ _ | getBundle _ | updateDomainName _ _ | provision _ _ _ =>
      simp only [perform] at h
      repeat' split at h
      all_goals cases h
      all_goals exact .same rfl
  | now | choose | get _ | transactGet _ _ | expiredPrepared _ | readyWorkflows _
  | changePage _ _ _ _ | environmentPage _ | accessPage _ _ _ | scanHeads _ | encrypt _
  | decrypt _ | auditWrite _ | reconcileTruststore | dueEnrollments _ | truststoreRootPage _
  | issueLeaf _ _ _ | encryptIssuerKey | decryptIssuerKey _ | getDomainName | identityPage _ =>
      cases h
      exact .same rfl

theorem tableStep_exec {choice : Choice} {answer : Response q}
    (h : exec pid q choice s = some (answer, s')) : TableStep q s s' := by
  unfold exec at h
  split at h
  · exact tableStep_perform h
  · split at h <;> cases h
    exact .same rfl
  · split at h
    · cases h
    · obtain ⟨⟨other, after⟩, hperform, heq⟩ := Option.map_eq_some_iff.mp h
      cases heq
      exact tableStep_perform hperform

/-- The heads, rows, names and access records are those of before. -/
def SameSecrets (s s' : Cloud) : Prop :=
  ∀ key : Key, key.ofSecret = true → s'.table.get key = s.table.get key

theorem sameSecrets_event {event : EnvironmentEvent} (h : event.apply s = some s') :
    SameSecrets s s' := by
  intro key hkey
  cases event with
  | tick elapsed =>
      cases h
      rfl
  | replicate _ _ | replicateIdentity _ =>
      cases h
      rfl
  | expireChange environment sk =>
      simp only [EnvironmentEvent.apply] at h
      split at h <;> cases h
      exact Table.get_set_of_ne _ _ (by rintro rfl; cases hkey)
  | expireCursor _ | expireCapability _ =>
      simp only [EnvironmentEvent.apply] at h
      split at h <;> cases h
      exact Table.get_set_of_ne _ _ (by rintro rfl; cases hkey)
  | foreign other item =>
      simp only [EnvironmentEvent.apply] at h
      split at h <;> cases h
      refine Table.get_set_of_ne _ _ ?_
      rintro rfl
      cases key <;> simp_all [Key.foreign, Key.ofSecret]

/-- The registry is that of before, but for its capabilities. -/
def SameRegistry (s s' : Cloud) : Prop :=
  ∃ capabilities, s'.registry = { s.registry with capabilities := capabilities }

theorem SameRegistry.of_eq (h : s'.registry = s.registry) : SameRegistry s s' :=
  ⟨s.registry.capabilities, h⟩

theorem sameRegistry_event {event : EnvironmentEvent} (h : event.apply s = some s') :
    SameRegistry s s' := by
  cases event with
  | tick _ | replicate _ _ | replicateIdentity _ =>
      cases h
      exact .of_eq rfl
  | expireChange _ _ | expireCursor _ =>
      simp only [EnvironmentEvent.apply] at h
      split at h <;> cases h
      exact .of_eq (Registry.ofTable_set_other _ _ rfl)
  | expireCapability tokenHash =>
      simp only [EnvironmentEvent.apply] at h
      split at h <;> cases h
      exact ⟨_, Registry.ofTable_set_bootstrap _ _ _⟩
  | foreign key item =>
      simp only [EnvironmentEvent.apply] at h
      split at h <;> cases h
      rename_i hforeign
      refine .of_eq (Registry.ofTable_set_other _ _ ?_)
      cases key <;> simp_all [Key.foreign, Key.ofRegistry]

/-! ## Runs -/

/-- One request of a run. -/
structure Requested (init : Cloud) (pid : ℕ) (q : Request) (s s' : Cloud) : Prop where
  before : Invariant init s
  ready : RequestReady pid s q
  kept : Kept init pid q s s'
  table : TableStep q s s'

/-- A step that is not a request. -/
structure Unasked (init s s' : Cloud) : Prop where
  before : Invariant init s
  quiet : Quiet init s s'
  same : SameSecrets s s'
  registry : SameRegistry s s'

/-- The requests that a run makes, whoever makes them. -/
def IssuedIn (init : Cloud) (actions : List ServiceAction) (q : Request) (s : Cloud) : Prop :=
  ∃ pid, Discipline.Issued service (World.initial init) actions pid q s

theorem IssuedIn.append {actions : List ServiceAction} {s : Cloud} (h : IssuedIn init actions q s)
    (later : List ServiceAction) : IssuedIn init (actions ++ later) q s := by
  obtain ⟨pid, before, choice, w, input, next, hbefore, hrest⟩ := h
  exact ⟨pid, before, choice, w, input, next, hbefore.trans (List.prefix_append _ _), hrest⟩

/-- **What every request of a run keeps, the rest of the run keeps**, if each is made where a
condition holds. -/
theorem run_keeps_requests_from (hinit : Initial init) {w w' : ServiceWorld}
    {actions later : List ServiceAction} (hrun : service.run (World.initial init) actions = some w)
    (hlater : service.run w later = some w') {P : Cloud → Prop} {C : Request → Cloud → Prop}
    (hissued : ∀ q s, IssuedIn init (actions ++ later) q s → C q s)
    (hunasked : ∀ s s', Unasked init s s' → P s → P s')
    (hrequest : ∀ pid q s s', Requested init pid q s s' → C q s → P s → P s')
    (hstart : P w.store) : P w'.store := by
  refine service.run_induction (fun _ w => P w.store) hlater hstart ?_
  intro before action middle next hbefore hmiddle hact hP
  have hrun' : service.run (World.initial init) (actions ++ before) = some middle := by
    rw [service.run_append, hrun]
    exact hmiddle
  have hinv := invariant_of_run hinit hrun'
  rcases service.act_cases hact with ⟨pid, input, rfl, -, rfl⟩ |
    ⟨pid, choice, input, q, continuation, answer, after, rfl, hproc, hexec, rfl⟩ |
    ⟨event, after, rfl, hevent, rfl⟩
  · exact hunasked _ _ ⟨hinv, quiet_register hinv input, fun _ _ => rfl, .of_eq rfl⟩ hP
  · have hready := ready_of_run hinit hrun' hproc
    refine hrequest pid q _ _ ⟨hinv, hready, kept_exec hinv hready hexec, tableStep_exec hexec⟩ ?_ hP
    refine hissued q _ ⟨pid, actions ++ before, choice, middle, input, continuation, ?_, hrun', rfl,
      hproc⟩
    rw [List.append_assoc]
    exact (List.prefix_append_right_inj actions).mpr hbefore
  · exact hunasked _ _ ⟨hinv, quiet_event hinv hevent, sameSecrets_event hevent,
      sameRegistry_event hevent⟩ hP

/-- What every request of a run keeps, the run keeps. -/
theorem run_keeps_requests (hinit : Initial init) {w : ServiceWorld} {actions : List ServiceAction}
    (hrun : service.run (World.initial init) actions = some w) {P : Cloud → Prop}
    {C : Request → Cloud → Prop} (hissued : ∀ q s, IssuedIn init actions q s → C q s)
    (hunasked : ∀ s s', Unasked init s s' → P s → P s')
    (hrequest : ∀ pid q s s', Requested init pid q s s' → C q s → P s → P s')
    (hstart : P init) : P w.store :=
  @run_keeps_requests_from init hinit _ _ [] _ rfl hrun _ _ hissued hunasked hrequest hstart

/-! ## Testing the requests of a run -/

/-- The request that an action makes passes a test. -/
def asked (check : Request → Cloud → Bool) (w : ServiceWorld) : ServiceAction → Bool
  | .step pid _ =>
      match w.procs pid with
      | some (_, .call q _) => check q w.store
      | _ => true
  | _ => true

/-- Every request that a list of actions makes passes a test. -/
def everyRequest (check : Request → Cloud → Bool) (w : ServiceWorld) : List ServiceAction → Bool
  | [] => true
  | action :: rest => asked check w action && (service.act w action).all (everyRequest check · rest)

theorem asked_of_everyRequest {check : Request → Cloud → Bool} {before : List ServiceAction}
    {action : ServiceAction} : ∀ {w w' : ServiceWorld} {actions : List ServiceAction},
      everyRequest check w actions = true → before ++ [action] <+: actions →
        service.run w before = some w' → asked check w' action = true := by
  induction before with
  | nil =>
      rintro w w' actions hevery ⟨later, rfl⟩ hrun
      cases hrun
      exact (Bool.and_eq_true_iff.mp hevery).1
  | cons first rest ih =>
      rintro w w' actions hevery ⟨later, rfl⟩ hrun
      obtain ⟨next, hact, hrest⟩ := Option.bind_eq_some_iff.mp hrun
      have hevery' := (Bool.and_eq_true_iff.mp hevery).2
      rw [hact] at hevery'
      exact ih hevery' ⟨later, rfl⟩ hrest

theorem of_everyRequest {check : Request → Cloud → Bool} {actions : List ServiceAction}
    (h : everyRequest check (World.initial init) actions = true) (hissued : IssuedIn init actions q s) :
    check q s = true := by
  obtain ⟨pid, before, choice, w, input, next, hbefore, hrun, rfl, hproc⟩ := hissued
  have hasked := asked_of_everyRequest h hbefore hrun
  simpa [asked, hproc] using hasked

/-! ## Prepared rows -/

/-- **What becomes of a prepared row.**  It stays, unless it is marked or the secret is
committed. -/
theorem Requested.prepared_row (h : Requested init pid q s s') {u : String} {sk : WorkflowSk}
    {row : StoredWorkflow} (hrow : s.workflow u sk = some row)
    (hprepared : row.workflowState = .prepared) :
    s'.workflow u sk = some row ∨ q = .write (markRetryableWrite u sk) ∨
      ∃ head', s'.head u = some head' ∧ head'.Committed ∧ head'.leaseOwner = none := by
  obtain ⟨-, hready, -, htable⟩ := h
  cases htable with
  | same hsame =>
      refine .inl ?_
      show s'.table.get _ = _
      rw [hsame]
      exact hrow
  | write write hq hholds happly =>
      subst hq
      by_cases hkey : Key.workflow u sk = write.key
      · cases hready with
        | @retryable u' sk' =>
            cases hkey
            exact .inr (.inl rfl)
        | @deleted u' sk' =>
            cases hkey
            obtain ⟨other, hother, hcondition⟩ := Write.holds_update.mp hholds
            obtain rfl := Option.some.inj (hrow.symm.trans hother)
            simp [hprepared] at hcondition
        | release => cases hkey
        | enable => cases hkey
        | cursor => cases hkey
        | registry hregistry =>
            have hof := hregistry.ofRegistration
            rw [← hkey] at hof
            cases hof
      · refine .inl ?_
        show s'.table.get _ = _
        rw [happly, write.get_apply_of_ne _ hkey]
        exact hrow
  | noted write note hq hholds happly =>
      subst hq
      have hof := hready.ofRegistration
      have hkey : Key.workflow u sk ≠ write.key := by
        rintro hkey
        rw [← hkey] at hof
        cases hof
      refine .inl ?_
      show s'.table.get _ = _
      rw [happly, write.get_apply_of_ne _ hkey]
      exact hrow
  | transact writes note conflicts hq htransact =>
      subst hq
      have hother : Key.workflow u sk ∉ writes.map Write.key → s'.workflow u sk = some row :=
        fun hkey => (get_of_not_mem htransact hkey).trans hrow
      cases hready with
      | prepare hprepare =>
          exact .inl ((preparation_of_transact htransact hprepare).row_forward hrow)
      | commit hcommit hpublish hnotifications hsize =>
          have heffect : Commitment s _ _ _ none := commitment_of_transact htransact
          cases heffect.rows u sk with
          | same hsame => exact .inl (hsame.trans hrow)
          | ready other object hu =>
              subst hu
              obtain ⟨head, -, -, hafter⟩ := heffect.head
              exact .inr (.inr ⟨_, hafter, rfl, rfl⟩)
          | candidate other due hu hbefore hready =>
              obtain rfl := Option.some.inj (hrow.symm.trans hbefore)
              cases hprepared.symm.trans hready
      | backfill =>
          refine .inl ((get_of_publication htransact rfl fun write hwrite => ?_).trans hrow)
          simp only [resequence, List.mem_singleton] at hwrite
          subst hwrite
          simp
      | createEnvironment =>
          exact .inl (hother (by simp [createEnvironmentWrites, countWrite, AgentSyncRepository.emptyState]))
      | emptyState => exact .inl (hother (by simp [AgentSyncRepository.emptyState]))
      | abort => exact .inl (hother (by simp [abortPreparedCreateWrites]))
      | registry hregistry =>
          refine .inl (hother fun hmem => ?_)
          obtain ⟨write, hwrite, hkey⟩ := List.mem_map.mp hmem
          have hof := hregistry.ofRegistration write hwrite
          rw [hkey] at hof
          cases hof

end Hemlig
