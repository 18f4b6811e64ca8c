import Hemlig.Properties.CrashSafety

/-!
# Names and archives

A live secret has its name, and an archived one stays archived, as long as no update leases
an archived head.  A commit on an archived head would then have to be that of another
archive, and an archive releases a name that the head does not have.
-/

namespace Hemlig

open Concurrent Store DynamoRepository

variable {init s s' : Cloud} {pid : ℕ} {q : Request}

namespace Cloud

variable (s : Cloud)

/-- **The names are a bijection over the live secrets**: a name leads to a secret if and only
if that is the only live one of the name. -/
def NamesBijective : Prop :=
  ∀ environment secretId u,
    (∃ lookup, s.lookup environment secretId = some lookup ∧ lookup.secretUid = u) ↔
      ∃ head, s.head u = some head ∧ head.environment = environment ∧ head.secretId = secretId ∧
        head.state ≠ .archived ∧ ∀ other head', s.head other = some head' →
          head'.environment = environment → head'.secretId = secretId → head'.state ≠ .archived →
            other = u

/-- **An archived secret stays archived**, and in the catalog partition where it is. -/
def StaysArchived (s' : Cloud) : Prop :=
  ∀ u head, s.head u = some head → head.state = .archived →
    ∃ head', s'.head u = some head' ∧ head'.state = .archived ∧ head'.catalogPk = head.catalogPk

/-- The request gives no update the lease of an archived head. -/
def LeavesArchived (q : Request) : Prop :=
  ∀ mutation now head, q = .transactWrite (prepareWrites mutation now) (some (.prepared mutation)) →
    mutation.archive = false → s.head mutation.secretUid = some head →
      mutation.expectedControlVersionId = some head.controlVersionId → head.leasable now = true →
        head.state ≠ .archived

/-! ## The invariant -/

/-- Every live secret has its name, and only an archive has the lease of an archived one. -/
structure LiveNamed : Prop where
  live : ∀ u head, s.head u = some head → head.state ≠ .archived →
    ∃ lookup, s.lookup head.environment head.secretId = some lookup ∧ lookup.secretUid = u
  lease : ∀ u head operationId, s.head u = some head → head.state = .archived →
    head.leaseOwner = some operationId →
      ∃ mutation, s.Prepared mutation ∧ mutation.operationId = operationId ∧ mutation.archive = true

variable {s}

theorem LiveNamed.bijective (h : s.LiveNamed) (hinv : NamesInv s) : s.NamesBijective := by
  intro environment secretId u
  constructor
  · rintro ⟨lookup, hlookup, rfl⟩
    obtain ⟨head, hhead, henvironment, hsecretId, hlive⟩ := hinv.lookup hlookup
    refine ⟨head, hhead, henvironment, hsecretId, hlive, ?_⟩
    intro other head' hhead' henvironment' hsecretId' hlive'
    obtain ⟨lookup', hlookup', rfl⟩ := h.live other head' hhead' hlive'
    rw [henvironment', hsecretId'] at hlookup'
    rw [Option.some.inj (hlookup.symm.trans hlookup')]
  · rintro ⟨head, hhead, rfl, rfl, hlive, -⟩
    exact h.live u head hhead hlive

theorem LiveNamed.of_same (h : s.LiveNamed) (hhead : ∀ u, s'.head u = s.head u)
    (hlookup : ∀ environment secretId, s'.lookup environment secretId = s.lookup environment secretId)
    (hhistory : s.history <+: s'.history) : s'.LiveNamed where
  live u head hhead' hlive := by
    rw [hlookup]
    exact h.live u head ((hhead u).symm.trans hhead') hlive
  lease u head operationId hhead' harchived howner := by
    obtain ⟨mutation, hprepared, hrest⟩ :=
      h.lease u head operationId ((hhead u).symm.trans hhead') harchived howner
    exact ⟨mutation, hprepared.mono hhistory, hrest⟩

end Cloud

/-- A head that is created is live. -/
theorem live_of_uncommitted (hinv : HeadsInv s) {u : String} {head : HeadRecord}
    (hhead : s.head u = some head) (hnot : ¬ head.Committed) : head.state ≠ .archived := by
  obtain ⟨mutation, -, -, hcreates, -, rfl | rfl⟩ := hinv.creating hhead hnot
  · exact hcreates.state
  · exact hcreates.state

/-! ## Commits -/

namespace Committing

variable {completed : CompletedMutation} {sequence : ℕ} {extendedAt : Option Time}
  {head : HeadRecord} (h : Committing init s s' completed sequence extendedAt pid head)
include h

/-- **No mutation commits on an archived head.** -/
theorem live_before (hs : s.LiveNamed) : head.state ≠ .archived := by
  intro harchived
  obtain ⟨mutation, hprepared, hid, harchive⟩ := hs.lease _ _ _ h.before harchived h.owner
  obtain rfl := h.invariant.history.operation hprepared h.ready.prepared hid
  obtain ⟨lookup, hlookup, huid⟩ := h.effect.named harchive
  obtain ⟨other, hother, -, -, hlive⟩ := h.invariant.names.lookup hlookup
  rw [huid] at hother
  obtain rfl := Option.some.inj (h.before.symm.trans hother)
  exact hlive harchived

/-- An archive leaves its head archived. -/
theorem archived_after (harchive : completed.prepared.archive = true) :
    completed.prepared.control.state = .archived := by
  cases h.predecessor with
  | created hhead hcreates => cases hcreates.archive.symm.trans harchive
  | updated prior control hcommitted hcontent hprior hdescribes hready =>
      exact (hready.updates.archive harchive).1

/-- The names of the secrets that stay live stay. -/
theorem lookup_other (hs : s.LiveNamed) {u : String} {head' : HeadRecord}
    (hu : u ≠ completed.prepared.secretUid) (hhead' : s.head u = some head')
    (hlive : head'.state ≠ .archived) : ∃ lookup,
      s'.lookup head'.environment head'.secretId = some lookup ∧ lookup.secretUid = u := by
  obtain ⟨lookup, hlookup, rfl⟩ := hs.live u head' hhead' hlive
  rcases h.effect.lookups head'.environment head'.secretId with hsame | ⟨-, -, other, hother, huid⟩
  · exact ⟨lookup, hsame.trans hlookup, rfl⟩
  · obtain rfl := Option.some.inj (hlookup.symm.trans hother)
    exact (hu huid).elim

theorem liveNamed (hs : s.LiveNamed) : s'.LiveNamed where
  live u head' hhead' hlive := by
    rcases h.head_backward hhead' with ⟨rfl, rfl⟩ | ⟨hu, hhead⟩
    · obtain ⟨lookup, hlookup, huid⟩ := hs.live _ head h.before (h.live_before hs)
      rcases h.effect.lookups head.environment head.secretId with hsame | ⟨harchive, -⟩
      · exact ⟨lookup, hsame.trans hlookup, huid⟩
      · exact (hlive (h.archived_after harchive)).elim
    · exact h.lookup_other hs hu hhead hlive
  lease u head' operationId hhead' harchived howner := by
    rcases h.head_backward hhead' with ⟨rfl, rfl⟩ | ⟨hu, hhead⟩
    · cases howner
    · obtain ⟨mutation, hprepared, hrest⟩ := hs.lease u head' operationId hhead harchived howner
      exact ⟨mutation, hprepared.mono h.effect.history_extends, hrest⟩

theorem staysArchived (hs : s.LiveNamed) : s.StaysArchived s' := by
  intro u head' hhead' harchived
  by_cases hu : u = completed.prepared.secretUid
  · subst hu
    obtain rfl := Option.some.inj (h.before.symm.trans hhead')
    exact (h.live_before hs harchived).elim
  · exact ⟨head', (h.effect.heads u hu).trans hhead', harchived, rfl⟩

end Committing

/-! ## Preparations -/

/-- An update is prepared on an archived head only where it may lease it. -/
theorem Requested.archive_of_leased (h : Requested init pid q s s') (hleaves : s.LeavesArchived q)
    {mutation : PreparedMutation} {now : Time} {head : HeadRecord}
    (hq : q = .transactWrite (prepareWrites mutation now) (some (.prepared mutation)))
    (hhead : s.head mutation.secretUid = some head) (harchived : head.state = .archived)
    (hexpected : mutation.expectedControlVersionId = some head.controlVersionId)
    (hchanged : s'.table ≠ s.table) : mutation.archive = true := by
  by_contra hnot
  have hwrite : .update (.head mutation.secretUid)
      (fun head' => head'.controlVersionId = head.controlVersionId ∧ head'.leasable now)
      (leasedHead mutation) ∈ prepareWrites mutation now := by
    simp [prepareWrites, acquireWrites, hexpected]
  cases h.table with
  | same hsame => exact hchanged hsame
  | write write hq' => cases hq.symm.trans hq'
  | noted write note hq' => cases hq.symm.trans hq'
  | transact writes note conflicts hq' htransact =>
      obtain ⟨rfl, -⟩ := Request.transactWrite.inj (hq.symm.trans hq')
      obtain ⟨other, hother, hcondition, -⟩ := get_of_update htransact hwrite
      obtain rfl := Option.some.inj (hhead.symm.trans hother)
      have hleasable : head.leasable now = true := by simpa using hcondition
      exact hleaves mutation now head hq (by simpa using hnot) hhead hexpected hleasable harchived

theorem Preparation.liveNamed {mutation : PreparedMutation} (h : Preparation s s' mutation)
    (hs : s.LiveNamed) (harchive : ∀ head, s.head mutation.secretUid = some head →
      head.state = .archived → mutation.expectedControlVersionId = some head.controlVersionId →
        mutation.archive = true) : s'.LiveNamed where
  live u head' hhead' hlive := by
    have hkept : ∀ {environment secretId lookup}, s.lookup environment secretId = some lookup →
        s'.lookup environment secretId = some lookup := by
      intro environment secretId lookup hlookup
      rcases h.lookups environment secretId with hsame | ⟨-, hnone, -⟩
      · exact hsame.trans hlookup
      · cases hnone.symm.trans hlookup
    rcases h.head_backward hhead' with ⟨head, hhead, rfl | ⟨rfl, rfl, -, -⟩⟩ | ⟨rfl, -, rfl, hcreates⟩
    · obtain ⟨lookup, hlookup, huid⟩ := hs.live u _ hhead hlive
      exact ⟨lookup, hkept hlookup, huid⟩
    · obtain ⟨lookup, hlookup, huid⟩ := hs.live _ head hhead hlive
      exact ⟨lookup, hkept hlookup, huid⟩
    · exact h.lookup hcreates
  lease u head' operationId hhead' harchived howner := by
    rcases h.head_backward hhead' with
      ⟨head, hhead, rfl | ⟨rfl, rfl, -, hexpected⟩⟩ | ⟨rfl, -, rfl, hcreates⟩
    · obtain ⟨other, hprepared, hrest⟩ := hs.lease u _ operationId hhead harchived howner
      exact ⟨other, hprepared.mono h.history_extends, hrest⟩
    · exact ⟨mutation, h.prepared, Option.some.inj howner, harchive head hhead harchived hexpected⟩
    · exact (hcreates.state harchived).elim

theorem Preparation.staysArchived {mutation : PreparedMutation} (h : Preparation s s' mutation) :
    s.StaysArchived s' := by
  intro u head hhead harchived
  by_cases hu : u = mutation.secretUid
  · subst hu
    rcases h.acquired with ⟨hnone, -, -⟩ | ⟨other, hbefore, hafter, -, -⟩
    · cases hnone.symm.trans hhead
    · obtain rfl := Option.some.inj (hhead.symm.trans hbefore)
      exact ⟨_, hafter, harchived, rfl⟩
  · exact ⟨head, (h.heads u hu).trans hhead, harchived, rfl⟩

/-! ## Steps -/

theorem Gentle.liveNamed (h : Gentle s s') (hs : s.LiveNamed) : s'.LiveNamed where
  live u head' hhead' hlive := by
    obtain ⟨head, hhead, hcontent⟩ := h.heads.backward hhead'
    rw [HeadRecord.state_of_content hcontent] at hlive
    rw [h.lookup, HeadRecord.environment_of_content hcontent, HeadRecord.secretId_of_content hcontent]
    exact hs.live u head hhead hlive
  lease u head' operationId hhead' harchived howner := by
    obtain ⟨head, hhead, hcontent⟩ := h.heads.backward hhead'
    rw [HeadRecord.state_of_content hcontent] at harchived
    obtain ⟨mutation, hprepared, hrest⟩ :=
      hs.lease u head operationId hhead harchived (h.lease hhead hhead' howner)
    exact ⟨mutation, hprepared.mono h.history.history, hrest⟩

theorem HeadsKept.staysArchived (h : HeadsKept s s') : s.StaysArchived s' := by
  intro u head hhead harchived
  obtain ⟨head', hhead', hcontent⟩ := h.forward hhead
  exact ⟨head', hhead', (HeadRecord.state_of_content hcontent).trans harchived,
    congrArg (·.catalogPk) (show head'.content = head.content from hcontent)⟩

theorem Undone.liveNamed {u : String} {head : HeadRecord} (h : Undone s s' u head)
    (hinv : Invariant init s) (hs : s.LiveNamed) : s'.LiveNamed where
  live u' head' hhead' hlive := by
    obtain ⟨hu, hhead⟩ := h.head_backward hhead'
    obtain ⟨lookup, hlookup, rfl⟩ := hs.live u' head' hhead hlive
    exact ⟨lookup, h.lookup_forward hinv.names hlookup hu, rfl⟩
  lease u' head' operationId hhead' harchived howner := by
    obtain ⟨-, hhead⟩ := h.head_backward hhead'
    obtain ⟨mutation, hprepared, hrest⟩ := hs.lease u' head' operationId hhead harchived howner
    exact ⟨mutation, hprepared.mono h.historyKept.history, hrest⟩

theorem Undone.staysArchived {u : String} {head : HeadRecord} (h : Undone s s' u head)
    (hinv : Invariant init s) : s.StaysArchived s' := by
  intro u' head' hhead harchived
  by_cases hu : u' = u
  · subst hu
    obtain rfl := Option.some.inj (h.before.symm.trans hhead)
    exact (live_of_uncommitted hinv.heads hhead h.uncommitted harchived).elim
  · exact ⟨head', (h.heads u' hu).trans hhead, harchived, rfl⟩

theorem Requested.liveNamed (h : Requested init pid q s s') (hleaves : s.LeavesArchived q)
    (hs : s.LiveNamed) : s'.LiveNamed := by
  by_cases hsame : s'.table = s.table
  · exact hs.of_same (fun u => congrArg (·.get (.head u)) hsame)
      (fun environment secretId => congrArg (·.get (.lookup environment secretId)) hsame)
      h.kept.evolves.history
  · cases h.kept.transition with
    | gentle hgentle => exact hgentle.liveNamed hs
    | undone hq hundone => exact hundone.liveNamed h.before hs
    | prepared hq hready hpreparation =>
        exact hpreparation.liveNamed hs fun head hhead harchived hexpected =>
          h.archive_of_leased hleaves hq hhead harchived hexpected hsame
    | committed hq hcommitting => exact hcommitting.liveNamed hs

theorem Requested.staysArchived (h : Requested init pid q s s') (hs : s.LiveNamed) :
    s.StaysArchived s' := by
  cases h.kept.transition with
  | gentle hgentle => exact hgentle.heads.staysArchived
  | undone hq hundone => exact hundone.staysArchived h.before
  | prepared hq hready hpreparation => exact hpreparation.staysArchived
  | committed hq hcommitting => exact hcommitting.staysArchived hs

theorem Cloud.StaysArchived.trans {s'' : Cloud} (h : s.StaysArchived s') (h' : s'.StaysArchived s'') :
    s.StaysArchived s'' := by
  intro u head hhead harchived
  obtain ⟨head', hhead', harchived', hcatalog⟩ := h u head hhead harchived
  obtain ⟨head'', hhead'', harchived'', hcatalog'⟩ := h' u head' hhead' harchived'
  exact ⟨head'', hhead'', harchived'', hcatalog'.trans hcatalog⟩

theorem Initial.liveNamed (h : Initial s) : s.LiveNamed where
  live u head hhead hlive := h.live hhead hlive
  lease u head operationId hhead harchived howner := by
    rw [(h.head hhead).2.2.2.1] at howner
    cases howner

/-- **When names are a bijection and archives final.**  In every run in which no request gives
an update the lease of an archived head, the names are a bijection over the live secrets, and
what is archived stays so. -/
theorem archive_final (hinit : Initial init) {w w' : ServiceWorld}
    {actions later : List ServiceAction} (hrun : service.run (World.initial init) actions = some w)
    (hlater : service.run w later = some w')
    (hleaves : ∀ q s, IssuedIn init (actions ++ later) q s → s.LeavesArchived q) :
    w'.store.NamesBijective ∧ w.store.StaysArchived w'.store := by
  have hnamed : w.store.LiveNamed := by
    refine run_keeps_requests hinit hrun (fun q s hissued => hleaves q s (hissued.append later))
      (fun _ _ hunasked hs => hunasked.quiet.gentle.liveNamed hs)
      (fun _ _ _ _ hrequest => hrequest.liveNamed) hinit.liveNamed
  have hkept : w'.store.LiveNamed ∧ w.store.StaysArchived w'.store := by
    refine run_keeps_requests_from hinit hrun hlater hleaves
      (P := fun s => s.LiveNamed ∧ w.store.StaysArchived s) ?_ ?_ ⟨hnamed, ?_⟩
    · rintro s s' hunasked ⟨hs, hstays⟩
      exact ⟨hunasked.quiet.gentle.liveNamed hs,
        hstays.trans hunasked.quiet.gentle.heads.staysArchived⟩
    · rintro pid q s s' hrequest hq ⟨hs, hstays⟩
      exact ⟨hrequest.liveNamed hq hs, hstays.trans (hrequest.staysArchived hs)⟩
    · exact fun u head hhead harchived => ⟨head, hhead, harchived, rfl⟩
  have hrun' : service.run (World.initial init) (actions ++ later) = some w' := by
    rw [service.run_append, hrun]
    exact hlater
  exact ⟨hkept.1.bijective (invariant_of_run hinit hrun').names, hkept.2⟩

/-! ## An archive that is undone -/

namespace Sample

/-- A process archives `api-key`. -/
def archiving (pid : ℕ) (ifMatch tag idempotencyKey : String) : List ServiceAction :=
  .start pid (.archive ⟨"api-key", "prod", ifMatch, admin, idempotencyKey⟩) :: steps pid
    [plain, plain, plain, fresh tag, plain, plain, fresh ("op-" ++ tag), plain, plain, plain,
      fresh ("v-" ++ tag), plain, plain, plain, plain, plain, plain, plain]

/-- The agent was registered with its grant. -/
def agentRegistered : Cloud := registered [] (some agent)

/-- A secret of the agent is archived. -/
def archival : List ServiceAction :=
  founding ++ creating 1 "a" "k1" ++ archiving 2 "ctl-a" "b" "k2"

/-- The agent writes a payload to the secret it was granted. -/
def revival : List ServiceAction :=
  .start 3 (.agentUpdate ⟨"agent", "prod", "api-key", some "ctl-b", none, some [],
      ⟨.consumer, "agent"⟩, "k3"⟩) ::
    steps 3 [plain, plain, plain, plain, plain, fresh "c", plain, fresh "c", plain, fresh "op-c",
      plain, plain, plain, fresh "v-c", fresh "w-c", plain, plain, plain, plain, plain, plain]

/-- A request prepares no update of an archived secret. -/
def sparesArchived (q : Request) (s : Cloud) : Bool :=
  match q with
  | .transactWrite _ (some (.prepared mutation)) =>
      mutation.archive || (s.head mutation.secretUid).all fun head => head.state ≠ .archived
  | _ => true

/-- The secret is archived; the write of the agent revives it; a create takes its name. -/
theorem archival_checked :
    (service.run (World.initial agentRegistered) archival).any (fun w => decide
      ((w.store.head "sec-a").map HeadRecord.state = some .archived)) = true ∧
    (service.run (World.initial agentRegistered) (archival ++ revival)).any (fun w => decide
      ((w.store.head "sec-a").map HeadRecord.state = some .active)) = true ∧
    (service.run (World.initial agentRegistered) (archival ++ creating 3 "c" "k3")).any (fun w =>
      decide ((w.store.lookup "prod" "api-key").map SecretLookup.secretUid = some "sec-c")) = true ∧
    everyRequest sparesArchived (World.initial agentRegistered)
      (archival ++ creating 3 "c" "k3") = true := by
  decide +kernel

theorem archival_runs : (service.run (World.initial agentRegistered) archival).isSome = true :=
  Option.isSome_of_any archival_checked.1

theorem revival_runs :
    (service.run (World.initial agentRegistered) (archival ++ revival)).isSome = true :=
  Option.isSome_of_any archival_checked.2.1

theorem reuse_runs : (service.run (World.initial agentRegistered)
    (archival ++ creating 3 "c" "k3")).isSome = true :=
  Option.isSome_of_any archival_checked.2.2.1

theorem leavesArchived_of_spares (h : sparesArchived q s = true) : s.LeavesArchived q := by
  rintro mutation now head rfl harchive hhead - -
  simpa [sparesArchived, harchive, hhead] using h

end Sample

theorem archive_final_reused :
    (reached Sample.agentRegistered _ Sample.reuse_runs).store.NamesBijective ∧
      (reached Sample.agentRegistered _ Sample.archival_runs).store.StaysArchived
        (reached Sample.agentRegistered _ Sample.reuse_runs).store :=
  archive_final (Sample.initial_registered _ _) (run_reached Sample.archival_runs)
    (run_reached_append Sample.archival_runs Sample.reuse_runs)
    fun _ _ hissued =>
      Sample.leavesArchived_of_spares (of_everyRequest Sample.archival_checked.2.2.2 hissued)

/-- **An archive is undone.**  The agent finds the archived head by its UID, and its update
takes the head back to the live catalog, active and without a name. -/
theorem archive_undone : ¬ ∀ init, Initial init → ∀ actions later w w',
    recoverableRun (actions ++ later) = true → service.run (World.initial init) actions = some w →
      service.run w later = some w' →
        w'.store.NamesBijective ∧ w.store.StaysArchived w'.store := by
  intro hall
  have hstays := (hall _ (Sample.initial_registered _ _) Sample.archival Sample.revival _ _ (by decide)
    (run_reached Sample.archival_runs)
    (run_reached_append Sample.archival_runs Sample.revival_runs)).2
  have hbefore := reached_of_any Sample.archival_checked.1
  have hafter := reached_of_any Sample.archival_checked.2.1
  obtain ⟨head, hhead, hstate⟩ := Option.map_eq_some_iff.mp hbefore
  obtain ⟨head', hhead', hstate'⟩ := Option.map_eq_some_iff.mp hafter
  obtain ⟨other, hother, harchived, -⟩ := hstays "sec-a" head hhead hstate
  obtain rfl := Option.some.inj (hhead'.symm.trans hother)
  cases hstate'.symm.trans harchived

end Hemlig
