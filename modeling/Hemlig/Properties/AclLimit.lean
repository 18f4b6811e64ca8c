import Hemlig.Properties.Chain
import Hemlig.Verification.Requests
import Hemlig.Verification.Undisturbed

/-!
# Grants stay revocable

The completion of a mutation writes an access record for each consumer that is or was in the
ACL, so the ACL of a secret has to stay small.  Only the grant of an agent can make it too
long: the administrative routes parse what they write, and a revocation only removes.  As
long as no grant is appended to a full ACL, no ACL is too long, and whatever may replace it
completes in one transaction.
-/

namespace Hemlig

open Concurrent Store DynamoRepository AgentSyncRepository

variable {init s s' : Cloud} {pid : ℕ} {q : Request}

/-! ## The limit -/

/-- The ACL of every control revision is within the limit. -/
def Cloud.WithinLimit (s : Cloud) : Prop :=
  ∀ u sk row control, s.workflow u sk = some row → row.serialized = .control control →
    control.acl.length ≤ maximumAclGrants

/-- The request prepares an update that appends a grant to a full ACL. -/
def AppendsToFull (q : Request) (s : Cloud) : Prop :=
  ∃ writes mutation u version control grant,
    q = .transactWrite writes (some (.prepared mutation)) ∧
      mutation.expectedControlVersionId = some version ∧
        s.SettledDocument u (.control version) (.control control) ∧
          mutation.control.acl = control.acl ++ [grant] ∧ maximumAclGrants ≤ control.acl.length

theorem Cloud.WithinLimit.settled (h : s.WithinLimit) {u : String} {sk : WorkflowSk}
    {control : ControlRevision} (hsettled : s.SettledDocument u sk (.control control)) :
    control.acl.length ≤ maximumAclGrants := by
  obtain ⟨row, hrow, -, hserialized⟩ := hsettled
  exact h u sk row control hrow hserialized

/-- What is derived from ACLs within the limit is within it, but for one grant too many. -/
theorem Cloud.WithinLimit.aclFrom (h : s.WithinLimit) {expected : Option String} {acl : List Grant}
    (hfrom : s.AclFrom expected acl)
    (hroom : ∀ u version control grant, expected = some version →
      s.SettledDocument u (.control version) (.control control) → acl = control.acl ++ [grant] →
        control.acl.length < maximumAclGrants) : acl.length ≤ maximumAclGrants := by
  rcases hfrom with hshort | ⟨u, version, control, hexpected, hsettled, hshorter | ⟨grant, rfl⟩⟩
  · exact hshort
  · exact hshorter.trans (h.settled hsettled)
  · have hless := hroom u version control grant hexpected hsettled rfl
    rw [List.length_append, List.length_singleton]
    omega

/-! ## One step -/

/-- A step that adds no control revision keeps the limit. -/
theorem Cloud.WithinLimit.of_evolves (h : s.WithinLimit) {actor : Option ℕ} (hevolves : Evolves actor s s')
    (hnew : ∀ u sk row control, s.workflow u sk = none → s'.workflow u sk = some row →
      row.serialized = .control control → control.acl.length ≤ maximumAclGrants) :
    s'.WithinLimit := by
  intro u sk row' control hrow' hserialized
  cases hrow : s.workflow u sk with
  | none => exact hnew u sk row' control hrow hrow' hserialized
  | some row =>
      obtain ⟨other, hother, hstep, -⟩ := hevolves.rows hrow
      obtain rfl := Option.some.inj (hrow'.symm.trans hother)
      exact h u sk row control hrow (hstep.serialized.symm.trans hserialized)

/-- No row appears where there was none. -/
theorem Gentle.no_births (h : Gentle s s') {u : String} {sk : WorkflowSk} {row' : StoredWorkflow}
    (hnone : s.workflow u sk = none) : s'.workflow u sk ≠ some row' := by
  intro hrow'
  obtain ⟨row, hrow, -⟩ := h.rows.backward hrow'
  cases hnone.symm.trans hrow

/-- **A request keeps the limit**, unless it appends to a full ACL. -/
theorem Requested.withinLimit (h : Requested init pid q s s') (hroom : ¬ AppendsToFull q s)
    (hs : s.WithinLimit) : s'.WithinLimit := by
  refine hs.of_evolves h.kept.evolves fun u sk row control hnone hrow' hserialized => ?_
  cases h.kept.transition with
  | gentle hgentle => exact (hgentle.no_births hnone hrow').elim
  | undone hq hundone =>
      have hsame : s'.workflow u sk = s.workflow u sk := hundone.other _ nofun nofun
      cases hrow'.symm.trans (hsame.trans hnone)
  | @prepared mutation now hq hready hpreparation =>
      obtain rfl := hpreparation.fresh_control hnone hrow' hserialized
      refine hs.aclFrom hready.acl fun u version control grant hexpected hsettled hacl => ?_
      by_contra hfull
      exact hroom ⟨_, mutation, u, version, control, grant, hq, hexpected, hsettled, hacl,
        not_lt.mp hfull⟩
  | committed hq hcommitting =>
      cases hcommitting.effect.rows u sk with
      | same hsame => cases hrow'.symm.trans (hsame.trans hnone)
      | ready row object hu hsettles hbefore => cases hnone.symm.trans hbefore
      | candidate row due hu hbefore => cases hnone.symm.trans hbefore

theorem Unasked.withinLimit (h : Unasked init s s') (hs : s.WithinLimit) : s'.WithinLimit :=
  hs.of_evolves (h.quiet.evolves none) fun _ _ _ _ hnone hrow' _ =>
    (h.quiet.gentle.no_births hnone hrow').elim

/-! ## The size of a completion -/

/-- A list is not longer than one that names all its elements, if it names each once. -/
theorem length_distinct_le {values others : List String} (h : ∀ value ∈ values, value ∈ others) :
    (distinct values).length ≤ others.length :=
  (List.subperm_of_subset (nodup_distinct values) fun _ hmem => h _ (mem_distinct.mp hmem)).length_le

theorem length_accessItemsFor_le {control : ControlRevision} {acl : List Grant} {u : String}
    {prior : List AccessRecord}
    (hprior : ∀ access ∈ prior, access.consumerId ∈ acl.map Grant.consumerId) :
    (accessItemsFor u control prior).length ≤ acl.length + control.acl.length := by
  rw [accessItemsFor, List.length_map]
  calc (distinct (prior.map AccessRecord.consumerId ++ control.acl.map Grant.consumerId)).length
      ≤ (acl.map Grant.consumerId ++ control.acl.map Grant.consumerId).length := by
        refine length_distinct_le fun value hmem => ?_
        rcases List.mem_append.mp hmem with hmem | hmem
        · obtain ⟨access, haccess, rfl⟩ := List.mem_map.mp hmem
          exact List.mem_append_left _ (hprior access haccess)
        · exact List.mem_append_right _ hmem
    _ = acl.length + control.acl.length := by simp

/-- A commit writes at most six items beside the access records and the notifications. -/
theorem length_writes_le (completed : CompletedMutation) (due : Time)
    (notifications : List NotificationOutboxRecord) (sequence : ℕ) :
    (completed.writes due notifications sequence).length ≤
      6 + completed.accessItems.length + notifications.length := by
  have hready : completed.readyWrites.length ≤ 2 := by
    unfold CompletedMutation.readyWrites
    split <;> simp
  have hcandidates : (completed.candidateWrites due).length ≤ 2 := by
    unfold CompletedMutation.candidateWrites
    split
    · simp
    · rename_i prior _
      cases prior.payloadVersionId <;> simp
  have hname : completed.nameWrites.length ≤ 1 := by
    unfold CompletedMutation.nameWrites
    split <;> simp
  have haccess : completed.accessWrites.length ≤ completed.accessItems.length := by
    unfold CompletedMutation.accessWrites
    split <;> simp
  have hnotifications :
      (CompletedMutation.notificationWrites notifications).length = notifications.length :=
    List.length_map ..
  simp only [CompletedMutation.writes, List.length_cons, List.length_append]
  omega

theorem length_publicationWrites_le (environment epoch : String) (record : AgentSyncRecord)
    (build : ℕ → List TableWrite) (state : Option AgentSyncState) (ttl previous : Option ℕ) :
    (publicationWrites environment record build state epoch ttl previous).length ≤
      3 + (build (nextSequence state)).length := by
  have hprevious : (previousWrites environment record.secretUid previous).length ≤ 1 := by
    cases previous <;> simp [previousWrites]
  simp only [publicationWrites, List.length_cons, List.length_append]
  omega

section Notifications

variable {choose : Request → Choice}

/-- A commit notifies at most twice: of a change and of a revocation. -/
theorem length_of_notificationItemsFor {control : ControlRevision} {accessItems : List AccessRecord}
    {accessChanged : Bool} {notifications : List NotificationOutboxRecord} {after : Cloud}
    (h : service.finish pid choose (notificationItemsFor control accessItems accessChanged) s =
      some (.ok notifications, after)) : notifications.length ≤ 2 := by
  obtain ⟨changed, middle, -, h⟩ := System.finish_bind_inv h
  obtain ⟨revoked, last, -, h⟩ := System.finish_bind_inv h
  cases h
  cases changed <;> cases revoked <;> simp

end Notifications

/-! ## Revocable grants -/

/-- What a revocation, an archive or an update of the administrative route makes of an ACL. -/
inductive NextAcl (acl : List Grant) : List Grant → Prop
  | revoked (consumerId : String) : NextAcl acl (acl.filter fun grant => grant.consumerId ≠ consumerId)
  | archived : NextAcl acl []
  | written {value : List RawGrant} {parsed : List Grant} (h : parseGrants value = .ok parsed) :
      NextAcl acl parsed

theorem NextAcl.length_le {acl next : List Grant} (h : NextAcl acl next)
    (hacl : acl.length ≤ maximumAclGrants) : next.length ≤ maximumAclGrants := by
  cases h with
  | revoked consumerId => exact (List.length_filter_le _ _).trans hacl
  | archived => exact Nat.zero_le _
  | written hparsed => exact length_le_of_parseGrants hparsed

/-- The mutation replaces a head and its control revision, whose readers it has looked up. -/
structure CompletedMutation.Replaces (completed : CompletedMutation) (head : HeadRecord)
    (control : ControlRevision) : Prop where
  priorHead : completed.priorHead = some head
  priorAccess : ∀ access ∈ completed.priorAccess,
    access.consumerId ∈ control.acl.map Grant.consumerId
  acl : NextAcl control.acl completed.prepared.control.acl

/-- The transaction that completes a mutation, wherever it is published, is within the limit
of DynamoDB. -/
def CompletedMutation.Fits (completed : CompletedMutation) (s : Cloud) : Prop :=
  ∀ pid choose notifications after,
    service.finish pid choose (notificationItemsFor completed.prepared.control completed.accessItems
        completed.replaceAccess) s = some (.ok notifications, after) →
      ∀ due state epoch ttl previous,
        (publicationWrites completed.prepared.environment
          (syncRecord completed.prepared.secretUid completed.prepared.control)
          (completed.writes due notifications) state epoch ttl previous).length ≤ maximumWrites

/-- **Every grant is revocable**: the ACL of every secret is within the limit, and whatever
replaces it completes in one transaction. -/
structure Revocable (s : Cloud) : Prop where
  limit : ∀ u head control, s.head u = some head → head.Committed → s.Describes u head control →
    control.acl.length ≤ maximumAclGrants
  fits : ∀ u head control (completed : CompletedMutation), s.head u = some head → head.Committed →
    s.Describes u head control → completed.Replaces head control → completed.Fits s

theorem Cloud.WithinLimit.described (h : s.WithinLimit) {u : String} {head : HeadRecord}
    {control : ControlRevision} (hdescribes : s.Describes u head control) :
    control.acl.length ≤ maximumAclGrants := by
  obtain ⟨versionId, -, -, ⟨row, hrow, -, -, hserialized⟩, -⟩ := hdescribes.stored
  exact h u _ row control hrow hserialized

theorem CompletedMutation.Replaces.fits {completed : CompletedMutation} {head : HeadRecord}
    {control : ControlRevision} (h : completed.Replaces head control)
    (hacl : control.acl.length ≤ maximumAclGrants) : completed.Fits s := by
  intro pid choose notifications after hnotifications due state epoch ttl previous
  have hpublication := length_publicationWrites_le completed.prepared.environment epoch
    (syncRecord completed.prepared.secretUid completed.prepared.control)
    (completed.writes due notifications) state ttl previous
  have hwrites := length_writes_le completed due notifications (nextSequence state)
  have hitems : completed.accessItems.length ≤
      control.acl.length + completed.prepared.control.acl.length :=
    length_accessItemsFor_le h.priorAccess
  have hnext := h.acl.length_le hacl
  have hnotified := length_of_notificationItemsFor hnotifications
  simp only [maximumAclGrants] at hacl hnext
  show _ ≤ 100
  omega

theorem Cloud.WithinLimit.revocable (h : s.WithinLimit) : Revocable s where
  limit _ _ _ _ _ hdescribes := h.described hdescribes
  fits _ _ _ _ _ _ hdescribes hreplaces := hreplaces.fits (h.described hdescribes)

/-- **When every grant stays revocable.**  In every run in which no grant is appended to a
full ACL, every grant is revocable in the state reached. -/
theorem grants_revocable (hinit : Initial init) (hlimit : init.WithinLimit) {w : ServiceWorld}
    {actions : List ServiceAction} (hrun : service.run (World.initial init) actions = some w)
    (hroom : ∀ q s, IssuedIn init actions q s → ¬ AppendsToFull q s) : Revocable w.store := by
  have hkeeps := run_keeps_requests hinit hrun (P := Cloud.WithinLimit)
    (C := fun q s => ¬ AppendsToFull q s) hroom
    (fun s s' hunasked => hunasked.withinLimit)
    (fun pid q s s' hrequested hroom => hrequested.withinLimit hroom) hlimit
  exact hkeeps.revocable

/-! ## A full ACL -/

/-- The length of the ACL that a row documents. -/
def documentedLength (row : StoredWorkflow) : ℕ :=
  match row.serialized with
  | .control control => control.acl.length
  | .payload _ => 0

namespace Sample

/-- As many consumers as an ACL may name. -/
def crowd : List String := (List.range maximumAclGrants).map fun number => "con-" ++ toString number

/-- The crowd and an agent were registered. -/
def crowded : Cloud := registered ("agent" :: crowd) none

/-- The crowd may read `api-key`. -/
def crowding : List ServiceAction :=
  founding ++
    .start 1 (.create { creation "k1" with acl := crowd.map fun consumerId => ⟨consumerId, ["read"]⟩ }) ::
    steps 1 (List.replicate 82 plain ++
      [fresh "a", fresh "a", plain, fresh "op-a", plain, plain, plain, fresh "v-a", fresh "n-a",
        plain, plain, plain])

/-- The request prepares no update. -/
def noUpdate (q : Request) (_ : Cloud) : Bool :=
  match q with
  | .transactWrite _ (some (.prepared mutation)) => mutation.expectedControlVersionId.isNone
  | _ => true

theorem crowding_checked :
    (service.run (World.initial crowded) crowding).any (fun w =>
      decide (w.store.version "sec-a" = some "ctl-a")) = true ∧
    everyRequest noUpdate (World.initial crowded) crowding = true := by
  decide +kernel

theorem crowding_runs : (service.run (World.initial crowded) crowding).isSome = true :=
  Option.isSome_of_any crowding_checked.1

/-- The agent is granted `api-key`. -/
def overcrowding : List ServiceAction :=
  crowding ++
    .start 2 (.reconcile
      ⟨"agent", "prod", [{ secretUid := "sec-a", secretId := "api-key", permissions := [.read] }], admin⟩) ::
    steps 2 ({ number := 1 } :: List.replicate 4 plain ++ fresh "g" :: List.replicate 45 plain ++
      fresh "b" :: List.replicate 161 plain ++
      [fresh "op-b", plain, plain, plain, fresh "v-b", plain, plain, fresh "n-b", plain, plain, plain, plain])

theorem overcrowding_checked :
    (service.run (World.initial crowded) overcrowding).any (fun w => decide
      (w.store.version "sec-a" = some "ctl-b" ∧
        (w.store.workflow "sec-a" (.control "ctl-b")).map documentedLength = some 41)) = true := by
  decide +kernel

theorem overcrowding_runs : (service.run (World.initial crowded) overcrowding).isSome = true :=
  Option.isSome_of_any overcrowding_checked

end Sample

theorem Sample.withinLimit_crowded : Sample.crowded.WithinLimit := by
  intro u sk row control hrow
  cases hrow

theorem Sample.initial_crowded : Initial Sample.crowded := initial_registered _ _

/-- The ACL of the current control revision has 40 entries, and it is revocable. -/
theorem grants_revocable_crowded :
    (reached Sample.crowded _ Sample.crowding_runs).store.version "sec-a" = some "ctl-a" ∧
      Revocable (reached Sample.crowded _ Sample.crowding_runs).store := by
  refine ⟨reached_of_any Sample.crowding_checked.1,
    grants_revocable Sample.initial_crowded Sample.withinLimit_crowded
      (run_reached Sample.crowding_runs) fun q s hissued => ?_⟩
  have hcheck : Sample.noUpdate q s = true := of_everyRequest Sample.crowding_checked.2 hissued
  rintro ⟨writes, mutation, u, version, control, grant, rfl, hexpected, -⟩
  simp [Sample.noUpdate, hexpected] at hcheck

/-- **A grant is appended to a full ACL.** -/
theorem grants_irrevocable : ¬ ∀ init, Initial init → init.WithinLimit →
    ∀ (w : ServiceWorld) actions, service.run (World.initial init) actions = some w →
      Revocable w.store := by
  intro hall
  have hrun := run_reached Sample.overcrowding_runs
  obtain ⟨hversion, hlength⟩ := reached_of_any Sample.overcrowding_checked
  generalize reached Sample.crowded _ Sample.overcrowding_runs = w at hrun hversion hlength
  obtain ⟨head, hhead, hcommitted, hcurrent⟩ := Cloud.version_eq_some.mp hversion
  obtain ⟨control, hdescribes⟩ :=
    (invariant_of_run Sample.initial_crowded hrun).heads.described hhead hcommitted
  have hlimit := (hall _ Sample.initial_crowded Sample.withinLimit_crowded _ _ hrun).limit _ _ _ hhead hcommitted
    hdescribes
  obtain ⟨versionId, -, -, ⟨row, hrow, -, -, hserialized⟩, -⟩ := hdescribes.stored
  rw [hcurrent] at hrow
  rw [hrow, Option.map_some, documentedLength, hserialized] at hlength
  have hfull : control.acl.length = 41 := Option.some.inj hlength
  simp only [maximumAclGrants] at hlimit
  omega

end Hemlig
