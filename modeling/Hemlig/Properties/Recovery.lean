import Hemlig.Properties.CrashSafety
import Hemlig.Verification.RecoveryPass

/-!
# Recovery settles the creates that expired

A recovery pass settles every operation it lists, audits each of them and goes on to the
truststore, if and only if each is a create that still holds its prepared head.  At the
first other one whose secret exists it ends: the refused transaction is not one of the
refusals it takes for an answer.  What it has audited never commits.
-/

namespace Hemlig

open Concurrent Store DynamoRepository

variable {init s s' : Cloud} {pid : ℕ} {choose : Request → Choice}

/-! ## What a pass should do -/

/-- The listed workflows are prepared and have expired, and the index has caught up with
them. -/
structure ExpiredListing (s : Cloud) (page : List RowKey) : Prop where
  nodup : page.Nodup
  overdue : ∀ key ∈ page, ∃ row, s.index key.1 key.2 = some row ∧
    row.workflowDue.any (· < s.now) = true ∧ s.workflow key.1 key.2 = some row

/-- The operation of a listed workflow is settled: what it created is removed, and what it
holds of another secret is released, with an audit event. -/
structure SettledOperation (s s' : Cloud) (key : RowKey) (row : StoredWorkflow) : Prop where
  marked : s'.workflow key.1 key.2 = some (retryableRow row)
  removed : ∀ head, s.head key.1 = some head → head.leaseOwner = some row.operationId →
    head.workflowState = .prepared → s'.head key.1 = none ∧
      s'.lookup head.environment head.secretId = none
  released : ∀ head, s.head key.1 = some head → head.leaseOwner = some row.operationId →
    head.Committed → s'.head key.1 = some (unleasedHead head)
  audited : ∀ head, s.head key.1 = some head → head.leaseOwner = some row.operationId →
    ∃ new, s'.audit = s.audit ++ new ∧
      Recovery.expiredEvent row.operationId head.environment head.secretId ∈ new

/-- **Every listed operation is settled**, the heads of all others stay, and the truststore
is reconciled. -/
structure RecoversAll (s s' : Cloud) (page : List RowKey) : Prop where
  settled : ∀ key ∈ page, ∀ row, s.workflow key.1 key.2 = some row → SettledOperation s s' key row
  kept : ∀ u head, s.head u = some head → (∀ key ∈ page, ∀ row, s.workflow key.1 key.2 = some row →
    head.leaseOwner ≠ some row.operationId) → s'.head u = some head
  reconciled : s'.history = s.history ++ [⟨s.now, s.known, .truststoreReconciled⟩]

/-- Every listed operation has an audit event, also one whose secret is gone. -/
def AuditsAll (s s' : Cloud) (page : List RowKey) : Prop :=
  ∀ key ∈ page, ∀ row, s.workflow key.1 key.2 = some row → ∃ new event,
    s'.audit = s.audit ++ new ∧ event ∈ new ∧ event.correlationId = row.operationId

/-! ## The operations of a page -/

section Listing

variable {page : List RowKey} (hlisting : ExpiredListing s page)

/-- The workflows that the pass lists. -/
abbrev expiredRows (s : Cloud) (page : List RowKey) : List IndexedWorkflow :=
  s.indexed page fun row => row.workflowDue.any (· < s.now)

/-- The secret of an operation, read off its first workflow. -/
def secretOf (expired : List IndexedWorkflow) (operationId : String) : String :=
  ((Recovery.workflowsOf expired operationId).head?.map (·.secretUid)).getD ""

include hlisting

theorem keys_expiredRows : (expiredRows s page).map IndexedWorkflow.key = page :=
  (indexed_page fun key hkey => (hlisting.overdue key hkey).imp fun _ h => ⟨h.1, h.2.1⟩).1

theorem mem_expiredRows {workflow : IndexedWorkflow} (hmem : workflow ∈ expiredRows s page) :
    s.workflow workflow.secretUid workflow.sk = some workflow.row ∧
      workflow.row.workflowDue.isSome = true := by
  obtain ⟨hkey, hindex⟩ := (indexed_page fun key hkey =>
    (hlisting.overdue key hkey).imp fun _ h => ⟨h.1, h.2.1⟩).2 workflow hmem
  obtain ⟨row, hrow, hdue, hcurrent⟩ := hlisting.overdue _ hkey
  obtain rfl := Option.some.inj (hindex.symm.trans hrow)
  refine ⟨hcurrent, ?_⟩
  obtain ⟨time, htime, -⟩ := (Option.any_eq_true _ _).mp hdue
  exact Option.isSome_iff_exists.mpr ⟨time, htime⟩

theorem nodup_expiredRows : (expiredRows s page).Nodup :=
  .of_map _ ((keys_expiredRows hlisting).symm ▸ hlisting.nodup)

variable (hinv : Invariant init s) (horigins : Origins s)
include hinv horigins

/-- The mutation that a listed workflow belongs to. -/
theorem mutation_of_listed {workflow : IndexedWorkflow} (hmem : workflow ∈ expiredRows s page) :
    ∃ mutation, s.Prepared mutation ∧ mutation.secretUid = workflow.secretUid ∧
      mutation.operationId = workflow.row.operationId := by
  obtain ⟨hrow, hdue⟩ := mem_expiredRows hlisting hmem
  refine horigins.row hrow ?_
  simp [StoredWorkflow.Settled, (hinv.rows.ok hrow).due.mp hdue]

/-- All workflows of an operation belong to one secret. -/
theorem secretUid_of_operation {first second : IndexedWorkflow} (hfirst : first ∈ expiredRows s page)
    (hsecond : second ∈ expiredRows s page) (hsame : first.row.operationId = second.row.operationId) :
    first.secretUid = second.secretUid := by
  obtain ⟨mutation, hprepared, huid, hid⟩ := mutation_of_listed hlisting hinv horigins hfirst
  obtain ⟨mutation', hprepared', huid', hid'⟩ := mutation_of_listed hlisting hinv horigins hsecond
  obtain rfl := hinv.history.operation hprepared hprepared' (hid.trans (hsame.trans hid'.symm))
  exact huid.symm.trans huid'

/-- The secret of an operation is that of each of its workflows. -/
theorem secretOf_eq {workflow : IndexedWorkflow} (hmem : workflow ∈ expiredRows s page) :
    secretOf (expiredRows s page) workflow.row.operationId = workflow.secretUid := by
  have hlisted : workflow ∈ Recovery.workflowsOf (expiredRows s page) workflow.row.operationId :=
    List.mem_filter.mpr ⟨hmem, by simp⟩
  cases hfirst : Recovery.workflowsOf (expiredRows s page) workflow.row.operationId with
  | nil => simp [hfirst] at hlisted
  | cons first rest =>
      rw [secretOf, hfirst]
      have hmem' : first ∈ Recovery.workflowsOf (expiredRows s page) workflow.row.operationId := by
        rw [hfirst]
        exact List.mem_cons_self
      obtain ⟨hfirst', hid⟩ := List.mem_filter.mp hmem'
      exact secretUid_of_operation hlisting hinv horigins hfirst' hmem (by simpa using hid)

/-- What the pass knows of them when it starts. -/
theorem awaiting_expired : Awaiting s (Recovery.workflowsOf (expiredRows s page))
    (secretOf (expiredRows s page)) (Recovery.operationsOf (expiredRows s page)) := by
  have hlisted : ∀ {operationId}, operationId ∈ Recovery.operationsOf (expiredRows s page) →
      ∃ workflow ∈ expiredRows s page, workflow.row.operationId = operationId := fun hmem =>
    List.mem_map.mp (mem_distinct.mp hmem)
  have hpart : ∀ {operationId workflow},
      workflow ∈ Recovery.workflowsOf (expiredRows s page) operationId →
        workflow ∈ expiredRows s page ∧ workflow.row.operationId = operationId := by
    intro operationId workflow hmem
    obtain ⟨hmem, hid⟩ := List.mem_filter.mp hmem
    exact ⟨hmem, by simpa using hid⟩
  have hkeys : ((expiredRows s page).map IndexedWorkflow.key).Nodup :=
    (keys_expiredRows hlisting).symm ▸ hlisting.nodup
  constructor
  · intro operationId hmem hnil
    obtain ⟨workflow, hworkflow, rfl⟩ := hlisted hmem
    have hself : workflow ∈ Recovery.workflowsOf (expiredRows s page) workflow.row.operationId :=
      List.mem_filter.mpr ⟨hworkflow, by simp⟩
    rw [hnil] at hself
    cases hself
  · intro operationId hmem workflow hworkflow
    obtain ⟨hexpired, rfl⟩ := hpart hworkflow
    exact (secretOf_eq hlisting hinv horigins hexpired).symm
  · intro operationId hmem
    obtain ⟨workflow, hworkflow, rfl⟩ := hlisted hmem
    rw [secretOf_eq hlisting hinv horigins hworkflow]
    obtain ⟨mutation, hprepared, huid, -⟩ := mutation_of_listed hlisting hinv horigins hworkflow
    obtain ⟨id, hid⟩ := horigins.uid hprepared
    have hne : workflow.secretUid ≠ "" := by
      rw [← huid, hid]
      intro heq
      simpa using congrArg String.toList heq
    rw [secretIdentityFromPk, if_neg hne]
  · intro operationId hmem
    exact hkeys.sublist (List.filter_sublist.map _)
  · intro operationId hmem other hother hne key hkey hkey'
    obtain ⟨workflow, hworkflow, rfl⟩ := List.mem_map.mp hkey
    obtain ⟨workflow', hworkflow', heq⟩ := List.mem_map.mp hkey'
    obtain ⟨hexpired, rfl⟩ := hpart hworkflow
    obtain ⟨hexpired', rfl⟩ := hpart hworkflow'
    obtain rfl := List.inj_on_of_nodup_map hkeys hexpired' hexpired heq
    exact hne rfl
  · intro operationId hmem key hkey
    obtain ⟨workflow, hworkflow, rfl⟩ := List.mem_map.mp hkey
    obtain ⟨hrow, hdue⟩ := mem_expiredRows hlisting (hpart hworkflow).1
    exact ⟨_, hrow, (hinv.rows.ok hrow).due.mp hdue⟩
  · intro operationId hmem head hhead hprepared
    refine hinv.names.creating hhead ?_
    rw [HeadRecord.Committed, hprepared]
    simp
  · rintro operationId hmem other hother hne huid ⟨head, hhead, howner, hprepared⟩
    obtain ⟨workflow, hworkflow, rfl⟩ := hlisted hmem
    obtain ⟨workflow', hworkflow', rfl⟩ := hlisted hother
    have hnot : ¬ head.Committed := by
      rw [HeadRecord.Committed, hprepared]
      simp
    obtain ⟨mutation, hmutation, hsecret, hid⟩ := mutation_of_listed hlisting hinv horigins hworkflow'
    rw [← secretOf_eq hlisting hinv horigins hworkflow', ← huid] at hsecret
    rcases horigins.creator hinv hhead hnot hmutation hsecret with rfl | rfl
    · exact hne ((Option.some.inj howner).symm.trans hid)
    · cases howner

end Listing

/-! ## The pass -/

/-- Each listed operation is a create that still holds its head, or its secret is gone. -/
def PassablePage (s : Cloud) (page : List RowKey) : Prop :=
  ∀ key ∈ page, ∀ row, s.workflow key.1 key.2 = some row → s.Passable key.1 row.operationId

/-- Each listed operation is a create that still holds its head. -/
def CreatesOnly (s : Cloud) (page : List RowKey) : Prop :=
  ∀ key ∈ page, ∀ row, s.workflow key.1 key.2 = some row → s.HoldsCreate key.1 row.operationId

section Pass

variable {page : List RowKey} (hlisting : ExpiredListing s page) (hinv : Invariant init s)
  (horigins : Origins s)
include hlisting hinv horigins

/-- The listed keys and the listed operations are the same. -/
theorem passable_iff : PassablePage s page ↔
    ∀ operationId ∈ Recovery.operationsOf (expiredRows s page),
      s.Passable (secretOf (expiredRows s page) operationId) operationId := by
  constructor
  · intro hall operationId hmem
    obtain ⟨workflow, hworkflow, rfl⟩ := List.mem_map.mp (mem_distinct.mp hmem)
    rw [secretOf_eq hlisting hinv horigins hworkflow]
    refine hall workflow.key ?_ _ (mem_expiredRows hlisting hworkflow).1
    rw [← keys_expiredRows hlisting]
    exact List.mem_map_of_mem hworkflow
  · intro hall key hmem row hrow
    rw [← keys_expiredRows hlisting] at hmem
    obtain ⟨workflow, hworkflow, rfl⟩ := List.mem_map.mp hmem
    obtain rfl := Option.some.inj (hrow.symm.trans (mem_expiredRows hlisting hworkflow).1)
    have hpassable := hall workflow.row.operationId (mem_distinct.mpr (List.mem_map_of_mem hworkflow))
    rwa [secretOf_eq hlisting hinv horigins hworkflow] at hpassable

variable (hsettled : Settled s s' (Recovery.workflowsOf (expiredRows s page))
  (secretOf (expiredRows s page)) (Recovery.operationsOf (expiredRows s page)))
include hsettled

/-- **What was settled** is what a pass should settle. -/
theorem Settled.operation (hpassable : PassablePage s page) {key : RowKey} (hkey : key ∈ page)
    {row : StoredWorkflow} (hrow : s.workflow key.1 key.2 = some row) :
    SettledOperation s s' key row := by
  have hpassable := hpassable key hkey row hrow
  rw [← keys_expiredRows hlisting] at hkey
  obtain ⟨workflow, hworkflow, rfl⟩ := List.mem_map.mp hkey
  obtain rfl := Option.some.inj (hrow.symm.trans (mem_expiredRows hlisting hworkflow).1)
  have hsecret := secretOf_eq hlisting hinv horigins hworkflow
  have hoperation : workflow.row.operationId ∈ Recovery.operationsOf (expiredRows s page) :=
    mem_distinct.mpr (List.mem_map_of_mem hworkflow)
  constructor
  · have hlisted : workflow ∈ Recovery.workflowsOf (expiredRows s page) workflow.row.operationId :=
      List.mem_filter.mpr ⟨hworkflow, by simp⟩
    rw [hsettled.row _ hoperation workflow.key (List.mem_map_of_mem hlisted), hrow, Option.map_some]
  · intro head hhead _ _
    have hgone := hsettled.head _ hoperation
    have hname := hsettled.lookup _ hoperation head
    rw [hsecret] at hgone hname
    exact ⟨hgone, hname hhead⟩
  · intro head hhead _ hcommitted
    rcases hpassable with hnone | ⟨other, hother, -, hprepared⟩
    · cases hnone.symm.trans hhead
    · obtain rfl := Option.some.inj (hhead.symm.trans hother)
      cases hprepared.symm.trans hcommitted
  · intro head hhead _
    refine ⟨_, hsettled.audit, List.mem_flatMap.mpr ⟨_, hoperation, ?_⟩⟩
    rw [hsecret, show s.head workflow.secretUid = some head from hhead]
    exact List.mem_singleton.mpr rfl

/-- The heads of all others stay. -/
theorem Settled.kept (hpassable : PassablePage s page) {u : String} {head : HeadRecord}
    (hhead : s.head u = some head) (hother : ∀ key ∈ page, ∀ row,
      s.workflow key.1 key.2 = some row → head.leaseOwner ≠ some row.operationId) :
    s'.head u = some head := by
  refine (hsettled.headOther u fun operationId hmem hu => ?_).trans hhead
  obtain ⟨workflow, hworkflow, rfl⟩ := List.mem_map.mp (mem_distinct.mp hmem)
  rw [secretOf_eq hlisting hinv horigins hworkflow] at hu
  have hkey : workflow.key ∈ page := by
    rw [← keys_expiredRows hlisting]
    exact List.mem_map_of_mem hworkflow
  have hrow := (mem_expiredRows hlisting hworkflow).1
  subst hu
  rcases hpassable workflow.key hkey _ hrow with hnone | ⟨owned, howned, howner, -⟩
  · cases hnone.symm.trans hhead
  · obtain rfl := Option.some.inj (hhead.symm.trans howned)
    exact hother _ hkey _ hrow howner

/-- Every operation is audited if no secret was gone. -/
theorem Settled.audits_iff (hpassable : PassablePage s page) :
    AuditsAll s s' page ↔ CreatesOnly s page := by
  constructor
  · intro haudits key hkey row hrow
    obtain ⟨new, event, haudit, hevent, hid⟩ := haudits key hkey row hrow
    obtain rfl := List.append_cancel_left (hsettled.audit.symm.trans haudit)
    obtain ⟨operationId, hoperation, hevent⟩ := List.mem_flatMap.mp hevent
    obtain ⟨head, hhead, rfl⟩ := Option.map_eq_some_iff.mp (Option.mem_toList.mp hevent)
    obtain rfl : operationId = row.operationId := hid
    rcases hpassable key hkey row hrow with hnone | hholds
    · rw [← keys_expiredRows hlisting] at hkey
      obtain ⟨workflow, hworkflow, rfl⟩ := List.mem_map.mp hkey
      obtain rfl := Option.some.inj (hrow.symm.trans (mem_expiredRows hlisting hworkflow).1)
      rw [secretOf_eq hlisting hinv horigins hworkflow] at hhead
      cases hnone.symm.trans hhead
    · exact hholds
  · intro hcreates key hkey row hrow
    obtain ⟨head, hhead, howner, -⟩ := hcreates key hkey row hrow
    obtain ⟨new, haudit, hmem⟩ := (hsettled.operation hlisting hinv horigins hpassable hkey hrow).audited
      head hhead howner
    exact ⟨new, _, haudit, hmem, rfl⟩

end Pass

variable (pid) in
theorem recovery_pass (hinv : Invariant init s) (horigins : Origins s) {page : List RowKey}
    (hlisting : ExpiredListing s page) (hcalm : Calm choose)
    (hpage : (choose (.expiredPrepared s.now)).rows = page) :
    (PassablePage s page → ∃ s', service.finish pid choose Recovery.handler s = some (.ok (), s') ∧
      RecoversAll s s' page ∧ (AuditsAll s s' page ↔ CreatesOnly s page)) ∧
    (¬ PassablePage s page → ∃ failure s',
      service.finish pid choose Recovery.handler s = some (.error failure, s') ∧
        s'.history = s.history) := by
  have hnow : service.finish pid choose (send .now) s = some (.ok s.now, s) :=
    finish_send hcalm.faultless rfl
  have hlist : service.finish pid choose (listExpiredPrepared s.now) s =
      some (.ok (expiredRows s page), s) :=
    finish_send hcalm.faultless (by simp only [perform, hpage])
  obtain ⟨hok, herror⟩ := finish_operations pid hcalm
    (Recovery.operationsOf (expiredRows s page)) (nodup_distinct _)
    (awaiting_expired hlisting hinv horigins)
  rw [← passable_iff hlisting hinv horigins] at hok herror
  constructor
  · intro hpassable
    obtain ⟨after, hfinish, hsettled⟩ := hok hpassable
    refine ⟨after.record .truststoreReconciled, ?_, ⟨?_, ?_, ?_⟩, ?_⟩
    · refine (System.finish_bind_ok hnow).trans ((System.finish_bind_ok hlist).trans ?_)
      exact (System.finish_bind_ok hfinish).trans (finish_send hcalm.faultless rfl)
    · intro key hkey row hrow
      have hoperation := hsettled.operation hlisting hinv horigins hpassable hkey hrow
      exact ⟨hoperation.marked, hoperation.removed, hoperation.released, hoperation.audited⟩
    · exact fun u head hhead hother => hsettled.kept hlisting hinv horigins hpassable hhead hother
    · show after.history ++ _ = _
      rw [hsettled.history, hsettled.now, hsettled.known]
    · have haudits := hsettled.audits_iff hlisting hinv horigins hpassable
      exact haudits
  · intro hnot
    obtain ⟨failure, after, hfinish, hhistory⟩ := herror hnot
    refine ⟨failure, after, (System.finish_bind_ok hnow).trans ?_, hhistory⟩
    exact (System.finish_bind_ok hlist).trans (System.finish_bind_error hfinish)

/-- **When recovery settles every operation.**  In every state of every run a pass that
meets no fault settles and audits all operations it lists if and only if each is a create
that still holds its prepared head; it settles them, without an event for those whose secret
is gone, if and only if each is such a create or its secret is gone.  And an operation that
was audited as expired never commits, in any continuation. -/
theorem recovery_settles (hinit : Initial init) {w : ServiceWorld} {actions : List ServiceAction}
    (hrun : service.run (World.initial init) actions = some w) {page : List RowKey}
    (hlisting : ExpiredListing w.store page) (hcalm : Calm choose)
    (hpage : (choose (.expiredPrepared w.store.now)).rows = page) :
    (∃ outcome s', service.finish pid choose Recovery.handler w.store = some (outcome, s') ∧
      (RecoversAll w.store s' page ∧ AuditsAll w.store s' page ↔ CreatesOnly w.store page) ∧
      (RecoversAll w.store s' page ↔ PassablePage w.store page)) ∧
    ∀ event ∈ w.store.audit, event.operation = "workflow.recovery" → ∀ later w',
      service.run w later = some w' → CommitsWithout w.store w'.store event.correlationId := by
  have hinv := invariant_of_run hinit hrun
  constructor
  · obtain ⟨hok, herror⟩ := recovery_pass pid hinv (origins_of_run hinit hrun) hlisting hcalm hpage
    by_cases hpassable : PassablePage w.store page
    · obtain ⟨s', hfinish, hrecovers, haudits⟩ := hok hpassable
      exact ⟨_, s', hfinish, ⟨fun h => haudits.mp h.2, fun h => ⟨hrecovers, haudits.mpr h⟩⟩,
        fun _ => hpassable, fun _ => hrecovers⟩
    · obtain ⟨failure, s', hfinish, hhistory⟩ := herror hpassable
      -- The pass ended before the truststore.
      have hnot : ¬ RecoversAll w.store s' page := by
        intro hrecovers
        have hlength := congrArg List.length (hhistory.symm.trans hrecovers.reconciled)
        rw [List.length_append, List.length_singleton] at hlength
        omega
      refine ⟨_, s', hfinish, ⟨fun h => (hnot h.1).elim, fun h => ?_⟩, fun h => (hnot h).elim,
        fun h => (hpassable h).elim⟩
      exact (hpassable fun key hkey row hrow => .inr (h key hkey row hrow)).elim
  · intro event hevent hoperation later w' hlater
    have hkeeps := run_keeps hinit hrun hlater
      (P := fun s => s.Dead event.correlationId ∧ CommitsWithout w.store s event.correlationId)
      (fun s s' hstep hs => ?_) ⟨hinv.history.audit event hevent hoperation,
        fun u => ⟨[], (List.append_nil _).symm, fun _ hmem => absurd hmem List.not_mem_nil⟩⟩
    · exact hkeeps.2
    · obtain ⟨actor, hevolves⟩ := hstep.evolves
      exact ⟨hevolves.dead hs.1, hstep.commitsWithout hs.1 hs.2⟩

/-! ## An update that expired -/

namespace Sample

/-- An update of `api-key` stops after its preparation and expires. -/
def stalled : List ServiceAction :=
  founding ++ creating 1 "a" "k1" ++ .start 2 (.update (rotation "ctl-a" "k2")) :: steps 2
    [plain, plain, plain, plain, fresh "b", plain, fresh "op-b", plain, plain, plain] ++
  [.environment (.tick day), .environment (.replicate "sec-a" (.control "ctl-b"))]

/-- The pass lists its workflow. -/
def listingB (_ : Request) : Choice := { rows := [("sec-a", .control "ctl-b")] }

/-- The update owns the head, its workflow is due, and a pass that lists it records no recovery. -/
theorem stalled_checked : (service.run (World.initial Cloud.empty) stalled).any (fun w => decide
    ((w.store.head "sec-a").bind HeadRecord.leaseOwner = some "op-b" ∧
      (∀ key ∈ [("sec-a", WorkflowSk.control "ctl-b")], ∃ row ∈ w.store.index key.1 key.2,
        row.workflowDue.any (· < w.store.now) = true ∧
          w.store.workflow key.1 key.2 = some row) ∧
      (w.store.head "sec-a").any (·.workflowState = .ready) = true ∧
      (service.finish 3 listingB Recovery.handler w.store).any
        (fun result => result.2.history.length = w.store.history.length) = true)) = true := by
  decide +kernel

theorem stalled_runs : (service.run (World.initial Cloud.empty) stalled).isSome = true :=
  Option.isSome_of_any stalled_checked

/-- Where a pass finds it. -/
abbrev expiring : ServiceWorld := reached Cloud.empty _ stalled_runs

theorem calm_listingB : Calm listingB := ⟨fun _ => rfl, fun _ => rfl⟩

theorem expired_listingB : ExpiredListing expiring.store [("sec-a", .control "ctl-b")] where
  nodup := List.nodup_singleton _
  overdue := (reached_of_any stalled_checked).2.1

end Sample

/-- **An expired update ends the pass.**  It still owns its head, so that the transaction
that would remove the head of a create is refused. -/
theorem recovery_ends : ¬ ∀ init, Initial init → ∀ actions w,
    service.run (World.initial init) actions = some w → ∀ pid choose page,
      ExpiredListing w.store page → Calm choose →
        (choose (.expiredPrepared w.store.now)).rows = page → ∀ outcome s',
          service.finish pid choose Recovery.handler w.store = some (outcome, s') →
            RecoversAll w.store s' page := by
  intro hall
  obtain ⟨-, -, -, hends⟩ := reached_of_any Sample.stalled_checked
  obtain ⟨⟨outcome, s'⟩, hfinish, hlength⟩ := (Option.any_eq_true _ _).mp hends
  have hrecovers := hall _ .empty _ _ (run_reached Sample.stalled_runs) 3 Sample.listingB _
    Sample.expired_listingB Sample.calm_listingB rfl outcome s' hfinish
  have hsame : s'.history.length = Sample.expiring.store.history.length := of_decide_eq_true hlength
  have hlonger := congrArg List.length hrecovers.reconciled
  rw [List.length_append, List.length_singleton, hsame] at hlonger
  exact (Nat.lt_succ_self _).ne hlonger

theorem recovery_settles_stalled : ∃ outcome s',
    service.finish 3 Sample.listingB Recovery.handler Sample.expiring.store = some (outcome, s') ∧
      ¬ RecoversAll Sample.expiring.store s' [("sec-a", .control "ctl-b")] := by
  have hsettles : (∃ outcome s', service.finish 3 _ _ _ = some (outcome, s') ∧ _) ∧ _ :=
    recovery_settles .empty (run_reached Sample.stalled_runs) Sample.expired_listingB
      Sample.calm_listingB rfl
  obtain ⟨⟨outcome, s', hfinish, -, hrecovers⟩, -⟩ := hsettles
  refine ⟨outcome, s', hfinish, fun h => ?_⟩
  obtain ⟨-, -, hready, -⟩ := reached_of_any Sample.stalled_checked
  obtain ⟨head, hhead, hstate⟩ := (Option.any_eq_true _ _).mp hready
  obtain ⟨row, -, -, hrow⟩ := Sample.expired_listingB.overdue _ (List.mem_singleton.mpr rfl)
  rcases hrecovers.mp h _ (List.mem_singleton.mpr rfl) row hrow with hnone | ⟨other, hother, -, hprepared⟩
  · cases hnone.symm.trans hhead
  · obtain rfl := Option.some.inj (hhead.symm.trans hother)
    cases hprepared.symm.trans (of_decide_eq_true hstate)

end Hemlig
