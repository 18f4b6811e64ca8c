import Hemlig.Verification.Origins
import Hemlig.Verification.RetentionPass

/-!
# One recovery pass

What a recovery pass that runs undisturbed does with the expired operations it lists.  It
marks the workflows of an operation; then it removes the head of a create that still holds
it, skips an operation whose secret is gone, and ends at any other one, since the refusal
of a transaction is not the refusal it expects.
-/

namespace Hemlig

open Concurrent Store DynamoRepository

variable {init s s' : Cloud} {pid : ℕ} {choose : Request → Choice}

/-! ## Marking the workflows of an operation -/

/-- The rows under some keys were marked, and nothing else has changed. -/
structure Marked (s s' : Cloud) (keys : List RowKey) : Prop where
  row : ∀ key ∈ keys, s'.workflow key.1 key.2 = (s.workflow key.1 key.2).map retryableRow
  other : ∀ key : Key, (∀ row ∈ keys, key ≠ .workflow row.1 row.2) → s'.table.get key = s.table.get key
  rest : s' = { s with table := s'.table }

theorem Marked.nil (s : Cloud) : Marked s s [] := ⟨nofun, fun _ _ => rfl, rfl⟩

/-- The rows under the keys are still to be marked. -/
def Markable (s : Cloud) (keys : List RowKey) : Prop :=
  ∀ key ∈ keys, ∃ row, s.workflow key.1 key.2 = some row ∧ row.workflowState = .prepared

theorem Marked.row_other (h : Marked s s' keys) {key : RowKey} (hkey : key ∉ keys) :
    s'.workflow key.1 key.2 = s.workflow key.1 key.2 := by
  refine h.other _ fun row hrow heq => hkey ?_
  obtain ⟨hu, hsk⟩ := Key.workflow.inj heq
  rwa [Prod.ext hu hsk]

theorem marked_one (key : RowKey) :
    Marked s { s with table := (markRetryableWrite key.1 key.2).apply s.table } [key] where
  row other hmem := by
    obtain rfl := List.mem_singleton.mp hmem
    exact Write.get_apply_self _ _
  other other hne := Write.get_apply_of_ne _ _ (hne key (List.mem_singleton.mpr rfl))
  rest := rfl

theorem Marked.cons {s₁ s₂ s₃ : Cloud} {key : RowKey} {keys keys' : List RowKey}
    (h : Marked s₁ s₂ [key]) (h' : Marked s₂ s₃ keys) (hkey : key ∉ keys)
    (hperm : (key :: keys).Perm keys') : Marked s₁ s₃ keys' where
  row other hmem := by
    rcases List.mem_cons.mp (hperm.mem_iff.mpr hmem) with rfl | hmem
    · rw [h'.row_other hkey]
      exact h.row _ (List.mem_singleton.mpr rfl)
    · rw [h'.row other hmem, h.row_other]
      rintro hsame
      rw [List.mem_singleton.mp hsame] at hmem
      exact hkey hmem
  other other hne := by
    refine (h'.other other fun row hmem => ?_).trans (h.other other fun row hmem => ?_)
    · exact hne row (hperm.mem_iff.mp (List.mem_cons_of_mem _ hmem))
    · rw [List.mem_singleton.mp hmem]
      exact hne key (hperm.mem_iff.mp List.mem_cons_self)
  rest := h'.rest.trans (by rw [h.rest])

theorem finish_attempt_ok {α : Type} {program : Service α} {value : α}
    (h : service.finish pid choose program s = some (.ok value, s')) :
    service.finish pid choose (Recovery.attempt program) s = some (.ok (.ok value), s') := by
  refine (System.finish_recover _ _ _).trans ?_
  rw [show service.finish pid choose (Except.ok <$> program) s = some (.ok (.ok value), s') from
    System.finish_bind_ok h]
  rfl

variable (pid) in
/-- **All workflows of an operation are marked**, in whatever order the updates settle. -/
theorem finish_settle (hchoose : Faultless choose) (left : ℕ) :
    ∀ {s : Cloud} {pending : List IndexedWorkflow}, pending.length = left →
      (pending.map IndexedWorkflow.key).Nodup → Markable s (pending.map IndexedWorkflow.key) →
      ∃ s', service.finish pid choose (Recovery.markAll.settle left pending) s =
        some (.ok (List.replicate left (.ok true)), s') ∧
          Marked s s' (pending.map IndexedWorkflow.key) := by
  induction left with
  | zero =>
      intro s pending hlength hnodup hmarkable
      obtain rfl := List.length_eq_zero_iff.mp hlength
      exact ⟨s, rfl, .nil s⟩
  | succ left ih =>
      intro s pending hlength hnodup hmarkable
      have hindex : (choose .choose).number % pending.length < pending.length :=
        Nat.mod_lt _ (by omega)
      obtain ⟨workflow, hworkflow⟩ : ∃ workflow, pending[(choose .choose).number % pending.length]? =
          some workflow := ⟨_, List.getElem?_eq_getElem hindex⟩
      have hperm : (workflow :: pending.eraseIdx ((choose .choose).number % pending.length)).Perm
          pending := by
        obtain ⟨hlt, rfl⟩ := List.getElem?_eq_some_iff.mp hworkflow
        exact List.getElem_cons_eraseIdx_perm hlt
      have hkeys := hperm.map IndexedWorkflow.key
      have hnodup' := hkeys.nodup_iff.mpr hnodup
      obtain ⟨hnot, hrest⟩ := List.nodup_cons.mp hnodup'
      obtain ⟨row, hrow, hprepared⟩ := hmarkable workflow.key
        (hkeys.mem_iff.mp List.mem_cons_self)
      have hmark : service.finish pid choose (markRetryable workflow) s = some (.ok true,
          { s with table := (markRetryableWrite workflow.secretUid workflow.sk).apply s.table }) :=
        finish_conditionally_ok (finish_write hchoose
          (Write.holds_update.mpr ⟨row, hrow, by simpa using hprepared⟩))
      have hone := marked_one (s := s) workflow.key
      obtain ⟨s', hfinish, hmarked⟩ := @ih { s with table :=
          (markRetryableWrite workflow.secretUid workflow.sk).apply s.table }
        (pending.eraseIdx ((choose .choose).number % pending.length))
        (by rw [List.length_eraseIdx_of_lt hindex, hlength, Nat.add_sub_cancel]) hrest
        fun key hmem => by
          obtain ⟨other, hother, hstate⟩ :=
            hmarkable key (hkeys.mem_iff.mp (List.mem_cons_of_mem _ hmem))
          refine ⟨other, (hone.row_other fun hsame => hnot ?_).trans hother, hstate⟩
          rwa [← List.mem_singleton.mp hsame]
      refine ⟨s', ?_, hone.cons hmarked hnot hkeys⟩
      have hchosen : service.finish pid choose (send .choose) s =
          some (.ok (choose .choose).number, s) := finish_send hchoose rfl
      refine (System.finish_bind_ok hchosen).trans ?_
      rw [hworkflow]
      refine (System.finish_bind_ok (finish_attempt_ok hmark)).trans ?_
      exact (System.finish_bind_ok hfinish).trans rfl

theorem firstError_replicate (left : ℕ) :
    Recovery.firstError (List.replicate left (.ok true)) = .ok (List.replicate left true) := by
  induction left with
  | zero => rfl
  | succ left ih =>
      rw [List.replicate_succ, Recovery.firstError, ih]
      rfl

variable (pid) in
theorem finish_markAll (hchoose : Faultless choose) {workflows : List IndexedWorkflow}
    (hnodup : (workflows.map IndexedWorkflow.key).Nodup)
    (hmarkable : Markable s (workflows.map IndexedWorkflow.key)) :
    ∃ s', service.finish pid choose (Recovery.markAll workflows) s =
      some (.ok (List.replicate workflows.length true), s') ∧
        Marked s s' (workflows.map IndexedWorkflow.key) := by
  obtain ⟨s', hfinish, hmarked⟩ := finish_settle pid hchoose _ rfl hnodup hmarkable
  refine ⟨s', (System.finish_bind_ok hfinish).trans ?_, hmarked⟩
  rw [firstError_replicate]
  rfl

/-! ## One operation -/

/-- The operation still holds the head it created. -/
def Cloud.HoldsCreate (s : Cloud) (u operationId : String) : Prop :=
  ∃ head, s.head u = some head ∧ head.leaseOwner = some operationId ∧ head.workflowState = .prepared

/-- Every head that an operation created is under its name. -/
def Cloud.Nameful (s : Cloud) (u : String) : Prop :=
  ∀ head, s.head u = some head → head.workflowState = .prepared →
    ∃ lookup, s.lookup head.environment head.secretId = some lookup ∧ lookup.secretUid = u

/-- What a pass does with an operation that it gets over. -/
structure Recovered (s s' : Cloud) (u operationId : String) (keys : List RowKey) : Prop where
  row : ∀ key ∈ keys, s'.workflow key.1 key.2 = (s.workflow key.1 key.2).map retryableRow
  rowOther : ∀ key, key ∉ keys → s'.workflow key.1 key.2 = s.workflow key.1 key.2
  head : s'.head u = none
  headOther : ∀ u', u' ≠ u → s'.head u' = s.head u'
  lookup : ∀ head, s.head u = some head → s'.lookup head.environment head.secretId = none
  lookupOther : ∀ environment secretId lookup, s.lookup environment secretId = some lookup →
    lookup.secretUid ≠ u → s'.lookup environment secretId = some lookup
  lookupNone : ∀ environment secretId, s.lookup environment secretId = none →
    s'.lookup environment secretId = none
  audit : s'.audit = s.audit ++ ((s.head u).map fun head =>
    Recovery.expiredEvent operationId head.environment head.secretId).toList
  history : s'.history = s.history
  known : s'.known = s.known
  now : s'.now = s.now

theorem Marked.head (h : Marked s s' keys) (u : String) : s'.head u = s.head u :=
  h.other _ fun _ _ => nofun

theorem Marked.lookup (h : Marked s s' keys) (environment secretId : String) :
    s'.lookup environment secretId = s.lookup environment secretId :=
  h.other _ fun _ _ => nofun

theorem Marked.frame (h : Marked s s' keys) : s'.audit = s.audit ∧ s'.history = s.history ∧
    s'.known = s.known ∧ s'.now = s.now := by
  rw [h.rest]
  exact ⟨rfl, rfl, rfl, rfl⟩

section Operation

variable {u operationId : String} {workflow : IndexedWorkflow} {rest : List IndexedWorkflow}
  (hcalm : Calm choose) (huid : secretIdentityFromPk u = some u) (hfirst : workflow.secretUid = u)
  (hnodup : ((workflow :: rest).map IndexedWorkflow.key).Nodup)
  (hmarkable : Markable s ((workflow :: rest).map IndexedWorkflow.key))
include hcalm huid hfirst hnodup hmarkable

variable (pid operationId) in
/-- First its workflows are marked and its head is read. -/
theorem finish_marked : ∃ s', Marked s s' ((workflow :: rest).map IndexedWorkflow.key) ∧
    service.finish pid choose (Recovery.recoverOperation operationId (workflow :: rest)) s =
      service.finish pid choose (match s.head u with
        | none => pure ()
        | some head => Recovery.settleHead operationId u head) s' := by
  obtain ⟨s', hfinish, hmarked⟩ := finish_markAll pid hcalm.faultless hnodup hmarkable
  refine ⟨s', hmarked, (System.finish_bind_ok hfinish).trans ?_⟩
  have hget : service.finish pid choose (getHeadBySecretUid u) s' = some (.ok (s.head u), s') := by
    refine finish_send hcalm.faultless ?_
    show some (Except.ok (s'.head u), s') = _
    rw [hmarked.head]
  simp only [List.length_cons, List.replicate_succ, List.any_cons, id_eq, Bool.true_or, if_true,
    hfirst, huid]
  refine (System.finish_bind_ok hget).trans ?_
  cases s.head u <;> rfl

/-- An operation whose secret is gone is skipped. -/
theorem recover_absent (hnone : s.head u = none) : ∃ s',
    service.finish pid choose (Recovery.recoverOperation operationId (workflow :: rest)) s =
      some (.ok (), s') ∧
    Recovered s s' u operationId ((workflow :: rest).map IndexedWorkflow.key) := by
  obtain ⟨s', hmarked, hfinish⟩ := finish_marked pid operationId hcalm huid
    hfirst hnodup hmarkable
  rw [hnone] at hfinish
  obtain ⟨haudit, hhistory, hknown, hnow⟩ := hmarked.frame
  refine ⟨s', hfinish.trans rfl, hmarked.row, fun key hkey => hmarked.row_other hkey,
    (hmarked.head u).trans hnone, fun u' _ => hmarked.head u', fun head hhead => ?_,
    fun environment secretId lookup hlookup _ => (hmarked.lookup _ _).trans hlookup,
    fun environment secretId hlookup => (hmarked.lookup _ _).trans hlookup, ?_, hhistory, hknown, hnow⟩
  · cases hnone.symm.trans hhead
  · rw [haudit, hnone]
    exact (List.append_nil _).symm

/-- A create that holds its head loses it, and its name. -/
theorem recover_create (hnamed : s.Nameful u) (hholds : s.HoldsCreate u operationId) : ∃ s',
    service.finish pid choose (Recovery.recoverOperation operationId (workflow :: rest)) s =
      some (.ok (), s') ∧
    Recovered s s' u operationId ((workflow :: rest).map IndexedWorkflow.key) := by
  obtain ⟨marked, hmarked, hfinish⟩ := finish_marked pid operationId hcalm
    huid hfirst hnodup hmarkable
  obtain ⟨head, hhead, howner, hprepared⟩ := hholds
  obtain ⟨lookup, hlookup, hown⟩ := hnamed head hhead hprepared
  have hall : ∀ write ∈ abortPreparedCreateWrites head.environment head.secretId u operationId,
      write.holds marked.table = true := by
    intro write hmem
    rcases List.mem_cons.mp hmem with rfl | hmem
    · exact Write.holds_delete.mpr ⟨head, (hmarked.head u).trans hhead, by simp [howner, hprepared]⟩
    · obtain rfl := List.mem_singleton.mp hmem
      exact Write.holds_delete.mpr ⟨lookup, (hmarked.lookup _ _).trans hlookup, by simpa using hown⟩
  obtain ⟨table, htransact⟩ : ∃ table, transact marked.table []
      (abortPreparedCreateWrites head.environment head.secretId u operationId) = .ok table :=
    ⟨_, transact_of_holds (by simp [abortPreparedCreateWrites])
      (by simp [abortPreparedCreateWrites, maximumWrites]) hall⟩
  have habort : service.finish pid choose (abortPreparedCreate head.environment head.secretId u
      operationId) marked = some (.ok true, { marked with table := table }) := by
    refine finish_conditionally_ok (finish_send hcalm.faultless ?_)
    simp only [perform, hcalm.conflicts, htransact, Cloud.recordAny_none]
  obtain ⟨haudit, hhistory, hknown, hnow⟩ := hmarked.frame
  have hsame : ∀ key, key ≠ .head u → key ≠ .lookup head.environment head.secretId →
      table.get key = marked.table.get key := fun key hkey hkey' =>
    get_of_not_mem htransact (by simp [abortPreparedCreateWrites, hkey, hkey'])
  rw [hhead] at hfinish
  have hrelease : service.finish pid choose (Recovery.releaseHead operationId u head) marked =
      some (.ok true, { marked with table := table }) := (System.finish_bind_ok habort).trans rfl
  have haudited : service.finish pid choose (Recovery.settleHead operationId u head) marked =
      some (.ok (), { marked with
        table := table
        audit := marked.audit ++
          [Recovery.expiredEvent operationId head.environment head.secretId] }) :=
    (System.finish_bind_ok hrelease).trans (finish_send hcalm.faultless rfl)
  refine ⟨_, hfinish.trans haudited, fun key hkey => ?_, fun key hkey => ?_, ?_, fun u' hne => ?_,
    fun other hother => ?_, fun environment secretId other hother hne => ?_,
    fun environment secretId hnone => ?_, ?_, hhistory, hknown, hnow⟩
  · exact (hsame (.workflow key.1 key.2) (by simp) (by simp)).trans (hmarked.row key hkey)
  · exact (hsame (.workflow key.1 key.2) (by simp) (by simp)).trans (hmarked.row_other hkey)
  · exact (get_of_delete htransact List.mem_cons_self).elim fun _ h => h.2.2
  · exact (hsame (.head u') (by simpa using hne) (by simp)).trans (hmarked.head u')
  · obtain rfl := Option.some.inj (hhead.symm.trans hother)
    exact (get_of_delete htransact (List.mem_cons_of_mem _ (List.mem_singleton.mpr rfl))).elim
      fun _ h => h.2.2
  · refine (hsame (.lookup environment secretId) (by simp) ?_).trans ((hmarked.lookup _ _).trans hother)
    rintro heq
    obtain ⟨rfl, rfl⟩ := Key.lookup.inj heq
    obtain rfl := Option.some.inj (hlookup.symm.trans hother)
    exact hne hown
  · by_cases hkey : Key.lookup environment secretId = .lookup head.environment head.secretId
    · obtain ⟨rfl, rfl⟩ := Key.lookup.inj hkey
      cases hnone.symm.trans hlookup
    · exact (hsame (.lookup environment secretId) (by simp) hkey).trans ((hmarked.lookup _ _).trans hnone)
  · rw [hhead]
    exact congrArg (· ++ _) haudit

variable (pid) in
/-- **Any other operation ends the pass**: the transaction is refused. -/
theorem recover_refused {head : HeadRecord} (hhead : s.head u = some head)
    (hnot : ¬ s.HoldsCreate u operationId) : ∃ failure s',
    service.finish pid choose (Recovery.recoverOperation operationId (workflow :: rest)) s =
      some (.error failure, s') ∧ s'.history = s.history := by
  obtain ⟨marked, hmarked, hfinish⟩ := finish_marked pid operationId hcalm
    huid hfirst hnodup hmarkable
  have hrefused : (Write.delete (.head u) (fun head =>
      head.leaseOwner = some operationId ∧ head.workflowState = .prepared) : TableWrite).holds
        marked.table = false := by
    rw [Bool.eq_false_iff]
    intro hholds
    obtain ⟨other, hother, hcondition⟩ := Write.holds_delete.mp hholds
    exact hnot ⟨other, (hmarked.head u).symm.trans hother, by simpa using hcondition⟩
  obtain ⟨reasons, htransact⟩ : ∃ reasons, transact marked.table []
      (abortPreparedCreateWrites head.environment head.secretId u operationId) =
        .error (.canceled reasons) :=
    ⟨_, transact_of_not_holds (by simp [abortPreparedCreateWrites])
      (by simp [abortPreparedCreateWrites, maximumWrites]) List.mem_cons_self hrefused⟩
  have habort : service.finish pid choose (abortPreparedCreate head.environment head.secretId u
      operationId) marked = some (.error (.aws (.transactionCanceled reasons)), marked) := by
    refine finish_conditionally_error (finish_send_error hcalm.faultless ?_) rfl
    simp only [perform, hcalm.conflicts, htransact]
  rw [hhead] at hfinish
  refine ⟨_, marked, hfinish.trans (System.finish_bind_error (System.finish_bind_error habort)),
    hmarked.frame.2.1⟩

end Operation

/-! ## All operations -/

section Operations

variable {listed : String → List IndexedWorkflow} {uidOf : String → String}

/-- What a pass knows of the operations that are still to come. -/
structure Awaiting (s : Cloud) (listed : String → List IndexedWorkflow) (uidOf : String → String)
    (operations : List String) : Prop where
  first : ∀ operationId ∈ operations, listed operationId ≠ []
  uid : ∀ operationId ∈ operations, ∀ workflow ∈ listed operationId,
    workflow.secretUid = uidOf operationId
  identity : ∀ operationId ∈ operations,
    secretIdentityFromPk (uidOf operationId) = some (uidOf operationId)
  nodup : ∀ operationId ∈ operations, ((listed operationId).map IndexedWorkflow.key).Nodup
  apart : ∀ operationId ∈ operations, ∀ other ∈ operations, operationId ≠ other →
    ∀ key ∈ (listed operationId).map IndexedWorkflow.key,
      key ∉ (listed other).map IndexedWorkflow.key
  markable : ∀ operationId ∈ operations, Markable s ((listed operationId).map IndexedWorkflow.key)
  named : ∀ operationId ∈ operations, s.Nameful (uidOf operationId)
  /-- The create of a secret is its only operation. -/
  alone : ∀ operationId ∈ operations, ∀ other ∈ operations, operationId ≠ other →
    uidOf operationId = uidOf other → ¬ s.HoldsCreate (uidOf operationId) operationId

/-- The pass gets over an operation whose secret is gone, and over a create that holds its
head. -/
def Cloud.Passable (s : Cloud) (u operationId : String) : Prop :=
  s.head u = none ∨ s.HoldsCreate u operationId

/-- What a pass does that gets over all operations. -/
structure Settled (s s' : Cloud) (listed : String → List IndexedWorkflow) (uidOf : String → String)
    (operations : List String) : Prop where
  row : ∀ operationId ∈ operations, ∀ key ∈ (listed operationId).map IndexedWorkflow.key,
    s'.workflow key.1 key.2 = (s.workflow key.1 key.2).map retryableRow
  rowOther : ∀ key, (∀ operationId ∈ operations,
    key ∉ (listed operationId).map IndexedWorkflow.key) →
      s'.workflow key.1 key.2 = s.workflow key.1 key.2
  head : ∀ operationId ∈ operations, s'.head (uidOf operationId) = none
  headOther : ∀ u, (∀ operationId ∈ operations, u ≠ uidOf operationId) → s'.head u = s.head u
  headNone : ∀ u, s.head u = none → s'.head u = none
  lookup : ∀ operationId ∈ operations, ∀ head, s.head (uidOf operationId) = some head →
    s'.lookup head.environment head.secretId = none
  lookupNone : ∀ environment secretId, s.lookup environment secretId = none →
    s'.lookup environment secretId = none
  audit : s'.audit = s.audit ++ operations.flatMap fun operationId =>
    ((s.head (uidOf operationId)).map fun head =>
      Recovery.expiredEvent operationId head.environment head.secretId).toList
  history : s'.history = s.history
  known : s'.known = s.known
  now : s'.now = s.now

theorem Settled.nil (s : Cloud) : Settled s s listed uidOf [] where
  row := nofun
  rowOther _ _ := rfl
  head := nofun
  headOther _ _ := rfl
  headNone _ hnone := hnone
  lookup := nofun
  lookupNone _ _ hnone := hnone
  audit := (List.append_nil _).symm
  history := rfl
  known := rfl
  now := rfl

theorem Awaiting.tail {operationId : String} {rest : List String}
    (h : Awaiting s listed uidOf (operationId :: rest)) : Awaiting s listed uidOf rest where
  first other hmem := h.first other (List.mem_cons_of_mem _ hmem)
  uid other hmem := h.uid other (List.mem_cons_of_mem _ hmem)
  identity other hmem := h.identity other (List.mem_cons_of_mem _ hmem)
  nodup other hmem := h.nodup other (List.mem_cons_of_mem _ hmem)
  apart first hfirst second hsecond :=
    h.apart first (List.mem_cons_of_mem _ hfirst) second (List.mem_cons_of_mem _ hsecond)
  markable other hmem := h.markable other (List.mem_cons_of_mem _ hmem)
  named other hmem := h.named other (List.mem_cons_of_mem _ hmem)
  alone first hfirst second hsecond :=
    h.alone first (List.mem_cons_of_mem _ hfirst) second (List.mem_cons_of_mem _ hsecond)

section Step

variable {operationId : String} {rest : List String}
  (h : Awaiting s listed uidOf (operationId :: rest)) (hne : operationId ∉ rest)
  (hpassable : s.Passable (uidOf operationId) operationId)
  (hrecovered : Recovered s s' (uidOf operationId) operationId
    ((listed operationId).map IndexedWorkflow.key))
include h hne hpassable hrecovered

/-- The heads of the operations to come are as they were. -/
theorem head_of_recovered {other : String} (hother : other ∈ rest) :
    s'.head (uidOf other) = s.head (uidOf other) := by
  by_cases huid : uidOf other = uidOf operationId
  · have hdistinct : operationId ≠ other := by
      rintro rfl
      exact hne hother
    rw [huid, hrecovered.head]
    rcases hpassable with hnone | hholds
    · exact hnone.symm
    · exact (h.alone _ List.mem_cons_self _ (List.mem_cons_of_mem _ hother) hdistinct huid.symm
        hholds).elim
  · exact hrecovered.headOther _ huid

theorem Awaiting.recovered : Awaiting s' listed uidOf rest := by
  have hhead : ∀ {other}, other ∈ rest → s'.head (uidOf other) = s.head (uidOf other) :=
    head_of_recovered h hne hpassable hrecovered
  refine { h.tail with markable := ?_, named := ?_, alone := ?_ }
  · intro other hother key hkey
    obtain ⟨row, hrow, hprepared⟩ := h.tail.markable other hother key hkey
    refine ⟨row, (hrecovered.rowOther key ?_).trans hrow, hprepared⟩
    refine h.apart other (List.mem_cons_of_mem _ hother) operationId List.mem_cons_self ?_ key hkey
    rintro rfl
    exact hne hother
  · intro other hother head hhead' hprepared
    rw [hhead hother] at hhead'
    obtain ⟨lookup, hlookup, hown⟩ := h.tail.named other hother head hhead' hprepared
    refine ⟨lookup, hrecovered.lookupOther _ _ _ hlookup fun hsame => ?_, hown⟩
    have hgone := hrecovered.head
    rw [← hsame, hown, hhead hother, hhead'] at hgone
    cases hgone
  · intro first hfirst second hsecond hdistinct huid hholds
    refine h.tail.alone first hfirst second hsecond hdistinct huid ?_
    rwa [Cloud.HoldsCreate, ← hhead hfirst]

theorem Settled.cons {s'' : Cloud} (hsettled : Settled s' s'' listed uidOf rest) :
    Settled s s'' listed uidOf (operationId :: rest) where
  row other hmem key hkey := by
    have hapart : ∀ {first second}, first ∈ operationId :: rest → second ∈ operationId :: rest →
        first ≠ second → key ∈ (listed first).map IndexedWorkflow.key →
          key ∉ (listed second).map IndexedWorkflow.key :=
      fun hfirst hsecond hdistinct => h.apart _ hfirst _ hsecond hdistinct key
    rcases List.mem_cons.mp hmem with rfl | hmem'
    · refine (hsettled.rowOther key fun second hsecond => ?_).trans (hrecovered.row key hkey)
      refine hapart List.mem_cons_self (List.mem_cons_of_mem _ hsecond) ?_ hkey
      rintro rfl
      exact hne hsecond
    · refine (hsettled.row other hmem' key hkey).trans (congrArg _ (hrecovered.rowOther key ?_))
      refine hapart hmem List.mem_cons_self ?_ hkey
      rintro rfl
      exact hne hmem'
  rowOther key hkey :=
    (hsettled.rowOther key fun other hmem => hkey other (List.mem_cons_of_mem _ hmem)).trans
      (hrecovered.rowOther key (hkey _ List.mem_cons_self))
  head other hmem := by
    rcases List.mem_cons.mp hmem with rfl | hmem
    · exact hsettled.headNone _ hrecovered.head
    · exact hsettled.head other hmem
  headOther u hu :=
    (hsettled.headOther u fun other hmem => hu other (List.mem_cons_of_mem _ hmem)).trans
      (hrecovered.headOther u (hu _ List.mem_cons_self))
  headNone u hnone := by
    refine hsettled.headNone u ?_
    by_cases hu : u = uidOf operationId
    · exact hu ▸ hrecovered.head
    · exact (hrecovered.headOther u hu).trans hnone
  lookup other hmem head hhead := by
    rcases List.mem_cons.mp hmem with rfl | hmem
    · exact hsettled.lookupNone _ _ (hrecovered.lookup head hhead)
    · exact hsettled.lookup other hmem head
        ((head_of_recovered h hne hpassable hrecovered hmem).trans hhead)
  lookupNone environment secretId hnone :=
    hsettled.lookupNone _ _ (hrecovered.lookupNone _ _ hnone)
  audit := by
    rw [hsettled.audit, hrecovered.audit, List.append_assoc, List.flatMap_cons]
    refine congrArg (s.audit ++ ·) (congrArg (_ ++ ·) ?_)
    refine List.flatMap_congr fun other hmem => ?_
    rw [head_of_recovered h hne hpassable hrecovered hmem]
  history := hsettled.history.trans hrecovered.history
  known := hsettled.known.trans hrecovered.known
  now := hsettled.now.trans hrecovered.now

end Step

variable (pid) in
/-- **What a pass does with all operations.**  The induction is on the operations still to
come; those before were passable. -/
theorem finish_operations (hcalm : Calm choose) (operations : List String) :
    ∀ {s : Cloud}, operations.Nodup → Awaiting s listed uidOf operations →
      ((∀ operationId ∈ operations, s.Passable (uidOf operationId) operationId) →
        ∃ s', service.finish pid choose (operations.forM fun operationId =>
          Recovery.recoverOperation operationId (listed operationId)) s = some (.ok (), s') ∧
            Settled s s' listed uidOf operations) ∧
      ((¬ ∀ operationId ∈ operations, s.Passable (uidOf operationId) operationId) →
        ∃ failure s', service.finish pid choose (operations.forM fun operationId =>
          Recovery.recoverOperation operationId (listed operationId)) s = some (.error failure, s') ∧
            s'.history = s.history) := by
  induction operations with
  | nil => exact fun _ _ => ⟨fun _ => ⟨_, rfl, .nil _⟩, fun hnot => (hnot nofun).elim⟩
  | cons operationId rest ih =>
      intro s hnodup hawaiting
      obtain ⟨hne, hrest⟩ := List.nodup_cons.mp hnodup
      obtain ⟨workflow, others, hlisted⟩ :=
        List.exists_cons_of_ne_nil (hawaiting.first operationId List.mem_cons_self)
      have hfirst : workflow.secretUid = uidOf operationId :=
        hawaiting.uid operationId List.mem_cons_self workflow (by rw [hlisted]; exact List.mem_cons_self)
      have hkeys := hawaiting.nodup operationId List.mem_cons_self
      have hmarkable := hawaiting.markable operationId List.mem_cons_self
      have hidentity := hawaiting.identity operationId List.mem_cons_self
      rw [hlisted] at hkeys hmarkable
      by_cases hpassable : s.Passable (uidOf operationId) operationId
      · obtain ⟨after, hfinish, hrecovered⟩ : ∃ after,
            service.finish pid choose (Recovery.recoverOperation operationId (workflow :: others)) s =
              some (.ok (), after) ∧
            Recovered s after (uidOf operationId) operationId
              ((workflow :: others).map IndexedWorkflow.key) := by
          rcases hpassable with hnone | hholds
          · exact recover_absent hcalm hidentity hfirst hkeys hmarkable hnone
          · exact recover_create hcalm hidentity hfirst hkeys hmarkable
              (hawaiting.named _ List.mem_cons_self) hholds
        rw [← hlisted] at hfinish hrecovered
        have hhead : ∀ {other}, other ∈ rest → after.head (uidOf other) = s.head (uidOf other) :=
          head_of_recovered hawaiting hne hpassable hrecovered
        have hsame : ∀ other ∈ rest, after.Passable (uidOf other) other ↔ s.Passable (uidOf other) other := by
          intro other hother
          rw [Cloud.Passable, Cloud.Passable, Cloud.HoldsCreate, Cloud.HoldsCreate, hhead hother]
        obtain ⟨hok, herror⟩ := ih hrest (hawaiting.recovered hne hpassable hrecovered)
        refine ⟨fun hall => ?_, fun hnot => ?_⟩
        · obtain ⟨s', hlast, hsettled⟩ := hok fun other hother =>
            (hsame other hother).mpr (hall other (List.mem_cons_of_mem _ hother))
          exact ⟨s', (System.finish_bind_ok hfinish).trans hlast,
            .cons hawaiting hne hpassable hrecovered hsettled⟩
        · obtain ⟨failure, s', hlast, hhistory⟩ := herror fun hall => hnot fun other hother => by
            rcases List.mem_cons.mp hother with rfl | hother
            · exact hpassable
            · exact (hsame other hother).mp (hall other hother)
          exact ⟨failure, s', (System.finish_bind_ok hfinish).trans hlast,
            hhistory.trans hrecovered.history⟩
      · refine ⟨fun hall => (hpassable (hall _ List.mem_cons_self)).elim, fun _ => ?_⟩
        obtain ⟨hsome, hnot⟩ := not_or.mp hpassable
        obtain ⟨head, hhead⟩ := Option.ne_none_iff_exists'.mp hsome
        obtain ⟨failure, s', hfinish, hhistory⟩ :=
          recover_refused pid hcalm hidentity hfirst hkeys hmarkable hhead hnot
        rw [← hlisted] at hfinish
        exact ⟨failure, s', System.finish_bind_error hfinish, hhistory⟩

end Operations

end Hemlig
