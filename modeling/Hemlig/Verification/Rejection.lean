import Hemlig.Concurrent.Tape
import Hemlig.Services.Consumers
import Hemlig.Verification.Requests

/-!
# Rejected bundles

What `ConsumerService.resume` does once API Gateway has reported warnings on the candidate of an
enrollment.  The call runs alone, on a tape of everything the environment answers.  It publishes
the current bundle again, which succeeds or not by the answers of API Gateway alone
(`Gateway.confirmed`), and only then fails the enrollment in one transaction.
-/

namespace Hemlig

namespace Store

variable {K : Type} {V : K → Type} [DecidableEq K]

/-- A well-formed transaction whose conditions hold is made unless one of its writes meets another
transaction. -/
theorem transact_ok_iff {table : Table K V} {writes : List (Write K V)}
    (hnodup : (writes.map Write.key).Nodup) (hsize : writes.length ≤ maximumWrites)
    (hholds : ∀ write ∈ writes, write.holds table = true) (conflicts : List ℕ) :
    (∃ table', transact table conflicts writes = .ok table') ↔
      ∀ index < writes.length, index ∉ conflicts := by
  have hreasons : (reasons table conflicts writes).all (· = .none) = true ↔
      ∀ index < writes.length, index ∉ conflicts := by
    simp only [reasons, List.all_eq_true, List.mem_mapIdx, decide_eq_true_eq]
    constructor
    · intro hall index hindex hmem
      have hnone := hall _ ⟨index, hindex, rfl⟩
      rw [if_pos hmem] at hnone
      cases hnone
    · rintro hapart _ ⟨index, hindex, rfl⟩
      rw [if_neg (hapart index hindex), if_pos (hholds _ (List.getElem_mem hindex))]
  rw [← hreasons]
  unfold transact
  rw [if_pos ⟨hnodup, hsize⟩]
  constructor
  · rintro ⟨table', h⟩
    by_contra hnot
    rw [if_neg hnot] at h
    cases h
  · intro hall
    exact ⟨_, if_pos hall⟩

end Store

open Concurrent Store DynamoRepository ConsumerService

variable {s s' : Cloud} {pid : ℕ} {tape front rest : List Choice}

/-! ## The answers of API Gateway -/

namespace Gateway

/-- What is left of the answers once the reports show the bundle as available, with no earlier one
that shows it with warnings. -/
def polled (uri versionId : String) : ℕ → List Choice → Option (List Choice)
  | left + 1, report :: rest =>
      if report.fault ≠ .none ∨ truststoreMatches report.domain uri versionId ∧
          report.domain.truststoreWarnings ≠ [] then none
      else if truststoreIsAvailable report.domain uri versionId then some rest
      else polled uri versionId left rest
  | _, _ => none

/-- What is left of the answers once the domain points to the bundle, or is being updated. -/
def attached (uri versionId : String) : List Choice → Option (List Choice)
  | current :: rest =>
      if current.fault ≠ .none then none
      else if !truststoreMatches current.domain uri versionId &&
          !truststoreUpdateInProgress current.domain then
        match rest with
        | update :: rest => if update.fault = .none ∧ update.refusal = none then some rest else none
        | [] => none
      else some rest
  | [] => none

/-- What is left of the answers once API Gateway has confirmed the bundle. -/
def confirmed (key versionId : String) (answers : List Choice) : Option (List Choice) :=
  (attached (truststoreUri key) versionId answers).bind (polled (truststoreUri key) versionId 4)

/-- What is left of the answers once the domain is back at the current bundle, if there is one. -/
def restored (bundle : Option String × Option String) : List Choice → Option (List Choice)
  | [] => none
  | read :: rest =>
      if read.fault ≠ .none then none
      else
        match bundle with
        | (some key, some versionId) => confirmed key versionId rest
        | _ => some rest

/-- The store makes a transaction of four writes whose conditions hold. -/
def Settles (answer : Choice) : Prop :=
  answer.fault ≠ .lost ∧ ∀ index < 4, index ∉ answer.conflicts

/-- The rollback is confirmed, and the store makes the transaction after it. -/
def RollsBack (bundle : Option String × Option String) (answers : List Choice) : Prop :=
  ∃ settle rest, restored bundle answers = some (settle :: rest) ∧ Settles settle

end Gateway

/-! ## Requests on a tape -/

/-- A request without a fault is answered. -/
theorem onTape_send {q : Request} {outcome : Except Failure (Answer q)}
    (h : service.onTape pid (send q) tape s = some (outcome, s')) :
    ∃ choice response, tape = [choice] ∧ exec pid q choice s = some (response, s') ∧
      outcome = response.mapError .aws := by
  obtain ⟨choice, rest, response, middle, rfl, hexec, hrest⟩ := System.onTape_call h
  cases response with
  | ok answer =>
      obtain ⟨rfl, rfl, rfl⟩ := System.onTape_ret hrest
      exact ⟨choice, .ok answer, rfl, hexec, rfl⟩
  | error failure =>
      obtain ⟨rfl, rfl, rfl⟩ := System.onTape_raise hrest
      exact ⟨choice, .error failure, rfl, hexec, rfl⟩

theorem exec_of_no_fault {q : Request} {choice : Choice} (hfault : choice.fault = .none) :
    exec pid q choice s = perform pid choice s q := by
  unfold exec
  rw [hfault]

/-- With a fault a request is not answered. -/
theorem exec_of_fault {q : Request} {choice : Choice} {response : Response q}
    (hfault : choice.fault ≠ .none) (h : exec pid q choice s = some (response, s')) :
    response = .error .unavailable := by
  unfold exec at h
  split at h
  · exact absurd ‹_› hfault
  · split at h <;> cases h
    rfl
  · split at h
    · cases h
    · obtain ⟨outcome, -, heq⟩ := Option.map_eq_some_iff.mp h
      exact ((Prod.mk.inj heq).1).symm

/-- The request changes no item. -/
def Request.TableKept (q : Request) : Prop :=
  match q with
  | .write _ | .writeNoted _ _ | .transactWrite _ _ => False
  | _ => True

theorem Request.TableKept.table {q : Request} (h : q.TableKept) {choice : Choice}
    {response : Response q} (hexec : exec pid q choice s = some (response, s')) :
    s'.table = s.table := by
  cases tableStep_exec hexec with
  | same hsame => exact hsame
  | write _ hq _ _ | noted _ _ hq _ _ | transact _ _ _ hq _ =>
      subst hq
      exact h.elim

theorem only_send {p : Request → Prop} {q : Request} (h : p q) : (send q).Only p :=
  ⟨h, fun response => by cases response <;> trivial⟩

/-! ## Publishing -/

theorem tableKept_poll (uri versionId : String) :
    ∀ left, (publishTruststore.poll uri versionId left).Only Request.TableKept
  | 0 => trivial
  | left + 1 => by
      refine .bind (only_send trivial) fun observed => .ite trivial (.ite trivial ?_)
      exact tableKept_poll uri versionId left

theorem tableKept_attach (current : DomainName) (uri versionId : String) :
    (publishTruststore.attach current uri versionId).Only Request.TableKept := by
  refine .ite (.recover (only_send trivial) fun failure => ?_) trivial
  exact .ite trivial trivial

theorem tableKept_publish (key versionId : String) :
    (publishTruststore key versionId).Only Request.TableKept :=
  .bind (only_send trivial) fun _ => .bind (tableKept_attach _ _ _) fun _ => tableKept_poll _ _ _

theorem table_of_publish {key versionId : String} {outcome : Except Failure Unit}
    (h : service.onTape pid (publishTruststore key versionId) tape s = some (outcome, s')) :
    s'.table = s.table :=
  System.onTape_keeps (P := fun after => after.table = s.table) (tableKept_publish key versionId)
    (fun _ _ _ _ _ hq hexec htable => (hq.table hexec).trans htable) h rfl

/-- The reports decide how the domain is asked. -/
theorem polled_of_poll {uri versionId : String} {left : ℕ} {outcome : Except Failure Unit}
    (h : service.onTape pid (publishTruststore.poll uri versionId left) tape s =
      some (outcome, s')) :
    Gateway.polled uri versionId left (tape ++ rest) = outcome.toOption.map fun _ => rest := by
  induction left generalizing tape s with
  | zero =>
      obtain ⟨rfl, rfl, -⟩ := System.onTape_raise h
      cases rest <;> rfl
  | succ left ih =>
      rcases System.onTape_bind_inv h with ⟨error, rfl, hfailed⟩ |
        ⟨observed, front, back, middle, rfl, hanswered, hnext⟩
      · obtain ⟨report, response, rfl, hexec, heq⟩ := onTape_send hfailed
        have hfault : report.fault ≠ .none := by
          intro hnone
          rw [exec_of_no_fault hnone] at hexec
          cases hexec
          cases heq
        show (if _ then _ else _) = _
        rw [if_pos (.inl hfault)]
        rfl
      · obtain ⟨report, response, rfl, hexec, heq⟩ := onTape_send hanswered
        have hnone : report.fault = .none := by
          by_contra hfault
          rw [exec_of_fault hfault hexec] at heq
          cases heq
        rw [exec_of_no_fault hnone] at hexec
        obtain ⟨rfl, rfl⟩ := Prod.mk.inj (Option.some.inj hexec)
        obtain rfl := Except.ok.inj heq
        show (if _ then _ else _) = _
        split at hnext
        · rename_i hwarned
          obtain ⟨rfl, rfl, -⟩ := System.onTape_raise hnext
          rw [if_pos (.inr (by simpa using hwarned))]
          rfl
        · rename_i hclean
          rw [if_neg fun hor => hor.elim (fun hfault => hfault hnone)
            fun hwarned => hclean (by simpa using hwarned)]
          split at hnext
          · rename_i havailable
            obtain ⟨rfl, rfl, -⟩ := System.onTape_ret hnext
            rw [if_pos havailable]
            rfl
          · rename_i hunavailable
            rw [if_neg hunavailable]
            exact ih hnext

/-- The first answers decide whether the domain gets the bundle. -/
theorem attached_of_attach {uri versionId : String} {read : Choice} (hread : read.fault = .none)
    {outcome : Except Failure Unit}
    (h : service.onTape pid (publishTruststore.attach read.domain uri versionId) tape s =
      some (outcome, s')) :
    Gateway.attached uri versionId (read :: (tape ++ rest)) =
      outcome.toOption.map fun _ => rest := by
  show (if _ then _ else _) = _
  rw [if_neg (not_not.mpr hread)]
  unfold publishTruststore.attach at h
  split at h
  · rename_i hattach
    rw [if_pos hattach]
    rcases System.onTape_recover_inv h with ⟨value, rfl, hsent⟩ |
      ⟨error, front, back, middle, rfl, hsent, hhandled⟩
    · obtain ⟨update, response, rfl, hexec, heq⟩ := onTape_send hsent
      have hnone : update.fault = .none := by
        by_contra hfault
        rw [exec_of_fault hfault hexec] at heq
        cases heq
      rw [exec_of_no_fault hnone] at hexec
      simp only [perform] at hexec
      split at hexec <;> cases hexec
      · cases heq
      · show (if _ then _ else _) = _
        rw [if_pos ⟨hnone, ‹_›⟩]
        rfl
    · obtain ⟨update, response, rfl, hexec, heq⟩ := onTape_send hsent
      have hnot : ¬ (update.fault = .none ∧ update.refusal = none) := by
        rintro ⟨hnone, haccepted⟩
        rw [exec_of_no_fault hnone] at hexec
        simp only [perform, haccepted] at hexec
        cases hexec
        cases heq
      have herror : outcome.toOption = none := by
        split at hhandled
        · obtain ⟨-, rfl, -⟩ := System.onTape_raise hhandled
          rfl
        · obtain ⟨-, rfl, -⟩ := System.onTape_raise hhandled
          rfl
      rw [herror]
      show (if _ then _ else _) = _
      rw [if_neg hnot]
      rfl
  · rename_i hattached
    rw [if_neg hattached]
    obtain ⟨rfl, rfl, -⟩ := System.onTape_ret h
    rfl

/-- **The answers of API Gateway decide whether a bundle is published.** -/
theorem confirmed_of_publish {key versionId : String} {outcome : Except Failure Unit}
    (h : service.onTape pid (publishTruststore key versionId) tape s = some (outcome, s')) :
    Gateway.confirmed key versionId (tape ++ rest) = outcome.toOption.map fun _ => rest := by
  unfold Gateway.confirmed
  rcases System.onTape_bind_inv h with ⟨error, rfl, hfailed⟩ |
    ⟨current, front, back, middle, rfl, hanswered, hnext⟩
  · obtain ⟨read, response, rfl, hexec, heq⟩ := onTape_send hfailed
    have hfault : read.fault ≠ .none := by
      intro hnone
      rw [exec_of_no_fault hnone] at hexec
      cases hexec
      cases heq
    show Option.bind (if _ then _ else _) _ = _
    rw [if_pos hfault]
    rfl
  · obtain ⟨read, response, rfl, hexec, heq⟩ := onTape_send hanswered
    have hnone : read.fault = .none := by
      by_contra hfault
      rw [exec_of_fault hfault hexec] at heq
      cases heq
    rw [exec_of_no_fault hnone] at hexec
    obtain ⟨rfl, rfl⟩ := Prod.mk.inj (Option.some.inj hexec)
    obtain rfl := Except.ok.inj heq
    rcases System.onTape_bind_inv hnext with ⟨error, rfl, hrefused⟩ |
      ⟨_, front', back', middle', rfl, hattached, hpolled⟩
    · rw [List.append_assoc, List.singleton_append, attached_of_attach hnone hrefused]
      rfl
    · rw [List.append_assoc, List.append_assoc, List.singleton_append,
        attached_of_attach hnone hattached]
      exact polled_of_poll hpolled

/-! ## The way to the candidate -/

/-- What `resume` does before it publishes: it takes the lease and decides for a bundle. -/
def ConsumerService.candidate (operation : EnrollmentRecord) :
    Service (TruststoreReference × List String) := do
  let now ← send .now
  acquireTruststoreLease operation.operationId (now + 10 * 60 * 1000)
  let (roots, state) ← rootsAndState operation.operationId
  if !roots.any fun root =>
      root.fingerprint = operation.rootFingerprint ∧ root.status = .active then
    reject (conflict "The Hemlig issuing root is not available in the truststore.")
  else if roots.length > maximumTruststoreCertificates then
    reject (badRequest ("The truststore cannot contain more than " ++
      toString maximumTruststoreCertificates ++ " certificates."))
  else
    let truststore ← truststoreFor operation roots state
    return (truststore, roots.map TruststoreRootRecord.fingerprint)

/-- The lease holder publishes its candidate. -/
theorem publish_candidate (operation : EnrollmentRecord) :
    ((send .now).bind fun now =>
      (acquireTruststoreLease operation.operationId (now + 10 * 60 * 1000)).bind fun _ =>
        publishEnrollment operation) =
    (candidate operation).bind fun found =>
      (publishOrRollback operation found.1).bind fun _ =>
        completeOrLatest operation found.1 found.2 := by
  unfold candidate publishEnrollment
  simp only [Program.bind_eq, Program.bind_assoc]
  congr 1
  funext now
  congr 1
  funext _
  congr 1
  funext found
  obtain ⟨roots, state⟩ := found
  dsimp only
  split
  · rfl
  · split
    · rfl
    · rw [Program.bind_assoc]
      rfl

/-- **A prepared operation is resumed by publishing its candidate.** -/
theorem onTape_resume {operationId : String} {row : StoredEnrollment operationId}
    (hrow : s.enrollment operationId = some row) (hprepared : row.record.workflowState = .prepared)
    {read : Choice} (hread : read.fault = .none) {found : TruststoreReference × List String}
    (hcandidate : service.onTape pid (candidate row.record) front s = some (.ok found, s')) :
    service.onTape pid (ConsumerService.resume operationId) (read :: (front ++ rest)) s =
      service.onTape pid ((publishOrRollback row.record found.1).bind fun _ =>
        completeOrLatest row.record found.1 found.2) rest s' := by
  have hget : service.onTape pid (getEnrollment operationId) [read] s =
      some (.ok (some row.record), s) := by
    show (exec pid (.get (.enrollment operationId)) read s).bind _ = _
    rw [exec_of_no_fault hread]
    show service.onTape pid (Program.ret ((s.enrollment operationId).map _)) [] s = _
    rw [hrow]
    rfl
  show service.onTape pid ((getEnrollment operationId).bind _) ([read] ++ (front ++ rest)) s = _
  refine (System.onTape_bind hget).trans ?_
  simp only [requireSome, Program.bind_eq, Program.pure_eq, Program.bind_ret, hprepared]
  exact (congrArg (service.onTape pid · (front ++ rest) s) (publish_candidate row.record)).trans
    (System.onTape_bind hcandidate)

/-! ## The lease -/

/-- The bundle that the domain goes back to. -/
def Cloud.currentBundle (s : Cloud) : Option String × Option String :=
  (s.truststoreState.bind TruststoreState.currentTruststoreKey,
    s.truststoreState.bind TruststoreState.currentTruststoreVersionId)

/-- The operation has got the lease, and nothing else has changed in the table but what it has
staged. -/
structure Cloud.Leased (s s' : Cloud) (operationId : String) : Prop where
  others : ∀ key, key ≠ Key.truststoreState → s'.table.get key = s.table.get key
  held : ∃ state, s'.truststoreState = some state ∧ state.leaseOwner = some operationId
  current : s'.currentBundle = s.currentBundle

theorem leased_of_write {operationId : String} {expiresAt now : Time} {middle : Cloud}
    (htable : middle.table = s.table)
    (hwrite : s'.table =
      (acquireTruststoreLeaseWrite operationId expiresAt now).apply middle.table) :
    s.Leased s' operationId := by
  have hstate : s'.truststoreState =
      some ((s.truststoreState.getD {}).lease operationId expiresAt) := by
    unfold Cloud.truststoreState
    rw [hwrite, htable]
    exact Write.get_apply_self _ _
  refine ⟨fun key hkey => ?_, ⟨_, hstate, rfl⟩, ?_⟩
  · rw [hwrite, Write.get_apply_of_ne _ _ hkey, htable]
  · rw [Cloud.currentBundle, Cloud.currentBundle, hstate]
    cases s.truststoreState <;> rfl

theorem leased_of_acquire {operationId : String} {expiresAt : Time} {value : Unit}
    (h : service.onTape pid (acquireTruststoreLease operationId expiresAt) tape s =
      some (.ok value, s')) : s.Leased s' operationId := by
  rcases System.onTape_recover_inv h with ⟨_, -, hacquired⟩ | ⟨error, _, _, _, -, -, hrejected⟩
  · rcases System.onTape_bind_inv hacquired with ⟨error, heq, -⟩ |
      ⟨now, front, back, middle, rfl, hnow, hwrite⟩
    · cases heq
    · obtain ⟨clock, response, rfl, hexec, heq⟩ := onTape_send hnow
      have htable : middle.table = s.table := by
        have hkept : Request.TableKept .now := trivial
        exact hkept.table hexec
      obtain ⟨write, response', rfl, hexec', heq'⟩ := onTape_send hwrite
      have hnone : write.fault = .none := by
        by_contra hfault
        rw [exec_of_fault hfault hexec'] at heq'
        cases heq'
      rw [exec_of_no_fault hnone] at hexec'
      simp only [perform] at hexec'
      split at hexec' <;> cases hexec'
      · exact leased_of_write htable rfl
      · cases heq'
  · obtain ⟨-, heq, -⟩ := System.onTape_raise hrejected
    cases heq

/-- The request changes no item, or stages a bundle of the operation. -/
def Request.Staging (operationId : String) (q : Request) : Prop :=
  match q with
  | .write change => ∃ truststore rootFingerprints,
      change = recordTruststoreBundleWrite operationId truststore rootFingerprints
  | .writeNoted _ _ | .transactWrite _ _ => False
  | _ => True

theorem Request.Staging.leased {operationId : String} {q : Request} (h : q.Staging operationId)
    {before : Cloud} {choice : Choice} {response : Response q}
    (hexec : exec pid q choice s = some (response, s')) (hleased : before.Leased s operationId) :
    before.Leased s' operationId := by
  cases tableStep_exec hexec with
  | same hsame =>
      refine ⟨fun key hkey => hsame ▸ hleased.others key hkey, ?_, ?_⟩
      · show ∃ state, s'.table.get .truststoreState = some state ∧ _
        rw [hsame]
        exact hleased.held
      · rw [← hleased.current]
        unfold Cloud.currentBundle Cloud.truststoreState
        rw [hsame]
  | write change hq _ happly =>
      subst hq
      obtain ⟨truststore, rootFingerprints, rfl⟩ := h
      obtain ⟨state, hstate, howner⟩ := hleased.held
      have hstaged : s'.truststoreState =
          some (state.stage operationId truststore rootFingerprints) := by
        show s'.table.get .truststoreState = _
        rw [happly]
        refine (Write.get_apply_self _ _).trans ?_
        show (s.truststoreState).map _ = _
        rw [hstate]
        rfl
      refine ⟨fun key hkey => ?_, ⟨_, hstaged, howner⟩, ?_⟩
      · rw [happly, Write.get_apply_of_ne _ _ hkey]
        exact hleased.others key hkey
      · rw [← hleased.current, Cloud.currentBundle, Cloud.currentBundle, hstaged, hstate]
        rfl
  | noted _ _ hq _ _ | transact _ _ _ hq _ =>
      subst hq
      exact h.elim

theorem staging_roots (operationId owner : String) :
    ∀ left startKey, (listTruststoreRoots.pages owner left startKey).Only
      (Request.Staging operationId)
  | 0, _ => trivial
  | left + 1, startKey => by
      refine .bind (only_send trivial) fun page => ?_
      split
      · trivial
      · exact .bind (staging_roots operationId owner left _) fun _ => trivial

theorem staging_rootsAndState (operationId : String) :
    (rootsAndState operationId).Only (Request.Staging operationId) := by
  have hroots : (listTruststoreRoots operationId).Only (Request.Staging operationId) :=
    .bind (only_send trivial) fun _ => .bind (staging_roots _ _ _ _) fun _ => trivial
  have hstate : getTruststoreState.Only (Request.Staging operationId) := only_send trivial
  refine .bind (only_send trivial) fun first => .ite ?_ ?_
  · exact .bind hroots fun _ => .bind hstate fun _ => trivial
  · exact .bind hstate fun _ => .bind hroots fun _ => trivial

theorem staging_truststoreFor (operation : EnrollmentRecord) (roots : List TruststoreRootRecord)
    (state : Option TruststoreState) :
    (truststoreFor operation roots state).Only (Request.Staging operation.operationId) := by
  unfold truststoreFor
  dsimp only
  split
  · trivial
  · refine .ite trivial (.bind ?_ fun truststore => .bind ?_ fun _ => trivial)
    · refine .recover (.bind (only_send trivial) fun _ => trivial) fun failure => ?_
      refine .recover (.bind (only_send trivial) fun existing => ?_) fun _ => trivial
      exact .ite trivial trivial
    · exact only_send ⟨_, _, rfl⟩

/-- **On the way to its candidate the operation gets the lease**, and changes nothing else. -/
theorem leased_of_candidate {operation : EnrollmentRecord}
    {found : TruststoreReference × List String}
    (h : service.onTape pid (candidate operation) tape s = some (.ok found, s')) :
    s.Leased s' operation.operationId := by
  rcases System.onTape_bind_inv h with ⟨error, heq, -⟩ |
    ⟨now, front, back, middle, rfl, hnow, hrest⟩
  · cases heq
  obtain ⟨clock, response, rfl, hexec, -⟩ := onTape_send hnow
  have htable : middle.table = s.table := by
    have hkept : Request.TableKept .now := trivial
    exact hkept.table hexec
  rcases System.onTape_bind_inv hrest with ⟨error, heq, -⟩ |
    ⟨value, front', back', middle', rfl, hacquire, hrest'⟩
  · cases heq
  have hacquired := leased_of_acquire hacquire
  have hleased : s.Leased middle' operation.operationId := by
    refine ⟨fun key hkey => (hacquired.others key hkey).trans (by rw [htable]), hacquired.held, ?_⟩
    rw [hacquired.current, Cloud.currentBundle, Cloud.currentBundle, Cloud.truststoreState, htable]
  refine System.onTape_keeps (p := Request.Staging operation.operationId)
    (P := fun after => s.Leased after operation.operationId) ?_ (fun _ _ _ _ _ hq hexec hleased => hq.leased hexec hleased) hrest' hleased
  refine .bind (staging_rootsAndState _) fun roots => ?_
  obtain ⟨roots, state⟩ := roots
  exact .ite trivial (.ite trivial (.bind (staging_truststoreFor _ _ _) fun _ => trivial))

end Hemlig
