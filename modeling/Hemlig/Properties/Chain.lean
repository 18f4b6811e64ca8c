import Hemlig.Verification.Steps

/-!
# No lost update

The mutations of a secret that commit form one chain: each was prepared on the version
that the one before it wrote.  An operation whose lease is gone, because another one
took it over or because it was released, never commits.
-/

namespace Hemlig

open Concurrent

variable {init s s' : Cloud}

/-! ## The chain -/

/-- A prepared operation holds no lease at another secret, so without the one at its own
it has none. -/
theorem dead_of_lost (hinv : Invariant init s) {mutation : PreparedMutation}
    (hprepared : s.Prepared mutation)
    (hlost : ∀ head, s.head mutation.secretUid = some head →
      head.leaseOwner ≠ some mutation.operationId) : s.Dead mutation.operationId := by
  refine ⟨⟨mutation, hprepared, rfl⟩, fun u head hhead howner => ?_⟩
  obtain ⟨other, hother, hid, huid, -⟩ := hinv.heads.lease hhead howner
  obtain rfl := hinv.history.operation hother hprepared hid
  exact hlost head (huid ▸ hhead) howner

/-- The commits of a secret from some state on, none of them of the operation. -/
def CommitsWithout (s s' : Cloud) (operationId : String) : Prop :=
  ∀ u, ∃ later, s'.commits u = s.commits u ++ later ∧
    ∀ completed ∈ later, completed.prepared.operationId ≠ operationId

/-- **A step commits no operation whose lease is gone.** -/
theorem Stepped.commitsWithout (h : Stepped init s s') {first : Cloud} {operationId : String}
    (hdead : s.Dead operationId) (hbefore : CommitsWithout first s operationId) :
    CommitsWithout first s' operationId := by
  intro u
  obtain ⟨earlier, hearlier, hne⟩ := hbefore u
  obtain ⟨later, hlater, halive⟩ := h.commits u
  refine ⟨earlier ++ later, by rw [hlater, hearlier, List.append_assoc], fun completed hmem => ?_⟩
  rcases List.mem_append.mp hmem with hmem | hmem
  · exact hne completed hmem
  · rintro rfl
    exact halive completed hmem hdead

/-- **No update is lost.**  In every run the commits of each secret form one chain, its
payload is that of the last one that carried a payload, and an operation that was
prepared and does not hold the lease of its secret commits nothing in any continuation. -/
theorem no_lost_update (hinit : Initial init) {w : ServiceWorld} {actions : List ServiceAction}
    (hrun : service.run (World.initial init) actions = some w) :
    (∀ u, Chain (init.version u) (w.store.commits u) (w.store.version u)) ∧
    (∀ u, w.store.payloadVersion u =
      ((w.store.commits u).reverse.findSome? CompletedMutation.carried).or
        (init.payloadVersion u)) ∧
    ∀ mutation, w.store.Prepared mutation →
      (∀ head, w.store.head mutation.secretUid = some head →
        head.leaseOwner ≠ some mutation.operationId) →
      ∀ later w', service.run w later = some w' →
        CommitsWithout w.store w'.store mutation.operationId := by
  have hinv := invariant_of_run hinit hrun
  refine ⟨hinv.history.chain, hinv.history.payload, fun mutation hprepared hlost later w' hlater => ?_⟩
  have hkeeps := run_keeps hinit hrun hlater
    (P := fun s => s.Dead mutation.operationId ∧ CommitsWithout w.store s mutation.operationId)
    (fun s s' hstep hs => ?_) ⟨dead_of_lost hinv hprepared hlost,
      fun u => ⟨[], (List.append_nil _).symm, fun _ hmem => absurd hmem List.not_mem_nil⟩⟩
  · exact hkeeps.2
  · obtain ⟨actor, hevolves⟩ := hstep.evolves
    exact ⟨hevolves.dead hs.1, hstep.commitsWithout hs.1 hs.2⟩

/-! ## A run -/

namespace Sample

/-- One process takes its next steps. -/
def steps (pid : ℕ) (choices : List Choice) : List ServiceAction := choices.map (.step pid)

/-- Nothing special happens. -/
def plain : Choice := {}

/-- The next identifier. -/
def fresh (id : String) : Choice := { id := id }

def admin : Actor := ⟨.human, "admin"⟩

def consumer (consumerId : String) : ConsumerRecord where
  consumerId := consumerId
  environment := "prod"
  subjectUri := "spiffe://hemlig/consumer/" ++ consumerId
  status := .active
  createdAt := 0
  createdBy := admin

/-- A past in which some consumers were registered, and an agent with its grant. -/
def registered (consumers : List String) (grant : Option AgentGrantRecord) : Cloud :=
  { Cloud.empty with
    table :=
      { get := fun
          | .consumer consumerId => if consumerId ∈ consumers then some (consumer consumerId) else none
          | .agentGrant grantId =>
              grant.bind fun grant => if h : grant.grantId = grantId then some ⟨grant, h⟩ else none
          | .agentGrantOf consumerId =>
              (grant.filter (·.consumerId = consumerId)).map AgentGrantRecord.grantId
          | _ => none
        keys := consumers.map .consumer ++ grant.toList.flatMap fun grant =>
          [.agentGrant grant.grantId, .agentGrantOf grant.consumerId]
        covered := by
          intro key hkey
          cases key <;> cases grant <;> simp_all } }

theorem initial_registered (consumers : List String) (grant : Option AgentGrantRecord) :
    Initial (registered consumers grant) where
  row h := by cases h
  head h := by cases h
  lookup h := by cases h
  live h := by cases h
  access h := by cases h
  readable h := by cases h
  object h := by cases h
  syncState _ := rfl
  change _ _ := rfl
  index _ _ := rfl
  identity _ := rfl
  identityIndex _ := rfl
  enrollment _ := rfl
  consumer {consumerId record} h := by
    have hrecord : (if consumerId ∈ consumers then some (consumer consumerId) else none) =
      some record := h
    split at hrecord <;> cases hrecord
    simp [consumer]
  agentGrant {grantId stored} h := by
    have hstored : (grant.bind fun grant =>
      if h : grant.grantId = grantId then some ⟨grant, h⟩ else none) = some stored := h
    obtain ⟨record, rfl, hsome⟩ := Option.bind_eq_some_iff.mp hstored
    split at hsome <;> cases hsome
    rename_i hname
    subst hname
    show (Option.filter _ (some record)).map _ = _
    simp
  idempotency h := by cases h
  capability _ := rfl
  drawnBy _ := rfl
  history := rfl
  audit := rfl

/-- An environment is registered. -/
def founding : List ServiceAction :=
  .start 0 (.createEnvironment "prod" admin) :: steps 0 [plain, fresh "epoch", plain]

def creation (idempotencyKey : String) : CreateRequest where
  secretId := "api-key"
  environment := "prod"
  metadata := ⟨none, none⟩
  acl := []
  actor := admin
  idempotencyKey := idempotencyKey

/-- A process creates the secret `api-key`. -/
def creating (pid : ℕ) (tag idempotencyKey : String) : List ServiceAction :=
  .start pid (.create (creation idempotencyKey)) :: steps pid
    [plain, plain, fresh tag, fresh tag, plain, fresh ("op-" ++ tag), plain, plain, plain,
      fresh ("v-" ++ tag), plain, plain, plain]

def rotation (ifMatch idempotencyKey : String) : UpdateRequest where
  secretId := "api-key"
  environment := "prod"
  ifMatch := ifMatch
  metadata := some ⟨none, none⟩
  acl := none
  payload := none
  actor := admin
  idempotencyKey := idempotencyKey

/-- A process updates the metadata of `api-key`. -/
def updating (pid : ℕ) (ifMatch tag idempotencyKey : String) : List ServiceAction :=
  .start pid (.update (rotation ifMatch idempotencyKey)) :: steps pid
    [plain, plain, plain, plain, fresh tag, plain, fresh ("op-" ++ tag), plain, plain, plain,
      fresh ("v-" ++ tag), plain, plain, plain, plain, plain, plain]

/-- The grant of an agent that may write `api-key`. -/
def agent : AgentGrantRecord where
  grantId := "grant"
  consumerId := "agent"
  environment := "prod"
  capabilities := [.write]
  secretGrants := [{ secretUid := "sec-a", secretId := "api-key", permissions := [.write] }]
  status := .active
  createdAt := 0
  createdBy := admin

theorem created_checked : (service.run (World.initial Cloud.empty)
    (founding ++ creating 1 "a" "k1")).any (fun w => decide
      (w.store.version "sec-a" = some "ctl-a")) = true := by
  decide +kernel

theorem created : (service.run (World.initial Cloud.empty)
    (founding ++ creating 1 "a" "k1")).isSome = true :=
  Option.isSome_of_any created_checked

end Sample

theorem no_lost_update_created :
    (reached Cloud.empty _ Sample.created).store.version "sec-a" = some "ctl-a" ∧
      ∀ u, Chain (Cloud.empty.version u) ((reached Cloud.empty _ Sample.created).store.commits u)
        ((reached Cloud.empty _ Sample.created).store.version u) :=
  ⟨reached_of_any Sample.created_checked, (no_lost_update Initial.empty (run_reached Sample.created)).1⟩

end Hemlig
