import Hemlig.Properties.Archive
import Hemlig.Verification.AgentReads

/-!
# Agents read what they were granted

The grant is checked on the secret that the name belongs to, and the payload is read by the name
once more.  As long as both lookups find one secret, what an agent is given is a version of a
secret on which its grant had read permission during the request.  Between the lookups the name
may be archived and reused: if the reconciliation of a later policy has put the agent into the ACL
of the new secret, its payload is returned before the grant says so.
-/

namespace Hemlig

open Concurrent DynamoRepository

variable {init : Cloud} {pid : ℕ}

/-- At a moment of the request of the process the grant of the consumer had read permission. -/
def PermittedDuring (init : Cloud) (actions : List ServiceAction) (pid : ℕ) (consumerId u : String) :
    Prop :=
  ∃ before w input q next, before <+: actions ∧
    service.run (World.initial init) before = some w ∧
      w.procs pid = some (input, .call q next) ∧ w.store.MayRead consumerId u

/-- What was returned belongs to a secret on which the grant had read permission during the
request. -/
def ReadGranted (init : Cloud) (actions : List ServiceAction) (pid : ℕ)
    (consumerId environment : String) (result : SecretReadResult) : Prop :=
  ∃ u, DeliveredFrom (Discipline.Issued service (World.initial init) actions pid) consumerId
    environment u result ∧ PermittedDuring init actions pid consumerId u

/-- Whenever the process looks the name up, it belongs to one secret. -/
def NameKept (init : Cloud) (actions : List ServiceAction) (pid : ℕ)
    (environment secretId : String) : Prop :=
  ∀ u u', LookedUp (Discipline.Issued service (World.initial init) actions pid) environment
      secretId u →
    LookedUp (Discipline.Issued service (World.initial init) actions pid) environment secretId u' →
      u = u'

theorem PermittedAt.during {actions : List ServiceAction} {consumerId u : String}
    (h : PermittedAt (Discipline.Issued service (World.initial init) actions pid) consumerId u) :
    PermittedDuring init actions pid consumerId u := by
  obtain ⟨q, s, ⟨before, choice, w, input, next, hbefore, hrun, rfl, hproc⟩, hread⟩ := h
  exact ⟨before, w, input, q, next, (List.prefix_append _ _).trans hbefore, hrun, hproc, hread⟩

/-- **Where the name is kept, an agent reads what it was granted.** -/
theorem agent_reads_granted (hinit : Initial init) {w : ServiceWorld}
    {actions : List ServiceAction} (hrun : service.run (World.initial init) actions = some w)
    {consumerId environment secretId correlationId : String} {ifNoneMatch : Option String}
    {result : SecretReadResult}
    (hproc : w.procs pid = some
      (.agentRead consumerId environment secretId ifNoneMatch correlationId, .ret (.read result)))
    (hname : NameKept init actions pid environment secretId) :
    ReadGranted init actions pid consumerId environment result := by
  obtain ⟨⟨u, hchecked, hpermitted⟩, u', hlooked, hdelivered⟩ := agentReadBy_of_run hinit hrun hproc
  have hsame : u = u' := hname u u' hchecked hlooked
  exact ⟨u', hdelivered, hsame ▸ hpermitted.during⟩

/-! ## Two reads -/

/-- Every world that a list of actions goes through passes a test. -/
def everyWorld (check : ServiceWorld → Bool) (w : ServiceWorld) : List ServiceAction → Bool
  | [] => check w
  | action :: rest => check w && (service.act w action).all (everyWorld check · rest)

theorem of_everyWorld {check : ServiceWorld → Bool} {before : List ServiceAction} :
    ∀ {w w' : ServiceWorld} {actions : List ServiceAction}, everyWorld check w actions = true →
      before <+: actions → service.run w before = some w' → check w' = true := by
  induction before with
  | nil =>
      intro w w' actions hevery _ hrun
      cases hrun
      cases actions with
      | nil => exact hevery
      | cons action rest => exact (Bool.and_eq_true_iff.mp hevery).1
  | cons first rest ih =>
      rintro w w' actions hevery ⟨later, rfl⟩ hrun
      obtain ⟨next, hact, hrest⟩ := Option.bind_eq_some_iff.mp hrun
      have hevery' := (Bool.and_eq_true_iff.mp hevery).2
      rw [hact] at hevery'
      exact ih hevery' ⟨later, rfl⟩ hrest

namespace Sample

/-- The grant of an agent that may read `api-key`. -/
def reader : AgentGrantRecord :=
  { agent with
    capabilities := [.read]
    secretGrants := [{ secretUid := "sec-a", secretId := "api-key", permissions := [.read] }] }

def readerRegistered : Cloud := registered ["agent"] (some reader)

/-- A process writes a payload to `api-key`. -/
def filling (pid : ℕ) (ifMatch tag idempotencyKey : String) : List ServiceAction :=
  .start pid (.update { rotation ifMatch idempotencyKey with payload := some [] }) :: steps pid
    [plain, plain, plain, plain, fresh tag, plain, fresh tag, plain, fresh ("op-" ++ tag), plain,
      plain, plain, fresh ("w-" ++ tag), fresh ("v-" ++ tag), plain, plain, plain, plain, plain, plain]

/-- The policy of the agent is written for `api-key` as it is now, up to the write of the grant. -/
def regranting (pid : ℕ) : List ServiceAction :=
  .start pid (.grant (.update ⟨"grant", ["read"], [⟨"api-key", ["read"]⟩], none, admin⟩) "corr") ::
    steps pid [plain, plain, plain, { number := 1 }, plain, plain, plain, plain, fresh "g", plain,
      plain, plain, plain, plain, fresh "d", plain, fresh "op-d", plain, plain, plain, fresh "v-d",
      plain, plain, fresh "n", plain, plain, plain, plain, plain]

/-- The agent asks for `api-key`, and its grant is checked. -/
def asking (pid : ℕ) : List ServiceAction :=
  .start pid (.agentRead "agent" "prod" "api-key" none "corr") ::
    steps pid [plain, plain, plain, plain, plain]

/-- The agent is given what `api-key` names. -/
def receiving (pid : ℕ) : List ServiceAction :=
  steps pid [plain, plain, plain, plain, plain, plain]

/-- The result of the read that a process has made. -/
def received (w : ServiceWorld) (pid : ℕ) : Option SecretReadResult :=
  match w.procs pid with
  | some (.agentRead "agent" "prod" "api-key" none "corr", .ret (.read result)) => some result
  | _ => none

theorem of_received {w : ServiceWorld} {result : SecretReadResult}
    (h : received w pid = some result) :
    w.procs pid = some (.agentRead "agent" "prod" "api-key" none "corr", .ret (.read result)) := by
  unfold received at h
  split at h
  · rename_i hproc
    rw [hproc, Option.some.inj h]
  · cases h

/-- The agent reads its secret. -/
def reading : List ServiceAction :=
  founding ++ creating 1 "a" "k1" ++ filling 2 "ctl-a" "c" "k2" ++ regranting 3 ++ asking 4 ++
    receiving 4

/-- The secret is archived and its name reused while the agent reads. -/
def misreading : List ServiceAction :=
  founding ++ creating 1 "a" "k1" ++ asking 4 ++ archiving 2 "ctl-a" "x" "k2" ++
    creating 3 "b" "k3" ++ filling 5 "ctl-b" "c" "k4" ++ regranting 6 ++ receiving 4

/-- The name belongs to the first secret. -/
def namesFirst (q : Request) (s : Cloud) : Bool :=
  match q with
  | .get (.lookup environment secretId) =>
      (s.lookup environment secretId).all fun lookup => lookup.secretUid = "sec-a"
  | _ => true

/-- The grant names the first secret only, which has no version of that name. -/
def grantsFirst (version : String) (w : ServiceWorld) : Bool :=
  ((w.store.agentGrantOf "agent").all fun grantId => (w.store.agentGrant grantId).all fun stored =>
    stored.record.secretGrants.all (·.secretUid = "sec-a")) &&
      (w.store.head "sec-a").all (·.controlVersionId ≠ version)

theorem reading_checked :
    ((service.run (World.initial readerRegistered) reading).any (fun w => decide
        ((received w 4).map SecretReadResult.controlVersionId = some "ctl-d")) = true ∧
      everyRequest namesFirst (World.initial readerRegistered) reading = true) ∧
    (service.run (World.initial readerRegistered) misreading).any (fun w => decide
      ((received w 4).map (fun result => (result.controlVersionId, result.payload.isSome)) =
          some ("ctl-d", true) ∧
        (w.store.lookup "prod" "api-key").map SecretLookup.secretUid = some "sec-b")) = true ∧
    everyWorld (grantsFirst "ctl-d") (World.initial readerRegistered) misreading = true := by
  decide +kernel

theorem reading_runs : (service.run (World.initial readerRegistered) reading).isSome = true :=
  Option.isSome_of_any reading_checked.1.1

theorem misreading_runs :
    (service.run (World.initial readerRegistered) misreading).isSome = true :=
  Option.isSome_of_any reading_checked.2.1

theorem eq_of_mayRead {w : ServiceWorld} {version u : String} (h : grantsFirst version w = true)
    (hread : w.store.MayRead "agent" u) : u = "sec-a" := by
  obtain ⟨grantId, stored, hgrantOf, hstored, -, -, hpermission⟩ := hread
  obtain ⟨scope, hscope, hgrants⟩ := List.any_eq_true.mp hpermission
  have hfirst := (Bool.and_eq_true_iff.mp h).1
  rw [hgrantOf, Option.all_some, hstored, Option.all_some] at hfirst
  have huid := of_decide_eq_true (List.all_eq_true.mp hfirst scope hscope)
  exact (of_decide_eq_true hgrants).1.symm.trans huid

end Sample

theorem agent_reads_granted_reading : ∃ result : SecretReadResult,
    result.controlVersionId = "ctl-d" ∧
      ReadGranted Sample.readerRegistered Sample.reading 4 "agent" "prod" result := by
  obtain ⟨result, hresult, hversion⟩ :=
    Option.map_eq_some_iff.mp (reached_of_any Sample.reading_checked.1.1)
  refine ⟨result, hversion, agent_reads_granted (Sample.initial_registered _ _)
    (run_reached Sample.reading_runs) (Sample.of_received hresult) ?_⟩
  have hfirst : ∀ u, LookedUp (Discipline.Issued service (World.initial Sample.readerRegistered)
      Sample.reading 4) "prod" "api-key" u → u = "sec-a" := by
    rintro u ⟨s, lookup, hissued, hlookup, rfl⟩
    have hcheck : Sample.namesFirst (.get (.lookup "prod" "api-key")) s = true :=
      of_everyRequest Sample.reading_checked.1.2 ⟨4, hissued⟩
    rw [Sample.namesFirst, hlookup] at hcheck
    simpa using hcheck
  exact fun u u' hu hu' => (hfirst u hu).trans (hfirst u' hu').symm

/-- **An agent reads a secret that it was never granted.** -/
theorem agent_reads_ungranted : ¬ ∀ init, Initial init → ∀ (w : ServiceWorld) actions,
    service.run (World.initial init) actions = some w →
      ∀ pid consumerId environment secretId ifNoneMatch correlationId result,
        w.procs pid = some (.agentRead consumerId environment secretId ifNoneMatch correlationId,
            .ret (.read result)) → result.payload.isSome = true →
          ReadGranted init actions pid consumerId environment result := by
  intro hall
  obtain ⟨hreceived, -⟩ := reached_of_any Sample.reading_checked.2.1
  obtain ⟨result, hresult, hfields⟩ := Option.map_eq_some_iff.mp hreceived
  obtain ⟨hversion, hpayload⟩ := Prod.mk.inj hfields
  obtain ⟨u, ⟨s, head, hissued, hhead, -, hsame, -⟩, before, w, -, -, -, hbefore, hrun, -, hread⟩ :=
    hall _ (Sample.initial_registered _ _) _ _ (run_reached Sample.misreading_runs) 4 _ _ _ _ _ _
      (Sample.of_received hresult) hpayload
  have hevery := Sample.reading_checked.2.2
  obtain rfl := Sample.eq_of_mayRead (of_everyWorld hevery hbefore hrun) hread
  -- The granted secret never had the version that was returned.
  obtain ⟨earlier, choice, w', input, next, hearlier, hrun', rfl, -⟩ := hissued
  have hcheck := of_everyWorld hevery ((List.prefix_append _ _).trans hearlier) hrun'
  have hother := (Bool.and_eq_true_iff.mp hcheck).2
  rw [hhead, Option.all_some] at hother
  exact of_decide_eq_true hother (hsame.trans hversion)

end Hemlig
