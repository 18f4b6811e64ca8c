import Hemlig.Properties.Chain
import Hemlig.Verification.Documents

/-!
# Head, control and payload agree

The documents of a secret are written by its mutations, each of which made its own from the
revision it was prepared on, while its head is written in one transaction at the end.  The
invariant describes a committed head by the revisions of its rows; that these repeat the
secret they belong to is carried from the past of the run to every state of it.
-/

namespace Hemlig

open Concurrent DynamoRepository SecretService

variable {init s : Cloud}

/-! ## One state -/

/-- The stored object under a reference. -/
def Cloud.bodyAt (s : Cloud) (reference : Option ObjectReference) : Option ObjectBody :=
  (reference.bind s.object).map StoredObject.body

/-- The answer of `getControl` to a head that names no control object. -/
def unversioned : Failure :=
  .api (serviceUnavailable "The secret control revision does not have an immutable object version.")

/-- The objects that the heads name are stored and repeat them. -/
structure DocumentsAgree (s : Cloud) : Prop where
  control : ∀ u head, s.head u = some head → head.Committed →
    ∃ control, s.bodyAt (controlReference head) = some (.control control) ∧ control.Repeats head
  payload : ∀ u head, s.head u = some head → head.state = .active →
    ∃ payload, s.bodyAt (payloadReference head) = some (.payload payload) ∧ payload.Repeats head
  unversioned : ∀ u head, s.head u = some head →
    (getControl head = .raise unversioned ↔ ¬ head.Committed)

/-- The control object of a committed head is stored. -/
theorem bodyAt_control (hinv : Invariant init s) {u : String} {head : HeadRecord}
    {control : ControlRevision} (hdescribes : s.Describes u head control) :
    s.bodyAt (controlReference head) = some (.control control) := by
  obtain ⟨versionId, hversion, hkey, hholds⟩ := hdescribes.stored
  obtain ⟨-, object, hobject, hbody⟩ := hholds.object hinv
  have hreference : controlReference head = some ⟨controlKey u head.controlVersionId, versionId⟩ := by
    simp [controlReference, hversion, hkey]
  have hfound : s.object ⟨controlKey u head.controlVersionId, versionId⟩ = some object := hobject
  simp [Cloud.bodyAt, hreference, hfound, hbody]

/-- The payload object of a committed head is stored, if it names one. -/
theorem bodyAt_payload (hinv : Invariant init s) {u payloadVersionId : String} {head : HeadRecord}
    {control : ControlRevision} (hdescribes : s.Describes u head control)
    (hpayload : head.payloadVersionId = some payloadVersionId) :
    ∃ payload, s.bodyAt (payloadReference head) = some (.payload payload) := by
  obtain ⟨versionId, payload, hversion, hkey, hholds⟩ := hdescribes.payload _ hpayload
  obtain ⟨-, object, hobject, hbody⟩ := hholds.object hinv
  have hreference : payloadReference head = some ⟨payloadKey u payloadVersionId, versionId⟩ := by
    simp [payloadReference, hversion, hkey]
  have hfound : s.object ⟨payloadKey u payloadVersionId, versionId⟩ = some object := hobject
  exact ⟨payload, by simp [Cloud.bodyAt, hreference, hfound, hbody]⟩

/-- The object of an agreeing head under one of its references. -/
theorem Cloud.object_of_bodyAt {reference : ObjectReference} {body : ObjectBody}
    (h : s.bodyAt (some reference) = some body) :
    ∃ object, s.object reference = some object ∧ object.body = body :=
  Option.map_eq_some_iff.mp h

theorem documentsAgree (hinv : Invariant init s) (hdocumented : Documented s) :
    DocumentsAgree s := by
  constructor
  · intro u head hhead hcommitted
    obtain ⟨control, hdescribes⟩ := hinv.heads.described hhead hcommitted
    have hstored := bodyAt_control hinv hdescribes
    obtain ⟨reference, hreference, -, hrepeats⟩ :=
      (agrees_of_head hinv hdocumented hhead hcommitted).control
    obtain ⟨object, hobject, hbody⟩ := Cloud.object_of_bodyAt (hreference ▸ hstored)
    obtain ⟨control', hbody', hcontrol'⟩ := hrepeats object hobject
    have hsame : control' = control := ObjectBody.control.inj (hbody'.symm.trans hbody)
    exact ⟨control, hstored, hsame ▸ hcontrol'⟩
  · intro u head hhead hactive
    have hcommitted := committed_of_active hinv hhead hactive
    obtain ⟨control, hdescribes⟩ := hinv.heads.described hhead hcommitted
    -- An active head has a payload, since its control revision names one.
    obtain ⟨versionId, hversion, hkey, ⟨row, hrow, -, -, hserialized⟩, -⟩ := hdescribes.stored
    have hsome : head.payloadVersionId.isSome = true := by
      rw [← hdescribes.payloadVersionId]
      exact (hdocumented.control hrow hserialized).active (hdescribes.state.trans hactive)
    obtain ⟨payloadVersionId, hpayload⟩ := Option.isSome_iff_exists.mp hsome
    obtain ⟨payload, hstored⟩ := bodyAt_payload hinv hdescribes hpayload
    obtain ⟨reference, hreference, -, hrepeats⟩ :=
      (agrees_of_head hinv hdocumented hhead hcommitted).payload hsome
    obtain ⟨object, hobject, hbody⟩ := Cloud.object_of_bodyAt (hreference ▸ hstored)
    obtain ⟨payload', hbody', hpayload'⟩ := hrepeats object hobject
    have hsame : payload' = payload := ObjectBody.payload.inj (hbody'.symm.trans hbody)
    exact ⟨payload, hstored, hsame ▸ hpayload'⟩
  · intro u head hhead
    by_cases hcommitted : head.Committed
    · obtain ⟨reference, hreference, -⟩ :=
        (agrees_of_head hinv hdocumented hhead hcommitted).control
      have hcalls : getControl head ≠ .raise unversioned := by
        rw [getControl, hreference]
        exact nofun
      exact ⟨fun hraises => (hcalls hraises).elim, fun hnot => (hnot hcommitted).elim⟩
    · obtain ⟨mutation, -, -, -, -, hcreated⟩ := hinv.heads.creating hhead hcommitted
      have hraises : getControl head = .raise unversioned := by
        rcases hcreated with rfl | rfl <;> rfl
      exact ⟨fun _ => hcommitted, fun _ => hraises⟩

/-! ## Every run -/

theorem documented_of_run (hinit : Initial init) (hdocumented : Documented init) {w : ServiceWorld}
    {actions : List ServiceAction} (hrun : service.run (World.initial init) actions = some w) :
    Documented w.store :=
  have hnone : service.run (World.initial init) [] = some (World.initial init) := rfl
  run_keeps hinit hnone hrun (fun _ _ hstep hs => hstep.documented hs) hdocumented

/-- The reads of a payload. -/
def Input.Reads : Input → Prop
  | .read .. => True
  | .agentRead .. => True
  | .adminRead .. => True
  | _ => False

/-- **Head, control and payload agree in every state of every run; what a head that was read
earlier names agrees with it for as long as it is stored; and no read of a payload ever finds
a mismatch.** -/
theorem documents_agree (hinit : Initial init) (hdocumented : Documented init)
    {w w' : ServiceWorld} {actions later : List ServiceAction}
    (hrun : service.run (World.initial init) actions = some w)
    (hlater : service.run w later = some w') :
    DocumentsAgree w.store ∧
      (∀ u head, w.store.head u = some head → head.Committed → w'.store.Agrees head) ∧
      ∀ pid input failure, w'.procs pid = some (input, .raise failure) → input.Reads →
        failure ∉ disagreements := by
  have hinv := invariant_of_run hinit hrun
  have hstart := documented_of_run hinit hdocumented hrun
  refine ⟨documentsAgree hinv hstart, fun u head hhead hcommitted => ?_, ?_⟩
  · have hagrees := agrees_of_head hinv hstart hhead hcommitted
    refine run_keeps hinit hrun hlater (P := fun s => s.Agrees head) (fun s s' hstep hs => ?_) hagrees
    obtain ⟨actor, hevolves⟩ := hstep.evolves
    exact lasts_agrees s s' actor hstep.before hstep.after hevolves hs
  · intro pid input failure hproc hreads hmem
    have hrun' : service.run (World.initial init) (actions ++ later) = some w' := by
      rw [service.run_append, hrun]
      exact hlater
    have hexcused : Excused (Discipline.Issued service (World.initial init) (actions ++ later) pid)
        failure := by
      have hfailed := failed_of_run hinit hrun' hproc
      cases input <;> first | exact hfailed | exact hreads.elim
    -- A disagreement is only found where some document was not well written, and none ever is.
    obtain ⟨q, first, ⟨before, choice, middle, input, next, -, hmiddle, rfl, -⟩, hnot⟩ :=
      hexcused hmem
    exact hnot (documented_of_run hinit hdocumented hmiddle)

/-! ## A head that is not committed yet -/

/-- What the process failed with. -/
def ServiceWorld.failure (w : ServiceWorld) (pid : ℕ) : Option Failure :=
  match w.procs pid with
  | some (_, .raise failure) => some failure
  | _ => none

namespace Sample

/-- A process creates `api-key` up to its prepared head; another one then starts to update it. -/
def preparing : List ServiceAction :=
  founding ++ (creating 1 "a" "k1").take 10 ++
    .start 2 (.update (rotation "ctl-a" "k2")) :: steps 2 [plain, plain]

theorem prepared_checked :
    (service.run (World.initial Cloud.empty) preparing).any (fun w : ServiceWorld => decide
      (w.failure 2 = some unversioned ∧ w.store.version "sec-a" = none)) = true := by
  decide +kernel

theorem prepared : (service.run (World.initial Cloud.empty) preparing).isSome = true :=
  Option.isSome_of_any prepared_checked

end Sample

/-- The control revision of a secret whose create has not committed is answered with service
unavailable, though nothing was tampered with. -/
theorem unversioned_raised : ∃ actions, ∃ w : ServiceWorld,
    service.run (World.initial Cloud.empty) actions = some w ∧ w.failure 2 = some unversioned :=
  ⟨Sample.preparing, _, run_reached Sample.prepared, (reached_of_any Sample.prepared_checked).1⟩

/-- The head that a create has prepared is not committed; once it is, the head agrees. -/
theorem documents_agree_created :
    (reached Cloud.empty _ Sample.prepared).store.version "sec-a" = none ∧
      DocumentsAgree (reached Cloud.empty _ Sample.created).store :=
  ⟨(reached_of_any Sample.prepared_checked).2,
    (documents_agree Initial.empty documented_empty (run_reached Sample.created)
      (show service.run _ [] = some _ from rfl)).1⟩

end Hemlig
