import Hemlig.Verification.Reads
import Mathlib.Algebra.GroupWithZero.Nat
import Mathlib.Algebra.Order.BigOperators.Group.List

/-!
# The prior access records

A mutation looks up the access records of the consumers of its prior ACL by the
name of the secret, each with two requests, in any order.  If the name moves to
another secret meanwhile, an archive has committed, and the ACL of the secret is no
longer the one the reads started from.
-/

namespace Hemlig

open Concurrent Store DynamoRepository SecretService

variable {init s s' : Cloud} {pid : ℕ}

/-! ## One read -/

/-- What a process knows about the read of one access record; `exact` says that it
knows the secret by its name. -/
def Cloud.SlotOk (s : Cloud) (u : String) (head : HeadRecord) (exact : Prop)
    (consumerId : String) : PriorAccess → Prop
  | .name consumerId' => consumerId' = consumerId
  | .record consumerId' secretUid => consumerId' = consumerId ∧
      (exact → secretUid = u ∨ s.version u ≠ some head.controlVersionId)
  | .settled access => (∀ record, access = some record → record.consumerId = consumerId) ∧
      (exact → s.PriorAt u head.controlVersionId consumerId head.environment access)

/-- The requests a read still needs. -/
def SecretService.PriorAccess.weight : PriorAccess → ℕ
  | .name _ => 2
  | .record _ _ => 1
  | .settled _ => 0

theorem SecretService.PriorAccess.weight_pos {read : PriorAccess} (h : read.pending = true) : 0 < read.weight := by
  cases read with
  | name _ => simp [weight]
  | record _ _ => simp [weight]
  | settled _ => cases h

theorem SecretService.PriorAccess.pending_of_weight {read : PriorAccess} (h : read.weight = 0) :
    read.pending = false := by
  cases read with
  | name _ => cases h
  | record _ _ => cases h
  | settled _ => rfl

/-- The ACL of a secret that was archived is gone. -/
theorem Cloud.Named.current (hinv : Invariant init s) {environment secretId u : String}
    {head : HeadRecord} {control : ControlRevision}
    (hnamed : s.Named environment secretId u head.controlVersionId)
    (hloaded : s.Loaded u head control) (hacl : control.acl ≠ [])
    (hversion : s.version u = some head.controlVersionId) :
    ∃ lookup, s.lookup environment secretId = some lookup ∧ lookup.secretUid = u := by
  obtain ⟨current, hcurrent, hcommitted, hcv⟩ := Cloud.version_eq_some.mp hversion
  rcases hnamed.name with hname | ⟨known, harchived, hmem⟩ | ⟨hnone, -⟩
  · exact hname
  · obtain ⟨document, hdescribes⟩ := hinv.heads.described hcurrent hcommitted
    have hnil := hinv.access.sealed harchived hcurrent hcommitted hdescribes (hcv ▸ hmem)
    obtain ⟨-, -, -, ⟨row, hrow, -, -, hserialized⟩, -⟩ := hdescribes.stored
    obtain ⟨row', hrow', -, hserialized'⟩ := hloaded.snapshot.settled
    rw [hcv] at hrow
    obtain rfl : row = row' := Option.some.inj (hrow.symm.trans hrow')
    cases hserialized.symm.trans hserialized'
    exact (hacl hnil).elim
  · cases hnone.symm.trans hcurrent

theorem Cloud.SlotOk.mono {actor : Option ℕ} (hevolves : Evolves actor s s')
    (hinv : Invariant init s) {u consumerId : String} {head : HeadRecord} {body : ObjectBody}
    (hsettled : s.SettledDocument u (.control head.controlVersionId) body) {exact : Prop}
    {read : PriorAccess} (h : s.SlotOk u head exact consumerId read) :
    s'.SlotOk u head exact consumerId read := by
  cases read with
  | name _ => exact h
  | record _ _ =>
      refine ⟨h.1, fun hexact => (h.2 hexact).imp_right fun hne hversion => hne ?_⟩
      exact (hevolves.version hinv.rows hsettled hversion).1
  | settled _ => exact ⟨h.1, fun hexact => hevolves.priorAt hinv.rows hsettled (h.2 hexact)⟩

/-- The prior access records stay accurate as long as the secret is at that version. -/
theorem PriorAccessOk.mono {actor : Option ℕ} (hevolves : Evolves actor s s')
    (hinv : Invariant init s) {u : String} {head : HeadRecord} {control : ControlRevision}
    {body : ObjectBody} (hsettled : s.SettledDocument u (.control head.controlVersionId) body)
    {prior : List AccessRecord} (h : PriorAccessOk s u head control prior) :
    PriorAccessOk s' u head control prior where
  consumer := h.consumer
  accurate access hmem := hevolves.priorAt hinv.rows hsettled (h.accurate access hmem)
  complete grant hmem := (h.complete grant hmem).imp_right fun hnone =>
    hevolves.priorAt hinv.rows hsettled hnone

/-! ## All of them -/

/-- What the process knows about all reads, one for each grant. -/
structure Cloud.Slots (s : Cloud) (u : String) (head : HeadRecord) (exact : Prop)
    (acl : List Grant) (reads : List PriorAccess) : Prop where
  length : reads.length = acl.length
  slot : ∀ {index : ℕ} {grant : Grant} {read : PriorAccess}, acl[index]? = some grant → reads[index]? = some read →
    s.SlotOk u head exact grant.consumerId read

theorem Cloud.Slots.set {u : String} {head : HeadRecord} {exact : Prop} {acl : List Grant}
    {reads : List PriorAccess} (h : s.Slots u head exact acl reads) {index : ℕ} {grant : Grant}
    (hgrant : acl[index]? = some grant) {read : PriorAccess}
    (hread : s.SlotOk u head exact grant.consumerId read) :
    s.Slots u head exact acl (reads.set index read) where
  length := by rw [List.length_set, h.length]
  slot := by
    intro other grant' read' hgrant' hread'
    by_cases hother : index = other
    · subst hother
      obtain rfl : grant = grant' := Option.some.inj (hgrant.symm.trans hgrant')
      rw [List.getElem?_set_self'] at hread'
      obtain ⟨-, -, rfl⟩ := Option.map_eq_some_iff.mp hread'
      exact hread
    · rw [List.getElem?_set_ne hother] at hread'
      exact h.slot hgrant' hread'

def weightOf (reads : List PriorAccess) : ℕ := (reads.map PriorAccess.weight).sum

theorem weightOf_set {reads : List PriorAccess} {index : ℕ} {read read' : PriorAccess}
    (hread : reads[index]? = some read) (hlt : read'.weight < read.weight) :
    weightOf (reads.set index read') < weightOf reads := by
  induction reads generalizing index with
  | nil => simp at hread
  | cons first rest ih =>
      cases index with
      | zero =>
          obtain rfl : first = read := by simpa using hread
          simpa [weightOf] using hlt
      | succ index =>
          have hrest : weightOf (rest.set index read') < weightOf rest :=
            ih (by simpa using hread)
          simpa [weightOf] using hrest

theorem pending_of_weightOf {reads : List PriorAccess} (h : weightOf reads = 0) :
    ∀ read ∈ reads, read.pending = false := by
  intro read hmem
  have hle : read.weight ≤ weightOf reads :=
    List.le_sum_of_mem (List.mem_map_of_mem hmem)
  exact PriorAccess.pending_of_weight (by omega)

theorem pending_of_pendingReads {reads : List PriorAccess} (h : pendingReads reads = []) :
    ∀ read ∈ reads, read.pending = false := by
  intro read hmem
  obtain ⟨index, hlt, rfl⟩ := List.getElem_of_mem hmem
  have hnot := List.filter_eq_nil_iff.mp h index (List.mem_range.mpr hlt)
  simpa [List.getElem?_eq_getElem hlt] using hnot

/-- The read that is chosen is one of the pending ones. -/
theorem pending_chosen {reads : List PriorAccess} (h : pendingReads reads ≠ []) (next : ℕ) :
    ∃ read, reads[(pendingReads reads).getD (next % (pendingReads reads).length) 0]? = some read ∧
      read.pending = true := by
  have hlt : next % (pendingReads reads).length < (pendingReads reads).length :=
    Nat.mod_lt _ (List.length_pos_iff.mpr h)
  have hmem : (pendingReads reads).getD (next % (pendingReads reads).length) 0 ∈
      pendingReads reads := by
    rw [List.getD_eq_getElem?_getD, List.getElem?_eq_getElem hlt]
    exact List.getElem_mem hlt
  have hpending := (List.mem_filter.mp hmem).2
  exact (Option.any_eq_true _ _).mp hpending

theorem Cloud.Slots.start {u : String} {head : HeadRecord} {exact : Prop} {acl : List Grant} :
    s.Slots u head exact acl (acl.map fun grant => .name grant.consumerId) where
  length := by simp
  slot := by
    intro index grant read hgrant hread
    rw [List.getElem?_map, hgrant] at hread
    cases hread
    rfl

theorem weightOf_start (acl : List Grant) :
    weightOf (acl.map fun grant => .name grant.consumerId) = 2 * acl.length := by
  induction acl with
  | nil => rfl
  | cons grant rest ih =>
      simp only [weightOf, List.map_cons, List.sum_cons, List.length_cons] at ih ⊢
      rw [ih]
      simp only [PriorAccess.weight]
      omega

theorem mem_settled {reads : List PriorAccess} {access : AccessRecord} :
    access ∈ reads.filterMap PriorAccess.settled? ↔ .settled (some access) ∈ reads := by
  rw [List.mem_filterMap]
  constructor
  · rintro ⟨read, hread, hsettled⟩
    cases read with
    | name _ => cases hsettled
    | record _ _ => cases hsettled
    | settled found =>
        obtain rfl : found = some access := hsettled
        exact hread
  · exact fun hread => ⟨_, hread, rfl⟩

/-- What is left when all reads are settled. -/
theorem Cloud.Slots.finish {u : String} {head : HeadRecord} {exact : Prop}
    {control : ControlRevision} {reads : List PriorAccess}
    (h : s.Slots u head exact control.acl reads) (hsettled : ∀ read ∈ reads, read.pending = false) :
    (∀ access ∈ reads.filterMap PriorAccess.settled?,
      access.consumerId ∈ control.acl.map Grant.consumerId) ∧
    (exact → PriorAccessOk s u head control (reads.filterMap PriorAccess.settled?)) := by
  have hslot : ∀ access ∈ reads.filterMap PriorAccess.settled?, ∃ grant ∈ control.acl,
      s.SlotOk u head exact grant.consumerId (.settled (some access)) := by
    intro access hmem
    obtain ⟨index, hlt, hread⟩ := List.getElem_of_mem (mem_settled.mp hmem)
    have hgrant := List.getElem?_eq_getElem (l := control.acl) (h.length ▸ hlt)
    exact ⟨_, List.mem_of_getElem? hgrant,
      h.slot hgrant (hread ▸ List.getElem?_eq_getElem hlt)⟩
  have hconsumer : ∀ access ∈ reads.filterMap PriorAccess.settled?,
      access.consumerId ∈ control.acl.map Grant.consumerId := by
    intro access hmem
    obtain ⟨grant, hgrant, hrecord, -⟩ := hslot access hmem
    exact hrecord access rfl ▸ List.mem_map_of_mem hgrant
  refine ⟨hconsumer, fun hexact => ⟨hconsumer, fun access hmem => ?_, fun grant hgrant => ?_⟩⟩
  · obtain ⟨grant, hgrant, hrecord, hprior⟩ := hslot access hmem
    exact hrecord access rfl ▸ hprior hexact
  · obtain ⟨index, hlt, rfl⟩ := List.getElem_of_mem hgrant
    have hinside : index < reads.length := h.length.symm ▸ hlt
    have hread := List.getElem?_eq_getElem hinside
    have hok := h.slot (List.getElem?_eq_getElem hlt) hread
    have hmem := List.mem_of_getElem? hread
    cases hfound : reads[index] with
    | name _ => cases hfound ▸ hsettled _ hmem
    | record _ _ => cases hfound ▸ hsettled _ hmem
    | settled access =>
        rw [hfound] at hok hmem
        cases access with
        | none => exact .inr (hok.2 hexact)
        | some access => exact .inl ⟨access, mem_settled.mpr hmem, hok.1 access rfl⟩

section Specs

variable {issued : Request → Cloud → Prop} {F : Cloud → Prop} {u environment secretId : String}
  {head : HeadRecord} {control : ControlRevision} {exact : Prop}

theorem persists_slots (hF : Persists init pid F)
    (hloaded : ∀ s, F s → s.Loaded u head control) (reads : List PriorAccess) :
    Persists init pid fun s => F s ∧ s.Slots u head exact control.acl reads := by
  intro s s' hinv hinv' hrely h
  obtain ⟨actor, -, hevolves⟩ := hrely.evolves
  refine ⟨hF s s' hinv hinv' hrely h.1, h.2.length, fun hgrant hread => ?_⟩
  exact (h.2.slot hgrant hread).mono hevolves hinv (hloaded s h.1).snapshot.settled

/-- A read whose name has been looked up. -/
def readOf (consumerId : String) : Option String → PriorAccess
  | none => .settled none
  | some secretUid => .record consumerId secretUid

theorem spec_advance (hF : Persists init pid F)
    (hloaded : ∀ s, F s → s.Loaded u head control)
    (hfound : exact → ∀ s, F s → s.Named environment secretId u head.controlVersionId ∧
      head.environment = environment)
    {grant : Grant} (hgrant : grant ∈ control.acl) {read : PriorAccess}
    (hread : ∀ s, F s → s.SlotOk u head exact grant.consumerId read)
    (hpending : read.pending = true) :
    Spec init issued pid F (read.advance environment secretId) fun read' s =>
      s.SlotOk u head exact grant.consumerId read' ∧ read'.weight < read.weight := by
  have hacl : control.acl ≠ [] := List.ne_nil_of_mem hgrant
  cases read with
  | settled access => cases hpending
  | name consumerId =>
      refine .bind (R := fun found s => s.SlotOk u head exact grant.consumerId
        (readOf consumerId found)) ?_ fun found => ?_
      · refine .bind (R := fun lookup s => s.SlotOk u head exact grant.consumerId
          (readOf consumerId (lookup.map SecretLookup.secretUid))) (.get hF _ ?_)
          fun lookup => .ret fun _ _ hs => hs.2
        intro s hinv hs
        have hcurrent : exact → s.version u = some head.controlVersionId →
            ∃ lookup, s.lookup environment secretId = some lookup ∧ lookup.secretUid = u :=
          fun hexact hversion => (hfound hexact s hs).1.current hinv (hloaded s hs) hacl hversion
        cases hlookup : s.table.get (.lookup environment secretId) with
        | none =>
            refine ⟨fun record hrecord => (by cases hrecord), fun hexact hversion => ?_⟩
            obtain ⟨lookup, hsome, -⟩ := hcurrent hexact hversion
            cases hlookup.symm.trans hsome
        | some lookup =>
            refine ⟨hread s hs, fun hexact => ?_⟩
            by_cases hversion : s.version u = some head.controlVersionId
            · obtain ⟨other, hother, huid⟩ := hcurrent hexact hversion
              obtain rfl : lookup = other := Option.some.inj (hlookup.symm.trans hother)
              exact .inl huid
            · exact .inr hversion
      · cases found with
        | none => exact .ret fun _ _ hs => ⟨hs.2, by simp [PriorAccess.weight]⟩
        | some secretUid => exact .ret fun _ _ hs => ⟨hs.2, by simp [PriorAccess.weight]⟩
  | record consumerId secretUid =>
      refine .bind (R := fun access s => s.SlotOk u head exact grant.consumerId (.settled access))
        (.get hF _ fun s hinv hs => ?_) fun access => .ret fun _ _ hs =>
          ⟨hs.2, by simp [PriorAccess.weight]⟩
      obtain ⟨rfl, huid⟩ := hread s hs
      refine ⟨fun record hrecord => (hinv.access.record hrecord).1, fun hexact hversion => ?_⟩
      obtain rfl := (huid hexact).resolve_right fun hne => hne hversion
      rw [(hfound hexact s hs).2]

theorem spec_settleAll (hF : Persists init pid F)
    (hloaded : ∀ s, F s → s.Loaded u head control)
    (hfound : exact → ∀ s, F s → s.Named environment secretId u head.controlVersionId ∧
      head.environment = environment) {steps : ℕ} {reads : List PriorAccess}
    (hweight : weightOf reads ≤ steps) :
    (discipline init).Safe issued pid (fun s => F s ∧ s.Slots u head exact control.acl reads)
      (settleAll environment secretId steps reads)
      (fun result s => F s ∧ s.Slots u head exact control.acl result ∧
        ∀ read ∈ result, read.pending = false) fun _ s => F s := by
  induction steps generalizing reads with
  | zero =>
      exact .ret fun s _ hs => ⟨hs.1, hs.2, pending_of_weightOf (Nat.le_zero.mp hweight)⟩
  | succ steps ih =>
      rw [settleAll]
      refine .ite (fun hnone => .ret fun s _ hs => ⟨hs.1, hs.2, pending_of_pendingReads hnone⟩)
        fun hsome => ?_
      have hslots : Persists init pid fun s => F s ∧ s.Slots u head exact control.acl reads :=
        persists_slots hF hloaded reads
      have hchoose : Spec init issued pid (fun s => F s ∧ s.Slots u head exact control.acl reads)
          (send .choose) fun _ _ => True := .send_any hslots rfl fun _ _ _ => trivial
      refine .bind (hchoose.weaken (fun _ _ h => h) (fun _ _ _ h => h.1) fun _ _ _ h => h.1)
        fun next => ?_
      obtain ⟨read, hread, hpending⟩ := pending_chosen hsome next
      simp only [hread]
      obtain ⟨hlt, -⟩ := List.getElem?_eq_some_iff.mp hread
      refine .of_fact (fun s _ hs => hs.2.length) fun hlength => ?_
      obtain ⟨grant, hgrant⟩ : ∃ grant, control.acl[(pendingReads reads).getD
          (next % (pendingReads reads).length) 0]? = some grant :=
        ⟨_, List.getElem?_eq_getElem (hlength ▸ hlt)⟩
      have hadvance : Spec init issued pid (fun s => F s ∧ s.Slots u head exact control.acl reads)
          (read.advance environment secretId) fun read' s =>
            s.SlotOk u head exact grant.consumerId read' ∧ read'.weight < read.weight :=
        spec_advance hslots (fun s hs => hloaded s hs.1) (fun hexact s hs => hfound hexact s hs.1)
          (List.mem_of_getElem? hgrant) (fun s hs => hs.2.slot hgrant hread) hpending
      refine .bind (hadvance.weaken (fun _ _ h => h) (fun _ _ _ h => h) fun _ _ _ h => h.1)
        fun read' => ?_
      refine .of_fact (fun s _ hs => hs.2.2) fun hlighter => ?_
      have hless := weightOf_set hread hlighter
      refine Discipline.Safe.of_pre (ih (by omega)) fun s _ hs => ?_
      exact ⟨hs.1.1, hs.1.2.set hgrant hs.2.1⟩

/-- **The prior access records of a mutation are those of its prior ACL.** -/
theorem spec_priorAccess (hF : Persists init pid F)
    (hloaded : ∀ s, F s → s.Loaded u head control)
    (hfound : exact → ∀ s, F s → s.Named environment secretId u head.controlVersionId ∧
      head.environment = environment) :
    Spec init issued pid F (priorAccess control.acl environment secretId) fun prior s =>
      (∀ access ∈ prior, access.consumerId ∈ control.acl.map Grant.consumerId) ∧
        (exact → PriorAccessOk s u head control prior) := by
  refine Discipline.Safe.bind ((spec_settleAll hF hloaded hfound
    (weightOf_start control.acl).le).of_pre fun s _ hs => ⟨hs, .start⟩) fun reads => ?_
  exact .ret fun s _ hs => ⟨hs.1, hs.2.1.finish hs.2.2⟩

end Specs

end Hemlig
