import Hemlig.Concurrent.Interleaving

/-!
# Rely-guarantee reasoning for interleaved programs

A discipline fixes an invariant of the store and, for each request, what a
process must know when it issues it.  What another process may do to the store
is then exactly: answer a request issued under that discipline
(`Discipline.Interference`).  An assertion of a process is `Stable` when no such
step breaks it.

`Safe pid P program R E` says that, from a store where `P` holds, every request
of the program is issued under the discipline and the program only returns
values with `R` and raises errors with `E`, whatever is interleaved.  The rules
follow the program: `Safe.bind`, `Safe.recover`, `Safe.request`, and `Safe.weaken`
for the assertions.  `sound` puts the verified programs together: in every run
the invariant holds, and every process stands at a point whose assertion holds.

The predicate `issued` collects the requests that the process has made and the
stores it made them in, so that a result may speak about an earlier moment of
the run.
-/

namespace Hemlig.Concurrent

variable {Q : Type} {A : Q → Type} {ε α β σ χ ι η : Type}

/-- What each process has to respect. -/
structure Discipline (S : System Q A ε α σ χ ι η) where
  /-- The invariant of the store. -/
  inv : σ → Prop
  /-- What must hold when a process issues a request. -/
  pre : ℕ → Q → σ → Prop

namespace Discipline

variable {S : System Q A ε α σ χ ι η} (D : Discipline S)

/-- A step that is not made by process `pid`. -/
inductive Interference (pid : ℕ) (s s' : σ) : Prop where
  | request {other : ℕ} {q : Q} {choice : χ} {answer : A q} (hne : other ≠ pid)
      (hpre : D.pre other q s) (hexec : S.exec other q choice s = some (answer, s'))
  | start {input : ι} (hregister : s' = S.register input s)
  | environment {event : η} (hevent : S.environment event s = some s')

/-- An assertion that no other process can break. -/
def Stable (pid : ℕ) (P : σ → Prop) : Prop :=
  ∀ s s', D.inv s → D.Interference pid s s' → P s → P s'

theorem Stable.and {pid : ℕ} {P R : σ → Prop} (hP : D.Stable pid P) (hR : D.Stable pid R) :
    D.Stable pid fun s => P s ∧ R s :=
  fun s s' hinv hstep h => ⟨hP s s' hinv hstep h.1, hR s s' hinv hstep h.2⟩

theorem Stable.const {pid : ℕ} (p : Prop) : D.Stable pid fun _ => p :=
  fun _ _ _ _ h => h

theorem Stable.exists {pid : ℕ} {ξ : Sort*} {P : ξ → σ → Prop} (h : ∀ x, D.Stable pid (P x)) :
    D.Stable pid fun s => ∃ x, P x s :=
  fun s s' hinv hstep ⟨x, hx⟩ => ⟨x, h x s s' hinv hstep hx⟩

theorem Stable.forall {pid : ℕ} {ξ : Sort*} {P : ξ → σ → Prop} (h : ∀ x, D.Stable pid (P x)) :
    D.Stable pid fun s => ∀ x, P x s :=
  fun s s' hinv hstep hP x => h x s s' hinv hstep (hP x)

theorem Stable.imp {pid : ℕ} {p : Prop} {P : σ → Prop} (h : D.Stable pid P) :
    D.Stable pid fun s => p → P s :=
  fun s s' hinv hstep hP hp => h s s' hinv hstep (hP hp)

/-! ## Safe programs -/

/-- Every request of the program is issued under the discipline; it returns only
values with `R` and raises only errors with `E`. -/
def Safe (issued : Q → σ → Prop) (pid : ℕ) :
    (σ → Prop) → Program Q A ε β → (β → σ → Prop) → (ε → σ → Prop) → Prop
  | P, .ret value, R, _ => ∀ s, D.inv s → P s → R value s
  | P, .raise error, _, E => ∀ s, D.inv s → P s → E error s
  | P, .call q next, R, E =>
      ∃ P₁ : σ → Prop, (∀ s, D.inv s → P s → P₁ s) ∧ D.Stable pid P₁ ∧
        ∀ s, D.inv s → P₁ s → D.pre pid q s ∧
          ∀ choice answer s', issued q s → S.exec pid q choice s = some (answer, s') →
            ∃ P₂ : σ → Prop, P₂ s' ∧ Safe issued pid P₂ (next answer) R E

variable {D} {issued : Q → σ → Prop} {pid : ℕ}

theorem Safe.weaken {P P' : σ → Prop} {program : Program Q A ε β} {R R' : β → σ → Prop}
    {E E' : ε → σ → Prop} (h : D.Safe issued pid P program R E)
    (hP : ∀ s, D.inv s → P' s → P s) (hR : ∀ value s, D.inv s → R value s → R' value s)
    (hE : ∀ error s, D.inv s → E error s → E' error s) :
    D.Safe issued pid P' program R' E' := by
  induction program generalizing P P' with
  | ret value => exact fun s hinv hs => hR value s hinv (h s hinv (hP s hinv hs))
  | raise error => exact fun s hinv hs => hE error s hinv (h s hinv (hP s hinv hs))
  | call q next ih =>
      obtain ⟨P₁, hsub, hstable, hcall⟩ := h
      refine ⟨P₁, fun s hinv hs => hsub s hinv (hP s hinv hs), hstable, fun s hinv hs => ?_⟩
      obtain ⟨hpre, hnext⟩ := hcall s hinv hs
      refine ⟨hpre, fun choice answer s' hissued hexec => ?_⟩
      obtain ⟨P₂, hs', hsafe⟩ := hnext choice answer s' hissued hexec
      exact ⟨P₂, hs', ih answer hsafe fun _ _ h => h⟩

theorem Safe.of_pre {P P' : σ → Prop} {program : Program Q A ε β} {R : β → σ → Prop}
    {E : ε → σ → Prop} (h : D.Safe issued pid P program R E) (hP : ∀ s, D.inv s → P' s → P s) :
    D.Safe issued pid P' program R E :=
  h.weaken hP (fun _ _ _ h => h) fun _ _ _ h => h

theorem Safe.post {P : σ → Prop} {program : Program Q A ε β} {R R' : β → σ → Prop}
    {E : ε → σ → Prop} (h : D.Safe issued pid P program R E)
    (hR : ∀ value s, D.inv s → R value s → R' value s) : D.Safe issued pid P program R' E :=
  h.weaken (fun _ _ h => h) hR fun _ _ _ h => h

theorem Safe.bind {P : σ → Prop} {program : Program Q A ε β} {γ : Type}
    {continuation : β → Program Q A ε γ} {R : β → σ → Prop} {R' : γ → σ → Prop}
    {E : ε → σ → Prop} (h : D.Safe issued pid P program R E)
    (hnext : ∀ value, D.Safe issued pid (R value) (continuation value) R' E) :
    D.Safe issued pid P (program.bind continuation) R' E := by
  induction program generalizing P with
  | ret value => exact (hnext value).of_pre h
  | raise error => exact h
  | call q next ih =>
      obtain ⟨P₁, hsub, hstable, hcall⟩ := h
      refine ⟨P₁, hsub, hstable, fun s hinv hs => ?_⟩
      obtain ⟨hpre, hrest⟩ := hcall s hinv hs
      refine ⟨hpre, fun choice answer s' hissued hexec => ?_⟩
      obtain ⟨P₂, hs', hsafe⟩ := hrest choice answer s' hissued hexec
      exact ⟨P₂, hs', ih answer hsafe⟩

theorem Safe.recover {P : σ → Prop} {program : Program Q A ε β}
    {handler : ε → Program Q A ε β} {R : β → σ → Prop} {E E' : ε → σ → Prop}
    (h : D.Safe issued pid P program R E)
    (hhandler : ∀ error, D.Safe issued pid (E error) (handler error) R E') :
    D.Safe issued pid P (program.recover handler) R E' := by
  induction program generalizing P with
  | ret value => exact h
  | raise error => exact (hhandler error).of_pre h
  | call q next ih =>
      obtain ⟨P₁, hsub, hstable, hcall⟩ := h
      refine ⟨P₁, hsub, hstable, fun s hinv hs => ?_⟩
      obtain ⟨hpre, hrest⟩ := hcall s hinv hs
      refine ⟨hpre, fun choice answer s' hissued hexec => ?_⟩
      obtain ⟨P₂, hs', hsafe⟩ := hrest choice answer s' hissued hexec
      exact ⟨P₂, hs', ih answer hsafe⟩

/-- **One request.**  From a stable assertion that gives the discipline, the
answer has every property that the request establishes in one step. -/
theorem Safe.request {P : σ → Prop} {q : Q} {R : A q → σ → Prop} {E : ε → σ → Prop}
    (hstable : D.Stable pid P) (hpre : ∀ s, D.inv s → P s → D.pre pid q s)
    (hpost : ∀ s choice answer s', D.inv s → P s → issued q s →
      S.exec pid q choice s = some (answer, s') → R answer s') :
    D.Safe issued pid P (Program.request q) R E :=
  ⟨P, fun _ _ h => h, hstable, fun s hinv hs => ⟨hpre s hinv hs,
    fun choice answer s' hissued hexec =>
      ⟨(· = s'), rfl, fun _ _ heq => heq ▸ hpost s choice answer s' hinv hs hissued hexec⟩⟩⟩

theorem Safe.ret {P : σ → Prop} {value : β} {R : β → σ → Prop} {E : ε → σ → Prop}
    (h : ∀ s, D.inv s → P s → R value s) : D.Safe issued pid P (.ret value : Program Q A ε β) R E :=
  h

theorem Safe.raise {P : σ → Prop} {error : ε} {R : β → σ → Prop} {E : ε → σ → Prop}
    (h : ∀ s, D.inv s → P s → E error s) :
    D.Safe issued pid P (.raise error : Program Q A ε β) R E :=
  h

theorem Safe.ofExcept {P : σ → Prop} {outcome : Except ε β} {R : β → σ → Prop}
    {E : ε → σ → Prop} (hok : ∀ value, outcome = .ok value → ∀ s, D.inv s → P s → R value s)
    (herror : ∀ error, outcome = .error error → ∀ s, D.inv s → P s → E error s) :
    D.Safe issued pid P (Program.ofExcept outcome : Program Q A ε β) R E := by
  cases outcome with
  | ok value => exact hok value rfl
  | error error => exact herror error rfl

/-- A conditional is safe when both branches are. -/
theorem Safe.ite {P : σ → Prop} {c : Prop} [Decidable c] {first second : Program Q A ε β}
    {R : β → σ → Prop} {E : ε → σ → Prop} (hfirst : c → D.Safe issued pid P first R E)
    (hsecond : ¬ c → D.Safe issued pid P second R E) :
    D.Safe issued pid P (if c then first else second) R E := by
  split
  · exact hfirst ‹_›
  · exact hsecond ‹_›

/-- A pure fact in the assertion may be used to prove the program safe. -/
theorem Safe.of_fact {p : Prop} {P : σ → Prop} {program : Program Q A ε β} {R : β → σ → Prop}
    {E : ε → σ → Prop} (hfact : ∀ s, D.inv s → P s → p)
    (h : p → D.Safe issued pid P program R E) : D.Safe issued pid P program R E := by
  by_cases hp : p
  · exact h hp
  · have hfalse : ∀ s, D.inv s → P s → False := fun s hinv hs => hp (hfact s hinv hs)
    cases program with
    | ret value => exact fun s hinv hs => (hfalse s hinv hs).elim
    | raise error => exact fun s hinv hs => (hfalse s hinv hs).elim
    | call q next =>
        exact ⟨fun _ => False, hfalse, fun _ _ _ _ h => h, fun _ _ h => h.elim⟩

/-- An assertion may be opened before the program is run. -/
theorem Safe.exists {ξ : Sort*} {P : ξ → σ → Prop} {program : Program Q A ε β} {R : β → σ → Prop}
    {E : ε → σ → Prop} (h : ∀ x, D.Safe issued pid (P x) program R E) :
    D.Safe issued pid (fun s => ∃ x, P x s) program R E := by
  cases program with
  | ret value => exact fun s hinv ⟨x, hx⟩ => h x s hinv hx
  | raise error => exact fun s hinv ⟨x, hx⟩ => h x s hinv hx
  | call q next =>
      choose P₁ hsub hstable hcall using h
      refine ⟨fun s => ∃ x, P₁ x s, fun s hinv ⟨x, hx⟩ => ⟨x, hsub x s hinv hx⟩,
        .exists D hstable, fun s hinv ⟨x, hx⟩ => hcall x s hinv hx⟩


/-- A loop keeps what every round keeps. -/
theorem Safe.forM {γ : Type} {P : σ → Prop} {f : γ → Program Q A ε PUnit} {E : ε → σ → Prop}
    {items : List γ} (h : ∀ item ∈ items, D.Safe issued pid P (f item) (fun _ => P) E) :
    D.Safe issued pid P (items.forM f) (fun _ => P) E := by
  induction items with
  | nil => exact fun _ _ hs => hs
  | cons item rest ih =>
      exact .bind (h item List.mem_cons_self)
        fun _ => ih fun other hother => h other (List.mem_cons_of_mem _ hother)

/-- A loop over the items that are left. -/
theorem Safe.forM_rest {γ : Type} {P : List γ → σ → Prop} {f : γ → Program Q A ε PUnit}
    {E : ε → σ → Prop} (h : ∀ item rest, D.Safe issued pid (P (item :: rest)) (f item)
      (fun _ => P rest) E) (items : List γ) :
    D.Safe issued pid (P items) (items.forM f) (fun _ => P []) E := by
  induction items with
  | nil => exact fun _ _ hs => hs
  | cons item rest ih => exact .bind (h item rest) fun _ => ih

variable (D) in
/-- What survives the other processes and the harmless requests of a process itself. -/
structure Frame (pid : ℕ) (harmless : Q → Prop) (F : σ → Prop) : Prop where
  stable : D.Stable pid F
  pre : ∀ {q s}, harmless q → D.inv s → D.pre pid q s
  own : ∀ {q choice answer s s'}, harmless q → D.inv s → S.exec pid q choice s = some (answer, s') →
    F s → F s'

/-- **The frame rule.**  A program of harmless requests keeps every frame. -/
theorem Safe.only {harmless : Q → Prop} {F : σ → Prop} (hF : D.Frame pid harmless F)
    {program : Program Q A ε β} (h : program.Only harmless) :
    D.Safe issued pid F program (fun _ => F) fun _ => F := by
  induction program with
  | ret value => exact fun _ _ hs => hs
  | raise error => exact fun _ _ hs => hs
  | call q next ih =>
      refine ⟨F, fun _ _ hs => hs, hF.stable, fun s hinv hs => ⟨hF.pre h.1 hinv, ?_⟩⟩
      exact fun choice answer s' _ hexec => ⟨F, hF.own h.1 hinv hexec hs, ih answer (h.2 answer)⟩

/-- What no step under the discipline breaks survives every program. -/
theorem Safe.keep {G : σ → Prop} (hstable : D.Stable pid G)
    (hown : ∀ {q choice answer s s'}, D.inv s → D.pre pid q s →
      S.exec pid q choice s = some (answer, s') → G s → G s')
    {P : σ → Prop} {program : Program Q A ε β} {R : β → σ → Prop} {E : ε → σ → Prop}
    (h : D.Safe issued pid P program R E) :
    D.Safe issued pid (fun s => P s ∧ G s) program (fun value s => R value s ∧ G s)
      fun error s => E error s ∧ G s := by
  induction program generalizing P with
  | ret value => exact fun s hinv hs => ⟨h s hinv hs.1, hs.2⟩
  | raise error => exact fun s hinv hs => ⟨h s hinv hs.1, hs.2⟩
  | call q next ih =>
      obtain ⟨P₁, hsub, hP₁, hcall⟩ := h
      refine ⟨fun s => P₁ s ∧ G s, fun s hinv hs => ⟨hsub s hinv hs.1, hs.2⟩, hP₁.and D hstable,
        fun s hinv hs => ?_⟩
      obtain ⟨hpre, hnext⟩ := hcall s hinv hs.1
      refine ⟨hpre, fun choice answer s' hissued hexec => ?_⟩
      obtain ⟨P₂, hs', hsafe⟩ := hnext choice answer s' hissued hexec
      exact ⟨fun s => P₂ s ∧ G s, ⟨hs', hown hinv hpre hexec hs.2⟩, ih answer hsafe⟩

/-- Two proofs about one program. -/
theorem Safe.both {P P' : σ → Prop} {program : Program Q A ε β} {R R' : β → σ → Prop}
    {E E' : ε → σ → Prop} (h : D.Safe issued pid P program R E)
    (h' : D.Safe issued pid P' program R' E') :
    D.Safe issued pid (fun s => P s ∧ P' s) program (fun value s => R value s ∧ R' value s)
      fun error s => E error s ∧ E' error s := by
  induction program generalizing P P' with
  | ret value => exact fun s hinv hs => ⟨h s hinv hs.1, h' s hinv hs.2⟩
  | raise error => exact fun s hinv hs => ⟨h s hinv hs.1, h' s hinv hs.2⟩
  | call q next ih =>
      obtain ⟨P₁, hsub, hstable, hcall⟩ := h
      obtain ⟨P₁', hsub', hstable', hcall'⟩ := h'
      refine ⟨fun s => P₁ s ∧ P₁' s, fun s hinv hs => ⟨hsub s hinv hs.1, hsub' s hinv hs.2⟩,
        hstable.and D hstable', fun s hinv hs => ?_⟩
      obtain ⟨hpre, hrest⟩ := hcall s hinv hs.1
      obtain ⟨-, hrest'⟩ := hcall' s hinv hs.2
      refine ⟨hpre, fun choice answer s' hissued hexec => ?_⟩
      obtain ⟨P₂, hs', hsafe⟩ := hrest choice answer s' hissued hexec
      obtain ⟨P₂', hs'', hsafe'⟩ := hrest' choice answer s' hissued hexec
      exact ⟨fun s => P₂ s ∧ P₂' s, ⟨hs', hs''⟩, ih answer hsafe hsafe'⟩

/-- What a program raises by its text alone, it raises with what else is known. -/
theorem Safe.raises {p : ε → Prop} {P : σ → Prop} {program : Program Q A ε β} {R : β → σ → Prop}
    {E : ε → σ → Prop} (h : D.Safe issued pid P program R E) (hraises : program.Raises p) :
    D.Safe issued pid P program R fun error s => E error s ∧ p error := by
  induction program generalizing P with
  | ret value => exact h
  | raise error => exact fun s hinv hs => ⟨h s hinv hs, hraises⟩
  | call q next ih =>
      obtain ⟨P₁, hsub, hstable, hcall⟩ := h
      refine ⟨P₁, hsub, hstable, fun s hinv hs => ?_⟩
      obtain ⟨hpre, hrest⟩ := hcall s hinv hs
      refine ⟨hpre, fun choice answer s' hissued hexec => ?_⟩
      obtain ⟨P₂, hs', hsafe⟩ := hrest choice answer s' hissued hexec
      exact ⟨P₂, hs', ih answer hsafe (hraises answer)⟩

/-! ## Soundness -/

variable (D) in
/-- What is to be proved once about the discipline: every step keeps the
invariant. -/
structure Preserved : Prop where
  request : ∀ {pid q choice answer s s'}, D.inv s → D.pre pid q s →
    S.exec pid q choice s = some (answer, s') → D.inv s'
  start : ∀ input {s}, D.inv s → D.inv (S.register input s)
  environment : ∀ {event s s'}, D.inv s → S.environment event s = some s' → D.inv s'

variable (S) in
/-- The requests process `pid` makes in a run, with the stores it makes them in. -/
def Issued (init : World Q A ε α σ ι) (actions : List (Action χ ι η)) (pid : ℕ) (q : Q) (s : σ) :
    Prop :=
  ∃ before choice w input next, before ++ [.step pid choice] <+: actions ∧
    S.run init before = some w ∧ w.store = s ∧ w.procs pid = some (input, .call q next)

variable (D) in
/-- A process stands at a point whose assertion holds, with a safe rest. -/
def Standing (issued : Q → σ → Prop) (pid : ℕ) (program : Program Q A ε α)
    (result : α → σ → Prop) (failure : ε → σ → Prop) (s : σ) : Prop :=
  ∃ P : σ → Prop, D.Stable pid P ∧ P s ∧ D.Safe issued pid P program result failure

/-- At the point between two requests a safe program has a stable assertion. -/
theorem Safe.standing {P : σ → Prop} {program : Program Q A ε α} {result : α → σ → Prop}
    {failure : ε → σ → Prop} (hsafe : D.Safe issued pid P program result failure)
    (hresult : ∀ value, D.Stable pid (result value))
    (hfailure : ∀ error, D.Stable pid (failure error)) {s : σ} (hinv : D.inv s) (hs : P s) :
    D.Standing issued pid program result failure s := by
  cases program with
  | ret value => exact ⟨result value, hresult value, hsafe s hinv hs, fun _ _ h => h⟩
  | raise error => exact ⟨failure error, hfailure error, hsafe s hinv hs, fun _ _ h => h⟩
  | call q next =>
      obtain ⟨P₁, hsub, hstable, hcall⟩ := hsafe
      exact ⟨P₁, hstable, hsub s hinv hs, P₁, fun _ _ h => h, hstable, hcall⟩

theorem Standing.of_interference {program : Program Q A ε α} {result : α → σ → Prop}
    {failure : ε → σ → Prop} {s s' : σ} (h : D.Standing issued pid program result failure s)
    (hinv : D.inv s) (hstep : D.Interference pid s s') :
    D.Standing issued pid program result failure s' := by
  obtain ⟨P, hstable, hs, hsafe⟩ := h
  exact ⟨P, hstable, hstable s s' hinv hstep hs, hsafe⟩

theorem Standing.pre {q : Q} {next : A q → Program Q A ε α} {result : α → σ → Prop}
    {failure : ε → σ → Prop} {s : σ} (h : D.Standing issued pid (.call q next) result failure s)
    (hinv : D.inv s) : D.pre pid q s := by
  obtain ⟨P, -, hs, P₁, hsub, -, hcall⟩ := h
  exact (hcall s hinv (hsub s hinv hs)).1

theorem Standing.returned {value : α} {result : α → σ → Prop} {failure : ε → σ → Prop} {s : σ}
    (h : D.Standing issued pid (.ret value) result failure s) (hinv : D.inv s) : result value s := by
  obtain ⟨P, -, hs, hsafe⟩ := h
  exact hsafe s hinv hs

theorem Standing.raised {error : ε} {result : α → σ → Prop} {failure : ε → σ → Prop} {s : σ}
    (h : D.Standing issued pid (.raise error) result failure s) (hinv : D.inv s) :
    failure error s := by
  obtain ⟨P, -, hs, hsafe⟩ := h
  exact hsafe s hinv hs

variable (D) in
/-- Every program is safe from the store its start registers, and what it
promises about its result and its failure is stable. -/
structure Verified (result : (Q → σ → Prop) → ℕ → ι → α → σ → Prop)
    (failure : (Q → σ → Prop) → ℕ → ι → ε → σ → Prop) : Prop where
  safe : ∀ issued pid input s, D.inv s →
    D.Safe issued pid (· = S.register input s) (S.code input) (result issued pid input)
      (failure issued pid input)
  stable : ∀ issued pid input value, D.Stable pid (result issued pid input value)
  failure : ∀ issued pid input error, D.Stable pid (failure issued pid input error)

/-- **Soundness.**  In every run of verified programs the invariant holds, and
every process stands where its assertion holds. -/
theorem sound {result : (Q → σ → Prop) → ℕ → ι → α → σ → Prop}
    {failure : (Q → σ → Prop) → ℕ → ι → ε → σ → Prop}
    (hpreserved : D.Preserved) (hverified : D.Verified result failure) {store : σ} {w : World Q A ε α σ ι}
    {actions : List (Action χ ι η)} (hinit : D.inv store)
    (hrun : S.run (World.initial store) actions = some w) :
    D.inv w.store ∧ ∀ pid input program, w.procs pid = some (input, program) →
      D.Standing (Issued S (World.initial store) actions pid) pid program
        (result (Issued S (World.initial store) actions pid) pid input)
        (failure (Issued S (World.initial store) actions pid) pid input) w.store := by
  refine S.run_induction (fun _ w => D.inv w.store ∧ ∀ pid input program,
    w.procs pid = some (input, program) →
      D.Standing (Issued S (World.initial store) actions pid) pid program
        (result (Issued S (World.initial store) actions pid) pid input)
        (failure (Issued S (World.initial store) actions pid) pid input) w.store)
    hrun ⟨hinit, by simp [World.initial]⟩ ?_
  rintro before action middle next hsub hmiddle hact ⟨hinv, hprocs⟩
  rcases S.act_cases hact with ⟨started, input, rfl, -, rfl⟩ |
    ⟨stepped, choice, input, q, continuation, answer, after, rfl, hproc, hexec, rfl⟩ |
    ⟨event, after, rfl, hevent, rfl⟩
  · have hinv' := hpreserved.start input hinv
    refine ⟨hinv', fun pid input' program hprogram => ?_⟩
    by_cases hpid : pid = started
    · subst hpid
      simp only [Function.update_self, Option.some.injEq, Prod.mk.injEq] at hprogram
      obtain ⟨rfl, rfl⟩ := hprogram
      exact (hverified.safe _ pid input middle.store hinv).standing
        (hverified.stable _ pid input) (hverified.failure _ pid input) hinv' rfl
    · simp only [Function.update_of_ne hpid] at hprogram
      exact (hprocs pid input' program hprogram).of_interference hinv (.start rfl)
  · have hpre := (hprocs stepped input _ hproc).pre hinv
    have hinv' := hpreserved.request hinv hpre hexec
    refine ⟨hinv', fun pid input' program hprogram => ?_⟩
    by_cases hpid : pid = stepped
    · subst hpid
      simp only [Function.update_self, Option.some.injEq, Prod.mk.injEq] at hprogram
      obtain ⟨rfl, rfl⟩ := hprogram
      obtain ⟨P, -, hs, P₁, hP₁, -, hcall⟩ := hprocs pid input _ hproc
      obtain ⟨P₂, hs', hsafe⟩ := (hcall _ hinv (hP₁ _ hinv hs)).2 choice answer after
        ⟨before, choice, middle, input, continuation, hsub, hmiddle, rfl, hproc⟩ hexec
      exact hsafe.standing (hverified.stable _ pid input) (hverified.failure _ pid input) hinv' hs'
    · simp only [Function.update_of_ne hpid] at hprogram
      exact (hprocs pid input' program hprogram).of_interference hinv
        (.request (Ne.symm hpid) hpre hexec)
  · have hinv' := hpreserved.environment hinv hevent
    exact ⟨hinv', fun pid input program hprogram =>
      (hprocs pid input program hprogram).of_interference hinv (.environment hevent)⟩

end Discipline

end Hemlig.Concurrent
