import Mathlib.Data.List.Induction
import Mathlib.Data.NNRat.Defs
import Mathlib.Data.Rat.Floor
import Mathlib.Tactic.ByContra

/-!
# Reconcile passes of the Kubernetes controller

`run`, `reconcileAll` and `scheduleReconcile` of `packages/kubernetes-controller/src/v1beta.ts`.
A pass takes a while, and between any two of its steps watch events arrive, the timer fires and
the run loop wakes up.  What a pass reconciles is left out: it ends, or it throws, and meanwhile
single resources may fail.

Two callers start passes.  The run loop waits between its passes, and retries one that threw
after a while; the timer's callback schedules another one.  A timer may fire at any time: late
where the process is busy, early where its delay is more than `setTimeout` can wait for.

A request that arrived after the latest pass started is never forgotten (`Ensured`): each step
either leaves alone what ensures the next pass or puts something else in its place.
-/

namespace Hemlig.Controller.Reconcile

/-! ## Errors -/

inductive ErrorKind
  | reconcileError
  | hemligError (status : ℕ)
  -- Any other error, with the numeric `code` of a Kubernetes one.
  | other (code : Option ℕ)
  deriving DecidableEq, Repr

structure PassError where
  kind : ErrorKind
  -- The header `retry-after`, if the error has headers.
  retryAfter : Option String
  deriving DecidableEq, Repr

def isTransientStatus (status : ℕ) : Bool :=
  status = 408 ∨ status = 409 ∨ status = 412 ∨ status = 425 ∨ status = 429 ∨ status ≥ 500

def isTransientResourceError (error : PassError) : Bool :=
  match error.kind with
  | .reconcileError => false
  | .hemligError status => isTransientStatus status
  | .other none => true
  | .other (some status) => isTransientStatus status

def retryAfterMilliseconds (error : PassError) : Option ℕ :=
  match error.retryAfter with
  | none => none
  | some text =>
      -- `/^\d+$/`, and `Number.isSafeInteger` of what it reads.
      if text ≠ "" ∧ text.toList.all Char.isDigit then
        let seconds := text.toList.foldl (fun value c => 10 * value + (c.toNat - '0'.toNat)) 0
        if seconds < 2 ^ 53 then some (seconds * 1000) else none
      else none

/-! ## The controller -/

structure Config where
  sourceDebounceMilliseconds : ℕ
  reconcileRetryMilliseconds : Option ℕ
  reconcileRetryMaxMilliseconds : Option ℕ

/-- Where the run loop is. -/
inductive RunLoop
  | starting
  | passing
  -- Its pass, or its request for one, is done, and the interval not yet begun.
  | passed
  | waiting
  -- Its pass threw, and the error is not yet caught.
  | thrown (error : PassError)
  | backingOff
  deriving DecidableEq, Repr

/-- Who runs a pass. -/
inductive Owner
  | loop
  | timer
  deriving DecidableEq, Repr

structure State where
  now : ℚ := 0
  reconcileTimer : Bool := false
  reconcileDueAt : ℚ := 0
  reconciling : Bool := false
  rerunRequested : Bool := false
  passRetryError : Option PassError := none
  retryAttempt : ℕ := 0
  loop : RunLoop := .starting
  passes : List Owner := []
  -- Passes of the timer that threw, and whose errors are not yet caught.
  thrown : List PassError := []
  -- A request arrived after the latest pass started.
  unserved : Bool := false

variable (config : Config)

def eventDelay (s : State) : ℕ :=
  if s.retryAttempt = 0 then config.sourceDebounceMilliseconds
  else max config.sourceDebounceMilliseconds (config.reconcileRetryMilliseconds.getD 1000)

def scheduleReconcile (delayMilliseconds : ℕ) (s : State) : State :=
  let dueAt := s.now + delayMilliseconds
  if s.reconcileTimer ∧ s.reconcileDueAt ≤ dueAt then { s with unserved := true }
  else { s with reconcileTimer := true, reconcileDueAt := dueAt, unserved := true }

/-- `random` is what `Math.random` returns. -/
def nextRetryDelay (error : PassError) (random : ℚ) (s : State) : ℕ × State :=
  let base := config.reconcileRetryMilliseconds.getD 1000
  let most := config.reconcileRetryMaxMilliseconds.getD 300000
  let ceiling : ℕ := min most (base * 2 ^ min s.retryAttempt 30)
  let jittered : ℚ := ceiling / 2 + random * (ceiling / 2)
  (max ((retryAfterMilliseconds error).getD 0) ⌊jittered + 1 / 2⌋.toNat,
    { s with retryAttempt := s.retryAttempt + 1 })

def scheduleRetry (error : PassError) (random : ℚ) (s : State) : State :=
  let (delay, s) := nextRetryDelay config error random s
  scheduleReconcile delay s

/-- The call of `reconcileAll`, up to where it first waits. -/
def reconcileAll (owner : Owner) (s : State) : State :=
  if s.reconciling then { s with rerunRequested := true, unserved := true }
  else { s with
    reconciling := true
    rerunRequested := false
    passRetryError := none
    passes := owner :: s.passes
    unserved := false }

def scheduleTransientResourceRetry (error : PassError) (s : State) : State :=
  if isTransientResourceError error then { s with passRetryError := some error } else s

/-- The end of `reconcileAll` after a pass that did not throw. -/
def finishPass (random : ℚ) (s : State) : State :=
  let retry := s.passRetryError
  let s := { s with reconciling := false, passRetryError := none }
  let s := match retry with
    | none => { s with retryAttempt := 0 }
    | some error => scheduleRetry config error random s
  if s.rerunRequested then
    scheduleReconcile (eventDelay config s) { s with rerunRequested := false }
  else s

inductive Event
  | timePasses (elapsed : ℚ≥0)
  -- A watch event that is relevant, or an MQTT hint.
  | requested
  | timerFires
  | loopWakes
  | resourceFails (error : PassError)
  | passEnds (place : ℕ) (random : ℚ)
  | passThrows (place : ℕ) (error : PassError)
  | loopGoesOn
  | loopCatches (random : ℚ)
  | timerCatches (place : ℕ) (random : ℚ)

/-- The callback of the timer. -/
def timerFires (s : State) : State := reconcileAll .timer { s with reconcileTimer := false }

/-- The run loop calls `reconcileAll`. -/
def callPass (s : State) : State :=
  { reconcileAll .loop s with loop := if s.reconciling then .passed else .passing }

/-- What the caller of a pass that ended sees. -/
def returned (owner : Owner) (s : State) : State :=
  match owner with
  | .loop => { s with loop := .passed }
  | .timer => s

def threw (owner : Owner) (error : PassError) (s : State) : State :=
  let s := { s with reconciling := false, unserved := true }
  match owner with
  | .loop => { s with loop := .thrown error }
  | .timer => { s with thrown := error :: s.thrown }

/-- The pass is no longer running. -/
def leave (place : ℕ) (s : State) : State := { s with passes := s.passes.eraseIdx place }

def step (s : State) : Event → State
  | .timePasses elapsed => { s with now := s.now + elapsed }
  | .requested => scheduleReconcile (eventDelay config s) s
  | .timerFires => if s.reconcileTimer then timerFires s else s
  | .loopWakes =>
      if s.loop = .starting ∨ s.loop = .waiting ∨ s.loop = .backingOff then callPass s else s
  | .resourceFails error => if s.passes = [] then s else scheduleTransientResourceRetry error s
  | .passEnds place random =>
      match s.passes[place]? with
      | none => s
      | some owner => returned owner (finishPass config random (leave place s))
  | .passThrows place error =>
      match s.passes[place]? with
      | none => s
      | some owner => threw owner error (leave place s)
  | .loopGoesOn => if s.loop = .passed then { s with loop := .waiting } else s
  | .loopCatches random =>
      match s.loop with
      | .thrown error => { (nextRetryDelay config error random s).2 with loop := .backingOff }
      | _ => s
  | .timerCatches place random =>
      match s.thrown[place]? with
      | none => s
      | some error =>
          scheduleRetry config error random { s with thrown := s.thrown.eraseIdx place }

/-- The state after some events. -/
def after (events : List Event) : State := events.foldl (step config) {}

/-! ## What ensures the next pass -/

/-- A pass will start: a timer is pending, or the pass that runs will ask for another one, or a
pass that threw is about to be retried. -/
inductive Ensured (s : State) : Prop
  | timer (h : s.reconcileTimer = true)
  | rerun (hpass : s.passes ≠ []) (h : s.rerunRequested = true)
  | loopThrew {error : PassError} (h : s.loop = .thrown error)
  | loopBacksOff (h : s.loop = .backingOff)
  | timerThrew (h : s.thrown ≠ [])

/-- One pass runs at a time, and no request is forgotten. -/
structure Sound (s : State) : Prop where
  single : s.passes.length ≤ 1
  guarded : s.reconciling = true ↔ s.passes ≠ []
  loop : Owner.loop ∈ s.passes → s.loop = .passing
  ensured : s.unserved = true → Ensured s

variable {config} {s : State}

/-! ## Scheduling -/

@[simp] theorem passes_scheduleReconcile (delay : ℕ) :
    (scheduleReconcile delay s).passes = s.passes := by
  unfold scheduleReconcile
  dsimp only
  split <;> rfl

@[simp] theorem reconciling_scheduleReconcile (delay : ℕ) :
    (scheduleReconcile delay s).reconciling = s.reconciling := by
  unfold scheduleReconcile
  dsimp only
  split <;> rfl

@[simp] theorem loop_scheduleReconcile (delay : ℕ) :
    (scheduleReconcile delay s).loop = s.loop := by
  unfold scheduleReconcile
  dsimp only
  split <;> rfl

@[simp] theorem thrown_scheduleReconcile (delay : ℕ) :
    (scheduleReconcile delay s).thrown = s.thrown := by
  unfold scheduleReconcile
  dsimp only
  split <;> rfl

@[simp] theorem rerunRequested_scheduleReconcile (delay : ℕ) :
    (scheduleReconcile delay s).rerunRequested = s.rerunRequested := by
  unfold scheduleReconcile
  dsimp only
  split <;> rfl

/-- Once a pass is scheduled, the timer is pending. -/
@[simp] theorem reconcileTimer_scheduleReconcile (delay : ℕ) :
    (scheduleReconcile delay s).reconcileTimer = true := by
  unfold scheduleReconcile
  dsimp only
  split
  · rename_i hpending
    exact hpending.1
  · rfl

/-- The timer is pending, and is due no later than it was. -/
structure Earlier (s s' : State) : Prop where
  pending : s.reconcileTimer = true → s'.reconcileTimer = true
  due : s.reconcileTimer = true → s'.reconcileDueAt ≤ s.reconcileDueAt

theorem Earlier.refl (s : State) : Earlier s s := ⟨id, fun _ => le_refl _⟩

theorem Earlier.trans {s' s'' : State} (h : Earlier s s') (h' : Earlier s' s'') : Earlier s s'' :=
  ⟨fun hpending => h'.pending (h.pending hpending),
    fun hpending => (h'.due (h.pending hpending)).trans (h.due hpending)⟩

/-- Where neither the timer nor its due time is touched. -/
theorem Earlier.of_eq {s' : State} (htimer : s'.reconcileTimer = s.reconcileTimer)
    (hdue : s'.reconcileDueAt = s.reconcileDueAt) : Earlier s s' :=
  ⟨fun hpending => htimer.trans hpending, fun _ => hdue.le⟩

theorem earlier_scheduleReconcile (delay : ℕ) : Earlier s (scheduleReconcile delay s) := by
  refine ⟨fun _ => reconcileTimer_scheduleReconcile delay, fun hpending => ?_⟩
  unfold scheduleReconcile
  dsimp only
  split
  · exact le_refl _
  · rename_i hlater
    exact (not_le.mp fun hle => hlater ⟨hpending, hle⟩).le

theorem earlier_scheduleRetry (error : PassError) (random : ℚ) :
    Earlier s (scheduleRetry config error random s) := by
  obtain ⟨delay, heq⟩ : ∃ delay, scheduleRetry config error random s =
      scheduleReconcile delay { s with retryAttempt := s.retryAttempt + 1 } := ⟨_, rfl⟩
  rw [heq]
  exact Earlier.trans (Earlier.of_eq rfl rfl : Earlier s { s with retryAttempt := s.retryAttempt + 1 })
    (earlier_scheduleReconcile delay)

/-! ## The end of a pass -/

/-- What the end of a pass does. -/
structure Finished (s s' : State) : Prop where
  reconciling : s'.reconciling = false
  passes : s'.passes = s.passes
  loop : s'.loop = s.loop
  thrown : s'.thrown = s.thrown
  earlier : Earlier s s'
  -- What was asked for during the pass, or failed, is scheduled.
  scheduled : s.rerunRequested = true → s'.reconcileTimer = true
  unserved : s'.unserved = true → s.unserved = true ∨ s'.reconcileTimer = true

/-- **A pass that ends schedules all that was asked for while it ran.** -/
theorem finished_finishPass (random : ℚ) : Finished s (finishPass config random s) := by
  unfold finishPass
  dsimp only
  -- What a transient failure of a resource asks for comes first.
  generalize hretried : (match s.passRetryError with
    | none => { s with reconciling := false, passRetryError := none, retryAttempt := 0 }
    | some error =>
        scheduleRetry config error random { s with reconciling := false, passRetryError := none })
    = retried
  have hbase : retried.reconciling = false ∧ retried.passes = s.passes ∧
      retried.loop = s.loop ∧ retried.thrown = s.thrown ∧ Earlier s retried ∧
      retried.rerunRequested = s.rerunRequested ∧
      (retried.unserved = true → s.unserved = true ∨ retried.reconcileTimer = true) := by
    subst hretried
    cases s.passRetryError with
    | none => exact ⟨rfl, rfl, rfl, rfl, Earlier.of_eq rfl rfl, rfl, .inl⟩
    | some error =>
        have hended : Earlier s { s with reconciling := false, passRetryError := none } :=
          .of_eq rfl rfl
        refine ⟨?_, ?_, ?_, ?_, hended.trans (earlier_scheduleRetry error random), ?_, fun _ => ?_⟩
        all_goals simp [scheduleRetry, nextRetryDelay]
  obtain ⟨hreconciling, hpasses, hloop, hthrown, hearlier, hrerun, hunserved⟩ := hbase
  by_cases hasked : s.rerunRequested = true
  · rw [if_pos (hrerun.trans hasked)]
    have hcleared : Earlier retried { retried with rerunRequested := false } := .of_eq rfl rfl
    refine ⟨by simpa, by simpa, by simpa, by simpa, ?_, fun _ => ?_, fun _ => .inr ?_⟩
    · exact (hearlier.trans hcleared).trans (earlier_scheduleReconcile _)
    · exact reconcileTimer_scheduleReconcile _
    · exact reconcileTimer_scheduleReconcile _
  · rw [if_neg (hrerun ▸ hasked)]
    exact ⟨hreconciling, hpasses, hloop, hthrown, hearlier, fun h => absurd h hasked, hunserved⟩

/-! ## Steps -/

theorem Ensured.of_earlier {s' : State} (h : Ensured s) (hearlier : Earlier s s')
    (hpasses : s'.passes = s.passes) (hrerun : s'.rerunRequested = s.rerunRequested)
    (hloop : s'.loop = s.loop) (hthrown : s'.thrown = s.thrown) : Ensured s' := by
  cases h with
  | timer h => exact .timer (hearlier.pending h)
  | rerun hpass h => exact .rerun (hpasses ▸ hpass) (hrerun.trans h)
  | loopThrew h => exact .loopThrew (hloop.trans h)
  | loopBacksOff h => exact .loopBacksOff (hloop.trans h)
  | timerThrew h => exact .timerThrew (hthrown ▸ h)

/-- Scheduling a pass ensures it. -/
theorem Sound.scheduleReconcile (h : Sound s) (delay : ℕ) : Sound (scheduleReconcile delay s) where
  single := by simpa using h.single
  guarded := by simpa using h.guarded
  loop := by simpa using h.loop
  ensured _ := .timer (reconcileTimer_scheduleReconcile delay)

/-- A request for a pass starts one, or marks the one that runs. -/
theorem Sound.reconcileAll (h : Sound s) (owner : Owner) :
    (reconcileAll owner s).passes.length ≤ 1 ∧
      ((reconcileAll owner s).reconciling = true ↔ (reconcileAll owner s).passes ≠ []) ∧
      ((reconcileAll owner s).unserved = true →
        (reconcileAll owner s).passes ≠ [] ∧ (reconcileAll owner s).rerunRequested = true) ∧
      (reconcileAll owner s).passes = if s.reconciling then s.passes else [owner] := by
  unfold Reconcile.reconcileAll
  by_cases hrunning : s.reconciling = true
  · rw [if_pos hrunning]
    exact ⟨h.single, h.guarded, fun _ => ⟨h.guarded.mp hrunning, rfl⟩, (if_pos hrunning).symm⟩
  · have hnone : s.passes = [] := by
      by_contra hsome
      exact hrunning (h.guarded.mpr hsome)
    rw [if_neg hrunning]
    refine ⟨by simp [hnone], by simp, by simp, ?_⟩
    rw [if_neg hrunning, hnone]

/-- There is one pass at most to leave. -/
theorem Sound.alone (h : Sound s) {place : ℕ} {owner : Owner}
    (howner : s.passes[place]? = some owner) :
    s.passes = [owner] ∧ (leave place s).passes = [] := by
  have hsingle := h.single
  unfold leave
  match hpasses : s.passes with
  | [] => simp [hpasses] at howner
  | [other] =>
      rw [hpasses] at howner
      cases place with
      | zero => simpa using howner
      | succ place => simp at howner
  | first :: second :: rest =>
      rw [hpasses] at hsingle
      simp at hsingle

theorem Sound.callPass (h : Sound s) (hloop : s.loop ≠ .passing) : Sound (callPass s) := by
  obtain ⟨hsingle, hguarded, hensured, hpasses⟩ := h.reconcileAll .loop
  refine ⟨hsingle, hguarded, fun hmem => ?_, fun hunserved => ?_⟩
  · show (if s.reconciling then RunLoop.passed else RunLoop.passing) = .passing
    by_cases hrunning : s.reconciling = true
    · rw [if_pos hrunning] at hpasses
      exact absurd (h.loop (hpasses ▸ hmem)) hloop
    · exact if_neg hrunning
  · obtain ⟨hpass, hrerun⟩ := hensured hunserved
    exact .rerun hpass hrerun

theorem Sound.timerFires (h : Sound s) : Sound (timerFires s) := by
  have hfired : Sound { s with reconcileTimer := false, unserved := false } :=
    ⟨h.single, h.guarded, h.loop, nofun⟩
  obtain ⟨hsingle, hguarded, hensured, hpasses⟩ := hfired.reconcileAll .timer
  have heq : Reconcile.timerFires s =
      Reconcile.reconcileAll .timer { s with reconcileTimer := false, unserved := false } := by
    unfold Reconcile.timerFires Reconcile.reconcileAll
    rfl
  rw [heq]
  refine ⟨hsingle, hguarded, fun hmem => ?_, fun hunserved => ?_⟩
  · have hloop : (Reconcile.reconcileAll .timer
        { s with reconcileTimer := false, unserved := false }).loop = s.loop := by
      unfold Reconcile.reconcileAll
      dsimp only
      split <;> rfl
    rw [hpasses] at hmem
    rw [hloop]
    split at hmem
    · exact h.loop hmem
    · cases List.mem_singleton.mp hmem
  · obtain ⟨hpass, hrerun⟩ := hensured hunserved
    exact .rerun hpass hrerun

/-- A pass that ends leaves what it was asked for to the timer. -/
theorem Sound.passEnds (h : Sound s) {place : ℕ} {owner : Owner}
    (howner : s.passes[place]? = some owner) (random : ℚ) :
    Sound (returned owner (finishPass config random (leave place s))) := by
  obtain ⟨hpasses, hleft⟩ := h.alone howner
  have hfinished : Finished (leave place s) (finishPass config random (leave place s)) :=
    finished_finishPass random
  have hnone : (finishPass config random (leave place s)).passes = [] :=
    hfinished.passes.trans hleft
  have hkept : (finishPass config random (leave place s)).unserved = true →
      (finishPass config random (leave place s)).reconcileTimer = true ∨ s.thrown ≠ [] ∨
        s.loop = .backingOff ∨ ∃ error, s.loop = .thrown error := by
    intro hunserved
    rcases hfinished.unserved hunserved with hbefore | htimer
    · cases h.ensured hbefore with
      | timer htimer => exact .inl (hfinished.earlier.pending htimer)
      | rerun _ hrerun => exact .inl (hfinished.scheduled hrerun)
      | loopThrew hloop => exact .inr (.inr (.inr ⟨_, hloop⟩))
      | loopBacksOff hloop => exact .inr (.inr (.inl hloop))
      | timerThrew hthrown => exact .inr (.inl hthrown)
    · exact .inl htimer
  have hthrown : (finishPass config random (leave place s)).thrown = s.thrown := hfinished.thrown
  have hloop : (finishPass config random (leave place s)).loop = s.loop := hfinished.loop
  cases owner with
  | loop =>
      have hpassing : s.loop = .passing := h.loop (by simp [hpasses])
      refine ⟨?_, ?_, ?_, fun hunserved => ?_⟩
      · simp [returned, hnone]
      · simp [returned, hnone, hfinished.reconciling]
      · simp [returned, hnone]
      · rcases hkept hunserved with htimer | hothers | hbacksOff | ⟨error, hthrew⟩
        · exact .timer htimer
        · exact .timerThrew (hthrown ▸ hothers)
        · rw [hpassing] at hbacksOff
          cases hbacksOff
        · rw [hpassing] at hthrew
          cases hthrew
  | timer =>
      refine ⟨?_, ?_, ?_, fun hunserved => ?_⟩
      · simp [returned, hnone]
      · simp [returned, hnone, hfinished.reconciling]
      · simp [returned, hnone]
      · rcases hkept hunserved with htimer | hothers | hbacksOff | ⟨error, hthrew⟩
        · exact .timer htimer
        · exact .timerThrew (hthrown ▸ hothers)
        · exact .loopBacksOff (hloop.trans hbacksOff)
        · exact .loopThrew (hloop.trans hthrew)

/-- A pass that throws is retried by who ran it. -/
theorem Sound.passThrows (h : Sound s) {place : ℕ} {owner : Owner}
    (howner : s.passes[place]? = some owner) (error : PassError) :
    Sound (threw owner error (leave place s)) := by
  obtain ⟨hpasses, hleft⟩ := h.alone howner
  cases owner with
  | loop =>
      refine ⟨by simp [threw, hleft], by simp [threw, hleft], by simp [threw, hleft], fun _ => ?_⟩
      exact .loopThrew rfl
  | timer =>
      refine ⟨by simp [threw, hleft], by simp [threw, hleft], by simp [threw, hleft], fun _ => ?_⟩
      exact .timerThrew (List.cons_ne_nil _ _)

/-- **A step forgets no request.** -/
theorem Sound.step (h : Sound s) (event : Event) : Sound (step config s event) := by
  cases event with
  | timePasses elapsed =>
      refine ⟨h.single, h.guarded, h.loop, fun hunserved => ?_⟩
      exact (h.ensured hunserved).of_earlier (.of_eq rfl rfl) rfl rfl rfl rfl
  | requested => exact h.scheduleReconcile _
  | timerFires =>
      show Sound (if s.reconcileTimer then Reconcile.timerFires s else s)
      split
      · exact h.timerFires
      · exact h
  | loopWakes =>
      show Sound (if s.loop = .starting ∨ s.loop = .waiting ∨ s.loop = .backingOff then
        Reconcile.callPass s else s)
      split
      · rename_i hidle
        refine h.callPass fun hpassing => ?_
        rw [hpassing] at hidle
        simp at hidle
      · exact h
  | resourceFails error =>
      show Sound (if s.passes = [] then s else scheduleTransientResourceRetry error s)
      unfold scheduleTransientResourceRetry
      split
      · exact h
      · split
        · refine ⟨h.single, h.guarded, h.loop, fun hunserved => ?_⟩
          exact (h.ensured hunserved).of_earlier (.of_eq rfl rfl) rfl rfl rfl rfl
        · exact h
  | passEnds place random =>
      show Sound (match s.passes[place]? with
        | none => s
        | some owner => returned owner (finishPass config random (leave place s)))
      cases howner : s.passes[place]? with
      | none => exact h
      | some owner => exact h.passEnds howner random
  | passThrows place error =>
      show Sound (match s.passes[place]? with
        | none => s
        | some owner => threw owner error (leave place s))
      cases howner : s.passes[place]? with
      | none => exact h
      | some owner => exact h.passThrows howner error
  | loopGoesOn =>
      show Sound (if s.loop = .passed then { s with loop := .waiting } else s)
      split
      · rename_i hpassed
        refine ⟨h.single, h.guarded, fun hmem => ?_, fun hunserved => ?_⟩
        · exact absurd (hpassed.symm.trans (h.loop hmem)) (by simp)
        · cases h.ensured hunserved with
          | timer htimer => exact .timer htimer
          | rerun hpass hrerun => exact .rerun hpass hrerun
          | loopThrew hloop => exact absurd (hpassed.symm.trans hloop) (by simp)
          | loopBacksOff hloop => exact absurd (hpassed.symm.trans hloop) (by simp)
          | timerThrew hthrown => exact .timerThrew hthrown
      · exact h
  | loopCatches random =>
      show Sound (match s.loop with
        | .thrown error => { (nextRetryDelay config error random s).2 with loop := .backingOff }
        | _ => s)
      split
      · rename_i error hthrew
        refine ⟨h.single, h.guarded, fun hmem => ?_, fun _ => .loopBacksOff rfl⟩
        exact absurd (hthrew.symm.trans (h.loop hmem)) (by simp)
      · exact h
  | timerCatches place random =>
      show Sound (match s.thrown[place]? with
        | none => s
        | some error =>
            scheduleRetry config error random { s with thrown := s.thrown.eraseIdx place })
      cases herror : s.thrown[place]? with
      | none => exact h
      | some error =>
          have hcaught : Sound { s with
              thrown := s.thrown.eraseIdx place
              retryAttempt := s.retryAttempt + 1
              unserved := false } :=
            ⟨h.single, h.guarded, h.loop, nofun⟩
          exact hcaught.scheduleReconcile _

/-- A step other than the firing of the timer does not put a pass off. -/
theorem earlier_step {event : Event} (hevent : event ≠ .timerFires) :
    Earlier s (step config s event) := by
  cases event with
  | timePasses elapsed => exact .of_eq rfl rfl
  | requested => exact earlier_scheduleReconcile _
  | timerFires => exact absurd rfl hevent
  | loopWakes =>
      unfold step callPass reconcileAll
      dsimp only
      split
      · split <;> exact .of_eq rfl rfl
      · exact .refl s
  | resourceFails error =>
      unfold step scheduleTransientResourceRetry
      dsimp only
      split
      · exact .refl s
      · split
        · exact .of_eq rfl rfl
        · exact .refl s
  | passEnds place random =>
      unfold step
      dsimp only
      split
      · exact .refl s
      · rename_i owner howner
        have hleft : Earlier s (leave place s) := .of_eq rfl rfl
        have hfinished : Finished (leave place s) (finishPass config random (leave place s)) :=
        finished_finishPass random
        cases owner with
        | loop => exact (hleft.trans hfinished.earlier).trans (.of_eq rfl rfl)
        | timer => exact hleft.trans hfinished.earlier
  | passThrows place error =>
      unfold step
      dsimp only
      split
      · exact .refl s
      · rename_i owner howner
        cases owner with
        | loop => exact .of_eq rfl rfl
        | timer => exact .of_eq rfl rfl
  | loopGoesOn =>
      unfold step
      dsimp only
      split
      · exact .of_eq rfl rfl
      · exact .refl s
  | loopCatches random =>
      unfold step
      dsimp only
      split
      · exact .of_eq rfl rfl
      · exact .refl s
  | timerCatches place random =>
      unfold step
      dsimp only
      split
      · exact .refl s
      · have hcaught : Earlier s { s with thrown := s.thrown.eraseIdx place } := .of_eq rfl rfl
        exact hcaught.trans (earlier_scheduleRetry _ _)

theorem sound_after (config : Config) (events : List Event) : Sound (after config events) := by
  induction events using List.reverseRecOn with
  | nil => exact ⟨Nat.zero_le _, by simp [after], by simp [after], nofun⟩
  | append_singleton events event ih =>
      unfold after at ih ⊢
      rw [List.foldl_append]
      exact ih.step event

end Hemlig.Controller.Reconcile
