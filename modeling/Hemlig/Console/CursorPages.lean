import Mathlib.Data.List.Induction
import Mathlib.Data.List.TakeDrop
import Mathlib.Data.Nat.Notation
import Mathlib.Tactic.ByContra
import Mathlib.Tactic.Push

/-!
# Pages of a listing that the console loads

`useCursorPages` keeps what was loaded of a listing, and follows cursors from page to page.
Between the request for a page and its arrival anything may happen: further calls, and resets,
after which another listing is in force.

The continuation of a request writes what it got, whatever was reset meanwhile.  So what is shown
is a part of the listing in force (`Faithful`) exactly as long as nothing is reset while a page
is under way.
-/

namespace Hemlig.Console.UseCursorPages

variable {T Cursor Error : Type}

/-! ## Listings -/

structure CursorPage (T Cursor : Type) where
  items : List T
  nextCursor : Option Cursor

/-- What `fetchPage` answers. -/
abbrev Listing (T Cursor : Type) := Option Cursor → CursorPage T Cursor

/-- The first pages of a listing, and the cursor of the page that follows, if there is one. -/
inductive Loaded (listing : Listing T Cursor) :
    List (CursorPage T Cursor) → Option (Option Cursor) → Prop
  | start : Loaded listing [] (some none)
  | page {pages cursor} (h : Loaded listing pages (some cursor)) :
      Loaded listing (pages ++ [listing cursor]) ((listing cursor).nextCursor.map some)

/-! ## The composable -/

structure CursorPages (T Cursor Error : Type) where
  items : List T := []
  loading : Bool := false
  exhausted : Bool := false
  error : Option Error := none
  pagesFetched : ℕ := 0
  cursor : Option Cursor := none

/-- A call of `loadMore` that waits for the page it requested. -/
structure Request (T Cursor : Type) where
  hop : ℕ
  -- What the listing in force answered when the request was made.
  answer : CursorPage T Cursor
  -- How often there had been a reset.
  since : ℕ

structure State (T Cursor Error : Type) where
  pages : CursorPages T Cursor Error := {}
  inForce : Listing T Cursor
  inFlight : List (Request T Cursor) := []
  resets : ℕ := 0

inductive Event (T Cursor Error : Type)
  | loadMore
  | reset (listing : Listing T Cursor)
  -- The page of the request at a place arrives, or its request fails.
  | arrives (place : ℕ)
  | fails (place : ℕ) (error : Error)

variable (hopBudget : ℕ)

/-- The loop of `loadMore` from a hop on: the next page is requested, or all is done. -/
def hop (count : ℕ) (s : State T Cursor Error) : State T Cursor Error :=
  if count < hopBudget then
    { s with inFlight :=
        { hop := count, answer := s.inForce s.pages.cursor, since := s.resets } :: s.inFlight }
  else { s with pages := { s.pages with loading := false } }

def loadMore (s : State T Cursor Error) : State T Cursor Error :=
  if s.pages.loading ∨ s.pages.exhausted then s
  else hop hopBudget 0 { s with pages := { s.pages with loading := true, error := none } }

def reset (listing : Listing T Cursor) (s : State T Cursor Error) : State T Cursor Error :=
  { s with
    pages := { s.pages with
      items := [], cursor := none, exhausted := false, error := none, pagesFetched := 0 }
    inForce := listing
    resets := s.resets + 1 }

/-- The continuation of a request whose page arrived. -/
def arrived (request : Request T Cursor) (s : State T Cursor Error) : State T Cursor Error :=
  let page := request.answer
  let pages := { s.pages with
    pagesFetched := s.pages.pagesFetched + 1
    items := s.pages.items ++ page.items
    cursor := page.nextCursor }
  if page.nextCursor.isNone then
    { s with pages := { pages with exhausted := true, loading := false } }
  else if 0 < page.items.length then { s with pages := { pages with loading := false } }
  else hop hopBudget (request.hop + 1) { s with pages }

def failed (error : Error) (s : State T Cursor Error) : State T Cursor Error :=
  { s with pages := { s.pages with error := some error, loading := false } }

/-- One request is no longer in flight. -/
def settled (place : ℕ) (s : State T Cursor Error) : State T Cursor Error :=
  { s with inFlight := s.inFlight.eraseIdx place }

def step (s : State T Cursor Error) : Event T Cursor Error → State T Cursor Error
  | .loadMore => loadMore hopBudget s
  | .reset listing => reset listing s
  | .arrives place =>
      match s.inFlight[place]? with
      | none => s
      | some request => arrived hopBudget request (settled place s)
  | .fails place error =>
      match s.inFlight[place]? with
      | none => s
      | some _ => failed error (settled place s)

/-- The state after some events on a fresh composable. -/
def after (listing : Listing T Cursor) (events : List (Event T Cursor Error)) :
    State T Cursor Error :=
  events.foldl (step hopBudget) { inForce := listing }

/-! ## What is shown -/

/-- What is shown are whole pages from the start of the listing in force, `exhausted` says that
there are no more of them, and `loadMore` is not dropped for a request from before the reset. -/
structure Faithful (s : State T Cursor Error) : Prop where
  shown : ∃ pages next, Loaded s.inForce pages next ∧ s.pages.items = pages.flatMap (·.items) ∧
    (s.pages.exhausted = true → next = none)
  kept : s.pages.loading = true → ∀ request ∈ s.inFlight, request.since = s.resets

/-! ## One request at a time -/

/-- `loading` tells whether a request is in flight, and there is one at most. -/
structure Guarded (s : State T Cursor Error) : Prop where
  single : s.inFlight.length ≤ 1
  loading : s.pages.loading = true ↔ s.inFlight ≠ []
  since : ∀ request ∈ s.inFlight, request.since ≤ s.resets

variable {hopBudget} {s : State T Cursor Error} {listing : Listing T Cursor}

theorem Guarded.eq_singleton (h : Guarded s) {place : ℕ} {request : Request T Cursor}
    (hrequest : s.inFlight[place]? = some request) :
    s.inFlight = [request] ∧ (settled place s).inFlight = [] := by
  have hsingle := h.single
  unfold settled
  match hflight : s.inFlight with
  | [] => simp [hflight] at hrequest
  | [other] =>
      rw [hflight] at hrequest
      cases place with
      | zero => simpa using hrequest
      | succ place => simp at hrequest
  | first :: second :: rest =>
      rw [hflight] at hsingle
      simp at hsingle

/-- The loop goes on with a request of its own, or ends. -/
theorem guarded_hop {count : ℕ} (hflight : s.inFlight = []) (hloading : s.pages.loading = true) :
    Guarded (hop hopBudget count s) := by
  unfold hop
  split
  · refine ⟨by simp [hflight], by simp [hloading], ?_⟩
    intro request hmem
    simp only [hflight, List.mem_singleton] at hmem
    subst hmem
    exact Nat.le_refl _
  · exact ⟨by simp [hflight], by simp [hflight], by simp [hflight]⟩

theorem Guarded.step (h : Guarded s) (event : Event T Cursor Error) :
    Guarded (step hopBudget s event) := by
  cases event with
  | loadMore =>
      show Guarded (loadMore hopBudget s)
      unfold loadMore
      split
      · exact h
      · rename_i hidle
        rw [not_or, h.loading, not_not] at hidle
        exact guarded_hop hidle.1 rfl
  | reset listing =>
      exact ⟨h.single, h.loading, fun request hmem => Nat.le_succ_of_le (h.since request hmem)⟩
  | arrives place =>
      show Guarded (match s.inFlight[place]? with
        | none => s
        | some request => arrived hopBudget request (settled place s))
      cases hrequest : s.inFlight[place]? with
      | none => exact h
      | some request =>
          obtain ⟨hflight, hsettled⟩ := h.eq_singleton hrequest
          have hloading : s.pages.loading = true := h.loading.mpr (by simp [hflight])
          dsimp only
          unfold arrived
          dsimp only
          split
          · exact ⟨by simp [hsettled], by simp [hsettled], by simp [hsettled]⟩
          · split
            · exact ⟨by simp [hsettled], by simp [hsettled], by simp [hsettled]⟩
            · exact guarded_hop hsettled hloading
  | fails place error =>
      show Guarded (match s.inFlight[place]? with
        | none => s
        | some _ => failed error (settled place s))
      cases hrequest : s.inFlight[place]? with
      | none => exact h
      | some request =>
          obtain ⟨-, hsettled⟩ := h.eq_singleton hrequest
          unfold failed
          exact ⟨by simp [hsettled], by simp [hsettled], by simp [hsettled]⟩

theorem guarded_after (listing : Listing T Cursor) (events : List (Event T Cursor Error)) :
    Guarded (after hopBudget listing events) := by
  induction events using List.reverseRecOn with
  | nil => exact ⟨Nat.zero_le _, by simp [after], by simp [after]⟩
  | append_singleton events event ih =>
      unfold after at ih ⊢
      rw [List.foldl_append]
      exact ih.step event

/-! ## Runs without a reset while a page is under way -/

/-- The pages that were loaded, and what a request in flight will bring. -/
structure Reading (s : State T Cursor Error) (pages : List (CursorPage T Cursor))
    (next : Option (Option Cursor)) : Prop where
  loaded : Loaded s.inForce pages next
  items : s.pages.items = pages.flatMap (·.items)
  exhausted : s.pages.exhausted = true ↔ next = none
  cursor : ∀ cursor ∈ next, s.pages.cursor = cursor
  asked : ∀ request ∈ s.inFlight, next ≠ none ∧
    request.answer = s.inForce s.pages.cursor ∧ request.since = s.resets

variable {pages : List (CursorPage T Cursor)} {next : Option (Option Cursor)}

theorem Reading.faithful (h : Reading s pages next) : Faithful s where
  shown := ⟨pages, next, h.loaded, h.items, h.exhausted.mp⟩
  kept _ request hmem := (h.asked request hmem).2.2

theorem Reading.hop (h : Reading s pages next) (hflight : s.inFlight = []) (hnext : next ≠ none)
    (count : ℕ) : Reading (hop hopBudget count s) pages next := by
  unfold UseCursorPages.hop
  split
  · refine ⟨h.loaded, h.items, h.exhausted, h.cursor, fun request hmem => ?_⟩
    simp only [hflight, List.mem_singleton] at hmem
    subst hmem
    exact ⟨hnext, rfl, rfl⟩
  · exact ⟨h.loaded, h.items, h.exhausted, h.cursor, h.asked⟩

/-- A page that arrives is the next one. -/
theorem Reading.arrived (h : Reading s pages next) (hflight : s.inFlight = [])
    {cursor : Option Cursor} (hnext : next = some cursor) {request : Request T Cursor}
    (hanswer : request.answer = s.inForce s.pages.cursor) :
    ∃ pages next, Reading (arrived hopBudget request s) pages next := by
  subst hnext
  have hcursor : s.pages.cursor = cursor := h.cursor cursor rfl
  rw [hcursor] at hanswer
  have hloaded : ∀ loading exhausted,
      (exhausted = true ↔ (s.inForce cursor).nextCursor = none) →
      Reading { s with pages := { s.pages with
        pagesFetched := s.pages.pagesFetched + 1
        items := s.pages.items ++ request.answer.items
        cursor := request.answer.nextCursor
        loading := loading
        exhausted := exhausted } } (pages ++ [s.inForce cursor])
          ((s.inForce cursor).nextCursor.map some) := by
    intro loading exhausted hexhausted
    refine ⟨h.loaded.page, ?_, ?_, ?_, ?_⟩
    · rw [List.flatMap_append, ← h.items, hanswer]
      simp
    · rw [Option.map_eq_none_iff]
      exact hexhausted
    · intro other hother
      rw [hanswer]
      obtain ⟨found, hfound, rfl⟩ := Option.map_eq_some_iff.mp hother
      exact hfound
    · intro other hmem
      rw [hflight] at hmem
      cases hmem
  have hmore : ¬ s.pages.exhausted = true := by
    rw [h.exhausted]
    simp
  refine ⟨pages ++ [s.inForce cursor], (s.inForce cursor).nextCursor.map some, ?_⟩
  unfold UseCursorPages.arrived
  dsimp only
  split
  · rename_i hlast
    rw [Option.isNone_iff_eq_none, hanswer] at hlast
    exact hloaded false true (iff_of_true rfl hlast)
  · rename_i hnext
    rw [Option.isNone_iff_eq_none, hanswer] at hnext
    split
    · exact hloaded false _ (iff_of_false hmore hnext)
    · refine (hloaded _ _ (iff_of_false hmore hnext)).hop hflight ?_ _
      simpa using hnext

/-- One step, if it is no reset while a page is under way. -/
theorem Reading.step (hguarded : Guarded s) (h : Reading s pages next)
    {event : Event T Cursor Error} (hquiet : ∀ listing, event = .reset listing → s.inFlight = []) :
    ∃ pages next, Reading (step hopBudget s event) pages next := by
  cases event with
  | loadMore =>
      show ∃ pages next, Reading (loadMore hopBudget s) pages next
      unfold loadMore
      split
      · exact ⟨pages, next, h⟩
      · rename_i hidle
        rw [not_or, hguarded.loading, not_not] at hidle
        obtain ⟨hflight, hmore⟩ := hidle
        have hstarted : Reading
            ({ s with pages := { s.pages with loading := true, error := none } } :
              State T Cursor Error) pages next :=
          ⟨h.loaded, h.items, h.exhausted, h.cursor, h.asked⟩
        exact ⟨pages, next, hstarted.hop hflight (fun hnone => hmore (h.exhausted.mpr hnone)) 0⟩
  | reset listing =>
      have hflight := hquiet listing rfl
      refine ⟨[], some none, .start, rfl, by simp [UseCursorPages.step, reset], ?_, ?_⟩
      · intro cursor hcursor
        exact Option.some.inj hcursor
      · intro request hmem
        rw [show (UseCursorPages.step hopBudget s (.reset listing)).inFlight = [] from hflight] at hmem
        cases hmem
  | arrives place =>
      show ∃ pages next, Reading (match s.inFlight[place]? with
        | none => s
        | some request => UseCursorPages.arrived hopBudget request (settled place s)) pages next
      cases hrequest : s.inFlight[place]? with
      | none => exact ⟨pages, next, h⟩
      | some request =>
          obtain ⟨hflight, hsettled⟩ := hguarded.eq_singleton hrequest
          obtain ⟨hnext, hanswer, -⟩ := h.asked request (by simp [hflight])
          obtain ⟨cursor, hcursor⟩ := Option.ne_none_iff_exists'.mp hnext
          have hwaiting : Reading (settled place s) pages next := by
            refine ⟨h.loaded, h.items, h.exhausted, h.cursor, fun other hmem => ?_⟩
            rw [hsettled] at hmem
            cases hmem
          exact hwaiting.arrived hsettled hcursor hanswer
  | fails place error =>
      show ∃ pages next, Reading (match s.inFlight[place]? with
        | none => s
        | some _ => failed error (settled place s)) pages next
      cases hrequest : s.inFlight[place]? with
      | none => exact ⟨pages, next, h⟩
      | some request =>
          obtain ⟨-, hsettled⟩ := hguarded.eq_singleton hrequest
          refine ⟨pages, next, h.loaded, h.items, h.exhausted, h.cursor, fun other hmem => ?_⟩
          rw [show (failed error (settled place s)).inFlight = [] from hsettled] at hmem
          cases hmem

/-- Nothing is reset while a page is under way. -/
def Quiet (hopBudget : ℕ) (listing : Listing T Cursor) (events : List (Event T Cursor Error)) :
    Prop :=
  ∀ count other, events[count]? = some (.reset other) →
    (after hopBudget listing (events.take count)).inFlight = []

theorem after_take_succ {events : List (Event T Cursor Error)} {count : ℕ}
    {event : Event T Cursor Error} (h : events[count]? = some event) :
    after hopBudget listing (events.take (count + 1)) =
      step hopBudget (after hopBudget listing (events.take count)) event := by
  unfold after
  rw [List.take_add_one, h, List.foldl_append]
  rfl

theorem reading_after {events : List (Event T Cursor Error)} (h : Quiet hopBudget listing events)
    (count : ℕ) :
    ∃ pages next, Reading (after hopBudget listing (events.take count)) pages next := by
  induction count with
  | zero =>
      refine ⟨[], some none, .start, rfl, by simp [after], ?_, by simp [after]⟩
      intro cursor hcursor
      exact Option.some.inj hcursor
  | succ count ih =>
      obtain ⟨pages, next, ih⟩ := ih
      cases hevent : events[count]? with
      | none =>
          rw [List.take_of_length_le (Nat.le_succ_of_le (List.getElem?_eq_none_iff.mp hevent))]
          rw [List.take_of_length_le (List.getElem?_eq_none_iff.mp hevent)] at ih
          exact ⟨pages, next, ih⟩
      | some event =>
          rw [after_take_succ hevent]
          refine ih.step (guarded_after listing _) fun other hreset => ?_
          exact h count other (hreset ▸ hevent)

/-- **What is shown is a part of the listing in force after every step of a run, exactly if
nothing is reset while a page is under way.** -/
theorem cursor_pages_iff (hopBudget : ℕ) (listing : Listing T Cursor)
    (events : List (Event T Cursor Error)) :
    (∀ count, Faithful (after hopBudget listing (events.take count))) ↔
      Quiet hopBudget listing events := by
  constructor
  · intro hfaithful count other hreset
    have hguarded : Guarded (after hopBudget listing (events.take count)) := guarded_after _ _
    by_contra hflight
    obtain ⟨request, hmem⟩ := List.exists_mem_of_ne_nil _ hflight
    -- The request is from before the reset, and the next `loadMore` is dropped for it.
    have hkept := (hfaithful (count + 1)).kept
    rw [after_take_succ hreset] at hkept
    have hsince := hkept (hguarded.loading.mpr hflight) request hmem
    have hbefore := hguarded.since request hmem
    have hresets : (step hopBudget (after hopBudget listing (events.take count))
        (.reset other)).resets = (after hopBudget listing (events.take count)).resets + 1 := rfl
    omega
  · intro h count
    obtain ⟨pages, next, hreading⟩ := reading_after h count
    exact hreading.faithful

namespace Sample

/-- A listing of one page. -/
def single (item : String) : Listing String String := fun _ => { items := [item], nextCursor := none }

end Sample

/-- A reset while the first page is under way: the old listing's page is shown for the new one. -/
theorem cursor_pages_stale : ¬ ∀ (hopBudget : ℕ) (listing : Listing String String)
    (events : List (Event String String String)) (count : ℕ),
      Faithful (after hopBudget listing (events.take count)) := by
  intro h
  have hfaithful := h 5 (Sample.single "old")
    [.loadMore, .reset (Sample.single "new"), .loadMore, .arrives 0] 4
  obtain ⟨pages, next, hloaded, hitems, -⟩ := hfaithful.shown
  have hnew : ∀ {pages next}, Loaded (Sample.single "new") pages next →
      "old" ∉ pages.flatMap (·.items) := by
    intro pages next hloaded
    induction hloaded with
    | start => simp
    | page h ih =>
        rw [List.flatMap_append, List.mem_append, not_or]
        exact ⟨ih, by simp [Sample.single]⟩
  apply hnew hloaded
  rw [← hitems]
  decide

end Hemlig.Console.UseCursorPages
