import Hemlig.Properties.Index

/-!
# Delta synchronization

A client that applies its cycles in order holds the entry of every record up to its last
checkpoint.  A record beyond the checkpoint before is among the entries of the cycle,
unless it left the index while the cycle was reading: then a later publication has moved
it beyond the new checkpoint, where a later cycle finds it, or it has expired.
-/

namespace Hemlig

open Concurrent Store AgentSyncService Controller

variable {init s : Cloud}

/-- In a run a client has completed its cycles, the last one first, and the last
checkpoint, at `through`, is still stored. -/
structure Client (init : Cloud) (actions : List ServiceAction) (w : ServiceWorld) (pid : ℕ)
    (follower : Follower) (cycle : Synchronized) (earlier : List Synchronized) (through : ℕ) :
    Prop where
  run : service.run (World.initial init) actions = some w
  returned : ∃ cycles,
    w.procs pid = some (.follow follower cycles, .ret (.followed (cycle :: earlier)))
  checkpoint : ∃ stored, w.store.table.get (.cursor cycle.checkpoint) = some stored ∧
    stored.position.through = through

/-- A granted record was in the index, beyond the checkpoint before the last one, when the
client read the counter at `through`. -/
structure Outstanding (init : Cloud) (actions : List ServiceAction) (w : ServiceWorld) (pid : ℕ)
    (follower : Follower) (earlier : List Synchronized) (through : ℕ) (row : ChangeRow)
    (entry : AgentSyncEntry) : Prop where
  indexed : ∃ first sequence, Discipline.Issued service (World.initial init) actions pid
      (.get (.syncState follower.environment)) first ∧
    (first.syncState follower.environment).map AgentSyncState.sequence = some through ∧
    first.RowAt follower.environment sequence row ∧
    ∀ previous ∈ earlier.head?, ∃ stored,
      w.store.table.get (.cursor previous.checkpoint) = some stored ∧
        stored.position.through < sequence
  granted : entryOf follower.grant row.record = some entry

/-- The secret is published at a sequence beyond the checkpoint, or its row has expired. -/
def Cloud.LeftIndex (s : Cloud) (u : String) (through : ℕ) : Prop :=
  ∃ head sequence, s.head u = some head ∧ head.syncSequence = some sequence ∧
    (through < sequence ∨ s.ExpiredRow u head sequence)

/-- What a run did to the index since some moment of it. -/
theorem since_issued (hinit : Initial init) {actions : List ServiceAction} {w : ServiceWorld}
    (hrun : service.run (World.initial init) actions = some w) {pid : ℕ} {q : Request}
    {first : Cloud} (hissued : Discipline.Issued service (World.initial init) actions pid q first)
    {environment : String} {through : ℕ} (hreached : first.Reached environment through) :
    Invariant init first ∧ Since first w.store environment through := by
  obtain ⟨before, choice, middle, input, next, ⟨later, rfl⟩, hbefore, rfl, -⟩ := hissued
  have hinv := invariant_of_run hinit hbefore
  refine ⟨hinv, ?_⟩
  rw [List.append_assoc, service.run_append, hbefore] at hrun
  refine run_keeps hinit hbefore hrun (P := fun s => Since middle.store s environment through)
    (fun s s' hstep hsince => ?_) (.refl hinv hreached)
  obtain ⟨actor, hevolves⟩ := hstep.evolves
  exact lasts_since s s' actor hstep.before hstep.after hevolves hsince

theorem Cloud.RowAt.indexed {environment : String} {sequence : ℕ} {row : ChangeRow}
    (h : s.RowAt environment sequence row) : s.Indexed environment sequence row.record :=
  ⟨row, h.1, rfl⟩

/-- A record that the client has not passed is still there, or has left the index. -/
theorem Since.indexed_or_left {first : Cloud} (hfirst : Invariant init first)
    (hinv : Invariant init s) {environment : String} {through sequence : ℕ}
    (h : Since first s environment through) {record : AgentSyncRecord}
    (hindexed : first.Indexed environment sequence record) (hle : sequence ≤ through) :
    s.Indexed environment sequence record ∨ s.LeftIndex record.secretUid through := by
  obtain ⟨head, sequence', hhead, rfl, hcommitted, hsequence⟩ := h.heads hindexed hle
  by_cases hlater : through < sequence'
  · exact .inr ⟨head, sequence', hhead, hsequence, .inl hlater⟩
  by_cases hexpired : s.ExpiredRow record.secretUid head sequence'
  · exact .inr ⟨head, sequence', hhead, hsequence, .inr hexpired⟩
  obtain ⟨control, row, -, hrow, hrecord⟩ := rowOf_of_head hinv hhead hsequence hexpired
  have huid : row.record.secretUid = record.secretUid := hrecord ▸ rfl
  have hindexed' : s.Indexed head.environment sequence' row.record := ⟨row, huid ▸ hrow, rfl⟩
  have hsafe := h.reached.safe hinv
  obtain ⟨rfl, hsame⟩ := (h.records hindexed' (not_lt.mp hlater)).unique hfirst hindexed
    ((not_lt.mp hlater).trans hsafe) (hle.trans hsafe) huid
  exact .inl (hsame ▸ hindexed')

/-- The cycles that a client has returned. -/
def followedBy (w : ServiceWorld) (pid : ℕ) : Option (Follower × List Synchronized) :=
  match w.procs pid with
  | some (.follow follower _, .ret (.followed cycles)) => some (follower, cycles)
  | _ => none

theorem followedBy_eq {w : ServiceWorld} {pid : ℕ} {follower : Follower}
    {cycles : List Synchronized} (h : followedBy w pid = some (follower, cycles)) :
    ∃ n, w.procs pid = some (.follow follower n, .ret (.followed cycles)) := by
  unfold followedBy at h
  split at h
  · rename_i follower' n cycles' hproc
    cases h
    exact ⟨n, hproc⟩
  · cases h

/-- The next request of a process reads the counter of an index. -/
def readsCounter (w : ServiceWorld) (pid : ℕ) (environment : String) : Bool :=
  match w.procs pid with
  | some (_, .call (.get (.syncState environment')) _) => environment' = environment
  | _ => false

theorem issued_of_readsCounter {before later : List ServiceAction} {choice : Choice} {pid : ℕ}
    {w : ServiceWorld} {environment : String}
    (hrun : service.run (World.initial init) before = some w)
    (h : readsCounter w pid environment = true) :
    Discipline.Issued service (World.initial init) (before ++ .step pid choice :: later) pid
      (.get (.syncState environment)) w.store := by
  unfold readsCounter at h
  split at h
  · rename_i input environment' next hproc
    obtain rfl := of_decide_eq_true h
    exact ⟨before, choice, w, input, next, ⟨later, by simp⟩, hrun, rfl, hproc⟩
  · cases h

namespace Sample

def follower : Follower := ⟨"agent", "prod", agent, 10⟩

/-- A client completes a cycle, and the secret is updated. -/
def firstCycle : List ServiceAction :=
  founding ++ creating 1 "a" "k1" ++
    (.start 2 (.follow follower 2) :: steps 2 [plain, plain, plain, fresh "t1", plain]) ++
    updating 3 "ctl-a" "b" "k2"

/-- It reads the counter, the secret is updated once more, and it reads on. -/
def secondCycle : List ServiceAction :=
  .step 2 plain :: (updating 4 "ctl-b" "c" "k3" ++
    steps 2 [plain, plain, plain, plain, fresh "t2", plain])

/-- The client reads the counter next, and the secret has a row at sequence 2. -/
theorem firstCycle_checked :
    (service.run (World.initial Cloud.empty) firstCycle).any (fun w => decide
      ((w.store.change "prod" (syncSk 2 "sec-a")).map (fun row => (row.record.secretUid,
          (entryOf agent row.record).isSome)) = some ("sec-a", true) ∧
        (w.store.head "sec-a").map (fun head => (head.environment, head.syncSequence)) =
          some ("prod", some 2) ∧
        (w.store.syncState "prod").map AgentSyncState.sequence = some 2 ∧
        readsCounter w 2 "prod" = true)) = true := by
  decide +kernel

theorem firstCycle_runs :
    (service.run (World.initial Cloud.empty) firstCycle).isSome = true :=
  Option.isSome_of_any firstCycle_checked

/-- The client has returned from both cycles. -/
theorem secondCycle_checked :
    (service.run (World.initial Cloud.empty) (firstCycle ++ secondCycle)).any (fun w => decide
      ((followedBy w 2).map (fun result => (result.1, result.2.map fun cycle =>
          ((cycle.entries "sec-a").isNone, cycle.checkpoint))) =
            some (follower, [(true, "t2"), (false, "t1")]) ∧
        (w.store.table.get (.cursor "t1")).map (fun stored => stored.position.through) = some 1 ∧
        (w.store.table.get (.cursor "t2")).map (fun stored => stored.position.through) =
          some 2)) = true := by
  decide +kernel

theorem secondCycle_runs :
    (service.run (World.initial Cloud.empty) (firstCycle ++ secondCycle)).isSome = true :=
  Option.isSome_of_any secondCycle_checked

/-- Where the client has returned from its second cycle. -/
abbrev moved : ServiceWorld := reached Cloud.empty _ secondCycle_runs

theorem cursor_moved {token : String} {through : ℕ}
    (h : (moved.store.table.get (.cursor token)).map (fun stored => stored.position.through) =
      some through) :
    ∃ stored, moved.store.table.get (.cursor token) = some stored ∧
      stored.position.through = through :=
  Option.map_eq_some_iff.mp h

/-- Its second cycle has no entry of the secret. -/
theorem client_moved : ∃ last previous,
    Client Cloud.empty (firstCycle ++ secondCycle) moved 2 follower last [previous] 2 ∧
      last.entries "sec-a" = none ∧ previous.checkpoint = "t1" := by
  obtain ⟨hcycles, -, hthrough⟩ := reached_of_any secondCycle_checked
  obtain ⟨⟨other, cycles⟩, hfollowed, heq⟩ := Option.map_eq_some_iff.mp hcycles
  obtain ⟨rfl, hmap⟩ := Prod.mk.inj heq
  match cycles, hmap with
  | [last, previous], hmap =>
      simp only [List.map_cons, List.map_nil, List.cons.injEq, Prod.mk.injEq] at hmap
      obtain ⟨⟨hmissing, hlast⟩, ⟨-, hprevious⟩, -⟩ := hmap
      refine ⟨last, previous, ⟨run_reached secondCycle_runs, followedBy_eq hfollowed, ?_⟩,
        Option.isNone_iff_eq_none.mp hmissing, hprevious⟩
      rw [hlast]
      exact cursor_moved hthrough

/-- When the second cycle read the counter, the secret had a row at sequence 2. -/
theorem rowAt_firstCycle : ∃ row entry, row.record.secretUid = "sec-a" ∧
    (reached Cloud.empty _ firstCycle_runs).store.RowAt "prod" 2 row ∧
      entryOf agent row.record = some entry := by
  obtain ⟨hrow, hhead, -⟩ := reached_of_any firstCycle_checked
  obtain ⟨row, hrow, heq⟩ := Option.map_eq_some_iff.mp hrow
  obtain ⟨huid, hentry⟩ := Prod.mk.inj heq
  obtain ⟨entry, hentry⟩ := Option.isSome_iff_exists.mp hentry
  obtain ⟨head, hhead, heq⟩ := Option.map_eq_some_iff.mp hhead
  obtain ⟨henvironment, hsequence⟩ := Prod.mk.inj heq
  refine ⟨row, entry, huid, ⟨?_, head, ?_, henvironment, hsequence⟩, hentry⟩
  · rw [huid]
    exact hrow
  · rw [huid]
    exact hhead

theorem outstanding_moved {previous : Synchronized} (hprevious : previous.checkpoint = "t1") :
    ∃ row entry, row.record.secretUid = "sec-a" ∧
      Outstanding Cloud.empty (firstCycle ++ secondCycle) moved 2 follower [previous] 2 row entry := by
  obtain ⟨row, entry, huid, hrow, hentry⟩ := rowAt_firstCycle
  obtain ⟨-, -, hcurrent, hreads⟩ := reached_of_any firstCycle_checked
  obtain ⟨-, hthrough, -⟩ := reached_of_any secondCycle_checked
  obtain ⟨stored, hstored, hone⟩ := cursor_moved hthrough
  refine ⟨row, entry, huid, ⟨_, 2, ?_, hcurrent, hrow, fun other hother => ?_⟩, hentry⟩
  · exact issued_of_readsCounter (run_reached firstCycle_runs) hreads
  · cases hother
    rw [hprevious]
    exact ⟨stored, hstored, by omega⟩

end Sample

end Hemlig
