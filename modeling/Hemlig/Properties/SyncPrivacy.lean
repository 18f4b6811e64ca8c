import Hemlig.Concurrent.Exposed
import Hemlig.Verification.SyncIndex

/-!
# What a cycle of synchronization reveals

While the index of an environment does not change, a cycle shows the entries of the records behind
its position, in the order of their keys, wherever its pages end.  A record that the grant does not
cover has no entry, and the entry of a covered one depends on what the agent may see of it.  So two
indexes that agree on what the agent may see of the covered records deliver the same entries.
-/

namespace Hemlig

open Concurrent Store AgentSyncService

/-! ## What an agent may see -/

/-- The agent holds the write permission of a secret that is live. -/
def MayWrite (grant : AgentGrantRecord) (record : AgentSyncRecord) : Prop :=
  (record.state = .active ∨ record.state = .pendingValue) ∧ .write ∈ grant.capabilities ∧
    ∃ selected, selectedGrant grant record = some selected ∧ .write ∈ selected.permissions

/-- The agent holds the read permission of a secret that is live, and is one of its readers. -/
def MayRead (grant : AgentGrantRecord) (record : AgentSyncRecord) : Prop :=
  (record.state = .active ∨ record.state = .pendingValue) ∧ .read ∈ grant.capabilities ∧
    (∃ selected, selectedGrant grant record = some selected ∧ .read ∈ selected.permissions) ∧
    grant.consumerId ∈ record.readConsumerIds

/-- Two records that differ in nothing that the agent may see. -/
structure SameSeen (grant : AgentGrantRecord) (record record' : AgentSyncRecord) : Prop where
  secretUid : record'.secretUid = record.secretUid
  secretId : record'.secretId = record.secretId
  controlVersionId : record'.controlVersionId = record.controlVersionId
  state : record'.state = record.state
  reader : grant.consumerId ∈ record'.readConsumerIds ↔ grant.consumerId ∈ record.readConsumerIds
  payloadVersionId : MayWrite grant record ∨ MayRead grant record →
    record'.payloadVersionId = record.payloadVersionId
  metadata : MayWrite grant record → record'.metadata = record.metadata

theorem SameSeen.refl (grant : AgentGrantRecord) (record : AgentSyncRecord) :
    SameSeen grant record record :=
  ⟨rfl, rfl, rfl, rfl, Iff.rfl, fun _ => rfl, fun _ => rfl⟩

/-- **The entry of a record shows nothing else.** -/
theorem SameSeen.entryOf_eq {grant : AgentGrantRecord} {record record' : AgentSyncRecord}
    (h : SameSeen grant record record') : entryOf grant record' = entryOf grant record := by
  have hselected : selectedGrant grant record' = selectedGrant grant record := by
    unfold selectedGrant
    rw [h.secretUid, h.secretId]
  unfold entryOf
  rw [hselected]
  cases hgrant : selectedGrant grant record with
  | none => rfl
  | some selected =>
      simp only [Option.map_some, Option.some.injEq]
      have hpayload := h.payloadVersionId
      have hmetadata := h.metadata
      unfold MayWrite MayRead at hpayload
      unfold MayWrite at hmetadata
      rw [hgrant] at hpayload hmetadata
      simp only [Option.some.injEq, exists_eq_left'] at hpayload hmetadata
      unfold visibleEntry
      simp only [h.secretUid, h.secretId, h.controlVersionId, h.state, h.reader]
      congr 1
      · split
        next hvisible =>
          refine hpayload ?_
          simp only [Bool.or_eq_true, decide_eq_true_eq] at hvisible
          exact hvisible.symm
        · rfl
      · split
        next hwrite =>
          rw [hmetadata (by simpa using hwrite)]
        · rfl

/-! ## Indexes that do not change -/

/-- What a cycle works on: an index, and what the tokens stand for. -/
structure Frozen where
  index : Cloud
  cursors : String → StoredCursor

/-- A state with the index of the environment and the tokens. -/
structure Frozen.Holds (frozen : Frozen) (environment : String) (s : Cloud) : Prop where
  change : ∀ sk, s.change environment sk = frozen.index.change environment sk
  syncState : s.syncState environment = frozen.index.syncState environment
  cursor : ∀ token stored, s.table.get (.cursor token) = some stored →
    stored = frozen.cursors token

/-- The rows beyond a sequence and a key, up to another sequence. -/
structure Range where
  after : ℕ
  through : ℕ
  lastSk : Option String
  deriving DecidableEq, Repr

/-- Where the request of a cycle starts to read. -/
def Frozen.range (frozen : Frozen) (environment : String) (query : SyncQuery) : Range :=
  let sequence := ((frozen.index.syncState environment).map AgentSyncState.sequence).getD 0
  match query.cursor, query.syncCursor with
  | some token, _ =>
      let position := (frozen.cursors token).position
      ⟨position.after, position.through, position.lastSk⟩
  | none, some token => ⟨(frozen.cursors token).position.through, sequence, none⟩
  | none, none => ⟨0, sequence, none⟩

/-- The rows of a range; none where it is empty. -/
def Range.rows (range : Range) (s : Cloud) (environment : String) : List (String × ChangeRow) :=
  if range.after = range.through then []
  else s.changesBetween environment (syncSk (range.after + 1) "")
    (sequenceKey range.through ++ "\uffff") range.lastSk

/-- The entries of the rows that the grant covers. -/
def Range.entries (range : Range) (s : Cloud) (environment : String) (grant : AgentGrantRecord) :
    List AgentSyncEntry :=
  visibleEntries grant ((range.rows s environment).map fun item => item.2.record)

/-- A complete cycle: one request after the other until there is no further page. -/
inductive Cycle (frozen : Frozen) (pid : ℕ) (consumerId environment : String)
    (grant : AgentGrantRecord) : SyncQuery → List AgentSyncPage → Prop
  | last {query : SyncQuery} {page : AgentSyncPage}
      (hpage : service.Exposed pid (frozen.Holds environment)
        (sync consumerId environment query (some grant)) (.ok page))
      (hnext : page.nextCursor = none) :
      Cycle frozen pid consumerId environment grant query [page]
  | more {query : SyncQuery} {page : AgentSyncPage} {pages : List AgentSyncPage} {token : String}
      (hpage : service.Exposed pid (frozen.Holds environment)
        (sync consumerId environment query (some grant)) (.ok page))
      (hnext : page.nextCursor = some token)
      (hrest : Cycle frozen pid consumerId environment grant ⟨none, some token⟩ pages) :
      Cycle frozen pid consumerId environment grant query (page :: pages)
/-! ## Rows in the order of their keys -/

theorem strict_changesBetween {s : Cloud} {environment first last : String}
    {startKey : Option String} :
    (s.changesBetween environment first last startKey).Pairwise fun left right =>
      left.1 < right.1 := by
  have hkeys : ((s.changesBetween environment first last startKey).map Prod.fst).Nodup :=
    nodup_changesBetween
  have hnodup := List.pairwise_map.mp hkeys
  exact (sorted_changesBetween.and hnodup).imp fun h => lt_of_le_of_ne h.1 h.2

/-- Lists in the strict order of their keys are equal if they have the same members. -/
theorem eq_of_strict {α : Type} {rows rows' : List (String × α)}
    (hrows : rows.Pairwise fun left right => left.1 < right.1)
    (hrows' : rows'.Pairwise fun left right => left.1 < right.1)
    (hmem : ∀ item, item ∈ rows ↔ item ∈ rows') : rows = rows' := by
  have hnodup : ∀ {rows : List (String × α)},
      (rows.Pairwise fun left right => left.1 < right.1) → rows.Nodup := by
    intro rows hrows
    refine hrows.imp ?_
    rintro left _ hlt rfl
    exact lt_irrefl _ hlt
  have hperm : rows.Perm rows' := (List.perm_ext_iff_of_nodup (hnodup hrows) (hnodup hrows')).mpr hmem
  exact hperm.eq_of_pairwise (fun left right _ _ h h' => absurd h (lt_asymm h')) hrows hrows'

theorem changesBetween_congr {s s' : Cloud} {environment : String}
    (h : ∀ sk, s.change environment sk = s'.change environment sk) (first last : String)
    (startKey : Option String) :
    s.changesBetween environment first last startKey =
      s'.changesBetween environment first last startKey := by
  refine eq_of_strict strict_changesBetween strict_changesBetween fun item => ?_
  rw [mem_changesBetween, mem_changesBetween, h]

theorem Range.strict_rows (range : Range) (s : Cloud) (environment : String) :
    (range.rows s environment).Pairwise fun left right => left.1 < right.1 := by
  unfold Range.rows
  split
  · exact .nil
  · exact strict_changesBetween

/-- A page shows the rows up to its last key, and the others lie beyond it. -/
theorem pageOf_strict {rows : List (String × ChangeRow)} {choice : Choice}
    (hrows : rows.Pairwise fun left right => left.1 < right.1) :
    ((pageOf rows choice).lastEvaluatedKey = none → (pageOf rows choice).items = rows) ∧
      ∀ last, (pageOf rows choice).lastEvaluatedKey = some last →
        (∃ item ∈ rows, item.1 = last) ∧
          rows = (pageOf rows choice).items ++ rows.filter fun item => last < item.1 := by
  simp only [pageOf]
  constructor
  · intro hlast
    split at hlast
    · rw [Option.map_eq_none_iff, List.getLast?_eq_none_iff, List.take_eq_nil_iff] at hlast
      have hnil : rows = [] := hlast.resolve_left (by omega)
      rw [hnil, List.take_nil]
    next hfull =>
      have hlength : rows.length ≤ (rows.take (choice.number % 100 + 1)).length :=
        Nat.le_of_not_lt fun hlt => hfull (.inl hlt)
      rw [List.length_take] at hlength
      exact List.take_of_length_le (by omega)
  · intro last hlast
    split at hlast
    · obtain ⟨item, hitem, rfl⟩ := Option.map_eq_some_iff.mp hlast
      refine ⟨⟨item, List.mem_of_mem_take (List.mem_of_getLast? hitem), rfl⟩, ?_⟩
      obtain ⟨front, hfront⟩ := List.getLast?_eq_some_iff.mp hitem
      have hsplit : rows = (front ++ [item]) ++ rows.drop (choice.number % 100 + 1) := by
        rw [← hfront, List.take_append_drop]
      have hfilter : (rows.filter fun other => item.1 < other.1) =
          rows.drop (choice.number % 100 + 1) := by
        have hpair := hrows
        rw [hsplit] at hpair
        obtain ⟨hfirst, -, hacross⟩ := List.pairwise_append.mp hpair
        have hbefore : ∀ other ∈ front ++ [item], ¬ item.1 < other.1 := by
          intro other hother
          rcases List.mem_append.mp hother with hother | hother
          · exact lt_asymm ((List.pairwise_append.mp hfirst).2.2 other hother item
              List.mem_cons_self)
          · rw [List.mem_singleton.mp hother]
            exact lt_irrefl _
        have hbeyond : ∀ other ∈ rows.drop (choice.number % 100 + 1), item.1 < other.1 :=
          fun other hother => hacross item (by simp) other hother
        conv_lhs => rw [hsplit]
        rw [List.filter_append, List.filter_eq_nil_iff.mpr (by simpa using hbefore),
          List.filter_eq_self.mpr (by simpa using hbeyond), List.nil_append]
      rw [hfilter, List.take_append_drop]
    · cases hlast

/-- The rows of a continued range. -/
theorem Range.rows_continue {range : Range} {s : Cloud} {environment last : String}
    (hlast : ∃ item ∈ range.rows s environment, item.1 = last) :
    (Range.mk range.after range.through (some last)).rows s environment =
      (range.rows s environment).filter fun item => last < item.1 := by
  obtain ⟨item, hitem, rfl⟩ := hlast
  unfold Range.rows at hitem ⊢
  dsimp only
  split at hitem
  · cases hitem
  next hne =>
    rw [if_neg hne, if_neg hne]
    refine eq_of_strict strict_changesBetween (strict_changesBetween.filter _) fun other => ?_
    obtain ⟨sk, row⟩ := other
    obtain ⟨-, -, -, hstart⟩ := mem_changesBetween.mp hitem
    rw [List.mem_filter, mem_changesBetween, mem_changesBetween]
    have hbeyond : item.1 < sk → range.lastSk.all (· < sk) = true := by
      intro hlt
      cases hsome : range.lastSk with
      | none => rfl
      | some start =>
          rw [hsome] at hstart
          exact decide_eq_true ((of_decide_eq_true hstart).trans hlt)
    simp only [Option.all_some, decide_eq_true_eq]
    constructor
    · rintro ⟨hrow, hfirst, hlast, hlt⟩
      exact ⟨⟨hrow, hfirst, hlast, hbeyond hlt⟩, hlt⟩
    · rintro ⟨⟨hrow, hfirst, hlast, -⟩, hlt⟩
      exact ⟨hrow, hfirst, hlast, hlt⟩

/-! ## One request -/

section Requests

variable {frozen : Frozen} {pid : ℕ} {environment : String}

theorem exposed_send {q : Request} {answer : Answer q}
    (h : service.Exposed pid (frozen.Holds environment) (send q) (.ok answer)) :
    ∃ choice s s', frozen.Holds environment s ∧ frozen.Holds environment s' ∧
      perform pid choice s q = some (.ok answer, s') := by
  obtain ⟨choice, response, s, s', hbefore, hexec, hafter, hrest⟩ := System.Exposed.call_inv h
  cases response with
  | ok found =>
      obtain rfl : found = answer := hrest.of_ret
      exact ⟨choice, s, s', hbefore, hafter, perform_of_exec hexec⟩
  | error failure => exact (System.Exposed.not_raise hrest).elim

theorem exposed_of_perform {q : Request} {answer : Answer q} {s : Cloud} (choice : Choice) (s' : Cloud)
    (hfault : choice.fault = .none) (hbefore : frozen.Holds environment s)
    (hperform : perform pid choice s q = some (.ok answer, s'))
    (hafter : frozen.Holds environment s') :
    service.Exposed pid (frozen.Holds environment) (send q) (.ok answer) := by
  have hexec : exec pid q choice s = some (.ok answer, s') := by
    unfold exec
    rw [hfault]
    exact hperform
  exact System.Exposed.bind (System.Exposed.call hbefore hexec hafter (.ret _)) (.ret answer)

theorem exposed_requireSome {α : Type} {error : ApiError} {found : Option α} {value : α}
    (h : service.Exposed pid (frozen.Holds environment) (requireSome error found) (.ok value)) :
    found = some value := by
  cases found with
  | none => exact (System.Exposed.not_raise h).elim
  | some found => exact congrArg some h.of_ret

/-- A token stands for what was stored under it. -/
theorem exposed_encode {cursor : StoredCursor} {token : String}
    (h : service.Exposed pid (frozen.Holds environment) (CursorService.encode cursor)
      (.ok token)) : frozen.cursors token = cursor := by
  unfold CursorService.encode at h
  generalize 3 = attempts at h
  induction attempts with
  | zero => exact (System.Exposed.not_raise h).elim
  | succ left ih =>
      obtain ⟨drawn, -, h⟩ := System.Exposed.bind_inv h
      obtain ⟨created, hcreated, h⟩ := System.Exposed.bind_inv h
      cases created with
      | false => exact ih h
      | true =>
          obtain rfl : drawn = token := h.of_ret
          rcases System.Exposed.recover_inv hcreated with hcreated | ⟨failure, -, hcreated⟩
          · obtain ⟨⟨⟩, hwrite, -⟩ := System.Exposed.bind_inv hcreated
            obtain ⟨choice, s, s', -, hafter, hperform⟩ := exposed_send hwrite
            simp only [perform] at hperform
            split at hperform
            · cases hperform
              refine (hafter.cursor drawn cursor ?_).symm
              exact Write.get_apply_self (Write.create (K := Key) (V := Item) (.cursor drawn) cursor)
                s.table
            · cases hperform
          · by_cases hconditional : isConditionalCheckFailure failure = true
            · rw [if_pos hconditional] at hcreated
              cases hcreated.of_ret
            · rw [if_neg hconditional] at hcreated
              exact (System.Exposed.not_raise hcreated).elim

theorem exposed_decode {token scope : String} {position : Position}
    (h : service.Exposed pid (frozen.Holds environment) (decode token scope) (.ok position)) :
    position = (frozen.cursors token).position := by
  obtain ⟨found, hfound, h⟩ := System.Exposed.bind_inv h
  obtain ⟨stored, hstored, h⟩ := System.Exposed.bind_inv h
  obtain ⟨choice, s, s', hbefore, -, hperform⟩ := exposed_send hfound
  have hget : s.table.get (.cursor token) = found :=
    Except.ok.inj (Prod.mk.inj (Option.some.inj hperform)).1
  have hcursor := hbefore.cursor token stored (hget.trans (exposed_requireSome hstored))
  rw [← hcursor]
  split at h
  · exact (System.Exposed.not_raise h).elim
  · obtain ⟨now, -, h⟩ := System.Exposed.bind_inv h
    split at h
    · exact (System.Exposed.not_raise h).elim
    · split at h
      · exact (System.Exposed.not_raise h).elim
      · exact h.of_ret.symm

/-- A request starts where its query says. -/
theorem exposed_startPosition {scope : String} {query : SyncQuery} {grant : AgentGrantRecord}
    {state : AgentSyncState} {now : Time} {position : Position}
    (hstate : frozen.index.syncState environment = some state)
    (h : service.Exposed pid (frozen.Holds environment)
      (startPosition scope query grant state now) (.ok position)) :
    frozen.range environment query = ⟨position.after, position.through, position.lastSk⟩ := by
  have hsequence : ((frozen.index.syncState environment).map AgentSyncState.sequence).getD 0 =
      state.sequence := by
    rw [hstate]
    rfl
  obtain ⟨syncCursor, cursor⟩ := query
  cases cursor with
  | some token =>
      obtain ⟨found, hfound, h⟩ := System.Exposed.bind_inv h
      obtain rfl := exposed_decode hfound
      split at h
      · split at h
        · rw [← h.of_ret]
          rfl
        · exact (System.Exposed.not_raise h).elim
      · exact (System.Exposed.not_raise h).elim
  | none =>
      unfold Frozen.range
      rw [hsequence]
      cases syncCursor with
      | some token =>
          obtain ⟨found, hfound, h⟩ := System.Exposed.bind_inv h
          obtain rfl := exposed_decode hfound
          split at h
          · split at h
            · rw [← h.of_ret]
              rfl
            · exact (System.Exposed.not_raise h).elim
          · exact (System.Exposed.not_raise h).elim
      | none => rw [← h.of_ret]

/-- A page of the index is a page of the rows of its range. -/
theorem exposed_page (range : Range) {records : List AgentSyncRecord} {lastSk : Option String}
    (h : service.Exposed pid (frozen.Holds environment)
      (AgentSyncRepository.page environment range.after range.through range.lastSk)
      (.ok (records, lastSk))) :
    ∃ choice, records = (pageOf (range.rows frozen.index environment) choice).items.map
        (fun item => item.2.record) ∧
      lastSk = (pageOf (range.rows frozen.index environment) choice).lastEvaluatedKey := by
  unfold AgentSyncRepository.page at h
  unfold Range.rows
  split at h
  next heq =>
    rw [if_pos heq]
    obtain ⟨rfl, rfl⟩ := Prod.mk.inj h.of_ret
    exact ⟨{}, rfl, rfl⟩
  next hne =>
    rw [if_neg hne]
    obtain ⟨response, hresponse, h⟩ := System.Exposed.bind_inv h
    obtain ⟨rfl, rfl⟩ := Prod.mk.inj h.of_ret
    obtain ⟨choice, s, s', hbefore, -, hperform⟩ := exposed_send hresponse
    have hpage := Except.ok.inj (Prod.mk.inj (Option.some.inj hperform)).1
    rw [changesBetween_congr hbefore.change] at hpage
    exact ⟨choice, by rw [hpage], by rw [hpage]⟩

/-- What one answer shows, and where its cursor continues. -/
theorem exposed_answer {scope : String} {query : SyncQuery} {grant : AgentGrantRecord}
    {position : Position} {page : AgentSyncPage} {range : Range}
    (hrange : range = ⟨position.after, position.through, position.lastSk⟩)
    (h : service.Exposed pid (frozen.Holds environment)
      (answer environment scope query grant position) (.ok page)) :
    ∃ choice, page.changes = visibleEntries grant
        ((pageOf (range.rows frozen.index environment) choice).items.map
          fun item => item.2.record) ∧
      (page.nextCursor = none →
        (pageOf (range.rows frozen.index environment) choice).lastEvaluatedKey = none) ∧
      ∀ token, page.nextCursor = some token → ∃ last,
        (pageOf (range.rows frozen.index environment) choice).lastEvaluatedKey = some last ∧
          frozen.range environment ⟨none, some token⟩ =
            ⟨range.after, range.through, some last⟩ := by
  subst hrange
  obtain ⟨⟨records, lastSk⟩, hpage, h⟩ := System.Exposed.bind_inv h
  obtain ⟨choice, rfl, rfl⟩ := exposed_page ⟨_, _, _⟩ hpage
  refine ⟨choice, ?_⟩
  generalize (pageOf _ choice).lastEvaluatedKey = lastSk at h ⊢
  dsimp only at h
  cases lastSk with
  | some last =>
      obtain ⟨token, htoken, h⟩ := System.Exposed.bind_inv h
      have hcursor := exposed_encode htoken
      rw [← h.of_ret]
      refine ⟨rfl, nofun, ?_⟩
      intro token' htoken'
      obtain rfl := Option.some.inj htoken'
      refine ⟨last, rfl, ?_⟩
      unfold Frozen.range
      simp only [hcursor]
  | none =>
      obtain ⟨token, -, h⟩ := System.Exposed.bind_inv h
      rw [← h.of_ret]
      exact ⟨rfl, fun _ => rfl, nofun⟩

/-- **One request answers with a page of the rows of its range.** -/
theorem exposed_sync {consumerId : String} {query : SyncQuery} {grant : AgentGrantRecord}
    {page : AgentSyncPage}
    (h : service.Exposed pid (frozen.Holds environment)
      (sync consumerId environment query (some grant)) (.ok page)) :
    ∃ choice, page.changes = visibleEntries grant
        ((pageOf ((frozen.range environment query).rows frozen.index environment)
          choice).items.map fun item => item.2.record) ∧
      (page.nextCursor = none → (pageOf ((frozen.range environment query).rows frozen.index
        environment) choice).lastEvaluatedKey = none) ∧
      ∀ token, page.nextCursor = some token → ∃ last,
        (pageOf ((frozen.range environment query).rows frozen.index environment)
            choice).lastEvaluatedKey = some last ∧
          frozen.range environment ⟨none, some token⟩ =
            ⟨(frozen.range environment query).after, (frozen.range environment query).through,
              some last⟩ := by
  obtain ⟨accepted, haccepted, h⟩ := System.Exposed.bind_inv h
  have hsome := exposed_requireSome haccepted
  obtain rfl : grant = accepted := Option.some.inj (Option.filter_eq_some_iff.mp hsome).1
  split at h
  · exact (System.Exposed.not_raise h).elim
  obtain ⟨found, hfound, h⟩ := System.Exposed.bind_inv h
  obtain ⟨state, hstate, h⟩ := System.Exposed.bind_inv h
  obtain ⟨now, -, h⟩ := System.Exposed.bind_inv h
  obtain ⟨position, hposition, h⟩ := System.Exposed.bind_inv h
  obtain ⟨choice, s, s', hbefore, -, hperform⟩ := exposed_send hfound
  have hget : s.table.get (.syncState environment) = found :=
    Except.ok.inj (Prod.mk.inj (Option.some.inj hperform)).1
  have hstate' : frozen.index.syncState environment = some state := by
    rw [← hbefore.syncState]
    exact hget.trans (Option.filter_eq_some_iff.mp (exposed_requireSome hstate)).1
  exact exposed_answer (exposed_startPosition hstate' hposition) h

end Requests

/-! ## A whole cycle -/

/-- **A cycle delivers the entries of its range**, wherever its pages end.  The induction is over
the requests of the cycle. -/
theorem Cycle.entries_eq {frozen : Frozen} {pid : ℕ} {consumerId environment : String}
    {grant : AgentGrantRecord} {query : SyncQuery} {pages : List AgentSyncPage}
    (h : Cycle frozen pid consumerId environment grant query pages) :
    pages.flatMap AgentSyncPage.changes =
      (frozen.range environment query).entries frozen.index environment grant := by
  induction h with
  | last hpage hnext =>
      obtain ⟨choice, hchanges, hlast, -⟩ := exposed_sync hpage
      rw [List.flatMap_singleton, hchanges, Range.entries,
        (pageOf_strict (Range.strict_rows _ _ _)).1 (hlast hnext)]
  | @more query page pages token hpage hnext hrest ih =>
      obtain ⟨choice, hchanges, -, hmore⟩ := exposed_sync hpage
      obtain ⟨last, hlast, hrange⟩ := hmore token hnext
      obtain ⟨hmem, hsplit⟩ := (pageOf_strict (Range.strict_rows _ _ _)).2 last hlast
      rw [List.flatMap_cons, ih, hchanges, hrange, Range.entries, Range.entries,
        Range.rows_continue hmem, visibleEntries, visibleEntries, visibleEntries,
        ← List.filterMap_append, ← List.map_append, ← hsplit]

/-- The entries of a range with the keys of their rows. -/
def Range.keyed (range : Range) (s : Cloud) (environment : String) (grant : AgentGrantRecord) :
    List (String × AgentSyncEntry) :=
  (range.rows s environment).filterMap fun item =>
    (entryOf grant item.2.record).map fun entry => (item.1, entry)

theorem Range.map_keyed (range : Range) (s : Cloud) (environment : String)
    (grant : AgentGrantRecord) :
    (range.keyed s environment grant).map Prod.snd = range.entries s environment grant := by
  unfold Range.keyed Range.entries visibleEntries
  rw [List.map_filterMap, List.filterMap_map]
  refine List.filterMap_congr fun item _ => ?_
  simp [Option.map_map, Function.comp_def]

theorem Range.strict_keyed (range : Range) (s : Cloud) (environment : String)
    (grant : AgentGrantRecord) :
    (range.keyed s environment grant).Pairwise fun left right => left.1 < right.1 := by
  refine List.Pairwise.filterMap _ ?_ (range.strict_rows s environment)
  intro item item' hlt keyed hkeyed keyed' hkeyed'
  obtain ⟨entry, -, rfl⟩ := Option.map_eq_some_iff.mp hkeyed
  obtain ⟨entry', -, rfl⟩ := Option.map_eq_some_iff.mp hkeyed'
  exact hlt

/-- One index has what the agent may see of the covered records of another. -/
def Covers (grant : AgentGrantRecord) (environment : String) (s s' : Cloud) : Prop :=
  ∀ sk row, s.change environment sk = some row →
    row.record.secretUid ∈ grant.secretGrants.map AgentSecretGrant.secretUid →
      ∃ row', s'.change environment sk = some row' ∧ SameSeen grant row.record row'.record

/-- A record with an entry is covered. -/
theorem mem_of_entryOf {grant : AgentGrantRecord} {record : AgentSyncRecord}
    {entry : AgentSyncEntry} (h : entryOf grant record = some entry) :
    record.secretUid ∈ grant.secretGrants.map AgentSecretGrant.secretUid := by
  obtain ⟨selected, hselected, -⟩ := Option.map_eq_some_iff.mp h
  obtain ⟨hfound, -⟩ := Option.filter_eq_some_iff.mp hselected
  have hmem := List.mem_reverse.mp (List.mem_of_find?_eq_some hfound)
  have huid := List.find?_some hfound
  exact List.mem_map.mpr ⟨selected, hmem, of_decide_eq_true huid⟩

theorem Covers.keyed {grant : AgentGrantRecord} {environment : String} {s s' : Cloud}
    (h : Covers grant environment s s') {range : Range} {item : String × AgentSyncEntry}
    (hmem : item ∈ range.keyed s environment grant) : item ∈ range.keyed s' environment grant := by
  obtain ⟨⟨sk, row⟩, hrow, hitem⟩ := List.mem_filterMap.mp hmem
  obtain ⟨entry, hentry, rfl⟩ := Option.map_eq_some_iff.mp hitem
  unfold Range.rows at hrow
  split at hrow
  · cases hrow
  next hne =>
    obtain ⟨hchange, hbounds⟩ := mem_changesBetween.mp hrow
    obtain ⟨row', hchange', hsame⟩ := h sk row hchange (mem_of_entryOf hentry)
    refine List.mem_filterMap.mpr ⟨(sk, row'), ?_, ?_⟩
    · unfold Range.rows
      rw [if_neg hne]
      exact mem_changesBetween.mpr ⟨hchange', hbounds⟩
    · show (entryOf grant row'.record).map _ = _
      rw [hsame.entryOf_eq, hentry]
      rfl

/-- **A cycle reveals nothing outside the grant.**  Over two indexes that agree on what the agent
may see of the covered records, complete cycles from the same position deliver the same entries in
the same order; the payload version of a record matters only to an agent that may read or write
it, and its metadata only to one that may write it. -/
theorem sync_reveals_grant (frozen frozen' : Frozen) (environment consumerId : String)
    (grant : AgentGrantRecord) (query query' : SyncQuery)
    (hcovers : Covers grant environment frozen.index frozen'.index)
    (hcovers' : Covers grant environment frozen'.index frozen.index)
    (hposition : frozen.range environment query = frozen'.range environment query')
    (pid pid' : ℕ) (pages pages' : List AgentSyncPage)
    (hcycle : Cycle frozen pid consumerId environment grant query pages)
    (hcycle' : Cycle frozen' pid' consumerId environment grant query' pages') :
    pages.flatMap AgentSyncPage.changes = pages'.flatMap AgentSyncPage.changes := by
  rw [hcycle.entries_eq, hcycle'.entries_eq, ← hposition, ← Range.map_keyed, ← Range.map_keyed]
  refine congrArg (List.map Prod.snd) ?_
  exact eq_of_strict (Range.strict_keyed _ _ _ _) (Range.strict_keyed _ _ _ _) fun item =>
    ⟨fun hmem => hcovers.keyed hmem, fun hmem => hcovers'.keyed hmem⟩
/-! ## Two indexes of one environment -/

namespace Privacy

/-- An agent that may read `api-key`. -/
def reader : AgentGrantRecord where
  grantId := "grant"
  consumerId := "agent"
  environment := "prod"
  capabilities := [.read]
  secretGrants := [{ secretUid := "sec-a", secretId := "api-key", permissions := [.read] }]
  status := .active
  createdAt := 0
  createdBy := { type := .human, id := "admin" }

/-- A record that the agent may read, with some metadata that it may not see. -/
def recordOf (secretUid : String) (metadata : SecretMetadata) : AgentSyncRecord where
  secretUid := secretUid
  secretId := "api-key"
  controlVersionId := "ctl-a"
  payloadVersionId := some "pay-a"
  state := .active
  metadata := metadata
  readConsumerIds := ["agent"]

def counter : AgentSyncState := { epoch := "epoch", sequence := 2, ready := true }

/-- An index with the covered secret alone. -/
def alone : Cloud := { Cloud.empty with
  table := (Table.empty.set (.syncState "prod") (some counter)).set
    (.change "prod" (syncSk 1 "sec-a")) (some ⟨recordOf "sec-a" ⟨none, none⟩, none⟩) }

/-- An index with another secret, and with other metadata. -/
def beside : Cloud := { Cloud.empty with
  table := ((Table.empty.set (.syncState "prod") (some counter)).set
    (.change "prod" (syncSk 1 "sec-a")) (some ⟨recordOf "sec-a" ⟨some "other", none⟩, none⟩)).set
    (.change "prod" (syncSk 2 "sec-b")) (some ⟨recordOf "sec-b" ⟨none, none⟩, none⟩) }

/-- The checkpoint of a snapshot. -/
def checkpointCursor : StoredCursor where
  scope := "agent-sync:prod:agent"
  position :=
    { kind := .checkpoint
      epoch := "epoch"
      digest := grantDigest reader
      after := 2
      through := 2
      snapshot := true
      checkpointExpiresAt := syncCheckpointLifetime
      pageExpiresAt := 15 * 60 * 1000
      lastSk := none }
  expiresAt := syncCheckpointLifetime

def frozenOf (index : Cloud) : Frozen := ⟨index, fun _ => checkpointCursor⟩

/-- A page has room for both rows. -/
def wide : Choice := { number := 1 }

/-- The only page of a snapshot. -/
def snapshotPage (index : Cloud) : AgentSyncPage where
  snapshot := true
  changes := visibleEntries reader
    ((pageOf ((Range.mk 0 2 none).rows index "prod") wide).items.map fun item => item.2.record)
  nextCursor := none
  syncCursor := some "token"

/-- A snapshot in one page. -/
theorem cycle_of_index {index : Cloud} (hcounter : index.syncState "prod" = some counter)
    (hcursor : ∀ token, index.table.get (.cursor token) = none) (hnow : index.now = 0)
    (hknown : index.known = [])
    (hlast : (pageOf ((Range.mk 0 2 none).rows index "prod") wide).lastEvaluatedKey = none) :
    Cycle (frozenOf index) 0 "agent" "prod" reader ⟨none, none⟩ [snapshotPage index] := by
  have hholds : (frozenOf index).Holds "prod" index :=
    ⟨fun _ => rfl, rfl, fun token stored hstored => by rw [hcursor] at hstored; cases hstored⟩
  let drawn : Cloud := { index with
    known := "token" :: index.known
    drawnBy := Function.update index.drawnBy "token" (some 0) }
  have hdrawn : (frozenOf index).Holds "prod" drawn := ⟨hholds.1, hholds.2, hholds.3⟩
  let write : TableWrite := .create (.cursor "token") checkpointCursor
  have hwritten : (frozenOf index).Holds "prod" { drawn with table := write.apply index.table } := by
    refine ⟨fun sk => ?_, ?_, fun token stored hstored => ?_⟩
    · exact Write.get_apply_of_ne write index.table nofun
    · exact Write.get_apply_of_ne write index.table nofun
    · by_cases htoken : token = "token"
      · subst htoken
        exact (Option.some.inj ((Write.get_apply_self write index.table).symm.trans hstored)).symm
      · have hne : Key.cursor token ≠ write.key := fun h => htoken (Key.cursor.inj h)
        have hkept := Write.get_apply_of_ne write index.table hne
        have hnone := hkept.symm.trans hstored
        rw [hcursor] at hnone
        cases hnone
  refine .last ?_ rfl
  refine System.Exposed.bind (b := reader) (.ret _) ?_
  refine System.Exposed.bind (exposed_of_perform {} _ rfl hholds rfl hholds) ?_
  refine System.Exposed.bind (b := counter) ?_ ?_
  · show service.Exposed 0 _ (requireSome _ ((index.syncState "prod").filter _)) _
    rw [hcounter]
    exact .ret _
  refine System.Exposed.bind (exposed_of_perform {} _ rfl hholds rfl hholds) ?_
  refine System.Exposed.bind (.ret _) ?_
  refine System.Exposed.bind (b := ((pageOf ((Range.mk 0 2 none).rows index "prod") wide).items.map
    (fun item => item.2.record),
    (pageOf ((Range.mk 0 2 none).rows index "prod") wide).lastEvaluatedKey)) ?_ ?_
  · exact System.Exposed.bind (exposed_of_perform wide _ rfl hholds rfl hholds) (.ret _)
  dsimp only
  rw [hlast, hnow]
  refine System.Exposed.bind (b := "token") ?_ (.ret _)
  -- the first token that is drawn is a new one
  show service.Exposed 0 _ (CursorService.encode.attempts checkpointCursor 3) _
  refine System.Exposed.bind (b := "token")
    (exposed_of_perform { id := "token" } drawn rfl hholds ?_ hdrawn) ?_
  · simp [perform, hknown, drawn]
  refine System.Exposed.bind (b := true) ?_ (.ret _)
  refine System.Exposed.recover ?_
  refine System.Exposed.bind (b := ())
    (exposed_of_perform {} _ rfl hdrawn ?_ hwritten) (.ret _)
  show (if (index.table.get (.cursor "token")).isNone = true then _ else _) = _
  rw [hcursor]
  rfl

theorem change_alone {sk : String} {row : ChangeRow} (h : alone.change "prod" sk = some row) :
    sk = syncSk 1 "sec-a" ∧ row = ⟨recordOf "sec-a" ⟨none, none⟩, none⟩ := by
  unfold alone Cloud.change at h
  by_cases hsk : sk = syncSk 1 "sec-a"
  · subst hsk
    rw [Table.get_set_self] at h
    exact ⟨rfl, (Option.some.inj h).symm⟩
  · rw [Table.get_set_of_ne _ _ (by simpa using hsk)] at h
    cases h

theorem change_beside {sk : String} {row : ChangeRow} (h : beside.change "prod" sk = some row)
    (huid : row.record.secretUid = "sec-a") :
    sk = syncSk 1 "sec-a" ∧ row = ⟨recordOf "sec-a" ⟨some "other", none⟩, none⟩ := by
  unfold beside Cloud.change at h
  by_cases hother : sk = syncSk 2 "sec-b"
  · subst hother
    rw [Table.get_set_self] at h
    obtain rfl := Option.some.inj h
    exact absurd huid (by decide)
  · rw [Table.get_set_of_ne _ _ (by simpa using hother)] at h
    by_cases hsk : sk = syncSk 1 "sec-a"
    · subst hsk
      rw [Table.get_set_self] at h
      exact ⟨rfl, (Option.some.inj h).symm⟩
    · rw [Table.get_set_of_ne _ _ (by simpa using hsk)] at h
      cases h

/-- The agent may not see metadata. -/
theorem sameSeen_recordOf (metadata metadata' : SecretMetadata) :
    SameSeen reader (recordOf "sec-a" metadata) (recordOf "sec-a" metadata') :=
  ⟨rfl, rfl, rfl, rfl, Iff.rfl, fun _ => rfl, fun hwrite => absurd hwrite.2.1 (by decide)⟩

end Privacy

/-- The snapshots of the two indexes show the same entries, of the covered secret alone. -/
theorem sync_reveals_grant_beside :
    (Privacy.snapshotPage Privacy.alone).changes = (Privacy.snapshotPage Privacy.beside).changes := by
  have h := sync_reveals_grant (Privacy.frozenOf Privacy.alone) (Privacy.frozenOf Privacy.beside)
    "prod" "agent" Privacy.reader ⟨none, none⟩ ⟨none, none⟩ ?_ ?_ rfl 0 0 _ _
    (Privacy.cycle_of_index rfl (fun _ => rfl) rfl rfl (by decide +kernel))
    (Privacy.cycle_of_index rfl (fun _ => rfl) rfl rfl (by decide +kernel))
  · simpa using h
  · intro sk row hrow _
    obtain ⟨rfl, rfl⟩ := Privacy.change_alone hrow
    exact ⟨_, rfl, Privacy.sameSeen_recordOf _ _⟩
  · intro sk row hrow huid
    obtain ⟨rfl, rfl⟩ := Privacy.change_beside hrow (List.mem_singleton.mp huid)
    exact ⟨_, rfl, Privacy.sameSeen_recordOf _ _⟩

end Hemlig
