import Hemlig.Console.Payload
import Mathlib.Data.List.Nodup

/-!
# The console and the service accept the same payloads

The form checks rows; the service checks the entries of the object that it reads.  Both come to
the same checks of the same entries once the text of the body is read where it was written, and
the entries are only enumerated in another order than they were made.
-/

namespace Hemlig.Validation

open Text Json
open Console hiding isCanonicalBase64

/-! ## The texts of payloads -/

theorem reorder_entryJson (entry : SecretEntry) : reorder (entryJson entry) = entryJson entry := by
  have hkeys : ∀ key ∈ [units "encoding", units "value"], NoDigit key := by
    intro key hkey c hc
    simp only [List.mem_cons, List.not_mem_nil, or_false] at hkey
    rcases hkey with rfl | rfl
    · cases hc
      decide
    · cases hc
      decide
  have hnested : (entryFields entry).mapValues reorder = entryFields entry := rfl
  have henumerate : (entryFields entry).enumerate = entryFields entry :=
    Entries.enumerate_of_none fun key hkey => arrayIndex_of_noDigit (hkeys key hkey)
  unfold entryJson
  rw [reorder, reorderEntries_eq, hnested, henumerate]

theorem reorder_payloadJson (payload : SecretPayload) :
    reorder (payloadJson payload) = payloadJson payload.enumerate := by
  have hnested : (payload.mapValues entryJson).mapValues reorder = payload.mapValues entryJson := by
    unfold Entries.mapValues
    rw [List.map_map]
    refine List.map_congr_left fun entry _ => ?_
    exact Prod.ext rfl (reorder_entryJson entry.2)
  unfold payloadJson
  rw [reorder, reorderEntries_eq, hnested, Entries.enumerate_mapValues]

/-- A payload is written in the order in which it is enumerated. -/
theorem stringify_enumerate (gap : ℕ) (payload : SecretPayload) :
    stringify gap (payloadJson payload.enumerate) = stringify gap (payloadJson payload) := by
  unfold stringify payloadJson
  rw [write, write, writeEntries_eq, writeEntries_eq, Entries.enumerate_mapValues,
    Entries.enumerate_mapValues, Entries.enumerate_mapValues, Entries.enumerate_mapValues,
    Entries.enumerate_enumerate]

theorem payloadSize_enumerate (payload : SecretPayload) :
    payloadSize payload.enumerate = payloadSize payload := by
  unfold payloadSize
  rw [stringify_enumerate]

theorem nodup_enumerate {α : Type} {entries : Entries α} (h : entries.keys.Nodup) :
    entries.enumerate.keys.Nodup :=
  ((Entries.enumerate_perm entries).map Prod.fst).nodup_iff.mpr h

theorem keyed_entryJson (entry : SecretEntry) : Keyed Set.univ (entryJson entry) := by
  have hnodup : (entryFields entry).keys.Nodup := by
    show [units "encoding", units "value"].Nodup
    decide
  refine .object hnodup (fun _ _ => trivial) ?_
  exact List.forall_mem_cons.mpr ⟨.string _, List.forall_mem_singleton.mpr (.string _)⟩

theorem keyed_payloadJson {payload : SecretPayload} (h : payload.keys.Nodup) :
    Keyed Set.univ (payloadJson payload) := by
  refine .object ?_ (fun _ _ => trivial) fun field hmem => ?_
  · rw [Entries.keys_mapValues]
    exact h
  · obtain ⟨entry, -, rfl⟩ := List.mem_map.mp hmem
    exact keyed_entryJson entry.2

/-! ## What the service accepts -/

theorem mapM_parsePayloadEntry (payload : SecretPayload) {parsed : SecretPayload} :
    (payload.mapValues entryJson).mapM parsePayloadEntry = .ok parsed ↔
      (∀ entry ∈ payload, Acceptable entry.1 entry.2) ∧ parsed = payload := by
  induction payload generalizing parsed with
  | nil =>
      show Except.ok [] = Except.ok parsed ↔ _
      simp [eq_comm]
  | cons entry rest ih =>
      have hcons : Entries.mapValues entryJson (entry :: rest) =
          (entry.1, entryJson entry.2) :: Entries.mapValues entryJson rest := rfl
      rw [hcons, List.mapM_cons, List.forall_mem_cons]
      cases hfirst : parsePayloadEntry (entry.1, entryJson entry.2) with
      | error message =>
          refine ⟨nofun, fun ⟨⟨hacceptable, _⟩, _⟩ => ?_⟩
          rw [parsePayloadEntry_ok_iff.mpr ⟨hacceptable, rfl⟩] at hfirst
          cases hfirst
      | ok first =>
          obtain ⟨hacceptable, rfl⟩ := parsePayloadEntry_ok_iff.mp hfirst
          cases hrest : (Entries.mapValues entryJson rest).mapM parsePayloadEntry with
          | error message =>
              refine ⟨nofun, fun ⟨⟨_, hothers⟩, _⟩ => ?_⟩
              rw [ih.mpr ⟨hothers, rfl⟩] at hrest
              cases hrest
          | ok others =>
              obtain ⟨hothers, rfl⟩ := ih.mp hrest
              show Except.ok ((entry.1, entry.2) :: others) = Except.ok parsed ↔ _
              rw [Except.ok.injEq]
              exact ⟨fun h => ⟨⟨hacceptable, hothers⟩, h.symm⟩, fun h => h.2.symm⟩

/-- A payload whose keys differ is accepted with its entries enumerated, if they are acceptable and
it is not too long. -/
theorem parsePayload_ok_iff {payload parsed : SecretPayload} (hnodup : payload.keys.Nodup)
    (maxBytes : ℕ) :
    parsePayload (payloadJson payload.enumerate) maxBytes = .ok parsed ↔
      (∀ entry ∈ payload, Acceptable entry.1 entry.2) ∧ payloadSize payload ≤ maxBytes ∧
        parsed = payload.enumerate := by
  have hfields : (payload.enumerate.mapValues entryJson).enumerate =
      payload.enumerate.mapValues entryJson := by
    rw [Entries.enumerate_mapValues, Entries.enumerate_enumerate]
  have hentries : (∀ entry ∈ payload.enumerate, Acceptable entry.1 entry.2) ↔
      ∀ entry ∈ payload, Acceptable entry.1 entry.2 := by
    simp only [(Entries.enumerate_perm payload).mem_iff]
  have hmade : Entries.fromEntries payload.enumerate = payload.enumerate :=
    Entries.fromEntries_eq (nodup_enumerate hnodup)
  unfold payloadJson
  simp only [parsePayload, hfields]
  cases hparsed : (payload.enumerate.mapValues entryJson).mapM parsePayloadEntry with
  | error message =>
      refine ⟨nofun, fun ⟨hacceptable, _, _⟩ => ?_⟩
      rw [(mapM_parsePayloadEntry _).mpr ⟨hentries.mpr hacceptable, rfl⟩] at hparsed
      cases hparsed
  | ok entries =>
      obtain ⟨hacceptable, rfl⟩ := (mapM_parsePayloadEntry _).mp hparsed
      show (if payloadSize (Entries.fromEntries payload.enumerate) > maxBytes then _
        else Except.ok (Entries.fromEntries payload.enumerate)) = Except.ok parsed ↔ _
      rw [hmade, payloadSize_enumerate]
      by_cases hsize : payloadSize payload > maxBytes
      · rw [if_pos hsize]
        exact ⟨nofun, fun ⟨_, hle, _⟩ => absurd hsize (by omega)⟩
      · rw [if_neg hsize, Except.ok.injEq]
        exact ⟨fun h => ⟨hentries.mp hacceptable, by omega, h.symm⟩, fun h => h.2.2.symm⟩

/-- The service reads the payload that the console wrote. -/
theorem requestPayload_payloadBody {rows : List PayloadRow} (hnodup : (toPayload rows).keys.Nodup)
    (maxBytes : ℕ) : requestPayload (payloadBody rows) maxBytes =
      parsePayload (payloadJson (toPayload rows).enumerate) maxBytes := by
  let body : Entries Value := [(units "payload", payloadJson (toPayload rows))]
  have hkeyed : Keyed Set.univ (.object body) := by
    refine .object (List.nodup_singleton _) (fun _ _ => trivial) ?_
    exact List.forall_mem_singleton.mpr (keyed_payloadJson hnodup)
  have hindex : ∀ key ∈ [units "payload"], arrayIndex key = none := by
    intro key hkey
    obtain rfl := List.mem_singleton.mp hkey
    refine arrayIndex_of_noDigit fun c hc => ?_
    cases hc
    decide
  have hreorder : reorder (.object body) =
      .object [(units "payload", payloadJson (toPayload rows).enumerate)] := by
    have hnested : body.mapValues reorder =
        [(units "payload", payloadJson (toPayload rows).enumerate)] := by
      show [(_, reorder _)] = _
      rw [reorder_payloadJson]
      rfl
    have henumerate :
        Entries.enumerate [(units "payload", payloadJson (toPayload rows).enumerate)] =
          [(units "payload", payloadJson (toPayload rows).enumerate)] :=
      Entries.enumerate_of_none hindex
    rw [reorder, reorderEntries_eq, hnested, henumerate]
  have hparse : parse (payloadBody rows) = some _ := parse_stringify hkeyed
  have hne : payloadBody rows ≠ [] := by
    obtain ⟨c, text, htext, -⟩ := starts_write 0 0 (.object body)
    intro hnil
    exact List.cons_ne_nil c text (htext.symm.trans hnil)
  unfold requestPayload
  rw [if_neg hne, hparse, hreorder]
  simp [Entries.get]

/-! ## What the console accepts -/

/-- **Both checks of base64 accept the encodings of bytes.** -/
theorem console_isCanonicalBase64_iff (value : JsString) :
    Console.isCanonicalBase64 value = true ↔ ∃ bytes, value = encodeBase64 bytes := by
  constructor
  · intro h
    unfold Console.isCanonicalBase64 at h
    split_ifs at h with hempty hgrammar
    · exact ⟨[], List.length_eq_zero_iff.mp hempty⟩
    · split at h
      · cases h
      · rename_i binary _
        have hencoded := of_decide_eq_true h
        rw [btoa_bytes, Option.some.injEq] at hencoded
        exact ⟨_, hencoded.symm⟩
  · rintro ⟨bytes, rfl⟩
    have hmatches := matchesBase64_encodeBase64 bytes
    have hlength := length_encodeBase64 bytes
    have hbytes : (bytes.map (·.toUInt16)).map (·.toUInt8) = bytes := by
      rw [List.map_map]
      exact (List.map_congr_left fun byte _ => UInt8.toUInt8_toUInt16 byte).trans (List.map_id bytes)
    unfold Console.isCanonicalBase64
    split_ifs with hempty hgrammar
    · rfl
    · simp [hmatches, hlength] at hgrammar
    · rw [atob_encodeBase64]
      dsimp only
      rw [hbytes, btoa_bytes]
      exact decide_eq_true rfl

theorem isCanonicalBase64_eq (value : JsString) :
    Console.isCanonicalBase64 value = isCanonicalBase64 value := by
  rw [Bool.eq_iff_iff, console_isCanonicalBase64_iff, isCanonicalBase64_iff]

theorem rowError_eq_none {row : PayloadRow} :
    rowError row = none ↔ Acceptable row.key ⟨row.encoding, row.value⟩ := by
  have hkey : secretEntryKey row.key = entryKey row.key := rfl
  unfold rowError Acceptable
  rw [hkey, isCanonicalBase64_eq]
  split_ifs with hempty hgrammar hbase64
  · simp [entryKey, List.length_eq_zero_iff.mp hempty]
  · simp_all
  · simp_all
  · simp_all

theorem put_ne_nil {α : Type} (entries : Entries α) (key : JsString) (value : α) :
    entries.put key value ≠ [] := by
  cases entries with
  | nil => exact List.cons_ne_nil _ _
  | cons entry rest =>
      rw [Entries.put]
      split
      · exact List.cons_ne_nil _ _
      · exact List.cons_ne_nil _ _

/-- Problems are only added. -/
theorem noteProblems_eq_nil {rows : List PayloadRow} {problems : Entries String} :
    rows.foldl noteProblem problems = [] ↔ problems = [] ∧ ∀ row ∈ rows, rowError row = none := by
  induction rows generalizing problems with
  | nil => simp
  | cons row rest ih =>
      rw [List.foldl_cons, ih, List.forall_mem_cons]
      cases herror : rowError row with
      | none => simp [noteProblem, herror]
      | some error => simp [noteProblem, herror, put_ne_nil]

theorem rowProblems_eq_nil {rows : List PayloadRow} :
    rowProblems rows = [] ↔ ∀ row ∈ rows, rowError row = none := by
  unfold rowProblems
  rw [noteProblems_eq_nil]
  exact and_iff_right rfl

theorem mem_addKey {keys : List JsString} {key other : JsString} :
    other ∈ addKey keys key ↔ other ∈ keys ∨ other = key := by
  unfold addKey
  split_ifs with hmem
  · exact ⟨.inl, fun h => h.elim id fun heq => heq ▸ hmem⟩
  · simp

/-- No duplicate is found if the keys differ from each other and from those seen before. -/
theorem noteKeys_eq_nil {rows : List PayloadRow} (h : ∀ row ∈ rows, row.key ≠ [])
    {seen duplicates : List JsString} :
    (rows.foldl noteKey (seen, duplicates)).2 = [] ↔
      duplicates = [] ∧ (rows.map PayloadRow.key).Nodup ∧ ∀ row ∈ rows, row.key ∉ seen := by
  induction rows generalizing seen duplicates with
  | nil => simp
  | cons row rest ih =>
      obtain ⟨hkey, hrest⟩ := List.forall_mem_cons.mp h
      have hlength : row.key.length ≠ 0 := fun hzero => hkey (List.length_eq_zero_iff.mp hzero)
      have hnote : noteKey (seen, duplicates) row =
          (addKey seen row.key,
            if row.key ∈ seen then addKey duplicates row.key else duplicates) := by
        unfold noteKey
        rw [if_neg hlength]
      rw [List.foldl_cons, hnote, ih hrest, List.map_cons, List.nodup_cons, List.forall_mem_cons]
      by_cases hseen : row.key ∈ seen
      · have hadded : addKey duplicates row.key ≠ [] :=
          List.ne_nil_of_mem (mem_addKey.mpr (.inr rfl))
        rw [if_pos hseen]
        exact ⟨fun hall => absurd hall.1 hadded, fun hall => absurd hseen hall.2.2.1⟩
      · rw [if_neg hseen]
        have hothers : (∀ other ∈ rest, other.key ∉ addKey seen row.key) ↔
            row.key ∉ rest.map PayloadRow.key ∧ ∀ other ∈ rest, other.key ∉ seen := by
          constructor
          · intro hall
            refine ⟨fun hmem => ?_, fun other hother hold =>
              hall other hother (mem_addKey.mpr (.inl hold))⟩
            obtain ⟨other, hother, heq⟩ := List.mem_map.mp hmem
            exact hall other hother (mem_addKey.mpr (.inr heq))
          · rintro ⟨hdiffer, hold⟩ other hother hadded
            rcases mem_addKey.mp hadded with hmem | heq
            · exact hold other hother hmem
            · exact hdiffer (List.mem_map.mpr ⟨other, hother, heq⟩)
        rw [hothers]
        tauto

theorem duplicateKeys_eq_nil {rows : List PayloadRow} (h : ∀ row ∈ rows, row.key ≠ []) :
    duplicateKeys rows = [] ↔ (rows.map PayloadRow.key).Nodup := by
  unfold duplicateKeys
  rw [noteKeys_eq_nil h]
  simp

theorem keys_map_entryOf (rows : List PayloadRow) :
    Entries.keys (rows.map payloadEntry) = rows.map PayloadRow.key := by
  unfold Entries.keys
  rw [List.map_map]
  rfl

theorem toPayload_eq {rows : List PayloadRow} (h : (rows.map PayloadRow.key).Nodup) :
    toPayload rows = rows.map payloadEntry :=
  Entries.fromEntries_eq ((keys_map_entryOf rows).symm ▸ h)

theorem acceptable_rows {rows : List PayloadRow} :
    (∀ row ∈ rows, rowError row = none) ↔
      ∀ entry ∈ rows.map payloadEntry, Acceptable entry.1 entry.2 := by
  simp only [List.forall_mem_map, rowError_eq_none, payloadEntry]

theorem Acceptable.key_ne_nil {key : JsString} {entry : SecretEntry} (h : Acceptable key entry) :
    key ≠ [] := by
  rintro rfl
  cases h.1

/-- The form is valid if the keys differ, the entries are acceptable, and they are not too long. -/
theorem valid_iff {rows : List PayloadRow} (hne : rows ≠ []) :
    (inspectPayload rows).valid = true ↔ (rows.map PayloadRow.key).Nodup ∧
      (∀ row ∈ rows, rowError row = none) ∧ payloadSize (toPayload rows) ≤ MAX_PAYLOAD_BYTES := by
  have hlength : 0 < rows.length := List.length_pos_iff.mpr hne
  have hbytes : payloadBytes rows = payloadSize (toPayload rows) := rfl
  simp only [inspectPayload, Bool.and_eq_true, decide_eq_true_eq, Bool.not_eq_true',
    decide_eq_false_iff_not, List.length_eq_zero_iff, rowProblems_eq_nil, hbytes, not_lt, hlength,
    and_true]
  constructor
  · rintro ⟨⟨hrows, hduplicates⟩, hsize⟩
    have hkeys : ∀ row ∈ rows, row.key ≠ [] := fun row hmem =>
      (rowError_eq_none.mp (hrows row hmem)).key_ne_nil
    exact ⟨(duplicateKeys_eq_nil hkeys).mp hduplicates, hrows, hsize⟩
  · rintro ⟨hnodup, hrows, hsize⟩
    have hkeys : ∀ row ∈ rows, row.key ≠ [] := fun row hmem =>
      (rowError_eq_none.mp (hrows row hmem)).key_ne_nil
    exact ⟨⟨hrows, (duplicateKeys_eq_nil hkeys).mpr hnodup⟩, hsize⟩

/-- The service accepts the payload under the same conditions. -/
theorem requestPayload_ok_iff {rows : List PayloadRow} (hnodup : (rows.map PayloadRow.key).Nodup)
    {maxBytes : ℕ} {payload : SecretPayload} :
    requestPayload (payloadBody rows) maxBytes = .ok payload ↔
      (∀ row ∈ rows, rowError row = none) ∧ payloadSize (toPayload rows) ≤ maxBytes ∧
        payload = (toPayload rows).enumerate := by
  have hkeys : (toPayload rows).keys.Nodup := by
    rw [toPayload_eq hnodup, keys_map_entryOf]
    exact hnodup
  rw [requestPayload_payloadBody hkeys, parsePayload_ok_iff hkeys, acceptable_rows,
    ← toPayload_eq hnodup]

/-! ## The JSON tab -/

theorem parseJsonEntry_entryJson {key : JsString} {entry : SecretEntry} (h : Acceptable key entry)
    (id : JsString) : parseJsonEntry id (key, entryJson entry) =
      .ok ⟨id, key, entry.value, entry.encoding⟩ := by
  have hkey : entryKey key = true := h.1
  have hbase64 : ¬ (entry.encoding = .base64 && !Console.isCanonicalBase64 entry.value) = true := by
    simpa [isCanonicalBase64_eq] using h.2
  unfold parseJsonEntry
  rw [readEntry_entryJson, if_neg (by simp [hkey])]
  dsimp only
  rw [if_neg hbase64]

/-- The entries become rows, whatever the identifiers are. -/
theorem mapM_parseJsonEntry (id : ℕ → JsString) {payload : SecretPayload}
    (h : ∀ entry ∈ payload, Acceptable entry.1 entry.2) (start : ℕ) :
    ∃ rows, ((payload.mapValues entryJson).zipIdx start).mapM
        (fun field => parseJsonEntry (id field.2) field.1) = .ok rows ∧
      rows.map payloadEntry = payload := by
  induction payload generalizing start with
  | nil => exact ⟨[], rfl, rfl⟩
  | cons entry rest ih =>
      obtain ⟨hentry, hrest⟩ := List.forall_mem_cons.mp h
      obtain ⟨rows, hrows, hentries⟩ := ih hrest (start + 1)
      have hcons : (Entries.mapValues entryJson (entry :: rest)).zipIdx start =
          ((entry.1, entryJson entry.2), start) ::
            (Entries.mapValues entryJson rest).zipIdx (start + 1) := rfl
      refine ⟨⟨id start, entry.1, entry.2.value, entry.2.encoding⟩ :: rows, ?_, ?_⟩
      · rw [hcons, List.mapM_cons, parseJsonEntry_entryJson hentry, hrows]
        rfl
      · rw [List.map_cons, hentries]
        rfl

/-- The rows of the text are those that it was made of, enumerated. -/
theorem parseJsonPayload_toJsonText (message : JsString → Message) (id : ℕ → JsString)
    {rows : List PayloadRow} (hnodup : (rows.map PayloadRow.key).Nodup)
    (hrows : ∀ row ∈ rows, rowError row = none) :
    ∃ read, parseJsonPayload message id (toJsonText rows) = .ok read ∧
      read.map payloadEntry = Entries.enumerate (rows.map payloadEntry) := by
  have hpayload := toPayload_eq hnodup
  have hkeys : (toPayload rows).keys.Nodup := by
    rw [hpayload, keys_map_entryOf]
    exact hnodup
  have hparse : parse (toJsonText rows) = some (payloadJson (toPayload rows).enumerate) := by
    rw [← reorder_payloadJson]
    exact parse_stringify (keyed_payloadJson hkeys)
  have hfields : ((toPayload rows).enumerate.mapValues entryJson).enumerate =
      (toPayload rows).enumerate.mapValues entryJson := by
    rw [Entries.enumerate_mapValues, Entries.enumerate_enumerate]
  have hacceptable : ∀ entry ∈ (toPayload rows).enumerate, Acceptable entry.1 entry.2 := by
    intro entry hmem
    rw [hpayload] at hmem
    exact acceptable_rows.mp hrows entry ((Entries.enumerate_perm _).mem_iff.mp hmem)
  obtain ⟨read, hread, hentries⟩ := mapM_parseJsonEntry id hacceptable 0
  refine ⟨read, ?_, hpayload ▸ hentries⟩
  unfold parseJsonPayload
  rw [hparse]
  simp only [payloadJson, hfields]
  exact hread

/-! ## Agreement -/

/-- **The form and the service accept the same payloads.** -/
theorem payloads_agree (message : JsString → Message) (id : ℕ → JsString) (rows : List PayloadRow)
    (hne : rows ≠ []) :
    ((inspectPayload rows).valid = true ↔ (rows.map PayloadRow.key).Nodup ∧
      ∃ payload, requestPayload (payloadBody rows) MAX_PAYLOAD_BYTES = .ok payload) ∧
    ((inspectPayload rows).valid = true → ∃ payload,
      requestPayload (payloadBody rows) MAX_PAYLOAD_BYTES = .ok payload ∧
        payload.enumerate = (toPayload rows).enumerate) ∧
    ((rows.map PayloadRow.key).Nodup → (∀ row ∈ rows, rowError row = none) →
      ∃ read, parseJsonPayload message id (toJsonText rows) = .ok read ∧
        (read.map payloadEntry).Perm (rows.map payloadEntry)) ∧
    ∀ value, Console.isCanonicalBase64 value = isCanonicalBase64 value ∧
      (isCanonicalBase64 value = true ↔ ∃ bytes, value = encodeBase64 bytes) := by
  refine ⟨?_, fun hvalid => ?_, fun hnodup hrows => ?_,
    fun value => ⟨isCanonicalBase64_eq value, isCanonicalBase64_iff value⟩⟩
  · rw [valid_iff hne]
    refine and_congr_right fun hnodup => ?_
    simp only [requestPayload_ok_iff hnodup, exists_and_left, exists_eq, and_true]
  · obtain ⟨hnodup, hrows, hsize⟩ := (valid_iff hne).mp hvalid
    exact ⟨_, (requestPayload_ok_iff hnodup).mpr ⟨hrows, hsize, rfl⟩,
      Entries.enumerate_enumerate _⟩
  · obtain ⟨read, hread, hentries⟩ := parseJsonPayload_toJsonText message id hnodup hrows
    exact ⟨read, hread, hentries ▸ Entries.enumerate_perm _⟩

/-! ## Special keys and values -/

namespace Sample

/-- An array index as a key, half of a pair as a value, and padded base64. -/
def payloadRows : List PayloadRow :=
  [⟨units "row-1", units "name", [0xD800], .utf8⟩, ⟨units "row-2", units "10", units "AA==", .base64⟩,
    ⟨units "row-3", units "__proto__", [], .base64⟩]

end Sample

/-- The rows come back from the text of the JSON tab. -/
theorem payloads_agree_special : ∃ read,
    parseJsonPayload id (fun index => (natDigits index).map digit) (toJsonText Sample.payloadRows) =
        .ok read ∧
      (read.map payloadEntry).Perm (Sample.payloadRows.map payloadEntry) := by
  have hagree := payloads_agree id (fun index => (natDigits index).map digit) Sample.payloadRows
    (List.cons_ne_nil _ _)
  have hrows : ∀ row ∈ Sample.payloadRows, rowError row = none := by
    unfold Sample.payloadRows
    simp only [List.forall_mem_cons]
    exact ⟨by decide +kernel, by decide +kernel, by decide +kernel, List.forall_mem_nil _⟩
  exact hagree.2.2.1 (by decide) hrows

end Hemlig.Validation
