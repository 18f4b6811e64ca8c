import Hemlig.Services.Audit
import Mathlib.Data.List.Sort

/-!
# The audit archive lists each day completely

A key is the day of its event, then its time reversed, then its identifier.  So the keys under
the prefix of a day are those of the events of the day, and in byte order they are in the
reverse order of their times.  The sort within a page finds nothing to do, and a filter
commutes with the splitting into pages.
-/

namespace Hemlig.Audit

open Text

variable {auditPrefix : String} {events : List CompletedEvent} {event event' : CompletedEvent}
  {date : List Char}

/-! ## Keys -/

/-- What follows the prefix of the day. -/
def keyTail (event : CompletedEvent) : List Char :=
  fixed 13 (maximumAuditEpochMilliseconds - event.time) ++ '-' ::
    (event.eventId.toList ++ ".json".toList)

/-- The key of an event. -/
def keyOf (auditPrefix : String) (event : CompletedEvent) : ObjectKey :=
  auditPrefixForDate auditPrefix (utcDate event.time).iso ++ keyTail event

theorem isoTime_take (event : CompletedEvent) :
    event.isoTime.take 10 = (utcDate event.time).iso := by
  rw [CompletedEvent.isoTime, isoString, List.take_left' (Date.length_iso _)]

theorem auditObjectKey_eq (h : event.time ≤ maximumAuditEpochMilliseconds) :
    auditObjectKey auditPrefix event = .ok (keyOf auditPrefix event) := by
  have horder : padStart 13 (maximumAuditEpochMilliseconds - event.time) =
      fixed 13 (maximumAuditEpochMilliseconds - event.time) :=
    pad_toDigits (by omega) (by simp only [maximumAuditEpochMilliseconds]; omega)
  rw [auditObjectKey, if_neg (not_lt.mpr h)]
  simp only [isoTime_take, horder, keyOf, keyTail, auditPrefixForDate, List.append_assoc,
    List.cons_append, List.nil_append]

/-- The date of an event that can be written has fields of the usual width. -/
theorem utcDate_lt (h : event.time ≤ maximumAuditEpochMilliseconds) :
    (utcDate event.time).year < 10000 ∧ (utcDate event.time).month < 100 ∧
      (utcDate event.time).day < 100 := by
  obtain ⟨hyear, hmonth, hday⟩ := dateFromDay_le (event.time / millisecondsPerDay)
  have hdays : event.time / millisecondsPerDay ≤ 115740 :=
    (Nat.div_le_div_right h).trans (by decide)
  change (utcDate event.time).year ≤ _ at hyear
  change (utcDate event.time).month ≤ _ at hmonth
  change (utcDate event.time).day ≤ _ at hday
  omega

/-- Events of one date are of one day. -/
theorem day_eq_of_iso_eq (h : event.time ≤ maximumAuditEpochMilliseconds)
    (h' : event'.time ≤ maximumAuditEpochMilliseconds)
    (hdate : (utcDate event.time).iso = (utcDate event'.time).iso) :
    event.time / millisecondsPerDay = event'.time / millisecondsPerDay := by
  obtain ⟨hyear, hmonth, hday⟩ := utcDate_lt h
  obtain ⟨hyear', hmonth', hday'⟩ := utcDate_lt h'
  exact dateFromDay_inj ((Date.iso_inj hyear hyear' hmonth hmonth' hday hday').mp hdate)

/-! ## Dates -/

/-- Texts without slashes are told apart when their hyphens are slashes. -/
theorem slashed_inj {date date' : List Char} (h : '/' ∉ date) (h' : '/' ∉ date') :
    slashed date = slashed date' ↔ date = date' := by
  refine ⟨fun heq => ?_, fun heq => by rw [heq]⟩
  induction date generalizing date' with
  | nil => cases date' with
    | nil => rfl
    | cons c rest => cases heq
  | cons c rest ih =>
      cases date' with
      | nil => cases heq
      | cons c' rest' =>
          simp only [slashed, List.map_cons, List.cons.injEq] at heq
          rw [List.mem_cons, not_or] at h h'
          have hc : c = c' := by
            have hhead := heq.1
            split_ifs at hhead <;> simp_all
          rw [hc, ih h.2 h'.2 heq.2]

theorem slash_not_mem_fixed (width n : ℕ) : '/' ∉ fixed width n := by
  induction width generalizing n with
  | zero => simp [fixed]
  | succ width ih =>
      have hdigit : ∀ d : Fin 10, '/' ≠ (d : ℕ).digitChar := by decide
      rw [fixed, List.mem_append, List.mem_singleton, not_or]
      exact ⟨ih _, hdigit ⟨n % 10, Nat.mod_lt _ (by omega)⟩⟩

theorem slash_not_mem_iso (date : Date) : '/' ∉ date.iso := by
  simp [Date.iso, slash_not_mem_fixed]

/-- A date that is accepted is ten units long and has no slash. -/
theorem parseAuditDate_ok {value : Option (List Char)} {now : ℕ}
    (h : parseAuditDate value now = .ok date) : date.length = 10 ∧ '/' ∉ date := by
  unfold parseAuditDate at h
  generalize value.getD ((isoString now).take 10) = found at h
  simp only at h
  split at h
  · cases h
  · rename_i hparts
    split at h <;> cases h
    unfold dateParts at hparts
    split at hparts
    · split at hparts
      · rename_i hdigits
        refine ⟨rfl, fun hmem => ?_⟩
        simp only [List.mem_cons, List.all_cons, List.all_nil, Bool.and_eq_true] at hmem hdigits
        have hslash : ('/').isDigit = false := by decide
        rcases hmem with rfl | rfl | rfl | rfl | hmem | rfl | rfl | hmem | rfl | rfl | hmem <;>
          simp_all
      · cases hparts
    · cases hparts

/-- **The prefix of a date is that of the keys of its events.** -/
theorem isPrefixOf_keyOf (hlength : date.length = 10) (hslash : '/' ∉ date) :
    (auditPrefixForDate auditPrefix date).isPrefixOf (keyOf auditPrefix event) =
      decide ((utcDate event.time).iso = date) := by
  rw [Bool.eq_iff_iff, List.isPrefixOf_iff_prefix, decide_eq_true_eq, keyOf]
  constructor
  · intro hprefix
    have hsame : auditPrefixForDate auditPrefix date =
        auditPrefixForDate auditPrefix (utcDate event.time).iso := by
      refine List.IsPrefix.eq_of_length (List.prefix_of_prefix_length_le hprefix
        (List.prefix_append _ _) ?_) ?_ <;>
          simp [auditPrefixForDate, slashed, hlength]
    unfold auditPrefixForDate at hsame
    have hdates := (List.append_inj' (List.cons.inj (List.append_cancel_left hsame)).2 rfl).1
    exact ((slashed_inj hslash (slash_not_mem_iso _)).mp hdates).symm
  · rintro rfl
    exact List.prefix_append _ _

/-- Keys of one date are in the reverse order of the times. -/
theorem time_le_of_keyOf_le (hdate : (utcDate event.time).iso = (utcDate event'.time).iso)
    (hle : event.time ≤ maximumAuditEpochMilliseconds)
    (hle' : event'.time ≤ maximumAuditEpochMilliseconds)
    (h : keyOf auditPrefix event ≤ keyOf auditPrefix event') : event'.time ≤ event.time := by
  by_contra hnot
  have hbefore : keyOf auditPrefix event' < keyOf auditPrefix event := by
    unfold keyOf keyTail
    rw [← hdate, append_lt_append_iff rfl]
    refine .inr ⟨rfl, (fixed_append_lt_iff ?_ ?_).mpr (.inl ?_)⟩ <;>
      simp only [maximumAuditEpochMilliseconds] at hle hle' ⊢ <;> omega
  exact lt_iff_not_le.mp hbefore h

/-- Keys tell identifiers apart. -/
theorem eventId_eq_of_keyOf_eq (h : keyOf auditPrefix event = keyOf auditPrefix event') :
    event.eventId = event'.eventId := by
  have hlength : (auditPrefixForDate auditPrefix (utcDate event.time).iso).length =
      (auditPrefixForDate auditPrefix (utcDate event'.time).iso).length := by
    simp [auditPrefixForDate, slashed]
  have htail : keyTail event = keyTail event' := (List.append_inj h hlength).2
  have hrest := (List.append_inj htail (by simp)).2
  have hid := List.append_cancel_right (List.cons.inj hrest).2
  exact String.toList_inj.mp hid

/-! ## The bucket -/

/-- The bucket that the events have been written to. -/
def bucketOf (auditPrefix : String) (events : List CompletedEvent) : Bucket :=
  events.map fun event => (keyOf auditPrefix event, event)

theorem writeAll_eq (hids : (events.map CompletedEvent.eventId).Nodup)
    (htimes : ∀ event ∈ events, event.time ≤ maximumAuditEpochMilliseconds) :
    writeAll auditPrefix events = .ok (bucketOf auditPrefix events) := by
  -- The events before those that are still to be written.
  suffices hrest : ∀ (written rest : List CompletedEvent), events = written ++ rest →
      rest.foldlM (write auditPrefix) (bucketOf auditPrefix written) =
        .ok (bucketOf auditPrefix events) from hrest [] events rfl
  intro written rest
  induction rest generalizing written with
  | nil =>
      intro hsplit
      rw [hsplit, List.append_nil]
      rfl
  | cons event rest ih =>
      intro hsplit
      have hmem : event ∈ events := by simp [hsplit]
      have hnew : keyOf auditPrefix event ∉ (bucketOf auditPrefix written).map Prod.fst := by
        intro hkey
        simp only [bucketOf, List.map_map, List.mem_map, Function.comp_apply] at hkey
        obtain ⟨earlier, hearlier, hsame⟩ := hkey
        rw [hsplit, List.map_append, List.map_cons] at hids
        have hnot := (List.nodup_append.mp hids).2.2 _ (List.mem_map_of_mem hearlier) _
          List.mem_cons_self
        exact hnot (eventId_eq_of_keyOf_eq hsame)
      have hput : write auditPrefix (bucketOf auditPrefix written) event =
          .ok (bucketOf auditPrefix (written ++ [event])) := by
        rw [write, auditObjectKey_eq (htimes event hmem)]
        show putImmutable _ _ _ = _
        rw [putImmutable, if_neg hnew, bucketOf, bucketOf, List.map_append]
        rfl
      rw [List.foldlM_cons, hput]
      exact ih (written ++ [event]) (by simp [hsplit])

/-- Events that were written are read back. -/
theorem getJson_keyOf (hids : (events.map CompletedEvent.eventId).Nodup) (hmem : event ∈ events) :
    getJson (bucketOf auditPrefix events) (keyOf auditPrefix event) = .ok event := by
  have hfind : (bucketOf auditPrefix events).find? (·.1 = keyOf auditPrefix event) =
      some (keyOf auditPrefix event, event) := by
    rw [bucketOf, List.find?_map]
    cases hfound : events.find?
        ((fun object : ObjectKey × CompletedEvent => decide (object.1 = keyOf auditPrefix event)) ∘
          fun other => (keyOf auditPrefix other, other)) with
    | none =>
        have hnone := List.find?_eq_none.mp hfound event hmem
        simp at hnone
    | some other =>
        have hkey : keyOf auditPrefix other = keyOf auditPrefix event := by
          simpa using List.find?_some hfound
        have hsame : other = event := List.inj_on_of_nodup_map hids
          (List.mem_of_find?_eq_some hfound) hmem (eventId_eq_of_keyOf_eq hkey)
        rw [hsame]
        rfl
  rw [getJson, hfind]

/-! ## One day -/

/-- The events of a date, in the order of their keys. -/
def listing (auditPrefix : String) (events : List CompletedEvent) (date : List Char) :
    List CompletedEvent :=
  (events.filter fun event => (utcDate event.time).iso = date).mergeSort fun event event' =>
    keyOf auditPrefix event ≤ keyOf auditPrefix event'

theorem mem_listing : event ∈ listing auditPrefix events date ↔
    event ∈ events ∧ (utcDate event.time).iso = date := by
  simp [listing]

theorem listing_perm : (listing auditPrefix events date).Perm
    (events.filter fun event => (utcDate event.time).iso = date) :=
  List.mergeSort_perm _ _

/-- **The keys of a day are those of its events.** -/
theorem keysUnder_eq (hlength : date.length = 10) (hslash : '/' ∉ date) :
    keysUnder (bucketOf auditPrefix events) (auditPrefixForDate auditPrefix date) =
      (listing auditPrefix events date).map (keyOf auditPrefix) := by
  have hkeys : ((bucketOf auditPrefix events).map Prod.fst).filter
      ((auditPrefixForDate auditPrefix date).isPrefixOf ·) =
        (events.filter fun event => (utcDate event.time).iso = date).map (keyOf auditPrefix) := by
    rw [bucketOf, List.map_map, List.filter_map]
    refine congrArg (List.map _) (List.filter_congr fun event _ => ?_)
    exact isPrefixOf_keyOf hlength hslash
  rw [keysUnder, hkeys, listing, List.map_mergeSort]
  exact fun _ _ _ _ => rfl

/-- **A day is listed newest first.** -/
theorem listing_pairwise (htimes : ∀ event ∈ events, event.time ≤ maximumAuditEpochMilliseconds) :
    (listing auditPrefix events date).Pairwise fun event event' => event'.time ≤ event.time := by
  have hsorted : (listing auditPrefix events date).Pairwise fun event event' =>
      decide (keyOf auditPrefix event ≤ keyOf auditPrefix event') = true := by
    refine List.pairwise_mergeSort (fun first second third h h' => ?_) (fun first second => ?_) _
    · exact decide_eq_true (le_trans (of_decide_eq_true h) (of_decide_eq_true h'))
    · rw [Bool.or_eq_true, decide_eq_true_eq, decide_eq_true_eq]
      exact le_total _ _
  refine hsorted.imp_of_mem fun {event event'} hmem hmem' hle => ?_
  obtain ⟨hin, hdate⟩ := mem_listing.mp hmem
  obtain ⟨hin', hdate'⟩ := mem_listing.mp hmem'
  exact time_le_of_keyOf_le (hdate.trans hdate'.symm) (htimes _ hin) (htimes _ hin')
    (of_decide_eq_true hle)

/-- On one day the texts of the times are in the order of the times. -/
theorem isoTime_le (hdate : (utcDate event.time).iso = (utcDate event'.time).iso)
    (hle : event.time ≤ maximumAuditEpochMilliseconds)
    (hle' : event'.time ≤ maximumAuditEpochMilliseconds) (h : event'.time ≤ event.time) :
    event'.isoTime ≤ event.isoTime := by
  have hday := day_eq_of_iso_eq hle hle' hdate
  have hclock : isoClock (event'.time % millisecondsPerDay) ≤
      isoClock (event.time % millisecondsPerDay) := by
    refine isoClock_le ?_ (Nat.mod_lt _ (by decide))
    have hsplit := Nat.div_add_mod event.time millisecondsPerDay
    have hsplit' := Nat.div_add_mod event'.time millisecondsPerDay
    rw [hday] at hsplit
    omega
  rw [CompletedEvent.isoTime, CompletedEvent.isoTime, isoString, isoString, hdate]
  by_contra hnot
  rcases (append_lt_append_iff rfl).mp (lt_iff_not_le.mpr hnot) with hless | ⟨-, hless⟩
  · exact List.lt_irrefl _ hless
  · exact lt_iff_not_le.mp hless hclock

/-! ## Pages -/

section Pages

variable (hids : (events.map CompletedEvent.eventId).Nodup)
  (htimes : ∀ event ∈ events, event.time ≤ maximumAuditEpochMilliseconds)
  (hlength : date.length = 10) (hslash : '/' ∉ date)
include hids htimes hlength hslash

omit hlength hslash in
/-- A page of part of the listing is that part, filtered. -/
theorem events_of_page {part : List CompletedEvent}
    (hpart : part <:+: listing auditPrefix events date) (secretId environment : Option String) :
    ((part.map (keyOf auditPrefix)).mapM (getJson (bucketOf auditPrefix events)) = .ok part) ∧
      (part.filter (matchesFilter secretId environment)).mergeSort
          (fun left right => right.isoTime ≤ left.isoTime) =
        part.filter (matchesFilter secretId environment) := by
  have hmem : ∀ event ∈ part, event ∈ events ∧ (utcDate event.time).iso = date := fun event h =>
    mem_listing.mp (hpart.subset h)
  constructor
  · rw [List.mapM_map]
    clear hpart
    induction part with
    | nil => rfl
    | cons event rest ih =>
        rw [List.mapM_cons, Function.comp_apply, getJson_keyOf hids (hmem event List.mem_cons_self).1,
          ih fun other h => hmem other (List.mem_cons_of_mem _ h)]
        rfl
  · -- The page is in order already.
    have hsorted : part.Pairwise fun event event' => decide (event'.isoTime ≤ event.isoTime) = true := by
      have hordered := (listing_pairwise htimes).sublist hpart.sublist
      refine hordered.imp_of_mem fun {event event'} h h' hle => decide_eq_true ?_
      obtain ⟨hin, hdate⟩ := hmem event h
      obtain ⟨hin', hdate'⟩ := hmem event' h'
      exact isoTime_le (hdate.trans hdate'.symm) (htimes _ hin) (htimes _ hin') hle
    exact List.mergeSort_of_pairwise (hsorted.sublist List.filter_sublist)

/-- **What a call returns**, from where its token points to. -/
theorem list_eq (token : Option ℕ) (secretId environment : Option String) (size : ℕ) :
    ∃ page, list auditPrefix (bucketOf auditPrefix events) date token secretId environment size =
        .ok page ∧
      ((page.nextContinuationToken = none ∧ page.events =
          ((listing auditPrefix events date).drop (token.getD 0)).filter
            (matchesFilter secretId environment)) ∨
        (min size auditPageSize < (listing auditPrefix events date).length - token.getD 0 ∧
          page.nextContinuationToken = some (token.getD 0 + min size auditPageSize) ∧
          page.events = (((listing auditPrefix events date).drop (token.getD 0)).take
            (min size auditPageSize)).filter (matchesFilter secretId environment))) := by
  have hpage : ∀ part : List CompletedEvent, part <:+: listing auditPrefix events date →
      ∀ next, listKeys (bucketOf auditPrefix events) (auditPrefixForDate auditPrefix date) token
          auditPageSize size = { keys := part.map (keyOf auditPrefix), nextContinuationToken := next } →
        list auditPrefix (bucketOf auditPrefix events) date token secretId environment size =
          .ok { date := date, events := part.filter (matchesFilter secretId environment),
                nextContinuationToken := next } := by
    intro part hpart next hkeys
    obtain ⟨hread, hsort⟩ := events_of_page hids htimes hpart secretId environment
    rw [list, hkeys]
    show ((part.map (keyOf auditPrefix)).mapM _ >>= _) = _
    rw [hread]
    show Except.ok _ = _
    rw [hsort]
  have hremaining : keysUnder (bucketOf auditPrefix events) (auditPrefixForDate auditPrefix date) =
      (listing auditPrefix events date).map (keyOf auditPrefix) :=
    keysUnder_eq hlength hslash
  by_cases hall : ((listing auditPrefix events date).drop (token.getD 0)).length ≤
      min size auditPageSize
  · refine ⟨_, hpage _ (List.drop_suffix _ _).isInfix none ?_, .inl ⟨rfl, rfl⟩⟩
    rw [listKeys, hremaining, ← List.map_drop, List.length_map]
    exact if_pos hall
  · refine ⟨_, hpage (((listing auditPrefix events date).drop (token.getD 0)).take
      (min size auditPageSize)) ?_ (some (token.getD 0 + min size auditPageSize)) ?_,
        .inr ⟨?_, rfl, rfl⟩⟩
    · exact (List.take_prefix _ _).isInfix.trans (List.drop_suffix _ _).isInfix
    · rw [listKeys, hremaining, ← List.map_drop, List.length_map, List.map_take]
      exact if_neg hall
    · rwa [List.length_drop, not_le] at hall

theorem follows_eq {sizes : List ℕ} {token : Option ℕ} {secretId environment : Option String}
    {pages : List AuditPage}
    (h : Follows auditPrefix (bucketOf auditPrefix events) date secretId environment sizes token
      pages) :
    pages.flatMap AuditPage.events = ((listing auditPrefix events date).drop (token.getD 0)).filter
      (matchesFilter secretId environment) := by
  induction h with
  | @last token size page hpage hlast =>
      obtain ⟨found, hfound, ⟨-, hevents⟩ | ⟨-, hnext, -⟩⟩ :=
        list_eq hids htimes hlength hslash token secretId environment size
      · obtain rfl := Except.ok.inj (hfound.symm.trans hpage)
        simpa using hevents
      · obtain rfl := Except.ok.inj (hfound.symm.trans hpage)
        cases hlast.symm.trans hnext
  | @more token size next sizes page pages hpage hnext hrest ih =>
      obtain ⟨found, hfound, ⟨hlast, -⟩ | ⟨-, htaken, hevents⟩⟩ :=
        list_eq hids htimes hlength hslash token secretId environment size
      · obtain rfl := Except.ok.inj (hfound.symm.trans hpage)
        cases hlast.symm.trans hnext
      · obtain rfl := Except.ok.inj (hfound.symm.trans hpage)
        obtain rfl := Option.some.inj (htaken.symm.trans hnext)
        -- The rest begins where the page ended.
        rw [List.flatMap_cons, ih, hevents, Option.getD_some, ← List.drop_drop, ← List.filter_append,
          List.take_append_drop]

/-- Pages that are not empty come to an end. -/
theorem follows_ends {sizes : List ℕ} (hsizes : ∀ size ∈ sizes, 0 < size) {token : Option ℕ}
    (hlong : (listing auditPrefix events date).length - token.getD 0 < sizes.length)
    (secretId environment : Option String) :
    ∃ count pages, Follows auditPrefix (bucketOf auditPrefix events) date secretId environment
      (sizes.take count) token pages := by
  induction sizes generalizing token with
  | nil => cases hlong
  | cons size sizes ih =>
      obtain ⟨page, hpage, ⟨hlast, -⟩ | ⟨hmore, hnext, -⟩⟩ :=
        list_eq hids htimes hlength hslash token secretId environment size
      · exact ⟨1, [page], .last hpage hlast⟩
      · have hsize : 0 < min size auditPageSize :=
          lt_min (hsizes size List.mem_cons_self) (by decide)
        have hless : (listing auditPrefix events date).length -
            (some (token.getD 0 + min size auditPageSize)).getD 0 < sizes.length := by
          rw [List.length_cons] at hlong
          rw [Option.getD_some]
          omega
        obtain ⟨count, pages, hpages⟩ :=
          ih (fun other h => hsizes other (List.mem_cons_of_mem _ h)) hless
        exact ⟨count + 1, page :: pages, .more hpage hnext hpages⟩

end Pages

/-! ## Every day -/

/-- The events of a date, each once, the newest first. -/
structure NewestFirst (events : List CompletedEvent) (date : List Char)
    (found : List CompletedEvent) : Prop where
  perm : found.Perm (events.filter fun event => event.isoTime.take 10 = date)
  sorted : found.Pairwise fun event event' => event'.time ≤ event.time

/-- **Following a listing to its end yields each event of the day once, the newest first, and
with a filter those of the same sequence that match.** -/
theorem audit_listing (auditPrefix : String) {events : List CompletedEvent}
    (hids : (events.map CompletedEvent.eventId).Nodup)
    (htimes : ∀ event ∈ events, event.time ≤ maximumAuditEpochMilliseconds)
    {value : Option (List Char)} {now : ℕ} {date : List Char}
    (hdate : parseAuditDate value now = .ok date) :
    ∃ bucket, writeAll auditPrefix events = .ok bucket ∧ ∃ found, NewestFirst events date found ∧
      ∀ secretId environment,
        (∀ sizes : List ℕ, (∀ size ∈ sizes, 0 < size) → events.length < sizes.length →
          ∃ count pages,
            Follows auditPrefix bucket date secretId environment (sizes.take count) none pages) ∧
        ∀ sizes pages, Follows auditPrefix bucket date secretId environment sizes none pages →
          pages.flatMap AuditPage.events = found.filter (matchesFilter secretId environment) := by
  obtain ⟨hlength, hslash⟩ := parseAuditDate_ok hdate
  refine ⟨_, writeAll_eq hids htimes, listing auditPrefix events date, ⟨?_, ?_⟩, ?_⟩
  · simpa only [isoTime_take] using listing_perm
  · exact listing_pairwise htimes
  · intro secretId environment
    refine ⟨fun sizes hsizes hlong => ?_, fun sizes pages hpages => ?_⟩
    · refine follows_ends hids htimes hlength hslash hsizes (lt_of_le_of_lt ?_ hlong) _ _
      calc (listing auditPrefix events date).length - 0
          = (events.filter fun event => (utcDate event.time).iso = date).length :=
            listing_perm.length_eq
        _ ≤ events.length := List.length_filter_le _ _
    · exact follows_eq hids htimes hlength hslash hpages

namespace Sample

/-- Two events of one day, the older of them written last. -/
def written : List CompletedEvent :=
  let reading (target : List (String × String)) : AuditEvent :=
    { correlationId := "c", outcome := .succeeded, actor := { type := .human, id := "alice" },
      operation := "secret.read", target, reasonCode := none }
  [⟨reading [("secretId", "s")], "late", 5000⟩, ⟨reading [], "early", 20⟩]

end Sample

theorem audit_listing_two : ∃ bucket, writeAll "audit/" Sample.written = .ok bucket ∧
    ∃ found, NewestFirst Sample.written "1970-01-01".toList found ∧
      ∀ pages, Follows "audit/" bucket "1970-01-01".toList none none [1, 1] none pages →
        pages.flatMap AuditPage.events = found.filter (matchesFilter none none) := by
  have hdate : parseAuditDate (some "1970-01-01".toList) 0 = .ok "1970-01-01".toList := by
    decide +kernel
  have hids : (Sample.written.map CompletedEvent.eventId).Nodup := by decide
  obtain ⟨bucket, hwritten, found, hfound, hpages⟩ :=
    audit_listing "audit/" hids (by decide) hdate
  exact ⟨bucket, hwritten, found, hfound, fun pages => (hpages none none).2 [1, 1] pages⟩

end Hemlig.Audit
