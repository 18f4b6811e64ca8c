import Hemlig.Concurrent.Monotone
import Hemlig.Handlers.Notifications

/-!
# Notifications in every run

Whatever the interleaving of invocations, redelivered batches and failed requests: a row of the
outbox is marked delivered only after each of its consumers was published to, nobody else is
published to (`published_exactly`), and a batch whose invocation has returned leaves no row pending
(`acknowledged_batches_settle`), so that the stream may move on.

The rows of an event change their status and their environment only (`OutboxItem.notice`), so that
what an invocation has read in the stream tells what the row holds that it marks.  What an invocation
knows only ever becomes more (`Later`).
-/

namespace Hemlig.Notifications

open Concurrent Store

variable {init s s' : Outbox} {w : NotificationWorld} {actions : List NotificationAction}
  {issued : Request → Outbox → Prop} {pid : ℕ} {eventId consumerId : String} {item : OutboxItem}

/-! ## What rows say -/

/-- A message without the environment, which a migration may have filled in meanwhile. -/
def Message.hint (message : Message) : Message := { message with environment := none }

/-- What no write of a row changes: whom it is for, and what they are told. -/
def OutboxItem.notice (item : OutboxItem) : List String × Message :=
  (item.recipients, item.message.hint)

namespace Outbox

/-- Everyone whom a notice is for was told what it says. -/
def Told (s : Outbox) (notice : List String × Message) : Prop :=
  ∀ consumerId ∈ notice.1, ∃ message, (consumerId, message) ∈ s.published ∧ message.hint = notice.2

/-- The row of an event is delivered, if it is still there. -/
def Settled (s : Outbox) (eventId : String) : Prop :=
  ∀ item, s.items.get eventId = some item → item.status = .delivered

theorem mem_images : item ∈ s.images ↔ ∃ eventName, ⟨eventName, some (.outbox item)⟩ ∈ s.stream := by
  unfold images
  rw [List.mem_filterMap]
  constructor
  · rintro ⟨⟨eventName, newImage⟩, hmem, hsome⟩
    cases newImage with
    | none => cases hsome
    | some image =>
        cases image with
        | other => cases hsome
        | outbox other =>
            obtain rfl := Option.some.inj hsome
            exact ⟨eventName, hmem⟩
  · rintro ⟨eventName, hmem⟩
    exact ⟨_, hmem, rfl⟩

/-! ## The invariant -/

structure Sound (s : Outbox) : Prop where
  named : ∀ {eventId item}, s.items.get eventId = some item → item.eventId = eventId
  same : ∀ {image item}, image ∈ s.images → s.items.get image.eventId = some item →
    image.notice = item.notice
  delivered : ∀ {eventId item}, s.items.get eventId = some item → item.status = .delivered →
    s.Told item.notice
  told : ∀ {consumerId message}, (consumerId, message) ∈ s.published →
    ∃ image ∈ s.images, consumerId ∈ image.recipients ∧ message = image.message

/-- What every step does: nothing is taken back, and what is settled stays settled. -/
structure Later (s s' : Outbox) : Prop where
  stream : s.stream <+: s'.stream
  published : s.published ⊆ s'.published
  settled : ∀ {eventId}, (∃ image ∈ s.images, image.eventId = eventId) → s.Settled eventId →
    s'.Settled eventId

theorem Later.refl (s : Outbox) : s.Later s := ⟨List.prefix_rfl, fun _ h => h, fun _ h => h⟩

theorem Later.images (h : s.Later s') (hitem : item ∈ s.images) : item ∈ s'.images := by
  obtain ⟨eventName, hmem⟩ := mem_images.mp hitem
  exact mem_images.mpr ⟨eventName, h.stream.subset hmem⟩

theorem Told.mono {notice : List String × Message} (h : s.Told notice)
    (hpublished : s.published ⊆ s'.published) : s'.Told notice := by
  intro consumerId hconsumer
  obtain ⟨message, hmem, hhint⟩ := h consumerId hconsumer
  exact ⟨message, hpublished hmem, hhint⟩

/-! ### Writes of rows -/

theorem images_put (s : Outbox) (eventId : String) (eventName : EventName) (item : OutboxItem) :
    (s.put eventId eventName item).images = s.images ++ [item] := by
  simp [images, put, List.filterMap_append]

theorem get_put {eventName : EventName} {other : String} {stored : OutboxItem}
    (hstored : (s.put eventId eventName item).items.get other = some stored) :
    (other = eventId ∧ stored = item) ∨ (other ≠ eventId ∧ s.items.get other = some stored) := by
  by_cases hother : other = eventId
  · subst hother
    exact .inl ⟨rfl, (Option.some.inj ((Table.get_set_self _ _ _).symm.trans hstored)).symm⟩
  · exact .inr ⟨hother, (Table.get_set_of_ne _ _ hother).symm.trans hstored⟩

/-- A row is written with the notice that the stream has shown of its event, and as delivered only
when everyone was told. -/
theorem Sound.put (h : s.Sound) {eventName : EventName} (hnamed : item.eventId = eventId)
    (hsame : ∀ image ∈ s.images, image.eventId = eventId → image.notice = item.notice)
    (htold : item.status = .delivered → s.Told item.notice) :
    (s.put eventId eventName item).Sound where
  named := by
    intro other stored hstored
    obtain ⟨rfl, rfl⟩ | ⟨-, hbefore⟩ := get_put hstored
    · exact hnamed
    · exact h.named hbefore
  same := by
    intro image stored himage hstored
    rw [images_put] at himage
    obtain ⟨heq, rfl⟩ | ⟨hother, hbefore⟩ := get_put hstored
    · -- The row that is written is also the one that the stream shows last.
      obtain hold | hnew := List.mem_append.mp himage
      · exact hsame image hold heq
      · rw [List.mem_singleton.mp hnew]
    · obtain hold | hnew := List.mem_append.mp himage
      · exact h.same hold hbefore
      · obtain rfl := List.mem_singleton.mp hnew
        exact absurd hnamed hother
  delivered := by
    intro other stored hstored hdelivered
    obtain ⟨-, rfl⟩ | ⟨-, hbefore⟩ := get_put hstored
    · exact htold hdelivered
    · exact h.delivered hbefore hdelivered
  told := by
    intro consumerId message hmem
    obtain ⟨image, himage, hrest⟩ := h.told hmem
    exact ⟨image, by rw [images_put]; exact List.mem_append_left _ himage, hrest⟩

/-- The row of a settled event is written as delivered. -/
theorem later_put {eventName : EventName}
    (hsettled : (∃ image ∈ s.images, image.eventId = eventId) → s.Settled eventId →
      item.status = .delivered) : s.Later (s.put eventId eventName item) where
  stream := List.prefix_append _ _
  published := fun _ h => h
  settled := by
    intro other himage hbefore stored hstored
    obtain ⟨rfl, rfl⟩ | ⟨-, hstored'⟩ := get_put hstored
    · exact hsettled himage hbefore
    · exact hbefore stored hstored'

/-- Records are appended that show no row. -/
theorem Sound.append (h : s.Sound) {record : StreamRecord} {items : Table String fun _ => OutboxItem}
    (himage : ∀ item, record.newImage ≠ some (.outbox item))
    (hitems : ∀ eventId item, items.get eventId = some item → s.items.get eventId = some item) :
    s.Later { s with items := items, stream := s.stream ++ [record] } ∧
      Outbox.Sound { s with items := items, stream := s.stream ++ [record] } := by
  have himages : ∀ item, item ∈ Outbox.images { s with stream := s.stream ++ [record] } ↔
      item ∈ s.images := by
    intro item
    rw [mem_images, mem_images]
    refine exists_congr fun eventName => ?_
    rw [List.mem_append, List.mem_singleton]
    refine or_iff_left ?_
    rintro rfl
    exact himage item rfl
  refine ⟨⟨List.prefix_append _ _, fun _ h => h, fun _ hbefore stored hstored =>
    hbefore stored (hitems _ _ hstored)⟩, ?_⟩
  constructor
  · exact fun hstored => h.named (hitems _ _ hstored)
  · exact fun hmem hstored => h.same ((himages _).mp hmem) (hitems _ _ hstored)
  · exact fun hstored => h.delivered (hitems _ _ hstored)
  · intro consumerId message hmem
    obtain ⟨image, hshown, hrest⟩ := h.told hmem
    exact ⟨image, (himages _).mpr hshown, hrest⟩

/-- **Events keep the invariant.** -/
theorem Sound.environment {event : Event} (h : s.Sound) (hevent : s.environment event = some s') :
    s.Later s' ∧ s'.Sound := by
  cases event with
  | created record =>
      obtain ⟨⟨hpending, hnone, hfresh⟩, hsome⟩ := Option.ite_none_right_eq_some.mp hevent
      obtain rfl := Option.some.inj hsome
      -- The identifier is new: the stream has shown no row of it.
      have hunseen : ∀ image ∈ s.images, image.eventId ≠ record.eventId := by
        intro image himage
        simpa using List.all_eq_true.mp hfresh image himage
      refine ⟨later_put ?_, h.put rfl (fun image himage heq => ?_) fun hdelivered => ?_⟩
      · rintro ⟨image, himage, heq⟩
        exact absurd heq (hunseen image himage)
      · exact absurd heq (hunseen image himage)
      · cases hpending.symm.trans hdelivered
  | backfilled eventId environment =>
      simp only [Outbox.environment] at hevent
      cases hstored : s.items.get eventId with
      | none =>
          rw [hstored] at hevent
          cases hevent
      | some item =>
          rw [hstored] at hevent
          obtain ⟨-, hsome⟩ := Option.ite_none_right_eq_some.mp hevent
          obtain rfl := Option.some.inj hsome
          have hnamed : item.eventId = eventId := h.named hstored
          have hsame : ∀ image ∈ s.images, image.eventId = eventId → image.notice = item.notice := by
            intro image himage heq
            subst heq
            exact h.same himage hstored
          have htold : item.status = .delivered → s.Told item.notice := h.delivered hstored
          exact ⟨later_put fun _ hsettled => hsettled item hstored, h.put hnamed hsame htold⟩
  | expired eventId =>
      obtain ⟨-, hsome⟩ := Option.ite_none_right_eq_some.mp hevent
      obtain rfl := Option.some.inj hsome
      refine h.append (by simp) fun other item hitem => ?_
      by_cases hother : other = eventId
      · subst hother
        cases (Table.get_set_self _ _ _).symm.trans hitem
      · exact (Table.get_set_of_ne _ _ hother).symm.trans hitem
  | other eventName =>
      obtain rfl := Option.some.inj hevent
      exact h.append (by simp) fun _ _ hitem => hitem

end Outbox

/-! ## The discipline -/

/-- What must hold when an invocation makes a request. -/
def Outbox.Ready (s : Outbox) : Request → Prop
  | .receive _ => True
  | .publish consumerId message =>
      ∃ image ∈ s.images, consumerId ∈ image.recipients ∧ message = image.message
  | .markNotificationDelivered eventId =>
      ∃ image ∈ s.images, image.eventId = eventId ∧ s.Told image.notice

def invocations : Discipline notifications where
  inv := Outbox.Sound
  pre _ q s := s.Ready q

/-- **Requests keep the invariant.** -/
theorem Outbox.Sound.perform (h : s.Sound) {q : Request} (hready : s.Ready q) :
    s.Later (s.perform q).2 ∧ (s.perform q).2.Sound := by
  cases q with
  | receive batch => exact ⟨.refl s, h⟩
  | publish consumerId message =>
      have hgrows : s.published ⊆ s.published ++ [(consumerId, message)] :=
        List.subset_append_left _ _
      refine ⟨⟨List.prefix_rfl, hgrows, fun _ hsettled => hsettled⟩, h.named, h.same,
        fun hstored hdelivered => (h.delivered hstored hdelivered).mono hgrows, ?_⟩
      intro other message' hmem
      obtain hold | hnew := List.mem_append.mp hmem
      · exact h.told hold
      · obtain ⟨rfl, rfl⟩ := Prod.mk.inj (List.mem_singleton.mp hnew)
        exact hready
  | markNotificationDelivered eventId =>
      obtain ⟨image, himage, rfl, htold⟩ := hready
      cases hstored : s.items.get image.eventId with
      | none =>
          simp only [Outbox.perform, hstored]
          exact ⟨.refl s, h⟩
      | some item =>
          simp only [Outbox.perform, hstored]
          split
          · have hnotice := h.same himage hstored
            have hnamed : item.eventId = image.eventId := h.named hstored
            refine ⟨Outbox.later_put fun _ _ => rfl, h.put hnamed ?_ fun _ => hnotice ▸ htold⟩
            intro other hother heq
            have hsame : other.notice = item.notice := h.same hother (heq ▸ hstored)
            exact hsame
          · exact ⟨.refl s, h⟩

/-- A request has its effect, or none. -/
theorem exec_cases {q : Request} {fault : Fault} {answer : q.Answer}
    (h : s.exec q fault = some (answer, s')) : q.possible s = true ∧
      ((answer = .ok (s.perform q).1 ∧ s' = (s.perform q).2) ∨
        (∃ error, answer = .error error) ∧ (s' = s ∨ s' = (s.perform q).2)) := by
  obtain ⟨hpossible, h⟩ := Option.ite_none_right_eq_some.mp h
  refine ⟨hpossible, ?_⟩
  cases fault with
  | none =>
      obtain ⟨rfl, rfl⟩ := Prod.mk.inj (Option.some.inj h)
      exact .inl ⟨rfl, rfl⟩
  | refused error =>
      obtain ⟨rfl, rfl⟩ := Prod.mk.inj (Option.some.inj h)
      exact .inr ⟨⟨error, rfl⟩, .inl rfl⟩
  | unanswered error =>
      obtain ⟨rfl, rfl⟩ := Prod.mk.inj (Option.some.inj h)
      exact .inr ⟨⟨error, rfl⟩, .inr rfl⟩

theorem Outbox.Sound.exec (h : s.Sound) {q : Request} {fault : Fault} {answer : q.Answer}
    (hready : s.Ready q) (hexec : s.exec q fault = some (answer, s')) : s.Later s' ∧ s'.Sound := by
  obtain ⟨-, ⟨-, rfl⟩ | ⟨-, rfl | rfl⟩⟩ := exec_cases hexec
  · exact h.perform hready
  · exact ⟨.refl s', h⟩
  · exact h.perform hready

theorem invocations_preserved : invocations.Preserved where
  request hinv hpre hexec := (Outbox.Sound.exec hinv hpre hexec).2
  start _ _ hinv := hinv
  environment hinv hevent := (Outbox.Sound.environment hinv hevent).2

/-! ## Invocations -/

theorem invocations_monotone : invocations.Monotone Outbox.Later where
  request hinv hpre hexec := (Outbox.Sound.exec hinv hpre hexec).1
  start _ _ _ := .refl _
  environment hinv hevent := (Outbox.Sound.environment hinv hevent).1

theorem lasting_shown (item : OutboxItem) : Lasting Outbox.Later fun s => item ∈ s.images :=
  fun _ _ hlater h => hlater.images h

theorem lasting_published (consumerId : String) (message : Message) :
    Lasting Outbox.Later fun s => (consumerId, message) ∈ s.published :=
  fun _ _ hlater h => hlater.published h

/-- An event that the stream has shown is settled. -/
def Outbox.Done (s : Outbox) (item : OutboxItem) : Prop :=
  item ∈ s.images ∧ s.Settled item.eventId

theorem lasting_done (item : OutboxItem) : Lasting Outbox.Later fun s => s.Done item :=
  fun _ _ hlater h => ⟨hlater.images h.1, hlater.settled ⟨item, h.1, rfl⟩ h.2⟩

/-- A request keeps what lasts; an answer tells what it has done. -/
theorem safe_send {F : Outbox → Prop} {q : Request} {R : q.Reply → Outbox → Prop}
    (hF : Lasting Outbox.Later F) (hready : ∀ s, s.Sound → F s → s.Ready q)
    (hpost : ∀ s, s.Sound → F s → q.possible s = true → R (s.perform q).1 (s.perform q).2) :
    invocations.Safe issued pid F (send q) (fun reply s => F s ∧ R reply s) fun _ => F := by
  refine .bind (R := fun answer s => F s ∧ ∀ reply, answer = .ok reply → R reply s)
    (.request_lasting invocations_monotone hF hready fun s fault answer s' hinv hs hexec => ?_)
    fun answer => .ofExcept (fun reply hreply _ _ hs => ⟨hs.1, hs.2 reply hreply⟩)
      fun _ _ _ _ hs => hs.1
  intro reply hreply
  subst hreply
  obtain ⟨hpossible, ⟨hanswer, rfl⟩ | ⟨⟨error, herror⟩, -⟩⟩ := exec_cases hexec
  · rw [Except.ok.inj hanswer]
    exact hpost s hinv hs hpossible
  · cases herror

theorem safe_publish {F : Outbox → Prop} (hF : Lasting Outbox.Later F) (item : OutboxItem)
    (hconsumer : consumerId ∈ item.recipients) (hshown : ∀ s, F s → item ∈ s.images) :
    invocations.Safe issued pid F (send (.publish consumerId item.message))
      (fun _ s => F s ∧ (consumerId, item.message) ∈ s.published) fun _ => F :=
  safe_send hF (fun s _ hs => ⟨item, hshown s hs, hconsumer, rfl⟩) fun _ _ _ _ =>
    List.mem_append_right _ (List.mem_singleton_self _)

/-- The row of the event is not pending after it was marked. -/
theorem safe_mark {F : Outbox → Prop} (hF : Lasting Outbox.Later F) (item : OutboxItem)
    (htold : ∀ s, F s → item ∈ s.images ∧ s.Told item.notice) :
    invocations.Safe issued pid F (send (.markNotificationDelivered item.eventId))
      (fun _ s => F s ∧ s.Settled item.eventId) fun _ => F := by
  refine safe_send hF (fun s _ hs => ⟨item, (htold s hs).1, rfl, (htold s hs).2⟩) ?_
  intro s _ _ _ stored hstored
  unfold Outbox.perform at hstored
  cases hbefore : s.items.get item.eventId with
  | none =>
      simp [hbefore] at hstored
  | some before =>
      simp only [hbefore] at hstored
      split at hstored
      · obtain rfl := Option.some.inj ((Table.get_set_self _ _ _).symm.trans hstored)
        rfl
      · obtain rfl := Option.some.inj (hbefore.symm.trans hstored)
        cases hstatus : before.status with
        | pending => exact absurd hstatus ‹_›
        | delivered => rfl

/-- Everyone is told before the row is marked. -/
theorem safe_deliver {F : Outbox → Prop} (hF : Lasting Outbox.Later F) (item : OutboxItem)
    (hshown : ∀ s, F s → item ∈ s.images) :
    invocations.Safe issued pid F (deliver item) (fun _ s => F s ∧ s.Done item) fun _ => F := by
  have hloop : invocations.Safe issued pid F
      (item.recipients.forM fun consumerId => do
        let _ ← send (.publish consumerId item.message)
        return ())
      (fun _ s => F s ∧ ∀ consumerId ∈ item.recipients, (consumerId, item.message) ∈ s.published)
      fun _ => F := by
    refine .forM_all fun consumerId hconsumer earlier => ?_
    have hearlier : Lasting Outbox.Later fun s =>
        ∀ other ∈ earlier, (other, item.message) ∈ s.published :=
      .forall_mem fun other => lasting_published other item.message
    have hboth := hF.and hearlier
    exact .bind ((safe_publish hboth item hconsumer fun s hs => hshown s hs.1).on_error
      fun _ _ _ hs => hs.1) fun _ => .ret fun _ _ hs => hs
  have htold : Lasting Outbox.Later fun s => F s ∧ ∀ consumerId ∈ item.recipients,
      (consumerId, item.message) ∈ s.published :=
    hF.and (.forall_mem fun other => lasting_published other item.message)
  refine .bind hloop fun _ => .bind ((safe_mark htold item fun s hs => ⟨hshown s hs.1, ?_⟩).on_error
    fun _ _ _ hs => hs.1) fun _ => .ret fun s _ hs => ?_
  · exact fun consumerId hconsumer => ⟨_, hs.2 consumerId hconsumer, rfl⟩
  · exact ⟨hs.1.1, hshown s hs.1.1, hs.2⟩

/-- Positions of the stream keep their records. -/
theorem Outbox.Later.record (h : s.Later s') {position : ℕ} {record : StreamRecord}
    (hrecord : s.stream[position]? = some record) : s'.stream[position]? = some record := by
  obtain ⟨hlt, rfl⟩ := List.getElem?_eq_some_iff.mp hrecord
  exact List.prefix_iff_getElem?.mp h.stream position hlt

/-- What an invocation that has returned leaves of its batch. -/
def Outbox.Handled (s : Outbox) (batch : List ℕ) : Prop :=
  ∀ position ∈ batch, ∃ record, s.stream[position]? = some record ∧
    ∀ item, record.pendingItem = some item → s.Done item

theorem lasting_handled (batch : List ℕ) : Lasting Outbox.Later fun s => s.Handled batch := by
  intro s s' hlater h position hposition
  obtain ⟨record, hrecord, hdone⟩ := h position hposition
  exact ⟨record, hlater.record hrecord, fun item hitem =>
    lasting_done item s s' hlater (hdone item hitem)⟩

/-- What an invocation was given is in the stream. -/
def Outbox.Received (s : Outbox) (batch : List ℕ) (records : List StreamRecord) : Prop :=
  (∀ position ∈ batch, ∃ record ∈ records, s.stream[position]? = some record) ∧
    ∀ record ∈ records, record ∈ s.stream

theorem lasting_received (batch : List ℕ) (records : List StreamRecord) :
    Lasting Outbox.Later fun s => s.Received batch records := by
  intro s s' hlater h
  refine ⟨fun position hposition => ?_, fun record hrecord =>
    hlater.stream.subset (h.2 record hrecord)⟩
  obtain ⟨record, hmem, hrecord⟩ := h.1 position hposition
  exact ⟨record, hmem, hlater.record hrecord⟩

theorem Outbox.received_perform {batch : List ℕ}
    (hpossible : (Request.receive batch).possible s = true) :
    s.Received batch (batch.filterMap (s.stream[·]?)) := by
  refine ⟨fun position hposition => ?_, fun record hrecord => ?_⟩
  · have hlt : position < s.stream.length := by
      simpa using List.all_eq_true.mp hpossible position hposition
    have hget := List.getElem?_eq_getElem hlt
    exact ⟨_, List.mem_filterMap.mpr ⟨position, hposition, hget⟩, hget⟩
  · obtain ⟨position, -, hget⟩ := List.mem_filterMap.mp hrecord
    exact List.mem_of_getElem? hget

theorem shown_of_pendingItem {record : StreamRecord} (hrecord : record ∈ s.stream)
    (hitem : record.pendingItem = some item) : item ∈ s.images := by
  obtain ⟨eventName, newImage⟩ := record
  refine Outbox.mem_images.mpr ⟨eventName, ?_⟩
  cases newImage with
  | none => cases hitem
  | some image =>
      cases image with
      | other => cases hitem
      | outbox other =>
          obtain ⟨-, hsome⟩ := Option.ite_none_right_eq_some.mp hitem
          obtain rfl := Option.some.inj hsome
          exact hrecord

/-- **An invocation.**  It returns when all that its batch asks for is done. -/
theorem safe_handler (batch : List ℕ) :
    invocations.Safe issued pid (fun _ => True) (handler batch) (fun _ s => s.Handled batch)
      fun _ _ => True := by
  refine .bind ((safe_send (q := .receive batch) (R := fun (records : List StreamRecord) s =>
    s.Received batch records) (.const True) (fun _ _ _ => trivial)
    fun s _ _ hpossible => Outbox.received_perform hpossible).weaken (fun _ _ _ => trivial)
    (fun _ _ _ hs => hs.2) fun _ _ _ _ => trivial) fun (records : List StreamRecord) => ?_
  refine (Discipline.Safe.forM_all (F := fun s : Outbox => s.Received batch records)
    (G := fun item s => s.Done item) (E := fun _ _ => True) fun item hitem earlier => ?_).post ?_
  · obtain ⟨record, hrecord, hpending⟩ := List.mem_filterMap.mp hitem
    refine (safe_deliver ((lasting_received batch records).and (.forall_mem lasting_done)) item
      fun s hs => ?_).on_error fun _ _ _ _ => trivial
    exact shown_of_pendingItem (hs.1.2 record hrecord) hpending
  · intro _ s _ hs position hposition
    obtain ⟨record, hmem, hrecord⟩ := hs.1.1 position hposition
    exact ⟨record, hrecord, fun item hitem =>
      hs.2 item (List.mem_filterMap.mpr ⟨record, hmem, hitem⟩)⟩

theorem invocations_verified : invocations.Verified (fun _ _ batch _ s => s.Handled batch)
    fun _ _ _ _ _ => True where
  safe _ _ batch _ _ := (safe_handler batch).of_pre fun _ _ _ => trivial
  stable _ _ batch _ := invocations_monotone.stable (lasting_handled batch)
  failure _ _ _ _ := invocations_monotone.stable (.const True)

/-! ## Runs -/

/-- Before the first invocation nothing is delivered; rows of older deployments may be pending. -/
structure Outbox.Initial (s : Outbox) : Prop where
  named : ∀ {eventId item}, s.items.get eventId = some item → item.eventId = eventId
  pending : ∀ {eventId item}, s.items.get eventId = some item → item.status = .pending
  stream : s.stream = []
  published : s.published = []

theorem Outbox.Initial.sound (h : s.Initial) : s.Sound where
  named := h.named
  same himage _ := by simp [Outbox.images, h.stream] at himage
  delivered hstored hdelivered := by cases (h.pending hstored).symm.trans hdelivered
  told hmem := by simp [h.published] at hmem

/-- **Delivered means published.**  In every run, each consumer of a delivered row was published
what the row says, and whatever was published to a consumer is the message of a row that names it. -/
theorem published_exactly (hinit : init.Initial)
    (hrun : notifications.run (World.initial init) actions = some w) :
    (∀ eventId item, w.store.items.get eventId = some item → item.status = .delivered →
      ∀ consumerId ∈ item.recipients, ∃ message, (consumerId, message) ∈ w.store.published ∧
        message.hint = item.message.hint) ∧
    ∀ consumerId message, (consumerId, message) ∈ w.store.published →
      ∃ image ∈ w.store.images, consumerId ∈ image.recipients ∧ message = image.message := by
  have hsound := (Discipline.sound invocations_preserved invocations_verified hinit.sound hrun).1
  exact ⟨fun eventId item hstored hdelivered => hsound.delivered hstored hdelivered,
    fun consumerId message hmem => hsound.told hmem⟩

namespace Sample

def record : NotificationOutboxRecord where
  eventId := "event"
  consumerIds := ["app", "web"]
  secretId := "api-key"
  environment := "prod"
  controlVersionId := "v1"
  payloadVersionId := some "p1"
  kind := .changed
  createdAt := 0
  status := .pending

def outbox : Outbox := ⟨.empty, [], []⟩

theorem initial : outbox.Initial where
  named hstored := absurd hstored (by simp [outbox])
  pending hstored := absurd hstored (by simp [outbox])
  stream := rfl
  published := rfl

/-- The broker refuses the message to the second consumer, and the batch is handed out again. -/
def redelivered : List NotificationAction :=
  [.environment (.created record), .start 0 [0], .step 0 .none, .step 0 .none,
    .step 0 (.refused "Throttling"), .start 1 [0], .step 1 .none, .step 1 .none, .step 1 .none,
    .step 1 .none]

theorem redelivered_possible :
    (notifications.run (World.initial outbox) redelivered).isSome = true := by decide +kernel

abbrev settled : NotificationWorld :=
  (notifications.run (World.initial outbox) redelivered).get redelivered_possible

theorem run_settled : notifications.run (World.initial outbox) redelivered = some settled :=
  (Option.some_get redelivered_possible).symm

def delivered : OutboxItem := { OutboxItem.ofRecord record with status := .delivered }

end Sample

theorem published_exactly_redelivered :
    ∃ message, ("web", message) ∈ Sample.settled.store.published ∧
      message.hint = Sample.delivered.message.hint :=
  (published_exactly Sample.initial Sample.run_settled).1 "event" Sample.delivered
    (by decide +kernel) rfl "web" (by decide)

/-- **An acknowledged batch leaves nothing pending.**  Where an invocation has returned, however
often its batch was handed out before and whatever runs beside it, no row that the batch asks to
deliver is pending, then and ever after. -/
theorem acknowledged_batches_settle (hinit : init.Initial)
    (hrun : notifications.run (World.initial init) actions = some w) {batch : List ℕ}
    (hreturned : w.procs pid = some (batch, .ret ())) {position : ℕ} (hposition : position ∈ batch) :
    ∃ record, w.store.stream[position]? = some record ∧
      ∀ item, record.pendingItem = some item → ∀ stored,
        w.store.items.get item.eventId = some stored → stored.status = .delivered := by
  obtain ⟨hsound, hstanding⟩ :=
    Discipline.sound invocations_preserved invocations_verified hinit.sound hrun
  have hhandled : w.store.Handled batch := (hstanding pid batch _ hreturned).returned hsound
  obtain ⟨record, hrecord, hdone⟩ := hhandled position hposition
  exact ⟨record, hrecord, fun item hitem => (hdone item hitem).2⟩

theorem acknowledged_batches_settle_redelivered :
    ∃ record, Sample.settled.store.stream[0]? = some record ∧
      ∀ item, record.pendingItem = some item → ∀ stored,
        Sample.settled.store.items.get item.eventId = some stored → stored.status = .delivered :=
  acknowledged_batches_settle Sample.initial Sample.run_settled
    (show Sample.settled.procs 1 = some ([0], .ret ()) from rfl) (List.mem_singleton_self 0)

end Hemlig.Notifications
