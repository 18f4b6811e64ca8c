import Hemlig.Scripts.MigrateSecretIdentity
import Hemlig.Verification.UidPlan

/-!
# What the identity migration plans

Whether the rows of a table can be planned does not depend on the order in which a scan returns
them.  `Plannable` says what is asked of the rows, and `PlanOf` what a plan consists of:

1. every row of a legacy secret is moved to the environment that the secret's head names;
2. every legacy access row, and every pending notification, names a secret with a head;
3. every row that is kept under an environment already belongs to a secret that is moved;
4. the objects that a moved row names are requested to be copied, each once.
-/

namespace Hemlig.Scripts.MigrateSecretIdentity

open MigrateSecretUids (dropPrefix dropPrefix_eq_some split_inj lookup_isSome_iff nodup_set
  mem_iff_lookup)

/-! ## Keys -/

/-- **Which keys are legacy keys.** -/
theorem legacySecretId_eq_some {pk secretId : String} :
    legacySecretId pk = some secretId ↔
      pk = "SECRET#" ++ secretId ∧ secretId ≠ "" ∧ '#' ∉ secretId.toList := by
  unfold legacySecretId
  constructor
  · intro h
    split at h
    · cases h
    · rename_i rest hrest
      have htext := dropPrefix_eq_some.mp hrest
      split at h
      · cases h
      · rename_i hrest'
        rw [not_or] at hrest'
        obtain rfl := Option.some.inj h
        refine ⟨?_, ?_, ?_⟩
        · apply String.toList_inj.mp
          simp [htext, String.toList_append]
        · intro hempty
          exact hrest'.1 (by simpa using congrArg String.toList hempty)
        · rw [String.toList_ofList]
          exact hrest'.2
  · intro ⟨hpk, hne, hclean⟩
    have hrest : dropPrefix "SECRET#" pk = some secretId.toList := by
      rw [dropPrefix_eq_some, hpk, String.toList_append]
    have hne' : secretId.toList ≠ [] := fun hempty => hne (String.toList_inj.mp (by simpa using hempty))
    simp only [hrest]
    rw [if_neg (not_or.mpr ⟨hne', hclean⟩), String.ofList_toList]

theorem toList_secretPk (environment secretId : String) :
    (secretPk environment secretId).toList =
      "SECRET#".toList ++ (environment.toList ++ '#' :: secretId.toList) := by
  simp [secretPk, String.toList_append]

/-- The row of a secret that was moved is no legacy row. -/
theorem legacySecretId_secretPk (environment secretId : String) :
    legacySecretId (secretPk environment secretId) = none := by
  rw [Option.eq_none_iff_forall_ne_some]
  intro other hother
  rw [legacySecretId_eq_some] at hother
  obtain ⟨hpk, -, hclean⟩ := hother
  have htext := congrArg String.toList hpk
  rw [toList_secretPk, String.toList_append] at htext
  apply hclean
  rw [← List.append_cancel_left htext]
  simp

/-- Secrets are told apart by the keys that they are moved to. -/
theorem secretPk_inj {environment secretId environment' secretId' : String}
    (h : '#' ∉ secretId.toList) (h' : '#' ∉ secretId'.toList)
    (hpk : secretPk environment secretId = secretPk environment' secretId') :
    environment = environment' ∧ secretId = secretId' := by
  have htext := congrArg String.toList hpk
  rw [toList_secretPk, toList_secretPk] at htext
  have hreversed := congrArg List.reverse (List.append_cancel_left htext)
  simp only [List.reverse_append, List.reverse_cons, List.append_assoc, List.singleton_append]
    at hreversed
  have hsplit := split_inj (by simpa using h) (by simpa using h') hreversed
  constructor
  · exact String.toList_inj.mp (List.reverse_injective hsplit.2)
  · exact String.toList_inj.mp (List.reverse_injective hsplit.1)

/-- The row of a secret that was moved is seen as such unless its environment has a `#`. -/
theorem scopedSecretId_secretPk {environment secretId : String} (henvironment : environment ≠ "")
    (hsecretId : secretId ≠ "") (hclean : '#' ∉ secretId.toList) :
    (scopedSecretId (secretPk environment secretId)).isSome ↔ '#' ∉ environment.toList := by
  have hrest : dropPrefix "SECRET#" (secretPk environment secretId) =
      some (environment.toList ++ '#' :: secretId.toList) :=
    dropPrefix_eq_some.mpr (toList_secretPk _ _)
  have hne : environment.toList ≠ [] := fun hempty =>
    henvironment (String.toList_inj.mp (by simpa using hempty))
  have hne' : secretId.toList ≠ [] := fun hempty =>
    hsecretId (String.toList_inj.mp (by simpa using hempty))
  have hspan : ∀ {first rest : List Char}, '#' ∉ first →
      (first ++ '#' :: rest).span (· ≠ '#') = (first, '#' :: rest) := by
    intro first rest hfirst
    have hpass : ∀ c ∈ first, decide (c ≠ '#') = true := fun c hc =>
      decide_eq_true fun h => hfirst (h ▸ hc)
    rw [List.span_eq_takeWhile_dropWhile, List.takeWhile_append_of_pos hpass,
      List.dropWhile_append_of_pos hpass]
    simp
  unfold scopedSecretId
  simp only [hrest]
  by_cases hmem : '#' ∈ environment.toList
  · obtain ⟨first, rest, hsplit, hfirst⟩ := List.eq_append_cons_of_mem hmem
    rw [hsplit, List.append_assoc, List.cons_append, hspan hfirst]
    simp
  · rw [hspan hmem]
    simp [hne, hne', hclean, hmem]

/-! ## Environments -/

/-- The row is the head of the secret and names its environment. -/
structure Headed (item : Item) (secretId environment : String) : Prop where
  sk : item.sk = "HEAD"
  pk : legacySecretId item.pk = some secretId
  named : item.stringField "secretId" = some secretId
  environment : item.stringField "environment" = some environment

variable {item : Item} {secretId environment : String}

theorem Headed.key (h : Headed item secretId environment) :
    item.key = { pk := "SECRET#" ++ secretId, sk := "HEAD" } := by
  have hpk := h.pk
  rw [legacySecretId_eq_some] at hpk
  exact Key.ext hpk.1 h.sk

theorem requiredString_eq_ok {name value : String} :
    requiredString item name = .ok value ↔ item.stringField name = some value := by
  unfold requiredString
  cases item.stringField name with
  | none => simp
  | some found => simp

theorem requiredLegacySecretId_eq_ok {pk : String} :
    requiredLegacySecretId pk = .ok secretId ↔ legacySecretId pk = some secretId := by
  unfold requiredLegacySecretId
  cases legacySecretId pk with
  | none => simp
  | some found => simp

theorem addEnvironment_eq_ok {environments environments' : Entries String} :
    addEnvironment environments item = .ok environments' ↔
      (item.sk ≠ "HEAD" ∧ environments' = environments) ∨
        ∃ secretId environment, Headed item secretId environment ∧
          (∀ prior ∈ environments.lookup secretId, prior = environment) ∧
          environments' = environments.set secretId environment := by
  unfold addEnvironment
  by_cases hsk : item.sk = "HEAD"
  · rw [if_neg (not_not.mpr hsk), bind_eq_ok]
    constructor
    · intro ⟨secretId, hpk, h⟩
      rw [requiredLegacySecretId_eq_ok] at hpk
      obtain ⟨field, hfield, h⟩ := bind_eq_ok.mp h
      rw [requiredString_eq_ok] at hfield
      split at h
      · cases h
      · rename_i hsame
        rw [not_not] at hsame
        obtain ⟨environment, henvironment, h⟩ := bind_eq_ok.mp h
        rw [requiredString_eq_ok] at henvironment
        split at h
        · cases h
        · rename_i hprior
          refine .inr ⟨secretId, environment, ⟨hsk, hpk, hsame ▸ hfield, henvironment⟩, ?_,
            (Except.ok.inj h).symm⟩
          intro prior hmem
          by_contra hne
          exact hprior ⟨prior, hmem, hne⟩
    · rintro (⟨hne, -⟩ | ⟨secretId, environment, hheaded, hprior, rfl⟩)
      · exact absurd hsk hne
      · refine ⟨secretId, requiredLegacySecretId_eq_ok.mpr hheaded.pk, ?_⟩
        rw [bind_eq_ok]
        refine ⟨secretId, requiredString_eq_ok.mpr hheaded.named, ?_⟩
        rw [if_neg (not_not.mpr rfl), bind_eq_ok]
        refine ⟨environment, requiredString_eq_ok.mpr hheaded.environment, ?_⟩
        rw [if_neg]
        · rfl
        · rintro ⟨prior, hmem, hne⟩
          exact hne (hprior prior hmem)
  · rw [if_pos hsk]
    constructor
    · intro h
      exact .inl ⟨hsk, (Except.ok.inj h).symm⟩
    · rintro (⟨-, rfl⟩ | ⟨secretId, environment, hheaded, -, -⟩)
      · rfl
      · exact absurd hheaded.sk hsk

theorem addEnvironment_head {environments : Entries String} (h : Headed item secretId environment)
    (hprior : ∀ prior ∈ environments.lookup secretId, prior = environment) :
    addEnvironment environments item = .ok (environments.set secretId environment) := by
  rw [addEnvironment_eq_ok]
  exact .inr ⟨secretId, environment, h, hprior, rfl⟩

theorem addEnvironment_other {environments : Entries String} (h : item.sk ≠ "HEAD") :
    addEnvironment environments item = .ok environments := by
  rw [addEnvironment_eq_ok]
  exact .inl ⟨h, rfl⟩

theorem Headed.unique {secretId' environment' : String} (h : Headed item secretId environment)
    (h' : Headed item secretId' environment') :
    secretId = secretId' ∧ environment = environment' :=
  ⟨Option.some.inj (h.pk.symm.trans h'.pk),
    Option.some.inj (h.environment.symm.trans h'.environment)⟩

/-- What the rows add to the environments. -/
theorem foldlM_addEnvironment {items : List Item} {environments environments' : Entries String}
    (h : items.foldlM addEnvironment environments = .ok environments') :
    (∀ item ∈ items, item.sk = "HEAD" → ∃ secretId environment, Headed item secretId environment) ∧
      ∀ secretId environment, environments'.lookup secretId = some environment ↔
        environments.lookup secretId = some environment ∨
          ∃ item ∈ items, Headed item secretId environment := by
  induction items generalizing environments with
  | nil =>
      obtain rfl : environments = environments' := Except.ok.inj h
      simp
  | cons item rest ih =>
      rw [List.foldlM_cons, bind_eq_ok] at h
      obtain ⟨middle, hfirst, hrest⟩ := h
      obtain ⟨hheads, hlookup⟩ := ih hrest
      rw [addEnvironment_eq_ok] at hfirst
      rcases hfirst with ⟨hsk, rfl⟩ | ⟨found, kept, hheaded, hprior, rfl⟩
      · constructor
        · rintro other (_ | ⟨_, hmem⟩) hhead
          · exact absurd hhead hsk
          · exact hheads other hmem hhead
        · intro secretId environment
          have hnone : ¬ Headed item secretId environment := fun hheaded => hsk hheaded.sk
          rw [hlookup]
          simp [hnone]
      · constructor
        · rintro other (_ | ⟨_, hmem⟩) hhead
          · exact ⟨found, kept, hheaded⟩
          · exact hheads other hmem hhead
        · intro secretId environment
          rw [hlookup, Entries.lookup_set]
          by_cases hsame : secretId = found
          · have hthis : some kept = some environment ↔
                environments.lookup secretId = some environment ∨
                  Headed item secretId environment := by
              constructor
              · intro heq
                exact .inr (hsame ▸ Option.some.inj heq ▸ hheaded)
              · rintro (hfound | hother)
                · rw [hprior environment (hsame ▸ hfound)]
                · rw [(hheaded.unique hother).2]
            rw [if_pos hsame, hthis]
            simp [or_assoc]
          · have hnone : ¬ Headed item secretId environment := fun hother =>
              hsame (hheaded.unique hother).1.symm
            rw [if_neg hsame]
            simp [hnone]

/-- Heads that agree with their keys, and with one another, can be collected. -/
theorem foldlM_addEnvironment_ok {items : List Item} {environments : Entries String}
    (hheads : ∀ item ∈ items, item.sk = "HEAD" →
      ∃ secretId environment, Headed item secretId environment)
    (hprior : ∀ item ∈ items, ∀ secretId environment, Headed item secretId environment →
      ∀ prior ∈ environments.lookup secretId, prior = environment)
    (hsame : ∀ item ∈ items, ∀ other ∈ items, ∀ secretId environment environment',
      Headed item secretId environment → Headed other secretId environment' →
        environment = environment') :
    ∃ environments', items.foldlM addEnvironment environments = .ok environments' := by
  induction items generalizing environments with
  | nil => exact ⟨environments, rfl⟩
  | cons item rest ih =>
      have hlater : ∀ {middle : Entries String}, addEnvironment environments item = .ok middle →
          (∀ other ∈ rest, ∀ secretId environment, Headed other secretId environment →
            ∀ prior ∈ middle.lookup secretId, prior = environment) →
          ∃ environments', (item :: rest).foldlM addEnvironment environments =
            .ok environments' := by
        intro middle hmiddle hprior'
        obtain ⟨environments', hrest⟩ := ih
          (fun other hmem => hheads other (List.mem_cons_of_mem _ hmem)) hprior'
          (fun other hmem other' hmem' => hsame other (List.mem_cons_of_mem _ hmem) other'
            (List.mem_cons_of_mem _ hmem'))
        refine ⟨environments', ?_⟩
        rw [List.foldlM_cons, bind_eq_ok]
        exact ⟨middle, hmiddle, hrest⟩
      by_cases hsk : item.sk = "HEAD"
      · obtain ⟨found, kept, hheaded⟩ := hheads item List.mem_cons_self hsk
        refine hlater (addEnvironment_head hheaded
          (hprior item List.mem_cons_self found kept hheaded)) ?_
        intro other hmem secretId environment hother prior hfound
        rw [Entries.lookup_set] at hfound
        split at hfound
        · rename_i hid
          obtain rfl := Option.some.inj hfound
          exact hsame item List.mem_cons_self other (List.mem_cons_of_mem _ hmem) found _ _ hheaded
            (hid ▸ hother)
        · exact hprior other (List.mem_cons_of_mem _ hmem) secretId environment hother prior hfound
      · exact hlater (addEnvironment_other hsk) fun other hmem =>
          hprior other (List.mem_cons_of_mem _ hmem)

/-- What the environments of the rows are, once they can be collected. -/
theorem environmentByLegacySecretId_eq_ok {items : List Item} {environments : Entries String}
    (h : environmentByLegacySecretId items = .ok environments) :
    (∀ item ∈ items, item.sk = "HEAD" → ∃ secretId environment, Headed item secretId environment) ∧
      (∀ secretId environment, environments.lookup secretId = some environment ↔
        ∃ item ∈ items, Headed item secretId environment) ∧
      ∀ item ∈ items, ∃ secretId environment, legacySecretId item.pk = some secretId ∧
        environments.lookup secretId = some environment := by
  unfold environmentByLegacySecretId at h
  obtain ⟨found, hfold, h⟩ := bind_eq_ok.mp h
  obtain ⟨secretIds, hids, h⟩ := bind_eq_ok.mp h
  obtain ⟨hheads, hlookup⟩ := foldlM_addEnvironment hfold
  split at h
  · cases h
  · rename_i hnone
    obtain rfl : found = environments := Except.ok.inj h
    refine ⟨hheads, fun secretId environment => ?_, fun item hmem => ?_⟩
    · rw [hlookup]
      simp
    · obtain ⟨secretId, hmem', hid⟩ := ok_of_mapM_ok hids item hmem
      have hsome : found.lookup secretId ≠ none := fun hempty =>
        List.find?_eq_none.mp hnone secretId hmem' (by simp [hempty])
      obtain ⟨environment, henvironment⟩ := Option.ne_none_iff_exists'.mp hsome
      exact ⟨secretId, environment, requiredLegacySecretId_eq_ok.mp hid, henvironment⟩

theorem environmentByLegacySecretId_ok {items : List Item}
    (hheads : ∀ item ∈ items, item.sk = "HEAD" →
      ∃ secretId environment, Headed item secretId environment)
    (hsame : ∀ item ∈ items, ∀ other ∈ items, ∀ secretId environment environment',
      Headed item secretId environment → Headed other secretId environment' →
        environment = environment')
    (howned : ∀ item ∈ items, ∃ secretId, legacySecretId item.pk = some secretId ∧
      ∃ head ∈ items, ∃ environment, Headed head secretId environment) :
    ∃ environments, environmentByLegacySecretId items = .ok environments := by
  have hprior : ∀ item ∈ items, ∀ secretId environment, Headed item secretId environment →
      ∀ prior ∈ List.lookup secretId ([] : Entries String), prior = environment := by
    simp
  obtain ⟨environments, hfold⟩ := foldlM_addEnvironment_ok hheads hprior hsame
  obtain ⟨-, hlookup⟩ := foldlM_addEnvironment hfold
  have hids : ∀ item ∈ items, ∃ secretId, requiredLegacySecretId item.pk = .ok secretId := by
    intro item hmem
    obtain ⟨secretId, hid, -⟩ := howned item hmem
    exact ⟨secretId, requiredLegacySecretId_eq_ok.mpr hid⟩
  obtain ⟨secretIds, hsecretIds⟩ := mapM_ok hids
  refine ⟨environments, ?_⟩
  unfold environmentByLegacySecretId
  rw [bind_eq_ok]
  refine ⟨environments, hfold, ?_⟩
  rw [bind_eq_ok]
  refine ⟨secretIds, hsecretIds, ?_⟩
  have hnone : secretIds.find? (fun secretId => (environments.lookup secretId).isNone) = none := by
    rw [List.find?_eq_none]
    intro secretId hmem
    obtain ⟨item, hitem, hid⟩ := (mem_of_mapM_ok hsecretIds).mp hmem
    obtain ⟨secretId', hid', head, hhead, environment, hheaded⟩ := howned item hitem
    obtain rfl := Option.some.inj ((requiredLegacySecretId_eq_ok.mp hid).symm.trans hid')
    rw [(hlookup secretId environment).mpr (.inr ⟨head, hhead, hheaded⟩)]
    simp
  rw [hnone]
  rfl

/-! ## Secrets of a table -/

/-- The table has a head of the secret, which names the environment. -/
def InEnvironment (table : Table) (secretId environment : String) : Prop :=
  ∃ head, table head.key = some head ∧ Headed head secretId environment

variable {table : Table}

theorem InEnvironment.unique {environment' : String}
    (h : InEnvironment table secretId environment)
    (h' : InEnvironment table secretId environment') : environment = environment' := by
  obtain ⟨head, hhead, hheaded⟩ := h
  obtain ⟨head', hhead', hheaded'⟩ := h'
  have hkey : head.key = head'.key := hheaded.key.trans hheaded'.key.symm
  obtain rfl : head = head' := Option.some.inj (hhead.symm.trans ((congrArg table hkey).trans hhead'))
  exact (hheaded.unique hheaded').2

theorem InEnvironment.ne_empty (h : InEnvironment table secretId environment) :
    environment ≠ "" := by
  obtain ⟨head, -, hheaded⟩ := h
  have htext := hheaded.environment
  intro hempty
  unfold Item.stringField Attributes.stringField at htext
  split at htext
  · split at htext
    · cases htext
    · rename_i hne
      exact hne (Option.some.inj htext ▸ hempty)
  · cases htext

theorem InEnvironment.clean (h : InEnvironment table secretId environment) :
    secretId ≠ "" ∧ '#' ∉ secretId.toList := by
  obtain ⟨head, -, hheaded⟩ := h
  have hpk := hheaded.pk
  rw [legacySecretId_eq_some] at hpk
  exact hpk.2

/-- A row of a legacy secret, and where it goes. -/
structure IsMove (table : Table) (move : SecretMove) : Prop where
  stored : table move.source.key = some move.source
  legacy : legacySecretId move.source.pk = some move.secretId
  home : InEnvironment table move.secretId move.environment
  sourcePk : move.sourcePk = move.source.pk
  targetPk : move.targetPk = secretPk move.environment move.secretId

/-- A legacy access row, and where it goes. -/
structure IsAccessMove (table : Table) (move : AccessMove) : Prop where
  stored : table move.source.key = some move.source
  legacy : isLegacyAccessItem move.source = true
  environment : move.source.stringField "environment" = some move.environment
  secretId : move.source.stringField "secretId" = some move.secretId
  home : InEnvironment table move.secretId move.environment
  sourcePk : move.sourcePk = move.source.pk
  sourceSk : move.sourceSk = move.source.sk
  targetSk : move.targetSk = accessSk move.environment move.secretId

/-- A pending notification that has no environment yet. -/
def IsBackfill (table : Table) (backfill : NotificationBackfill) : Prop :=
  ∃ item secretId, table item.key = some item ∧ isPendingNotification item = true ∧
    item.stringField "eventId" = some backfill.eventId ∧
    item.stringField "secretId" = some secretId ∧
    InEnvironment table secretId backfill.environment ∧ item.stringField "environment" = none

theorem IsMove.unique {move move' : SecretMove} (h : IsMove table move) (h' : IsMove table move')
    (hsource : move.source = move'.source) : move = move' := by
  have hid : move.secretId = move'.secretId :=
    Option.some.inj (h.legacy.symm.trans (hsource ▸ h'.legacy))
  have henvironment : move.environment = move'.environment := h.home.unique (hid ▸ h'.home)
  cases move
  cases move'
  simp only at hsource hid henvironment
  have hsourcePk := h.sourcePk.trans (hsource ▸ h'.sourcePk.symm)
  have htargetPk := h.targetPk.trans (hid ▸ henvironment ▸ h'.targetPk.symm)
  simp only at hsourcePk htargetPk
  subst hsource hid henvironment hsourcePk htargetPk
  rfl

theorem IsAccessMove.unique {move move' : AccessMove} (h : IsAccessMove table move)
    (h' : IsAccessMove table move') (hsource : move.source = move'.source) : move = move' := by
  have hid : move.secretId = move'.secretId :=
    Option.some.inj (h.secretId.symm.trans (hsource ▸ h'.secretId))
  have henvironment : move.environment = move'.environment :=
    Option.some.inj (h.environment.symm.trans (hsource ▸ h'.environment))
  cases move
  cases move'
  simp only at hsource hid henvironment
  have hsourcePk := h.sourcePk.trans (hsource ▸ h'.sourcePk.symm)
  have hsourceSk := h.sourceSk.trans (hsource ▸ h'.sourceSk.symm)
  have htargetSk := h.targetSk.trans (hid ▸ henvironment ▸ h'.targetSk.symm)
  simp only at hsourcePk hsourceSk htargetSk
  subst hsource hid henvironment hsourcePk hsourceSk htargetSk
  rfl

/-! ## Requests -/

/-- Two attributes of a row. -/
def pairOf (item : Item) (first second : String) : List (String × String) :=
  match item.stringField first, item.stringField second with
  | some value, some value' => [(value, value')]
  | _, _ => []

/-- The row has both attributes or neither. -/
def Paired (item : Item) (first second : String) : Prop :=
  (item.stringField first).isSome = (item.stringField second).isSome

/-- The objects that a row names: their keys and versions. -/
def referencesOf (move : SecretMove) : List (String × String) :=
  pairOf move.source "objectKey" "s3VersionId" ++
    if isHead move then
      (pairOf move.source "controlVersionId" "controlObjectVersionId").map
          (Prod.map (headObjectKey move.secretId "control") id) ++
        (pairOf move.source "payloadVersionId" "payloadObjectVersionId").map
          (Prod.map (headObjectKey move.secretId "payload") id)
    else []

/-- What the row says of its objects is complete. -/
structure Complete (move : SecretMove) : Prop where
  record : Paired move.source "objectKey" "s3VersionId"
  control : isHead move = true → Paired move.source "controlVersionId" "controlObjectVersionId"
  payload : isHead move = true → Paired move.source "payloadVersionId" "payloadObjectVersionId"

/-- Where an object goes, if its key has the form that is expected. -/
def destinationKey (move : SecretMove) (sourceKey : String) : Option String :=
  match dropPrefix ("secrets/" ++ move.secretId ++ "/") sourceKey with
  | none => none
  | some suffix =>
      if ¬ isRevisionSuffix suffix then none
      else some ("secrets/" ++ move.environment ++ "/" ++ move.secretId ++ "/" ++
        String.ofList suffix)

/-- A row names the object. -/
structure Requests (table : Table) (copy : ObjectCopy) (move : SecretMove) : Prop where
  moved : IsMove table move
  reference : (copy.sourceKey, copy.sourceVersionId) ∈ referencesOf move
  destination : destinationKey move copy.sourceKey = some copy.destinationKey
  unknown : copy.destinationVersionId = none

/-! ## Copies that are planned -/

theorem addCopy_eq_ok {move : SecretMove} {sourceKey versionId : String}
    {copies copies' : Entries ObjectCopy} :
    addCopy move sourceKey versionId copies = .ok copies' ↔
      ∃ found, destinationKey move sourceKey = some found ∧
        ((∃ prior, copies.lookup (objectId sourceKey versionId) = some prior ∧
            prior.destinationKey = found ∧ copies' = copies) ∨
          (copies.lookup (objectId sourceKey versionId) = none ∧
            copies' = copies.set (objectId sourceKey versionId)
              { sourceKey, sourceVersionId := versionId, destinationKey := found
                destinationVersionId := none })) := by
  unfold addCopy destinationKey
  cases dropPrefix ("secrets/" ++ move.secretId ++ "/") sourceKey with
  | none => simp
  | some suffix =>
      dsimp only
      by_cases hsuffix : isRevisionSuffix suffix = true
      · rw [if_neg (not_not.mpr hsuffix), if_neg (not_not.mpr hsuffix)]
        cases copies.lookup (objectId sourceKey versionId) with
        | none => simp [eq_comm]
        | some prior =>
            dsimp only
            by_cases hsame : prior.destinationKey = "secrets/" ++ move.environment ++ "/" ++
                move.secretId ++ "/" ++ String.ofList suffix
            · rw [if_neg (not_not.mpr hsame)]
              simp [hsame, eq_comm]
            · rw [if_pos hsame]
              simp [hsame]
      · rw [if_pos hsuffix, if_pos hsuffix]
        simp

/-- An object that a row names, with the move of the row. -/
abbrev Reference := SecretMove × String × String

def addReference (copies : Entries ObjectCopy) (reference : Reference) :
    Except String (Entries ObjectCopy) :=
  addCopy reference.1 reference.2.1 reference.2.2 copies

def allReferences (moves : List SecretMove) : List Reference :=
  moves.flatMap fun move => (referencesOf move).map (move, ·)

theorem mem_allReferences {moves : List SecretMove} {reference : Reference} :
    reference ∈ allReferences moves ↔
      reference.1 ∈ moves ∧ reference.2 ∈ referencesOf reference.1 := by
  unfold allReferences
  rw [List.mem_flatMap]
  constructor
  · intro ⟨move, hmove, hmem⟩
    obtain ⟨pair, hpair, rfl⟩ := List.mem_map.mp hmem
    exact ⟨hmove, hpair⟩
  · intro ⟨hmove, hmem⟩
    exact ⟨reference.1, hmove, List.mem_map.mpr ⟨reference.2, hmem, rfl⟩⟩

theorem addItemObjectCopy_eq_ok {move : SecretMove} {copies copies' : Entries ObjectCopy} :
    addItemObjectCopy move copies = .ok copies' ↔ Paired move.source "objectKey" "s3VersionId" ∧
      ((pairOf move.source "objectKey" "s3VersionId").map (move, ·)).foldlM addReference copies =
        .ok copies' := by
  unfold addItemObjectCopy Paired pairOf
  cases move.source.stringField "objectKey" with
  | none =>
      cases move.source.stringField "s3VersionId" with
      | none => simp [pure, Except.pure]
      | some versionId => simp
  | some key =>
      cases move.source.stringField "s3VersionId" with
      | none => simp
      | some versionId => simp [addReference]

theorem addHeadObjectCopy_eq_ok {move : SecretMove} {kind revisionField versionField : String}
    {copies copies' : Entries ObjectCopy} :
    addHeadObjectCopy move kind revisionField versionField copies = .ok copies' ↔
      Paired move.source revisionField versionField ∧
        (((pairOf move.source revisionField versionField).map
          (Prod.map (headObjectKey move.secretId kind) id)).map (move, ·)).foldlM addReference
            copies = .ok copies' := by
  unfold addHeadObjectCopy Paired pairOf
  cases move.source.stringField revisionField with
  | none =>
      cases move.source.stringField versionField with
      | none => simp [pure, Except.pure]
      | some versionId => simp
  | some revisionId =>
      cases move.source.stringField versionField with
      | none => simp
      | some versionId => simp [addReference]

theorem addCopies_eq_ok {move : SecretMove} {copies copies' : Entries ObjectCopy} :
    addCopies copies move = .ok copies' ↔ Complete move ∧
      ((referencesOf move).map (move, ·)).foldlM addReference copies = .ok copies' := by
  unfold addCopies addHeadObjectCopies referencesOf
  rw [bind_eq_ok, List.map_append, List.foldlM_append, bind_eq_ok]
  by_cases hhead : isHead move = true
  · have hsk : move.source.sk = "HEAD" := by simpa [isHead] using hhead
    rw [if_pos hhead, List.map_append]
    simp only [addItemObjectCopy_eq_ok, if_neg (not_not.mpr hsk), bind_eq_ok,
      addHeadObjectCopy_eq_ok, List.foldlM_append]
    constructor
    · intro ⟨first, ⟨hrecord, hfirst⟩, second, ⟨hcontrol, hsecond⟩, hpayload, hthird⟩
      exact ⟨⟨hrecord, fun _ => hcontrol, fun _ => hpayload⟩, first, hfirst, second, hsecond, hthird⟩
    · intro ⟨hcomplete, first, hfirst, second, hsecond, hthird⟩
      exact ⟨first, ⟨hcomplete.record, hfirst⟩, second, ⟨hcomplete.control hhead, hsecond⟩,
        hcomplete.payload hhead, hthird⟩
  · have hsk : move.source.sk ≠ "HEAD" := by simpa [isHead] using hhead
    rw [if_neg hhead]
    simp only [addItemObjectCopy_eq_ok, if_pos hsk]
    constructor
    · intro ⟨first, ⟨hrecord, hfirst⟩, hrest⟩
      exact ⟨⟨hrecord, fun h => absurd h hhead, fun h => absurd h hhead⟩, first, hfirst, hrest⟩
    · intro ⟨hcomplete, first, hfirst, hrest⟩
      exact ⟨first, ⟨hcomplete.record, hfirst⟩, hrest⟩

theorem foldlM_addCopies {moves : List SecretMove} {copies copies' : Entries ObjectCopy} :
    moves.foldlM addCopies copies = .ok copies' ↔ (∀ move ∈ moves, Complete move) ∧
      (allReferences moves).foldlM addReference copies = .ok copies' := by
  induction moves generalizing copies with
  | nil => simp [allReferences]
  | cons move moves ih =>
      have hall : allReferences (move :: moves) =
          (referencesOf move).map (move, ·) ++ allReferences moves := List.flatMap_cons
      rw [List.foldlM_cons, bind_eq_ok, hall, List.foldlM_append, bind_eq_ok, List.forall_mem_cons]
      simp only [addCopies_eq_ok, ih]
      constructor
      · intro ⟨middle, ⟨hfirst, hmiddle⟩, hrest, hend⟩
        exact ⟨⟨hfirst, hrest⟩, middle, hmiddle, hend⟩
      · intro ⟨⟨hfirst, hrest⟩, middle, hmiddle, hend⟩
        exact ⟨middle, ⟨hfirst, hmiddle⟩, hrest, hend⟩

/-- The copies when the references were added. -/
structure Added (references : List Reference) (copies copies' : Entries ObjectCopy) : Prop where
  kept : ∀ {name copy}, copies.lookup name = some copy → copies'.lookup name = some copy
  added : ∀ reference ∈ references, ∃ copy,
    copies'.lookup (objectId reference.2.1 reference.2.2) = some copy ∧
      destinationKey reference.1 reference.2.1 = some copy.destinationKey
  origin : ∀ {name copy}, copies'.lookup name = some copy → copies.lookup name = some copy ∨
    ∃ reference ∈ references, name = objectId reference.2.1 reference.2.2 ∧
      copy.sourceKey = reference.2.1 ∧ copy.sourceVersionId = reference.2.2 ∧
      destinationKey reference.1 reference.2.1 = some copy.destinationKey ∧
      copy.destinationVersionId = none
  nodup : (copies.map Prod.fst).Nodup → (copies'.map Prod.fst).Nodup

theorem added_of_foldlM {references : List Reference} {copies copies' : Entries ObjectCopy}
    (h : references.foldlM addReference copies = .ok copies') :
    Added references copies copies' := by
  induction references generalizing copies with
  | nil =>
      obtain rfl : copies = copies' := Except.ok.inj h
      exact ⟨id, fun _ hmem => absurd hmem List.not_mem_nil, fun hlookup => .inl hlookup, id⟩
  | cons reference rest ih =>
      rw [List.foldlM_cons, bind_eq_ok] at h
      obtain ⟨middle, hfirst, hrest⟩ := h
      have hadded := ih hrest
      obtain ⟨found, hfound, ⟨prior, hprior, hsame, rfl⟩ | ⟨hnone, rfl⟩⟩ :=
        addCopy_eq_ok.mp hfirst
      · refine ⟨hadded.kept, ?_, ?_, hadded.nodup⟩
        · rintro other (_ | ⟨_, hmem⟩)
          · exact ⟨prior, hadded.kept hprior, hsame ▸ hfound⟩
          · exact hadded.added other hmem
        · intro name copy hlookup
          rcases hadded.origin hlookup with hold | ⟨other, hmem, hrest⟩
          · exact .inl hold
          · exact .inr ⟨other, List.mem_cons_of_mem _ hmem, hrest⟩
      · refine ⟨?_, ?_, ?_, ?_⟩
        · intro name copy hlookup
          refine hadded.kept ?_
          rw [Entries.lookup_set_of_ne]
          · exact hlookup
          · rintro rfl
            exact absurd (hlookup.symm.trans hnone) (by simp)
        · rintro other (_ | ⟨_, hmem⟩)
          · exact ⟨_, hadded.kept (Entries.lookup_set_self _ _ _), hfound⟩
          · exact hadded.added other hmem
        · intro name copy hlookup
          rcases hadded.origin hlookup with hold | ⟨other, hmem, hrest⟩
          · rw [Entries.lookup_set] at hold
            split at hold
            · rename_i hname
              obtain rfl := Option.some.inj hold
              exact .inr ⟨reference, List.mem_cons_self, hname, rfl, rfl, hfound, rfl⟩
            · exact .inl hold
          · exact .inr ⟨other, List.mem_cons_of_mem _ hmem, hrest⟩
        · intro hnodup
          exact hadded.nodup (nodup_set hnodup)

/-- References that go to one place wherever they have one name can be added. -/
theorem foldlM_addReference_ok {references : List Reference} {copies : Entries ObjectCopy}
    (hkeys : ∀ reference ∈ references, destinationKey reference.1 reference.2.1 ≠ none)
    (hcoherent : ∀ reference ∈ references, ∀ other ∈ references,
      objectId reference.2.1 reference.2.2 = objectId other.2.1 other.2.2 →
        destinationKey reference.1 reference.2.1 = destinationKey other.1 other.2.1)
    (hprior : ∀ reference ∈ references, ∀ copy,
      copies.lookup (objectId reference.2.1 reference.2.2) = some copy →
        destinationKey reference.1 reference.2.1 = some copy.destinationKey) :
    ∃ copies', references.foldlM addReference copies = .ok copies' := by
  induction references generalizing copies with
  | nil => exact ⟨copies, rfl⟩
  | cons reference rest ih =>
      obtain ⟨found, hfound⟩ :=
        Option.ne_none_iff_exists'.mp (hkeys reference List.mem_cons_self)
      have hstep : ∃ middle, addReference copies reference = .ok middle ∧
          ∀ other ∈ rest, ∀ copy, middle.lookup (objectId other.2.1 other.2.2) = some copy →
            destinationKey other.1 other.2.1 = some copy.destinationKey := by
        cases hlookup : copies.lookup (objectId reference.2.1 reference.2.2) with
        | some prior =>
            have hsame := hprior reference List.mem_cons_self prior hlookup
            refine ⟨copies, addCopy_eq_ok.mpr ⟨found, hfound, .inl ⟨prior, hlookup, ?_, rfl⟩⟩, ?_⟩
            · exact Option.some.inj (hsame.symm.trans hfound)
            · exact fun other hmem => hprior other (List.mem_cons_of_mem _ hmem)
        | none =>
            refine ⟨_, addCopy_eq_ok.mpr ⟨found, hfound, .inr ⟨hlookup, rfl⟩⟩, ?_⟩
            intro other hmem copy hcopy
            rw [Entries.lookup_set] at hcopy
            split at hcopy
            · rename_i hname
              obtain rfl := Option.some.inj hcopy
              rw [hcoherent other (List.mem_cons_of_mem _ hmem) reference List.mem_cons_self hname]
              exact hfound
            · exact hprior other (List.mem_cons_of_mem _ hmem) copy hcopy
      obtain ⟨middle, hmiddle, hprior'⟩ := hstep
      obtain ⟨copies', hrest⟩ := ih (fun other hmem => hkeys other (List.mem_cons_of_mem _ hmem))
        (fun first hfirst other hother => hcoherent first (List.mem_cons_of_mem _ hfirst) other
          (List.mem_cons_of_mem _ hother)) hprior'
      refine ⟨copies', ?_⟩
      rw [List.foldlM_cons, bind_eq_ok]
      exact ⟨middle, hmiddle, hrest⟩

/-! ## Plans -/

/-- The rows can be planned. -/
structure Plannable (table : Table) : Prop where
  heads : ∀ {item}, table item.key = some item → isLegacySecretItem item = true →
    item.sk = "HEAD" → ∃ secretId environment, Headed item secretId environment
  owned : ∀ {item secretId}, table item.key = some item → legacySecretId item.pk = some secretId →
    ∃ environment, InEnvironment table secretId environment
  ours : ∀ {item}, table item.key = some item → (scopedSecretId item.pk).isSome →
    ∃ move, IsMove table move ∧ item.pk = move.targetPk
  access : ∀ {item}, table item.key = some item → isLegacyAccessItem item = true →
    ∃ move, IsAccessMove table move ∧ move.source = item
  notifications : ∀ {item}, table item.key = some item → isPendingNotification item = true →
    ∃ eventId secretId environment, item.stringField "eventId" = some eventId ∧
      item.stringField "secretId" = some secretId ∧ InEnvironment table secretId environment ∧
      ∀ stored ∈ item.stringField "environment", stored = environment
  complete : ∀ {move}, IsMove table move → Complete move
  requests : ∀ {move reference}, IsMove table move → reference ∈ referencesOf move →
    destinationKey move reference.1 ≠ none
  coherent : ∀ {move move' reference reference'}, IsMove table move → IsMove table move' →
    reference ∈ referencesOf move → reference' ∈ referencesOf move' →
    objectId reference.1 reference.2 = objectId reference'.1 reference'.2 →
      destinationKey move reference.1 = destinationKey move' reference'.1

/-- What a plan consists of. -/
structure PlanOf (table : Table) (plan : MigrationPlan) : Prop where
  secretMoves : ∀ {move}, move ∈ plan.secretMoves ↔ IsMove table move
  secretNodup : (plan.secretMoves.map fun move => move.source.key).Nodup
  accessMoves : ∀ {move}, move ∈ plan.accessMoves ↔ IsAccessMove table move
  accessNodup : (plan.accessMoves.map fun move => move.source.key).Nodup
  backfills : ∀ {backfill}, backfill ∈ plan.notificationBackfills ↔ IsBackfill table backfill
  copies : ∀ {copy}, copy ∈ plan.copies → ∃ move, Requests table copy move
  requested : ∀ {move reference}, IsMove table move → reference ∈ referencesOf move →
    ∃ copy ∈ plan.copies, objectId copy.sourceKey copy.sourceVersionId =
      objectId reference.1 reference.2 ∧
        destinationKey move reference.1 = some copy.destinationKey
  copiesNodup : (plan.copies.map fun copy => objectId copy.sourceKey copy.sourceVersionId).Nodup

/-- No row of the table is a legacy secret's. -/
def NoLegacy (table : Table) : Prop :=
  ∀ item, table item.key = some item → isLegacySecretItem item = false

/-- Where there is a row of a legacy secret there is a row to be moved. -/
theorem Plannable.exists_move (h : Plannable table) (hsome : ¬ NoLegacy table) :
    ∃ move, IsMove table move := by
  by_contra hnot
  refine hsome fun item hstored => ?_
  by_contra hlegacy
  rw [Bool.not_eq_false] at hlegacy
  obtain ⟨secretId, hid⟩ := Option.isSome_iff_exists.mp hlegacy
  obtain ⟨environment, hhome⟩ := h.owned hstored hid
  exact hnot ⟨{ source := item, secretId, environment, sourcePk := item.pk
                targetPk := secretPk environment secretId }, hstored, hid, hhome, rfl, rfl⟩

theorem PlanOf.secretMoves_ne_nil {plan : MigrationPlan} (hplan : PlanOf table plan)
    (h : Plannable table) (hsome : ¬ NoLegacy table) : plan.secretMoves ≠ [] := by
  obtain ⟨move, hmove⟩ := h.exists_move hsome
  exact List.ne_nil_of_mem (hplan.secretMoves.mpr hmove)

section Environments

-- The environments that were collected are those of the table.
variable {items : List Item} {environments : Entries String}
  (henvironments : ∀ secretId environment,
    environments.lookup secretId = some environment ↔ InEnvironment table secretId environment)

include henvironments

theorem secretMove_eq_ok {move : SecretMove} (hstored : table item.key = some item) :
    secretMove environments item = .ok move ↔ IsMove table move ∧ move.source = item := by
  unfold secretMove
  rw [bind_eq_ok]
  constructor
  · intro ⟨secretId, hid, h⟩
    rw [requiredLegacySecretId_eq_ok] at hid
    split at h
    · cases h
    · rename_i environment hlookup
      obtain rfl := Except.ok.inj h
      exact ⟨⟨hstored, hid, (henvironments _ _).mp hlookup, rfl, rfl⟩, rfl⟩
  · rintro ⟨hmove, rfl⟩
    refine ⟨move.secretId, requiredLegacySecretId_eq_ok.mpr hmove.legacy, ?_⟩
    rw [(henvironments _ _).mpr hmove.home]
    refine congrArg Except.ok ?_
    rw [← hmove.sourcePk, ← hmove.targetPk]

theorem accessMove_eq_ok {move : AccessMove} (hstored : table item.key = some item)
    (hlegacy : isLegacyAccessItem item = true) :
    accessMove environments item = .ok move ↔ IsAccessMove table move ∧ move.source = item := by
  unfold accessMove
  rw [bind_eq_ok]
  constructor
  · intro ⟨environment, henvironment, h⟩
    rw [requiredString_eq_ok] at henvironment
    obtain ⟨secretId, hid, h⟩ := bind_eq_ok.mp h
    rw [requiredString_eq_ok] at hid
    split at h
    · cases h
    · rename_i hlookup
      rw [not_not] at hlookup
      obtain rfl := Except.ok.inj h
      exact ⟨⟨hstored, hlegacy, henvironment, hid, (henvironments _ _).mp hlookup, rfl, rfl, rfl⟩,
        rfl⟩
  · rintro ⟨hmove, rfl⟩
    refine ⟨move.environment, requiredString_eq_ok.mpr hmove.environment, ?_⟩
    rw [bind_eq_ok]
    refine ⟨move.secretId, requiredString_eq_ok.mpr hmove.secretId, ?_⟩
    rw [if_neg (not_not.mpr ((henvironments _ _).mpr hmove.home))]
    refine congrArg Except.ok ?_
    rw [← hmove.sourcePk, ← hmove.sourceSk, ← hmove.targetSk]

theorem notificationBackfill_eq_ok {result : Option NotificationBackfill} :
    notificationBackfill environments item = .ok result ↔
      ∃ eventId secretId environment, item.stringField "eventId" = some eventId ∧
        item.stringField "secretId" = some secretId ∧ InEnvironment table secretId environment ∧
        (∀ stored ∈ item.stringField "environment", stored = environment) ∧
        result = if item.stringField "environment" = none then some { eventId, environment }
          else none := by
  unfold notificationBackfill
  rw [bind_eq_ok]
  constructor
  · intro ⟨eventId, heventId, h⟩
    rw [requiredString_eq_ok] at heventId
    obtain ⟨secretId, hid, h⟩ := bind_eq_ok.mp h
    rw [requiredString_eq_ok] at hid
    split at h
    · cases h
    · rename_i environment hlookup
      refine ⟨eventId, secretId, environment, heventId, hid, (henvironments _ _).mp hlookup, ?_⟩
      split at h
      · rename_i hnone
        obtain rfl := Except.ok.inj h
        simp [hnone]
      · rename_i stored hstored
        split at h
        · cases h
        · rename_i hsame
          rw [not_not] at hsame
          obtain rfl := Except.ok.inj h
          simp [hstored, hsame]
  · intro ⟨eventId, secretId, environment, heventId, hid, hhome, hstored, hresult⟩
    refine ⟨eventId, requiredString_eq_ok.mpr heventId, ?_⟩
    rw [bind_eq_ok]
    refine ⟨secretId, requiredString_eq_ok.mpr hid, ?_⟩
    rw [(henvironments _ _).mpr hhome, hresult]
    cases hfield : item.stringField "environment" with
    | none => rfl
    | some stored =>
        have hsame : stored = environment := hstored stored hfield
        simp [hsame, pure, Except.pure]

end Environments

theorem source_of_secretMove {environments : Entries String} {move : SecretMove}
    (h : secretMove environments item = .ok move) : move.source = item := by
  unfold secretMove at h
  obtain ⟨secretId, -, h⟩ := bind_eq_ok.mp h
  split at h
  · cases h
  · obtain rfl := Except.ok.inj h
    rfl

theorem source_of_accessMove {environments : Entries String} {move : AccessMove}
    (h : accessMove environments item = .ok move) : move.source = item := by
  unfold accessMove at h
  obtain ⟨environment, -, h⟩ := bind_eq_ok.mp h
  obtain ⟨secretId, -, h⟩ := bind_eq_ok.mp h
  split at h
  · cases h
  · obtain rfl := Except.ok.inj h
    rfl

/-- How a plan with moves was built. -/
structure Built (items : List Item) (environments : Entries String) (plan : MigrationPlan) :
    Prop where
  collected : environmentByLegacySecretId (items.filter isLegacySecretItem) = .ok environments
  secretMoves : (items.filter isLegacySecretItem).mapM (secretMove environments) =
    .ok plan.secretMoves
  ours : ∀ item ∈ items, (scopedSecretId item.pk).isSome →
    item.pk ∈ plan.secretMoves.map SecretMove.targetPk
  accessMoves : (items.filter isLegacyAccessItem).mapM (accessMove environments) =
    .ok plan.accessMoves
  backfills : ∃ found, (items.filter isPendingNotification).mapM
    (notificationBackfill environments) = .ok found ∧
      plan.notificationBackfills = found.reduceOption
  copies : ∃ found, plan.secretMoves.foldlM addCopies [] = .ok found ∧
    plan.copies = found.map Prod.snd

theorem built_of_buildPlan {items : List Item} {plan : MigrationPlan}
    (h : buildPlan items = .ok plan) (hsome : items.filter isLegacySecretItem ≠ []) :
    ∃ environments, Built items environments plan := by
  unfold buildPlan at h
  dsimp only at h
  rw [if_neg fun hnone => hsome (List.length_eq_zero_iff.mp hnone)] at h
  obtain ⟨environments, hcollected, h⟩ := bind_eq_ok.mp h
  obtain ⟨secretMoves, hsecretMoves, h⟩ := bind_eq_ok.mp h
  split at h
  · cases h
  · rename_i hours
    obtain ⟨accessMoves, haccessMoves, h⟩ := bind_eq_ok.mp h
    obtain ⟨backfills, hbackfills, h⟩ := bind_eq_ok.mp h
    obtain ⟨copies, hcopies, h⟩ := bind_eq_ok.mp h
    obtain rfl := Except.ok.inj h
    refine ⟨environments, hcollected, hsecretMoves, fun item hmem hscoped => ?_, haccessMoves,
      ⟨backfills, hbackfills, rfl⟩, ⟨copies, hcopies, rfl⟩⟩
    by_contra hnot
    refine hours (List.any_eq_true.mpr ⟨item, hmem, ?_⟩)
    exact decide_eq_true ⟨hscoped, hnot⟩

theorem Built.buildPlan_ok {items : List Item} {environments : Entries String}
    {plan : MigrationPlan} (h : Built items environments plan)
    (hsome : items.filter isLegacySecretItem ≠ []) :
    buildPlan items =
      .ok { plan with pendingNotifications := (items.filter isPendingNotification).length } := by
  obtain ⟨backfills, hbackfills, hbackfilled⟩ := h.backfills
  obtain ⟨copies, hcopies, hcopied⟩ := h.copies
  have hours : ¬ (items.any fun item => (scopedSecretId item.pk).isSome ∧
      item.pk ∉ plan.secretMoves.map SecretMove.targetPk) := by
    intro hany
    obtain ⟨item, hmem, hitem⟩ := List.any_eq_true.mp hany
    obtain ⟨hscoped, hnot⟩ := of_decide_eq_true hitem
    exact hnot (h.ours item hmem hscoped)
  unfold buildPlan
  dsimp only
  rw [if_neg fun hnone => hsome (List.length_eq_zero_iff.mp hnone)]
  simp only [bind_eq_ok]
  refine ⟨environments, h.collected, plan.secretMoves, h.secretMoves, ?_⟩
  rw [if_neg hours]
  simp only [bind_eq_ok]
  refine ⟨plan.accessMoves, h.accessMoves, backfills, hbackfills, copies, hcopies, ?_⟩
  rw [hbackfilled, hcopied]
  rfl

section Scans

variable {items : List Item} (hscan : Scan table items)

include hscan

/-- A table has no row of a legacy secret exactly when the scan returns none. -/
theorem noLegacy_iff : NoLegacy table ↔ items.filter isLegacySecretItem = [] := by
  unfold NoLegacy
  rw [List.filter_eq_nil_iff]
  constructor
  · intro h item hmem
    rw [h item (hscan.mem.mp hmem)]
    simp
  · intro h item hstored
    simpa using h item (hscan.mem.mpr hstored)

/-- The environments of the rows that a scan returns are those of the table. -/
theorem headed_iff {secretId environment : String} :
    (∃ item ∈ items.filter isLegacySecretItem, Headed item secretId environment) ↔
      InEnvironment table secretId environment := by
  constructor
  · intro ⟨item, hmem, hheaded⟩
    exact ⟨item, hscan.mem.mp (List.mem_filter.mp hmem).1, hheaded⟩
  · intro ⟨head, hstored, hheaded⟩
    refine ⟨head, List.mem_filter.mpr ⟨hscan.mem.mpr hstored, ?_⟩, hheaded⟩
    rw [isLegacySecretItem, hheaded.pk]
    rfl

theorem mem_filter_iff {test : Item → Bool} {item : Item} :
    item ∈ items.filter test ↔ table item.key = some item ∧ test item = true := by
  rw [List.mem_filter, hscan.mem]

theorem nodup_keys_filter (test : Item → Bool) : ((items.filter test).map Item.key).Nodup :=
  hscan.nodup.sublist (List.filter_sublist.map _)

end Scans

theorem isLegacySecretItem_of_eq_some (h : legacySecretId item.pk = some secretId) :
    isLegacySecretItem item = true := by
  rw [isLegacySecretItem, h]
  rfl

namespace Built

variable {items : List Item} {environments : Entries String} {plan : MigrationPlan}
  (h : Built items environments plan) (hscan : Scan table items)

include h hscan

theorem lookup_iff {secretId environment : String} :
    environments.lookup secretId = some environment ↔ InEnvironment table secretId environment :=
  ((environmentByLegacySecretId_eq_ok h.collected).2.1 secretId environment).trans (headed_iff hscan)

theorem mem_secretMoves {move : SecretMove} : move ∈ plan.secretMoves ↔ IsMove table move := by
  rw [mem_of_mapM_ok h.secretMoves]
  constructor
  · intro ⟨item, hmem, hmove⟩
    have hstored := ((mem_filter_iff hscan).mp hmem).1
    exact ((secretMove_eq_ok (fun _ _ => h.lookup_iff hscan) hstored).mp hmove).1
  · intro hmove
    refine ⟨move.source, (mem_filter_iff hscan).mpr ⟨hmove.stored, ?_⟩, ?_⟩
    · exact isLegacySecretItem_of_eq_some hmove.legacy
    · exact (secretMove_eq_ok (fun _ _ => h.lookup_iff hscan) hmove.stored).mpr ⟨hmove, rfl⟩

theorem accessMove_ok {item : Item} {move : AccessMove} (hstored : table item.key = some item)
    (hlegacy : isLegacyAccessItem item = true) :
    accessMove environments item = .ok move ↔ IsAccessMove table move ∧ move.source = item :=
  accessMove_eq_ok (fun _ _ => h.lookup_iff hscan) hstored hlegacy

theorem mem_accessMoves {move : AccessMove} :
    move ∈ plan.accessMoves ↔ IsAccessMove table move := by
  rw [mem_of_mapM_ok h.accessMoves]
  constructor
  · intro ⟨item, hmem, hmove⟩
    obtain ⟨hstored, hlegacy⟩ := (mem_filter_iff hscan).mp hmem
    exact ((h.accessMove_ok hscan hstored hlegacy).mp hmove).1
  · intro hmove
    exact ⟨move.source, (mem_filter_iff hscan).mpr ⟨hmove.stored, hmove.legacy⟩,
      (h.accessMove_ok hscan hmove.stored hmove.legacy).mpr ⟨hmove, rfl⟩⟩

theorem mem_backfills {backfill : NotificationBackfill} :
    backfill ∈ plan.notificationBackfills ↔ IsBackfill table backfill := by
  obtain ⟨found, hfound, hbackfills⟩ := h.backfills
  rw [hbackfills, mem_reduceOption, mem_of_mapM_ok hfound]
  unfold IsBackfill
  constructor
  · intro ⟨item, hmem, hresult⟩
    obtain ⟨hstored, hpending⟩ := (mem_filter_iff hscan).mp hmem
    obtain ⟨eventId, secretId, environment, heventId, hid, hhome, -, heq⟩ :=
      (notificationBackfill_eq_ok fun _ _ => h.lookup_iff hscan).mp hresult
    split at heq
    · rename_i hnone
      obtain rfl := Option.some.inj heq
      exact ⟨item, secretId, hstored, hpending, heventId, hid, hhome, hnone⟩
    · cases heq
  · intro ⟨item, secretId, hstored, hpending, heventId, hid, hhome, hnone⟩
    refine ⟨item, (mem_filter_iff hscan).mpr ⟨hstored, hpending⟩,
      (notificationBackfill_eq_ok fun _ _ => h.lookup_iff hscan).mpr
        ⟨_, secretId, _, heventId, hid, hhome, ?_, ?_⟩⟩
    · simp [hnone]
    · rw [if_pos hnone]

/-- What the copies of the plan are. -/
theorem lookup_copies : ∃ found : Entries ObjectCopy, plan.copies = found.map Prod.snd ∧
    (found.map Prod.fst).Nodup ∧
    (∀ {name copy}, found.lookup name = some copy →
      name = objectId copy.sourceKey copy.sourceVersionId ∧ ∃ move, Requests table copy move) ∧
    ∀ {move reference}, IsMove table move → reference ∈ referencesOf move →
      ∃ copy, found.lookup (objectId reference.1 reference.2) = some copy ∧
        destinationKey move reference.1 = some copy.destinationKey := by
  obtain ⟨found, hfound, hcopies⟩ := h.copies
  have hadded := added_of_foldlM (foldlM_addCopies.mp hfound).2
  refine ⟨found, hcopies, hadded.nodup List.nodup_nil, ?_, ?_⟩
  · intro name copy hcopy
    rcases hadded.origin hcopy with hempty | ⟨reference, hmem, hname, hkey, hversion, hgoes, hunknown⟩
    · cases hempty
    · rw [mem_allReferences, h.mem_secretMoves hscan] at hmem
      refine ⟨by rw [hname, hkey, hversion], reference.1, hmem.1, ?_, ?_, hunknown⟩
      · rw [hkey, hversion]
        exact hmem.2
      · rw [hkey]
        exact hgoes
  · intro move reference hmove hmem
    exact hadded.added (move, reference)
      (mem_allReferences.mpr ⟨(h.mem_secretMoves hscan).mpr hmove, hmem⟩)

theorem planOf : PlanOf table plan := by
  obtain ⟨found, hcopies, hnodup, hnamed, hrequested⟩ := h.lookup_copies hscan
  have hmem : ∀ {copy}, copy ∈ plan.copies ↔ ∃ name, found.lookup name = some copy := by
    intro copy
    rw [hcopies, List.mem_map]
    constructor
    · rintro ⟨⟨name, copy⟩, hentry, rfl⟩
      exact ⟨name, (mem_iff_lookup hnodup).mp hentry⟩
    · intro ⟨name, hlookup⟩
      exact ⟨(name, copy), (mem_iff_lookup hnodup).mpr hlookup, rfl⟩
  refine ⟨h.mem_secretMoves hscan, ?_, h.mem_accessMoves hscan, ?_, h.mem_backfills hscan, ?_, ?_, ?_⟩
  · have hsources := map_of_mapM_ok h.secretMoves (g := SecretMove.source)
      fun item result hok => source_of_secretMove hok
    have hkeys := nodup_keys_filter hscan isLegacySecretItem
    rwa [← hsources, List.map_map] at hkeys
  · have hsources := map_of_mapM_ok h.accessMoves (g := AccessMove.source)
      fun item result hok => source_of_accessMove hok
    have hkeys := nodup_keys_filter hscan isLegacyAccessItem
    rwa [← hsources, List.map_map] at hkeys
  · intro copy hcopy
    obtain ⟨name, hlookup⟩ := hmem.mp hcopy
    exact (hnamed hlookup).2
  · intro move reference hmove hreference
    obtain ⟨copy, hlookup, hgoes⟩ := hrequested hmove hreference
    exact ⟨copy, hmem.mpr ⟨_, hlookup⟩, (hnamed hlookup).1.symm, hgoes⟩
  · -- Each copy stands under its own name, and each name once.
    have hnames : plan.copies.map (fun copy => objectId copy.sourceKey copy.sourceVersionId) =
        found.map Prod.fst := by
      rw [hcopies, List.map_map]
      refine List.map_congr_left fun entry hentry => ?_
      exact (hnamed ((mem_iff_lookup hnodup).mp hentry)).1.symm
    rw [hnames]
    exact hnodup

theorem plannable : Plannable table := by
  obtain ⟨hheads, -, howned⟩ := environmentByLegacySecretId_eq_ok h.collected
  obtain ⟨found, -, -, -, hrequested⟩ := h.lookup_copies hscan
  constructor
  · intro item hstored hlegacy hsk
    exact hheads item ((mem_filter_iff hscan).mpr ⟨hstored, hlegacy⟩) hsk
  · intro item secretId hstored hid
    obtain ⟨secretId', environment, hid', henvironment⟩ := howned item
      ((mem_filter_iff hscan).mpr ⟨hstored, isLegacySecretItem_of_eq_some hid⟩)
    obtain rfl := Option.some.inj (hid.symm.trans hid')
    exact ⟨environment, (h.lookup_iff hscan).mp henvironment⟩
  · intro item hstored hscoped
    obtain ⟨move, hmove, hpk⟩ := List.mem_map.mp (h.ours item (hscan.mem.mpr hstored) hscoped)
    exact ⟨move, (h.mem_secretMoves hscan).mp hmove, hpk.symm⟩
  · intro item hstored hlegacy
    obtain ⟨move, -, hmove⟩ := ok_of_mapM_ok h.accessMoves item
      ((mem_filter_iff hscan).mpr ⟨hstored, hlegacy⟩)
    exact ⟨move, (h.accessMove_ok hscan hstored hlegacy).mp hmove⟩
  · intro item hstored hpending
    obtain ⟨found, hfound, -⟩ := h.backfills
    obtain ⟨result, -, hresult⟩ := ok_of_mapM_ok hfound item
      ((mem_filter_iff hscan).mpr ⟨hstored, hpending⟩)
    obtain ⟨eventId, secretId, environment, heventId, hid, hhome, hkept, -⟩ :=
      (notificationBackfill_eq_ok fun _ _ => h.lookup_iff hscan).mp hresult
    exact ⟨eventId, secretId, environment, heventId, hid, hhome, hkept⟩
  · intro move hmove
    obtain ⟨found, hfound, -⟩ := h.copies
    exact (foldlM_addCopies.mp hfound).1 move ((h.mem_secretMoves hscan).mpr hmove)
  · intro move reference hmove hmem
    obtain ⟨copy, -, hgoes⟩ := hrequested hmove hmem
    rw [hgoes]
    simp
  · intro move move' reference reference' hmove hmove' hmem hmem' hname
    obtain ⟨copy, hcopy, hgoes⟩ := hrequested hmove hmem
    obtain ⟨copy', hcopy', hgoes'⟩ := hrequested hmove' hmem'
    rw [hname, hcopy'] at hcopy
    rw [hgoes, hgoes', Option.some.inj hcopy]

end Built

/-! ## Planning -/

section Planning

variable {items : List Item} (hscan : Scan table items)

include hscan

/-- **What is planned was there to plan.** -/
theorem buildPlan_eq_ok {plan : MigrationPlan} (h : buildPlan items = .ok plan) :
    (NoLegacy table ∧ (∀ item, table item.key = some item → isLegacyAccessItem item = false) ∧
        plan.secretMoves = []) ∨
      (¬ NoLegacy table ∧ Plannable table ∧ PlanOf table plan) := by
  by_cases hnone : items.filter isLegacySecretItem = []
  · refine .inl ⟨(noLegacy_iff hscan).mpr hnone, ?_⟩
    unfold buildPlan at h
    rw [hnone] at h
    dsimp only at h
    rw [if_pos List.length_nil] at h
    split at h
    · cases h
    · rename_i haccess
      rw [not_not, List.length_eq_zero_iff, List.filter_eq_nil_iff] at haccess
      obtain rfl := Except.ok.inj h
      refine ⟨fun item hstored => ?_, rfl⟩
      simpa using haccess item (hscan.mem.mpr hstored)
  · obtain ⟨environments, hbuilt⟩ := built_of_buildPlan h hnone
    exact .inr ⟨fun hlegacy => hnone ((noLegacy_iff hscan).mp hlegacy), hbuilt.plannable hscan,
      hbuilt.planOf hscan⟩

theorem buildPlan_of_noLegacy (hnone : NoLegacy table)
    (haccess : ∀ item, table item.key = some item → isLegacyAccessItem item = false) :
    ∃ plan, buildPlan items = .ok plan ∧ plan.secretMoves = [] := by
  have haccess' : items.filter isLegacyAccessItem = [] := by
    rw [List.filter_eq_nil_iff]
    intro item hmem
    rw [haccess item (hscan.mem.mp hmem)]
    simp
  unfold buildPlan
  rw [(noLegacy_iff hscan).mp hnone, haccess']
  dsimp only
  rw [if_pos List.length_nil, if_neg (not_not.mpr List.length_nil)]
  exact ⟨_, rfl, rfl⟩

/-- **Rows that can be planned are planned, in whatever order they are read.** -/
theorem buildPlan_of_plannable (hsome : ¬ NoLegacy table) (h : Plannable table) :
    ∃ plan, buildPlan items = .ok plan := by
  have hlegacy : ∀ item ∈ items.filter isLegacySecretItem, ∃ secretId,
      legacySecretId item.pk = some secretId ∧
        ∃ environment, InEnvironment table secretId environment := by
    intro item hmem
    obtain ⟨hstored, hitem⟩ := (mem_filter_iff hscan).mp hmem
    obtain ⟨secretId, hid⟩ := Option.isSome_iff_exists.mp hitem
    exact ⟨secretId, hid, h.owned hstored hid⟩
  have hcollected : ∃ environments,
      environmentByLegacySecretId (items.filter isLegacySecretItem) = .ok environments := by
    refine environmentByLegacySecretId_ok ?_ ?_ ?_
    · intro item hmem hsk
      obtain ⟨hstored, hitem⟩ := (mem_filter_iff hscan).mp hmem
      exact h.heads hstored hitem hsk
    · intro item hmem other hmem' secretId environment environment' hheaded hheaded'
      exact ((headed_iff hscan).mp ⟨item, hmem, hheaded⟩).unique
        ((headed_iff hscan).mp ⟨other, hmem', hheaded'⟩)
    · intro item hmem
      obtain ⟨secretId, hid, environment, hhome⟩ := hlegacy item hmem
      obtain ⟨head, hhead, hheaded⟩ := (headed_iff hscan).mpr hhome
      exact ⟨secretId, hid, head, hhead, environment, hheaded⟩
  obtain ⟨environments, hcollected⟩ := hcollected
  have hlookup : ∀ secretId environment, environments.lookup secretId = some environment ↔
      InEnvironment table secretId environment := fun secretId environment =>
    ((environmentByLegacySecretId_eq_ok hcollected).2.1 secretId environment).trans
      (headed_iff hscan)
  have hsecretMoves : ∃ moves,
      (items.filter isLegacySecretItem).mapM (secretMove environments) = .ok moves := by
    refine mapM_ok fun item hmem => ?_
    obtain ⟨secretId, hid, environment, hhome⟩ := hlegacy item hmem
    have hmove : IsMove table
        { source := item, secretId, environment, sourcePk := item.pk
          targetPk := secretPk environment secretId } :=
      ⟨((mem_filter_iff hscan).mp hmem).1, hid, hhome, rfl, rfl⟩
    exact ⟨_, (secretMove_eq_ok hlookup hmove.stored).mpr ⟨hmove, rfl⟩⟩
  obtain ⟨secretMoves, hsecretMoves⟩ := hsecretMoves
  have hmoves : ∀ {move}, move ∈ secretMoves ↔ IsMove table move := by
    intro move
    rw [mem_of_mapM_ok hsecretMoves]
    constructor
    · intro ⟨item, hmem, hmove⟩
      exact ((secretMove_eq_ok hlookup ((mem_filter_iff hscan).mp hmem).1).mp hmove).1
    · intro hmove
      exact ⟨move.source, (mem_filter_iff hscan).mpr
          ⟨hmove.stored, isLegacySecretItem_of_eq_some hmove.legacy⟩,
        (secretMove_eq_ok hlookup hmove.stored).mpr ⟨hmove, rfl⟩⟩
  have haccessMoves : ∃ moves,
      (items.filter isLegacyAccessItem).mapM (accessMove environments) = .ok moves := by
    refine mapM_ok fun item hmem => ?_
    obtain ⟨hstored, hitem⟩ := (mem_filter_iff hscan).mp hmem
    obtain ⟨move, hmove⟩ := h.access hstored hitem
    exact ⟨move, (accessMove_eq_ok hlookup hstored hitem).mpr hmove⟩
  have hbackfills : ∃ found, (items.filter isPendingNotification).mapM
      (notificationBackfill environments) = .ok found := by
    refine mapM_ok fun item hmem => ?_
    obtain ⟨hstored, hitem⟩ := (mem_filter_iff hscan).mp hmem
    obtain ⟨eventId, secretId, environment, heventId, hid, hhome, hkept⟩ :=
      h.notifications hstored hitem
    exact ⟨_, (notificationBackfill_eq_ok hlookup).mpr
      ⟨eventId, secretId, environment, heventId, hid, hhome, hkept, rfl⟩⟩
  have hcopies : ∃ copies, secretMoves.foldlM addCopies [] = .ok copies := by
    have hmem : ∀ reference ∈ allReferences secretMoves,
        IsMove table reference.1 ∧ reference.2 ∈ referencesOf reference.1 := by
      intro reference hreference
      rw [mem_allReferences, hmoves] at hreference
      exact hreference
    have hfold : ∃ copies, (allReferences secretMoves).foldlM addReference [] = .ok copies := by
      apply foldlM_addReference_ok
      · exact fun reference hreference =>
          h.requests (hmem _ hreference).1 (hmem _ hreference).2
      · exact fun reference hreference other hother => h.coherent (hmem _ hreference).1
          (hmem _ hother).1 (hmem _ hreference).2 (hmem _ hother).2
      · simp
    obtain ⟨copies, hfold⟩ := hfold
    exact ⟨copies, foldlM_addCopies.mpr ⟨fun move hmove => h.complete (hmoves.mp hmove), hfold⟩⟩
  obtain ⟨accessMoves, haccessMoves⟩ := haccessMoves
  obtain ⟨backfills, hbackfills⟩ := hbackfills
  obtain ⟨copies, hcopies⟩ := hcopies
  have hbuilt : Built items environments
      { secretMoves, accessMoves, copies := copies.map Prod.snd, pendingNotifications := 0
        notificationBackfills := backfills.reduceOption } := by
    refine ⟨hcollected, hsecretMoves, fun item hmem hscoped => ?_, haccessMoves,
      ⟨backfills, hbackfills, rfl⟩, ⟨copies, hcopies, rfl⟩⟩
    obtain ⟨move, hmove, hpk⟩ := h.ours (hscan.mem.mp hmem) hscoped
    exact List.mem_map.mpr ⟨move, hmoves.mpr hmove, hpk.symm⟩
  exact ⟨_, hbuilt.buildPlan_ok fun hnone => hsome ((noLegacy_iff hscan).mpr hnone)⟩

end Planning

end Hemlig.Scripts.MigrateSecretIdentity
