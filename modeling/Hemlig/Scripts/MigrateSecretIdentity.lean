import Hemlig.Scripts.MigrateSecretUids

/-!
# Migrating secrets to their environments

`src/scripts/migrate-secret-identity.ts`: rows of a secret that were kept under its id alone are
moved under its environment and its id, the rows of a consumer's access with them.  Before any
row is moved, the revision objects that the rows name are copied to keys of their own; after,
pending notifications are given the environment.

The bucket keeps versions, the newest first.  A copy has the checksum and the length of what it
is a copy of; the version id that S3 gives it is a parameter.
-/

namespace Hemlig.Scripts.MigrateSecretIdentity

open MigrateSecretUids (dropPrefix)

/-! ## Keys -/

/-- `/^SECRET#([^#]+)$/`. -/
def legacySecretId (pk : String) : Option String :=
  match dropPrefix "SECRET#" pk with
  | none => none
  | some rest => if rest = [] ∨ '#' ∈ rest then none else some (String.ofList rest)

/-- `/^SECRET#[^#]+#([^#]+)$/`. -/
def scopedSecretId (pk : String) : Option String :=
  match dropPrefix "SECRET#" pk with
  | none => none
  | some rest =>
      match rest.span (· ≠ '#') with
      | (environment, _ :: secretId) =>
          if environment = [] ∨ secretId = [] ∨ '#' ∈ secretId then none
          else some (String.ofList secretId)
      | (_, []) => none

def secretPk (environment secretId : String) : String :=
  "SECRET#" ++ environment ++ "#" ++ secretId

def accessSk (environment secretId : String) : String := secretPk environment secretId

def objectId (key versionId : String) : String := key ++ "\x00" ++ versionId

def requiredString (item : Item) (name : String) : Except String String :=
  match item.stringField name with
  | some value => .ok value
  | none => .error ("Record is missing required " ++ name ++ ".")

def requiredLegacySecretId (pk : String) : Except String String :=
  match legacySecretId pk with
  | some secretId => .ok secretId
  | none => .error ("Expected a legacy secret key, received " ++ pk ++ ".")

def isLegacySecretItem (item : Item) : Bool := (legacySecretId item.pk).isSome

def isLegacyAccessItem (item : Item) : Bool :=
  (dropPrefix "CONSUMER#" item.pk).isSome ∧ (legacySecretId item.sk).isSome

def isPendingNotification (item : Item) : Bool :=
  (dropPrefix "NOTIFICATION#" item.pk).isSome ∧ item.stringField "status" = some "PENDING"

/-! ## Environments -/

/-- What one row adds to the environments. -/
def addEnvironment (environments : Entries String) (item : Item) :
    Except String (Entries String) :=
  if item.sk ≠ "HEAD" then .ok environments
  else do
    let secretId ← requiredLegacySecretId item.pk
    let fieldSecretId ← requiredString item "secretId"
    if fieldSecretId ≠ secretId then
      .error ("HEAD secret ID does not match its primary key for " ++ secretId ++ ".")
    else
      let environment ← requiredString item "environment"
      if ∃ prior ∈ environments.lookup secretId, prior ≠ environment then
        .error ("Legacy secret " ++ secretId ++ " has conflicting environments.")
      else return environments.set secretId environment

def environmentByLegacySecretId (items : List Item) : Except String (Entries String) := do
  let environments ← items.foldlM addEnvironment []
  let secretIds ← items.mapM fun item => requiredLegacySecretId item.pk
  match secretIds.find? fun secretId => (environments.lookup secretId).isNone with
  | some secretId => .error ("Legacy secret " ++ secretId ++ " has no HEAD record.")
  | none => return environments

/-! ## Moves -/

structure SecretMove where
  source : Item
  secretId : String
  environment : String
  sourcePk : String
  targetPk : String
  deriving DecidableEq, Repr

structure AccessMove where
  source : Item
  secretId : String
  environment : String
  sourcePk : String
  sourceSk : String
  targetSk : String
  deriving DecidableEq, Repr

structure NotificationBackfill where
  eventId : String
  environment : String
  deriving DecidableEq, Repr

def secretMove (environments : Entries String) (source : Item) : Except String SecretMove := do
  let secretId ← requiredLegacySecretId source.pk
  match environments.lookup secretId with
  | none => .error ("No HEAD environment was found for legacy secret " ++ secretId ++ ".")
  | some environment =>
      return { source, secretId, environment, sourcePk := source.pk
               targetPk := secretPk environment secretId }

def accessMove (environments : Entries String) (source : Item) : Except String AccessMove := do
  let environment ← requiredString source "environment"
  let secretId ← requiredString source "secretId"
  if environments.lookup secretId ≠ some environment then
    .error ("Legacy consumer access does not match the HEAD environment for secret " ++
      secretId ++ ".")
  else
    return { source, secretId, environment, sourcePk := source.pk, sourceSk := source.sk
             targetSk := accessSk environment secretId }

def notificationBackfill (environments : Entries String) (item : Item) :
    Except String (Option NotificationBackfill) := do
  let eventId ← requiredString item "eventId"
  let secretId ← requiredString item "secretId"
  match environments.lookup secretId with
  | none => .error ("Pending notification " ++ eventId ++
      " refers to a secret without a HEAD record.")
  | some environment =>
      match item.stringField "environment" with
      | none => return some { eventId, environment }
      | some storedEnvironment =>
          if storedEnvironment ≠ environment then
            .error ("Pending notification " ++ eventId ++ " has a mismatched environment.")
          else return none

/-! ## Objects -/

structure ObjectCopy where
  sourceKey : String
  sourceVersionId : String
  destinationKey : String
  destinationVersionId : Option String
  deriving DecidableEq, Repr

/-- `/^[^/]+\.json$/`. -/
def isJsonName (name : List Char) : Bool :=
  '/' ∉ name ∧ 5 < name.length ∧ name.drop (name.length - 5) = ".json".toList

/-- `/^(control|payload)\/(ctl|pay)-[^/]+\.json$/`. -/
def isRevisionSuffix (suffix : List Char) : Bool :=
  ["control/ctl-", "control/pay-", "payload/ctl-", "payload/pay-"].any fun start =>
    start.toList.isPrefixOf suffix && isJsonName (suffix.drop start.length)

def addCopy (move : SecretMove) (sourceKey sourceVersionId : String)
    (copies : Entries ObjectCopy) : Except String (Entries ObjectCopy) :=
  match dropPrefix ("secrets/" ++ move.secretId ++ "/") sourceKey with
  | none => .error ("Immutable object " ++ sourceKey ++
      " is outside the legacy prefix for secret " ++ move.secretId ++ ".")
  | some suffix =>
      if ¬ isRevisionSuffix suffix then
        .error ("Unexpected legacy revision object key " ++ sourceKey ++ ".")
      else
        let sourceId := objectId sourceKey sourceVersionId
        let destinationKey :=
          "secrets/" ++ move.environment ++ "/" ++ move.secretId ++ "/" ++ String.ofList suffix
        match copies.lookup sourceId with
        | some prior =>
            if prior.destinationKey ≠ destinationKey then
              .error ("Object " ++ sourceKey ++ " is referenced by multiple environments.")
            else .ok copies
        | none => .ok (copies.set sourceId
            { sourceKey, sourceVersionId, destinationKey, destinationVersionId := none })

def addItemObjectCopy (move : SecretMove) (copies : Entries ObjectCopy) :
    Except String (Entries ObjectCopy) :=
  match move.source.stringField "objectKey", move.source.stringField "s3VersionId" with
  | none, none => .ok copies
  | some objectKey, some objectVersionId => addCopy move objectKey objectVersionId copies
  | _, _ => .error ("Secret " ++ move.secretId ++ " has an incomplete immutable object reference.")

/-- The object of a revision that a HEAD names by its id alone. -/
def headObjectKey (secretId kind revisionId : String) : String :=
  "secrets/" ++ secretId ++ "/" ++ kind ++ "/" ++ revisionId ++ ".json"

def addHeadObjectCopy (move : SecretMove) (kind revisionField objectVersionField : String)
    (copies : Entries ObjectCopy) : Except String (Entries ObjectCopy) :=
  match move.source.stringField revisionField, move.source.stringField objectVersionField with
  | none, none => .ok copies
  | some revisionId, some objectVersionId =>
      addCopy move (headObjectKey move.secretId kind revisionId) objectVersionId copies
  | _, _ => .error ("HEAD for secret " ++ move.secretId ++ " has an incomplete " ++ kind ++
      " object reference.")

def addHeadObjectCopies (move : SecretMove) (copies : Entries ObjectCopy) :
    Except String (Entries ObjectCopy) :=
  if move.source.sk ≠ "HEAD" then .ok copies
  else do
    let copies ← addHeadObjectCopy move "control" "controlVersionId" "controlObjectVersionId" copies
    addHeadObjectCopy move "payload" "payloadVersionId" "payloadObjectVersionId" copies

/-- What one move adds to the copies. -/
def addCopies (copies : Entries ObjectCopy) (move : SecretMove) :
    Except String (Entries ObjectCopy) := do
  let copies ← addItemObjectCopy move copies
  addHeadObjectCopies move copies

/-! ## The plan -/

structure MigrationPlan where
  secretMoves : List SecretMove
  accessMoves : List AccessMove
  copies : List ObjectCopy
  pendingNotifications : ℕ
  notificationBackfills : List NotificationBackfill
  deriving DecidableEq, Repr

def buildPlan (items : List Item) : Except String MigrationPlan :=
  let legacySecretItems := items.filter isLegacySecretItem
  let legacyAccessItems := items.filter isLegacyAccessItem
  let pending := items.filter isPendingNotification
  if legacySecretItems.length = 0 then
    if legacyAccessItems.length ≠ 0 then
      .error "Found legacy consumer access records without legacy secret records."
    else
      .ok { secretMoves := [], accessMoves := [], copies := []
            pendingNotifications := pending.length, notificationBackfills := [] }
  else do
    let environmentsBySecretId ← environmentByLegacySecretId legacySecretItems
    let secretMoves ← legacySecretItems.mapM (secretMove environmentsBySecretId)
    if items.any fun item => (scopedSecretId item.pk).isSome ∧
        item.pk ∉ secretMoves.map SecretMove.targetPk then
      .error "Found scoped secret records that do not belong to this legacy migration."
    else
      let accessMoves ← legacyAccessItems.mapM (accessMove environmentsBySecretId)
      let notificationBackfills ← pending.mapM (notificationBackfill environmentsBySecretId)
      let copiesBySource ← secretMoves.foldlM addCopies []
      return { secretMoves, accessMoves, copies := copiesBySource.map Prod.snd
               pendingNotifications := pending.length
               notificationBackfills := notificationBackfills.reduceOption }

/-! ## Copying objects -/

structure ObjectVersion where
  versionId : String
  checksumSHA256 : Option String
  contentLength : Option ℕ
  deriving DecidableEq, Repr

abbrev Bucket := String → List ObjectVersion

def headVersion (bucket : Bucket) (key versionId : String) : Option ObjectVersion :=
  (bucket key).find? (·.versionId = versionId)

def headObject (bucket : Bucket) (key : String) : Option ObjectVersion := (bucket key).head?

variable (copyVersionId : String → String)

/-- The version that `CopyObject` makes under a key. -/
def copied (source : ObjectVersion) (key : String) : ObjectVersion :=
  { source with versionId := copyVersionId key }

def putVersion (bucket : Bucket) (key : String) (version : ObjectVersion) : Bucket :=
  fun other => if other = key then version :: bucket key else bucket other

def ensureCopied (copy : ObjectCopy) (bucket : Bucket) : Except String (ObjectCopy × Bucket) :=
  match headVersion bucket copy.sourceKey copy.sourceVersionId with
  | none => .error "NotFound"
  | some source =>
      if source.checksumSHA256 = none ∨ source.contentLength = none then
        .error ("Source object " ++ copy.sourceKey ++ " is missing integrity metadata.")
      else
        match headObject bucket copy.destinationKey with
        | some existing =>
            if existing.checksumSHA256 ≠ source.checksumSHA256 ∨
                existing.contentLength ≠ source.contentLength then
              .error ("Destination object " ++ copy.destinationKey ++
                " already exists with different contents.")
            else .ok ({ copy with destinationVersionId := some existing.versionId }, bucket)
        | none =>
            let destination := copied copyVersionId source copy.destinationKey
            if destination.checksumSHA256 ≠ source.checksumSHA256 ∨
                destination.contentLength ≠ source.contentLength then
              .error ("Copied object " ++ copy.destinationKey ++
                " failed integrity verification.")
            else .ok ({ copy with destinationVersionId := some destination.versionId },
              putVersion bucket copy.destinationKey destination)

/-! ## Moving rows -/

def requiredCopy (copies : List ObjectCopy) (sourceKey sourceVersionId : String) :
    Except String ObjectCopy :=
  match copies.find? fun candidate =>
      candidate.sourceKey = sourceKey ∧ candidate.sourceVersionId = sourceVersionId with
  | some copy => .ok copy
  | none => .error ("No copy plan exists for " ++ sourceKey ++ ".")

def requiredDestinationVersionId (copy : ObjectCopy) : Except String String :=
  match copy.destinationVersionId with
  | some versionId => .ok versionId
  | none => .error ("No destination version exists for " ++ copy.destinationKey ++ ".")

/-- The key and the version that take the place of an object's. -/
def destination (copies : List ObjectCopy) (sourceKey sourceVersionId : String) :
    Except String (String × String) := do
  let copy ← requiredCopy copies sourceKey sourceVersionId
  let versionId ← requiredDestinationVersionId copy
  return (copy.destinationKey, versionId)

section References

-- Where an object of a given key and version is after the copies.
variable (destinationOf : String → String → Except String (String × String))

def updateRecordObjectReference (item : Item) (keyField versionField : String) :
    Except String Item :=
  match item.stringField keyField, item.stringField versionField with
  | none, none => .ok item
  | some key, some version => do
      let (key, version) ← destinationOf key version
      return (item.set keyField (.string key)).set versionField (.string version)
  | _, _ => .error "Record has an incomplete immutable object reference."

def updateHeadObjectReference (item : Item) (secretId kind revisionField versionField : String) :
    Except String Item :=
  match item.stringField revisionField, item.stringField versionField with
  | none, none => .ok item
  | some revisionId, some version => do
      let (_, version) ← destinationOf (headObjectKey secretId kind revisionId) version
      return item.set versionField (.string version)
  | _, _ => .error ("HEAD has an incomplete " ++ kind ++ " object reference.")

/-- The revision index follows the row. -/
def updateRevisionPk (move : SecretMove) (target : Item) : Except String Item :=
  match target.stringField "revisionPk" with
  | none => .ok target
  | some revisionPk =>
      if revisionPk ≠ move.sourcePk then
        .error ("Unexpected revision index partition key for " ++ move.secretId ++ ".")
      else .ok (target.set "revisionPk" (.string move.targetPk))

def migratedSecretItem (move : SecretMove) : Except String Item := do
  let target ← updateRevisionPk move
    { move.source with key := { pk := move.targetPk, sk := move.source.sk } }
  let target ← updateRecordObjectReference destinationOf target "objectKey" "s3VersionId"
  if target.sk = "HEAD" then do
    let target ← updateHeadObjectReference destinationOf target move.secretId "control"
      "controlVersionId" "controlObjectVersionId"
    updateHeadObjectReference destinationOf target move.secretId "payload" "payloadVersionId"
      "payloadObjectVersionId"
  else return target

end References

mutual

/-- `isDeepStrictEqual`: the order of fields does not count. -/
def deepStrictEqual : Value → Value → Bool
  | .string text, .string text' => text = text'
  | .list values, .list values' => deepStrictEqualAll values values'
  | .map fields, .map fields' =>
      fields.length = fields'.length && deepStrictEqualIn fields fields'
  | .other literal, .other literal' => literal = literal'
  | _, _ => false

def deepStrictEqualAll : List Value → List Value → Bool
  | [], [] => true
  | value :: values, value' :: values' =>
      deepStrictEqual value value' && deepStrictEqualAll values values'
  | _, _ => false

def deepStrictEqualIn : List (String × Value) → List (String × Value) → Bool
  | [], _ => true
  | (name, value) :: fields, fields' =>
      (match fields'.lookup name with
        | some value' => deepStrictEqual value value'
        | none => false) && deepStrictEqualIn fields fields'

end

/-- A row put under one key and deleted under another, in one transaction. -/
def moveRow (sourceKey targetKey : Key) (target : Item) (table : Table) : Table := fun key =>
  if key = targetKey then some target else if key = sourceKey then none else table key

def moveItem (sourceKey targetKey : Key) (target : Item) (table : Table) : Except String Table :=
  match table sourceKey, table targetKey with
  | none, some found =>
      if found.key = target.key ∧
          deepStrictEqual (.map found.attributes) (.map target.attributes) then .ok table
      else .error ("Source record " ++ sourceKey.pk ++ "/" ++ sourceKey.sk ++ " is missing.")
  | none, none =>
      .error ("Source record " ++ sourceKey.pk ++ "/" ++ sourceKey.sk ++ " is missing.")
  | some _, some _ =>
      .error ("Target record " ++ targetKey.pk ++ "/" ++ targetKey.sk ++ " already exists.")
  | some _, none => .ok (moveRow sourceKey targetKey target table)

def moveSecretItem (move : SecretMove) (copies : List ObjectCopy) (table : Table) :
    Except String Table := do
  let target ← migratedSecretItem (destination copies) move
  moveItem { pk := move.sourcePk, sk := move.source.sk } { pk := move.targetPk, sk := move.source.sk }
    target table

def moveAccessItem (move : AccessMove) (table : Table) : Except String Table :=
  moveItem { pk := move.sourcePk, sk := move.sourceSk } { pk := move.sourcePk, sk := move.targetSk }
    { move.source with key := { pk := move.source.pk, sk := move.targetSk } } table

def notificationKey (eventId : String) : Key := { pk := "NOTIFICATION#" ++ eventId, sk := "EVENT" }

def backfillNotificationEnvironment (backfill : NotificationBackfill) (table : Table) :
    Except String Table :=
  let key := notificationKey backfill.eventId
  match table key with
  | none => .error "The conditional request failed"
  | some item =>
      if ∃ stored ∈ item.attributes.lookup "environment",
          stored ≠ .string backfill.environment then
        .error "The conditional request failed"
      else .ok fun other =>
        if other = key then some (item.set "environment" (.string backfill.environment))
        else table other

/-! ## The run -/

/-- What the run has done so far. -/
structure Progress where
  table : Table
  bucket : Bucket
  -- The copies whose destination is known.
  copies : List ObjectCopy

inductive Step
  | copy (object : ObjectCopy)
  | secret (move : SecretMove)
  | access (move : AccessMove)
  | notification (backfill : NotificationBackfill)
  deriving DecidableEq, Repr

def Step.perform (progress : Progress) : Step → Except String Progress
  | .copy object => do
      let (object, bucket) ← ensureCopied copyVersionId object progress.bucket
      return { progress with bucket, copies := progress.copies ++ [object] }
  | .secret move => do
      let table ← moveSecretItem move progress.copies progress.table
      return { progress with table }
  | .access move => do
      let table ← moveAccessItem move progress.table
      return { progress with table }
  | .notification backfill => do
      let table ← backfillNotificationEnvironment backfill progress.table
      return { progress with table }

def isHead (move : SecretMove) : Bool := move.source.sk = "HEAD"

/-- `Number(left.source.sk === "HEAD") - Number(right.source.sk === "HEAD")`: heads come last. -/
def MigrationPlan.orderedSecretMoves (plan : MigrationPlan) : List SecretMove :=
  plan.secretMoves.mergeSort fun left right => !isHead left || isHead right

def MigrationPlan.steps (plan : MigrationPlan) : List Step :=
  if plan.secretMoves.length = 0 then []
  else plan.copies.map .copy ++ plan.orderedSecretMoves.map .secret ++
    plan.accessMoves.map .access ++ plan.notificationBackfills.map .notification

def verifyMigration (copies : List ObjectCopy) (bucket : Bucket) (items : List Item) :
    Except String Unit := do
  copies.forM fun copy => do
    let versionId ← requiredDestinationVersionId copy
    match headVersion bucket copy.destinationKey versionId with
    | none => .error "NotFound"
    | some destination =>
        if destination.checksumSHA256 = none then
          .error ("Destination object " ++ copy.destinationKey ++ " has no checksum.")
        else return ()
  let legacySecretItems := items.filter isLegacySecretItem
  let legacyAccessItems := items.filter isLegacyAccessItem
  if legacySecretItems.length ≠ 0 ∨ legacyAccessItems.length ≠ 0 then
    .error ("Verification found " ++ toString legacySecretItems.length ++
      " legacy secret item(s) and " ++ toString legacyAccessItems.length ++
      " legacy access item(s).")
  else
    let pendingWithoutEnvironment := items.filter fun item =>
      isPendingNotification item ∧ item.stringField "environment" = none
    if pendingWithoutEnvironment.length ≠ 0 then
      .error ("Verification found " ++ toString pendingWithoutEnvironment.length ++
        " pending notification(s) without an environment.")
    else return ()

/-- The run that reads `items` when it starts, and ends after some of its steps. -/
def interrupted (items : List Item) (count : ℕ) (table : Table) (bucket : Bucket) :
    Except String Progress := do
  let plan ← buildPlan items
  (plan.steps.take count).foldlM (Step.perform copyVersionId) { table, bucket, copies := [] }

/-- The run that reads `items` when it starts, and `rows` when it verifies what it did. -/
def run (items rows : List Item) (table : Table) (bucket : Bucket) : Except String Progress := do
  let plan ← buildPlan items
  let progress ←
    plan.steps.foldlM (Step.perform copyVersionId) { table, bucket, copies := [] }
  if plan.secretMoves.length ≠ 0 then verifyMigration progress.copies progress.bucket rows
  return progress

end Hemlig.Scripts.MigrateSecretIdentity
