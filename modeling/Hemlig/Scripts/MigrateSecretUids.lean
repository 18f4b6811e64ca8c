import Hemlig.Domain.Types
import Hemlig.Scripts.Item
import Hemlig.Store.Rewrite

/-!
# Migrating secrets to their UIDs

`src/scripts/migrate-secret-uids.ts`: the rows of a secret, kept under its environment and its
id, are moved under a UID that is derived from both, the rows of a consumer's access with them;
the scopes of the agent grants become exact pairs of ids and UIDs.

The digest that UIDs are derived from is a parameter.  `localeCompare` is the order of texts.
-/

namespace Hemlig.Scripts.MigrateSecretUids

open Store (Rewrite)

variable (sha256Hex : String → String)

/-! ## Keys -/

structure Name where
  environment : String
  secretId : String
  deriving DecidableEq, Repr

structure SecretIdentity where
  environment : String
  secretId : String
  secretUid : String
  deriving DecidableEq, Repr

/-- `hash.slice(start, finish)`. -/
def slice (start finish : ℕ) (hash : String) : String :=
  String.ofList ((hash.toList.take finish).drop start)

def deterministicSecretUid (environment secretId : String) : String :=
  let hash := sha256Hex ("hemlig:secret-uid:v1:" ++ environment ++ "\x00" ++ secretId)
  "sec-" ++ slice 0 8 hash ++ "-" ++ slice 8 12 hash ++ "-" ++ slice 12 16 hash ++ "-" ++
    slice 16 20 hash ++ "-" ++ slice 20 32 hash

/-- The part of a text after a prefix. -/
def dropPrefix (start : String) (text : String) : Option (List Char) :=
  if start.toList.isPrefixOf text.toList then some (text.toList.drop start.toList.length) else none

def legacySecretPk (pk : String) : Option Name :=
  match dropPrefix "SECRET#" pk with
  | none => none
  | some rest =>
      match rest.span (· ≠ '#') with
      | (environment, _ :: secretId) =>
          if environment = [] ∨ secretId = [] then none
          else some { environment := String.ofList environment, secretId := String.ofList secretId }
      | (_, []) => none

def legacyAccessSk (sk : String) : Option Name := legacySecretPk sk

def secretPk (secretUid : String) : String := "SECRET#" ++ secretUid

def secretNamePk (environment secretId : String) : String :=
  "SECRET_NAME#" ++ environment ++ "#" ++ secretId

def accessSk (environment secretUid : String) : String :=
  "SECRET#" ++ environment ++ "#" ++ secretUid

def legacyControlKey (environment secretId versionId : String) : String :=
  "secrets/" ++ environment ++ "/" ++ secretId ++ "/control/" ++ versionId ++ ".json"

def legacyPayloadKey (environment secretId versionId : String) : String :=
  "secrets/" ++ environment ++ "/" ++ secretId ++ "/payload/" ++ versionId ++ ".json"

def nameKey (environment secretId : String) : String := environment ++ "\x00" ++ secretId

/-! ## Identities -/

/-- What one row adds to the identities. -/
def collectIdentity (identities : Entries SecretIdentity) (item : Item) :
    Except String (Entries SecretIdentity) :=
  if item.sk ≠ "HEAD" ∨ item.stringField "state" = some "ARCHIVED" then .ok identities
  else
    match item.stringField "environment", item.stringField "secretId" with
    | some environment, some secretId =>
        if ∃ legacy ∈ legacySecretPk item.pk,
            legacy.environment ≠ environment ∨ legacy.secretId ≠ secretId then
          .error ("Legacy HEAD " ++ item.pk ++ " disagrees with its stored identity.")
        else
          let secretUid := (item.stringField "secretUid").getD
            (deterministicSecretUid sha256Hex environment secretId)
          let key := nameKey environment secretId
          if ∃ prior ∈ identities.lookup key, prior.secretUid ≠ secretUid then
            .error ("Secret " ++ environment ++ "/" ++ secretId ++ " has conflicting UIDs.")
          else .ok (identities.set key { environment, secretId, secretUid })
    | _, _ => .ok identities

/-- The identities of the secrets that are not archived, under their names. -/
def collectSecretIdentities (items : List Item) : Except String (Entries SecretIdentity) :=
  items.foldlM (collectIdentity sha256Hex) []

/-! ## Rows of secrets -/

structure SecretMove where
  source : Item
  target : Item
  sourceKey : Key
  secretUid : String
  deriving DecidableEq, Repr

structure AccessMove where
  source : Item
  target : Item
  sourceKey : Key
  deriving DecidableEq, Repr

def addHeadObjectKeys (item : Item) (identity : SecretIdentity) : Except String Item :=
  let missing := "HEAD " ++ identity.environment ++ "/" ++ identity.secretId ++
    " has no immutable control object reference."
  match item.stringField "controlVersionId", item.stringField "controlObjectVersionId" with
  | none, _ => .error missing
  | some _, none =>
      if item.attributes.lookup "workflowState" = some (.string "PREPARED") then .ok item
      else .error missing
  | some controlVersionId, some _ =>
      let item := item.set "controlObjectKey" (.string ((item.stringField "controlObjectKey").getD
        (legacyControlKey identity.environment identity.secretId controlVersionId)))
      match item.stringField "payloadVersionId", item.stringField "payloadObjectVersionId" with
      | none, none => .ok item
      | some payloadVersionId, some _ =>
          .ok (item.set "payloadObjectKey" (.string ((item.stringField "payloadObjectKey").getD
            (legacyPayloadKey identity.environment identity.secretId payloadVersionId))))
      | _, _ => .error ("HEAD " ++ identity.environment ++ "/" ++ identity.secretId ++
          " has an incomplete immutable payload reference.")

/-- The document of a revision row names the secret's UID. -/
def setSerializedUid (item : Item) (secretUid : String) : Item :=
  match item.attributes.objectField "serialized" with
  | some serialized => item.set "serialized" (.map (serialized.set "secretUid" (.string secretUid)))
  | none => item

/-- What is changed in a head. -/
def migratedHead (item : Item) (identity : SecretIdentity) : Except String Item :=
  if item.sk = "HEAD" then addHeadObjectKeys item identity else .ok item

/-- What is changed in the row of a control revision. -/
def migratedControl (item : Item) (secretUid : String) : Item :=
  if dropPrefix "CONTROL#" item.sk = none then item
  else setSerializedUid (item.set "revisionPk" (.string (secretPk secretUid))) secretUid

/-- What is changed in the row of a payload. -/
def migratedPayload (item : Item) (secretUid : String) : Item :=
  if dropPrefix "PAYLOAD#" item.sk = none then item else setSerializedUid item secretUid

def migratedSecretItem (source : Item) (identity : SecretIdentity) : Except String Item := do
  let item ← migratedHead
    { key := { pk := secretPk identity.secretUid, sk := source.sk }
      attributes := source.attributes.set "secretUid" (.string identity.secretUid) } identity
  let item := migratedPayload (migratedControl item identity.secretUid) identity.secretUid
  if legacySecretPk source.pk = none then
    .error ("Cannot migrate non-legacy secret record " ++ source.pk ++ "/" ++ source.sk ++ ".")
  else return item

def secretMove (identities : Entries SecretIdentity) (source : Item) :
    Except String (Option SecretMove) :=
  if source.stringField "secretUid" ≠ none then .ok none
  else
    match legacySecretPk source.pk with
    | none => .ok none
    | some parsed =>
        match identities.lookup (nameKey parsed.environment parsed.secretId) with
        | none => .error ("Legacy secret record " ++ parsed.environment ++ "/" ++ parsed.secretId ++
            " has no HEAD record.")
        | some identity => do
            let target ← migratedSecretItem source identity
            return some { source, target, sourceKey := source.key, secretUid := identity.secretUid }

def accessMove (identities : Entries SecretIdentity) (source : Item) :
    Except String (Option AccessMove) :=
  if source.stringField "secretUid" ≠ none then .ok none
  else
    match legacyAccessSk source.sk with
    | none => .ok none
    | some parsed =>
        if dropPrefix "CONSUMER#" source.pk = none then .ok none
        else
          match identities.lookup (nameKey parsed.environment parsed.secretId) with
          | none => .error ("Consumer access for " ++ parsed.environment ++ "/" ++
              parsed.secretId ++ " has no HEAD record.")
          | some identity => .ok (some
              { source
                target :=
                  { key := { pk := source.pk, sk := accessSk identity.environment identity.secretUid }
                    attributes :=
                      source.attributes.set "secretUid" (.string identity.secretUid) }
                sourceKey := source.key })

/-! ## Scopes of agent grants -/

structure MigratedAgentSecretGrant where
  secretId : String
  secretUid : String
  permissions : List AgentCapability
  deriving DecidableEq, Repr

structure AgentGrantUpdate where
  key : Key
  item : Item
  deriving DecidableEq, Repr

def capabilityName : AgentCapability → String
  | .read => "read"
  | .write => "write"

/-- Permissions without repetitions, in the order of their names. -/
def permissionsOf (read write : Bool) : List AgentCapability :=
  (if read then [.read] else []) ++ (if write then [.write] else [])

def sortGrants (grants : List MigratedAgentSecretGrant) : List MigratedAgentSecretGrant :=
  grants.mergeSort fun left right => left.secretId ≤ right.secretId

/-- An entry of `secretGrants`. -/
def canonicalEntry (grantPk : String) (value : Value) : Except String MigratedAgentSecretGrant :=
  let invalid := grantPk ++ " has an invalid secretGrants entry."
  match value with
  | .map entry =>
      let permissions := stringArray (entry.lookup "permissions")
      match Attributes.stringField entry "secretId", Attributes.stringField entry "secretUid" with
      | some secretId, some secretUid =>
          if permissions.length = 0 ∨ permissions.length > 2 ∨
              permissions.any (fun permission => permission ≠ "read" ∧ permission ≠ "write") then
            .error invalid
          else .ok
            { secretId
              secretUid
              permissions := permissionsOf ("read" ∈ permissions) ("write" ∈ permissions) }
      | _, _ => .error invalid
  | _ => .error invalid

def canonicalSecretGrants (item : Item) (grantPk : String) :
    Except String (Option (List MigratedAgentSecretGrant)) :=
  match item.attributes.lookup "secretGrants" with
  | none => .ok none
  | some (.list values) => do
      let grants ← values.mapM (canonicalEntry grantPk)
      if (grants.map MigratedAgentSecretGrant.secretId).Nodup then return some (sortGrants grants)
      else .error (grantPk ++ " has duplicate secretGrants secret IDs.")
  | some _ => .error (grantPk ++ " has an invalid secretGrants value.")

/-- The id is the prefix or lies below it. -/
def underPrefix (scopePrefix secretId : String) : Bool :=
  secretId = scopePrefix ∨ (scopePrefix ++ "/").toList.isPrefixOf secretId.toList

/-- The ids of an environment that a scope covers, in order. -/
def idsUnder (scope : List String) (environment : String) (identities : List SecretIdentity) :
    List String :=
  (((identities.filter (·.environment = environment)).map SecretIdentity.secretId).filter
    fun secretId => scope.any (underPrefix · secretId)).mergeSort (· ≤ ·)

def migrateScope (grantPk : String) (capability : AgentCapability) (enabled : Bool)
    (prefixes legacyPaths : Option Value) (environment : String)
    (identities : List SecretIdentity) : Except String (List String) :=
  if ¬ enabled then .ok []
  else
    match legacyPaths with
    | some (.list _) =>
        .error (grantPk ++ " uses unsupported legacy " ++ capabilityName capability ++
          "PathPrefixes.")
    | _ =>
        let scope := stringArray prefixes
        if scope.length = 0 then
          .error (grantPk ++ " has no " ++ capabilityName capability ++
            "SecretIdPrefixes to snapshot.")
        else .ok (idsUnder scope environment identities)

def secretIdsForGrant (item : Item) (grantPk : String) (capability : AgentCapability)
    (enabled : Bool) (environment : String) (identities : List SecretIdentity) :
    Except String (List String) :=
  let field := capabilityName capability ++ "SecretIds"
  match item.attributes.lookup field with
  | some (.list values) =>
      let ids := stringArray (some (.list values))
      if ids.length ≠ values.length then
        .error (grantPk ++ " has an invalid " ++ field ++ " array.")
      else .ok ids
  | _ =>
      migrateScope grantPk capability enabled
        (item.attributes.lookup (capabilityName capability ++ "SecretIdPrefixes"))
        (item.attributes.lookup (capabilityName capability ++ "PathPrefixes"))
        environment identities

/-- The pair of an id that may be read, written or both. -/
def pairGrant (grantPk environment : String) (identities : Entries SecretIdentity)
    (read write : List String) (secretId : String) : Except String MigratedAgentSecretGrant :=
  match identities.lookup (nameKey environment secretId) with
  | some identity => .ok
      { secretId
        secretUid := identity.secretUid
        permissions := permissionsOf (secretId ∈ read) (secretId ∈ write) }
  | none => .error (grantPk ++ " names secret " ++ environment ++ "/" ++ secretId ++
      ", which is not active during migration.")

/-- The pairs of the ids that may be read and of those that may be written. -/
def pairGrants (grantPk environment : String) (identities : Entries SecretIdentity)
    (read write : List String) : Except String (List MigratedAgentSecretGrant) := do
  let grants ← (read ++ write).eraseDups.mapM (pairGrant grantPk environment identities read write)
  return sortGrants grants

/-- An error is every issue that was found. -/
def migratedSecretGrants (item : Item) (grantPk environment : String)
    (identities : Entries SecretIdentity) :
    Except (List String) (List MigratedAgentSecretGrant) :=
  let capabilities := stringArray (item.attributes.lookup "capabilities")
  let scope (capability : AgentCapability) := secretIdsForGrant item grantPk capability
    (capabilityName capability ∈ capabilities) environment (identities.map Prod.snd)
  match scope .read, scope .write with
  | .ok read, .ok write => (pairGrants grantPk environment identities read write).mapError ([·])
  | .error issue, .ok _ => .error [issue]
  | .ok _, .error issue => .error [issue]
  | .error issue, .error issue' => .error [issue, issue']

def parallelScopeFields : List String :=
  ["readSecretIds", "readSecretUids", "writeSecretIds", "writeSecretUids"]

def legacyScopeFields : List String :=
  ["readSecretIdPrefixes", "writeSecretIdPrefixes", "readPathPrefixes", "writePathPrefixes"]

def hasParallelScopeFields (item : Item) : Bool := parallelScopeFields.any item.attributes.hasOwn

def hasLegacyScopeFields (item : Item) : Bool := legacyScopeFields.any item.attributes.hasOwn

def withoutLegacyAgentScopeFields (item : Item) : Item :=
  { item with attributes := item.attributes.without (parallelScopeFields ++ legacyScopeFields) }

/-- The value that a pair is stored as. -/
def grantValue (grant : MigratedAgentSecretGrant) : Value :=
  .map [("secretId", .string grant.secretId), ("secretUid", .string grant.secretUid),
    ("permissions", .list (grant.permissions.map fun permission =>
      .string (capabilityName permission)))]

def grantsValue (grants : List MigratedAgentSecretGrant) : Value := .list (grants.map grantValue)

def isAgentGrant (item : Item) : Bool :=
  (dropPrefix "AGENT_GRANT#" item.pk).isSome ∧ item.sk = "PROFILE"

def grantUpdate (item : Item) (grants : List MigratedAgentSecretGrant) : AgentGrantUpdate :=
  { key := item.key
    item := (withoutLegacyAgentScopeFields item).set "secretGrants" (grantsValue grants) }

/-- What is done with one row: the issues that were found, and the update. -/
def migrateAgentGrant (identities : Entries SecretIdentity) (item : Item) :
    List String × Option AgentGrantUpdate :=
  if ¬ isAgentGrant item then ([], none)
  else
    let migrated (issues : List String) : List String × Option AgentGrantUpdate :=
      match item.stringField "environment" with
      | none => (issues ++ [item.pk ++ " has no environment."], none)
      | some environment =>
          match migratedSecretGrants item item.pk environment identities with
          | .ok grants => (issues, some (grantUpdate item grants))
          | .error found => (issues ++ found, none)
    match canonicalSecretGrants item item.pk with
    | .error issue => migrated [issue]
    | .ok none => migrated []
    | .ok (some grants) =>
        if ¬ hasLegacyScopeFields item ∧ ¬ hasParallelScopeFields item then ([], none)
        else if item.stringField "environment" = none then
          ([item.pk ++ " has no environment."], none)
        else ([], some (grantUpdate item grants))

/-! ## The plan -/

structure Lookup where
  key : Key
  item : Item
  deriving DecidableEq, Repr

def lookupOf (identity : SecretIdentity) : Lookup :=
  let key : Key := { pk := secretNamePk identity.environment identity.secretId, sk := "LOOKUP" }
  { key
    item :=
      { key
        attributes := [("secretUid", .string identity.secretUid),
          ("secretId", .string identity.secretId),
          ("environment", .string identity.environment)] } }

structure SecretUidMigrationPlan where
  secretMoves : List SecretMove
  accessMoves : List AccessMove
  grantUpdates : List AgentGrantUpdate
  lookups : List Lookup
  issues : List String
  deriving DecidableEq, Repr

def buildSecretUidMigrationPlan (items : List Item) : Except String SecretUidMigrationPlan := do
  let identities ← collectSecretIdentities sha256Hex items
  let secretMoves ← items.mapM (secretMove identities)
  let accessMoves ← items.mapM (accessMove identities)
  let grants := items.map (migrateAgentGrant identities)
  return {
    secretMoves := secretMoves.reduceOption
    accessMoves := accessMoves.reduceOption
    grantUpdates := (grants.map Prod.snd).reduceOption
    lookups := (identities.map Prod.snd).map lookupOf
    issues := grants.flatMap Prod.fst }

/-! ## The run -/

/-- A write of the run: a row put and another deleted in one transaction, or a row put. -/
inductive Write
  | move (item : Item) (sourceKey : Key)
  | put (item : Item)
  deriving DecidableEq, Repr

def Write.rewrite : Write → Rewrite Key Item
  | .move item sourceKey => fun key =>
      if key = item.key then some (some item) else if key = sourceKey then some none else none
  | .put item => fun key => if key = item.key then some (some item) else none

/-- A transaction with two operations on one row is refused. -/
def Write.send (write : Write) (table : Table) : Except String Table :=
  match write with
  | .move item sourceKey =>
      if item.key = sourceKey then
        .error "Transaction request cannot include multiple operations on one item"
      else .ok (write.rewrite.apply table)
  | .put _ => .ok (write.rewrite.apply table)

def sendAll (writes : List Write) (table : Table) : Except String Table :=
  writes.foldlM (fun table write => write.send table) table

def SecretUidMigrationPlan.writes (plan : SecretUidMigrationPlan) : List Write :=
  plan.secretMoves.map (fun move => .move move.target move.sourceKey) ++
    plan.accessMoves.map (fun move => .move move.target move.sourceKey) ++
    plan.lookups.map (fun lookup => .put lookup.item) ++
    plan.grantUpdates.map (fun update => .put update.item)

/-- What the verification at the end of a run asks of the rows and of their plan. -/
def verified (items : List Item) (plan : SecretUidMigrationPlan) : Bool :=
  plan.secretMoves = [] ∧ plan.accessMoves = [] ∧ plan.grantUpdates = [] ∧ plan.issues = [] ∧
    ∀ lookup ∈ plan.lookups, lookup.key ∈ items.map Item.key

/-- A run that applies its plan and is stopped after some of its writes. -/
def Interrupted (table table' : Table) : Prop :=
  ∃ items plan count, Scan table items ∧ buildSecretUidMigrationPlan sha256Hex items = .ok plan ∧
    plan.issues = [] ∧ sendAll (plan.writes.take count) table = .ok table'

/-- A run to its end: it applies its plan, and what it then finds is verified. -/
def Completes (items : List Item) (table final : Table) : Prop :=
  ∃ plan, buildSecretUidMigrationPlan sha256Hex items = .ok plan ∧ plan.issues = [] ∧
    sendAll plan.writes table = .ok final ∧ (∃ items', Scan final items') ∧
    ∀ items', Scan final items' →
      ∃ plan', buildSecretUidMigrationPlan sha256Hex items' = .ok plan' ∧ verified items' plan'

end Hemlig.Scripts.MigrateSecretUids
