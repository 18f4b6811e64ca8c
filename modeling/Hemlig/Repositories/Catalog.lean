import Hemlig.Domain.Tags
import Hemlig.Paging.Query
import Hemlig.Paging.Tally
import Hemlig.Repositories.Dynamo

/-!
# The catalog

The listings of `src/repositories/dynamo.ts`.  The heads of a partition stand in an index whose
sort key begins with the folder of the secret; a listing asks for the keys that begin with a path.
A query evaluates the rows of the range in pages and filters what it evaluated.
-/

namespace Hemlig

open Paging

/-- The index holds every head once, under keys that follow from the head. -/
structure Catalog where
  heads : List HeadRecord
  nodup : (heads.map HeadRecord.secretUid).Nodup
  ids : ∀ head ∈ heads, head.secretId.length ≤ 256 ∧ secretIdentifier head.secretId = true
  partitionKeys : ∀ head ∈ heads,
    head.catalogPk = catalogPkFor head.environment (head.state = .archived)
  sortKeys : ∀ head ∈ heads, head.catalogSk = catalogSk head.secretId
  tags : ∀ head ∈ heads, head.catalogTags = head.metadata.tags.getD []
  tagKeys : ∀ head ∈ heads, (head.catalogTags.map Prod.fst).Nodup

/-- A row of the index: its key there, and the one of the head. -/
structure CatalogKey where
  catalogPk : String
  catalogSk : String
  secretUid : String
  deriving DecidableEq, Repr

def HeadRecord.catalogKey (head : HeadRecord) : CatalogKey where
  catalogPk := head.catalogPk
  catalogSk := head.catalogSk
  secretUid := head.secretUid

/-- A page of heads; the cursor is the key of the last evaluated row. -/
structure CatalogPage where
  secrets : List HeadRecord
  nextCursor : Option CatalogKey

structure SecretTreeFolder where
  segment : String
  path : String
  secretCount : ℕ
  deriving DecidableEq, Repr

structure SecretTreePage where
  folders : List SecretTreeFolder
  secrets : List HeadRecord
  truncated : Bool

def maximumBoundedScan : ℕ := 500

def catalogPathPrefix : Option String → String
  | none => "PATH#"
  | some path => "PATH#" ++ path ++ "/"

/-- `catalogPk = :catalogPk AND begins_with(catalogSk, :pathPrefix)`. -/
def catalogCondition (environment : String) (pathPrefix : Option String) (archived : Bool)
    (head : HeadRecord) : Bool :=
  head.catalogPk = catalogPkFor environment archived &&
    (catalogPathPrefix pathPrefix).toList.isPrefixOf head.catalogSk.toList

/-- `#workflowState = :ready`, and each tag has its value. -/
def catalogFilter (tags : List (String × String)) (head : HeadRecord) : Bool :=
  head.workflowState = .ready &&
    tags.all fun tag => head.catalogTags.lookup tag.1 = some tag.2

/-- The immediate child segment of a path below another. -/
def childSegment (path : String) : Option String → Option String
  | none => some (String.ofList (path.toList.takeWhile (· ≠ '/')))
  | some pathPrefix =>
      if (pathPrefix ++ "/").toList.isPrefixOf path.toList then
        some (String.ofList
          ((path.toList.drop (pathPrefix.length + 1)).takeWhile (· ≠ '/')))
      else none

section Listings

variable (catalog : Catalog) (environment : String) (pathPrefix : Option String)

def listSecrets (tags : List (String × String)) (exclusiveStartKey : Option CatalogKey)
    (archived : Bool) (cut : Cut) : CatalogPage :=
  let response := query HeadRecord.catalogKey
    (catalog.heads.filter (catalogCondition environment pathPrefix archived))
    (catalogFilter tags) 100 exclusiveStartKey cut
  { secrets := response.items, nextCursor := response.lastEvaluated }

/-- The folder below the listed path in which a secret is counted. -/
def treeSegment (item : HeadRecord) : Option String :=
  if secretFolderPath item.secretId = pathPrefix then none
  else (secretFolderPath item.secretId).bind fun path => childSegment path pathPrefix

def treePath (segment : String) : String :=
  match pathPrefix with
  | none => segment
  | some path => path ++ "/" ++ segment

def listSecretTree (localeBefore : String → String → Bool) (archived : Bool) (cut : Cut) :
    SecretTreePage :=
  let response := query HeadRecord.catalogKey
    (catalog.heads.filter (catalogCondition environment pathPrefix archived))
    (catalogFilter []) (maximumBoundedScan + 1) none cut
  let truncated := maximumBoundedScan < response.items.length ∨ response.lastEvaluated.isSome
  let bounded := response.items.take maximumBoundedScan
  let secrets := bounded.filter fun item => secretFolderPath item.secretId = pathPrefix
  let folders := (tally (bounded.filterMap (treeSegment pathPrefix))).map fun entry =>
    { segment := entry.1, path := treePath pathPrefix entry.1, secretCount := entry.2 }
  { folders := folders.mergeSort fun left right => localeBefore left.segment right.segment
    secrets := secrets.mergeSort fun left right => localeBefore left.secretId right.secretId
    truncated }

end Listings

end Hemlig
