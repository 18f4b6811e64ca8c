import Hemlig.Domain.Errors
import Hemlig.Domain.Types
import Mathlib.Data.List.Basic
import Mathlib.Data.List.Sort

/-!
# Validation

The grammars of `src/domain/validation.ts` that guard the modelled operations,
and the parser of an ACL.
-/

namespace Hemlig

/-- `[a-z]`. -/
def isLower (c : Char) : Bool := 'a' ≤ c && c ≤ 'z'

/-- `[a-z0-9-]`. -/
def isIdentifierChar (c : Char) : Bool := isLower c || ('0' ≤ c && c ≤ '9') || c == '-'

/-- A letter and between `least` and `most` more identifier characters. -/
def isName (least most : ℕ) : List Char → Bool
  | [] => false
  | c :: rest =>
      isLower c && least ≤ rest.length && rest.length ≤ most && rest.all isIdentifierChar

/-- `/^[a-z][a-z0-9-]{2,63}$/`. -/
def identifier (value : String) : Bool := isName 2 63 value.toList

theorem all_of_isName {least most : ℕ} {part : List Char} (h : isName least most part = true) :
    ∀ c ∈ part, isIdentifierChar c = true := by
  cases part with
  | nil => cases h
  | cons c rest =>
      simp only [isName, Bool.and_eq_true] at h
      obtain ⟨⟨⟨hfirst, -⟩, -⟩, hrest⟩ := h
      have hidentifier : isIdentifierChar c = true := by
        unfold isIdentifierChar
        rw [hfirst]
        rfl
      exact List.forall_mem_cons.mpr ⟨hidentifier, List.all_eq_true.mp hrest⟩

/-- Identifiers separated by slashes. -/
def secretIdentifier (value : String) : Bool :=
  (value.toList.splitOn '/').all (isName 2 63)

/-- `/^[a-z][a-z0-9-]{0,63}$/`. -/
def environmentName (value : String) : Bool := isName 0 63 value.toList

def maximumAclGrants : ℕ := 40

def assertIdentifier (value field : String) : Except ApiError Unit :=
  if identifier value then .ok ()
  else .error (badRequest
    (field ++ " must be 3-64 lowercase letters, numbers, or hyphens and start with a letter."))

def assertSecretIdentifier (value field : String) : Except ApiError Unit :=
  if value.length > 256 || !secretIdentifier value then
    .error (badRequest (field ++ " must be slash-delimited lowercase identifiers " ++
      "(3-64 characters per segment), with no leading, trailing, or repeated slash."))
  else .ok ()

def assertEnvironmentName (value : String) : Except ApiError Unit :=
  if environmentName value then .ok ()
  else .error (badRequest
    "environment must be 1-64 lowercase letters, numbers, or hyphens and start with a letter.")

/-- One ACL entry of a request, before it is parsed. -/
structure RawGrant where
  consumerId : String
  permissions : List String
  deriving DecidableEq, Repr

/-- The entries of an ACL, `seen` being the consumers already named. -/
def parseGrants.entries (seen : List String) : List RawGrant → Except ApiError (List Grant)
  | [] => .ok []
  | grant :: rest => do
      assertIdentifier grant.consumerId "acl.consumerId"
      if grant.consumerId ∈ seen then
        .error (badRequest "acl contains a duplicate consumerId.")
      else if grant.permissions ≠ ["read"] then
        .error (badRequest "Only the read permission is supported.")
      else
        (entries (grant.consumerId :: seen) rest).map (⟨grant.consumerId, [.read]⟩ :: ·)

def parseGrants (value : List RawGrant) : Except ApiError (List Grant) :=
  if value.length > maximumAclGrants then
    .error (badRequest ("acl must contain between zero and " ++ toString maximumAclGrants ++
      " grants."))
  else parseGrants.entries [] value

/-! ## Agent grants -/

def parseCapability : String → Except ApiError AgentCapability
  | "read" => .ok .read
  | "write" => .ok .write
  | _ => .error (badRequest "capabilities must contain read and/or write.")

/-- `read` before `write`. -/
def AgentCapability.before : AgentCapability → AgentCapability → Bool
  | .write, .read => false
  | _, _ => true

def parseAgentCapabilities (value : List String) (allowEmpty : Bool) :
    Except ApiError (List AgentCapability) := do
  if (!allowEmpty && value.isEmpty) || value.length > 2 then
    .error (badRequest "capabilities must contain read and/or write.")
  else
    let capabilities ← value.mapM parseCapability
    if ¬ capabilities.Nodup then
      .error (badRequest "capabilities must not contain duplicates.")
    else return capabilities.insertionSort fun left right => left.before right = true

/-! ## Well-formed ACLs -/

/-- An ACL names each consumer once and only lets it read. -/
structure WellFormedAcl (acl : List Grant) : Prop where
  nodup : (acl.map Grant.consumerId).Nodup
  read : ∀ grant ∈ acl, grant.permissions = [.read]

theorem WellFormedAcl.nil : WellFormedAcl [] := ⟨by simp, by simp⟩

theorem WellFormedAcl.cons {consumerId : String} {acl : List Grant} (h : WellFormedAcl acl)
    (hnew : consumerId ∉ acl.map Grant.consumerId) :
    WellFormedAcl (⟨consumerId, [.read]⟩ :: acl) where
  nodup := List.nodup_cons.mpr ⟨hnew, h.nodup⟩
  read grant hgrant := by
    rcases List.mem_cons.mp hgrant with rfl | hgrant
    · rfl
    · exact h.read grant hgrant

theorem WellFormedAcl.filter {acl : List Grant} (h : WellFormedAcl acl) (keep : Grant → Bool) :
    WellFormedAcl (acl.filter keep) where
  nodup := h.nodup.sublist ((List.filter_sublist (p := keep)).map Grant.consumerId)
  read grant hgrant := h.read grant (List.mem_of_mem_filter hgrant)

theorem WellFormedAcl.concat {consumerId : String} {acl : List Grant} (h : WellFormedAcl acl)
    (hnew : consumerId ∉ acl.map Grant.consumerId) :
    WellFormedAcl (acl ++ [⟨consumerId, [.read]⟩]) where
  nodup := by
    rw [List.map_append, List.nodup_append]
    refine ⟨h.nodup, by simp, fun x hx y hy hxy => hnew ?_⟩
    simp only [List.map_cons, List.map_nil, List.mem_singleton] at hy
    exact hy ▸ hxy ▸ hx
  read grant hgrant := by
    rcases List.mem_append.mp hgrant with hgrant | hgrant
    · exact h.read grant hgrant
    · rw [List.mem_singleton.mp hgrant]

theorem parseGrants.entries_ok {seen : List String} {value : List RawGrant} {acl : List Grant}
    (h : parseGrants.entries seen value = .ok acl) :
    WellFormedAcl acl ∧ ∀ grant ∈ acl, grant.consumerId ∉ seen := by
  induction value generalizing seen acl with
  | nil =>
      obtain rfl : acl = [] := by simpa [parseGrants.entries] using h.symm
      exact ⟨.nil, by simp⟩
  | cons grant rest ih =>
      simp only [parseGrants.entries, bind, Except.bind] at h
      split at h
      · simp at h
      split at h
      · simp at h
      split at h
      · simp at h
      rename_i hseen _
      cases hrest : parseGrants.entries (grant.consumerId :: seen) rest with
      | error error => simp [hrest, Except.map] at h
      | ok parsed =>
          obtain rfl : acl = ⟨grant.consumerId, [.read]⟩ :: parsed := by
            simpa [hrest, Except.map] using h.symm
          obtain ⟨hparsed, hunseen⟩ := ih hrest
          refine ⟨hparsed.cons fun hmem => ?_, fun entry hentry => ?_⟩
          · obtain ⟨entry, hentry, heq⟩ := List.mem_map.mp hmem
            exact hunseen entry hentry (by simp [heq])
          · rcases List.mem_cons.mp hentry with rfl | hentry
            · exact hseen
            · exact fun hmem => hunseen entry hentry (List.mem_cons_of_mem _ hmem)

/-- **Every parsed ACL is well formed.** -/
theorem parseGrants_ok {value : List RawGrant} {acl : List Grant}
    (h : parseGrants value = .ok acl) : WellFormedAcl acl := by
  unfold parseGrants at h
  split at h
  · simp at h
  · exact (parseGrants.entries_ok h).1

/-! ## The length of an ACL -/

theorem parseGrants.length_entries {seen : List String} {value : List RawGrant} {acl : List Grant}
    (h : parseGrants.entries seen value = .ok acl) : acl.length = value.length := by
  induction value generalizing seen acl with
  | nil =>
      obtain rfl : acl = [] := by simpa [parseGrants.entries] using h.symm
      rfl
  | cons grant rest ih =>
      simp only [parseGrants.entries, bind, Except.bind] at h
      repeat' split at h
      all_goals try (simp at h; done)
      cases hrest : parseGrants.entries (grant.consumerId :: seen) rest with
      | error error => simp [hrest, Except.map] at h
      | ok parsed =>
          obtain rfl : acl = ⟨grant.consumerId, [.read]⟩ :: parsed := by
            simpa [hrest, Except.map] using h.symm
          rw [List.length_cons, List.length_cons, ih hrest]

theorem length_le_of_parseGrants {value : List RawGrant} {acl : List Grant}
    (h : parseGrants value = .ok acl) : acl.length ≤ maximumAclGrants := by
  unfold parseGrants at h
  split at h
  · simp at h
  · rw [parseGrants.length_entries h]
    omega

end Hemlig
