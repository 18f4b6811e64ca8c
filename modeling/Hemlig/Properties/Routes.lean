import Hemlig.Client.Paths
import Hemlig.Text.Segments

/-!
# Ids that end like a route

The handlers decode the whole path before they look for the suffix of a route.  So an id whose last
segment is the name of such a suffix is taken apart: what the client asks of that id is done to the
id without its last segment.  The operations that append a suffix of their own are safe, since the
suffix is looked for at the end only.
-/

namespace Hemlig.Client

open Text Routes

variable {secretId : String}

/-! ## Accepted ids -/

theorem secretIdRoutePart_of_accepted {field : String}
    (h : assertSecretIdentifier secretId field = .ok ()) :
    secretIdRoutePart secretId.toList = true := by
  unfold assertSecretIdentifier at h
  split at h
  · cases h
  · rename_i hnot
    simp only [Bool.or_eq_true, not_or, Bool.not_eq_true', Bool.not_eq_false] at hnot
    exact hnot.2

/-- A path of segments is accepted if both parts of it are. -/
theorem secretIdRoutePart_append {before after : Path} :
    secretIdRoutePart (before ++ '/' :: after) =
      (secretIdRoutePart before && secretIdRoutePart after) := by
  unfold secretIdRoutePart
  rw [List.splitOn_append_cons_self, List.all_append]

theorem isUnreserved_of_isIdentifierChar {c : Char} (h : isIdentifierChar c = true) :
    isUnreserved c = true := by
  simp only [isIdentifierChar, isLower, Bool.or_eq_true, Bool.and_eq_true, decide_eq_true_eq,
    beq_iff_eq] at h
  unfold isUnreserved
  rw [decide_eq_true_eq]
  rcases h with (⟨hleast, hmost⟩ | ⟨hleast, hmost⟩) | rfl
  · left
    have hlower : c.isLower = true :=
      (Bool.and_eq_true _ _).mpr ⟨decide_eq_true hleast, decide_eq_true hmost⟩
    have halpha : c.isAlpha = true := (Bool.or_eq_true _ _).mpr (.inr hlower)
    simp [Char.isAlphanum, halpha]
  · left
    have hdigit : c.isDigit = true := by
      simp only [Char.isDigit, Bool.and_eq_true, decide_eq_true_eq]
      exact ⟨hleast, hmost⟩
    simp [Char.isAlphanum, hdigit]
  · exact .inr (.inl (by decide))

theorem slashed_of_part {part : Path} (h : secretIdRoutePart part = true) : Slashed part := by
  intro c hc
  have hall : ∀ segment ∈ part.splitOn '/', ∀ c ∈ segment, isUnreserved c = true :=
    fun segment hsegment c hc => isUnreserved_of_isIdentifierChar
      (all_of_isName (List.all_eq_true.mp h segment hsegment) c hc)
  exact mem_of_splitOn hall c hc

/-! ## Decoding the path of a request -/

theorem length_le_encodeURIComponent {text : List Char} (h : Slashed text) :
    text.length ≤ (encodeURIComponent text).length := by
  induction text with
  | nil => exact le_rfl
  | cons c rest ih =>
      obtain ⟨hc, hrest⟩ := List.forall_mem_cons.mp h
      have hle := ih hrest
      rw [encodeURIComponent_cons, List.length_append, List.length_cons]
      cases hunreserved : isUnreserved c with
      | true =>
          rw [if_pos rfl, List.length_singleton]
          omega
      | false =>
          obtain rfl : c = '/' := hc.resolve_left (by simp [hunreserved])
          rw [if_neg Bool.false_ne_true, escape_slash]
          simp only [List.length_cons, List.length_nil]
          omega

/-- The id of a path is found in the decoded path as it is. -/
theorem decodeURIComponent_requestPath {before after text : List Char} (hbefore : '%' ∉ before)
    (hafter : '%' ∉ after) (h : Slashed text) :
    decodeURIComponent (before ++ encodeURIComponent text ++ after) =
      some (before ++ text ++ after) := by
  obtain ⟨more, hmore⟩ := Nat.exists_eq_add_of_le (length_le_encodeURIComponent h)
  have hsteps : (before ++ encodeURIComponent text ++ after).length + 1 =
      before.length + (text.length + (after.length + (more + 1))) := by
    rw [List.length_append, List.length_append, hmore]
    omega
  have hend : decodeFrom (after.length + (more + 1)) (after ++ []) =
      (decodeFrom (more + 1) []).map (after ++ ·) := decodeFrom_plain hafter (more + 1)
  rw [List.append_nil] at hend
  unfold decodeURIComponent
  rw [hsteps, List.append_assoc, decodeFrom_plain hbefore, decodeFrom_encodeURIComponent h, hend]
  simp [decodeFrom]

/-! ## Patterns -/

theorem append_ne {known other : Path} (count : ℕ) (hcount : count ≤ known.length)
    (h : known.take count ≠ other.take count) (rest : Path) : known ++ rest ≠ other := by
  rintro rfl
  exact h (List.take_append_of_le_length hcount).symm

@[simp] theorem stripFirst_append (first : String) (rest : Path) :
    stripFirst first (first.toList ++ rest) = some rest := by
  unfold stripFirst
  rw [if_pos (by simp), List.drop_left]

theorem stripFirst_eq_none {first : String} {known : Path} (count : ℕ)
    (hcount : count ≤ known.length) (hfirst : count ≤ first.toList.length)
    (h : known.take count ≠ first.toList.take count) (rest : Path) :
    stripFirst first (known ++ rest) = none := by
  unfold stripFirst
  refine if_neg fun hprefix => h ?_
  obtain ⟨others, heq⟩ := List.isPrefixOf_iff_prefix.mp hprefix
  calc known.take count = (known ++ rest).take count :=
        (List.take_append_of_le_length hcount).symm
    _ = (first.toList ++ others).take count := by rw [heq]
    _ = first.toList.take count := List.take_append_of_le_length hfirst

@[simp] theorem stripLast_append (last : String) (before : Path) :
    stripLast last (before ++ last.toList) = some before := by
  unfold stripLast
  rw [if_pos (by simp)]
  simp

theorem stripLast_eq_none {last : String} {target : Path} (h : ¬ last.toList <:+ target) :
    stripLast last target = none :=
  if_neg fun hsuffix => h (List.isSuffixOf_iff_suffix.mp hsuffix)

/-! ## The suffix of a path -/

theorem secretIdFromSuffixedPath_append {part : Path} (h : secretIdRoutePart part = true)
    (suffix : String) :
    secretIdFromSuffixedPath (adminPrefix.toList ++ (part ++ suffix.toList)) suffix =
      some (String.ofList part) := by
  have hends : adminPrefix.toList.isPrefixOf (adminPrefix.toList ++ (part ++ suffix.toList)) ∧
      suffix.toList.isSuffixOf (adminPrefix.toList ++ (part ++ suffix.toList)) := by
    refine ⟨by simp, List.isSuffixOf_iff_suffix.mpr ?_⟩
    exact ⟨adminPrefix.toList ++ part, by rw [List.append_assoc]⟩
  have hpart : ((adminPrefix.toList ++ (part ++ suffix.toList)).take
      ((adminPrefix.toList ++ (part ++ suffix.toList)).length - suffix.toList.length)).drop
        adminPrefix.toList.length = part := by
    have hlength : (adminPrefix.toList ++ (part ++ suffix.toList)).length -
        suffix.toList.length = (adminPrefix.toList ++ part).length := by
      simp only [List.length_append]
      omega
    rw [hlength, ← List.append_assoc, List.take_left, List.drop_left]
  unfold secretIdFromSuffixedPath
  rw [if_pos hends]
  dsimp only
  rw [hpart, if_pos h]

/-- A suffix that reaches into the prefix leaves no id. -/
theorem secretIdFromSuffixedPath_eq_none {target : Path} {suffix : String}
    (h : ∀ part, target = part ++ suffix.toList → secretIdRoutePart part = false) :
    secretIdFromSuffixedPath (adminPrefix.toList ++ target) suffix = none := by
  unfold secretIdFromSuffixedPath
  dsimp only
  split_ifs with hends hpart
  · exfalso
    rw [List.length_append] at hpart
    rcases Nat.lt_or_ge target.length suffix.toList.length with hshort | hlong
    · have hnil : ((adminPrefix.toList ++ target).take
          (adminPrefix.toList.length + target.length - suffix.toList.length)).drop
            adminPrefix.toList.length = [] := by
        refine List.drop_eq_nil_of_le ?_
        rw [List.length_take]
        omega
      rw [hnil] at hpart
      cases hpart
    · obtain ⟨part, rfl⟩ := List.suffix_of_suffix_length_le
        (List.isSuffixOf_iff_suffix.mp hends.2) (List.suffix_append _ _) hlong
      have htaken : ((adminPrefix.toList ++ (part ++ suffix.toList)).take
          (adminPrefix.toList.length + (part ++ suffix.toList).length -
            suffix.toList.length)).drop adminPrefix.toList.length = part := by
        have hlength : adminPrefix.toList.length + (part ++ suffix.toList).length -
            suffix.toList.length = (adminPrefix.toList ++ part).length := by
          rw [List.length_append, List.length_append]
          omega
        rw [hlength, ← List.append_assoc, List.take_left, List.drop_left]
      rw [htaken, h part rfl] at hpart
      cases hpart
  · rfl
  · rfl

/-- The id ends with the word of a route. -/
def EndsWith (secretId suffix : String) : Prop := suffix.toList <:+ secretId.toList

instance (secretId suffix : String) : Decidable (EndsWith secretId suffix) :=
  inferInstanceAs (Decidable (suffix.toList <:+ secretId.toList))

/-- What stands before the last segment of an accepted id is in the grammar. -/
theorem part_of_endsWith (hpart : secretIdRoutePart secretId.toList = true) {suffix : String}
    {word : Path} (hsuffix : suffix.toList = '/' :: word) (h : EndsWith secretId suffix) :
    ∃ part, secretId.toList = part ++ suffix.toList ∧ secretIdRoutePart part = true := by
  obtain ⟨part, heq⟩ := h
  refine ⟨part, heq.symm, ?_⟩
  rw [← heq, hsuffix, secretIdRoutePart_append, Bool.and_eq_true] at hpart
  exact hpart.1

/-- The id is taken apart if and only if it ends with the suffix. -/
theorem secretIdFromSuffixedPath_isSome (hpart : secretIdRoutePart secretId.toList = true)
    (suffix : String) {word : Path} (hsuffix : suffix.toList = '/' :: word) :
    (secretIdFromSuffixedPath (adminPrefix.toList ++ secretId.toList) suffix).isSome = true ↔
      EndsWith secretId suffix := by
  constructor
  · intro h
    by_contra hends
    rw [secretIdFromSuffixedPath_eq_none] at h
    · cases h
    · exact fun part heq => absurd ⟨part, heq.symm⟩ hends
  · intro h
    obtain ⟨part, heq, hgrammar⟩ := part_of_endsWith hpart hsuffix h
    rw [heq, secretIdFromSuffixedPath_append hgrammar]
    rfl

/-- Another suffix is not found at the end of a path that has one. -/
theorem secretIdFromSuffixedPath_other {part : Path} {suffix suffix' : String}
    (h : suffix.toList.getLast? ≠ suffix'.toList.getLast?) (hne : suffix.toList ≠ [])
    (hne' : suffix'.toList ≠ []) :
    secretIdFromSuffixedPath (adminPrefix.toList ++ (part ++ suffix.toList)) suffix' = none := by
  refine secretIdFromSuffixedPath_eq_none fun part' heq => absurd ?_ h
  have hlast := congrArg List.getLast? heq
  rwa [List.getLast?_append_of_ne_nil _ hne, List.getLast?_append_of_ne_nil _ hne'] at hlast

/-! ## Routes of administrators -/

/-- Of the routes that are compared with the path as it was sent, only the tree looks like the
path of a secret. -/
theorem adminRawRoute_secret (method : Method) (target decoded : Path) :
    adminRawRoute method (adminPrefix.toList ++ target) (adminPrefix.toList ++ decoded) =
      if method = .get ∧ target = "tree".toList then some .secretTree else none := by
  have hdiffer : ∀ other ∈ ["/v1/admin/environments", "/v1/admin/secrets",
      "/v1/admin/agent-grants", "/v1/admin/consumers", "/v1/admin/issuer"],
      adminPrefix.toList ++ target ≠ other.toList := by
    have hall : ∀ other ∈ ["/v1/admin/environments", "/v1/admin/secrets",
        "/v1/admin/agent-grants", "/v1/admin/consumers", "/v1/admin/issuer"],
        adminPrefix.toList.take 18 ≠ other.toList.take 18 := by decide
    exact fun other hmem => append_ne 18 (by decide) (hall other hmem) target
  have hgrants : ∀ rest, stripFirst "/v1/admin/agent-grants/" (adminPrefix.toList ++ rest) = none :=
    stripFirst_eq_none 11 (by decide) (by decide) (by decide)
  have hconsumers : ∀ rest, stripFirst "/v1/admin/consumers/" (adminPrefix.toList ++ rest) = none :=
    stripFirst_eq_none 11 (by decide) (by decide) (by decide)
  have htree : adminPrefix.toList ++ target = "/v1/admin/secrets/tree".toList ↔
      target = "tree".toList := by
    have hsplit : "/v1/admin/secrets/tree".toList = adminPrefix.toList ++ "tree".toList := by
      decide
    rw [hsplit, List.append_cancel_left_eq]
  simp only [List.forall_mem_cons] at hdiffer
  obtain ⟨henvironments, hsecrets, hagent, hconsumer, hissuer, -⟩ := hdiffer
  simp only [adminRawRoute, henvironments, hsecrets, hagent, hconsumer, hissuer, htree, and_false,
    if_false, captureAfter, captureBetween, consumerGrantTargetFromPath, revokeMatch, hgrants,
    hconsumers, Option.bind_none, Option.filter_none, Option.map_none]

/-- The route that is found, or the error where there is none. -/
def found {Route : Type} (surface : String) (route : Option Route) : Except ApiError Route :=
  match route with
  | some route => .ok route
  | none => .error (badRequest
      ("The requested " ++ surface ++ " route is not supported by this handler."))

theorem adminRoute_secret (hpart : secretIdRoutePart secretId.toList = true) {last : String}
    (hlast : '%' ∉ last.toList) (method : Method) :
    adminRoute method (adminPrefix.toList ++ encodeURIComponent secretId.toList ++ last.toList) =
      if method = .get ∧ encodeURIComponent secretId.toList ++ last.toList = "tree".toList then
        .ok .secretTree
      else found "administrative"
        (adminSecretRoute method (adminPrefix.toList ++ (secretId.toList ++ last.toList))) := by
  have hdecoded : decodeRequestPath
      (adminPrefix.toList ++ encodeURIComponent secretId.toList ++ last.toList) =
        .ok (adminPrefix.toList ++ (secretId.toList ++ last.toList)) := by
    unfold decodeRequestPath
    rw [decodeURIComponent_requestPath (by decide) hlast (slashed_of_part hpart),
      List.append_assoc]
  unfold adminRoute
  rw [hdecoded, List.append_assoc]
  dsimp only [bind, Except.bind]
  rw [adminRawRoute_secret]
  split_ifs with htree
  · rfl
  · unfold found
    cases adminSecretRoute method (adminPrefix.toList ++ (secretId.toList ++ last.toList)) with
    | none => rfl
    | some route => rfl

/-- Only the id `tree` is sent as the last segment of the path of the tree. -/
theorem encode_eq_tree (hpart : secretIdRoutePart secretId.toList = true) :
    encodeURIComponent secretId.toList ++ "".toList = "tree".toList ↔ secretId = "tree" := by
  have hnil : "".toList = ([] : List Char) := rfl
  rw [hnil, List.append_nil]
  constructor
  · intro h
    have hdecoded := decodeURIComponent_requestPath (by simp : '%' ∉ ([] : List Char))
      (by simp : '%' ∉ ([] : List Char)) (slashed_of_part hpart)
    simp only [List.nil_append, List.append_nil] at hdecoded
    rw [h] at hdecoded
    have htree : decodeURIComponent "tree".toList = some "tree".toList := by decide
    exact (String.toList_inj.mp (Option.some.inj (htree.symm.trans hdecoded))).symm
  · rintro rfl
    decide

theorem encode_append_ne_tree {last : String} (hslash : '/' ∈ last.toList) (encoded : Path) :
    encoded ++ last.toList ≠ "tree".toList := by
  intro h
  have hmem : '/' ∈ "tree".toList := h ▸ List.mem_append_right _ hslash
  exact absurd hmem (by decide)

/-- No path of a secret is one of an archived secret. -/
theorem captureAfter_archived (target : Path) :
    captureAfter "/v1/admin/archived-secrets/" (prefixedPart "sec-" 127)
      (adminPrefix.toList ++ target) = none := by
  have hfirst : stripFirst "/v1/admin/archived-secrets/" (adminPrefix.toList ++ target) = none :=
    stripFirst_eq_none 11 (by decide) (by decide) (by decide) target
  unfold captureAfter
  rw [hfirst]
  rfl

theorem captureAfter_part {part : Path} (h : secretIdRoutePart part = true) (first : String) :
    captureAfter first secretIdRoutePart (first.toList ++ part) = some (String.ofList part) := by
  unfold captureAfter
  rw [stripFirst_append, Option.filter_some, if_pos h, Option.map_some]

/-- One suffix of the routes is found at the end of a path, and no other. -/
theorem secretIdFromSuffixedPath_suffixed (hpart : secretIdRoutePart secretId.toList = true)
    {suffix suffix' : String} (hmem : suffix ∈ ["/payload", "/revisions", "/archive"])
    (hmem' : suffix' ∈ ["/payload", "/revisions", "/archive"]) :
    secretIdFromSuffixedPath (adminPrefix.toList ++ (secretId.toList ++ suffix.toList)) suffix' =
      if suffix = suffix' then some secretId else none := by
  have hlast : ∀ suffix ∈ ["/payload", "/revisions", "/archive"],
      ∀ suffix' ∈ ["/payload", "/revisions", "/archive"], suffix ≠ suffix' →
        suffix.toList.getLast? ≠ suffix'.toList.getLast? ∧ suffix.toList ≠ [] ∧
          suffix'.toList ≠ [] := by decide
  split_ifs with heq
  · subst heq
    rw [secretIdFromSuffixedPath_append hpart, String.ofList_toList]
  · obtain ⟨hdiffer, hne, hne'⟩ := hlast suffix hmem suffix' hmem' heq
    exact secretIdFromSuffixedPath_other hdiffer hne hne'

/-- The route of a path that ends with the suffix of its own operation. -/
theorem adminSecretRoute_suffixed (hpart : secretIdRoutePart secretId.toList = true)
    (method : Method) {suffix : String} (hmem : suffix ∈ ["/payload", "/revisions", "/archive"]) :
    ∃ secretMatch, adminSecretRoute method
        (adminPrefix.toList ++ (secretId.toList ++ suffix.toList)) =
      chooseAdminRoute method none secretMatch
        (if suffix = "/revisions" then some secretId else none)
        (if suffix = "/payload" then some secretId else none)
        (if suffix = "/archive" then some secretId else none) := by
  unfold adminSecretRoute
  rw [captureAfter_archived, secretIdFromSuffixedPath_suffixed hpart hmem (by decide),
    secretIdFromSuffixedPath_suffixed hpart hmem (by decide),
    secretIdFromSuffixedPath_suffixed hpart hmem (by decide)]
  exact ⟨_, rfl⟩

/-- The route of a path that ends with the id. -/
theorem adminSecretRoute_plain (hpart : secretIdRoutePart secretId.toList = true)
    (method : Method) : adminSecretRoute method (adminPrefix.toList ++ secretId.toList) =
      chooseAdminRoute method none (some secretId)
        (secretIdFromSuffixedPath (adminPrefix.toList ++ secretId.toList) "/revisions")
        (secretIdFromSuffixedPath (adminPrefix.toList ++ secretId.toList) "/payload")
        (secretIdFromSuffixedPath (adminPrefix.toList ++ secretId.toList) "/archive") := by
  unfold adminSecretRoute
  rw [captureAfter_archived, captureAfter_part hpart, String.ofList_toList]

/-- The id ends with none of the words that are routes of administrators. -/
structure Unsuffixed (secretId : String) : Prop where
  payload : ¬ EndsWith secretId "/payload"
  revisions : ¬ EndsWith secretId "/revisions"
  archive : ¬ EndsWith secretId "/archive"

theorem chooseAdminRoute_control {revisions payload archive : Option String} :
    chooseAdminRoute .get none (some secretId) revisions payload archive =
        some (.control secretId) ↔
      payload.isSome = false ∧ revisions.isSome = false ∧ archive.isSome = false := by
  cases revisions <;> cases payload <;> cases archive <;> simp [chooseAdminRoute]

theorem chooseAdminRoute_update {revisions payload archive : Option String} :
    chooseAdminRoute .put none (some secretId) revisions payload archive =
        some (.update secretId) ↔
      payload.isSome = false ∧ revisions.isSome = false ∧ archive.isSome = false := by
  cases revisions <;> cases payload <;> cases archive <;> simp [chooseAdminRoute]

/-- The general route is taken if the id ends with none of the words. -/
theorem unsuffixed_iff (hpart : secretIdRoutePart secretId.toList = true) :
    ((secretIdFromSuffixedPath (adminPrefix.toList ++ secretId.toList) "/payload").isSome = false ∧
      (secretIdFromSuffixedPath (adminPrefix.toList ++ secretId.toList) "/revisions").isSome =
        false ∧
      (secretIdFromSuffixedPath (adminPrefix.toList ++ secretId.toList) "/archive").isSome =
        false) ↔ Unsuffixed secretId := by
  have hpayload := secretIdFromSuffixedPath_isSome hpart "/payload" rfl
  have hrevisions := secretIdFromSuffixedPath_isSome hpart "/revisions" rfl
  have harchive := secretIdFromSuffixedPath_isSome hpart "/archive" rfl
  simp only [← Bool.not_eq_true, hpayload, hrevisions, harchive]
  exact ⟨fun h => ⟨h.1, h.2.1, h.2.2⟩, fun h => ⟨h.payload, h.revisions, h.archive⟩⟩

theorem found_eq_ok {Route : Type} {surface : String} {route : Option Route} {expected : Route} :
    found surface route = .ok expected ↔ route = some expected := by
  cases route with
  | none => simp [found]
  | some route => simp [found]

/-! ## Routes of agents -/

theorem captureBetween_part {part : Path} (h : secretIdRoutePart part = true)
    (first last : String) :
    captureBetween first last secretIdRoutePart (first.toList ++ (part ++ last.toList)) =
      some (String.ofList part) := by
  unfold captureBetween
  rw [stripFirst_append, Option.bind_some, stripLast_append, Option.filter_some, if_pos h,
    Option.map_some]

theorem captureBetween_eq_none {first last : String} {target : Path}
    (h : ¬ last.toList <:+ target) :
    captureBetween first last secretIdRoutePart (first.toList ++ target) = none := by
  unfold captureBetween
  rw [stripFirst_append, Option.bind_some, stripLast_eq_none h]
  rfl

/-- The id is taken apart if and only if it ends with the suffix. -/
theorem captureBetween_isSome (hpart : secretIdRoutePart secretId.toList = true)
    (suffix : String) {word : Path} (hsuffix : suffix.toList = '/' :: word) :
    (captureBetween agentPrefix suffix secretIdRoutePart
        (agentPrefix.toList ++ secretId.toList)).isSome = true ↔ EndsWith secretId suffix := by
  constructor
  · intro h
    by_contra hends
    rw [captureBetween_eq_none hends] at h
    cases h
  · intro h
    obtain ⟨part, heq, hgrammar⟩ := part_of_endsWith hpart hsuffix h
    rw [heq, captureBetween_part hgrammar]
    rfl

theorem consumerRoute_secret (hpart : secretIdRoutePart secretId.toList = true) {last : String}
    (hlast : '%' ∉ last.toList) (isAgent : Bool) (method : Method) :
    consumerRoute isAgent method
        (agentPrefix.toList ++ encodeURIComponent secretId.toList ++ last.toList) =
      found "consumer" (consumerSecretRoute isAgent method
        (agentPrefix.toList ++ (secretId.toList ++ last.toList))) := by
  have hdecoded : decodeRequestPath
      (agentPrefix.toList ++ encodeURIComponent secretId.toList ++ last.toList) =
        .ok (agentPrefix.toList ++ (secretId.toList ++ last.toList)) := by
    unfold decodeRequestPath
    rw [decodeURIComponent_requestPath (by decide) hlast (slashed_of_part hpart),
      List.append_assoc]
  have hdiffer : ∀ other ∈ ["/v1/agent/sync", "/v1/agent/config", "/v1/changes"],
      agentPrefix.toList ++ encodeURIComponent secretId.toList ++ last.toList ≠ other.toList := by
    have hall : ∀ other ∈ ["/v1/agent/sync", "/v1/agent/config", "/v1/changes"],
        agentPrefix.toList.take 13 ≠ other.toList.take 13 := by decide
    intro other hmem
    rw [List.append_assoc]
    exact append_ne 13 (by decide) (hall other hmem) _
  simp only [List.forall_mem_cons] at hdiffer
  obtain ⟨hsync, hconfig, hchanges, -⟩ := hdiffer
  unfold consumerRoute
  rw [if_neg fun h => hsync h.2, hdecoded]
  show (if method = .get ∧ _ = _ then Except.ok ConsumerRoute.config else _) = _
  rw [if_neg fun h => hconfig h.2]
  unfold found
  cases consumerSecretRoute isAgent method
      (agentPrefix.toList ++ (secretId.toList ++ last.toList)) with
  | some route => rfl
  | none => exact if_neg fun h => hchanges h.2

theorem consumerSecretRoute_eq (isAgent : Bool) (method : Method) (target : Path) :
    consumerSecretRoute isAgent method (agentPrefix.toList ++ target) =
      chooseConsumerRoute isAgent method none
        (captureAfter agentPrefix secretIdRoutePart (agentPrefix.toList ++ target))
        (captureBetween agentPrefix "/payload" secretIdRoutePart (agentPrefix.toList ++ target))
        (captureBetween agentPrefix "/control" secretIdRoutePart
          (agentPrefix.toList ++ target)) := by
  have hfirst : stripFirst "/v1/secrets/" (agentPrefix.toList ++ target) = none :=
    stripFirst_eq_none 5 (by decide) (by decide) (by decide) target
  have hgeneric : captureAfter "/v1/secrets/" secretIdRoutePart (agentPrefix.toList ++ target) =
      none := by
    unfold captureAfter
    rw [hfirst]
    rfl
  unfold consumerSecretRoute
  rw [hgeneric]

/-! ## Which operations reach what they name -/

/-- The id does not look like a route of the operation's method. -/
def Separated (operation : SecretOperation) (secretId : String) : Prop :=
  match operation with
  | .getAdminSecret => secretId ≠ "tree" ∧ Unsuffixed secretId
  | .updateAdminSecret => Unsuffixed secretId
  | .getAgentSecret => ¬ EndsWith secretId "/control"
  | .updateAgentSecret => ¬ EndsWith secretId "/payload"
  | _ => True

theorem map_eq_ok {α β : Type} {f : α → β} (hf : Function.Injective f) {x : Except ApiError α}
    {value : α} : x.map f = .ok (f value) ↔ x = .ok value := by
  cases x with
  | error error => simp [Except.map]
  | ok other => simp [Except.map, hf.eq_iff]

theorem admin_injective : Function.Injective Served.admin := fun _ _ => Served.admin.inj

theorem consumer_injective : Function.Injective Served.consumer := fun _ _ => Served.consumer.inj

/-- An operation of administrators that appends a suffix is found by it. -/
theorem adminRoute_suffixed (hpart : secretIdRoutePart secretId.toList = true) (method : Method)
    {suffix : String} (hmem : suffix ∈ ["/payload", "/revisions", "/archive"])
    {route : AdminRoute} (hroute : ∀ secretMatch, chooseAdminRoute method none secretMatch
      (if suffix = "/revisions" then some secretId else none)
      (if suffix = "/payload" then some secretId else none)
      (if suffix = "/archive" then some secretId else none) = some route) :
    adminRoute method (adminPrefix.toList ++ encodeURIComponent secretId.toList ++
      suffix.toList) = .ok route := by
  have hplain : ∀ suffix ∈ ["/payload", "/revisions", "/archive"],
      '%' ∉ suffix.toList ∧ '/' ∈ suffix.toList := by decide
  obtain ⟨hpercent, hslash⟩ := hplain suffix hmem
  obtain ⟨secretMatch, hsecret⟩ := adminSecretRoute_suffixed hpart method hmem
  rw [adminRoute_secret hpart hpercent, if_neg fun h => encode_append_ne_tree hslash _ h.2, hsecret,
    hroute, found]

/-- An operation of agents that appends a suffix is found by it. -/
theorem consumerRoute_suffixed (hpart : secretIdRoutePart secretId.toList = true)
    (isAgent : Bool) :
    consumerRoute isAgent .get (agentPrefix.toList ++ encodeURIComponent secretId.toList ++
        "/control".toList) = .ok (.agentControl secretId) ∧
      consumerRoute isAgent .put (agentPrefix.toList ++ encodeURIComponent secretId.toList ++
        "/payload".toList) = .ok (.agentPutPayload secretId) := by
  constructor
  · rw [consumerRoute_secret hpart (by decide), consumerSecretRoute_eq,
      captureBetween_part hpart, String.ofList_toList]
    rfl
  · rw [consumerRoute_secret hpart (by decide), consumerSecretRoute_eq,
      captureBetween_part hpart, String.ofList_toList]
    cases captureAfter agentPrefix secretIdRoutePart
      (agentPrefix.toList ++ (secretId.toList ++ "/payload".toList)) <;> rfl

theorem served_iff (hpart : secretIdRoutePart secretId.toList = true) (isAgent : Bool)
    (operation : SecretOperation) :
    operation.served isAgent secretId = .ok (operation.intended secretId) ↔
      Separated operation secretId := by
  have hnil : secretId.toList ++ "".toList = secretId.toList := List.append_nil _
  cases operation with
  | getAdminSecret =>
      show (adminRoute .get (adminPrefix.toList ++ encodeURIComponent secretId.toList ++
        "".toList)).map Served.admin = .ok (.admin (.control secretId)) ↔ _
      rw [map_eq_ok admin_injective, adminRoute_secret hpart (by decide), hnil,
        adminSecretRoute_plain hpart]
      by_cases htree : secretId = "tree"
      · rw [if_pos ⟨rfl, (encode_eq_tree hpart).mpr htree⟩]
        exact ⟨nofun, fun h => absurd htree h.1⟩
      · rw [if_neg fun h => htree ((encode_eq_tree hpart).mp h.2), found_eq_ok, chooseAdminRoute_control, unsuffixed_iff hpart]
        exact ⟨fun h => ⟨htree, h⟩, fun h => h.2⟩
  | updateAdminSecret =>
      show (adminRoute .put (adminPrefix.toList ++ encodeURIComponent secretId.toList ++
        "".toList)).map Served.admin = .ok (.admin (.update secretId)) ↔ _
      rw [map_eq_ok admin_injective, adminRoute_secret hpart (by decide), hnil,
        adminSecretRoute_plain hpart, if_neg fun h => absurd h.1 (by decide), found_eq_ok,
        chooseAdminRoute_update, unsuffixed_iff hpart]
      rfl
  | getAdminSecretPayload =>
      have hroute := adminRoute_suffixed hpart .get (by decide : "/payload" ∈ _)
        fun secretMatch => by cases secretMatch <;> rfl
      exact iff_of_true ((map_eq_ok admin_injective).mpr hroute) trivial
  | listSecretRevisions =>
      have hroute := adminRoute_suffixed hpart .get (by decide : "/revisions" ∈ _)
        fun secretMatch => by cases secretMatch <;> rfl
      exact iff_of_true ((map_eq_ok admin_injective).mpr hroute) trivial
  | putAdminPayload =>
      have hroute := adminRoute_suffixed hpart .put (by decide : "/payload" ∈ _)
        fun secretMatch => by cases secretMatch <;> rfl
      exact iff_of_true ((map_eq_ok admin_injective).mpr hroute) trivial
  | archiveAdminSecret =>
      have hroute := adminRoute_suffixed hpart .post (by decide : "/archive" ∈ _)
        fun secretMatch => by cases secretMatch <;> rfl
      exact iff_of_true ((map_eq_ok admin_injective).mpr hroute) trivial
  | getAgentSecret =>
      show (consumerRoute isAgent .get (agentPrefix.toList ++ encodeURIComponent secretId.toList ++
        "".toList)).map Served.consumer = .ok (.consumer (.agentRead secretId)) ↔ _
      have hends := captureBetween_isSome hpart "/control" rfl
      rw [map_eq_ok consumer_injective, consumerRoute_secret hpart (by decide), hnil,
        consumerSecretRoute_eq, captureAfter_part hpart, String.ofList_toList, found_eq_ok]
      unfold Separated
      dsimp only
      rw [← hends]
      cases captureBetween agentPrefix "/control" secretIdRoutePart
        (agentPrefix.toList ++ secretId.toList) <;> simp [chooseConsumerRoute]
  | updateAgentSecret =>
      show (consumerRoute isAgent .put (agentPrefix.toList ++ encodeURIComponent secretId.toList ++
        "".toList)).map Served.consumer = .ok (.consumer (.agentUpdate secretId)) ↔ _
      have hends := captureBetween_isSome hpart "/payload" rfl
      rw [map_eq_ok consumer_injective, consumerRoute_secret hpart (by decide), hnil,
        consumerSecretRoute_eq, captureAfter_part hpart, String.ofList_toList, found_eq_ok]
      unfold Separated
      dsimp only
      rw [← hends]
      cases captureBetween agentPrefix "/payload" secretIdRoutePart
        (agentPrefix.toList ++ secretId.toList) <;> simp [chooseConsumerRoute]
  | getAgentControl =>
      exact iff_of_true ((map_eq_ok consumer_injective).mpr
        (consumerRoute_suffixed hpart isAgent).1) trivial
  | putAgentPayload =>
      exact iff_of_true ((map_eq_ok consumer_injective).mpr
        (consumerRoute_suffixed hpart isAgent).2) trivial

/-- **A request reaches the operation and the id that it names exactly if the id does not look like
a route of its method.** -/
theorem routes_agree_iff (isAgent : Bool) (operation : SecretOperation) (secretId field : String)
    (h : assertSecretIdentifier secretId field = .ok ()) :
    operation.served isAgent secretId = .ok (operation.intended secretId) ↔
      Separated operation secretId :=
  served_iff (secretIdRoutePart_of_accepted h) isAgent operation

theorem routes_agree_nested :
    SecretOperation.getAdminSecret.served false "platform/database" =
      .ok (.admin (.control "platform/database")) :=
  (routes_agree_iff false .getAdminSecret "platform/database" "secretId" (by decide)).mpr
    ⟨by decide, by decide, by decide, by decide⟩

/-- The control revision of one secret is asked for, and the payload of another is returned. -/
theorem routes_confused :
    assertSecretIdentifier "platform/payload" "secretId" = .ok () ∧
      SecretOperation.getAdminSecret.served true "platform/payload" =
        .ok (.admin (.payload "platform")) ∧
      ¬ ∀ isAgent (operation : SecretOperation) secretId field,
        assertSecretIdentifier secretId field = .ok () →
          operation.served isAgent secretId = .ok (operation.intended secretId) := by
  have haccepted : assertSecretIdentifier "platform/payload" "secretId" = .ok () := by decide
  have hpart : secretIdRoutePart "platform/payload".toList = true :=
    secretIdRoutePart_of_accepted haccepted
  have hroute : adminSecretRoute .get (adminPrefix.toList ++ "platform/payload".toList) =
      some (.payload "platform") := by decide
  have hserved : SecretOperation.getAdminSecret.served true "platform/payload" =
      .ok (.admin (.payload "platform")) := by
    show (adminRoute .get (adminPrefix.toList ++ encodeURIComponent "platform/payload".toList ++
      "".toList)).map Served.admin = _
    have hnil : "platform/payload".toList ++ "".toList = "platform/payload".toList :=
      List.append_nil _
    have htree : "platform/payload" ≠ "tree" := by decide
    rw [adminRoute_secret hpart (by decide), hnil, hroute,
      if_neg fun h => htree ((encode_eq_tree hpart).mp h.2)]
    rfl
  refine ⟨haccepted, hserved, fun hall => ?_⟩
  have hintended := hall true .getAdminSecret _ _ haccepted
  rw [hserved] at hintended
  exact absurd hintended (by decide)

end Hemlig.Client
