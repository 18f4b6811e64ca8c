import Hemlig.Client.Paths
import Hemlig.Repositories.Catalog
import Hemlig.Text.Segments

/-!
# The catalog agrees with the heads

The sort key of a secret is its folder up to a marker, so the keys that begin with a path are
those of the secrets below it: a valid path has no character of the marker, and the last segment of
an id has no slash.  Below a path, a secret whose rest has no slash is a direct one, and every
other one is counted under the first segment of its rest.
-/

namespace Hemlig.Catalog

open Paging Text

/-! ## Ids and paths -/

/-- A path with a slash at its end, or nothing. -/
def base : Option String → List Char
  | none => []
  | some path => path.toList ++ ['/']

/-- The id begins with the path and a slash. -/
def Below (pathPrefix : Option String) (secretId : String) : Prop :=
  base pathPrefix <+: secretId.toList

instance (pathPrefix : Option String) (secretId : String) :
    Decidable (Below pathPrefix secretId) :=
  inferInstanceAs (Decidable (_ <+: _))

/-- A secret is a root, or has a folder. -/
theorem secretFolderPath_cases (secretId : String) :
    ('/' ∉ secretId.toList ∧ secretFolderPath secretId = none) ∨
      ∃ folder leaf, secretId.toList = folder ++ '/' :: leaf ∧ '/' ∉ leaf ∧
        secretFolderPath secretId = some (String.ofList folder) := by
  by_cases hslash : '/' ∈ secretId.toList
  · right
    obtain ⟨folder, leaf, heq, hleaf⟩ := exists_leaf hslash
    refine ⟨folder, leaf, heq, hleaf, ?_⟩
    have hdrop : secretId.toList.reverse.dropWhile (· ≠ '/') = '/' :: folder.reverse := by
      have hall : ∀ c ∈ leaf.reverse, decide (c ≠ '/') = true := by
        intro c hc
        exact decide_eq_true fun h => hleaf (h ▸ List.mem_reverse.mp hc)
      rw [heq, List.reverse_append, List.reverse_cons, List.append_assoc,
        List.dropWhile_append_of_pos hall]
      simp
    unfold secretFolderPath
    simp only [hdrop]
    simp
  · left
    refine ⟨hslash, ?_⟩
    have hdrop : secretId.toList.reverse.dropWhile (· ≠ '/') = [] := by
      refine List.dropWhile_eq_nil_iff.mpr fun c hc => ?_
      exact decide_eq_true fun h => hslash (h ▸ List.mem_reverse.mp hc)
    unfold secretFolderPath
    simp only [hdrop]
    rfl

/-- A valid id or path has identifier characters and slashes only. -/
theorem mem_of_secretIdentifier {value : String} (h : secretIdentifier value = true) :
    ∀ c ∈ value.toList, isIdentifierChar c = true ∨ c = '/' := by
  have hall : ∀ segment ∈ value.toList.splitOn '/', ∀ c ∈ segment, isIdentifierChar c = true :=
    fun segment hsegment => all_of_isName (List.all_eq_true.mp h segment hsegment)
  exact mem_of_splitOn hall

theorem not_mem_of_secretIdentifier {value : String} (h : secretIdentifier value = true) {c : Char}
    (hc : isIdentifierChar c = false) (hslash : c ≠ '/') : c ∉ value.toList := by
  intro hmem
  rcases mem_of_secretIdentifier h c hmem with hidentifier | heq
  · rw [hc] at hidentifier
    cases hidentifier
  · exact hslash heq

/-- The path of a listing is absent or valid. -/
def ValidPrefix (pathPrefix : Option String) : Prop :=
  parseCatalogPathPrefix pathPrefix = .ok pathPrefix

theorem validPrefix_some {path : String} :
    ValidPrefix (some path) ↔
      path.length ≠ 0 ∧ path.length ≤ 256 ∧ secretIdentifier path = true := by
  unfold ValidPrefix
  rw [parseCatalogPathPrefix]
  by_cases hinvalid : path.length = 0 ∨ path.length > 256 ∨ ¬ secretIdentifier path = true
  · rw [if_pos hinvalid]
    refine iff_of_false (fun h => by cases h) fun ⟨hlength, hmost, hgrammar⟩ => ?_
    rcases hinvalid with h | h | h
    · exact hlength h
    · omega
    · exact h hgrammar
  · rw [if_neg hinvalid]
    simp only [not_or, not_not, not_lt, gt_iff_lt] at hinvalid
    exact iff_of_true rfl hinvalid

/-- **A key begins with a path exactly if the id does**, up to the slash. -/
theorem prefix_catalogSk {pathPrefix : Option String} (hvalid : ValidPrefix pathPrefix)
    (secretId : String) :
    (catalogPathPrefix pathPrefix).toList <+: (catalogSk secretId).toList ↔
      Below pathPrefix secretId := by
  have hsk : (catalogSk secretId).toList = "PATH#".toList ++
      (((secretFolderPath secretId).getD "_").toList ++ '/' :: ('S' ::
        ("ECRET#".toList ++ secretId.toList))) := by
    simp [catalogSk]
  cases pathPrefix with
  | none =>
      refine iff_of_true ?_ (List.nil_prefix)
      rw [hsk]
      exact List.prefix_append _ _
  | some path =>
      obtain ⟨hne, -, hgrammar⟩ := validPrefix_some.mp hvalid
      have hcondition : (catalogPathPrefix (some path)).toList =
          "PATH#".toList ++ (path.toList ++ ['/']) := by
        simp [catalogPathPrefix]
      rw [hcondition, hsk, List.prefix_append_right_inj]
      show _ ↔ path.toList ++ ['/'] <+: secretId.toList
      have hmarker : 'S' ∉ path.toList ++ ['/'] := by
        have := not_mem_of_secretIdentifier hgrammar (c := 'S') (by decide) (by decide)
        simpa using this
      rcases secretFolderPath_cases secretId with ⟨hroot, hnone⟩ | ⟨folder, leaf, hid, hleaf, hsome⟩
      · refine iff_of_false (fun h => ?_) (fun h => ?_)
        · -- the folder of a root is no path
          rw [hnone] at h
          obtain ⟨c, rest, hpath⟩ := List.exists_cons_of_ne_nil (l := path.toList) (by
            intro hnil
            exact hne (by rw [← String.length_toList, hnil]; rfl))
          rw [hpath] at h
          obtain ⟨hc, -⟩ := List.cons_prefix_cons.mp (show c :: (rest ++ ['/']) <+: '_' :: _ from h)
          have := not_mem_of_secretIdentifier hgrammar (c := '_') (by decide) (by decide)
          exact this (hpath ▸ hc ▸ List.mem_cons_self)
        · exact hroot (h.subset (by simp))
      · rw [hsome, hid]
        have hfolder : (((some (String.ofList folder)).getD "_")).toList = folder := by simp
        rw [hfolder]
        constructor
        · intro h
          have hsplit : folder ++ '/' :: ('S' :: ("ECRET#".toList ++ (folder ++ '/' :: leaf))) =
              (folder ++ ['/']) ++ 'S' :: ("ECRET#".toList ++ (folder ++ '/' :: leaf)) := by simp
          rw [hsplit] at h
          refine (prefix_of_not_mem hmarker h).trans ?_
          exact ⟨leaf, by simp⟩
        · intro h
          refine (prefix_of_leaf hleaf h).trans ?_
          exact ⟨'S' :: ("ECRET#".toList ++ (folder ++ '/' :: leaf)), by simp⟩

/-! ## Folders below a path -/

/-- Below a path, a secret is a direct one, or the rest of its id has a first segment. -/
theorem treeSegment_cases {pathPrefix : Option String} {head : HeadRecord} {rest : List Char}
    (hrest : head.secretId.toList = base pathPrefix ++ rest) :
    ('/' ∉ rest ∧ secretFolderPath head.secretId = pathPrefix) ∨
      ('/' ∈ rest ∧ secretFolderPath head.secretId ≠ pathPrefix ∧
        treeSegment pathPrefix head = some (String.ofList (rest.takeWhile (· ≠ '/')))) := by
  rcases secretFolderPath_cases head.secretId with ⟨hroot, hnone⟩ | ⟨folder, leaf, hid, hleaf, hsome⟩
  · cases pathPrefix with
    | none => exact Or.inl ⟨fun hmem => hroot (hrest ▸ hmem), hnone⟩
    | some path => exact (hroot (hrest ▸ by simp [base])).elim
  · cases pathPrefix with
    | none =>
        have hrest' : rest = folder ++ '/' :: leaf := by simpa [base, hid] using hrest.symm
        refine Or.inr ⟨hrest' ▸ by simp, by rw [hsome]; simp, ?_⟩
        rw [treeSegment, hsome, if_neg (by simp), Option.bind_some, childSegment, hrest',
          takeWhile_append_cons]
        simp
    | some path =>
        have hprefix : path.toList ++ ['/'] <+: folder ++ ['/'] := by
          refine prefix_of_leaf hleaf ?_
          rw [← hid, hrest]
          exact List.prefix_append _ _
        obtain ⟨more, hmore⟩ := hprefix
        have hrest' : rest = more ++ leaf := by
          have hboth : (path.toList ++ ['/']) ++ rest = (path.toList ++ ['/']) ++ (more ++ leaf) := by
            calc (path.toList ++ ['/']) ++ rest = head.secretId.toList := hrest.symm
              _ = folder ++ ['/'] ++ leaf := by simp [hid]
              _ = (path.toList ++ ['/']) ++ (more ++ leaf) := by rw [← hmore, List.append_assoc]
          exact List.append_cancel_left hboth
        rcases List.eq_nil_or_concat more with rfl | ⟨inner, last, rfl⟩
        · have hpath : path.toList = folder := by simpa using hmore
          refine Or.inl ⟨by simpa [hrest'] using hleaf, ?_⟩
          rw [hsome, ← hpath, String.ofList_toList]
        · -- the rest of the folder stands between two slashes
          have hconcat : (path.toList ++ '/' :: inner) ++ [last] = folder ++ ['/'] := by
            simpa using hmore
          obtain ⟨hfolder, hlast⟩ := List.append_inj' hconcat rfl
          obtain rfl : last = '/' := by simpa using hlast
          have hrest'' : rest = inner ++ '/' :: leaf := by simpa using hrest'
          have hne : secretFolderPath head.secretId ≠ some path := by
            rw [hsome, ← hfolder]
            intro h
            have hlength := congrArg (fun s => s.map fun text => text.toList.length) h
            simp at hlength
          refine Or.inr ⟨hrest'' ▸ by simp, hne, ?_⟩
          rw [treeSegment, if_neg hne, hsome, Option.bind_some, childSegment, hrest'',
            takeWhile_append_cons, ← hfolder]
          have hbelow : (path ++ "/").toList.isPrefixOf
              (String.ofList (path.toList ++ '/' :: inner)).toList = true := by
            rw [List.isPrefixOf_iff_prefix]
            exact ⟨inner, by simp⟩
          rw [if_pos hbelow]
          have hdrop : (path.toList ++ '/' :: inner).drop (path.length + 1) = inner := by
            rw [← String.length_toList, ← List.drop_drop, List.drop_left, List.drop_one,
              List.tail_cons]
          rw [String.toList_ofList, hdrop]

/-- The path of a folder in a tree. -/
theorem base_treePath (pathPrefix : Option String) (segment : String) :
    base (some (treePath pathPrefix segment)) = base pathPrefix ++ (segment.toList ++ ['/']) := by
  cases pathPrefix with
  | none => simp [base, treePath]
  | some path => simp [base, treePath]

/-- **A secret is counted under the segment whose path it is below.** -/
theorem treeSegment_eq_some {pathPrefix : Option String} {head : HeadRecord}
    (hbelow : Below pathPrefix head.secretId) {segment : String} :
    treeSegment pathPrefix head = some segment ↔
      '/' ∉ segment.toList ∧ Below (some (treePath pathPrefix segment)) head.secretId := by
  obtain ⟨rest, hrest⟩ := hbelow
  unfold Below
  rw [base_treePath, ← hrest, List.prefix_append_right_inj]
  rcases treeSegment_cases hrest.symm with ⟨hdirect, hfolder⟩ | ⟨hslash, -, hsegment⟩
  · refine iff_of_false ?_ fun ⟨_, h⟩ => hdirect (h.subset (by simp))
    rw [treeSegment, if_pos hfolder]
    exact Option.some_ne_none segment ∘ Eq.symm
  · rw [hsegment, ← takeWhile_eq_iff hslash]
    constructor
    · intro h
      rw [← Option.some.inj h, String.toList_ofList]
    · intro h
      rw [h, String.ofList_toList]

/-- What stands before a slash in a valid id is a valid path. -/
theorem validPrefix_of_below {path secretId : String} (hlength : secretId.length ≤ 256)
    (hgrammar : secretIdentifier secretId = true) (hbelow : Below (some path) secretId) :
    ValidPrefix (some path) := by
  obtain ⟨rest, hrest⟩ := hbelow
  have hid : secretId.toList = path.toList ++ '/' :: rest := by
    rw [← hrest]
    simp [base]
  unfold secretIdentifier at hgrammar
  rw [hid, List.splitOn_append_cons_self, List.all_append, Bool.and_eq_true] at hgrammar
  have hpath : secretIdentifier path = true := hgrammar.1
  refine validPrefix_some.mpr ⟨fun hzero => ?_, ?_, hpath⟩
  · have hnil : path.toList = [] := List.length_eq_zero_iff.mp (String.length_toList.trans hzero)
    unfold secretIdentifier at hpath
    rw [hnil] at hpath
    cases hpath
  · have hle : path.toList.length ≤ secretId.toList.length := by
      rw [hid, List.length_append]
      omega
    rw [String.length_toList, String.length_toList] at hle
    omega

/-! ## What a listing holds -/

/-- A head that is to be listed. -/
def Listed (environment : String) (pathPrefix : Option String) (tags : List (String × String))
    (archived : Bool) (head : HeadRecord) : Prop :=
  head.workflowState = .ready ∧ head.environment = environment ∧
    (head.state = .archived ↔ archived = true) ∧ Below pathPrefix head.secretId ∧
    ∀ tag ∈ tags, tag ∈ head.metadata.tags.getD []

instance (environment : String) (pathPrefix : Option String) (tags : List (String × String))
    (archived : Bool) : DecidablePred (Listed environment pathPrefix tags archived) :=
  fun _ => inferInstanceAs (Decidable (_ ∧ _))

/-- The heads to be listed, in the order of the index. -/
def listing (catalog : Catalog) (environment : String) (pathPrefix : Option String)
    (tags : List (String × String)) (archived : Bool) : List HeadRecord :=
  catalog.heads.filter (Listed environment pathPrefix tags archived)

theorem catalogPkFor_inj {environment environment' : String} {archived archived' : Bool} :
    catalogPkFor environment archived = catalogPkFor environment' archived' ↔
      environment = environment' ∧ archived = archived' := by
  constructor
  · intro h
    have hlist := congrArg String.toList h
    cases archived <;> cases archived' <;>
      simp [catalogPkFor, catalogPk, archivedCatalogPk] at hlist
    · exact ⟨String.toList_inj.mp hlist, rfl⟩
    · exact ⟨String.toList_inj.mp hlist, rfl⟩
  · rintro ⟨rfl, rfl⟩
    rfl

theorem lookup_eq_some {tags : List (String × String)} (hnodup : (tags.map Prod.fst).Nodup)
    {tag : String × String} : tags.lookup tag.1 = some tag.2 ↔ tag ∈ tags := by
  induction tags with
  | nil => simp
  | cons other tags ih =>
      obtain ⟨hother, htags⟩ := List.nodup_cons.mp hnodup
      obtain ⟨key, value⟩ := tag
      obtain ⟨key', value'⟩ := other
      rw [List.lookup_cons, List.mem_cons]
      by_cases hkey : key = key'
      · subst hkey
        have hnot : (key, value) ∉ tags := by
          intro hmem
          have hkey : key ∈ tags.map Prod.fst := List.mem_map_of_mem hmem
          exact hother hkey
        simp [hnot, eq_comm]
      · have hbeq : (key == key') = false := by simpa using hkey
        rw [hbeq]
        simpa [hkey] using ih htags

/-- **A query keeps what is to be listed.** -/
theorem filter_query (catalog : Catalog) {pathPrefix : Option String}
    (hvalid : ValidPrefix pathPrefix) (environment : String) (tags : List (String × String))
    (archived : Bool) :
    (catalog.heads.filter (catalogCondition environment pathPrefix archived)).filter
        (catalogFilter tags) = listing catalog environment pathPrefix tags archived := by
  rw [List.filter_filter]
  refine List.filter_congr fun head hmem => ?_
  rw [Bool.eq_iff_iff, decide_eq_true_iff]
  have htags := catalog.tagKeys head hmem
  simp only [catalogFilter, catalogCondition, catalog.partitionKeys head hmem,
    catalog.sortKeys head hmem, Bool.and_eq_true, decide_eq_true_eq, List.all_eq_true,
    List.isPrefixOf_iff_prefix, prefix_catalogSk hvalid, catalogPkFor_inj, lookup_eq_some htags]
  rw [catalog.tags head hmem]
  unfold Listed
  cases archived <;> simp <;> tauto

theorem nodup_catalogKey (catalog : Catalog) (inRange : HeadRecord → Bool) :
    ((catalog.heads.filter inRange).map HeadRecord.catalogKey).Nodup := by
  have hnodup : ((catalog.heads.filter inRange).map HeadRecord.secretUid).Nodup :=
    catalog.nodup.sublist ((List.filter_sublist (p := inRange)).map HeadRecord.secretUid)
  refine List.Nodup.of_map CatalogKey.secretUid ?_
  rw [List.map_map]
  exact hnodup

/-- **The pages of a listing hold what is to be listed**, however they are cut. -/
theorem pages_listSecrets (catalog : Catalog) {pathPrefix : Option String}
    (hvalid : ValidPrefix pathPrefix) (environment : String) (tags : List (String × String))
    (archived : Bool) (cuts : ℕ → Cut) :
    ∃ pages, follow CatalogPage.nextCursor
        (fun start cut => listSecrets catalog environment pathPrefix tags start archived cut) cuts
        (catalog.heads.length + 1) none = some pages ∧
      pages.flatMap CatalogPage.secrets = listing catalog environment pathPrefix tags archived := by
  have hlength : (catalog.heads.filter (catalogCondition environment pathPrefix archived)).length <
      catalog.heads.length + 1 := Nat.lt_succ_of_le (List.length_filter_le _ _)
  have hlimit : 0 < 100 := by decide
  obtain ⟨pages, hpages, hflat⟩ := follow_query (catalogFilter tags)
    (nodup_catalogKey catalog (catalogCondition environment pathPrefix archived)) hlimit cuts none
    hlength
  have hmap := follow_map QueryPage.lastEvaluated CatalogPage.nextCursor
    (f := fun page : QueryPage HeadRecord CatalogKey => CatalogPage.mk page.items page.lastEvaluated)
    (fun _ => rfl)
    (query HeadRecord.catalogKey
      (catalog.heads.filter (catalogCondition environment pathPrefix archived))
      (catalogFilter tags) 100) cuts (catalog.heads.length + 1) none
  refine ⟨_, hmap.trans (by rw [hpages]; rfl), ?_⟩
  rw [List.flatMap_map, ← filter_query catalog hvalid]
  exact hflat

/-! ## The tree -/

/-- What is below a path of a listing. -/
def belowPath (listed : List HeadRecord) (path : String) : List HeadRecord :=
  listed.filter fun head => Below (some path) head.secretId

/-- A tree partitions a listing: into the secrets of the path itself and those below its
folders. -/
structure Partitions (tree : SecretTreePage) (pathPrefix : Option String)
    (listed : List HeadRecord) : Prop where
  secrets : tree.secrets.Perm
    (listed.filter fun head => secretFolderPath head.secretId = pathPrefix)
  counted : ∀ folder ∈ tree.folders, folder.secretCount = (belowPath listed folder.path).length
  once : ∀ head ∈ listed, secretFolderPath head.secretId ≠ pathPrefix →
    ∃ folder ∈ tree.folders, Below (some folder.path) head.secretId ∧
      ∀ other ∈ tree.folders, Below (some other.path) head.secretId → other = folder
  whole : listed.Perm
    (tree.secrets ++ tree.folders.flatMap fun folder => belowPath listed folder.path)

/-- A tree that is not truncated has evaluated the whole range. -/
theorem items_of_untruncated (catalog : Catalog) {pathPrefix : Option String}
    (hvalid : ValidPrefix pathPrefix) {environment : String} {archived : Bool} {cut : Cut}
    {localeBefore : String → String → Bool}
    (h : (listSecretTree catalog environment pathPrefix localeBefore archived cut).truncated =
      false) :
    (query HeadRecord.catalogKey
        (catalog.heads.filter (catalogCondition environment pathPrefix archived))
        (catalogFilter []) (maximumBoundedScan + 1) none cut).items.take maximumBoundedScan =
      listing catalog environment pathPrefix [] archived := by
  simp only [listSecretTree, decide_eq_false_iff_not, not_or, not_lt, Bool.not_eq_true,
    Option.isSome_eq_false_iff, Option.isNone_iff_eq_none] at h
  obtain ⟨hlength, hlast⟩ := h
  rw [List.take_of_length_le hlength, query_last (by decide) hlast]
  exact filter_query catalog hvalid environment [] archived

/-- The folders of a tree before they are sorted. -/
def foldersOf (pathPrefix : Option String) (listed : List HeadRecord) : List SecretTreeFolder :=
  (tally (listed.filterMap (treeSegment pathPrefix))).map fun entry =>
    { segment := entry.1, path := treePath pathPrefix entry.1, secretCount := entry.2 }

theorem mem_foldersOf {pathPrefix : Option String} {listed : List HeadRecord}
    {folder : SecretTreeFolder} (hmem : folder ∈ foldersOf pathPrefix listed) :
    folder.path = treePath pathPrefix folder.segment ∧
      folder.secretCount = (listed.filterMap (treeSegment pathPrefix)).count folder.segment ∧
      ∃ head ∈ listed, treeSegment pathPrefix head = some folder.segment := by
  obtain ⟨⟨segment, count⟩, hentry, rfl⟩ := List.mem_map.mp hmem
  refine ⟨rfl, count_tally hentry, ?_⟩
  have hsegment := (keys_tally _).2 segment |>.mp (List.mem_map_of_mem hentry)
  exact List.mem_filterMap.mp hsegment

/-- The secrets that are counted under a segment are those below its path. -/
theorem filter_treeSegment {pathPrefix : Option String} {listed : List HeadRecord}
    (hbelow : ∀ head ∈ listed, Below pathPrefix head.secretId) {segment : String}
    (hsegment : '/' ∉ segment.toList) :
    (listed.filter fun head => treeSegment pathPrefix head = some segment) =
      belowPath listed (treePath pathPrefix segment) := by
  refine List.filter_congr fun head hhead => ?_
  rw [Bool.eq_iff_iff, decide_eq_true_iff, decide_eq_true_iff,
    treeSegment_eq_some (hbelow head hhead)]
  exact and_iff_right hsegment

theorem partitions_foldersOf {pathPrefix : Option String} {listed : List HeadRecord}
    (hbelow : ∀ head ∈ listed, Below pathPrefix head.secretId) {tree : SecretTreePage}
    (hfolders : tree.folders.Perm (foldersOf pathPrefix listed))
    (hsecrets : tree.secrets.Perm
      (listed.filter fun head => secretFolderPath head.secretId = pathPrefix)) :
    Partitions tree pathPrefix listed := by
  have hslash : ∀ folder ∈ foldersOf pathPrefix listed, '/' ∉ folder.segment.toList := by
    intro folder hfolder
    obtain ⟨-, -, head, hhead, hsegment⟩ := mem_foldersOf hfolder
    exact ((treeSegment_eq_some (hbelow head hhead)).mp hsegment).1
  -- a secret with another folder has a segment, and the table has it
  have hkey : ∀ head ∈ listed, secretFolderPath head.secretId ≠ pathPrefix →
      ∃ segment, treeSegment pathPrefix head = some segment := by
    intro head hhead hother
    obtain ⟨rest, hrest⟩ := hbelow head hhead
    rcases treeSegment_cases hrest.symm with ⟨-, hfolder⟩ | ⟨-, -, hsegment⟩
    · exact (hother hfolder).elim
    · exact ⟨_, hsegment⟩
  refine ⟨hsecrets, fun folder hfolder => ?_, fun head hhead hother => ?_, ?_⟩
  · have hfolder' := hfolders.mem_iff.mp hfolder
    obtain ⟨hpath, hcount, -⟩ := mem_foldersOf hfolder'
    calc folder.secretCount
        = (listed.filterMap (treeSegment pathPrefix)).count folder.segment := hcount
      _ = listed.countP fun head => treeSegment pathPrefix head = some folder.segment := by
          rw [List.count_filterMap]
          exact List.countP_congr fun head _ => by simp
      _ = (belowPath listed folder.path).length := by
          rw [List.countP_eq_length_filter, filter_treeSegment hbelow (hslash folder hfolder'),
            hpath]
  · obtain ⟨segment, hsegment⟩ := hkey head hhead hother
    have hmem : segment ∈ listed.filterMap (treeSegment pathPrefix) :=
      List.mem_filterMap.mpr ⟨head, hhead, hsegment⟩
    obtain ⟨⟨_, count⟩, hentry, rfl⟩ := List.mem_map.mp (((keys_tally _).2 segment).mpr hmem)
    refine ⟨_, hfolders.mem_iff.mpr (List.mem_map_of_mem hentry),
      ((treeSegment_eq_some (hbelow head hhead)).mp hsegment).2, fun other hmem' hbelow' => ?_⟩
    have hother' := hfolders.mem_iff.mp hmem'
    obtain ⟨⟨segment', count'⟩, hentry', rfl⟩ := List.mem_map.mp hother'
    have hsegment' := (treeSegment_eq_some (hbelow head hhead)).mpr
      ⟨hslash _ hother', hbelow'⟩
    obtain rfl := Option.some.inj (hsegment'.symm.trans hsegment)
    obtain rfl : count' = count := (count_tally hentry').trans (count_tally hentry).symm
    rfl
  · have hsplit := List.filter_append_perm
      (fun head : HeadRecord => decide (secretFolderPath head.secretId = pathPrefix)) listed
    refine hsplit.symm.trans (hsecrets.symm.append ?_)
    have hkeys : ∀ head ∈ listed.filter (fun head =>
        !decide (secretFolderPath head.secretId = pathPrefix)), treeSegment pathPrefix head ∈
          (foldersOf pathPrefix listed).map fun folder => some folder.segment := by
      intro head hhead
      obtain ⟨hhead, hother⟩ := List.mem_filter.mp hhead
      obtain ⟨segment, hsegment⟩ := hkey head hhead (by simpa using hother)
      have hmem : segment ∈ listed.filterMap (treeSegment pathPrefix) :=
        List.mem_filterMap.mpr ⟨head, hhead, hsegment⟩
      obtain ⟨entry, hentry, rfl⟩ := List.mem_map.mp (((keys_tally _).2 segment).mpr hmem)
      rw [hsegment]
      exact List.mem_map.mpr ⟨_, List.mem_map_of_mem hentry, rfl⟩
    have hnodup : ((foldersOf pathPrefix listed).map fun folder => some folder.segment).Nodup := by
      have hsegments : (foldersOf pathPrefix listed).map (fun folder => some folder.segment) =
          ((tally (listed.filterMap (treeSegment pathPrefix))).map Prod.fst).map some := by
        unfold foldersOf
        rw [List.map_map, List.map_map]
        rfl
      rw [hsegments]
      exact (keys_tally _).1.map (Option.some_injective _)
    refine (perm_flatMap_filter hnodup hkeys).trans ?_
    rw [List.flatMap_map]
    refine (List.Perm.of_eq (List.flatMap_congr fun folder hfolder => ?_)).trans
      (hfolders.symm.flatMap_right _)
    obtain ⟨hpath, -, -⟩ := mem_foldersOf hfolder
    rw [hpath, ← filter_treeSegment hbelow (hslash folder hfolder), List.filter_filter]
    refine List.filter_congr fun head _ => ?_
    rw [Bool.eq_iff_iff, Bool.and_eq_true, decide_eq_true_iff]
    refine and_iff_left_of_imp fun hsegment => ?_
    rw [Bool.not_eq_true', decide_eq_false_iff_not]
    intro hfolder
    rw [treeSegment, if_pos hfolder] at hsegment
    cases hsegment

/-- **A tree that is not truncated partitions the listing of its path.** -/
theorem partitions_listSecretTree (catalog : Catalog) {pathPrefix : Option String}
    (hvalid : ValidPrefix pathPrefix) {environment : String} {archived : Bool} {cut : Cut}
    {localeBefore : String → String → Bool}
    (h : (listSecretTree catalog environment pathPrefix localeBefore archived cut).truncated =
      false) :
    Partitions (listSecretTree catalog environment pathPrefix localeBefore archived cut) pathPrefix
      (listing catalog environment pathPrefix [] archived) := by
  have hitems := items_of_untruncated catalog hvalid h
  refine partitions_foldersOf (fun head hhead => ?_) ?_ ?_
  · exact (of_decide_eq_true (List.mem_filter.mp hhead).2).2.2.2.1
  · show (List.mergeSort _ _).Perm _
    rw [hitems]
    exact List.mergeSort_perm _ _
  · show (List.mergeSort _ _).Perm _
    rw [hitems]
    exact List.mergeSort_perm _ _

/-- The listing of a folder is what is below it in the listing above. -/
theorem listing_folder (catalog : Catalog) (environment : String) {pathPrefix : Option String}
    {segment : String} (archived : Bool) :
    listing catalog environment (some (treePath pathPrefix segment)) [] archived =
      belowPath (listing catalog environment pathPrefix [] archived)
        (treePath pathPrefix segment) := by
  unfold listing belowPath
  rw [List.filter_filter]
  refine List.filter_congr fun head _ => ?_
  rw [Bool.eq_iff_iff, Bool.and_eq_true, decide_eq_true_iff, decide_eq_true_iff, decide_eq_true_iff]
  have habove : Below (some (treePath pathPrefix segment)) head.secretId →
      Below pathPrefix head.secretId := by
    intro hbelow
    unfold Below at hbelow
    rw [base_treePath] at hbelow
    exact (List.prefix_append _ _).trans hbelow
  unfold Listed
  tauto

/-- **The count of a folder is what a listing of the folder finds.** -/
theorem count_folder (catalog : Catalog) {pathPrefix : Option String}
    (hvalid : ValidPrefix pathPrefix) {environment : String} {archived : Bool} {cut : Cut}
    {localeBefore : String → String → Bool}
    (h : (listSecretTree catalog environment pathPrefix localeBefore archived cut).truncated =
      false) :
    ∀ folder ∈ (listSecretTree catalog environment pathPrefix localeBefore archived cut).folders,
      ValidPrefix (some folder.path) ∧
        ∀ cut', (listSecretTree catalog environment (some folder.path) localeBefore archived
            cut').truncated = false →
          folder.secretCount =
            (listSecretTree catalog environment (some folder.path) localeBefore archived
              cut').secrets.length +
            ((listSecretTree catalog environment (some folder.path) localeBefore archived
              cut').folders.map SecretTreeFolder.secretCount).sum := by
  intro folder hfolder
  have hpartition := partitions_listSecretTree catalog hvalid h
  have hfolder' : folder ∈ foldersOf pathPrefix
      (listing catalog environment pathPrefix [] archived) := by
    rw [← items_of_untruncated catalog hvalid h]
    exact List.mem_mergeSort.mp hfolder
  obtain ⟨hpath, -, head, hhead, hsegment⟩ := mem_foldersOf hfolder'
  obtain ⟨hmem, hlisted⟩ := List.mem_filter.mp hhead
  have hbelow := (of_decide_eq_true hlisted).2.2.2.1
  have hvalid' : ValidPrefix (some folder.path) := by
    obtain ⟨hlength, hgrammar⟩ := catalog.ids head hmem
    exact validPrefix_of_below hlength hgrammar
      (hpath ▸ ((treeSegment_eq_some hbelow).mp hsegment).2)
  refine ⟨hvalid', fun cut' h' => ?_⟩
  have hpartition' := partitions_listSecretTree catalog hvalid' h'
  have hlisting : listing catalog environment (some folder.path) [] archived =
      belowPath (listing catalog environment pathPrefix [] archived) folder.path := by
    rw [hpath]
    exact listing_folder catalog environment archived
  have hwhole := hpartition'.whole.length_eq
  rw [List.length_append, List.length_flatMap] at hwhole
  rw [hpartition.counted folder hfolder, ← hlisting, hwhole]
  congr 2
  refine List.map_congr_left fun inner hinner => ?_
  exact (hpartition'.counted inner hinner).symm
/-! ## Agreement -/

theorem listing_perm (catalog : Catalog) (environment : String) (pathPrefix : Option String)
    {tags tags' : List (String × String)} (hperm : tags.Perm tags') (archived : Bool) :
    listing catalog environment pathPrefix tags archived =
      listing catalog environment pathPrefix tags' archived := by
  refine List.filter_congr fun head _ => ?_
  have htags : (∀ tag ∈ tags, tag ∈ head.metadata.tags.getD []) ↔
      ∀ tag ∈ tags', tag ∈ head.metadata.tags.getD [] := by
    simp only [hperm.mem_iff]
  rw [Bool.eq_iff_iff, decide_eq_true_iff, decide_eq_true_iff]
  unfold Listed
  rw [htags]

/-- **Listing, tag filter and tree agree with the heads.**  The tags that the client sends are
read as the tags that were accepted, in some order; the pages of a listing, however they are cut,
are the heads that are ready, in the partition, below the path and with the tags; and a tree that
is not truncated partitions the listing without tags, where the count of a folder is what its own
listing finds. -/
theorem catalog_agrees (catalog : Catalog) (environment : String) (archived : Bool)
    (pathPrefix : Option String) (hvalid : ValidPrefix pathPrefix)
    (serverBefore clientBefore : String → String → Bool) :
    (∀ raw metadata tags, parseMetadata serverBefore raw = .ok metadata →
      metadata.tags = some tags →
      ∃ parsed, parseCatalogTagFilters (some (Client.tagsParameter clientBefore tags)) =
          .ok parsed ∧ parsed.Perm tags ∧
        listing catalog environment pathPrefix parsed archived =
          listing catalog environment pathPrefix tags archived) ∧
    (∀ tags cuts, ∃ pages, follow CatalogPage.nextCursor
        (fun start cut => listSecrets catalog environment pathPrefix tags start archived cut) cuts
        (catalog.heads.length + 1) none = some pages ∧
      pages.flatMap CatalogPage.secrets = listing catalog environment pathPrefix tags archived) ∧
    ∀ cut, (listSecretTree catalog environment pathPrefix serverBefore archived cut).truncated =
        false →
      Partitions (listSecretTree catalog environment pathPrefix serverBefore archived cut)
          pathPrefix (listing catalog environment pathPrefix [] archived) ∧
        ∀ folder ∈
            (listSecretTree catalog environment pathPrefix serverBefore archived cut).folders,
          ValidPrefix (some folder.path) ∧
            ∀ cut', (listSecretTree catalog environment (some folder.path) serverBefore archived
                cut').truncated = false →
              folder.secretCount =
                (listSecretTree catalog environment (some folder.path) serverBefore archived
                  cut').secrets.length +
                ((listSecretTree catalog environment (some folder.path) serverBefore archived
                  cut').folders.map SecretTreeFolder.secretCount).sum := by
  refine ⟨fun raw metadata tags hraw htags => ?_,
    fun tags => pages_listSecrets catalog hvalid environment tags archived, fun cut h => 
      ⟨partitions_listSecretTree catalog hvalid h, count_folder catalog hvalid h⟩⟩
  have hsorted := sortTags_perm clientBefore tags
  have haccepted := (parseMetadata_tags hraw htags).perm hsorted
  exact ⟨_, parseCatalogTagFilters_intercalate haccepted, hsorted,
    listing_perm catalog environment pathPrefix hsorted archived⟩

namespace Sample

def head (secretUid secretId : String) (state : SecretState) : HeadRecord where
  secretUid := secretUid
  secretId := secretId
  environment := "prod"
  controlVersionId := "ctl-a"
  controlObjectVersionId := none
  controlObjectKey := none
  payloadVersionId := none
  payloadObjectVersionId := none
  payloadObjectKey := none
  payloadKeyCount := none
  state := state
  workflowState := .ready
  metadata := ⟨none, some [("team", "core")]⟩
  updatedAt := 0
  catalogPk := catalogPkFor "prod" (state = .archived)
  catalogSk := catalogSk secretId
  catalogTags := [("team", "core")]
  leaseOwner := none
  leaseExpiresAt := none
  syncSequence := none

/-- Two secrets below `platform`, one of them archived, and one beside it. -/
def catalog : Catalog where
  heads := [head "sec-a" "platform-next/token" .active, head "sec-b" "platform/main/token" .active,
    head "sec-c" "platform/token" .archived]
  nodup := by decide
  ids := by simp only [List.forall_mem_cons, head]; decide
  partitionKeys := by simp only [List.forall_mem_cons, head]; decide
  sortKeys := by simp only [List.forall_mem_cons, head]; decide
  tags := by simp only [List.forall_mem_cons, head]; decide
  tagKeys := by simp only [List.forall_mem_cons, head]; decide

end Sample

theorem catalog_agrees_sibling :
    ∃ pages, follow CatalogPage.nextCursor
        (fun start cut =>
          listSecrets Sample.catalog "prod" (some "platform") [("team", "core")] start false cut)
        (fun _ => ⟨0, true⟩) (Sample.catalog.heads.length + 1) none = some pages ∧
      pages.flatMap CatalogPage.secrets = [Sample.head "sec-b" "platform/main/token" .active] := by
  obtain ⟨pages, hpages, hflat⟩ := (catalog_agrees Sample.catalog "prod" false (some "platform")
    (validPrefix_some.mpr (by decide)) (· ≤ ·) (· ≤ ·)).2.1 [("team", "core")] fun _ => ⟨0, true⟩
  exact ⟨pages, hpages, hflat.trans (by decide)⟩


end Hemlig.Catalog
