import ResearchWorkbench.Library.Result
import ResearchWorkbench.Services.LocalStorage

namespace ResearchWorkbench.LocalStorage

/-!
# Listings of the local storage

* `validateObjectKey_eq_ok`, `target_of_valid` — the segments of a valid key are plain, so its path
  is the bucket root, a slash and the key;
* `storedFiles`, `EntriesOk` — the regular files below a directory, by their segments, and
  directories whose names are plain and occur once;
* `not_isPruned` — a directory that is left out has no key with the prefix below it;
* `visit_eq` — the walk yields the files whose keys have the prefix, by induction on the tree;
* `fillPages_spec` — the pages;
* `local_listing_exact` — the listing is exact, and distinct keys have distinct paths.
-/

open Posix

/-! ### Keys and paths -/

/-- A valid key is made of plain segments. -/
theorem validateObjectKey_eq_ok {value key : Text} (h : validateObjectKey value = .ok key) :
    key = value ∧ (∀ segment ∈ value.splitOn slash, Plain segment) := by
  simp only [validateObjectKey] at h
  split at h
  · cases h
  · split at h
    · cases h
    · next hunsafe =>
      refine ⟨(Except.ok.inj h).symm, fun segment hmem => ?_⟩
      rw [List.any_eq_true] at hunsafe
      have hsegment := fun hsegment => hunsafe ⟨segment, hmem, hsegment⟩
      simp only [Bool.or_eq_true, decide_eq_true_eq, not_or, imp_false] at hsegment
      exact ⟨hsegment.1.1, hsegment.1.2, hsegment.2, slash_notMem_splitOn segment hmem⟩

/-- A valid bucket is a plain segment. -/
theorem plain_of_validateBucket {value bucket : Text} (h : validateBucket value = .ok bucket) :
    bucket = value ∧ Plain value := by
  simp only [validateBucket] at h
  split at h
  · cases h
  · next hvalid =>
    refine ⟨(Except.ok.inj h).symm, ?_⟩
    simp only [Bool.or_eq_true, Bool.not_eq_true', decide_eq_true_eq, not_or,
      Bool.not_eq_false] at hvalid
    obtain ⟨hpattern, hdots⟩ := hvalid
    cases value with
    | nil => cases hpattern
    | cons first rest =>
      simp only [matchesBucketPattern, Bool.and_eq_true, Bool.or_eq_true, decide_eq_true_eq] at hpattern
      obtain ⟨hfirst, hrest⟩ := hpattern
      have hslash : ∀ c, isBucketUnit c = true → c ≠ slash := by
        rintro c hc rfl
        exact absurd hc (by decide)
      have hunit : ∀ c, isLowerAlphanumeric c = true → isBucketUnit c = true := by
        intro c hc
        simp only [isBucketUnit, hc, Bool.true_or]
      refine ⟨List.cons_ne_nil _ _, ?_, ?_, ?_⟩
      · intro heq
        rw [List.cons.inj heq |>.1] at hfirst
        exact absurd hfirst (by decide)
      · intro heq
        rw [List.cons.inj heq |>.1] at hfirst
        exact absurd hfirst (by decide)
      · intro hmem
        rcases List.mem_cons.mp hmem with heq | hmem
        · exact hslash first (hunit first hfirst) heq.symm
        · rcases hrest with hnil | ⟨⟨-, hmiddle⟩, hlast⟩
          · rw [hnil] at hmem
            exact absurd hmem List.not_mem_nil
          · have hne := List.ne_nil_of_mem hmem
            rw [← List.dropLast_append_getLast hne, List.mem_append, List.mem_singleton] at hmem
            rcases hmem with hmem | heq
            · exact hslash slash (List.all_eq_true.mp hmiddle slash hmem) rfl
            · rw [List.getLast?_eq_some_getLast hne, Option.any_some, ← heq] at hlast
              exact hslash slash (hunit slash hlast) rfl

namespace LocalObjectStorage

variable (storage : LocalObjectStorage)

/-- `path.resolve(this.root, bucket)`. -/
def bucketRoot (cwd : Text) : Text := resolve cwd [storage.root, storage.defaultBucket]

/-- The bucket root is the path of at least two plain segments. -/
theorem exists_bucketRoot (cwd : Text) :
    ∃ base, base ≠ [] ∧ (∀ segment ∈ base, Plain segment) ∧ storage.bucketRoot cwd = absolute base := by
  obtain ⟨segments, -, hplain, hroot⟩ := storage.root_resolved
  have hbucket := (plain_of_validateBucket storage.bucket_valid).2
  have hplain' : ∀ segment ∈ [storage.defaultBucket], Plain segment := by
    intro segment hmem
    rw [List.mem_singleton.mp hmem]
    exact hbucket
  refine ⟨segments ++ [storage.defaultBucket], by simp, ?_, ?_⟩
  · exact fun segment hmem => (List.mem_append.mp hmem).elim (hplain segment) (hplain' segment)
  · rw [bucketRoot, hroot]
    exact resolve_below cwd hplain hplain'

/-- **The path of an object** is its key, below the bucket root. -/
theorem target_of_valid (cwd : Text) {location : StorageLocation} {key : Text}
    (hbucket : location.bucket = none ∨ location.bucket = some storage.defaultBucket)
    (hkey : validateObjectKey location.key = .ok key) :
    storage.target cwd location = .ok
      { bucket := storage.defaultBucket, key, path := storage.bucketRoot cwd ++ slash :: key } := by
  obtain ⟨rfl, hplain⟩ := validateObjectKey_eq_ok hkey
  have hown : storage.bucket location = .ok storage.defaultBucket := by
    have hgetD : location.bucket.getD storage.defaultBucket = storage.defaultBucket := by
      rcases hbucket with heq | heq <;> rw [heq] <;> rfl
    rw [bucket, hgetD, storage.bucket_valid]
    exact if_neg fun hne => hne rfl
  obtain ⟨base, hbase, hbasePlain, hroot⟩ := storage.exists_bucketRoot cwd
  have hpath : resolve cwd (storage.bucketRoot cwd :: location.key.splitOn slash) =
      storage.bucketRoot cwd ++ slash :: location.key := by
    rw [hroot, resolve_below cwd hbasePlain hplain,
      absolute_append hbase (List.splitOn_ne_nil slash _), List.intercalate_splitOn]
  have hbelow : (storage.bucketRoot cwd ++ [slash]).isPrefixOf
      (storage.bucketRoot cwd ++ slash :: location.key) = true := by
    rw [List.isPrefixOf_iff_prefix]
    exact ⟨location.key, by rw [List.append_assoc, List.singleton_append]⟩
  rw [bucketRoot] at hpath hbelow
  simp only [target, hown, hkey, bind, Except.bind, hpath, hbelow, bucketRoot]
  exact if_neg (by decide)

end LocalObjectStorage

/-! ### The walk -/

mutual

/-- The regular files of an entry, by the segments that lead to them. -/
def storedEntry : DirectoryEntry → List (List Text × FileStat)
  | .file name stat => [([name], stat)]
  | .directory name entries => (storedFiles entries).map fun file => (name :: file.1, file.2)
  | .symbolicLink _ => []
  | .other _ => []

/-- The regular files below a directory. -/
def storedFiles : List DirectoryEntry → List (List Text × FileStat)
  | [] => []
  | entry :: entries => storedEntry entry ++ storedFiles entries

end

mutual

/-- The name of an entry, and the names below it, are names. -/
def EntryOk : DirectoryEntry → Prop
  | .directory name entries => Plain name ∧ EntriesOk entries
  | .file name _ => Plain name
  | .symbolicLink name => Plain name
  | .other name => Plain name

/-- The names of a directory occur once. -/
def EntriesOk : List DirectoryEntry → Prop
  | [] => True
  | entry :: entries =>
    EntryOk entry ∧ (∀ other ∈ entries, other.name ≠ entry.name) ∧ EntriesOk entries

end

/-- The key of a file, by its segments. -/
def keyOf (file : List Text × FileStat) : Text := [slash].intercalate file.1

/-- A file below a directory of the bucket, as it is listed. -/
def listed (bucket : Text) (segments : List Text) (file : List Text × FileStat) : ListedObject where
  location := { bucket := some bucket, key := [slash].intercalate (segments ++ file.1) }
  byteSize := file.2.size
  lastModified := file.2.mtime

/-- **Pruning.**  A directory that is left out has no key with the prefix below it. -/
theorem not_isPruned {normalizedPrefix relativeDirectory key : Text}
    (hbelow : relativeDirectory <+: key) (h : isPruned normalizedPrefix relativeDirectory = true) :
    ¬ normalizedPrefix <+: key := by
  intro hmatched
  simp only [isPruned, Bool.and_eq_true, Bool.not_eq_true', ← Bool.not_eq_true,
    List.isPrefixOf_iff_prefix] at h
  rcases List.prefix_or_prefix_of_prefix hbelow hmatched with hle | hle
  · exact h.1.2 hle
  · exact h.2 hle

mutual

theorem storedEntry_ne_nil : ∀ (entry : DirectoryEntry), ∀ file ∈ storedEntry entry, file.1 ≠ []
  | .file name stat => by
    intro file hmem
    rw [storedEntry, List.mem_singleton] at hmem
    rw [hmem]
    exact List.cons_ne_nil _ _
  | .directory name entries => by
    intro file hmem
    rw [storedEntry, List.mem_map] at hmem
    obtain ⟨below, -, rfl⟩ := hmem
    exact List.cons_ne_nil _ _
  | .symbolicLink name => fun file hmem => absurd hmem List.not_mem_nil
  | .other name => fun file hmem => absurd hmem List.not_mem_nil

theorem storedFiles_ne_nil : ∀ (entries : List DirectoryEntry), ∀ file ∈ storedFiles entries,
    file.1 ≠ []
  | [] => fun file hmem => absurd hmem List.not_mem_nil
  | entry :: entries => by
    intro file hmem
    rw [storedFiles] at hmem
    exact (List.mem_append.mp hmem).elim (storedEntry_ne_nil entry file)
      (storedFiles_ne_nil entries file)

end

/-- The key of an entry, as the walk makes it. -/
theorem relativeKey_below {base segments : List Text} {name : Text}
    (hbase : ∀ segment ∈ base, Plain segment) (hsegments : ∀ segment ∈ segments, Plain segment)
    (hname : Plain name) :
    relativeKey (absolute base) (join (absolute (base ++ segments)) name) =
      [slash].intercalate (segments ++ [name]) := by
  have hbelow : ∀ segment ∈ base ++ segments, Plain segment := fun segment hmem =>
    (List.mem_append.mp hmem).elim (hbase segment) (hsegments segment)
  have hown : ∀ segment ∈ segments ++ [name], Plain segment := by
    intro segment hmem
    rcases List.mem_append.mp hmem with hmem | hmem
    · exact hsegments segment hmem
    · rw [List.mem_singleton.mp hmem]
      exact hname
  rw [relativeKey, join_below hbelow hname, List.append_assoc, relative_below hbase hown,
    List.intercalate_splitOn]

section

variable {bucket normalizedPrefix : Text} {base : List Text}

/-- The listed objects whose keys have the prefix. -/
def withPrefix (normalizedPrefix : Text) (objects : List ListedObject) : List ListedObject :=
  objects.filter fun object => normalizedPrefix.isPrefixOf object.location.key

mutual

theorem visitEntry_eq (hbase : ∀ segment ∈ base, Plain segment) :
    ∀ (entry : DirectoryEntry) {segments : List Text}, (∀ segment ∈ segments, Plain segment) →
      EntryOk entry →
      visitEntry bucket (absolute base) normalizedPrefix (absolute (base ++ segments)) entry =
        withPrefix normalizedPrefix ((storedEntry entry).map (listed bucket segments))
  | .file name stat, segments, hsegments, hname => by
    rw [visitEntry, relativeKey_below hbase hsegments hname, storedEntry, List.map_singleton,
      withPrefix, List.filter_singleton]
    by_cases hempty : normalizedPrefix = []
    · subst hempty
      rfl
    · simp only [hempty, decide_false, Bool.false_or, cond_eq_ite]
      rfl
  | .directory name entries, segments, hsegments, ⟨hname, hentries⟩ => by
    have hown : ∀ segment ∈ segments ++ [name], Plain segment := by
      intro segment hmem
      rcases List.mem_append.mp hmem with hmem | hmem
      · exact hsegments segment hmem
      · rw [List.mem_singleton.mp hmem]
        exact hname
    have hbelow : ∀ segment ∈ base ++ segments, Plain segment := fun segment hmem =>
      (List.mem_append.mp hmem).elim (hbase segment) (hsegments segment)
    have hfiles : (storedEntry (.directory name entries)).map (listed bucket segments) =
        (storedFiles entries).map (listed bucket (segments ++ [name])) := by
      rw [storedEntry, List.map_map]
      refine List.map_congr_left fun file _ => ?_
      simp only [Function.comp_apply, listed, List.append_assoc, List.singleton_append]
    rw [hfiles, visitEntry, relativeKey_below hbase hsegments hname]
    by_cases hpruned : isPruned normalizedPrefix ([slash].intercalate (segments ++ [name]) ++ [slash])
    · rw [if_pos hpruned, withPrefix, eq_comm, List.filter_eq_nil_iff]
      intro object hmem
      obtain ⟨file, hfile, rfl⟩ := List.mem_map.mp hmem
      rw [List.isPrefixOf_iff_prefix]
      refine not_isPruned ⟨[slash].intercalate file.1, ?_⟩ hpruned
      rw [listed, intercalate_append (by simp) (storedFiles_ne_nil entries file hfile),
        List.append_assoc, List.singleton_append]
    · rw [if_neg hpruned, join_below hbelow hname, List.append_assoc]
      exact visit_eq hbase entries hown hentries
  | .symbolicLink name, segments, _, _ => rfl
  | .other name, segments, _, _ => rfl

/-- **The walk** yields the files below a directory whose keys have the prefix. -/
theorem visit_eq (hbase : ∀ segment ∈ base, Plain segment) :
    ∀ (entries : List DirectoryEntry) {segments : List Text},
      (∀ segment ∈ segments, Plain segment) → EntriesOk entries →
      visit bucket (absolute base) normalizedPrefix (absolute (base ++ segments)) entries =
        withPrefix normalizedPrefix ((storedFiles entries).map (listed bucket segments))
  | [], segments, _, _ => rfl
  | entry :: entries, segments, hsegments, ⟨hentry, _, hentries⟩ => by
    rw [visit, visitEntry_eq hbase entry hsegments hentry, visit_eq hbase entries hsegments hentries,
      storedFiles, List.map_append, withPrefix, withPrefix, withPrefix, List.filter_append]

end

end

/-! ### Keys occur once -/

mutual

theorem storedEntry_plain : ∀ (entry : DirectoryEntry), EntryOk entry →
    ∀ file ∈ storedEntry entry, file.1.head? = some entry.name ∧ ∀ segment ∈ file.1, Plain segment
  | .file name stat, hname => by
    intro file hmem
    rw [storedEntry, List.mem_singleton] at hmem
    rw [hmem]
    refine ⟨rfl, fun segment hsegment => ?_⟩
    rw [List.mem_singleton.mp hsegment]
    exact hname
  | .directory name entries, ⟨hname, hentries⟩ => by
    intro file hmem
    rw [storedEntry, List.mem_map] at hmem
    obtain ⟨below, hbelow, rfl⟩ := hmem
    refine ⟨rfl, ?_⟩
    rw [List.forall_mem_cons]
    exact ⟨hname, storedFiles_plain entries hentries below hbelow⟩
  | .symbolicLink name, _ => fun file hmem => absurd hmem List.not_mem_nil
  | .other name, _ => fun file hmem => absurd hmem List.not_mem_nil

theorem storedFiles_plain : ∀ (entries : List DirectoryEntry), EntriesOk entries →
    ∀ file ∈ storedFiles entries, ∀ segment ∈ file.1, Plain segment
  | [], _ => fun file hmem => absurd hmem List.not_mem_nil
  | entry :: entries, ⟨hentry, _, hentries⟩ => by
    intro file hmem
    rw [storedFiles] at hmem
    rcases List.mem_append.mp hmem with hmem | hmem
    · exact (storedEntry_plain entry hentry file hmem).2
    · exact storedFiles_plain entries hentries file hmem

end

/-- The first segment of a file is the name of an entry. -/
theorem exists_name : ∀ (entries : List DirectoryEntry), EntriesOk entries →
    ∀ file ∈ storedFiles entries, ∃ entry ∈ entries, file.1.head? = some entry.name
  | [], _ => fun file hmem => absurd hmem List.not_mem_nil
  | entry :: entries, ⟨hentry, _, hentries⟩ => by
    intro file hmem
    rw [storedFiles] at hmem
    rcases List.mem_append.mp hmem with hmem | hmem
    · exact ⟨entry, List.mem_cons_self, (storedEntry_plain entry hentry file hmem).1⟩
    · obtain ⟨other, hother, hhead⟩ := exists_name entries hentries file hmem
      exact ⟨other, List.mem_cons_of_mem _ hother, hhead⟩

mutual

theorem storedEntry_nodup : ∀ (entry : DirectoryEntry), EntryOk entry →
    ((storedEntry entry).map (·.1)).Nodup
  | .file name stat, _ => List.nodup_singleton _
  | .directory name entries, ⟨_, hentries⟩ => by
    have hnodup := (storedFiles_nodup entries hentries).map (f := List.cons name)
      fun a b hab => (List.cons.inj hab).2
    rw [List.map_map] at hnodup
    rw [storedEntry, List.map_map]
    exact hnodup
  | .symbolicLink name, _ => List.nodup_nil
  | .other name, _ => List.nodup_nil

theorem storedFiles_nodup : ∀ (entries : List DirectoryEntry), EntriesOk entries →
    ((storedFiles entries).map (·.1)).Nodup
  | [], _ => List.nodup_nil
  | entry :: entries, ⟨hentry, hnames, hentries⟩ => by
    rw [storedFiles, List.map_append, List.nodup_append]
    refine ⟨storedEntry_nodup entry hentry, storedFiles_nodup entries hentries, ?_⟩
    intro path hpath path' hpath' heq
    obtain ⟨file, hfile, rfl⟩ := List.mem_map.mp hpath
    obtain ⟨file', hfile', rfl⟩ := List.mem_map.mp hpath'
    -- the paths begin with names of different entries
    have hhead := (storedEntry_plain entry hentry file hfile).1
    obtain ⟨other, hother, hhead'⟩ := exists_name entries hentries file' hfile'
    rw [heq, hhead'] at hhead
    exact hnames other hother (Option.some.inj hhead)

end

/-- **The keys of a directory tree occur once.** -/
theorem keys_nodup {entries : List DirectoryEntry} (h : EntriesOk entries) :
    ((storedFiles entries).map keyOf).Nodup := by
  have hpaths := storedFiles_nodup entries h
  refine List.Nodup.map_on ?_ hpaths.of_map
  intro file hfile file' hfile' heq
  have hslash := fun file hfile segment hmem =>
    (storedFiles_plain entries h file hfile segment hmem).notMem
  have hsame : file.1 = file'.1 := intercalate_injective (storedFiles_ne_nil entries file hfile)
    (storedFiles_ne_nil entries file' hfile') (hslash file hfile) (hslash file' hfile') heq
  exact List.inj_on_of_nodup_map hpaths hfile hfile' hsame

/-! ### Pages -/

/-- **The pages**: all the objects in their order, `pageSize` to a page but on the last. -/
theorem fillPages_spec {pageSize : ℕ} (objects : List ListedObject) {page : List ListedObject}
    (hpage : page.length < pageSize) :
    (fillPages pageSize page objects).flatten = page ++ objects ∧
      (∀ filled ∈ fillPages pageSize page objects, 0 < filled.length ∧ filled.length ≤ pageSize) ∧
      ∀ filled ∈ (fillPages pageSize page objects).dropLast, filled.length = pageSize := by
  induction objects generalizing page with
  | nil =>
    rw [fillPages]
    by_cases hempty : page.length > 0
    · rw [if_pos hempty]
      refine ⟨by simp, fun filled hmem => ?_, fun filled hmem => absurd hmem List.not_mem_nil⟩
      rw [List.mem_singleton.mp hmem]
      exact ⟨hempty, hpage.le⟩
    · rw [if_neg hempty]
      have hnil : page = [] := List.eq_nil_of_length_eq_zero (by omega)
      subst hnil
      exact ⟨rfl, fun _ hmem => absurd hmem List.not_mem_nil,
        fun _ hmem => absurd hmem List.not_mem_nil⟩
  | cons object objects ih =>
    have hlength : (page ++ [object]).length = page.length + 1 := by
      rw [List.length_append, List.length_singleton]
    simp only [fillPages]
    by_cases hfull : (page ++ [object]).length = pageSize
    · simp only [if_pos hfull]
      obtain ⟨hflatten, hsizes, hlast⟩ := @ih [] (by rw [List.length_nil]; omega)
      refine ⟨?_, ?_, ?_⟩
      · rw [List.flatten_cons, hflatten, List.nil_append, List.append_assoc, List.singleton_append]
      · rw [List.forall_mem_cons]
        exact ⟨⟨by omega, hfull.le⟩, hsizes⟩
      · intro filled hmem
        cases hrest : fillPages pageSize [] objects with
        | nil =>
          rw [hrest] at hmem
          exact absurd hmem List.not_mem_nil
        | cons first rest =>
          rw [hrest] at hmem hlast
          rw [List.dropLast_cons_of_ne_nil (List.cons_ne_nil _ _)] at hmem
          rcases List.mem_cons.mp hmem with rfl | hmem
          · exact hfull
          · exact hlast filled hmem
    · simp only [if_neg hfull]
      obtain ⟨hflatten, hsizes, hlast⟩ := @ih (page ++ [object]) (by omega)
      refine ⟨?_, hsizes, hlast⟩
      rw [hflatten, List.append_assoc, List.singleton_append]

/-! ### The listing -/

/-- A path strictly below another one. -/
def IsBelow (path root : Text) : Prop :=
  ∃ segments, segments ≠ [] ∧ (∀ segment ∈ segments, Plain segment) ∧
    path = root ++ slash :: [slash].intercalate segments

/-- The prefix of the options is missing, empty or a valid key. -/
def ListObjectPagesOptions.ValidPrefix (options : ListObjectPagesOptions) : Prop :=
  options.keyPrefix.getD [] = [] ∨
    validateObjectKey (options.keyPrefix.getD []) = .ok (options.keyPrefix.getD [])

namespace LocalObjectStorage

/-- What the pages hold: the files of the tree whose keys have the prefix, in the order of the
    walk. -/
theorem listPages_eq (storage : LocalObjectStorage) (cwd : Text) {entries : List DirectoryEntry}
    {options : ListObjectPagesOptions} {pageSize : ℕ} (hentries : EntriesOk entries)
    (hmatched : options.ValidPrefix) (hsize : validateListPageSize options.pageSize = .ok pageSize) :
    storage.listPages cwd entries options = .ok (fillPages pageSize []
      (withPrefix (options.keyPrefix.getD [])
        ((storedFiles entries).map (listed storage.defaultBucket [])))) := by
  obtain ⟨base, -, hbase, hroot⟩ := storage.exists_bucketRoot cwd
  have hwalk : visit storage.defaultBucket (absolute base) (options.keyPrefix.getD [])
      (absolute (base ++ [])) entries = withPrefix (options.keyPrefix.getD [])
        ((storedFiles entries).map (listed storage.defaultBucket [])) :=
    visit_eq hbase entries (fun _ hmem => absurd hmem List.not_mem_nil) hentries
  rw [List.append_nil, ← hroot, bucketRoot] at hwalk
  by_cases hempty : options.keyPrefix.getD [] = []
  · rw [hempty] at hwalk
    simp only [listPages, hempty, if_true, hsize, bind, Except.bind, pure, Except.pure, hwalk]
  · simp only [listPages, if_neg hempty, hmatched.resolve_left hempty, hsize, bind, Except.bind, pure,
      Except.pure, hwalk]

end LocalObjectStorage

/-- **Local listing is exact.**  For every tree of directories with regular files, every valid
    prefix and page size: each key that is stored and has the prefix is listed once, no other key
    is; a page has at most `pageSize` objects, and only the last may have fewer; no directory that
    is left out has a matching key below it; and valid keys have paths strictly below the bucket
    root, distinct ones for distinct keys. -/
theorem local_listing_exact (storage : LocalObjectStorage) (cwd : Text)
    {entries : List DirectoryEntry} {options : ListObjectPagesOptions} {pageSize : ℕ}
    (hentries : EntriesOk entries) (hmatched : options.ValidPrefix)
    (hsize : validateListPageSize options.pageSize = .ok pageSize) :
    (∃ pages, storage.listPages cwd entries options = .ok pages ∧
      (∀ key, (pages.flatten.map (·.location.key)).count key =
        if key ∈ (storedFiles entries).map keyOf ∧ options.keyPrefix.getD [] <+: key then 1 else 0) ∧
      (∀ page ∈ pages, 0 < page.length ∧ page.length ≤ pageSize) ∧
      ∀ page ∈ pages.dropLast, page.length = pageSize) ∧
    (∀ relativeDirectory key, relativeDirectory <+: key →
      isPruned (options.keyPrefix.getD []) relativeDirectory →
        ¬ options.keyPrefix.getD [] <+: key) ∧
    ∃ pathOf : Text → Text, ∀ key, validateObjectKey key = .ok key →
      storage.target cwd { bucket := none, key } =
        .ok { bucket := storage.defaultBucket, key, path := pathOf key } ∧
      IsBelow (pathOf key) (storage.bucketRoot cwd) ∧
      ∀ key', validateObjectKey key' = .ok key' → key' ≠ key → pathOf key' ≠ pathOf key := by
  refine ⟨⟨_, storage.listPages_eq cwd hentries hmatched hsize, ?_⟩,
    fun relativeDirectory key hbelow hpruned => not_isPruned hbelow hpruned,
    fun key => storage.bucketRoot cwd ++ slash :: key, fun key hkey => ⟨?_, ?_, ?_⟩⟩
  · have hpositive : 0 < pageSize := by
      simp only [validateListPageSize] at hsize
      split at hsize
      · cases hsize
      · next hvalid =>
        simp only [Bool.or_eq_true, decide_eq_true_eq, not_or, not_lt] at hvalid
        have hnum : 0 < options.pageSize.num := Rat.num_pos.mpr (by linarith [hvalid.1.2])
        obtain rfl := Except.ok.inj hsize
        omega
    obtain ⟨hflatten, hsizes, hlast⟩ := @fillPages_spec _ (withPrefix (options.keyPrefix.getD [])
      ((storedFiles entries).map (listed storage.defaultBucket []))) [] hpositive
    refine ⟨fun key => ?_, hsizes, hlast⟩
    have hkeys : (((storedFiles entries).map (listed storage.defaultBucket [])).map
        (·.location.key)).Nodup := by
      rw [List.map_map]
      exact keys_nodup hentries
    rw [hflatten, List.nil_append, withPrefix, List.Nodup.count
      (hkeys.sublist (List.filter_sublist.map _))]
    refine if_congr ?_ rfl rfl
    simp only [List.mem_map, List.mem_filter, List.isPrefixOf_iff_prefix]
    constructor
    · rintro ⟨object, ⟨⟨file, hfile, rfl⟩, hmatch⟩, rfl⟩
      exact ⟨⟨file, hfile, rfl⟩, hmatch⟩
    · rintro ⟨⟨file, hfile, rfl⟩, hmatch⟩
      exact ⟨_, ⟨⟨file, hfile, rfl⟩, hmatch⟩, rfl⟩
  · exact storage.target_of_valid cwd (.inl rfl) hkey
  · obtain ⟨-, hplain⟩ := validateObjectKey_eq_ok hkey
    exact ⟨_, List.splitOn_ne_nil slash key, hplain, by rw [List.intercalate_splitOn]⟩
  · intro key' _ hne heq
    exact hne (List.cons.inj (List.append_cancel_left heq)).2

/-- The storage in `/data`. -/
def exampleStorage : LocalObjectStorage where
  root := absolute [asciiText "data"]
  defaultBucket := asciiText "private"
  root_resolved := ⟨_, List.cons_ne_nil _ _, by decide +kernel, rfl⟩
  bucket_valid := by decide +kernel

/-- A file, and a directory with another one and a link. -/
def exampleEntries : List DirectoryEntry :=
  [.file (asciiText "a") ⟨1, 0⟩, .directory (asciiText "b")
    [.symbolicLink (asciiText "c"), .file (asciiText "d") ⟨2, 0⟩]]

theorem example_listed :
    ∃ pages, exampleStorage.listPages [slash] exampleEntries ⟨some (asciiText "b/d"), 1⟩ = .ok pages ∧
      (pages.flatten.map (·.location.key)).count (asciiText "b/d") = 1 := by
  have hentries : EntriesOk exampleEntries :=
    ⟨show Plain (asciiText "a") by decide, by decide,
      ⟨show Plain (asciiText "b") by decide, show Plain (asciiText "c") by decide, by decide,
        show Plain (asciiText "d") by decide, by decide, trivial⟩, by decide, trivial⟩
  have hmatched : (ListObjectPagesOptions.mk (some (asciiText "b/d")) 1).ValidPrefix :=
    .inr (by decide +kernel)
  have hsize : validateListPageSize 1 = .ok 1 := by decide +kernel
  obtain ⟨⟨pages, hpages, hcount, -⟩, -⟩ :=
    local_listing_exact exampleStorage [slash] hentries hmatched hsize
  exact ⟨pages, hpages, (hcount (asciiText "b/d")).trans (if_pos (by decide +kernel))⟩

end ResearchWorkbench.LocalStorage
