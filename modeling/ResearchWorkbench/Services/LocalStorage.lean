import Mathlib.Data.Rat.Floor
import ResearchWorkbench.Domain.Content
import ResearchWorkbench.Library.Numerals
import ResearchWorkbench.Library.PosixPaths

namespace ResearchWorkbench.LocalStorage

/-!
# The local object storage

`lib/storage/local.ts` and the checks of `lib/storage/types.ts`: where objects lie, and how they
are listed.

* `validateBucket`, `validateObjectKey`, `validateListPageSize`;
* `LocalObjectStorage`, `target` — the storage and the path of an object;
* `DirectoryEntry`, `visit`, `listPages` — what lies below the bucket root, the walk through it and
  the pages it fills.
-/

open Posix

/-! ### Checks -/

/-- `StorageErrorCode`, as far as these functions throw it. -/
inductive StorageErrorCode
  | INVALID_LOCATION | INVALID_OBJECT
  deriving DecidableEq, Repr

/-- `StorageError`. -/
structure StorageError where
  code : StorageErrorCode
  message : String
  deriving DecidableEq, Repr

/-- `[a-z0-9]`. -/
def isLowerAlphanumeric (c : ℕ) : Bool := 97 ≤ c && c ≤ 122 || isDecimalDigit c

/-- `[a-z0-9.-]`. -/
def isBucketUnit (c : ℕ) : Bool := isLowerAlphanumeric c || c = 46 || c = 45

/-- `BUCKET_PATTERN.test(value)`. -/
def matchesBucketPattern : Text → Bool
  | [] => false
  | first :: rest => isLowerAlphanumeric first && (rest = [] ||
      rest.dropLast.length ≤ 61 && rest.dropLast.all isBucketUnit &&
        rest.getLast?.any isLowerAlphanumeric)

/-- `validateBucket(value)`. -/
def validateBucket (value : Text) : Except StorageError Text :=
  if !matchesBucketPattern value || decide (up <:+: value) then
    .error ⟨.INVALID_LOCATION, "Storage bucket is invalid."⟩
  else .ok value

/-- `[\0\r\n\u0001-\u001f\u007f]`. -/
def isControlUnit (c : ℕ) : Bool := c ≤ 31 || c = 127

/-- `validateObjectKey(value)`. -/
def validateObjectKey (value : Text) : Except StorageError Text :=
  if value = [] || value.length > 1024 || value.head? = some slash || value.getLast? = some slash ||
      value.contains 92 || value.any isControlUnit then
    .error ⟨.INVALID_LOCATION, "Storage object key is invalid."⟩
  else if (value.splitOn slash).any fun segment =>
      segment = [] || segment = here || segment = up then
    .error ⟨.INVALID_LOCATION, "Storage object key contains an unsafe segment."⟩
  else .ok value

/-- `validateListPageSize(value)`. -/
def validateListPageSize (value : ℚ) : Except StorageError ℕ :=
  if !value.isInt || value < 1 || value > 1000 then
    .error ⟨.INVALID_OBJECT, "Storage list page size is invalid."⟩
  else .ok value.num.toNat

/-! ### The storage -/

/-- `LocalObjectStorage`: an absolute root below `/`, and a valid bucket. -/
structure LocalObjectStorage where
  root : Text
  defaultBucket : Text
  root_resolved : ∃ segments, segments ≠ [] ∧ (∀ segment ∈ segments, Plain segment) ∧
    root = absolute segments
  bucket_valid : validateBucket defaultBucket = .ok defaultBucket

/-- `StorageLocation`. -/
structure StorageLocation where
  bucket : Option Text
  key : Text
  deriving DecidableEq, Repr

/-- What `target` returns. -/
structure Target where
  bucket : Text
  key : Text
  path : Text
  deriving DecidableEq, Repr

namespace LocalObjectStorage

/-- `bucket(location)`. -/
def bucket (storage : LocalObjectStorage) (location : StorageLocation) :
    Except StorageError Text := do
  let bucket ← validateBucket (location.bucket.getD storage.defaultBucket)
  if bucket ≠ storage.defaultBucket then
    .error ⟨.INVALID_LOCATION, "Storage location targets an unconfigured bucket."⟩
  else .ok bucket

/-- `target(location)`. -/
def target (storage : LocalObjectStorage) (cwd : Text) (location : StorageLocation) :
    Except StorageError Target := do
  let bucket ← storage.bucket location
  let key ← validateObjectKey location.key
  let bucketRoot := resolve cwd [storage.root, bucket]
  let target := resolve cwd (bucketRoot :: key.splitOn slash)
  if !(bucketRoot ++ [slash]).isPrefixOf target then
    .error ⟨.INVALID_LOCATION, "Storage path escaped its configured bucket."⟩
  else .ok { bucket, key, path := target }

end LocalObjectStorage

/-! ### Listing -/

/-- What `stat` says of a file, as far as a listing uses it. -/
structure FileStat where
  size : ℕ
  mtime : ℕ
  deriving DecidableEq, Repr

/-- An entry of a directory (`Dirent`), with what lies below it; `other` is a socket, a device and
    the like. -/
inductive DirectoryEntry where
  | file (name : Text) (stat : FileStat)
  | directory (name : Text) (entries : List DirectoryEntry)
  | symbolicLink (name : Text)
  | other (name : Text)

/-- `entry.name`. -/
def DirectoryEntry.name : DirectoryEntry → Text
  | .file name _ => name
  | .directory name _ => name
  | .symbolicLink name => name
  | .other name => name

/-- `ListedObject`. -/
structure ListedObject where
  location : StorageLocation
  byteSize : ℕ
  lastModified : ℕ
  deriving DecidableEq, Repr

/-- `ListObjectPagesOptions`; `keyPrefix` is its field `prefix`. -/
structure ListObjectPagesOptions where
  keyPrefix : Option Text
  pageSize : ℚ

/-- `path.relative(bucketRoot, entryPath).split(path.sep).join("/")`. -/
def relativeKey (bucketRoot entryPath : Text) : Text :=
  [slash].intercalate ((relative bucketRoot entryPath).splitOn slash)

/-- A directory that the walk leaves out. -/
def isPruned (normalizedPrefix relativeDirectory : Text) : Bool :=
  normalizedPrefix ≠ [] && !relativeDirectory.isPrefixOf normalizedPrefix &&
    !normalizedPrefix.isPrefixOf relativeDirectory

mutual

/-- The body of the loop of `visit`, for one entry of a directory. -/
def visitEntry (bucket bucketRoot normalizedPrefix directory : Text) :
    DirectoryEntry → List ListedObject
  | .symbolicLink _ => []
  | .directory name entries =>
    let entryPath := join directory name
    let relativeDirectory := relativeKey bucketRoot entryPath ++ [slash]
    if isPruned normalizedPrefix relativeDirectory then []
    else visit bucket bucketRoot normalizedPrefix entryPath entries
  | .other _ => []
  | .file name fileStat =>
    let entryPath := join directory name
    let key := relativeKey bucketRoot entryPath
    if normalizedPrefix = [] || normalizedPrefix.isPrefixOf key then
      [{ location := { bucket := some bucket, key }
         byteSize := fileStat.size
         lastModified := fileStat.mtime }]
    else []

/-- `visit(directory)`, for the entries in the order in which the directory is read. -/
def visit (bucket bucketRoot normalizedPrefix directory : Text) :
    List DirectoryEntry → List ListedObject
  | [] => []
  | entry :: entries =>
    visitEntry bucket bucketRoot normalizedPrefix directory entry ++
      visit bucket bucketRoot normalizedPrefix directory entries

end

/-- The loop that fills the pages. -/
def fillPages (pageSize : ℕ) (page : List ListedObject) :
    List ListedObject → List (List ListedObject)
  | [] => if page.length > 0 then [page] else []
  | object :: objects =>
    let page := page ++ [object]
    if page.length = pageSize then page :: fillPages pageSize [] objects
    else fillPages pageSize page objects

/-- `listPages(options)` of a bucket root that is a directory with the given entries. -/
def LocalObjectStorage.listPages (storage : LocalObjectStorage) (cwd : Text)
    (entries : List DirectoryEntry) (options : ListObjectPagesOptions) :
    Except StorageError (List (List ListedObject)) := do
  let keyPrefix := options.keyPrefix.getD []
  let normalizedPrefix ← if keyPrefix = [] then .ok [] else validateObjectKey keyPrefix
  let pageSize ← validateListPageSize options.pageSize
  let bucketRoot := resolve cwd [storage.root, storage.defaultBucket]
  return fillPages pageSize []
    (visit storage.defaultBucket bucketRoot normalizedPrefix bucketRoot entries)

end ResearchWorkbench.LocalStorage
