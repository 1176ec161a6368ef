import ResearchWorkbench.Domain.Content
import ResearchWorkbench.Domain.Documents
import ResearchWorkbench.Library.Runs

namespace ResearchWorkbench.FileNames

/-!
# Names of uploaded files

`lib/security/files.ts`.

* `TextPlatform` — what the platform does with texts: `normalize("NFKC")`, `toLowerCase()` and
  whether bytes are UTF-8 with a JSON value;
* `safeFilename`, in its parts: `rewrittenLeaf`, `unboundedName`, `boundedName`;
* `extname` — `path.extname`, of a name without slashes.
-/

/-- What the platform does with texts. -/
structure TextPlatform where
  /-- `text.normalize("NFKC")`. -/
  nfkc : Text → Text
  /-- `text.toLowerCase()`. -/
  toLowerCase : Text → Text
  /-- `JSON.parse(new TextDecoder("utf-8", { fatal: true }).decode(bytes))` gives a value. -/
  readsJson : Bytes → Bool

/-- `FileValidationErrorCode`. -/
inductive FileValidationErrorCode
  | INVALID_FILENAME | UNSUPPORTED_EXTENSION | MIME_MISMATCH | INVALID_SIZE | SIGNATURE_MISMATCH
  deriving DecidableEq, Repr

/-- `FileValidationError`. -/
structure FileValidationError where
  code : FileValidationErrorCode
  message : Text
  deriving DecidableEq, Repr

/-! ### The name -/

/-- `[<>:"/\\|?*\u0000-\u001f\u007f]`. -/
def isForbiddenUnit (c : ℕ) : Bool :=
  c = 60 || c = 62 || c = 58 || c = 34 || c = 47 || c = 92 || c = 124 || c = 63 || c = 42 ||
    c ≤ 0x1f || c = 0x7f

/-- `[\u200e\u200f\u202a-\u202e\u2066-\u2069]`. -/
def isBidiUnit (c : ℕ) : Bool :=
  c = 0x200e || c = 0x200f || (0x202a ≤ c && c ≤ 0x202e) || (0x2066 ≤ c && c ≤ 0x2069)

/-- `[. ]`. -/
def isDotOrSpace (c : ℕ) : Bool := c = 46 || c = 32

/-- `-`. -/
def isDash (c : ℕ) : Bool := c = 45

/-- `value.replace(/\\/g, "/").split("/").pop() ?? ""`. -/
def leafOf (value : Text) : Text :=
  ((value.map fun c => if c = 92 then 47 else c).splitOn 47).getLast?.getD []

/-- The replacements of units and of runs, and what is stripped. -/
def rewrite (text : Text) : Text :=
  trimText (stripEnds isDotOrSpace (collapseRuns isDash 45 (collapseRuns isSpaceUnit 32
    ((text.map fun c => if isForbiddenUnit c then 45 else c).filter fun c => !isBidiUnit c))))

/-- The leaf after normalization and the replacements. -/
def rewrittenLeaf (platform : TextPlatform) (value : Text) : Text :=
  rewrite (platform.nfkc (leafOf value))

/-- The device names of `WINDOWS_RESERVED_NAME`, in lower case. -/
def deviceNames : List Text :=
  [asciiText "con", asciiText "prn", asciiText "aux", asciiText "nul"] ++
    ["com1", "com2", "com3", "com4", "com5", "com6", "com7", "com8", "com9"].map asciiText ++
    ["lpt1", "lpt2", "lpt3", "lpt4", "lpt5", "lpt6", "lpt7", "lpt8", "lpt9"].map asciiText

/-- `WINDOWS_RESERVED_NAME.test(name)`: a device name in any letter case, then the end or a dot. -/
def isReservedName (name : Text) : Bool :=
  deviceNames.any fun device => device.isPrefixOf (name.map lowerUnit) &&
    (name.drop device.length).head?.all fun c => c = 46

/-- The name before it is cut: what is missing is `upload`, and a device name gets a prefix. -/
def unboundedName (platform : TextPlatform) (value : Text) : Text :=
  let sanitized := rewrittenLeaf platform value
  let sanitized := if sanitized = [] ∨ sanitized = [46] ∨ sanitized = [46, 46] then
    asciiText "upload" else sanitized
  if isReservedName sanitized then asciiText "upload-" ++ sanitized else sanitized

/-- What follows the last dot. -/
def afterLastDot (name : Text) : Text := name.rtakeWhile fun c => c ≠ 46

/-- `path.extname(name)`, of a name without slashes: from the last dot on, unless there is none, it
    is the first unit, or the name is `..`. -/
def extname (name : Text) : Text :=
  if 46 ∉ name ∨ name.length = (afterLastDot name).length + 1 ∨ name = [46, 46] then []
  else 46 :: afterLastDot name

/-- `path.extname(sanitized).slice(0, 16)`. -/
def boundedExtension (sanitized : Text) : Text := (extname sanitized).take 16

/-- `Math.max(1, 120 - extension.length)`. -/
def stemLength (sanitized : Text) : ℕ := max 1 (120 - (boundedExtension sanitized).length)

/-- `sanitized.slice(0, stemLength).replace(/[. ]+$/g, "")`. -/
def boundedStem (sanitized : Text) : Text :=
  (sanitized.take (stemLength sanitized)).rdropWhile isDotOrSpace

/-- The name of at most 120 units. -/
def boundedName (sanitized : Text) : Text :=
  if sanitized.length > 120 then boundedStem sanitized ++ boundedExtension sanitized
  else sanitized

/-- `!value || /[\0\r\n]/.test(value)`. -/
def isRefused (value : Text) : Bool := value = [] || value.any fun c => c = 0 || c = 13 || c = 10

/-- `safeFilename(value)`. -/
def safeFilename (platform : TextPlatform) (value : Text) : Except FileValidationError Text :=
  if isRefused value then .error ⟨.INVALID_FILENAME, asciiText "Filename is invalid"⟩
  else .ok (boundedName (unboundedName platform value))

end ResearchWorkbench.FileNames
