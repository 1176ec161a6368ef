import Mathlib.Data.List.Flatten
import ResearchWorkbench.Domain.Documents

namespace ResearchWorkbench.BoundedReads

/-!
# Reads with a limit

* `readFileHandleBounded` — `lib/storage/local.ts`;
* `readS3Body` — `lib/storage/s3.ts`;
* `readJsonWithLimit` — `lib/providers/execution.ts`.

A `Reading` has, besides its result, how many received bytes it has held: at each read, with the
chunk that is read just then, and at the end, with the copy that joins the chunks.
-/

/-- What a reader comes to, and what it has held on the way. -/
structure Reading (ε α : Type) where
  held : List ℕ
  joined : ℕ
  result : Except ε α
  deriving Repr

variable {ε α : Type}

/-- A read before the others, which has held `n` bytes. -/
def Reading.holding (n : ℕ) (r : Reading ε α) : Reading ε α := { r with held := n :: r.held }

/-- A reader that fails. -/
def Reading.failed (e : ε) : Reading ε α := ⟨[], 0, .error e⟩

/-- `bytes.set(chunk, offset)`. -/
def setBytes (bytes : Bytes) (offset : ℕ) (chunk : Bytes) : Bytes :=
  bytes.take offset ++ chunk ++ bytes.drop (offset + chunk.length)

/-- The loop that copies the chunks. -/
def copyChunks (bytes : Bytes) (offset : ℕ) : List Bytes → Bytes
  | [] => bytes
  | chunk :: chunks => copyChunks (setBytes bytes offset chunk) (offset + chunk.length) chunks

/-- `new Uint8Array(total)`, filled with the chunks. -/
def joinChunks (chunks : List Bytes) (total : ℕ) : Bytes :=
  copyChunks (List.replicate total 0) 0 chunks

/-- A reader that has come to the end, with what `f` makes of the joined chunks. -/
def Reading.joining (chunks : List Bytes) (total : ℕ) (f : Bytes → Except ε α) : Reading ε α :=
  ⟨[], total + total, f (joinChunks chunks total)⟩

/-! ### Stored objects -/

/-- `StorageErrorCode`, as far as the readers throw it. -/
inductive StorageErrorCode
  | OBJECT_TOO_LARGE | STORAGE_UNAVAILABLE
  deriving DecidableEq, Repr

/-- `StorageError`. -/
structure StorageError where
  code : StorageErrorCode
  message : String
  deriving DecidableEq, Repr

/-- The error of an object that is too large. -/
def objectTooLarge : StorageError :=
  ⟨.OBJECT_TOO_LARGE, "Storage object exceeds the read limit."⟩

/-- The error of a body that is not binary. -/
def nonBinaryChunk : StorageError :=
  ⟨.STORAGE_UNAVAILABLE, "S3 object body returned a non-binary chunk."⟩

/-- `READ_CHUNK_BYTES`. -/
def readChunkBytes : ℕ := 64 * 1024

/-- `BoundedReadHandle`: what its reads put into a buffer of a length, at a position of the file.
    The reads are numbered, for the file may change between them. -/
structure BoundedReadHandle where
  read : ℕ → ℕ → ℕ → Bytes
  length_read_le : ∀ call length position, (read call length position).length ≤ length

/-- The loop of `readFileHandleBounded`: the number of the next read, and what has been read. -/
def readFileLoop (handle : BoundedReadHandle) (limit call : ℕ) (chunks : List Bytes)
    (total : ℕ) : Reading StorageError Bytes :=
  if _h : total ≤ limit then
    let length := min readChunkBytes (limit - total + 1)
    let chunk := handle.read call length total
    if _h0 : chunk.length = 0 then
      (Reading.joining chunks total .ok).holding (total + length)
    else if limit < total + chunk.length then
      (Reading.failed objectTooLarge).holding (total + length)
    else
      (readFileLoop handle limit (call + 1) (chunks ++ [chunk])
        (total + chunk.length)).holding (total + length)
  else Reading.joining chunks total .ok
termination_by limit + 1 - total
decreasing_by
  show limit + 1 - (total + chunk.length) < limit + 1 - total
  omega

/-- `readFileHandleBounded(handle, limit)`. -/
def readFileHandleBounded (handle : BoundedReadHandle) (limit : ℕ) : Reading StorageError Bytes :=
  readFileLoop handle limit 0 [] 0

/-- What `reader.read()` gives. -/
inductive Delivery
  | chunk (value : Bytes)
  | nonBinary
  deriving DecidableEq, Repr

/-- The loop of `readS3Body`. -/
def readS3Loop (limit : ℕ) : List Delivery → List Bytes → ℕ → Reading StorageError Bytes
  | [], chunks, total => Reading.joining chunks total .ok
  | .nonBinary :: _, _, _ => Reading.failed nonBinaryChunk
  | .chunk value :: rest, chunks, total =>
    (if limit - total < value.length then Reading.failed objectTooLarge
      else readS3Loop limit rest (chunks ++ [value]) (total + value.length)).holding
        (total + value.length)

/-- `readS3Body(body, limit)`. -/
def readS3Body (body : List Delivery) (limit : ℕ) : Reading StorageError Bytes :=
  readS3Loop limit body [] 0

/-! ### Responses of providers -/

/-- `ProviderErrorClass`, as far as reading a response throws it. -/
inductive ProviderErrorClass
  | NON_RETRYABLE_VALIDATION
  deriving DecidableEq, Repr

/-- `ProviderRequestError`. -/
structure ProviderRequestError where
  message : String
  classification : ProviderErrorClass
  retryable : Bool
  httpStatus : ℕ
  requestId : Option String
  deriving DecidableEq, Repr

/-- A response: its status, `x-request-id`, what `Number` makes of `content-length` where that is
    finite, and the chunks of the body, if there is one. -/
structure Response where
  status : ℕ
  requestId : Option String
  declared : Option ℚ
  body : Option (List Bytes)

/-- The error of a response that is too large. -/
def Response.tooLarge (response : Response) : ProviderRequestError :=
  ⟨"Provider response exceeded the byte limit", .NON_RETRYABLE_VALIDATION, false, response.status,
    response.requestId⟩

/-- The error of a response without a body. -/
def Response.empty (response : Response) : ProviderRequestError :=
  ⟨"Provider returned an empty response", .NON_RETRYABLE_VALIDATION, false, response.status, none⟩

/-- The error of a response that is not JSON. -/
def Response.invalidJson (response : Response) : ProviderRequestError :=
  ⟨"Provider returned invalid JSON", .NON_RETRYABLE_VALIDATION, false, response.status,
    response.requestId⟩

/-- The response declares more bytes than the limit. -/
def Response.declaresMore (response : Response) (maximumBytes : ℕ) : Bool :=
  response.declared.any fun declared => decide ((maximumBytes : ℚ) < declared)

/-- The value of a JSON text, where `parse` decodes and parses it. -/
def Response.parsed (response : Response) (parse : Bytes → Option α) (bytes : Bytes) :
    Except ProviderRequestError α :=
  match parse bytes with
  | some value => .ok value
  | none => .error response.invalidJson

/-- The loop of `readJsonWithLimit`. -/
def readJsonLoop (parse : Bytes → Option α) (response : Response) (maximumBytes : ℕ) :
    List Bytes → List Bytes → ℕ → Reading ProviderRequestError α
  | [], chunks, total => Reading.joining chunks total (response.parsed parse)
  | value :: rest, chunks, total =>
    (if maximumBytes < total + value.length then Reading.failed response.tooLarge
      else readJsonLoop parse response maximumBytes rest (chunks ++ [value])
        (total + value.length)).holding (total + value.length)

/-- `readJsonWithLimit(response, maximumBytes)`, where `parse` is `JSON.parse` after a decoder of
    UTF-8 that is fatal. -/
def readJsonWithLimit (parse : Bytes → Option α) (response : Response) (maximumBytes : ℕ) :
    Reading ProviderRequestError α :=
  if response.declaresMore maximumBytes then Reading.failed response.tooLarge
  else
    match response.body with
    | none => Reading.failed response.empty
    | some chunks => readJsonLoop parse response maximumBytes chunks [] 0

end ResearchWorkbench.BoundedReads
