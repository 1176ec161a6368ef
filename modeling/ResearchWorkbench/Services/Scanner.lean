import ResearchWorkbench.Domain.Content
import ResearchWorkbench.Domain.Documents
import ResearchWorkbench.Library.Patterns
import ResearchWorkbench.Library.Utf8

namespace ResearchWorkbench.Scanner

/-!
# The malware scanner

`lib/documents/scanner.ts`.

* `cleanScannerText` — a reply as a printable line of at most 500 characters;
* `SocketEvent`, `clamRequest` — the reply that the socket delivers, chunk by chunk;
* `scanFrames`, `clamWrites` — what is sent;
* `ClamAvOptions`, `ClamAvScanner.scan` — a scan: the version first, then the content.
-/

/-! ### Texts of the scanner -/

/-- `[\0\r\n]`. -/
def isBreakUnit (c : ℕ) : Bool := c = 0 || c = 13 || c = 10

/-- `value.replace(/[\0\r\n]+/g, " ")`; `inRun` says that the code unit before is of the class. -/
def joinBreaks (inRun : Bool) : Text → Text
  | [] => []
  | c :: rest =>
    if isBreakUnit c then
      if inRun then joinBreaks true rest else 32 :: joinBreaks true rest
    else c :: joinBreaks false rest

/-- `[^\x20-\x7e]` becomes a question mark. -/
def printableUnit (c : ℕ) : ℕ := if 32 ≤ c ∧ c ≤ 126 then c else 63

/-- `cleanScannerText(value)`, before it is cut. -/
def printableText (value : Text) : Text := trimText ((joinBreaks false value).map printableUnit)

/-- `cleanScannerText(value)`. -/
def cleanScannerText (value : Text) : Text := (printableText value).take 500

/-- `.`. -/
def isDotUnit (c : ℕ) : Bool := c ≠ 10 && c ≠ 13 && c ≠ 0x2028 && c ≠ 0x2029

/-- `$`. -/
def atEnd : Pattern Unit := Pattern.notAhead fun _ => true

/-- `/^stream:\s+(.+)\s+FOUND$/i`. -/
def infectedPattern : Pattern Text := do
  Pattern.word true (asciiText "stream:")
  let _ ← Pattern.many isSpaceUnit 1 none
  let name ← Pattern.many isDotUnit 1 none
  let _ ← Pattern.many isSpaceUnit 1 none
  Pattern.word true (asciiText "FOUND")
  atEnd
  return name

/-- `response.match(/^stream:\s+(.+)\s+FOUND$/i)?.[1]`. -/
def infectedName (response : Text) : Option Text :=
  (infectedPattern ⟨none, response⟩).head?.map Prod.fst

/-- `/^stream:\s+OK$/i`. -/
def okPattern : Pattern Unit := do
  Pattern.word true (asciiText "stream:")
  let _ ← Pattern.many isSpaceUnit 1 none
  Pattern.word true (asciiText "OK")
  atEnd

/-- `/^stream:\s+OK$/i.test(response)`. -/
def isOkResponse (response : Text) : Bool := okPattern ⟨none, response⟩ ≠ []

/-- `[^/\s]`. -/
def isVersionUnit (c : ℕ) : Bool := c ≠ 47 && !isSpaceUnit c

/-- `/^ClamAV\s+([^/\s]+)(?:\/([^/\s]+))?/i`. -/
def versionPattern : Pattern (Text × Option Text) := do
  Pattern.word true (asciiText "ClamAV")
  let _ ← Pattern.many isSpaceUnit 1 none
  let scannerVersion ← Pattern.many isVersionUnit 1 none
  let signatureDatabaseVersion ← Pattern.optional do
    let _ ← Pattern.unit (· = 47)
    Pattern.many isVersionUnit 1 none
  return (scannerVersion, signatureDatabaseVersion)

/-- `parseVersion(value)`: the version of the scanner, and that of its signatures. -/
def parseVersion (value : Text) : Option Text × Option Text :=
  match (versionPattern ⟨none, cleanScannerText value⟩).head? with
  | some ((scannerVersion, signatures), _) => (some scannerVersion, signatures)
  | none => (none, none)

/-! ### The socket -/

/-- What happens on the socket of a request. -/
inductive SocketEvent
  | data (chunk : Bytes)
  /-- The other side has closed the connection. -/
  | endOfStream
  | timeout
  /-- An error of the socket or of a write, or the signal. -/
  | failure
  deriving DecidableEq, Repr

/-- Why a request has failed. -/
inductive ScanFailure
  | timeout
  | other
  deriving DecidableEq, Repr

/-- The reply after what was received before; `none` while nothing has settled the request. -/
def replyFrom (received : Bytes) : List SocketEvent → Option (Except ScanFailure Text)
  | [] => none
  | .data chunk :: events =>
    let joined := received ++ chunk
    if 8192 < joined.length then some (.error .other)
    else if 0 ∈ joined then some (.ok (decodeUtf8 (joined.takeWhile (· ≠ 0))))
    else replyFrom joined events
  | .endOfStream :: _ => some (.ok (decodeUtf8 received))
  | .timeout :: _ => some (.error .timeout)
  | .failure :: _ => some (.error .other)

/-- `clamRequest(…)`: the reply. -/
def clamRequest (events : List SocketEvent) : Option (Except ScanFailure Text) := replyFrom [] events

/-- `length.writeUInt32BE(n, 0)`. -/
def uint32BE (n : ℕ) : Bytes :=
  [(n / 0x1000000).toUInt8, (n / 0x10000).toUInt8, (n / 0x100).toUInt8, n.toUInt8]

/-- What `clamRequest` writes, one write after the other. -/
def clamWrites (command : Bytes) (frames : List Bytes) (terminateFrames : Bool) : List Bytes :=
  command :: (frames.flatMap fun frame => [uint32BE frame.length, frame]) ++
    if terminateFrames then [[0, 0, 0, 0]] else []

/-! ### Scans -/

/-- The options of a scanner, with the bounds that its constructor checks. -/
structure ClamAvOptions where
  maxBytes : ℕ
  chunkBytes : ℕ
  maxBytes_pos : 1 ≤ maxBytes
  chunkBytes_pos : 1 ≤ chunkBytes
  chunkBytes_le : chunkBytes ≤ 1048576

/-- The default options. -/
def ClamAvOptions.default : ClamAvOptions :=
  ⟨25000000, 65536, by decide, by decide, by decide⟩

/-- The loop over `offset`. -/
def scanFramesFrom (options : ClamAvOptions) (bytes : Bytes) (offset : ℕ) : List Bytes :=
  if _h : offset < bytes.length then
    (bytes.drop offset).take options.chunkBytes ::
      scanFramesFrom options bytes (offset + options.chunkBytes)
  else []
termination_by bytes.length - offset
decreasing_by
  have := options.chunkBytes_pos
  omega

/-- `frames`. -/
def scanFrames (options : ClamAvOptions) (bytes : Bytes) : List Bytes :=
  scanFramesFrom options bytes 0

/-- What is sent to the scanner with a content. -/
def scanWrites (options : ClamAvOptions) (bytes : Bytes) : List Bytes :=
  clamWrites (asciiBytes "zINSTREAM" ++ [0]) (scanFrames options bytes) true

/-- `MalwareScanResult`, with what is known about the scanner, the finding and the failure. -/
structure ClamAvResult extends MalwareScanResult where
  scanner : String := "clamav"
  scannerVersion : Option Text := none
  signatureDatabaseVersion : Option Text := none
  detectedName : Option Text := none
  sanitizedError : Option Text := none
  deriving DecidableEq, Repr

/-- The result of a reply. -/
def replyResult (base : ClamAvResult) (response : Text) : ClamAvResult :=
  match infectedName response with
  | some name => { base with status := .infected, detectedName := some (cleanScannerText name) }
  | none =>
    if isOkResponse response then { base with status := .clean }
    else
      { base with
        status := .error
        sanitizedError := some (cleanScannerText
          (if response = [] then asciiText "Empty scanner response." else response)) }

/-- The result of a request that has failed. -/
def failureResult (base : ClamAvResult) : ScanFailure → ClamAvResult
  | .timeout =>
    { base with
      status := .timeout, sanitizedError := some (asciiText "Malware scanner timed out.") }
  | .other =>
    { base with
      status := .error, sanitizedError := some (asciiText "Malware scanner is unavailable.") }

/-- `scan({ bytes, signal })`: what happens on the sockets of its two requests, and its result. -/
def scan (options : ClamAvOptions) (sha256 : Bytes → ℕ) (bytes : Bytes)
    (versionEvents events : List SocketEvent) : Option ClamAvResult :=
  let base : ClamAvResult :=
    { status := .error, byteSize := bytes.length, objectSha256 := sha256 bytes }
  if options.maxBytes < bytes.length then
    some { base with
      sanitizedError := some (asciiText "Object exceeds the malware scanner byte limit.") }
  else
    (clamRequest versionEvents).bind fun
      | .error failure => some (failureResult base failure)
      | .ok versionText =>
        let version := parseVersion versionText
        (clamRequest events).map fun
          | .error failure => failureResult base failure
          | .ok text =>
            replyResult { base with
              scannerVersion := version.1, signatureDatabaseVersion := version.2 }
              (cleanScannerText text)

end ResearchWorkbench.Scanner
