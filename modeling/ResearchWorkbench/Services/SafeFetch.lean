import ResearchWorkbench.Services.Chunking
import ResearchWorkbench.Services.PublicAddresses

namespace ResearchWorkbench.SafeFetch

/-!
# Fetches

`validateExternalUrl`, `resolveAndValidateExternalUrl` and `safeFetch` of `lib/security/url.ts`.

* `Url`, `Runtime` — URLs, and what the platform does: its URL parser, `toLowerCase`, `Number`, …;
* `Environment` — what resolver, requester and clock do at each hop;
* `normalizeHostname`, `validateExternalUrl`, `resolveAndValidateExternalUrl` — the target of a hop;
* `SafeFetchOptions`, `FetchConfig`, `readOptions` — the options;
* `FetchState`, `prepareHop`, `sendRequest`, `followRedirect`, `readResult`, `hop` — one turn of the
  loop;
* `safeFetch` — the requests that are issued, and how the fetch ends.
-/

/-! ### URLs and the platform -/

/-- The parts of a `URL` as they stand in its text, query and fragment with their `?` and `#`. -/
structure Url where
  protocol : Text
  username : Text
  password : Text
  hostname : Text
  port : Text
  pathname : Text
  search : Text
  hash : Text
  deriving DecidableEq, Repr

/-- `url.toString()` for a URL with a host. -/
def Url.toString (url : Url) : Text :=
  let password := if url.password = [] then [] else 58 :: url.password
  let credentials :=
    if url.username = [] ∧ url.password = [] then [] else url.username ++ password ++ [64]
  let port := if url.port = [] then [] else 58 :: url.port
  url.protocol ++ asciiText "//" ++ credentials ++ url.hostname ++ port ++ url.pathname ++
    url.search ++ url.hash

/-- What is thrown: the error of this module, an `Error` with a name, or something else. -/
inductive Thrown
  | safeFetch (error : SafeFetchError)
  | error (name : String)
  | other
  deriving DecidableEq, Repr

/-- The platform, and the package `sanitize-html`. -/
structure Runtime where
  /-- `new URL(input, base)`, if it does not throw. -/
  parseUrl : Text → Option Url → Option Url
  /-- `text.toLowerCase()`. -/
  toLowerCase : Text → Text
  /-- `Number(text)`, if it is finite. -/
  toNumber : Text → Option ℚ
  /-- `new TextDecoder().decode(bytes)`. -/
  decode : List UInt8 → Text
  sanitizeHtml : HtmlSanitizer

/-- `ResolvedAddress`. -/
structure ResolvedAddress where
  address : Text
  family : ℕ
  deriving DecidableEq, Repr

/-- `PinnedRequest`. -/
structure PinnedRequest where
  url : Url
  hostname : Text
  addresses : List ResolvedAddress
  timeoutMs : ℤ
  maxBytes : ℕ
  userAgent : Text
  allowedMimeTypes : List Text
  deriving DecidableEq, Repr

/-- `PinnedResponse`. -/
structure PinnedResponse where
  status : ℕ
  headers : List (Text × Text)
  body : List UInt8
  deriving DecidableEq, Repr

/-- How a promise ends that `withTimeout` waits for; `late` if its timer is first. -/
inductive Awaited (α : Type)
  | returned (value : α)
  | threw (error : Thrown)
  | late

/-- What the world does at each hop: the time that has passed, the resolver, and the requester. -/
structure Environment where
  elapsed : ℕ → ℤ
  resolver : ℕ → Text → Awaited (List ResolvedAddress)
  requester : ℕ → PinnedRequest → Awaited PinnedResponse
  /-- `now().toISOString()`. -/
  now : Text

/-! ### Targets -/

/-- `text.endsWith(suffix)`. -/
def endsWith (text suffix : Text) : Bool := suffix.isSuffixOf text

/-- `hostname.startsWith("[") && hostname.endsWith("]") ? hostname.slice(1, -1) : hostname`. -/
def withoutBrackets (hostname : Text) : Text :=
  if hostname.head? = some 91 ∧ hostname.getLast? = some 93 then hostname.tail.dropLast else hostname

/-- `text.replace(/\.$/, "")`. -/
def withoutDot (text : Text) : Text := if text.getLast? = some 46 then text.dropLast else text

/-- `normalizeHostname(hostname)`. -/
def normalizeHostname (rt : Runtime) (hostname : Text) : Text :=
  rt.toLowerCase (withoutDot (withoutBrackets hostname))

/-- The names of this host, and names below them. -/
def isLocalhost (hostname : Text) : Bool :=
  hostname = asciiText "localhost" || endsWith hostname (asciiText ".localhost") ||
    hostname = asciiText "localhost.localdomain" ||
      endsWith hostname (asciiText ".localhost.localdomain")

/-- `family === 0 || isPublicIpAddress(hostname)` for the family of the host. -/
def isPublicHost (hostname : Text) : Except SafeFetchError Bool :=
  if isIP hostname = 0 then .ok true else isPublicIpAddress hostname

/-- `validateExternalUrl(value)`; a `URL` is given as its text, which is parsed again. -/
def validateExternalUrl (rt : Runtime) (value : Text) : Except SafeFetchError Url := do
  let url ← require (rt.parseUrl value none) (safeFetchError .invalidUrl "URL is not valid")
  ensure (url.protocol = asciiText "http:" ∨ url.protocol = asciiText "https:")
    (safeFetchError .invalidUrl "Only HTTP and HTTPS URLs are allowed")
  ensure (url.username = [] ∧ url.password = [])
    (safeFetchError .invalidUrl "URLs containing credentials are not allowed")
  let hostname := normalizeHostname rt url.hostname
  ensure (hostname ≠ []) (safeFetchError .invalidUrl "URL hostname is required")
  ensure (isLocalhost hostname = false)
    (safeFetchError .disallowedAddress "Localhost URLs are not allowed")
  let isPublic ← isPublicHost hostname
  ensure (isPublic = true)
    (safeFetchError .disallowedAddress "Private, local, and reserved IP addresses are not allowed")
  return { url with hash := [] }

/-- The loop over the records of `resolveAndValidateExternalUrl`; `seen` are the keys so far. -/
def validateRecords (seen : List Text) : List ResolvedAddress →
    Except SafeFetchError (List ResolvedAddress)
  | [] => .ok []
  | record :: rest => do
    let detectedFamily := isIP record.address
    ensure ((detectedFamily = 4 ∨ detectedFamily = 6) ∧ detectedFamily = record.family)
      (safeFetchError .dnsFailure "DNS returned an invalid address record")
    let isPublic ← isPublicIpAddress record.address
    ensure (isPublic = true)
      (safeFetchError .disallowedAddress "DNS resolved to a private, local, or reserved address")
    let key := numeralText 10 record.family ++ [58] ++ record.address
    if seen.contains key then validateRecords seen rest
    else (record :: ·) <$> validateRecords (seen ++ [key]) rest

/-- What `resolveAndValidateExternalUrl` gives. -/
structure Resolved where
  url : Url
  hostname : Text
  addresses : List ResolvedAddress
  deriving DecidableEq, Repr

/-- `withTimeout(promise, timeoutMs)`. -/
def withTimeout {α : Type} : Awaited α → Except Thrown α
  | .returned value => .ok value
  | .threw error => .error error
  | .late => .error (.safeFetch (safeFetchError .timeout "Fetch timed out"))

/-- An error of this module is thrown as it is. -/
def thrown {α : Type} : Except SafeFetchError α → Except Thrown α
  | .ok value => .ok value
  | .error error => .error (.safeFetch error)

/-- The records of a host: itself if it is an address, else what the resolver gives.  The timer of
`withTimeout` is first only if the resolver is called. -/
def resolveHost (resolver : Text → Awaited (List ResolvedAddress)) (hostname : Text) :
    Except Thrown (List ResolvedAddress) :=
  let literalFamily := isIP hostname
  if literalFamily ≠ 0 then .ok [⟨hostname, literalFamily⟩] else withTimeout (resolver hostname)

/-- `withTimeout(resolveAndValidateExternalUrl(value, resolver), …)`. -/
def resolveAndValidateExternalUrl (rt : Runtime)
    (resolver : Text → Awaited (List ResolvedAddress)) (value : Text) : Except Thrown Resolved := do
  let url ← thrown (validateExternalUrl rt value)
  let hostname := normalizeHostname rt url.hostname
  let resolved ← resolveHost resolver hostname
  ensure (resolved ≠ [])
    (.safeFetch (safeFetchError .dnsFailure "DNS resolution returned no addresses"))
  let addresses ← thrown (validateRecords [] resolved)
  return ⟨url, hostname, addresses⟩

/-! ### Options -/

/-- `SafeFetchOptions`; numbers are finite, and the functions are in the environment. -/
structure SafeFetchOptions where
  timeoutMs : Option ℚ := none
  maxBytes : Option ℚ := none
  maxRedirects : Option ℚ := none
  allowedMimeTypes : Option (List Text) := none
  userAgent : Option Text := none

/-- `positiveInteger` (from 1 on) and `nonNegativeInteger` (from 0 on). -/
def boundedInteger (minimum : ℕ) (value : ℚ) (label : String) (maximum : ℕ) :
    Except SafeFetchError ℕ :=
  if value.den ≠ 1 ∨ value < minimum ∨ (maximum : ℚ) < value then
    .error ⟨.fetchFailed, asciiText label ++ asciiText " must be an integer between " ++
      numeralText 10 minimum ++ asciiText " and " ++ numeralText 10 maximum⟩
  else .ok value.num.toNat

/-- `positiveInteger(value, label, maximum)`. -/
def positiveInteger : ℚ → String → ℕ → Except SafeFetchError ℕ := boundedInteger 1

/-- `nonNegativeInteger(value, label, maximum)`. -/
def nonNegativeInteger : ℚ → String → ℕ → Except SafeFetchError ℕ := boundedInteger 0

/-- `DEFAULT_ALLOWED_MIME_TYPES`. -/
def defaultAllowedMimeTypes : List Text :=
  ["application/json", "application/pdf", "application/xhtml+xml", "text/csv", "text/html",
    "text/markdown", "text/plain"].map asciiText

/-- `DEFAULT_USER_AGENT`. -/
def defaultUserAgent : Text := asciiText "ai-research-workbench/0.1 research-source-fetcher"

/-- The options as they are used. -/
structure FetchConfig where
  timeoutMs : ℕ
  maxBytes : ℕ
  maxRedirects : ℕ
  userAgent : Text
  allowedMimeTypes : List Text
  deriving DecidableEq, Repr

/-- The checks at the beginning of `safeFetch`. -/
def readOptions (rt : Runtime) (options : SafeFetchOptions) : Except SafeFetchError FetchConfig := do
  let timeoutMs ← positiveInteger (options.timeoutMs.getD 10000) "timeoutMs" 30000
  let maxBytes ← positiveInteger (options.maxBytes.getD 2097152) "maxBytes" 10000000
  let maxRedirects ← nonNegativeInteger (options.maxRedirects.getD 3) "maxRedirects" 10
  let userAgent := trimText (options.userAgent.getD defaultUserAgent)
  ensure (userAgent ≠ [] ∧ userAgent.length ≤ 256 ∧ 13 ∉ userAgent ∧ 10 ∉ userAgent)
    (safeFetchError .fetchFailed "userAgent is invalid")
  let allowedMimeTypes :=
    ((options.allowedMimeTypes.getD defaultAllowedMimeTypes).map rt.toLowerCase).eraseDups
  ensure (allowedMimeTypes ≠ [])
    (safeFetchError .fetchFailed "At least one MIME type must be allowed")
  return ⟨timeoutMs, maxBytes, maxRedirects, userAgent, allowedMimeTypes⟩

/-! ### One hop -/

/-- `FetchHopMetadata`. -/
structure FetchHopMetadata where
  url : Text
  resolvedAddresses : List Text
  status : ℕ
  deriving DecidableEq, Repr

/-- `SafeFetchResult`. -/
structure SafeFetchResult where
  requestedUrl : Text
  finalUrl : Text
  status : ℕ
  contentType : Text
  body : List UInt8
  text : Option Text
  sanitized : Bool
  promptInjection : Option PromptInjectionAssessment
  fetchedAt : Text
  userAgent : Text
  redirectCount : ℕ
  hops : List FetchHopMetadata
  sourceHostname : Text
  sourceProtocol : Text

/-- The variables of the loop. -/
structure FetchState where
  redirectCount : ℕ
  current : Text
  visited : List Text
  hops : List FetchHopMetadata
  deriving DecidableEq, Repr

/-- From the head of the loop to the request. -/
def prepareHop (rt : Runtime) (env : Environment) (config : FetchConfig) (state : FetchState) :
    Except Thrown PinnedRequest := do
  ensure (state.current ∉ state.visited)
    (.safeFetch (safeFetchError .redirectLoop "Redirect loop detected"))
  let remainingTimeout := config.timeoutMs - env.elapsed state.redirectCount
  ensure (0 < remainingTimeout) (.safeFetch (safeFetchError .timeout "Fetch timed out"))
  let resolved ←
    resolveAndValidateExternalUrl rt (env.resolver state.redirectCount) state.current
  return {
    url := resolved.url
    hostname := resolved.hostname
    addresses := resolved.addresses
    timeoutMs := remainingTimeout
    maxBytes := config.maxBytes
    userAgent := config.userAgent
    allowedMimeTypes := config.allowedMimeTypes }

/-- The request, and what its errors become. -/
def sendRequest (env : Environment) (state : FetchState) (request : PinnedRequest) :
    Except Thrown PinnedResponse :=
  match withTimeout (env.requester state.redirectCount request) with
  | .ok response => .ok response
  | .error (.safeFetch error) => .error (.safeFetch error)
  | .error (.error name) =>
    if name = "AbortError" ∨ name = "TimeoutError" then
      .error (.safeFetch (safeFetchError .timeout "Fetch timed out"))
    else .error (.safeFetch (safeFetchError .fetchFailed "Fetch failed"))
  | .error .other => .error (.safeFetch (safeFetchError .fetchFailed "Fetch failed"))

/-- `normalizedHeaders[name]`: of headers with the same name in lower case, the last. -/
def headerValue (rt : Runtime) (headers : List (Text × Text)) (name : String) : Option Text :=
  ((headers.filter fun header => rt.toLowerCase header.1 = asciiText name).map (·.2)).getLast?

/-- `mimeType(headers)`. -/
def mimeType (rt : Runtime) (headers : List (Text × Text)) : Text :=
  rt.toLowerCase
    (trimText (((headerValue rt headers "content-type").getD []).takeWhile (· ≠ 59)))

/-- `REDIRECT_STATUSES`. -/
def redirectStatuses : List ℕ := [301, 302, 303, 307, 308]

/-- The URL that a redirect goes to. -/
def redirectTarget (rt : Runtime) (url : Url) (location : Text) : Except SafeFetchError Url := do
  let target ← require (rt.parseUrl location (some url))
    (safeFetchError .invalidRedirect "Redirect Location is invalid")
  let nextUrl ← validateExternalUrl rt target.toString
  ensure (¬ (url.protocol = asciiText "https:" ∧ nextUrl.protocol = asciiText "http:"))
    (safeFetchError .invalidRedirect "HTTPS-to-HTTP redirects are not allowed")
  return nextUrl

/-- `Response exceeds the ${maxBytes}-byte limit`. -/
def responseTooLarge (maxBytes : ℕ) : Thrown :=
  .safeFetch ⟨.responseTooLarge,
    asciiText "Response exceeds the " ++ numeralText 10 maxBytes ++ asciiText "-byte limit"⟩

/-- The body, its text, whether it was sanitized, and its assessment. -/
def readBody (rt : Runtime) (contentType : Text) (body : List UInt8) :
    List UInt8 × Option Text × Bool × Option PromptInjectionAssessment :=
  if contentType = asciiText "text/html" ∨ contentType = asciiText "application/xhtml+xml" then
    let sanitizedHtml := sanitizeExternalHtml rt.sanitizeHtml (rt.decode body)
    let text := externalHtmlToText rt.sanitizeHtml sanitizedHtml
    (Chunking.utf8 sanitizedHtml, some text, true, some (assessPromptInjection text))
  else if (asciiText "text/").isPrefixOf contentType ∨ contentType = asciiText "application/json" then
    let text := rt.decode body
    (body, some text, false, some (assessPromptInjection text))
  else (body, none, false, none)

/-- The checks of the size of a response. -/
def checkSize (rt : Runtime) (config : FetchConfig) (response : PinnedResponse) :
    Except Thrown Unit := do
  ensure (response.body.length ≤ config.maxBytes) (responseTooLarge config.maxBytes)
  let declaredSize := (headerValue rt response.headers "content-length").bind rt.toNumber
  ensure (∀ size ∈ declaredSize, size ≤ config.maxBytes) (responseTooLarge config.maxBytes)

/-- The branch for redirects. -/
def followRedirect (rt : Runtime) (config : FetchConfig) (state : FetchState)
    (request : PinnedRequest) (response : PinnedResponse) (hops : List FetchHopMetadata) :
    Except Thrown FetchState := do
  ensure (state.redirectCount < config.maxRedirects)
    (.safeFetch (safeFetchError .tooManyRedirects "Redirect limit exceeded"))
  let location := (headerValue rt response.headers "location").getD []
  ensure (location ≠ [])
    (.safeFetch (safeFetchError .invalidRedirect "Redirect response has no Location"))
  let nextUrl ← thrown (redirectTarget rt request.url location)
  return {
    redirectCount := state.redirectCount + 1
    current := nextUrl.toString
    visited := state.visited ++ [state.current]
    hops := hops }

/-- The branch for other responses. -/
def readResult (rt : Runtime) (env : Environment) (config : FetchConfig) (requestedUrl : Text)
    (state : FetchState) (request : PinnedRequest) (response : PinnedResponse)
    (hops : List FetchHopMetadata) : Except Thrown SafeFetchResult := do
  ensure (200 ≤ response.status ∧ response.status < 300) (.safeFetch ⟨.httpError,
    asciiText "Source returned HTTP status " ++ numeralText 10 response.status⟩)
  let contentType := mimeType rt response.headers
  ensure (contentType ≠ [])
    (.safeFetch (safeFetchError .unsupportedMimeType "Response Content-Type is required"))
  ensure (contentType ∈ config.allowedMimeTypes) (.safeFetch ⟨.unsupportedMimeType,
    asciiText "MIME type " ++ contentType ++ asciiText " is not allowed"⟩)
  let read := readBody rt contentType response.body
  return {
    requestedUrl := requestedUrl
    finalUrl := request.url.toString
    status := response.status
    contentType := contentType
    body := read.1
    text := read.2.1
    sanitized := read.2.2.1
    promptInjection := read.2.2.2
    fetchedAt := env.now
    userAgent := config.userAgent
    redirectCount := state.redirectCount
    hops := hops
    sourceHostname := request.hostname
    sourceProtocol := request.url.protocol }

/-- From the response to the end of the turn: the next state, or the result. -/
def settleHop (rt : Runtime) (env : Environment) (config : FetchConfig) (requestedUrl : Text)
    (state : FetchState) (request : PinnedRequest) (response : PinnedResponse) :
    Except Thrown (FetchState ⊕ SafeFetchResult) := do
  checkSize rt config response
  let hops := state.hops ++
    [⟨request.url.toString, request.addresses.map (·.address), response.status⟩]
  if redirectStatuses.contains response.status then
    .inl <$> followRedirect rt config state request response hops
  else .inr <$> readResult rt env config requestedUrl state request response hops

/-- One turn of the loop: the request that is issued, and where the turn ends. -/
def hop (rt : Runtime) (env : Environment) (config : FetchConfig) (requestedUrl : Text)
    (state : FetchState) : Option PinnedRequest × Except Thrown (FetchState ⊕ SafeFetchResult) :=
  match prepareHop rt env config state with
  | .error error => (none, .error error)
  | .ok request =>
    (some request, do
      let response ← sendRequest env state request
      settleHop rt env config requestedUrl state request response)

/-! ### The loop -/

/-- The requests of a fetch, and how it ends; `none` while the loop has not ended. -/
structure Fetch where
  requests : List PinnedRequest
  outcome : Option (Except Thrown SafeFetchResult)

/-- So many turns of the loop. -/
def turns (rt : Runtime) (env : Environment) (config : FetchConfig) (requestedUrl : Text) :
    ℕ → FetchState → Fetch
  | 0, _ => ⟨[], none⟩
  | n + 1, state =>
    let turn := hop rt env config requestedUrl state
    match turn.2 with
    | .error error => ⟨turn.1.toList, some (.error error)⟩
    | .ok (.inr result) => ⟨turn.1.toList, some (.ok result)⟩
    | .ok (.inl next) =>
      let rest := turns rt env config requestedUrl n next
      ⟨turn.1.toList ++ rest.requests, rest.outcome⟩

/-- `safeFetch(value, options)`. -/
def safeFetch (rt : Runtime) (env : Environment) (value : Text) (options : SafeFetchOptions) :
    Fetch :=
  match readOptions rt options with
  | .error error => ⟨[], some (.error (.safeFetch error))⟩
  | .ok config =>
    match validateExternalUrl rt value with
    | .error error => ⟨[], some (.error (.safeFetch error))⟩
    | .ok url =>
      turns rt env config url.toString (config.maxRedirects + 1) ⟨0, url.toString, [], []⟩

end ResearchWorkbench.SafeFetch
