import ResearchWorkbench.Network.Addresses
import ResearchWorkbench.Services.SafeFetch

namespace ResearchWorkbench.SafeFetch

/-!
# Fetches reach public targets

Every request of `safeFetch` goes to a public target, whatever resolver and requester do.

* `LawfulRuntime` — what the code relies on: URLs are parsed as they were written;
* `IsTarget`, `validateExternalUrl_spec` — the URLs that pass the checks;
* `IsPublicRequest`, `prepareHop_spec` — the requests that are issued;
* `settleHop_redirect`, `settleHop_result` — how a turn of the loop may go on or end;
* `turns_induction` — what holds of the turns of the loop;
* `safeFetch_reaches_public_targets` — the fetch as a whole.
-/

/-! ### The platform -/

/-- What is documented of the platform: a URL that was parsed is parsed again from its text, without
its fragment; hosts of HTTP URLs are ASCII; and `toLowerCase` is known on ASCII. -/
structure LawfulRuntime (rt : Runtime) : Prop where
  parse_toString : ∀ {input base url}, rt.parseUrl input base = some url →
    rt.parseUrl { url with hash := [] }.toString none = some { url with hash := [] }
  hostname_ascii : ∀ {input base url}, rt.parseUrl input base = some url →
    ∀ c ∈ url.hostname, c < 128
  toLowerCase_ascii : ∀ {t : Text}, (∀ c ∈ t, c < 128) → rt.toLowerCase t = t.map lowerUnit

variable {rt : Runtime} {env : Environment} {config : FetchConfig} {requestedUrl : Text}

/-! ### Results of steps -/

theorem thrown_eq_ok {α : Type} {x : Except SafeFetchError α} {a : α} :
    thrown x = .ok a ↔ x = .ok a := by
  cases x <;> simp [thrown]

/-! ### URLs -/

/-- A URL that passes the checks: HTTP or HTTPS, without credentials and fragment, and not this host
in any spelling. -/
structure IsTarget (rt : Runtime) (url : Url) : Prop where
  protocol : url.protocol = asciiText "http:" ∨ url.protocol = asciiText "https:"
  credentials : url.username = [] ∧ url.password = []
  notLocalhost : isLocalhost ((withoutDot (withoutBrackets url.hostname)).map lowerUnit) = false
  hash : url.hash = []
  parse_toString : rt.parseUrl url.toString none = some url

theorem mem_of_mem_withoutBrackets {t : Text} {c : ℕ} (h : c ∈ withoutBrackets t) : c ∈ t := by
  unfold withoutBrackets at h
  split at h
  · exact List.mem_of_mem_tail (List.mem_of_mem_dropLast h)
  · exact h

theorem mem_of_mem_withoutDot {t : Text} {c : ℕ} (h : c ∈ withoutDot t) : c ∈ t := by
  unfold withoutDot at h
  split at h
  · exact List.mem_of_mem_dropLast h
  · exact h

theorem validateExternalUrl_eq_ok {value : Text} {url : Url}
    (h : validateExternalUrl rt value = .ok url) :
    ∃ parsed, rt.parseUrl value none = some parsed ∧ url = { parsed with hash := [] } ∧
      (parsed.protocol = asciiText "http:" ∨ parsed.protocol = asciiText "https:") ∧
      (parsed.username = [] ∧ parsed.password = []) ∧
      isLocalhost (normalizeHostname rt parsed.hostname) = false := by
  simp only [validateExternalUrl, bind_eq_ok, ensure_eq_ok, require_eq_ok, pure_eq_ok] at h
  rcases h with
    ⟨parsed, hparse, _, hprotocol, _, hcredentials, _, _, _, hlocalhost, _, _, _, _, hurl⟩
  exact ⟨parsed, hparse, hurl.symm, hprotocol, hcredentials, hlocalhost⟩

/-- What passes the checks is a target. -/
theorem validateExternalUrl_spec (hrt : LawfulRuntime rt) {value : Text} {url : Url}
    (h : validateExternalUrl rt value = .ok url) : IsTarget rt url := by
  rcases validateExternalUrl_eq_ok h with
    ⟨parsed, hparse, rfl, hprotocol, hcredentials, hlocalhost⟩
  refine ⟨hprotocol, hcredentials, ?_, rfl, hrt.parse_toString hparse⟩
  rw [normalizeHostname, hrt.toLowerCase_ascii] at hlocalhost
  · exact hlocalhost
  · intro c hc
    exact hrt.hostname_ascii hparse c (mem_of_mem_withoutBrackets (mem_of_mem_withoutDot hc))

/-- A target is read again from its text. -/
theorem IsTarget.validate_toString {url url' : Url} (ht : IsTarget rt url)
    (h : validateExternalUrl rt url.toString = .ok url') : url' = url := by
  rcases validateExternalUrl_eq_ok h with ⟨parsed, hparse, rfl, -⟩
  rw [ht.parse_toString] at hparse
  cases hparse
  rw [← ht.hash]

/-! ### Requests -/

/-- The addresses of a request: the host itself if it is an address, else what the resolver gave at
that hop; all of them are public. -/
structure IsPublicRequest (rt : Runtime) (env : Environment) (i : ℕ) (request : PinnedRequest) :
    Prop where
  target : IsTarget rt request.url
  hostname : request.hostname = normalizeHostname rt request.url.hostname
  addresses_ne_nil : request.addresses ≠ []
  isPublic : ∀ a ∈ request.addresses, isPublicIpAddress a.address = .ok true
  resolved : (isIP request.hostname ≠ 0 ∧
      request.addresses = [⟨request.hostname, isIP request.hostname⟩]) ∨
    ∃ records, env.resolver i request.hostname = .returned records ∧
      ∀ a ∈ request.addresses, a ∈ records

/-- The records that pass the loop. -/
theorem validateRecords_spec {seen : List Text} {records addresses : List ResolvedAddress}
    (h : validateRecords seen records = .ok addresses) :
    (∀ a ∈ addresses, a ∈ records ∧ isPublicIpAddress a.address = .ok true) ∧
      (seen = [] → records ≠ [] → addresses ≠ []) := by
  induction records generalizing seen addresses with
  | nil =>
    cases h
    exact ⟨fun a ha => absurd ha (by simp), fun _ hne => absurd rfl hne⟩
  | cons record rest ih =>
    simp only [validateRecords, bind_eq_ok, ensure_eq_ok] at h
    rcases h with ⟨_, _, isPublic, hpublic, _, rfl, h⟩
    split at h
    · next hseen =>
      have hrest := ih h
      refine ⟨?_, ?_⟩
      · intro a ha
        exact ⟨List.mem_cons_of_mem _ (hrest.1 a ha).1, (hrest.1 a ha).2⟩
      · rintro rfl
        cases hseen
    · rcases map_eq_ok.mp h with ⟨more, hmore, rfl⟩
      have hrest := ih hmore
      refine ⟨?_, fun _ _ => List.cons_ne_nil _ _⟩
      intro a ha
      rcases List.mem_cons.mp ha with rfl | ha
      · exact ⟨List.mem_cons_self, hpublic⟩
      · exact ⟨List.mem_cons_of_mem _ (hrest.1 a ha).1, (hrest.1 a ha).2⟩

/-- A literal address is the only one. -/
theorem validateRecords_singleton {record : ResolvedAddress} {addresses : List ResolvedAddress}
    (h : validateRecords [] [record] = .ok addresses) : addresses = [record] := by
  simp only [validateRecords, bind_eq_ok, ensure_eq_ok] at h
  rcases h with ⟨_, _, _, _, _, _, h⟩
  split at h
  · next hseen => cases hseen
  · rcases map_eq_ok.mp h with ⟨more, hmore, rfl⟩
    cases hmore
    rfl

theorem withTimeout_eq_ok {α : Type} {x : Awaited α} {a : α} :
    withTimeout x = .ok a ↔ x = .returned a := by
  cases x <;> simp [withTimeout]

/-- **What a request is.**  A turn that begins at a target asks for that target. -/
theorem prepareHop_spec {state : FetchState} {url : Url} {request : PinnedRequest}
    (ht : IsTarget rt url) (hcurrent : state.current = url.toString)
    (h : prepareHop rt env config state = .ok request) :
    request.url = url ∧ state.current ∉ state.visited ∧
      IsPublicRequest rt env state.redirectCount request := by
  simp only [prepareHop, resolveAndValidateExternalUrl, bind_eq_ok, ensure_eq_ok, pure_eq_ok,
    thrown_eq_ok] at h
  rcases h with ⟨_, hvisited, _, _, _, ⟨url', hurl, records, hrecords, _, hne, addresses,
    haddresses, rfl⟩, hrequest⟩
  rw [hcurrent] at hurl
  have hsame : url' = url := ht.validate_toString hurl
  subst hsame hrequest
  have hspec := validateRecords_spec haddresses
  refine ⟨rfl, hvisited, ht, rfl, hspec.2 rfl hne, fun a ha => (hspec.1 a ha).2, ?_⟩
  simp only [resolveHost] at hrecords
  split at hrecords
  · next hliteral =>
    cases hrecords
    exact .inl ⟨hliteral, validateRecords_singleton haddresses⟩
  · rw [withTimeout_eq_ok] at hrecords
    exact .inr ⟨records, hrecords, fun a ha => (hspec.1 a ha).1⟩

/-! ### Turns -/

theorem sendRequest_eq_ok {state : FetchState} {request : PinnedRequest} {response : PinnedResponse}
    (h : sendRequest env state request = .ok response) :
    env.requester state.redirectCount request = .returned response := by
  unfold sendRequest at h
  split at h
  · next response' hresponse =>
    cases h
    exact withTimeout_eq_ok.mp hresponse
  · cases h
  · split at h <;> cases h
  · cases h

/-- A redirect goes to another target, one turn later, and not from HTTPS to HTTP. -/
theorem settleHop_redirect (hrt : LawfulRuntime rt) {state next : FetchState}
    {request : PinnedRequest} {response : PinnedResponse}
    (h : settleHop rt env config requestedUrl state request response = .ok (.inl next)) :
    state.redirectCount < config.maxRedirects ∧ next.redirectCount = state.redirectCount + 1 ∧
      next.visited = state.visited ++ [state.current] ∧
      ∃ url, IsTarget rt url ∧ next.current = url.toString ∧
        (request.url.protocol = asciiText "https:" → url.protocol ≠ asciiText "http:") := by
  simp only [settleHop, bind_eq_ok] at h
  rcases h with ⟨_, _, h⟩
  split at h
  · rcases map_eq_ok.mp h with ⟨state', hfollow, hnext⟩
    cases hnext
    simp only [followRedirect, redirectTarget, bind_eq_ok, ensure_eq_ok, require_eq_ok, pure_eq_ok,
      thrown_eq_ok] at hfollow
    rcases hfollow with ⟨_, hcount, _, _, url, ⟨target, _, url', hvalid, _, hdown, rfl⟩, rfl⟩
    exact ⟨hcount, rfl, rfl, url', validateExternalUrl_spec hrt hvalid, rfl,
      fun hhttps hhttp => hdown ⟨hhttps, hhttp⟩⟩
  · rcases map_eq_ok.mp h with ⟨_, _, hnext⟩
    cases hnext

/-- A result is read from a 2xx response of an allowed type, the body of which is short enough. -/
structure Delivers (rt : Runtime) (config : FetchConfig) (response : PinnedResponse)
    (result : SafeFetchResult) : Prop where
  status : 200 ≤ response.status ∧ response.status < 300 ∧ result.status = response.status
  contentType : result.contentType = mimeType rt response.headers
  allowed : result.contentType ∈ config.allowedMimeTypes
  length_body : response.body.length ≤ config.maxBytes

theorem settleHop_result {state : FetchState} {request : PinnedRequest}
    {response : PinnedResponse} {result : SafeFetchResult}
    (h : settleHop rt env config requestedUrl state request response = .ok (.inr result)) :
    Delivers rt config response result := by
  simp only [settleHop, checkSize, bind_eq_ok, ensure_eq_ok] at h
  rcases h with ⟨_, ⟨_, hlength, _⟩, h⟩
  split at h
  · rcases map_eq_ok.mp h with ⟨_, _, hnext⟩
    cases hnext
  · rcases map_eq_ok.mp h with ⟨result', hread, hnext⟩
    cases hnext
    simp only [readResult, bind_eq_ok, ensure_eq_ok, pure_eq_ok] at hread
    rcases hread with ⟨_, hstatus, _, _, _, hallowed, rfl⟩
    exact ⟨⟨hstatus.1, hstatus.2, rfl⟩, rfl, hallowed, hlength⟩

/-- **Turns of the loop.**  What holds of a fetch that has not begun, that ends before its request,
that ends after it, and that goes on as another one, holds of every fetch. -/
theorem turns_induction {P : FetchState → Fetch → Prop}
    (idle : ∀ state, P state ⟨[], none⟩)
    (refused : ∀ state error, prepareHop rt env config state = .error error →
      P state ⟨[], some (.error error)⟩)
    (failed : ∀ state request error, prepareHop rt env config state = .ok request →
      P state ⟨[request], some (.error error)⟩)
    (ended : ∀ state request response result, prepareHop rt env config state = .ok request →
      env.requester state.redirectCount request = .returned response →
      settleHop rt env config requestedUrl state request response = .ok (.inr result) →
      P state ⟨[request], some (.ok result)⟩)
    (redirected : ∀ state request response next rest, prepareHop rt env config state = .ok request →
      settleHop rt env config requestedUrl state request response = .ok (.inl next) →
      P next rest → P state ⟨request :: rest.requests, rest.outcome⟩)
    (n : ℕ) (state : FetchState) : P state (turns rt env config requestedUrl n state) := by
  induction n generalizing state with
  | zero => exact idle state
  | succ n ih =>
    rcases hprepare : prepareHop rt env config state with error | request
    · have hhop : hop rt env config requestedUrl state = (none, .error error) := by
        rw [hop, hprepare]
      simp only [turns, hhop]
      exact refused state error hprepare
    · rcases hsend : sendRequest env state request with error | response
      · have hhop : hop rt env config requestedUrl state = (some request, .error error) := by
          simp only [hop, hprepare, hsend]
          rfl
        simp only [turns, hhop]
        exact failed state request error hprepare
      · have hhop : hop rt env config requestedUrl state =
            (some request, settleHop rt env config requestedUrl state request response) := by
          simp only [hop, hprepare, hsend]
          rfl
        rcases hsettle : settleHop rt env config requestedUrl state request response with
          error | next | result
        · simp only [turns, hhop, hsettle]
          exact failed state request error hprepare
        · simp only [turns, hhop, hsettle]
          exact redirected state request response next _ hprepare hsettle (ih next)
        · simp only [turns, hhop, hsettle]
          exact ended state request response result hprepare (sendRequest_eq_ok hsend) hsettle

/-! ### Whole fetches -/

/-- The state is at a target. -/
def AtTarget (rt : Runtime) (state : FetchState) (url : Url) : Prop :=
  IsTarget rt url ∧ state.current = url.toString

/-- What holds of the fetch from a state that is at a target. -/
structure Reaches (rt : Runtime) (env : Environment) (state : FetchState) (url : Url)
    (requests : List PinnedRequest) : Prop where
  isPublic : ∀ i request, requests[i]? = some request →
    IsPublicRequest rt env (state.redirectCount + i) request
  fresh : ∀ request ∈ requests, request.url.toString ∉ state.visited
  nodup : (requests.map fun request => request.url.toString).Nodup
  noDowngrade : url.protocol = asciiText "https:" →
    ∀ request ∈ requests, request.url.protocol ≠ asciiText "http:"
  pairwise : requests.Pairwise fun earlier later =>
    earlier.url.protocol = asciiText "https:" → later.url.protocol ≠ asciiText "http:"

theorem Reaches.nil (state : FetchState) (url : Url) : Reaches rt env state url [] where
  isPublic i request h := by cases h
  fresh request h := by cases h
  nodup := List.nodup_nil
  noDowngrade _ request h := by cases h
  pairwise := List.Pairwise.nil

/-- One request, and what follows it. -/
theorem Reaches.cons {state next : FetchState} {url url' : Url} {request : PinnedRequest}
    {rest : List PinnedRequest} (hcurrent : state.current = url.toString)
    (hrequest : request.url = url) (hpublic : IsPublicRequest rt env state.redirectCount request)
    (hvisited : state.current ∉ state.visited)
    (hcount : next.redirectCount = state.redirectCount + 1)
    (hnext : next.visited = state.visited ++ [state.current])
    (hdown : url.protocol = asciiText "https:" → url'.protocol ≠ asciiText "http:")
    (htarget' : IsTarget rt url') (hrest : Reaches rt env next url' rest) :
    Reaches rt env state url (request :: rest) := by
  have hrestFresh : ∀ r ∈ rest, r.url.toString ∉ state.visited ∧ r.url.toString ≠ state.current := by
    intro r hr
    have hfresh := hrest.fresh r hr
    rw [hnext, List.mem_append, not_or, List.mem_singleton] at hfresh
    exact hfresh
  have hrestDown : url.protocol = asciiText "https:" →
      ∀ r ∈ rest, r.url.protocol ≠ asciiText "http:" := by
    intro hhttps
    rcases htarget'.protocol with hhttp | hhttps'
    · exact absurd hhttp (hdown hhttps)
    · exact hrest.noDowngrade hhttps'
  refine ⟨?_, ?_, ?_, ?_, ?_⟩
  · intro i r hr
    rcases i with _ | i
    · cases hr
      exact hpublic
    · have hi := hrest.isPublic i r hr
      rw [hcount] at hi
      rw [show state.redirectCount + (i + 1) = state.redirectCount + 1 + i by omega]
      exact hi
  · intro r hr
    rcases List.mem_cons.mp hr with rfl | hr
    · rw [hrequest, ← hcurrent]
      exact hvisited
    · exact (hrestFresh r hr).1
  · rw [List.map_cons, List.nodup_cons]
    refine ⟨?_, hrest.nodup⟩
    intro hmem
    rcases List.mem_map.mp hmem with ⟨r, hr, hsame⟩
    refine (hrestFresh r hr).2 ?_
    rw [hsame, hrequest, hcurrent]
  · intro hhttps r hr
    rcases List.mem_cons.mp hr with rfl | hr
    · rw [hrequest, hhttps]
      decide
    · exact hrestDown hhttps r hr
  · refine List.pairwise_cons.mpr ⟨?_, hrest.pairwise⟩
    intro r hr hhttps
    rw [hrequest] at hhttps
    exact hrestDown hhttps r hr

/-- One request alone. -/
theorem Reaches.single {state : FetchState} {url : Url} {request : PinnedRequest}
    (hat : AtTarget rt state url) (hprepare : prepareHop rt env config state = .ok request) :
    Reaches rt env state url [request] := by
  rcases prepareHop_spec hat.1 hat.2 hprepare with ⟨hrequest, hvisited, hpublic⟩
  have hnil : Reaches rt env
      ⟨state.redirectCount + 1, state.current, state.visited ++ [state.current], state.hops⟩ url [] :=
    .nil _ _
  refine .cons hat.2 hrequest hpublic hvisited rfl rfl ?_ hat.1 hnil
  intro hhttps
  rw [hhttps]
  decide

/-- **Every run of the loop reaches public targets only.** -/
theorem turns_reaches (hrt : LawfulRuntime rt) (n : ℕ) (state : FetchState) :
    ∀ url, AtTarget rt state url →
      Reaches rt env state url (turns rt env config requestedUrl n state).requests := by
  refine turns_induction (P := fun state fetch => ∀ url, AtTarget rt state url →
    Reaches rt env state url fetch.requests) ?_ ?_ ?_ ?_ ?_ n state
  · intro state url _
    exact .nil state url
  · intro state error _ url _
    exact .nil state url
  · intro state request error hprepare url hat
    exact .single hat hprepare
  · intro state request response result hprepare _ _ url hat
    exact .single hat hprepare
  · intro state request response next rest hprepare hsettle ih url hat
    rcases prepareHop_spec hat.1 hat.2 hprepare with ⟨hrequest, hvisited, hpublic⟩
    rcases settleHop_redirect hrt hsettle with ⟨_, hcount, hnext, url', htarget', hcurrent', hdown⟩
    rw [hrequest] at hdown
    exact .cons hat.2 hrequest hpublic hvisited hcount hnext hdown htarget'
      (ih url' ⟨htarget', hcurrent'⟩)

/-- The redirects are counted. -/
theorem turns_length (hrt : LawfulRuntime rt) (n : ℕ) (state : FetchState)
    (hcount : state.redirectCount ≤ config.maxRedirects) :
    (turns rt env config requestedUrl n state).requests.length + state.redirectCount ≤
      config.maxRedirects + 1 := by
  revert hcount
  refine turns_induction (P := fun state fetch => state.redirectCount ≤ config.maxRedirects →
    fetch.requests.length + state.redirectCount ≤ config.maxRedirects + 1) ?_ ?_ ?_ ?_ ?_ n state
  · intro state hle
    show 0 + _ ≤ _
    omega
  · intro state error _ hle
    show 0 + _ ≤ _
    omega
  · intro state request error _ hle
    show 1 + _ ≤ _
    omega
  · intro state request response result _ _ _ hle
    show 1 + _ ≤ _
    omega
  · intro state request response next rest _ hsettle ih hle
    rcases settleHop_redirect hrt hsettle with ⟨hlt, hnext, -⟩
    have hrest := ih (by omega)
    rw [hnext] at hrest
    show rest.requests.length + 1 + _ ≤ _
    omega

/-- **Enough turns.**  The loop ends after the last redirect that is allowed, if not before. -/
theorem turns_ends (hrt : LawfulRuntime rt) {n : ℕ} {state : FetchState}
    (hn : config.maxRedirects < n + state.redirectCount)
    (hle : state.redirectCount ≤ config.maxRedirects) :
    ∃ outcome, (turns rt env config requestedUrl n state).outcome = some outcome := by
  induction n generalizing state with
  | zero => omega
  | succ n ih =>
    rcases hhop : hop rt env config requestedUrl state with ⟨request, error | next | result⟩
    · exact ⟨.error error, by simp only [turns, hhop]⟩
    · have hsettle : ∃ request response,
          settleHop rt env config requestedUrl state request response = .ok (.inl next) := by
        unfold hop at hhop
        split at hhop
        · cases hhop
        · next request' _ =>
          rcases bind_eq_ok.mp (Prod.ext_iff.mp hhop).2 with ⟨response, -, hsettle⟩
          exact ⟨request', response, hsettle⟩
      rcases hsettle with ⟨request', response, hsettle⟩
      rcases settleHop_redirect hrt hsettle with ⟨hlt, hcount, -⟩
      have hn' : config.maxRedirects < n + next.redirectCount := by omega
      rcases ih hn' (by omega) with ⟨outcome, houtcome⟩
      exact ⟨outcome, by simp only [turns, hhop, houtcome]⟩
    · exact ⟨.ok result, by simp only [turns, hhop]⟩

/-- The result comes from the response to the last request. -/
theorem turns_delivers (hrt : LawfulRuntime rt) (n : ℕ) (state : FetchState) :
    ∀ result, (turns rt env config requestedUrl n state).outcome = some (.ok result) →
      ∃ before request response,
        (turns rt env config requestedUrl n state).requests = before ++ [request] ∧
          env.requester (state.redirectCount + before.length) request = .returned response ∧
            Delivers rt config response result := by
  refine turns_induction (P := fun state fetch => ∀ result, fetch.outcome = some (.ok result) →
    ∃ before request response, fetch.requests = before ++ [request] ∧
      env.requester (state.redirectCount + before.length) request = .returned response ∧
        Delivers rt config response result) ?_ ?_ ?_ ?_ ?_ n state
  · intro state result h
    cases h
  · intro state error _ result h
    cases h
  · intro state request error _ result h
    cases h
  · intro state request response result _ hresponse hsettle result' h
    cases h
    exact ⟨[], request, response, rfl, hresponse, settleHop_result hsettle⟩
  · intro state request response next rest _ hsettle ih result h
    rcases ih result h with ⟨before, last, reply, hrequests, hreply, hdelivers⟩
    rcases settleHop_redirect hrt hsettle with ⟨_, hcount, -⟩
    refine ⟨request :: before, last, reply, ?_, ?_, hdelivers⟩
    · rw [hrequests, List.cons_append]
    · rw [hcount] at hreply
      rw [List.length_cons, show state.redirectCount + (before.length + 1) =
        state.redirectCount + 1 + before.length by omega]
      exact hreply

/-- **Fetches reach public targets only.**  Whatever resolver, requester and clock do, a fetch ends;
each of its requests is to a target, and carries only addresses that are public, and that are the
host itself or were given by the resolver at that hop; no URL is requested twice, and no HTTP one
after an HTTPS one; there are at most as many requests as redirects and one; and a result is read
from a 2xx response to the last request, of an allowed type and with a body that is short enough. -/
theorem safeFetch_reaches_public_targets (hrt : LawfulRuntime rt) (env : Environment) (value : Text)
    (options : SafeFetchOptions) :
    (∃ outcome, (safeFetch rt env value options).outcome = some outcome) ∧
      (∀ i request, (safeFetch rt env value options).requests[i]? = some request →
        IsPublicRequest rt env i request) ∧
      ((safeFetch rt env value options).requests.map fun request => request.url.toString).Nodup ∧
      ((safeFetch rt env value options).requests.Pairwise fun earlier later =>
        earlier.url.protocol = asciiText "https:" → later.url.protocol ≠ asciiText "http:") ∧
      (∀ config, readOptions rt options = .ok config →
        (safeFetch rt env value options).requests.length ≤ config.maxRedirects + 1) ∧
      (∀ result, (safeFetch rt env value options).outcome = some (.ok result) →
        ∃ config before request response, readOptions rt options = .ok config ∧
          (safeFetch rt env value options).requests = before ++ [request] ∧
          env.requester before.length request = .returned response ∧
          Delivers rt config response result) := by
  rcases hoptions : readOptions rt options with error | config
  · have hfetch : safeFetch rt env value options = ⟨[], some (.error (.safeFetch error))⟩ := by
      simp only [safeFetch, hoptions]
    rw [hfetch]
    exact ⟨⟨_, rfl⟩, by simp, by simp, by simp, by simp, by simp⟩
  · rcases hvalid : validateExternalUrl rt value with error | url
    · have hfetch : safeFetch rt env value options = ⟨[], some (.error (.safeFetch error))⟩ := by
        simp only [safeFetch, hoptions, hvalid]
      rw [hfetch]
      exact ⟨⟨_, rfl⟩, by simp, by simp, by simp, by simp, by simp⟩
    · have hfetch : safeFetch rt env value options =
          turns rt env config url.toString (config.maxRedirects + 1) ⟨0, url.toString, [], []⟩ := by
        simp only [safeFetch, hoptions, hvalid]
      have htarget := validateExternalUrl_spec hrt hvalid
      have hreaches : Reaches rt env ⟨0, url.toString, [], []⟩ url (turns rt env config url.toString
          (config.maxRedirects + 1) ⟨0, url.toString, [], []⟩).requests :=
        turns_reaches hrt _ _ url ⟨htarget, rfl⟩
      rw [hfetch]
      refine ⟨turns_ends hrt (Nat.lt_succ_self _) (Nat.zero_le _), ?_, hreaches.nodup,
        hreaches.pairwise, ?_, ?_⟩
      · intro i request h
        have hi := hreaches.isPublic i request h
        rw [Nat.zero_add] at hi
        exact hi
      · intro config' hconfig
        cases hconfig
        have hcount : (0 : ℕ) ≤ config.maxRedirects := Nat.zero_le _
        exact turns_length hrt _ ⟨0, url.toString, [], []⟩ hcount
      · intro result hresult
        rcases turns_delivers hrt _ _ result hresult with
          ⟨before, request, response, hrequests, hresponse, hdelivers⟩
        rw [Nat.zero_add] at hresponse
        exact ⟨config, before, request, response, rfl, hrequests, hresponse, hdelivers⟩

/-! ### Examples -/

/-- `http://<host>/`. -/
def exampleUrl (host : String) : Url where
  protocol := asciiText "http:"
  username := []
  password := []
  hostname := asciiText host
  port := []
  pathname := asciiText "/"
  search := []
  hash := []

/-- A platform that knows two URLs. -/
def exampleRuntime : Runtime where
  parseUrl input _ :=
    if input = asciiText "http://a.example/" then some (exampleUrl "a.example")
    else if input = asciiText "http://8.8.8.8/" then some (exampleUrl "8.8.8.8")
    else none
  toLowerCase t := t.map lowerUnit
  toNumber _ := none
  decode bytes := bytes.map UInt8.toNat
  sanitizeHtml _ t := t

theorem lawful_exampleRuntime : LawfulRuntime exampleRuntime := by
  have hknown : ∀ {input base url}, exampleRuntime.parseUrl input base = some url →
      url = exampleUrl "a.example" ∨ url = exampleUrl "8.8.8.8" := by
    intro input base url h
    simp only [exampleRuntime] at h
    split at h
    · exact .inl (Option.some.inj h).symm
    · split at h
      · exact .inr (Option.some.inj h).symm
      · cases h
  refine ⟨?_, ?_, fun _ => rfl⟩
  · intro input base url h
    rcases hknown h with rfl | rfl <;> decide +kernel
  · intro input base url h
    rcases hknown h with rfl | rfl <;> decide +kernel

/-- A resolver with one public answer, and a requester with one text. -/
def exampleEnvironment : Environment where
  elapsed _ := 0
  resolver _ _ := .returned [⟨asciiText "93.184.216.34", 4⟩]
  requester _ _ := .returned ⟨200, [(asciiText "Content-Type", asciiText "text/plain")], [104, 105]⟩
  now := asciiText "2024-01-01T00:00:00.000Z"

/-- A fetch with a result: its one request is public. -/
theorem example_fetch_public :
    ((safeFetch exampleRuntime exampleEnvironment (asciiText "http://a.example/") {}).requests.map
        (·.addresses)) = [[⟨asciiText "93.184.216.34", 4⟩]] ∧
      ∃ outcome, (safeFetch exampleRuntime exampleEnvironment
        (asciiText "http://a.example/") {}).outcome = some outcome :=
  ⟨by decide +kernel, (safeFetch_reaches_public_targets lawful_exampleRuntime exampleEnvironment
    (asciiText "http://a.example/") {}).1⟩

/-- **A literal address is not resolved.**  The request for it carries an address that the resolver
did not return. -/
theorem literal_address_not_resolved :
    ¬ ∀ (rt : Runtime) (env : Environment) (value : Text) (options : SafeFetchOptions),
      LawfulRuntime rt → ∀ i request,
        (safeFetch rt env value options).requests[i]? = some request → ∀ a ∈ request.addresses,
          ∃ records, env.resolver i request.hostname = .returned records ∧ a ∈ records := by
  intro hall
  have hone : ∃ request ∈ (safeFetch exampleRuntime exampleEnvironment
      (asciiText "http://8.8.8.8/") {}).requests[0]?,
        request.addresses = [⟨asciiText "8.8.8.8", 4⟩] := by
    decide +kernel
  rcases hone with ⟨request, hrequest, haddresses⟩
  rcases hall _ _ _ _ lawful_exampleRuntime 0 request hrequest ⟨asciiText "8.8.8.8", 4⟩
    (by rw [haddresses]; simp) with ⟨records, hrecords, hmem⟩
  cases hrecords
  exact absurd hmem (by decide)

end ResearchWorkbench.SafeFetch
