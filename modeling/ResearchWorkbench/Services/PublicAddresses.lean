import ResearchWorkbench.Domain.Content
import ResearchWorkbench.Library.IpAddresses

namespace ResearchWorkbench.SafeFetch

/-!
# Public addresses

The classification of addresses in `lib/security/url.ts`, on texts as lists of UTF-16 code units.

* `SafeFetchError` — how a fetch fails;
* `isIP` — `isIP` of `node:net`;
* `ipv4ToNumber`, `ipv4InCidr`, `isPublicIpv4` — IPv4, on numbers of 32 bits;
* `ipv6ToBigInt`, `ipv6InCidr`, `isPublicIpv6` — IPv6;
* `isPublicIpAddress` — the addresses that may be reached.
-/

/-- `SafeFetchErrorCode`. -/
inductive SafeFetchErrorCode
  | invalidUrl | disallowedAddress | dnsFailure | tooManyRedirects | redirectLoop | invalidRedirect
  | timeout | responseTooLarge | unsupportedMimeType | httpError | fetchFailed
  deriving DecidableEq, Repr

/-- `SafeFetchError`; the cause is left out. -/
structure SafeFetchError where
  code : SafeFetchErrorCode
  message : Text
  deriving DecidableEq, Repr

/-- `new SafeFetchError(code, message)` for a fixed message. -/
def safeFetchError (code : SafeFetchErrorCode) (message : String) : SafeFetchError :=
  ⟨code, asciiText message⟩

/-! ### `isIP` -/

/-- A character of a zone identifier. -/
def isZoneUnit (c : ℕ) : Bool :=
  (48 ≤ c && c ≤ 57) || (65 ≤ c && c ≤ 90) || (97 ≤ c && c ≤ 122) || c = 45 || c = 46 || c = 58

/-- Nothing, or `%` and a zone identifier. -/
def isZone (t : Text) : Bool :=
  match t with
  | [] => true
  | c :: zone => c = 37 && zone ≠ [] && zone.all isZoneUnit

/-- `isIP(address)`: 4, 6, or 0 for what is not an address.  IPv6 addresses may have a zone. -/
def isIP (address : Text) : ℕ :=
  if isIpv4Text address then 4
  else if isIpv6Text (address.takeWhile (· ≠ 37)) && isZone (address.dropWhile (· ≠ 37)) then 6
  else 0

/-! ### IPv4 -/

/-- `ipv4ToNumber(address)`, for decimal octets. -/
def ipv4ToNumber (address : Text) : BitVec 32 :=
  BitVec.ofNat 32 ((address.splitOn 46).foldl (fun value octet => value * 256 + numeral 10 octet) 0)

/-- `ipv4InCidr(address, network, prefix)`. -/
def ipv4InCidr (address network : BitVec 32) (prefixLength : ℕ) : Bool :=
  if prefixLength = 0 then true
  else
    let mask := (0xffffffff : BitVec 32) <<< (32 - prefixLength)
    address &&& mask == network &&& mask

/-- `blocked` of `isPublicIpv4`. -/
def blockedIpv4 : List (String × ℕ) :=
  [("0.0.0.0", 8),
    ("10.0.0.0", 8),
    ("100.64.0.0", 10),
    ("127.0.0.0", 8),
    ("169.254.0.0", 16),
    ("172.16.0.0", 12),
    ("192.0.0.0", 24),
    ("192.0.2.0", 24),
    ("192.88.99.0", 24),
    ("192.168.0.0", 16),
    ("198.18.0.0", 15),
    ("198.51.100.0", 24),
    ("203.0.113.0", 24),
    ("224.0.0.0", 4),
    ("240.0.0.0", 4)]

/-- `isPublicIpv4(address)`. -/
def isPublicIpv4 (address : Text) : Bool :=
  let value := ipv4ToNumber address
  !blockedIpv4.any fun (network, prefixLength) =>
    ipv4InCidr value (ipv4ToNumber (asciiText network)) prefixLength

/-! ### IPv6 -/

/-- `\d{1,3}(?:\.\d{1,3}){3}`, for the whole text. -/
def isDotted (t : Text) : Bool :=
  (t.splitOn 46).length = 4 &&
    (t.splitOn 46).all fun part => 1 ≤ part.length && part.length ≤ 3 && part.all isDecimalDigit

/-- What follows each colon of a text. -/
def afterColons : Text → List Text
  | [] => []
  | c :: rest => if c = 58 then rest :: afterColons rest else afterColons rest

/-- The group of `normalized.match(/(?:^|:)(\d{1,3}(?:\.\d{1,3}){3})$/)`. -/
def ipv4Match (normalized : Text) : Option Text :=
  (normalized :: afterColons normalized).find? isDotted

/-- The text with the dotted quad at its end in hexadecimal. -/
def replaceIpv4 (normalized : Text) : Except SafeFetchError Text :=
  match ipv4Match normalized with
  | none => .ok normalized
  | some ipv4 =>
    if isIP ipv4 ≠ 4 then .error (safeFetchError .invalidUrl "Invalid IPv4-mapped address")
    else
      let value := ipv4ToNumber ipv4
      .ok (normalized.take (normalized.length - ipv4.length) ++
        numeralText 16 ((value >>> 16) &&& 0xffff).toNat ++ [58] ++
          numeralText 16 (value &&& 0xffff).toNat)

/-- `/^[0-9a-f]{1,4}$/`. -/
def isLowerGroup (group : Text) : Bool :=
  1 ≤ group.length && group.length ≤ 4 &&
    group.all fun c => isDecimalDigit c || (97 ≤ c && c ≤ 102)

/-- The eight groups of an address whose dotted quad is replaced. -/
def ipv6Groups (normalized : Text) : Except SafeFetchError (List Text) :=
  let invalid := safeFetchError .invalidUrl "Invalid IPv6 address"
  let halves := splitPair 58 normalized
  if halves.length > 2 then .error invalid
  else
    let left := colonPieces (halves.getD 0 [])
    let right := if halves.length = 2 then colonPieces (halves.getD 1 []) else []
    let missing : ℤ := 8 - left.length - right.length
    if missing < 0 ∨ (halves.length = 1 ∧ missing ≠ 0) then .error invalid
    else
      let groups := left ++ List.replicate missing.toNat (asciiText "0") ++ right
      if groups.length ≠ 8 ∨ groups.any (fun group => !isLowerGroup group) then .error invalid
      else .ok groups

/-- `ipv6ToBigInt(address)`. -/
def ipv6ToBigInt (address : Text) : Except SafeFetchError ℕ :=
  if address.contains 37 then
    .error (safeFetchError .disallowedAddress "IPv6 zone identifiers are not allowed")
  else do
    let normalized ← replaceIpv4 (address.map lowerUnit)
    let groups ← ipv6Groups normalized
    return groups.foldl (fun value group => (value <<< 16) + numeral 16 group) 0

/-- `ipv6InCidr(address, network, prefix)`. -/
def ipv6InCidr (address network : ℕ) (prefixLength : ℕ) : Bool :=
  if prefixLength = 0 then true
  else
    let shift := 128 - prefixLength
    address >>> shift == network >>> shift

/-- `blocked` of `isPublicIpv6`. -/
def blockedIpv6 : List (String × ℕ) :=
  [("::", 96),
    ("::1", 128),
    ("::ffff:0:0", 96),
    ("64:ff9b::", 96),
    ("64:ff9b:1::", 48),
    ("100::", 64),
    ("2001::", 23),
    ("2001:db8::", 32),
    ("2002::", 16),
    ("fc00::", 7),
    ("fe80::", 10),
    ("fec0::", 10),
    ("ff00::", 8)]

/-- `blocked.some(…)` of `isPublicIpv6`, which reads the networks one after the other. -/
def inBlockedIpv6 (value : ℕ) : List (String × ℕ) → Except SafeFetchError Bool
  | [] => .ok false
  | (network, prefixLength) :: rest => do
    let networkValue ← ipv6ToBigInt (asciiText network)
    if ipv6InCidr value networkValue prefixLength then return true
    inBlockedIpv6 value rest

/-- `isPublicIpv6(address)`. -/
def isPublicIpv6 (address : Text) : Except SafeFetchError Bool := do
  let value ← ipv6ToBigInt address
  let blocked ← inBlockedIpv6 value blockedIpv6
  return !blocked

/-! ### Addresses -/

/-- `isPublicIpAddress(address)`. -/
def isPublicIpAddress (address : Text) : Except SafeFetchError Bool :=
  let family := isIP address
  if family = 4 then .ok (isPublicIpv4 address)
  else if family = 6 then isPublicIpv6 address
  else .ok false

end ResearchWorkbench.SafeFetch
