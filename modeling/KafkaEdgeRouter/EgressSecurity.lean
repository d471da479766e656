import KafkaEdgeRouter.RecordDecoder
import Mathlib.Data.Finset.Card

/-!
# Egress checks of webhooks

A destination URL is checked when the daemon is configured. Before every attempt its host is
resolved, all addresses of the answer are checked, and the client of the attempt is pinned to them.
The parsers of URLs and of literal addresses, the resolver and the builder of the client are
parameters.
-/

namespace KafkaEdgeRouter.Webhook

structure Ipv4Addr where
  a : BitVec 8
  b : BitVec 8
  c : BitVec 8
  d : BitVec 8
  deriving DecidableEq

structure Ipv6Addr where
  s0 : BitVec 16
  s1 : BitVec 16
  s2 : BitVec 16
  s3 : BitVec 16
  s4 : BitVec 16
  s5 : BitVec 16
  s6 : BitVec 16
  s7 : BitVec 16
  deriving DecidableEq

inductive IpAddr
  | v4 (address : Ipv4Addr)
  | v6 (address : Ipv6Addr)
  deriving DecidableEq

/-- The last two fields are those of an IPv6 address with a zone. -/
structure SocketAddr where
  ip : IpAddr
  port : ℕ
  flowinfo : ℕ := 0
  scopeId : ℕ := 0
  deriving DecidableEq

/-- The parts of a parsed URL that are looked at; the port is the known default if none is given. -/
structure Url where
  scheme : String
  username : String
  password : Option String
  fragment : Option String
  host : Option String
  port : Option ℕ
  deriving DecidableEq

inductive EgressError
  | invalidUrl (reason : String)
  | hostNotAllowed (host : String)
  | client (reason : String)
  deriving DecidableEq

/-- A client that connects to these addresses of the host only. -/
structure Client where
  host : String
  addresses : List SocketAddr
  deriving DecidableEq

abbrev UrlParser : Type := String → Except String Url

/-- The text of an address, `str::parse::<IpAddr>`. -/
abbrev IpParser : Type := String → Option IpAddr

/-! ### Addresses -/

namespace Ipv4Addr

def isPrivate (address : Ipv4Addr) : Bool :=
  address.a == 10 || (address.a == 172 && 16 ≤ address.b && address.b ≤ 31) ||
    (address.a == 192 && address.b == 168)

def isLoopback (address : Ipv4Addr) : Bool := address.a == 127

def isLinkLocal (address : Ipv4Addr) : Bool := address.a == 169 && address.b == 254

def isBroadcast (address : Ipv4Addr) : Bool := address == ⟨255, 255, 255, 255⟩

def isDocumentation (address : Ipv4Addr) : Bool :=
  (address.a == 192 && address.b == 0 && address.c == 2) ||
    (address.a == 198 && address.b == 51 && address.c == 100) ||
    (address.a == 203 && address.b == 0 && address.c == 113)

def isUnspecified (address : Ipv4Addr) : Bool := address == ⟨0, 0, 0, 0⟩

def isMulticast (address : Ipv4Addr) : Bool := 224 ≤ address.a && address.a ≤ 239

def privateOrSpecial (address : Ipv4Addr) : Bool :=
  address.isPrivate || address.isLoopback || address.isLinkLocal || address.isBroadcast ||
    address.isDocumentation || address.isUnspecified || address.isMulticast || address.a == 0 ||
    (address.a == 100 && 64 ≤ address.b && address.b ≤ 127) ||
    (address.a == 192 && address.b == 0 && address.c == 0) ||
    (address.a == 192 && address.b == 88 && address.c == 99) ||
    (address.a == 198 && 18 ≤ address.b && address.b ≤ 19) || 240 ≤ address.a

end Ipv4Addr

namespace Ipv6Addr

def isLoopback (address : Ipv6Addr) : Bool := address == ⟨0, 0, 0, 0, 0, 0, 0, 1⟩

def isUnspecified (address : Ipv6Addr) : Bool := address == ⟨0, 0, 0, 0, 0, 0, 0, 0⟩

def isMulticast (address : Ipv6Addr) : Bool := address.s0 &&& 0xff00 == 0xff00

def toIpv4Mapped (address : Ipv6Addr) : Option Ipv4Addr :=
  if address.s0 = 0 ∧ address.s1 = 0 ∧ address.s2 = 0 ∧ address.s3 = 0 ∧ address.s4 = 0 ∧
      address.s5 = 0xffff then
    some ⟨address.s6.extractLsb' 8 8, address.s6.extractLsb' 0 8, address.s7.extractLsb' 8 8,
      address.s7.extractLsb' 0 8⟩
  else none

def privateOrSpecial (address : Ipv6Addr) : Bool :=
  let first := address.s0
  address.isLoopback || address.isUnspecified || address.isMulticast ||
    (first &&& 0xfe00 == 0xfc00) || (first &&& 0xffc0 == 0xfe80) ||
    (first == 0x0064 && address.s1 == 0xff9b) ||
    (first == 0x0100 && address.s1 == 0 && address.s2 == 0 && address.s3 == 0) ||
    (first == 0x2001 && address.s1 < 0x0200) || (first == 0x2001 && address.s1 == 0x0db8) ||
    first == 0x2002 || (first == 0x3fff && address.s1 < 0x1000) || first == 0x5f00 ||
    address.toIpv4Mapped.any Ipv4Addr.privateOrSpecial

end Ipv6Addr

def isPrivateOrSpecial : IpAddr → Bool
  | .v4 address => address.privateOrSpecial
  | .v6 address => address.privateOrSpecial

/-! ### URLs -/

/-- The host without the brackets around a literal IPv6 address. -/
def normalizedHost (host : String) : String :=
  match host.toList with
  | '[' :: rest =>
    if rest.getLast? = some ']' then String.ofList rest.dropLast else host
  | _ => host

def validateDestinationUrl (parseUrl : UrlParser) (parseIp : IpParser) (raw : String)
    (allowedHosts : List String) (allowPrivateIps allowHttp : Bool) : Except EgressError Url := do
  let url ← (parseUrl raw).mapError .invalidUrl
  let scheme := url.scheme
  if ¬ (scheme = "https" ∨ scheme = "http" ∧ allowHttp) then
    throw (.invalidUrl s!"scheme \"{scheme}\" is not permitted")
  if url.username ≠ "" ∨ url.password.isSome then
    throw (.invalidUrl "embedded credentials are not permitted")
  if url.fragment.isSome then
    throw (.invalidUrl "URL fragments are not permitted")
  match url.host with
  | none => throw (.invalidUrl "host is required")
  | some host =>
    let host := normalizedHost host
    if ¬ allowedHosts.isEmpty ∧
        ¬ allowedHosts.any (fun allowed => Kafka.eqIgnoreAsciiCase allowed host) then
      throw (.hostNotAllowed host)
    if ¬ allowPrivateIps ∧ (parseIp host).any isPrivateOrSpecial then
      throw (.invalidUrl "private or special destination address is not allowed")
    return url

/-! ### Resolved addresses -/

def maxResolvedAddresses : ℕ := 16

/-- The loop over the answer of the resolver, with the addresses it has kept. -/
def collectAddresses : List SocketAddr → List SocketAddr → Except EgressError (List SocketAddr)
  | addresses, [] => .ok addresses
  | addresses, address :: resolved =>
    if addresses.length = maxResolvedAddresses then
      .error (.invalidUrl "destination resolves to too many addresses")
    else if address ∈ addresses then collectAddresses addresses resolved
    else collectAddresses (addresses ++ [address]) resolved

def pinAddresses (allowPrivateIps : Bool) (build : Client → Except String Unit) (host : String)
    (addresses : List SocketAddr) : Except EgressError Client :=
  if addresses.isEmpty then .error (.invalidUrl "destination resolved to no addresses")
  else if ¬ allowPrivateIps ∧ addresses.any (fun address => isPrivateOrSpecial address.ip) then
    .error (.invalidUrl "destination DNS includes a private or special address")
  else
    match build ⟨host, addresses⟩ with
    | .ok () => .ok ⟨host, addresses⟩
    | .error e => .error (.client e)

/-- `lookupHost` is what the resolver answers for the host and the port, if it does. -/
def pinnedClient (parseIp : IpParser) (lookupHost : String → ℕ → Option (List SocketAddr))
    (build : Client → Except String Unit) (url : Url) (allowPrivateIps : Bool) :
    Except EgressError Client :=
  match url.host with
  | none => .error (.invalidUrl "host is required")
  | some host =>
    let host := normalizedHost host
    match url.port with
    | none => .error (.invalidUrl "destination port is required")
    | some port => do
      let addresses ←
        match parseIp host with
        | some ip => pure [{ ip, port }]
        | none =>
          match lookupHost host port with
          | none => throw (.invalidUrl "destination DNS resolution failed")
          | some resolved => collectAddresses [] resolved
      pinAddresses allowPrivateIps build host addresses

end KafkaEdgeRouter.Webhook
