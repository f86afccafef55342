import Asx.ForStd.IpAddr
import Asx.Native.Core

/-!
# Outbound connections

The SSRF filter of `transport/egress.rs`: which addresses may not be contacted, and the
validation of a URL with the addresses that the client is then pinned to. The URL parser, the
system's resolver and the printed form of an address are parameters (`EgressLibrary`).
-/

namespace Asx

/-! ## Addresses -/

/-- `is_private_ipv4`. -/
def isPrivateIpv4 (ip : Ipv4Addr) : Bool :=
  ip.isLoopback || ip.isPrivate || ip.isLinkLocal || ip.isBroadcast || ip.isDocumentation ||
    ip.isMulticast || ip.a == 0 || (ip.a == 100 && 64 ≤ ip.b && ip.b ≤ 127) ||
    (ip.a == 192 && ip.b == 0) || (ip.a == 198 && (ip.b == 18 || ip.b == 19)) || 240 ≤ ip.a

/-- `is_private_ipv6`. -/
def isPrivateIpv6 (ip : Ipv6Addr) : Bool :=
  let low32 := Ipv6Addr.octetsOf ip.s6 ip.s7
  let nat64Wkp := ip.s0 == 0x0064 && ip.s1 == 0xff9b && ip.s2 == 0 && ip.s3 == 0 && ip.s4 == 0 &&
    ip.s5 == 0
  let nat64Local := ip.s0 == 0x0064 && ip.s1 == 0xff9b && ip.s2 == 0x0001
  let ipv4Compatible := ip.s0 == 0 && ip.s1 == 0 && ip.s2 == 0 && ip.s3 == 0 && ip.s4 == 0 &&
    ip.s5 == 0
  if nat64Wkp || nat64Local || ipv4Compatible then isPrivateIpv4 low32
  else if ip.s0 == 0x2002 then isPrivateIpv4 (Ipv6Addr.octetsOf ip.s1 ip.s2)
  else
    ip.isLoopback || ip.isUnspecified || ip.isMulticast || ip.s0 &&& 0xfe00 == 0xfc00 ||
      ip.s0 &&& 0xffc0 == 0xfe80 || (ip.s0 == 0x2001 && ip.s1 == 0x0000) ||
      (ip.s0 == 0x2001 && ip.s1 == 0x0db8) ||
      (ip.s0 == 0x0100 && ip.s1 == 0 && ip.s2 == 0 && ip.s3 == 0)

/-- `is_private_ip`. -/
def isPrivateIp (addr : IpAddr) : Bool :=
  match addr.toCanonical with
  | .v4 ip => isPrivateIpv4 ip
  | .v6 ip => isPrivateIpv6 ip

/-- `is_private_host`. -/
def isPrivateHost (host : Str) : Bool :=
  if Str.eqIgnoreAsciiCase host "localhost" then true
  else
    let hLower := host.map Str.toAsciiLower
    let hBare := Str.trimEndChar ']' (hLower.dropWhile (· == '['))
    match IpAddr.parse hBare with
    | some ip => isPrivateIp ip
    | none => false

/-! ## Targets -/

/-- `EgressSchemePolicy`. -/
inductive EgressSchemePolicy where
  | httpsOnly
  | allowPlaintextForSignedRevocation
deriving DecidableEq, Repr

/-- What `reqwest::Url` reads from a URL: `host_str` and `port_or_known_default`. -/
structure EgressUrl where
  scheme : Str
  host : Option Str
  port : Option Nat
deriving DecidableEq, Repr

/-- `SocketAddr`. -/
structure SocketAddr where
  ip : IpAddr
  port : Nat
deriving DecidableEq, Repr

/-- What the validation takes from outside. Errors of the resolver are their texts. -/
structure EgressLibrary where
  /-- `reqwest::Url::parse`. -/
  parseUrl : Str → Option EgressUrl
  /-- `tokio::net::lookup_host`. -/
  lookupHost : Str → Except Str (List SocketAddr)
  /-- The `Display` of an address. -/
  showIp : IpAddr → Str

/-- `ValidatedEgressTarget`. -/
structure ValidatedEgressTarget where
  resolvedHost : Option Str
  resolvedAddrs : List SocketAddr
deriving DecidableEq, Repr

/-- The check of the scheme. -/
def checkEgressScheme (scheme context : Str) (policy : EgressSchemePolicy) : Result Unit :=
  if scheme = Str.lit "https" then .ok ()
  else if scheme = Str.lit "http" then
    if policy = .allowPlaintextForSignedRevocation then .ok ()
    else .error ⟨.policyViolation,
      "plain HTTP egress is not permitted; use HTTPS for all outbound transport", .new context⟩
  else .error ⟨.invalidInput, "egress URL scheme '" ++ scheme ++
    "' is not allowed; only http and https are permitted", .new context⟩

/-- The loop over the resolved addresses. -/
def checkResolvedAddr (lib : EgressLibrary) (host context : Str) (addr : SocketAddr) :
    Result Unit :=
  Except.rejectIf (isPrivateIp addr.ip = true) ⟨.invalidInput, "egress URL host '" ++ host ++
    "' resolves to a private or loopback address (" ++ lib.showIp addr.ip ++
    "); outbound requests to internal networks are not permitted", .new context⟩

/-- The validation of a host. -/
def validateEgressHost (lib : EgressLibrary) (url : EgressUrl) (host context : Str) :
    Result ValidatedEgressTarget := do
  Except.rejectIf (isPrivateHost host = true) ⟨.invalidInput, "egress URL host '" ++ host ++
    "' is a private or loopback address; outbound requests to internal networks are not permitted",
    .new context⟩
  -- a bare address needs no resolution
  if (IpAddr.parse host).isSome then pure ⟨none, []⟩
  else
    let addrs ← (lib.lookupHost (host ++ ":" ++ showNat (url.port.getD 443))).mapError fun e =>
      ⟨.invalidInput, "egress URL host '" ++ host ++ "' could not be resolved: " ++ e,
        .new context⟩
    forM addrs (checkResolvedAddr lib host context)
    Except.rejectIf (addrs = []) ⟨.invalidInput, "egress URL host '" ++ host ++
      "' resolved to no usable addresses", .new context⟩
    pure ⟨some host, addrs⟩

/-- `validate_egress_target`. -/
def validateEgressTarget (lib : EgressLibrary) (url context : Str) (policy : EgressSchemePolicy) :
    Result ValidatedEgressTarget := do
  let parsed ← Except.okOr (lib.parseUrl url)
    ⟨.invalidInput, "malformed egress URL: " ++ url, .new context⟩
  checkEgressScheme parsed.scheme context policy
  match parsed.host with
  | none => pure ⟨none, []⟩
  | some host => validateEgressHost lib parsed host context

end Asx
