import Polymorph.Trust.SourceTrust

/-!
# The admission policy of a relay

`RelayPolicy.validate`: the recipient key, the source authentication, the route and the lifetime of
a sealed record. The registry of source keys is the one that the verification session fences.
-/

set_option autoImplicit false

namespace Polymorph

open JsonText Utc

/-- A route that a relay serves. -/
structure RouteBinding where
  tenant : String
  sourceConnector : String
  destinationConnector : String
  allowedPlanDigests : List String := []
  allowedSourceKeyIds : List String := []

/-- `RouteBinding.allows` -/
def RouteBinding.allows (route : RouteBinding) (record : BlindTransportRecord) : Bool :=
  decide (record.tenant = route.tenant ∧ record.sourceConnector = route.sourceConnector ∧
    record.destinationConnector = route.destinationConnector) &&
  (route.allowedPlanDigests.isEmpty || decide (record.planDigest ∈ route.allowedPlanDigests)) &&
  (route.allowedSourceKeyIds.isEmpty ||
    record.authentication.any fun a => decide (a.keyId ∈ route.allowedSourceKeyIds))

/-- The policy, without its registry of source keys. -/
structure RelayPolicy where
  routes : List RouteBinding
  requireExpiry : Bool := false
  /-- in microseconds -/
  maxLifetime : Option Int := some (24 * 60 * 60 * 1000000)
  allowLegacyUnsigned : Bool := false
  allowLegacyBlankRecipientKeyId : Bool := false

namespace RelayPolicy

/-- The time between two instants exceeds the bound. -/
def lifetimeExceeds (context : TransferContext) (maxLifetime : Option Int) : Bool :=
  match context.issuedAt, context.expiresAt, maxLifetime with
  | some issued, some expires, some bound =>
      decide ((expires.micros : Int) - issued.micros > bound)
  | _, _, _ => false

/-- `_validate`; the registry is `none` when the policy has none, and each of the two times is read
where the code reads it. -/
def validate (ed25519 : List UInt8 → ByteArray → List UInt8 → Bool) (policy : RelayPolicy)
    (registry : Option SourceTrustStore) (record : BlindTransportRecord)
    (verifiedAt validatedAt : Instant) : Except Exn Unit := do
  if record.protocolVersion = 3 ∧ record.first.recipientKeyId = "" ∧
      policy.allowLegacyBlankRecipientKeyId = false then
    throw (.policyViolation "v3 transport record has no authenticated recipient key id")
  if record.protocolVersion = 2 then
    if policy.allowLegacyUnsigned = false then
      throw (.policyViolation "unsigned v2 transport record is not allowed by relay policy")
  else
    match registry with
    | none => throw (.policyViolation "relay policy has no trusted source key registry")
    | some store => let _ ← store.verifyRecord ed25519 record (.aware verifiedAt)
  if (policy.routes.any fun route => route.allows record) = false then
    throw (.policyViolation "sealed record route is not authorized")
  record.first.validateTime validatedAt
  if policy.requireExpiry ∧ record.first.expiresAt = none then
    throw (.policyViolation "sealed record has no authenticated expiry")
  if lifetimeExceeds record.first policy.maxLifetime then
    throw (.policyViolation "sealed record lifetime exceeds relay policy")

end RelayPolicy

end Polymorph
