import Polymorph.Agents.SourceAgent

/-!
# The destination agent

`BlindDestinationAgent` authorizes a record, by the signature of its source, its addressee, its
recipient key and its plan, and then opens and decodes its fields. The clock is an argument.
-/

set_option autoImplicit false

namespace Polymorph

open JsonText Utc

/-- `BlindDestinationAgent`; private keys are raw bytes. -/
structure BlindDestinationAgent where
  privateKey : List UInt8
  expectedTenant : Option String := none
  expectedConnectorId : Option String := none
  allowedPlanDigests : Option (Finset String) := none
  sourceTrustStore : Option SourceTrustStore := none
  allowLegacyUnsigned : Bool := false
  additionalPrivateKeys : List (List UInt8) := []
  allowLegacyBlankRecipientKeyId : Bool := false

namespace BlindDestinationAgent

variable (env : RecipientEnvironment) (lib : SealingLibrary) (agent : BlindDestinationAgent)

/-- `(self.private_key, *self.additional_private_keys)` -/
def privateKeys : List (List UInt8) := agent.privateKey :: agent.additionalPrivateKeys

/-- The keys with a key id. -/
def matchingKeys (keyIds : List String) (recipientKeyId : String) : List (List UInt8) :=
  ((agent.privateKeys.zip keyIds).filter fun key => key.2 = recipientKeyId).map Prod.fst

/-- `_recipient_private_key` -/
def recipientPrivateKey (transport : BlindTransportRecord) : Except Exn (List UInt8) :=
  if transport.first.recipientKeyId = "" then .ok agent.privateKey
  else do
    let keyIds ← agent.privateKeys.mapM fun key => recipientKeyId env (lib.agreement.publicKey key)
    match agent.matchingKeys keyIds transport.first.recipientKeyId with
    | [key] => return key
    | _ => throw (.integrityError "transport record targets an unavailable recipient key")

/-- The check of the source of a record. -/
def checkSource (transport : BlindTransportRecord) (now : Instant) : Except Exn Unit :=
  if transport.protocolVersion = 2 then
    if agent.allowLegacyUnsigned = false then
      .error (.integrityError "unsigned v2 transport record is not allowed")
    else .ok ()
  else
    match agent.sourceTrustStore with
    | none => .error (.integrityError "destination has no trusted source key registry")
    | some store => do
        let _ ← store.verifyRecord env.ed25519 transport (.aware now)
        return ()

/-- `_authorize_record` -/
def authorizeRecord (transport : BlindTransportRecord) (now : Instant) :
    Except Exn (List UInt8) := do
  if transport.protocolVersion = 3 ∧ transport.first.recipientKeyId = "" ∧
      agent.allowLegacyBlankRecipientKeyId = false then
    throw (.integrityError "v3 transport record has no authenticated recipient key id")
  agent.checkSource env transport now
  if agent.expectedTenant.any fun tenant => transport.tenant ≠ tenant then
    throw (.integrityError "transport tenant is not authorized for this destination agent")
  if agent.expectedConnectorId.any fun connector => transport.destinationConnector ≠ connector then
    throw (.integrityError "transport is addressed to a different destination connector")
  let privateKey ← agent.recipientPrivateKey env lib transport
  if agent.allowedPlanDigests.any fun digests => transport.planDigest ∉ digests then
    throw (.integrityError "transport mapping plan is not authorized")
  return privateKey

/-- `_open_authorized_record`, from the field with this number on. -/
def openFields (H : Host) (privateKey : List UInt8) (clock : Nat → Instant) :
    Nat → List SealedField → SourceRecord → Except Exn SourceRecord
  | _, [], output => .ok output
  | k, field :: fields, output => do
      let plaintext ← lib.openEnvelope (clock k) field.envelope privateKey field.context
      let value ← PayloadCodec.decode H plaintext
      openFields H privateKey clock (k + 1) fields (dictSet field.targetFieldId value output)

/-- `open_record` -/
def openRecord (transport : BlindTransportRecord) (now : Instant) (clock : Nat → Instant) :
    Except Exn SourceRecord := do
  let privateKey ← agent.authorizeRecord env lib transport now
  openFields lib env.host privateKey clock 0 transport.fields []

end BlindDestinationAgent

end Polymorph
