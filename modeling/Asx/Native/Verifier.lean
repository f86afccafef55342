import Asx.Native.Verify
import Asx.Native.As4Parser

/-!
# The receive path's verifier

`as4/receive/verifier.rs`: the WS-Security check of an inbound push and the two coverage
rules on top of it, for the `eb:Messaging` header and for the attachments.
-/

namespace Asx

open Xml

/-- `TimestampWindow`, in nanoseconds. -/
structure TimestampWindow where
  future : Nat
  past : Nat
deriving DecidableEq, Repr

/-- What the receive path reads of `As4PushPolicy`. -/
structure As4PushPolicy where
  requireSignedPush : Bool
  requireEncryptedInbound : Bool
  acceptPathSwitch : Bool
  timestampWindow : Option TimestampWindow
deriving DecidableEq, Repr

/-- An error of the receive path about a message. -/
def receiveError (session : SessionContext) (messageId : Str) (code : ErrorCode)
    (message : Str) : AsxError :=
  ⟨code, message, .forSessionWithMessage "as4_receive_push" session messageId⟩

/-- `normalize_cid` of `as4/receive/verifier.rs`. -/
def coverageNormalizeCid (value : Str) : Str :=
  let value := Str.trim value
  let value := (Str.stripPrefix "<" value).getD value
  let value := (Str.stripSuffix ">" value).getD value
  if Str.eqIgnoreAsciiCase (value.take 4) "cid:" then value.drop 4 else value

/-- `enforce_attachment_signature_coverage`. Only the Content-IDs of the attachments are
    read. -/
def enforceAttachmentSignatureCoverage (session : SessionContext) (messageId : Str)
    (attachments : List Str) (coverage : VerifiedSignatureCoverage) : Result Unit :=
  forM attachments fun attachment =>
    let cid := coverageNormalizeCid attachment
    Except.rejectIf
      (¬ coverage.signedCidReferences.any fun signed => coverageNormalizeCid signed == cid)
      (receiveError session messageId .securityVerificationFailed
        ("AS4 payload attachment cid:" ++ cid ++ " is not covered by the WS-Security " ++
          "signature; the signature must include a ds:Reference URI=\"cid:" ++ cid ++
          "\" so the payload is integrity-protected alongside the eb:Messaging header"))

/-- The `eb:Messaging` elements of a document, wherever they stand. -/
def messagingNodes (doc : Document) : List Node :=
  doc.descendants.filter (·.hasTagName Ns.ebms3 "Messaging")

/-- The id that the coverage check reads of an element: `wsu:Id`, else an attribute with the
    local name `Id` in any namespace. -/
def coverageId? (n : Node) : Option Str := (n.attributeNs? Ns.wsu "Id").or (n.attribute? "Id")

/-- `enforce_messaging_signature_coverage`. -/
def enforceMessagingSignatureCoverage (session : SessionContext) (soapDoc : Document)
    (messageId : Str) (coverage : VerifiedSignatureCoverage) : Result Unit :=
  match messagingNodes soapDoc with
  | [messaging] =>
    Except.rejectIf (¬ (coverageId? messaging).any (coverage.signedSameDocumentIds.contains ·))
      (receiveError session messageId .securityVerificationFailed
        ("AS4 eb:Messaging header block is not covered by the verified WS-Security signature " ++
          "(possible XML signature wrapping)"))
  | nodes => .error (receiveError session messageId .securityVerificationFailed
      ("AS4 envelope must contain exactly one eb:Messaging header block (found " ++
        showNat nodes.length ++ ")"))

/-- `SenderAuthorization`: the signers a claimed sender may use, and the profile's rule. -/
structure SenderAuthorization where
  pins : List Bytes
  check : Option (Bytes → Result Unit)

/-- The options `verify_security` verifies under. -/
def receiveVerifyOptions (chainPolicy : ChainPolicy) (now : SystemTime)
    (authorization : SenderAuthorization) : WsSecVerifyOptions :=
  { expectedCertFingerprints := authorization.pins
    signerCheck := authorization.check
    chainPolicy, now
    externalReferences := []
    deferAttachments := true }

/-- `As4WsSecVerifier::verify_security`; the coverage it leaves as evidence is its result. -/
def verifySecurity (pki : Pki) (session : SessionContext) (policy : As4PushPolicy)
    (chainPolicy : ChainPolicy) (now : SystemTime) (soapDoc : Document) (messageId : Str)
    (externalReferences : List Str) (fromPartyId : Str) (authorization : SenderAuthorization) :
    Result (Option VerifiedSignatureCoverage) := do
  let coverage ← verifyEnvelopedSignatureOptionalWithDoc pki soapDoc .userMessage
    (receiveVerifyOptions chainPolicy now authorization)
  Except.rejectIf (policy.requireSignedPush ∧ coverage.isNone)
    (receiveError session messageId .securityVerificationFailed
      "AS4 push message signature is required but not present")
  Except.rejectIf (coverage.isSome ∧ authorization.pins = [] ∧ authorization.check.isNone)
    ⟨.policyViolation, "no signing certificate is pinned for the claimed sender '" ++
      fromPartyId ++ "', so a valid signature could not be attributed to it; pin the " ++
      "partner's signing certificate (Partner::signing_cert)",
      .forSession "as4_receive_push" session⟩
  match coverage with
    | some coverage =>
      enforceMessagingSignatureCoverage session soapDoc messageId coverage
      enforceAttachmentSignatureCoverage session messageId externalReferences coverage
    | none => pure ()
  pure coverage

end Asx
