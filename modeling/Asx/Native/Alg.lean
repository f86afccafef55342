import Asx.Native.Core
import Asx.Native.C14n

/-!
# The algorithm registry

`crypto/alg.rs`: the table from algorithm identifiers to algorithms, looked up for a role.
The rows of the roles that the signature verification and the XML Encryption reader use
are all there, in the source's order.
-/

namespace Asx

/-- `SignatureAlgorithm`. -/
inductive SignatureAlgorithm where
  | rsaSha256
  | rsaSha384
  | rsaSha512
  | ecdsaSha256
  | ecdsaSha384
  | ecdsaSha512
deriving DecidableEq, Repr

/-- `WsSecDigestMethod`. -/
inductive WsSecDigestMethod where
  | sha256
  | sha384
  | sha512
deriving DecidableEq, Repr

/-- `XmlEncPayloadAlgorithm`. -/
inductive XmlEncPayloadAlgorithm where
  | aes128Gcm
  | aes256Gcm
deriving DecidableEq, Repr

/-- `Role`: what an identifier is used for. -/
inductive Role where
  | digest
  | signature
  | c14n
  | transform
  | keyTransport
  | keyAgreement
  | kdf
  | keyWrap
  | contentCipher
  | mgf
  | curve
deriving DecidableEq, Repr

/-- `Role::label`. -/
def Role.label : Role → Str
  | .digest => "digest"
  | .signature => "signature"
  | .c14n => "canonicalization"
  | .transform => "transform"
  | .keyTransport => "key transport"
  | .keyAgreement => "key agreement"
  | .kdf => "key derivation"
  | .keyWrap => "key wrap"
  | .contentCipher => "content encryption"
  | .mgf => "mask generation function"
  | .curve => "named curve"

/-- `TransformAlg`. -/
inductive TransformAlg where
  | c14n (kind : WsSecCanonicalizationKind)
  | attachmentContent
  | envelopedSignature
deriving DecidableEq, Repr

/-- `KeyTransportAlg`, `AgreementAlg`, `KdfAlg` and `MgfAlg` have one member each. -/
inductive KeyTransportAlg where
  | rsaOaep
deriving DecidableEq, Repr

@[inherit_doc KeyTransportAlg]
inductive AgreementAlg where
  | ecdhEs
deriving DecidableEq, Repr

@[inherit_doc KeyTransportAlg]
inductive KdfAlg where
  | concatKdf
deriving DecidableEq, Repr

@[inherit_doc KeyTransportAlg]
inductive MgfAlg where
  | mgf1Sha256
deriving DecidableEq, Repr

/-- `KeyWrapAlg`. -/
inductive KeyWrapAlg where
  | aes128
  | aes192
  | aes256
deriving DecidableEq, Repr

/-- `NamedCurve`. -/
inductive NamedCurve where
  | p256
  | p384
  | p521
  | brainpoolP256r1
  | brainpoolP384r1
  | brainpoolP512r1
deriving DecidableEq, Repr

/-- `KeyFamily`. -/
inductive KeyFamily where
  | rsa
  | ec
deriving DecidableEq, Repr

/-- `Alg`: one algorithm of one role. -/
inductive Alg where
  | digest (m : WsSecDigestMethod)
  | signature (a : SignatureAlgorithm)
  | c14n (k : WsSecCanonicalizationKind)
  | transform (t : TransformAlg)
  | keyTransport (a : KeyTransportAlg)
  | keyAgreement (a : AgreementAlg)
  | kdf (a : KdfAlg)
  | keyWrap (a : KeyWrapAlg)
  | contentCipher (a : XmlEncPayloadAlgorithm)
  | mgf (a : MgfAlg)
  | curve (c : NamedCurve)
deriving DecidableEq, Repr

/-- `REGISTRY`. -/
def registry : List (Role × Str × Alg) := [
  (.digest, .lit "http://www.w3.org/2001/04/xmlenc#sha256", .digest .sha256),
  (.digest, .lit "http://www.w3.org/2001/04/xmldsig-more#sha384", .digest .sha384),
  (.digest, .lit "http://www.w3.org/2001/04/xmlenc#sha512", .digest .sha512),
  (.signature, .lit "http://www.w3.org/2001/04/xmldsig-more#rsa-sha256", .signature .rsaSha256),
  (.signature, .lit "http://www.w3.org/2001/04/xmldsig-more#rsa-sha384", .signature .rsaSha384),
  (.signature, .lit "http://www.w3.org/2001/04/xmldsig-more#rsa-sha512", .signature .rsaSha512),
  (.signature, .lit "http://www.w3.org/2001/04/xmldsig-more#ecdsa-sha256", .signature .ecdsaSha256),
  (.signature, .lit "http://www.w3.org/2001/04/xmldsig-more#ecdsa-sha384", .signature .ecdsaSha384),
  (.signature, .lit "http://www.w3.org/2001/04/xmldsig-more#ecdsa-sha512", .signature .ecdsaSha512),
  (.c14n, .lit "http://www.w3.org/2001/10/xml-exc-c14n#", .c14n .exclusive),
  (.c14n, .lit "http://www.w3.org/TR/2001/REC-xml-c14n-20010315", .c14n .inclusive),
  (.transform, .lit "http://www.w3.org/2001/10/xml-exc-c14n#", .transform (.c14n .exclusive)),
  (.transform, .lit "http://www.w3.org/TR/2001/REC-xml-c14n-20010315", .transform (.c14n .inclusive)),
  (.transform,
    .lit "http://docs.oasis-open.org/wss/oasis-wss-SwAProfile-1.1#Attachment-Content-Signature-Transform",
    .transform .attachmentContent),
  (.transform, .lit "http://www.w3.org/2000/09/xmldsig#enveloped-signature",
    .transform .envelopedSignature),
  (.keyTransport, .lit "http://www.w3.org/2009/xmlenc11#rsa-oaep", .keyTransport .rsaOaep),
  (.keyAgreement, .lit "http://www.w3.org/2009/xmlenc11#ECDH-ES", .keyAgreement .ecdhEs),
  (.kdf, .lit "http://www.w3.org/2009/xmlenc11#ConcatKDF", .kdf .concatKdf),
  (.keyWrap, .lit "http://www.w3.org/2001/04/xmlenc#kw-aes128", .keyWrap .aes128),
  (.keyWrap, .lit "http://www.w3.org/2001/04/xmlenc#kw-aes192", .keyWrap .aes192),
  (.keyWrap, .lit "http://www.w3.org/2001/04/xmlenc#kw-aes256", .keyWrap .aes256),
  (.contentCipher, .lit "http://www.w3.org/2009/xmlenc11#aes128-gcm", .contentCipher .aes128Gcm),
  (.contentCipher, .lit "http://www.w3.org/2009/xmlenc11#aes256-gcm", .contentCipher .aes256Gcm),
  (.mgf, .lit "http://www.w3.org/2009/xmlenc11#mgf1sha256", .mgf .mgf1Sha256),
  (.curve, .lit "urn:oid:1.2.840.10045.3.1.7", .curve .p256),
  (.curve, .lit "urn:oid:1.3.132.0.34", .curve .p384),
  (.curve, .lit "urn:oid:1.3.132.0.35", .curve .p521),
  (.curve, .lit "urn:oid:1.3.36.3.3.2.8.1.1.7", .curve .brainpoolP256r1),
  (.curve, .lit "urn:oid:1.3.36.3.3.2.8.1.1.11", .curve .brainpoolP384r1),
  (.curve, .lit "urn:oid:1.3.36.3.3.2.8.1.1.13", .curve .brainpoolP512r1)]

/-- `unsupported`. -/
def unsupported (role : Role) (uri : Str) : AsxError :=
  ⟨.interopViolation, "unsupported " ++ role.label ++ " algorithm: " ++ uri,
    (ErrorContext.new "xmlsec_algorithm_registry").withMessageId uri⟩

/-- `lookup`: the algorithm that `uri` names in `role`. -/
def lookup (role : Role) (uri : Str) : Result Alg :=
  Except.okOr ((registry.find? fun row => row.1 = role ∧ row.2.1 = uri).map fun row => row.2.2)
    (unsupported role uri)

/-- `Alg::uri`. -/
def Alg.uri (alg : Alg) : Str :=
  ((registry.find? fun row => row.2.2 = alg).map fun row => row.2.1).getD []

/-- `typed_lookup!`: `lookup` narrowed to one role's type. -/
def typedLookup {α : Type} (role : Role) (pick : Alg → Option α) (uri : Str) : Result α := do
  let alg ← lookup role uri
  Except.okOr (pick alg) (unsupported role uri)

/-- `SignatureAlgorithm::from_uri`. -/
def SignatureAlgorithm.fromUri : Str → Result SignatureAlgorithm :=
  typedLookup .signature fun
    | .signature a => some a
    | _ => none

/-- `SignatureAlgorithm::algorithm_uri`. -/
def SignatureAlgorithm.algorithmUri (a : SignatureAlgorithm) : Str := (Alg.signature a).uri

/-- `SignatureAlgorithm::key_family`. -/
def SignatureAlgorithm.keyFamily : SignatureAlgorithm → KeyFamily
  | .rsaSha256 | .rsaSha384 | .rsaSha512 => .rsa
  | .ecdsaSha256 | .ecdsaSha384 | .ecdsaSha512 => .ec

/-- `WsSecDigestMethod::from_algorithm_uri`. -/
def WsSecDigestMethod.fromAlgorithmUri : Str → Result WsSecDigestMethod :=
  typedLookup .digest fun
    | .digest m => some m
    | _ => none

/-- `WsSecDigestMethod::algorithm_uri`. -/
def WsSecDigestMethod.algorithmUri (m : WsSecDigestMethod) : Str := (Alg.digest m).uri

/-- `WsSecDigestMethod::output_len`. -/
def WsSecDigestMethod.outputLen : WsSecDigestMethod → Nat
  | .sha256 => 32
  | .sha384 => 48
  | .sha512 => 64

/-- The derived `Debug` of `WsSecDigestMethod`. -/
def WsSecDigestMethod.debug : WsSecDigestMethod → Str
  | .sha256 => "Sha256"
  | .sha384 => "Sha384"
  | .sha512 => "Sha512"

/-- `WsSecCanonicalizationKind::from_uri`. -/
def WsSecCanonicalizationKind.fromUri : Str → Result WsSecCanonicalizationKind :=
  typedLookup .c14n fun
    | .c14n k => some k
    | _ => none

/-- `WsSecCanonicalizationKind::uri`. -/
def WsSecCanonicalizationKind.uri (k : WsSecCanonicalizationKind) : Str := (Alg.c14n k).uri

/-- `TransformAlg::from_uri`. -/
def TransformAlg.fromUri : Str → Result TransformAlg :=
  typedLookup .transform fun
    | .transform t => some t
    | _ => none

/-- `TransformAlg::uri`. -/
def TransformAlg.uri (t : TransformAlg) : Str := (Alg.transform t).uri

end Asx
