import Asx.ForStd.Slice
import Asx.Native.SignatureMaterial

/-!
# Certificate paths in DER

`build_pkipath_der` and `build_pkipath_chain_der` of `crypto/soap_builder.rs`, and the splitter of
`crypto/wssec/verify.rs` once more with its cursor: there every index, range and sum is checked,
and `none` stands for the panic of one that is out of bounds.
-/

namespace Asx

/-! ## Building -/

/-- `build_pkipath_der`. The last form holds a length below 2^24. -/
def buildPkipathDer (certDer : Bytes) : Bytes :=
  let len := certDer.length
  let octet (shift : Nat) : UInt8 := .ofNat (len / 2 ^ shift)
  [0x30] ++
    (if len < 128 then [octet 0]
    else if len < 0x100 then [0x81, octet 0]
    else if len < 0x10000 then [0x82, octet 8, octet 0]
    else [0x83, octet 16, octet 8, octet 0]) ++ certDer

/-- `build_pkipath_chain_der`. -/
def buildPkipathChainDer (rootFirst : List Bytes) : Bytes := buildPkipathDer rootFirst.flatten

/-- The token of `security_header` for a chain that starts with the signer's certificate. -/
def pkipathToken (chainDer : List Bytes) : Bytes := buildPkipathChainDer chainDer.reverse

/-! ## Splitting -/

/-- A computation that fails or panics. -/
abbrev Guarded := ExceptT AsxError Option

/-- The value of an index, a range or a sum; one that is out of bounds panics. -/
def Guarded.get {α : Type} (x : Option α) : Guarded α := ExceptT.lift x

/-- A check of a guarded computation. -/
def Guarded.rejectIf (p : Prop) [Decidable p] (e : AsxError) : Guarded Unit :=
  MonadExcept.ofExcept (Except.rejectIf p e)

/-- `parse_der_header`, with its indices and ranges. -/
def parseDerHeaderAt (input : Bytes) (stage : Str) : Guarded (Nat × Nat) := do
  Guarded.rejectIf (input.length < 2)
    ⟨.parseFailed, "invalid DER: missing tag/length", .new stage⟩
  let firstLen ← Guarded.get input[1]?
  if firstLen &&& 0x80 = 0 then pure (2, firstLen.toNat)
  else
    let lenOctets := (firstLen &&& 0x7F).toNat
    Guarded.rejectIf (lenOctets = 0)
      ⟨.parseFailed, "invalid DER: indefinite length is not supported", .new stage⟩
    Guarded.rejectIf (lenOctets > 8)
      ⟨.parseFailed, "invalid DER: length field is too large", .new stage⟩
    Guarded.rejectIf (input.length < 2 + lenOctets)
      ⟨.parseFailed, "invalid DER: truncated length field", .new stage⟩
    let octets ← Guarded.get (slice? input 2 (2 + lenOctets))
    let valueLen ← MonadExcept.ofExcept (octets.foldlM (fun acc byte =>
      Except.okOr (if acc * 256 + byte.toNat < 2 ^ 64 then some (acc * 256 + byte.toNat) else none)
        ⟨.parseFailed, "invalid DER: overflow while reading length", .new stage⟩) 0)
    let headerLen := 2 + lenOctets
    let available ← Guarded.get (usizeSub? input.length headerLen)
    Guarded.rejectIf (valueLen > available)
      ⟨.parseFailed, "invalid DER: declared length exceeds available bytes", .new stage⟩
    pure (headerLen, valueLen)

/-- The loop of `split_x509_pkipath_der_certificates`. Every round moves the cursor, so the
    length of the content bounds their number. -/
def splitCertificatesAt : Nat → Bytes → Nat → List Bytes → Guarded (List Bytes)
  | 0, _, _, certs => pure certs
  | rounds + 1, content, cursor, certs =>
    if cursor < content.length then do
      let tag ← Guarded.get content[cursor]?
      Guarded.rejectIf (tag ≠ 0x30)
        (materialError .parseFailed "X509PKIPathv1 contains a non-certificate DER element")
      let element ← Guarded.get (slice? content cursor content.length)
      let header ← parseDerHeaderAt element "wssec_signature_material"
      let totalLen ← Guarded.get (usizeAdd? header.1 header.2)
      let next ← Guarded.get (usizeAdd? cursor totalLen)
      let cert ← Guarded.get (slice? content cursor next)
      splitCertificatesAt rounds content next (certs ++ [cert])
    else pure certs

/-- `split_x509_pkipath_der_certificates`. -/
def splitX509PkipathDerCertificatesAt (pkipathDer : Bytes) : Guarded (List Bytes) := do
  let header ← parseDerHeaderAt pkipathDer "wssec_signature_material"
  let tag ← Guarded.get pkipathDer[0]?
  Guarded.rejectIf (tag ≠ 0x30)
    (materialError .parseFailed "X509PKIPathv1 token is not a DER SEQUENCE")
  let totalLen ← Guarded.get (usizeAdd? header.1 header.2)
  Guarded.rejectIf (totalLen ≠ pkipathDer.length)
    (materialError .parseFailed "X509PKIPathv1 token has trailing bytes after DER SEQUENCE")
  let content ← Guarded.get (slice? pkipathDer header.1 pkipathDer.length)
  let certs ← splitCertificatesAt content.length content 0 []
  Guarded.rejectIf (certs = [])
    (materialError .parseFailed "X509PKIPathv1 token does not contain any certificates")
  pure certs

end Asx
