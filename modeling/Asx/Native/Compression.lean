import Asx.Native.Cms
import Asx.Native.PkiPath
import Asx.Native.Revocation

/-!
# Compressed payloads

The writing half of `crypto/compression.rs` for AS2, and its readers once more with their ranges:
as in `PkiPath.lean`, `none` stands for the panic of a range that is out of bounds.
-/

namespace Asx

/-! ## Writing -/

/-- `der_tlv`; a `usize` has 64 bits. -/
def Compression.derTlv (tag : UInt8) (contents : Bytes) : Bytes :=
  let len := contents.length
  tag ::
    (if len < 0x80 then [.ofNat len]
    else
      let bytes := beBytes64 len
      let first := (bytes.findIdx? (· ≠ 0)).getD (bytes.length - 1)
      let significant := bytes.drop first
      (0x80 ||| .ofNat significant.length) :: significant) ++ contents

/-- `OID_DATA`. -/
def oidData : Bytes := [0x2a, 0x86, 0x48, 0x86, 0xf7, 0x0d, 0x01, 0x07, 0x01]

/-- `flate2::Compression`. -/
inductive CompressionLevel where
  | new (level : Nat)
  | default
deriving DecidableEq, Repr

/-- The calls of a `ZlibEncoder` that can fail. -/
inductive ZlibStep where
  | writeAll
  | finish
deriving DecidableEq, Repr

/-- A `ZlibEncoder` over a vector that is given all of a payload. -/
structure ZlibWriter where
  deflate : CompressionLevel → Bytes → Except ZlibStep Bytes

/-- The level of `compress_cms_zlib`. -/
def compressionLevel (level : Nat) : CompressionLevel :=
  if 1 ≤ level ∧ level ≤ 9 then .new level else .default

/-- The errors of `compress_cms_zlib`; the text of the library's error is cut. -/
def compressError : ZlibStep → AsxError
  | .writeAll =>
    ⟨.invalidInput, "failed to compress AS2 payload: ", .new "compression_cms_zlib"⟩
  | .finish => ⟨.invalidInput, "failed to finalize AS2 compression: ",
      .new "compression_cms_zlib_finalize"⟩

/-- The `ContentInfo` of `compress_cms_zlib` around a deflated payload. -/
def compressedContentInfo (deflated : Bytes) : Bytes :=
  let encap := Compression.derTlv 0x30 (Compression.derTlv 0x06 oidData ++
    Compression.derTlv 0xa0 (Compression.derTlv 0x04 deflated))
  let compressedData := Compression.derTlv 0x30 ([0x02, 0x01, 0x00] ++
    Compression.derTlv 0x30 (Compression.derTlv 0x06 oidAlgZlibCompress) ++ encap)
  Compression.derTlv 0x30 (Compression.derTlv 0x06 oidCtCompressedData ++
    Compression.derTlv 0xa0 compressedData)

/-- `compress_cms_zlib`. -/
def compressCmsZlib (zlib : ZlibWriter) (payload : Bytes) (level : Nat) : Result Bytes := do
  let deflated ← (zlib.deflate (compressionLevel level) payload).mapError compressError
  pure (compressedContentInfo deflated)

/-! ## Reading -/

/-- `der_take`, with its ranges. The length is a `usize`, which loses what is shifted out. -/
def derTakeAt (input : Bytes) (tag : UInt8) : Guarded (Bytes × Bytes) :=
  match input with
  | [] => throw (compressedDataError "truncated DER: missing tag")
  | actualTag :: rest => do
    Guarded.rejectIf (actualTag ≠ tag) (compressedDataError ("unexpected DER tag 0x" ++
      hexLower [actualTag] ++ " (expected 0x" ++ hexLower [tag] ++ ")"))
    match rest with
    | [] => throw (compressedDataError "truncated DER: missing length")
    | firstLen :: rest => do
      let (len, rest) ←
        if firstLen < 0x80 then pure (firstLen.toNat, rest)
        else do
          let count := (firstLen &&& 0x7f).toNat
          Guarded.rejectIf (count = 0) (compressedDataError
            "indefinite-length DER is not accepted in strict CMS parsing")
          Guarded.rejectIf (count > 8 ∨ rest.length < count)
            (compressedDataError "DER length field is out of range")
          let octets ← Guarded.get (slice? rest 0 count)
          let after ← Guarded.get (slice? rest count rest.length)
          pure (octets.foldl (fun len b => (len <<< 8) % 2 ^ 64 ||| b.toNat) 0, after)
      Guarded.rejectIf (rest.length < len) (compressedDataError ("truncated DER: declared length " ++
        showNat len ++ " exceeds " ++ showNat rest.length ++ " remaining bytes"))
      let value ← Guarded.get (slice? rest 0 len)
      let after ← Guarded.get (slice? rest len rest.length)
      pure (value, after)

/-- `der_expect`, with its ranges. -/
def derExpectAt (input : Bytes) (tag : UInt8) : Guarded Bytes := do
  let (value, rest) ← derTakeAt input tag
  Guarded.rejectIf (rest ≠ []) (compressedDataError
    ("trailing bytes after DER element (" ++ showNat rest.length ++ " bytes)"))
  pure value

/-- `decompress_cms_zlib`, with its ranges. -/
def decompressCmsZlibAt (lib : CmsLibrary) (der : Bytes) : Guarded Bytes := do
  let contentInfo ← derExpectAt der 0x30
  let (contentType, rest) ← derTakeAt contentInfo 0x06
  Guarded.rejectIf (contentType ≠ oidCtCompressedData) (compressedDataError
    "AS2 compressed entity is not a CMS CompressedData structure (RFC 3274)")
  let (compressedData, _) ← derTakeAt rest 0xa0
  let compressedData ← derExpectAt compressedData 0x30
  let (_, rest) ← derTakeAt compressedData 0x02
  let (algorithm, rest) ← derTakeAt rest 0x30
  let (algorithmOid, _) ← derTakeAt algorithm 0x06
  Guarded.rejectIf (algorithmOid ≠ oidAlgZlibCompress) (compressedDataError
    "unsupported CMS compression algorithm; RFC 5402 requires id-alg-zlibCompress")
  let (encap, _) ← derTakeAt rest 0x30
  let (_, rest) ← derTakeAt encap 0x06
  let (econtent, _) ← derTakeAt rest 0xa0
  let (deflated, _) ← derTakeAt econtent 0x04
  let output ← MonadExcept.ofExcept (Except.okOr (lib.inflate (maxDecompressedBytes + 1) deflated)
    (compressedDataError "failed to decompress AS2 CMS CompressedData payload: "))
  Guarded.rejectIf (output.length > maxDecompressedBytes) ⟨.policyViolation,
    "failed to decompress AS2 CMS CompressedData payload: decompressed output exceeds " ++
      showNat maxDecompressedBytes ++ " byte limit (possible decompression bomb)",
    .new "decompression_cms_zlib"⟩
  pure output

end Asx
