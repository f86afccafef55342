import Mathlib.Data.List.Sort
import Asx.Native.Core

/-!
# Finding the SMP in DNS

`smp/bdxl.rs`: the DNS name of a participant, and the SMP base URL that its U-NAPTR records
name. The hash functions, the Unicode lower case and Rust's `Debug` form of a text are
parameters (`BdxlText`).
-/

namespace Asx

/-- What the construction takes from libraries. -/
structure BdxlText where
  sha256 : Bytes → Bytes
  md5 : Bytes → Bytes
  /-- `str::to_lowercase`. -/
  toLowercase : Str → Str
  /-- `str`'s `Debug` form. -/
  debug : Str → Str
  /-- `char`'s `Debug` form. -/
  debugChar : Char → Str
  /-- `char::is_alphanumeric`. -/
  isAlphanumeric : Char → Bool

/-- `SmlDiscovery`. -/
inductive SmlDiscovery where
  | naptr
  | legacyCname
  | static (smpBaseUrl : Str)
deriving DecidableEq, Repr

/-- `BASE32_ALPHABET`. -/
def base32Alphabet : Str := Str.lit "ABCDEFGHIJKLMNOPQRSTUVWXYZ234567"

/-- The 40-bit buffer of a chunk, left aligned; `i` is the position of its first byte. -/
def base32Buffer (i : Nat) : Bytes → Nat
  | [] => 0
  | b :: bs => (b.toNat <<< (32 - 8 * i)) ||| base32Buffer (i + 1) bs

/-- The characters of one chunk of `base32_nopad`. -/
def base32Chunk (chunk : Bytes) : Str :=
  (List.range ((chunk.length * 8 + 4) / 5)).map fun i =>
    base32Alphabet.getD ((base32Buffer 0 chunk >>> (35 - 5 * i)) &&& 0x1f) 'A'

/-- `base32_nopad`: the chunks of five bytes, the last one possibly shorter. -/
def base32Nopad : Bytes → Str
  | a :: b :: c :: d :: e :: rest => base32Chunk [a, b, c, d, e] ++ base32Nopad rest
  | [] => []
  | chunk => base32Chunk chunk

/-- `bdxl_dns_name`. -/
def bdxlDnsName (text : BdxlText) (scheme participantId smlZone : Str) : Str :=
  base32Nopad (text.sha256 (Str.utf8 (text.toLowercase participantId))) ++ "." ++ scheme ++ "." ++
    Str.trimEndChar '.' smlZone

/-- `legacy_cname_host`. -/
def legacyCnameHost (text : BdxlText) (scheme participantId smlZone : Str) : Str :=
  "B-" ++ hexLower (text.md5 (Str.utf8 (text.toLowercase participantId))) ++ "." ++ scheme ++ "." ++
    Str.trimEndChar '.' smlZone

/-- `NaptrRecord`. -/
structure NaptrRecord where
  order : Nat
  preference : Nat
  flags : Str
  service : Str
  regexp : Str
  replacement : Str
deriving DecidableEq, Repr

/-- The state of the loop of `unaptr_uri`: the fields before the current one, last first, the
    current field, whether a `\` was just read, and whether a backreference was seen. -/
structure UnaptrFields where
  done : List Str
  current : Str
  escaped : Bool
  sawBackreference : Bool
deriving DecidableEq, Repr

/-- One character of the loop of `unaptr_uri`. -/
def UnaptrFields.push (delimiter : Char) (s : UnaptrFields) (ch : Char) : UnaptrFields :=
  if s.escaped then
    { s with
      current := s.current ++ [ch]
      escaped := false
      sawBackreference := s.sawBackreference || Str.isAsciiDigit ch }
  else if ch = '\\' then { s with escaped := true }
  else if ch = delimiter then { s with done := s.current :: s.done, current := [] }
  else { s with current := s.current ++ [ch] }

/-- `unaptr_uri`. -/
def unaptrUri (text : BdxlText) (regexp : Str) : Except Str Str := do
  let (delimiter, chars) ← match regexp with
    | [] => .error ("empty regexp field" : Str)
    | delimiter :: chars => .ok (delimiter, chars)
  Except.rejectIf (text.isAlphanumeric delimiter ∨ delimiter = '\\')
    ("invalid delimiter " ++ text.debugChar delimiter)
  let s := chars.foldl (UnaptrFields.push delimiter) ⟨[], [], false, false⟩
  Except.rejectIf s.escaped ("regexp ends with a dangling escape" : Str)
  Except.rejectIf s.sawBackreference
    ("backreferences are not permitted in a U-NAPTR replacement" : Str)
  let fields := (s.current :: s.done).reverse
  match fields with
  | [_, uri, []] => do
    -- an SMP reachable over TLS is published as `https`
    Except.rejectIf (¬ ("https://" : Str).isPrefixOf uri) (text.debug uri ++ " is not an https URI")
    pure (Str.trimEndChar '/' uri)
  | _ => throw ("expected the U-NAPTR form !<ere>!<uri>!, got " ++ showNat fields.length ++
      " field(s)")

/-- Texts joined by a separator. -/
def joinWith (sep : Str) : List Str → Str
  | [] => []
  | [s] => s
  | s :: rest => s ++ sep ++ joinWith sep rest

/-- The loop of `select_smp_base_url` over the candidates: the first usable URI, or the
    reasons against all of them. -/
def firstUsableUri (text : BdxlText) : List NaptrRecord → Except (List Str) Str
  | [] => .error []
  | record :: rest =>
    match unaptrUri text record.regexp with
    | .ok uri => .ok uri
    | .error reason => (firstUsableUri text rest).mapError
        ((text.debug record.regexp ++ ": " ++ reason) :: ·)

/-- The order of candidates: `order`, then `preference`. The sort is stable. -/
def NaptrRecord.le (a b : NaptrRecord) : Prop :=
  a.order < b.order ∨ (a.order = b.order ∧ a.preference ≤ b.preference)

instance : DecidableRel NaptrRecord.le := fun _ _ => inferInstanceAs (Decidable (_ ∨ (_ ∧ _)))

/-- `select_smp_base_url`. -/
def selectSmpBaseUrl (text : BdxlText) (records : List NaptrRecord) : Result Str :=
  let candidates := (records.filter fun r =>
    Str.eqIgnoreAsciiCase r.flags "U" && Str.eqIgnoreAsciiCase r.service "meta:smp").insertionSort
      NaptrRecord.le
  (firstUsableUri text candidates).mapError fun rejections =>
    let detail : Str :=
      if rejections = [] then
        "no NAPTR record with flags=\"U\" and service=\"Meta:SMP\" among " ++
          showNat records.length ++ " record(s)"
      else "every Meta:SMP record was unusable — " ++ joinWith "; " rejections
    ⟨.notFound, "BDXL discovery found no SMP for this participant: " ++ detail,
      .new "bdxl_select_smp"⟩

end Asx
