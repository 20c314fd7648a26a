import BeepMusic.Lib.Hex
import BeepMusic.Update.Digest

/-!
`Digest` of `verify.py`, which writes what `verify.c` reads: a header and a list of digests
are put before a file. Text is the bytes of a `str`. What raises an exception is `none`.
-/

namespace BeepMusic.Update

open Lib

/-- `DIG_STYLE`. -/
inductive DigStyle
  | bin
  | lua
  | manifest
  | sh
  | yml
  deriving DecidableEq

/-- What stands before and behind each line, and whether the digests are text. -/
structure StyleInfo where
  start : Bytes
  stop : Bytes
  isStr : Bool
  deriving DecidableEq

/-- `STYLE_INFO`, which has no manifests. -/
def styleInfo : DigStyle → Option StyleInfo
  | .bin => some ⟨[], [], false⟩
  | .lua => some ⟨ascii "-- ", ascii "\n", true⟩
  | .sh => some ⟨ascii "# ", ascii "\n", true⟩
  | .yml => some ⟨ascii "# ", ascii "\n", true⟩
  | .manifest => none

/-- `SIGNED_MAGIC` of `constants.py`. -/
def signedMagicBytes : Bytes := [0xb5, 0xb9, 0xde, 0xbc]

def digMethods : DigestMethod → UInt8
  | .md5 => 0x30
  | .sha1 => 0x31
  | .sha256 => 0x32
  | .sha512 => 0x33
  | .signedSha256 => 0x34
  | .signedSha512 => 0x35

/-- `DIG_SIZE`: the size of a digest as text, unless it varies. -/
def digSize : DigestMethod → Option ℕ
  | .md5 => some 32
  | .sha1 => some 40
  | .sha256 => some 64
  | .sha512 => some 128
  | .signedSha256 => none
  | .signedSha512 => none

/-- An entry of `dig_list`: the digest is text, and begins with the key id if it is a
signature. -/
structure DigEntry where
  method : DigestMethod
  digest : Bytes
  deriving DecidableEq

def hexStrToBin : Bytes → Option Bytes
  | [] => some []
  | [low] => (hexVal low).map fun v => [UInt8.ofNat v]
  | high :: low :: rest =>
    match hexVal high, hexVal low, hexStrToBin rest with
    | some v, some w, some bs => some (UInt8.ofNat (16 * v + w) :: bs)
    | _, _, _ => none

def binToHexStr (b : Bytes) : Bytes := hexEncode b

/-- `struct.pack`, big endian. -/
def structPack (width n : ℕ) : Option Bytes :=
  if n < 256 ^ width then some (toBytes width n) else none

def digEntryToStr (e : DigEntry) : Bytes :=
  digMethods e.method :: colon :: (formatHex 4 e.digest.length ++ colon :: e.digest)

def digEntryToBin (e : DigEntry) : Option Bytes :=
  match hexStrToBin e.digest with
  | none => none
  | some digest =>
    (structPack 2 digest.length).map fun size =>
      digMethods e.method :: colon :: (size ++ colon :: digest)

/-- The line of an entry. -/
def digLine (info : StyleInfo) (e : DigEntry) : Option Bytes :=
  (if info.isStr then some (digEntryToStr e) else digEntryToBin e).map fun data =>
    info.start ++ (data ++ info.stop)

def digestData (info : StyleInfo) (digList : List DigEntry) : Option Bytes :=
  (digList.mapM (digLine info)).map List.flatten

def digestHdr (info : StyleInfo) (size : ℕ) : Option Bytes :=
  if info.isStr then
    some (info.start ++ (binToHexStr signedMagicBytes ++ colon :: (formatHex 8 size ++ info.stop)))
  else
    (structPack 4 size).map fun size =>
      info.start ++ (signedMagicBytes ++ colon :: (size ++ info.stop))

/-- `__str__`. -/
def digestStr (style : DigStyle) (digList : List DigEntry) : Option Bytes :=
  match styleInfo style with
  | none => none
  | some info =>
    match digestData info digList with
    | none => none
    | some data => (digestHdr info data.length).map fun hdr => hdr ++ data

/-- What `embed` writes to `outpath`, for the data that it has read from `inpath`. -/
def embed (style : DigStyle) (digList : List DigEntry) (data : Bytes) : Option Bytes :=
  (digestStr style digList).map fun header => header ++ data

/-- An entry as OpenSSL makes it: two digits for each byte. A hash has the size that `add`
checks; the bound for signatures is far above what any key gives. -/
structure OpensslEntry extends DigEntry where
  digits : ∀ c ∈ digest, (hexVal c).isSome
  even : digest.length % 2 = 0
  size : ∀ n ∈ digSize method, digest.length = n
  short : digest.length < 65536

/-- The bytes of the digest. -/
def OpensslEntry.bytes (e : OpensslEntry) : Bytes := (hexStrToBin e.digest).getD []

/-- What is to be read for an entry. -/
def OpensslEntry.entry (e : OpensslEntry) : DigestEntry := ⟨e.method, e.bytes.length, e.bytes⟩

/-- The type that the C reader has to be given for a style. -/
def DigStyle.ftype : DigStyle → FileType
  | .bin => .binary
  | .lua => .lua
  | .manifest => .manifest
  | .sh => .sh
  | .yml => .yml

end BeepMusic.Update
