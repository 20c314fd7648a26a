import BeepMusic.Lib.File

/-!
`verify.c` of the updater: a file begins with a header that gives the size of the
digest data behind it, the digest data is a list of hashes and signatures, and
these are for everything that follows. What OpenSSL and the allocator answer is
left open.
-/

namespace BeepMusic.Update

open Lib

inductive UpdateCode
  | ok
  | err
  | badArg
  | configIncomplete
  | curlErr
  | digFail
  | fileErr
  | http204
  | httpErr
  | invalidState
  | notFound
  | oom
  | oor
  | packageDigFail
  | scriptNonzero
  | scriptTerm
  | sslErr
  | tarErr
  | uciErr
  | upToDate
  | yamlErr
  | zlibErr
  deriving DecidableEq

inductive DigestMethod
  | md5
  | sha1
  | sha256
  | sha512
  | signedSha256
  | signedSha512
  deriving DecidableEq

inductive FileType
  | unknown
  | binary
  | lua
  | manifest
  | sh
  | yml
  deriving DecidableEq

structure DigestEntry where
  digMethod : DigestMethod
  digSize : ℕ
  data : Bytes
  deriving DecidableEq

structure PublicKey where
  key : Bytes
  id : ℕ
  deriving DecidableEq

/-- The key database, and the answers of the libraries. A digest context is known
by the chunks it has been fed. -/
structure Environment where
  publicKeys : List PublicKey
  /-- Whether an allocation of a size succeeds. -/
  malloc : ℕ → Bool
  /-- `d2i_RSA_PUBKEY` and what makes an `EVP_PKEY` of it. -/
  loadKey : Bytes → Bool
  verifyInit : DigestMethod → Bool
  verifyUpdate : List Bytes → Bytes → Bool
  verifyFinal : DigestMethod → List Bytes → Bytes → PublicKey → Bool
  digestUpdate : List Bytes → Bytes → Bool
  digestFinal : DigestMethod → List Bytes → Option Bytes

def fileChunkSize : ℕ := 16 * 1024

def signedMagic : ℕ := 0xb5b9debc

/-- The bytes of a text. -/
def ascii (text : String) : Bytes := text.toList.map fun c => UInt8.ofNat c.toNat

def luaScriptPrefix : Bytes := ascii "-- "

def shYmlScriptPrefix : Bytes := ascii "# "

def colon : UInt8 := 0x3a

def newline : UInt8 := 0x0a

def isHash : DigestMethod → Bool
  | .md5 | .sha1 | .sha256 | .sha512 => true
  | .signedSha256 | .signedSha512 => false

def isSignature : DigestMethod → Bool
  | .signedSha256 | .signedSha512 => true
  | .md5 | .sha1 | .sha256 | .sha512 => false

def isFtype : FileType → Bool
  | .binary | .lua | .sh | .yml => true
  | .unknown | .manifest => false

/-- `none` is `DIGEST_INVALID`. -/
def codeToMethod (code : UInt8) : Option DigestMethod :=
  if code = 0x30 then some .md5
  else if code = 0x31 then some .sha1
  else if code = 0x32 then some .sha256
  else if code = 0x33 then some .sha512
  else if code = 0x34 then some .signedSha256
  else if code = 0x35 then some .signedSha512
  else none

def hashToHexSize : DigestMethod → ℕ
  | .md5 => 32
  | .sha1 => 40
  | .sha256 => 64
  | .sha512 => 128
  | .signedSha256 | .signedSha512 => 0

def ftypeHdrSize : FileType → ℕ
  | .binary => 9
  | .lua => 21
  | .sh | .yml => 20
  | .manifest | .unknown => 0

/-- `CHAR_TO_VAL`. -/
def charToVal (c : UInt8) : UInt8 :=
  if 0x30 ≤ c ∧ c ≤ 0x39 then c - 0x30
  else if 0x61 ≤ c ∧ c ≤ 0x66 then c - 0x61 + 10
  else if 0x41 ≤ c ∧ c ≤ 0x46 then c - 0x41 + 10
  else 0

/-- The digits of `hex_to_buf` from the end: each byte has the low digit first. -/
def hexPairs : Bytes → Bytes
  | [] => []
  | [low] => [charToVal low]
  | low :: high :: rest => (charToVal low ||| charToVal high <<< 4) :: hexPairs rest

def hexToBuf (src : Bytes) : Bytes := (hexPairs src.reverse).reverse

/-- The bytes from `start` on, `n` of them. -/
def slice (buf : Bytes) (start n : ℕ) : Bytes := (buf.drop start).take n

def scriptPrefix : FileType → Bytes
  | .lua => luaScriptPrefix
  | .sh | .yml => shYmlScriptPrefix
  | .unknown | .binary | .manifest => []

/-- `read_dig_size_mem`, for a buffer that has the whole header. -/
def readDigSizeMem (buf : Bytes) (ftype : FileType) : Except UpdateCode ℕ :=
  let hdrSize := ftypeHdrSize ftype
  if hdrSize = 0 then .error .badArg
  else if ftype = .binary then
    if buf.getD 4 0 ≠ colon then .error .digFail
    else if bigEndian (slice buf 0 4) ≠ signedMagic then .error .digFail
    else .ok (bigEndian (slice buf 5 4))
  else
    let start := scriptPrefix ftype
    if buf.take start.length ≠ start then .error .digFail
    else if buf.getD (hdrSize - 1) 0 ≠ newline ∨ buf.getD (hdrSize - 10) 0 ≠ colon then
      .error .digFail
    else if bigEndian (hexToBuf (slice buf (hdrSize - 18) 8)) ≠ signedMagic then .error .digFail
    else .ok (bigEndian (hexToBuf (slice buf (hdrSize - 9) 8)))

def readDigSizeFile (stream : File) (ftype : FileType) : Except UpdateCode ℕ × File :=
  let hdrSize := ftypeHdrSize ftype
  if hdrSize = 0 then (.error .badArg, stream)
  else
    let (buf, stream) := (stream.seek 0).read hdrSize
    if buf.length ≠ hdrSize then (.error .digFail, stream)
    else (readDigSizeMem buf ftype, stream)

/-- What differs between the file types in an entry: prefix, digits in the size, a
newline at the end, and whether the digest is in hex. -/
structure EntryFormat where
  start : Bytes
  digSizeBytes : ℕ
  trailingNewline : Bool
  digInHex : Bool

def entryFormat : FileType → Option EntryFormat
  | .binary => some ⟨[], 2, false, false⟩
  | .lua => some ⟨luaScriptPrefix, 4, true, true⟩
  | .sh | .yml => some ⟨shYmlScriptPrefix, 4, true, true⟩
  | .manifest => some ⟨[], 4, false, true⟩
  | .unknown => none

/-- The code, two colons, the prefix, the newline and the size. -/
def EntryFormat.minSize (fmt : EntryFormat) : ℕ :=
  3 + fmt.start.length + (if fmt.trailingNewline then 1 else 0) + fmt.digSizeBytes

/-- What `create_dig_entry` makes of the beginning of the data. -/
inductive EntryResult
  | entry (e : DigestEntry) (entrySize : ℕ)
  /-- A method that is not known: `UPDATE_NOT_FOUND`. -/
  | unknown (entrySize : ℕ)
  | fail (code : UpdateCode)

/-- `sizeof(DigestEntry)`. -/
def sizeofDigestEntry : ℕ := 16

variable (env : Environment)

/-- The entry, once its size and method are known. -/
def createEntry (fmt : EntryFormat) (buf : Bytes) (digMethod : DigestMethod)
    (digSize : ℕ) : EntryResult :=
  let prefixSize := fmt.start.length
  let minSize := fmt.minSize
  if buf.take prefixSize ≠ fmt.start ∨ buf.getD (prefixSize + 1) 0 ≠ colon ∨
      buf.getD (prefixSize + fmt.digSizeBytes + 2) 0 ≠ colon then .fail .digFail
  else if fmt.trailingNewline ∧ buf.getD (minSize + digSize - 1) 0 ≠ newline then .fail .digFail
  else if env.malloc sizeofDigestEntry = false then .fail .oom
  else
    let binDigSize := if fmt.digInHex then digSize / 2 else digSize
    if isHash digMethod ∧ hashToHexSize digMethod / 2 ≠ binDigSize then .fail .digFail
    else if env.malloc binDigSize = false then .fail .oom
    else
      let text := slice buf (prefixSize + fmt.digSizeBytes + 3) digSize
      let data := if fmt.digInHex then hexToBuf text else text
      .entry ⟨digMethod, binDigSize, data⟩ (minSize + digSize)

def createDigEntry (buf : Bytes) (ftype : FileType) : EntryResult :=
  if buf = [] then .fail .badArg
  else
    match entryFormat ftype with
    | none => .fail .badArg
    | some fmt =>
      let prefixSize := fmt.start.length
      let minSize := fmt.minSize
      if buf.length < minSize then .fail .digFail
      else
        let sizeText := slice buf (prefixSize + 2) fmt.digSizeBytes
        let digSize := bigEndian (if fmt.digInHex then hexToBuf sizeText else sizeText)
        if buf.length < minSize + digSize then .fail .digFail
        else
          match codeToMethod (buf.getD prefixSize 0) with
          | none => .unknown (minSize + digSize)
          | some digMethod => createEntry env fmt buf digMethod digSize

/-- The loop of `create_dig_list`, for at most `fuel` entries, after `count` of them.
When the first one fails, the code is `UPDATE_DIG_FAIL` whatever failed. -/
def digEntries (env : Environment) (ftype : FileType) :
    (fuel count : ℕ) → Bytes → Except UpdateCode (List DigestEntry)
  | _, _, [] => .ok []
  | 0, _, _ :: _ => .ok []
  | fuel + 1, count, b :: buf =>
    match createDigEntry env (b :: buf) ftype with
    | .fail code => .error (if count = 0 then .digFail else code)
    | .unknown entrySize => digEntries env ftype fuel (count + 1) ((b :: buf).drop entrySize)
    | .entry e entrySize =>
      (digEntries env ftype fuel (count + 1) ((b :: buf).drop entrySize)).map (e :: ·)

/-- An entry takes at least a byte, so there are no more entries than bytes. -/
def createDigList (data : Bytes) (ftype : FileType) : Except UpdateCode (List DigestEntry) :=
  if data = [] then .error .badArg else digEntries env ftype data.length 0 data

/-- The offset behind the digest data, and the list. -/
def readDigListMem (buf : Bytes) (ftype : FileType) : Except UpdateCode (ℕ × List DigestEntry) :=
  let hdrSize := ftypeHdrSize ftype
  if hdrSize = 0 then .error .badArg
  else
    match readDigSizeMem buf ftype with
    | .error code => .error code
    | .ok digSize =>
      if buf.length < hdrSize + digSize then .error .digFail
      else
        match createDigList env (slice buf hdrSize digSize) ftype with
        | .error code => .error code
        | .ok digList => .ok (hdrSize + digSize, digList)

def readDigListFile (stream : File) (ftype : FileType) :
    Except UpdateCode (List DigestEntry) × File :=
  if isFtype ftype = false then (.error .badArg, stream)
  else
    match readDigSizeFile stream ftype with
    | (.error code, stream) => (.error code, stream)
    | (.ok digSize, stream) =>
      if env.malloc digSize = false then (.error .oom, stream)
      else
        let (digBuf, stream) := stream.read digSize
        if digBuf.length ≠ digSize then (.error .digFail, stream)
        else (createDigList env digBuf ftype, stream)

/-- `EVP_MAX_MD_SIZE`. -/
def evpMaxMdSize : ℕ := 64

/-- `evp_md_file_md_value`, for the rest of the file. -/
def hashFile (stream : File) (digMethod : DigestMethod) : Except UpdateCode Bytes :=
  if env.malloc fileChunkSize = false then .error .err
  else
    let remaining := stream.bytes.length - stream.pos
    match File.feed env.digestUpdate fileChunkSize remaining remaining stream [] with
    | (.done, fed, _) =>
      match env.digestFinal digMethod fed with
      | some md => .ok md
      | none => .error .err
    | (.readError, _, _) | (.updateError, _, _) => .error .err

def verifyHashFile (stream : File) (e : DigestEntry) : UpdateCode × File :=
  if isHash e.digMethod = false ∨ e.digSize = 0 then (.badArg, stream)
  else if env.malloc evpMaxMdSize = false then (.oom, stream)
  else
    match hashFile env stream e.digMethod with
    | .error code => (code, stream)
    | .ok md => (if md = e.data.take e.digSize then .ok else .digFail, stream)

def getPublicKey (keyId : ℕ) : Option PublicKey :=
  env.publicKeys.find? fun k => k.id = keyId

def getSslKeyData (keyId : ℕ) : Except UpdateCode PublicKey :=
  match getPublicKey env keyId with
  | none => .error .notFound
  | some publicKey => if env.loadKey publicKey.key then .ok publicKey else .error .sslErr

/-- The first four bytes of a signature. -/
def DigestEntry.keyId (e : DigestEntry) : ℕ := bigEndian (e.data.take 4)

/-- The signature proper. -/
def DigestEntry.signature (e : DigestEntry) : Bytes := slice e.data 4 (e.digSize - 4)

/-- The loop of `verify_signature_file` and the check, from the position on. -/
def checkSignature (stream : File) (e : DigestEntry) (key : PublicKey) : UpdateCode :=
  let remaining := stream.bytes.length - stream.pos
  match File.feed env.verifyUpdate fileChunkSize remaining remaining stream [] with
  | (.readError, _, _) => .fileErr
  | (.updateError, _, _) => .sslErr
  | (.done, fed, _) =>
    if env.verifyFinal e.digMethod fed e.signature key then .ok else .digFail

def verifySignatureFile (stream : File) (e : DigestEntry) : UpdateCode × File :=
  if isSignature e.digMethod = false ∨ e.digSize ≤ 4 then (.badArg, stream)
  else
    match getSslKeyData env e.keyId with
    | .error code => (code, stream)
    | .ok key =>
      if env.malloc fileChunkSize = false then (.oom, stream)
      else if env.verifyInit e.digMethod = false then (.sslErr, stream)
      -- the stream is put back to where it was
      else (checkSignature env stream e key, stream)

/-- The loop of `verify_embedded_file`: the code and the entry it comes from. -/
def checkEntries (env : Environment) (requireSecure : Bool) (startPos : ℕ) :
    List DigestEntry → File → UpdateCode × Option DigestEntry × File
  | [], stream => (.digFail, none, stream)
  | e :: rest, stream =>
    if requireSecure && isHash e.digMethod then
      checkEntries env requireSecure startPos rest stream
    else
      let stream := stream.seek startPos
      if isHash e.digMethod then
        let (code, stream) := verifyHashFile env stream e
        (code, some e, stream)
      else if isSignature e.digMethod then
        let (code, stream) := verifySignatureFile env stream e
        if code = .notFound then checkEntries env requireSecure startPos rest stream
        else (code, some e, stream)
      else checkEntries env requireSecure startPos rest stream

/-- The code, the method by which the file was verified, and the stream. -/
structure Verification where
  code : UpdateCode
  digMethod : Option DigestMethod
  stream : File
  deriving DecidableEq

def verifyEmbeddedFile (stream : File) (ftype : FileType) (requireSecure : Bool) : Verification :=
  if isFtype ftype = false then ⟨.badArg, none, stream⟩
  else
    match readDigListFile env stream ftype with
    | (.error code, stream) => ⟨code, none, stream⟩
    | (.ok digList, stream) =>
      match checkEntries env requireSecure stream.pos digList stream with
      | (code, e, stream) =>
        ⟨code, if code = .ok then e.map DigestEntry.digMethod else none, stream⟩

end BeepMusic.Update
