import BeepMusic.Lib.File
import BeepMusic.Lib.Loop

/-!
Blobs and their attributes, as `libubox` reads them. A pointer is the memory from there on, so
what lies behind the bytes that were received is read too, as the code does. Lengths are unsigned
words until they are taken for an `int`.
-/

namespace BeepMusic.Urelay

open Lib

/-- The memory from a pointer on. -/
abbrev View := ℕ → UInt8

variable (v : View) (attr : View)

namespace View

def shift (n : ℕ) : View := fun k => v (k + n)

def bytes (n : ℕ) : Bytes := (List.range n).map v

def be16 : ℕ := (v 0).toNat * 256 + (v 1).toNat

def be32 : ℕ := v.be16 * 65536 + (v.shift 2).be16

/-! ### Attributes -/

def blobId : ℕ := v.be32 / 16777216

/-- The field for the length counts the header. -/
def blobLen : ℕ := (v.be32 % 16777216 + 4294967292) % 4294967296

def blobRawLen : ℕ := (v.blobLen + 4) % 4294967296

def blobPadLen : ℕ := (v.blobRawLen + 3) / 4 * 4

def blobData : View := v.shift 4

/-- A length that is passed as an `int`. -/
def toInt (n : ℕ) : Int := ((n : Int) + 2147483648) % 4294967296 - 2147483648

/-- One turn of `__blob_for_each_attr`. -/
def nextAttr : View × Int → Option (View × View × Int)
  | (pos, rem) =>
    if 0 < rem ∧ (pos.blobPadLen : Int) ≤ rem ∧ 4 ≤ pos.blobPadLen then
      some (pos, pos.shift pos.blobPadLen, rem - pos.blobPadLen)
    else none

/-- The attributes that `__blob_for_each_attr` passes. -/
def attrs (data : View) (len : Int) : List View := collect nextAttr len.toNat (data, len)

/-! ### Messages -/

def blobmsgNamelen : ℕ := attr.blobData.be16

def blobmsgHdrlen (namelen : ℕ) : ℕ := (2 + namelen + 1 + 3) / 4 * 4

def blobmsgData : View := attr.blobData.shift (blobmsgHdrlen attr.blobmsgNamelen)

def blobmsgDataLen : Int :=
  toInt (attr.blobLen + 4294967296 - blobmsgHdrlen attr.blobmsgNamelen)

def blobmsgGetU32 : ℕ := attr.blobmsgData.be32

/-- The text of an attribute that has been checked. -/
def blobmsgGetString : Bytes :=
  (attr.blobmsgData.bytes attr.blobmsgDataLen.toNat).takeWhile fun b => b ≠ 0

end View

/-- `BLOBMSG_TYPE_*`. -/
inductive BlobmsgType
  | unspec
  | array
  | table
  | string
  | int64
  | int32
  | int16
  | int8
  deriving DecidableEq

namespace BlobmsgType

def code : BlobmsgType → ℕ
  | unspec => 0
  | array => 1
  | table => 2
  | string => 3
  | int64 => 4
  | int32 => 5
  | int16 => 6
  | int8 => 7

def ofCode : ℕ → Option BlobmsgType
  | 0 => some unspec
  | 1 => some array
  | 2 => some table
  | 3 => some string
  | 4 => some int64
  | 5 => some int32
  | 6 => some int16
  | 7 => some int8
  | _ => none

end BlobmsgType

namespace View

/-- `blob_check_type`, for the type of a message; there is no check for arrays and tables. -/
def checkType (data : View) (len : Int) : BlobmsgType → Bool
  | .array | .table => true
  | .unspec => decide (0 ≤ len)
  | .string => decide (1 ≤ len) && decide (data (len.toNat - 1) = 0)
  | .int64 => decide (len = 8)
  | .int32 => decide (len = 4)
  | .int16 => decide (len = 2)
  | .int8 => decide (len = 1)

/-- `blobmsg_check_attr` for an attribute that must have a name. -/
def blobmsgCheckAttr : Bool :=
  if attr.blobLen < 2 then false
  else if attr.blobmsgNamelen = 0 then false
  else if attr.blobLen - 2 < attr.blobmsgNamelen then false
  else if attr.blobData (2 + attr.blobmsgNamelen) ≠ 0 then false
  else
    match BlobmsgType.ofCode attr.blobId with
    | none => false
    | some type => checkType attr.blobmsgData attr.blobmsgDataLen type

end View

structure Policy where
  name : String
  type : BlobmsgType

/-- The characters of a name, without the end. -/
def cstr (s : String) : Bytes := s.toList.map fun c => UInt8.ofNat c.toNat

/-- `strcmp` of a name with the name of an attribute, end included. -/
def sameName (name : Bytes) (attr : View) : Bool :=
  (attr.blobData.shift 2).bytes (name.length + 1) == name ++ [0]

/-- An attribute is compared with one entry of the policy; `none` is the result -1. -/
def parseEntry (policy : Policy) (found : Option View) : Option (Option View) :=
  if attr.blobId ≠ policy.type.code then some found
  else if attr.blobmsgNamelen ≠ (cstr policy.name).length then some found
  else if !attr.blobmsgCheckAttr then none
  else if found.isSome then some found
  else if sameName (cstr policy.name) attr then some (some attr)
  else some found

/-- An attribute is compared with all entries of the policy. -/
def parseAttr (policy : List Policy) (tb : List (Option View)) (attr : View) :
    Option (List (Option View)) :=
  (policy.zip tb).mapM fun x => parseEntry attr x.1 x.2

def blobmsgParse (policy : List Policy) (data : View) (len : Int) : Option (List (Option View)) :=
  (data.attrs len).foldlM (parseAttr policy) (policy.map fun _ => none)

/-- Parse a blob that is not an attribute itself. -/
def parseBlob (policy : List Policy) (sbuf : View) : Option (List (Option View)) :=
  blobmsgParse policy sbuf.blobData (View.toInt sbuf.blobLen)

/-- The attributes of a table, one after the other, as they are passed on. -/
def tableAttrs : List Bytes :=
  (attr.blobmsgData.attrs attr.blobmsgDataLen).map fun x => x.bytes x.blobPadLen

namespace View

theorem nextAttr_lt (s : View × Int) (attr : View) (s' : View × Int)
    (h : nextAttr s = some (attr, s')) : s'.2.toNat < s.2.toNat := by
  unfold nextAttr at h
  dsimp only at h
  split at h
  · cases h
    omega
  · cases h

end View

end BeepMusic.Urelay
