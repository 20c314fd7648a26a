import Mathlib.Algebra.Group.Nat.Defs
import Mathlib.Data.Int.Basic
import BeepMusic.Update.Digest

/-!
How a package is opened (`package.c`) and read (`package_file.c`, `package_zlib.c`).
The readers of the package, of its tar headers and of its manifest, use it only
through `tell`, `seek` and `read`; they are strategies here. What zlib makes of
compressed data is left open, but for data that is too short to be a gzip file.
-/

namespace BeepMusic.Update

open Lib

def gzMagic : Bytes := [0x1f, 0x8b]

/-- The answers of `dup` and of zlib besides. -/
structure PackageEnvironment extends Environment where
  dup : Bool
  gzdopen : Bool
  gzbuffer : Bool
  /-- What can be read of a gzip stream. -/
  inflate : Bytes → Bytes
  /-- There is nothing in a stream that begins like a gzip file and ends within its header. -/
  inflate_short : ∀ data, data.take gzMagic.length = gzMagic → data.length < 4 → inflate data = []

def tarMagicOffset : ℕ := 0x101

def tarMagic : Bytes := ascii "ustar  " ++ [0]

inductive PackageIO
  /-- `PackageIOFile`: the position of the stream is that of the file. -/
  | file (base size : ℕ)
  /-- `PackageIOZlib`: the gzip stream begins at `start` of the file. -/
  | zlib (start size : ℕ)
  deriving DecidableEq

structure UpdatePackage where
  io : PackageIO
  stream : File
  deriving DecidableEq

def sizeofUpdatePackage : ℕ := 64

def sizeofPackageIO : ℕ := 12

variable (env : PackageEnvironment)

def packageFileOpen (stream : File) : Except UpdateCode UpdatePackage :=
  if env.malloc sizeofPackageIO = false then .error .oom
  else
    let base := stream.pos
    let size := stream.bytes.length - base
    .ok ⟨.file base size, stream⟩

/-- The uncompressed size is in the last four bytes of the file. `long` has 32 bits. -/
def packageZlibOpen (stream : File) : Except UpdateCode UpdatePackage :=
  if env.malloc sizeofPackageIO = false then .error .oom
  else
    let startPos := stream.pos
    let (tail, _) := (stream.seek (stream.bytes.length - 4)).read 4
    if tail.length ≠ 4 then .error .fileErr
    else if 2 ^ 31 ≤ littleEndian tail then .error .zlibErr
    else if env.dup = false then .error .fileErr
    else if env.gzdopen = false ∨ env.gzbuffer = false then .error .zlibErr
    -- the position of the package is that in the uncompressed data
    else .ok ⟨.zlib startPos (littleEndian tail), stream.seek 0⟩

/-- The part of `init_package_streams` after the verification. -/
def openVerified (path : String) (stream : File) : Except UpdateCode UpdatePackage :=
  if env.malloc sizeofUpdatePackage = false then .error .oom
  else if env.malloc (path.utf8ByteSize + 1) = false then .error .oom
  else
    let pos := stream.pos
    let (magicBuf, stream) := stream.read gzMagic.length
    if magicBuf.length ≠ gzMagic.length then .error .fileErr
    else if magicBuf = gzMagic then packageZlibOpen env (stream.seek pos)
    else
      let (magicBuf, stream) := (stream.seek (pos + tarMagicOffset)).read tarMagic.length
      if magicBuf.length ≠ tarMagic.length then .error .fileErr
      else if magicBuf = tarMagic then packageFileOpen env (stream.seek pos)
      else .error .invalidState

/-- `file` is what `fopen` finds. -/
def initPackageStreams (path : String) (file : Option Bytes) : Except UpdateCode UpdatePackage :=
  match file with
  | none => .error .fileErr
  | some bytes =>
    let v := verifyEmbeddedFile env.toEnvironment ⟨bytes, 0⟩ .binary true
    if v.code ≠ .ok then .error v.code else openVerified env path v.stream

inductive Whence
  | set
  | cur
  | fromEnd
  deriving DecidableEq

/-- What a reader asks of a package. -/
inductive PackageOp
  | tell
  | seek (offset : ℤ) (whence : Whence)
  | read (size : ℕ)

inductive PackageAnswer
  | position (pos : ℤ)
  | sought (result : ℤ)
  | data (bytes : Bytes)
  deriving DecidableEq

namespace UpdatePackage

variable (inflate : Bytes → Bytes) (pkg : UpdatePackage)

def tell : ℤ :=
  match pkg.io with
  | .file base _ => pkg.stream.pos - base
  | .zlib _ _ => pkg.stream.pos

def size (pkg : UpdatePackage) : ℕ :=
  match pkg.io with
  | .file _ size | .zlib _ size => size

/-- The offset from the beginning, as both kinds of packages compute it. -/
def target (offset : ℤ) : Whence → ℤ
  | .fromEnd => pkg.size + offset
  | .set => offset
  | .cur => offset + pkg.tell

def seek (offset : ℤ) (whence : Whence) : ℤ × UpdatePackage :=
  if whence = .cur ∧ offset = 0 then (0, pkg)
  else
    let target := pkg.target offset whence
    if pkg.size < target ∨ target < 0 then (-1, pkg)
    else if target = pkg.tell then (0, pkg)
    else
      match pkg.io with
      | .file base _ => (0, { pkg with stream := pkg.stream.seek (target.toNat + base) })
      -- the `return -1` after `gzseek` is not in the branch that is indented like it
      | .zlib _ _ => (-1, { pkg with stream := pkg.stream.seek target.toNat })

def read (size : ℕ) : Bytes × UpdatePackage :=
  match pkg.io with
  | .file _ _ =>
    let (bytes, stream) := pkg.stream.read size
    (bytes, { pkg with stream := stream })
  | .zlib start _ =>
    -- a seek past the end ends at the end
    let content := inflate (pkg.stream.bytes.drop start)
    let pos := min pkg.stream.pos content.length
    let bytes := slice content pos size
    (bytes, { pkg with stream := pkg.stream.seek (pos + bytes.length) })

def perform : PackageOp → PackageAnswer × UpdatePackage
  | .tell => (.position pkg.tell, pkg)
  | .seek offset whence =>
    let (result, pkg) := pkg.seek offset whence
    (.sought result, pkg)
  | .read size =>
    let (bytes, pkg) := pkg.read inflate size
    (.data bytes, pkg)

end UpdatePackage

/-- What to ask next, given the answers so far, or to stop. -/
abbrev Reader := List PackageAnswer → Option PackageOp

/-- The size of a tar header. -/
def tarBlock : ℕ := 512

/-- `parse_tar_header` for the first header of a package, which begins with a read at
position zero and stops when there is no whole header; then anything. -/
def openingReader (rest : Reader) : Reader
  | [] => some .tell
  | [_] => some .tell
  | [_, _] => some (.read tarBlock)
  | a :: b :: .data header :: answers =>
    if header.length = tarBlock then rest (a :: b :: .data header :: answers) else none
  | _ => none

/-- The answers that a reader gets, in at most `fuel` steps. -/
def transcript (inflate : Bytes → Bytes) (reader : Reader) :
    (fuel : ℕ) → UpdatePackage → List PackageAnswer → List PackageAnswer
  | 0, _, answers => answers
  | fuel + 1, pkg, answers =>
    match reader answers with
    | none => answers
    | some op =>
      let (answer, pkg) := pkg.perform inflate op
      transcript inflate reader fuel pkg (answers ++ [answer])

end BeepMusic.Update
