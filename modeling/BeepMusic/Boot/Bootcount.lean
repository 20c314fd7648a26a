import Mathlib.Data.Int.Basic
import BeepMusic.Lib.Flash
import BeepMusic.Lib.System
import BeepMusic.Update.Digest

/-!
The boot count: how many times the primary image has been started since Linux last
said that all is well. U-Boot (`beep.c`) counts in the flash sector of its
environment, behind the environment, and clears a bit there for each attempt; the
updater (`system.c`) clears the rest of the nibble once Linux is up, and erases the
sector when it comes to the last byte. Offsets are from the beginning of the area.
-/

namespace BeepMusic.Boot

open Lib
open BeepMusic.Update (UpdateCode)

/-- The size of the area, which both programs are built with. Linux reads it in words. -/
structure Layout where
  bootcountSize : ℕ
  words : 4 ∣ bootcountSize
  pos : 0 < bootcountSize

/-- `BOOTCOUNT_SIZE`, which is `CFG_ENV_SECT_SIZE - CFG_ENV_SIZE`. -/
def deviceLayout : Layout := ⟨0x8000, by decide, by decide⟩

def maxBootcount : ℤ := 3

inductive Image
  | primary
  | recovery
  deriving DecidableEq

/-! ### U-Boot -/

/-- The area and what has been programmed so far, and the static variable of `beep.c`;
`none` is `OFFSET_UNDEFINED`. -/
structure UBoot where
  area : List UInt8
  writes : List FlashWrite
  bootcountOffset : Option ℕ

namespace UBoot

variable (layout : Layout)

def setBootcount (u : UBoot) (v : UInt8) : UBoot :=
  match u.bootcountOffset with
  | none => u
  | some offset =>
    if layout.bootcountSize - 1 < offset then u
    else
      { u with
        area := Flash.program u.area offset v
        writes := u.writes ++ [⟨u.area.getD offset 0, v⟩] }

/-- The nibble that is in use: the first that is not zero. -/
def nibble (v : UInt8) : UInt8 := if v &&& 0xf0 ≠ 0 then v >>> 4 else v

def getBootcount (u : UBoot) : ℤ × UBoot :=
  let start := u.bootcountOffset.getD 0
  match Flash.firstNonzero (u.area.drop start) start with
  | none => (-1, { u with bootcountOffset := none })
  | some (offset, byte) =>
    let u := { u with bootcountOffset := some offset }
    let v := nibble byte
    if v = 0xf then (0, u)
    else if v = 0x7 then (1, u)
    else if v = 0x3 then (2, u)
    else if v = 0x1 then (3, u)
    else (-2, { u.setBootcount layout 0 with bootcountOffset := none })

def incBootcount (u : UBoot) : UBoot :=
  match u.getBootcount layout with
  | (bc, u) =>
    if bc < 0 then u
    else
      let v := u.area.getD (u.bootcountOffset.getD 0) 0
      if v &&& 0xf0 ≠ 0 then
        if v = 0x1f then u else u.setBootcount layout (((v >>> 5) <<< 4) ||| 0xf)
      else if v = 0x01 then u
      else u.setBootcount layout (v >>> 1)

/-- What happens during a boot. -/
structure BootInput where
  /-- The setup button is held for five seconds. -/
  setupHeld : Bool
  /-- In factory test mode, whether the test passes. -/
  factTest : Option Bool
  /-- `do_bootm` does not return from the primary image. -/
  primaryBoots : Bool

/-- The images that are tried, in this order. None is, when a factory test fails. -/
def doBootb (u : UBoot) (i : BootInput) : List Image × UBoot :=
  match u.getBootcount layout with
  | (bc, u) =>
    let bootPrimary := decide (bc < maxBootcount) && !i.setupHeld
    if i.factTest = some false then ([], u)
    else if bootPrimary then
      (if i.primaryBoots then [.primary] else [.primary, .recovery], u.incBootcount layout)
    else ([.recovery], u)

end UBoot

/-! ### Linux -/

/-- The sector, `env` and `area`. The rest is for statements: what has been programmed,
and the images that were tried in the boots since the count was last cleared. -/
structure Board where
  env : List UInt8
  area : List UInt8
  writes : List FlashWrite
  boots : List (List Image)

/-- The first word that is not zero, and the position behind it. Less than a word is
left only at the end of the area. -/
def readWords : List UInt8 → ℕ → Option (ℕ × UInt8 × UInt8 × UInt8 × UInt8)
  | a :: b :: c :: d :: rest, pos =>
    if a = 0 ∧ b = 0 ∧ c = 0 ∧ d = 0 then readWords rest (pos + 4)
    else some (pos + 4, a, b, c, d)
  | _, _ => none

/-- The first byte of a word that is not zero, and the bits behind it. -/
def firstByte (a b c d : UInt8) : ℕ × UInt8 :=
  if a ≠ 0 then (24, a) else if b ≠ 0 then (16, b) else if c ≠ 0 then (8, c) else (0, d)

/-- Whether the device can be opened, and whether there is memory for a copy of the
environment. -/
structure ClearInput where
  opened : Bool
  malloc : Bool

namespace Board

variable (layout : Layout)

/-- `_reset_bootcount`: the sector is erased, and the environment written back. -/
def resetBootcount (s : Board) (malloc : Bool) : UpdateCode × Board :=
  if malloc = false then (.oom, s)
  else
    (.ok, { s with
      env := s.env.map fun b => 0xff &&& b
      area := Flash.erased layout.bootcountSize
      writes := s.writes ++ s.env.map fun b => ⟨0xff, b⟩ })

def clearBootcount (s : Board) (i : ClearInput) : UpdateCode × Board :=
  if i.opened = false then (.err, s)
  else
    match readWords s.area 0 with
    | none => s.resetBootcount layout i.malloc
    | some (pos, a, b, c, d) =>
      let (shift, byte) := firstByte a b c d
      if UBoot.nibble byte = 0x0f then (.ok, s)
      else
        let value := if byte &&& 0xf0 ≠ 0 then 0x0f else 0x00
        let offset := pos - 1 - shift / 8
        if offset = layout.bootcountSize - 1 then s.resetBootcount layout i.malloc
        else
          (.ok, { s with
            area := Flash.program s.area offset value
            writes := s.writes ++ [⟨s.area.getD offset 0, value⟩] })

end Board

inductive BoardEvent
  | boot (i : UBoot.BootInput)
  | clear (i : ClearInput)

namespace Board

variable (layout : Layout)

def boot (s : Board) (i : UBoot.BootInput) : Board :=
  match UBoot.doBootb layout ⟨s.area, s.writes, none⟩ i with
  | (tried, u) =>
    { s with
      area := u.area
      writes := u.writes
      boots := if tried = [] then s.boots else s.boots ++ [tried] }

def clear (s : Board) (i : ClearInput) : Board :=
  match s.clearBootcount layout i with
  | (code, s) => if code = .ok then { s with boots := [] } else s

end Board

/-- A device, from an erased area on. -/
def board (layout : Layout) (env : List UInt8) : System Board BoardEvent where
  init := ⟨env, Flash.erased layout.bootcountSize, [], []⟩
  step s
    | .boot i => some (s.boot layout i)
    | .clear i => some (s.clear layout i)

end BeepMusic.Boot
