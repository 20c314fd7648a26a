import BeepMusic.Iomcu.Bus
import BeepMusic.Lib.Checksum

/-!
A write in which one byte has been corrupted on the bus, whichever it is, fails the check of
the bootloader and changes no memory.
-/

namespace BeepMusic.Iomcu

open Lib List Function

/-- `crc8Shift` backwards. -/
def crc8Unshift (crc : UInt8) : UInt8 :=
  if crc &&& 1 ≠ 0 then ((crc ^^^ 0xd5) >>> 1) ||| 0x80 else crc >>> 1

theorem crc8Shift_injective : Injective crc8Shift := by
  have hback : ∀ x : Fin 256, crc8Unshift (crc8Shift (.ofFin x)) = .ofFin x := by decide +kernel
  exact LeftInverse.injective fun x => hback x.toFin

theorem crc8Step_injective (b : UInt8) : Injective fun crc => crc8Shift^[8] (crc ^^^ b) :=
  fun _ _ heq => (UInt8.xor_left_inj b).mp (crc8Shift_injective.iterate 8 heq)

theorem crc8Input_injective (crc : UInt8) : Injective fun b => crc8Shift^[8] (crc ^^^ b) :=
  fun _ _ heq => (UInt8.xor_right_inj crc).mp (crc8Shift_injective.iterate 8 heq)

/-- The checksum of a message together with its checksum is zero. -/
theorem crc8_append_eq_zero {crc : UInt8} {data : Bytes} {checksum : UInt8} :
    crc8 crc (data ++ [checksum]) = 0 ↔ crc8 crc data = checksum := by
  have hzero : crc8Shift^[8] 0 = 0 := by decide
  rw [crc8, foldl_append, foldl_cons, foldl_nil, ← hzero,
    (crc8Shift_injective.iterate 8).eq_iff, UInt8.xor_eq_zero_iff]
  rfl

namespace Bootloader

/-- The bootloader has refused a message and waits for the next one. -/
structure Refused (s s' : Bootloader) : Prop where
  waiting : s'.Waiting
  mem : s'.mem = s.mem
  flashState : s'.flashState = .idle
  btldrState : s'.btldrState = .checksumFailed

/-- The bytes of a write. -/
def message (reg : UInt8) (data : Bytes) : Bytes := reg :: (data ++ [i2cMessageChecksum data reg])

section

variable {s : Bootloader} (h : s.Waiting) {reg reg' checksum : UInt8} {data rest : Bytes}
  (stray : Bool)
include h

theorem refused_of_checksum (hreg : reg ≠ regResv) (hwrite : reg &&& regRwMask ≠ 0)
    (hlen : data.length < i2cBufSize) (hwrong : i2cMessageChecksum data reg ≠ checksum) :
    s.Refused (s.runOps (writeOps reg (data ++ [checksum]) stray)) := by
  have hbytes := runOps_byteIn (s := { s with i2cReg := reg, i2cState := .dataIn })
    (data ++ [checksum]) rfl (by simp [h.i2cOffset]; omega) h.i2cBuf
  have hrun : s.runOps ([.start false, .byteIn reg] ++ (data ++ [checksum]).map BusOp.byteIn ++
      [.stop stray]) = { s with
        i2cBuf := fill s.i2cBuf (data ++ [checksum])
        i2cOutRemaining := 0
        i2cReg := regResv
        btldrState := .checksumFailed
        flashState := .idle } := by
    rw [runOps_append, runOps_append, runOps_select h hreg, if_neg hwrite, hbytes]
    simp [runOps, op, i2cMessageStop, verified, i2cStateReset, h.i2cOffset, h.i2cState, hwrong,
      fill]
  refine hrun ▸ ⟨{ h with i2cBuf := ?_ }, rfl, rfl, rfl⟩
  simp [fill, h.i2cBuf]
  omega

/-- The register, a byte of the data or the checksum does not arrive as it was sent. -/
theorem corrupted_write_refused {i : ℕ} {b : UInt8}
    (hset : (message reg data).set i b = reg' :: (rest ++ [checksum]))
    (hne : reg' :: (rest ++ [checksum]) ≠ message reg data) (hlen : rest.length < i2cBufSize)
    (hreg : reg' ≠ regResv) (hwrite : reg' &&& regRwMask ≠ 0) :
    s.Refused (s.runOps (writeOps reg' (rest ++ [checksum]) stray)) := by
  refine refused_of_checksum h stray hreg hwrite hlen (mt crc8_append_eq_zero.mpr ?_)
  rw [← crc8_append_eq_zero.mpr (rfl : _ = i2cMessageChecksum data reg)]
  cases i with
  | zero =>
    obtain ⟨-, htail⟩ := cons.inj hset
    rw [← htail] at hne ⊢
    intro heq
    have hinit := foldl_injective crc8Step_injective _ heq
    exact hne (congrArg (· :: _) ((UInt8.add_right_inj _).mp hinit))
  | succ i =>
    obtain ⟨rfl, htail⟩ := cons.inj hset
    rw [← htail] at hne ⊢
    exact foldl_set_ne crc8Step_injective crc8Input_injective
      (fun heq => hne (congrArg (reg :: ·) heq)) _

end

/-- The byte 3 arrives in the place of 1. -/
theorem corrupted_write_refused_byte : ∃ s : Bootloader, s.Waiting ∧
    s.Refused (s.runOps (writeOps 0x80 ([2, 3] ++ [i2cMessageChecksum [2, 1] 0x80]) false)) := by
  have h : Waiting ⟨fun _ => 0, .btldrRun, .ok, 0, .idle, 0, .idle, replicate 194 0, 0, 0,
    regResv, .running⟩ := ⟨rfl, rfl, rfl, rfl, rfl⟩
  have hset : (message 0x80 [2, 1]).set 2 3 =
      0x80 :: ([2, 3] ++ [i2cMessageChecksum [2, 1] 0x80]) := rfl
  exact ⟨_, h, corrupted_write_refused h false hset (by decide) (by decide) (by decide)
    (by decide)⟩

end Bootloader

end BeepMusic.Iomcu
