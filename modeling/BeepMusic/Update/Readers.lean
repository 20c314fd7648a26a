import BeepMusic.Update.Package

/-!
The two kinds of packages, side by side: the same content, behind a base offset in a file
and in a gzip stream, for every sequence of calls.
-/

namespace BeepMusic.Update

open Lib List

namespace UpdatePackage

/-- The calls one after the other. -/
def performAll (inflate : Bytes → Bytes) : UpdatePackage → List PackageOp → List PackageAnswer
  | _, [] => []
  | pkg, op :: ops =>
    (pkg.perform inflate op).1 :: performAll inflate (pkg.perform inflate op).2 ops

/-- A seek that moves: `fseek` or `gzseek` is called. -/
def Moves (pkg : UpdatePackage) : PackageOp → Prop
  | .seek offset whence =>
    ¬(whence = .cur ∧ offset = 0) ∧
      ¬(pkg.size < pkg.target offset whence ∨ pkg.target offset whence < 0) ∧
      pkg.target offset whence ≠ pkg.tell
  | .tell | .read _ => False

instance (pkg : UpdatePackage) : (op : PackageOp) → Decidable (pkg.Moves op)
  | .seek _ _ => inferInstanceAs (Decidable (_ ∧ _))
  | .tell | .read _ => isFalse id

/-- For each call, whether it is a seek that moves. -/
def moves (inflate : Bytes → Bytes) : UpdatePackage → List PackageOp → List Bool
  | _, [] => []
  | pkg, op :: ops => decide (pkg.Moves op) :: moves inflate (pkg.perform inflate op).2 ops

/-- A file and a gzip stream with the same content, at the same position. -/
structure Alike (inflate : Bytes → Bytes) (content : Bytes) (f z : UpdatePackage) : Prop where
  file : ∃ base, f.io = .file base content.length ∧ f.stream.bytes.drop base = content ∧
    f.stream.pos = base + z.stream.pos
  zlib : ∃ start, z.io = .zlib start content.length ∧
    inflate (z.stream.bytes.drop start) = content
  inside : z.stream.pos ≤ content.length

variable {inflate : Bytes → Bytes} {content : Bytes} {f z : UpdatePackage}

section

variable (h : Alike inflate content f z)
include h

theorem Alike.tell : f.tell = z.tell := by
  obtain ⟨base, hio, -, hpos⟩ := h.file
  obtain ⟨start, hio', -⟩ := h.zlib
  rw [UpdatePackage.tell, UpdatePackage.tell, hio, hio', hpos]
  dsimp only
  omega

theorem Alike.size : f.size = z.size := by
  obtain ⟨base, hio, -⟩ := h.file
  obtain ⟨start, hio', -⟩ := h.zlib
  rw [UpdatePackage.size, UpdatePackage.size, hio, hio']

theorem Alike.target (offset : ℤ) (whence : Whence) :
    f.target offset whence = z.target offset whence := by
  cases whence with
  | set => rfl
  | cur => exact congrArg (offset + ·) h.tell
  | fromEnd => exact congrArg (fun size : ℕ => (size : ℤ) + offset) h.size

theorem Alike.moved {base pos : ℕ} (hbase : f.io = .file base content.length)
    (hpos : pos ≤ content.length) :
    Alike inflate content { f with stream := f.stream.seek (pos + base) }
      { z with stream := z.stream.seek pos } := by
  obtain ⟨base', hio, hcontent, -⟩ := h.file
  cases hbase.symm.trans hio
  exact ⟨⟨base, hio, hcontent, Nat.add_comm _ _⟩, h.zlib, hpos⟩

theorem Alike.seek (offset : ℤ) (whence : Whence) :
    (z.seek offset whence).1 =
        (if f.Moves (.seek offset whence) then -1 else (f.seek offset whence).1) ∧
      Alike inflate content (f.seek offset whence).2 (z.seek offset whence).2 := by
  obtain ⟨base, hio, -, -⟩ := h.file
  obtain ⟨start, hio', -⟩ := h.zlib
  have hsize : f.size = content.length := by rw [UpdatePackage.size, hio]
  simp only [UpdatePackage.seek, ← h.target, ← h.tell, ← h.size]
  by_cases hcur : whence = .cur ∧ offset = 0
  · have hstays : ¬f.Moves (.seek offset whence) := fun hmoves => hmoves.1 hcur
    simp only [if_neg hstays, if_pos hcur, true_and]
    exact h
  · by_cases hrange : (f.size : ℤ) < f.target offset whence ∨ f.target offset whence < 0
    · have hstays : ¬f.Moves (.seek offset whence) := fun hmoves => hmoves.2.1 hrange
      simp only [if_neg hstays, if_neg hcur, if_pos hrange, true_and]
      exact h
    · by_cases hthere : f.target offset whence = f.tell
      · have hstays : ¬f.Moves (.seek offset whence) := fun hmoves => hmoves.2.2 hthere
        simp only [if_neg hstays, if_neg hcur, if_neg hrange, if_pos hthere, true_and]
        exact h
      · have hmoves : f.Moves (.seek offset whence) := ⟨hcur, hrange, hthere⟩
        have hinside : (f.target offset whence).toNat ≤ content.length := by omega
        have hmoved := h.moved hio hinside
        simp only [if_pos hmoves, if_neg hcur, if_neg hrange, if_neg hthere, hio, hio', true_and]
        rw [hio, hio'] at hmoved
        exact hmoved

theorem Alike.read (size : ℕ) :
    (z.read inflate size).1 = (f.read inflate size).1 ∧
      Alike inflate content (f.read inflate size).2 (z.read inflate size).2 := by
  obtain ⟨base, hio, hcontent, hpos⟩ := h.file
  obtain ⟨start, hio', hinflate⟩ := h.zlib
  have hrest : f.stream.rest = content.drop z.stream.pos := by
    rw [File.rest, hpos, ← drop_drop, hcontent]
  have hinside := h.inside
  simp only [UpdatePackage.read, hio, hio', hinflate, Nat.min_eq_left hinside, File.read, hrest,
    slice]
  refine ⟨trivial, ⟨base, rfl, hcontent, ?_⟩, ⟨start, rfl, hinflate⟩, ?_⟩
  · show f.stream.pos + _ = base + (z.stream.pos + _)
    omega
  · show z.stream.pos + _ ≤ content.length
    rw [length_take, length_drop]
    omega

/-- One call: the answers differ only for a seek that moves. -/
theorem Alike.perform (op : PackageOp) :
    (z.perform inflate op).1 =
        (if f.Moves op then .sought (-1) else (f.perform inflate op).1) ∧
      Alike inflate content (f.perform inflate op).2 (z.perform inflate op).2 := by
  cases op with
  | tell => exact ⟨congrArg PackageAnswer.position h.tell.symm, h⟩
  | seek offset whence =>
    obtain ⟨hanswer, hnext⟩ := h.seek offset whence
    refine ⟨?_, hnext⟩
    show PackageAnswer.sought (z.seek offset whence).1 = _
    rw [hanswer]
    split_ifs <;> rfl
  | read size =>
    obtain ⟨hanswer, hnext⟩ := h.read size
    exact ⟨congrArg PackageAnswer.data hanswer, hnext⟩

end

/-- What is answered when every seek that moves answers -1. -/
def movesFail (moves : List Bool) (answers : List PackageAnswer) : List PackageAnswer :=
  List.zipWith (fun moved answer => if moved then .sought (-1) else answer) moves answers

theorem Alike.performAll (h : Alike inflate content f z) (ops : List PackageOp) :
    z.performAll inflate ops = movesFail (f.moves inflate ops) (f.performAll inflate ops) := by
  induction ops generalizing f z with
  | nil => rfl
  | cons op ops ih =>
    obtain ⟨hanswer, hnext⟩ := h.perform op
    rw [UpdatePackage.performAll, ih hnext, hanswer]
    simp [UpdatePackage.performAll, UpdatePackage.moves, movesFail]

theorem movesFail_eq_self {moves : List Bool} {answers : List PackageAnswer}
    (hlength : moves.length = answers.length) (h : ∀ moved ∈ moves, moved = false) :
    movesFail moves answers = answers := by
  induction moves generalizing answers with
  | nil => exact (length_eq_zero_iff.mp hlength.symm).symm
  | cons moved moves ih =>
    cases answers with
    | nil => cases hlength
    | cons answer answers =>
      rw [movesFail, zipWith_cons_cons, h moved mem_cons_self]
      exact congrArg (answer :: ·)
        (ih (Nat.succ.inj hlength) fun moved hmem => h moved (mem_cons_of_mem _ hmem))

theorem length_moves (pkg : UpdatePackage) (ops : List PackageOp) :
    (pkg.moves inflate ops).length = (pkg.performAll inflate ops).length := by
  induction ops generalizing pkg with
  | nil => rfl
  | cons op ops ih => exact congrArg Nat.succ (ih _)

end UpdatePackage

/-- A package in a file and the same one in a gzip stream, both just opened, answer alike but
for the result of a seek that moves; without such a seek they answer the same. -/
theorem package_zlib_like_file (inflate : Bytes → Bytes) (content file gzip : Bytes)
    (base start : ℕ) (hfile : file.drop base = content)
    (hgzip : inflate (gzip.drop start) = content) (ops : List PackageOp) :
    let f : UpdatePackage := ⟨.file base content.length, ⟨file, base⟩⟩
    let z : UpdatePackage := ⟨.zlib start content.length, ⟨gzip, 0⟩⟩
    z.performAll inflate ops =
        UpdatePackage.movesFail (f.moves inflate ops) (f.performAll inflate ops) ∧
      ((∀ moved ∈ f.moves inflate ops, moved = false) →
        z.performAll inflate ops = f.performAll inflate ops) := by
  intro f z
  have h : UpdatePackage.Alike inflate content f z :=
    ⟨⟨base, rfl, hfile, rfl⟩, ⟨start, rfl, hgzip⟩, Nat.zero_le _⟩
  refine ⟨h.performAll ops, fun hstill => ?_⟩
  rw [h.performAll ops, UpdatePackage.movesFail_eq_self (UpdatePackage.length_moves f ops) hstill]

/-- Two bytes behind a digest of one byte; the gzip stream is its own content here. -/
theorem package_zlib_like_file_two :
    (UpdatePackage.mk (.zlib 0 2) ⟨[7, 8], 0⟩).performAll id [.read 1, .tell, .seek 1 .set] =
      (UpdatePackage.mk (.file 1 2) ⟨[9, 7, 8], 1⟩).performAll id [.read 1, .tell, .seek 1 .set] :=
  (package_zlib_like_file id [7, 8] [9, 7, 8] [7, 8] 1 0 rfl rfl
    [.read 1, .tell, .seek 1 .set]).2 (by decide)

/-- A seek to the second byte: 0 from the file, -1 from the gzip stream, which has moved. -/
theorem package_zlib_seek_fails :
    (UpdatePackage.mk (.file 1 2) ⟨[9, 7, 8], 1⟩).performAll id [.seek 1 .set, .tell] =
        [.sought 0, .position 1] ∧
      (UpdatePackage.mk (.zlib 0 2) ⟨[7, 8], 0⟩).performAll id [.seek 1 .set, .tell] =
        [.sought (-1), .position 1] := by
  decide

end BeepMusic.Update
