import BeepMusic.Update.Agreement

/-!
`del_signature` of `verify.py`, which takes away what `embed` has put before a file. Of what
`int` reads in base 16, these are the digits that `embed` writes.
-/

namespace BeepMusic.Update

open Lib List Option

/-- `header.split(':')`, which has to give two parts. -/
def splitColon (header : Bytes) : Option (Bytes × Bytes) :=
  match header.dropWhile (· ≠ colon) with
  | [] => none
  | _ :: second => if colon ∈ second then none else some (header.takeWhile (· ≠ colon), second)

/-- `int(text, 16)`. -/
def intOfHex (text : Bytes) : Option ℕ :=
  if text = [] then none else text.foldlM (fun n c => (hexVal c).map (16 * n + ·)) 0

/-- `struct.unpack` of four bytes. -/
def structUnpack (data : Bytes) : Option ℕ :=
  if data.length = 4 then some (bigEndian data) else none

/-- What `del_signature` writes, for the data that it has read. -/
def delSignature (style : DigStyle) (data : Bytes) : Option Bytes :=
  match styleInfo style with
  | none => none
  | some info =>
    let hdrSize := (if info.isStr then 17 else 9) + (info.start.length + info.stop.length)
    let header := data.take hdrSize
    if header.take info.start.length ≠ info.start ∨
        header.drop (header.length - info.stop.length) ≠ info.stop then none
    else
      let text := header.drop info.start.length
      match splitColon (text.take (text.length - info.stop.length)) with
      | none => none
      | some (magic, size) =>
        match if info.isStr then hexStrToBin magic else some magic,
          if info.isStr then intOfHex size else structUnpack size with
        | some magic, some digestSize =>
          if magic ≠ signedMagicBytes then none
          else some (data.drop (hdrSize + digestSize))
        | _, _ => none

theorem splitColon_append {first : Bytes} (hfirst : colon ∉ first) (second : Bytes) :
    splitColon (first ++ colon :: second) =
      if colon ∈ second then none else some (first, second) := by
  have hne : ∀ b ∈ first, decide (b ≠ colon) = true := by
    intro b hb
    exact decide_eq_true fun heq => hfirst (heq ▸ hb)
  have hdrop : (first ++ colon :: second).dropWhile (· ≠ colon) = colon :: second := by
    rw [dropWhile_append_of_pos hne, dropWhile_cons_of_neg (by simp)]
  have htake : (first ++ colon :: second).takeWhile (· ≠ colon) = first := by
    rw [takeWhile_append_of_pos hne, takeWhile_cons_of_neg (by simp), append_nil]
  rw [splitColon, hdrop, htake]

theorem foldlM_formatHex {width n : ℕ} (h : n < 16 ^ width) :
    (formatHex width n).foldlM (fun n c => (hexVal c).map (16 * n + ·)) 0 = some n := by
  induction width generalizing n with
  | zero =>
    obtain rfl : n = 0 := by simpa using h
    simp [formatHex]
  | succ width ih =>
    have hdiv : n / 16 < 16 ^ width := by
      exact Nat.div_lt_of_lt_mul (Nat.mul_comm _ _ ▸ h)
    rw [formatHex, foldlM_append, ih hdiv]
    simp only [bind_eq_bind, bind_some, foldlM_cons, foldlM_nil,
      hexVal_hexDigit (Nat.mod_lt n (by decide)), map_some, Option.pure_def,
      Nat.div_add_mod]

theorem colon_notMem_formatHex (width n : ℕ) : colon ∉ formatHex width n := by
  intro hmem
  obtain ⟨d, hd, heq⟩ := mem_formatHex hmem
  have hval := hexVal_hexDigit hd
  rw [← heq] at hval
  cases hval

/-- Any header of the right length: what it says is taken away, unless it has a second colon. -/
theorem delSignature_hdr {style : DigStyle} {info : StyleInfo} {magic size : Bytes}
    {digestSize : ℕ} (hinfo : styleInfo style = some info)
    (hlength : magic.length + (size.length + 1) = if info.isStr then 17 else 9)
    (hmagic : colon ∉ magic)
    (hread : (if info.isStr then hexStrToBin magic else some magic) = some signedMagicBytes)
    (hreadSize : (if info.isStr then intOfHex size else structUnpack size) = some digestSize)
    (rest : Bytes) :
    delSignature style (info.start ++ (magic ++ colon :: (size ++ info.stop)) ++ rest) =
      if colon ∈ size then none else some (rest.drop digestSize) := by
  have htext : info.start ++ (magic ++ colon :: (size ++ info.stop)) =
      info.start ++ ((magic ++ colon :: size) ++ info.stop) := by simp
  have hhdr : (info.start ++ ((magic ++ colon :: size) ++ info.stop)).length =
      (if info.isStr then 17 else 9) + (info.start.length + info.stop.length) := by
    simp only [length_append, length_cons]
    omega
  rw [delSignature, hinfo, htext]
  dsimp only
  rw [← hhdr, take_left, take_left, drop_left]
  have hstop : (info.start ++ ((magic ++ colon :: size) ++ info.stop)).drop
      ((info.start ++ ((magic ++ colon :: size) ++ info.stop)).length - info.stop.length) =
        info.stop := by
    rw [← append_assoc, length_append, Nat.add_sub_cancel, drop_left]
  have hinner : ((magic ++ colon :: size) ++ info.stop).take
      (((magic ++ colon :: size) ++ info.stop).length - info.stop.length) =
        magic ++ colon :: size := by
    rw [length_append, Nat.add_sub_cancel, take_left]
  rw [hstop, hinner, if_neg (by simp), splitColon_append hmagic]
  by_cases hcolon : colon ∈ size
  · rw [if_pos hcolon, if_pos hcolon]
  · rw [if_neg hcolon, if_neg hcolon]
    dsimp only
    rw [hread, hreadSize]
    dsimp only
    rw [if_neg (by simp), ← drop_drop, drop_left]

/-- A ninth digit stands where the end of the line is expected. -/
theorem delSignature_of_le {style : DigStyle} {info : StyleInfo} {size : ℕ}
    (hinfo : styleInfo style = some info) (hstr : info.isStr) (hsize : 16 ^ 8 ≤ size)
    (rest : Bytes) :
    delSignature style (info.start ++
      (binToHexStr signedMagicBytes ++ colon :: (formatHex 8 size ++ info.stop)) ++ rest) =
        none := by
  have hstop : info.stop = [newline] := by
    cases style <;> cases hinfo <;> first | rfl | cases hstr
  have hlength := lt_length_formatHex hsize
  obtain ⟨d, more, hmore⟩ : ∃ d more, (formatHex 8 size).drop 8 = d :: more :=
    exists_cons_of_ne_nil fun hnil => absurd (drop_eq_nil_iff.mp hnil) (by omega)
  have hdigit : [d] ≠ info.stop := by
    obtain ⟨v, hv, rfl⟩ := mem_formatHex (mem_of_mem_drop (hmore ▸ mem_cons_self))
    have hval := hexVal_hexDigit hv
    intro heq
    rw [hstop, cons.injEq] at heq
    rw [heq.1] at hval
    cases hval
  let front := info.start ++ (binToHexStr signedMagicBytes ++ colon :: (formatHex 8 size).take 8)
  have hfront : front.length + 1 = 17 + (info.start.length + info.stop.length) := by
    simp [front, hstop, binToHexStr, signedMagicBytes, hexEncode]
    omega
  have hdata : info.start ++
      (binToHexStr signedMagicBytes ++ colon :: (formatHex 8 size ++ info.stop)) ++ rest =
        front ++ [d] ++ (more ++ info.stop ++ rest) := by
    rw [← take_append_drop 8 (formatHex 8 size), hmore]
    simp [front]
  rw [delSignature, hinfo, hdata]
  dsimp only
  rw [if_pos hstr, ← hfront, ← length_singleton (a := d), ← length_append, take_left, hstop,
    length_append, length_singleton, length_singleton, Nat.add_sub_cancel, drop_left, ← hstop,
    if_pos (.inr hdigit)]

/-- The size of the digests can be read back: it has eight digits, or four bytes of which
none is the separator. -/
def Separable (info : StyleInfo) (size : ℕ) : Prop :=
  if info.isStr then size < 16 ^ 8 else colon ∉ toBytes 4 size
deriving Decidable

/-- The header that `embed` writes. -/
theorem delSignature_digestHdr {style : DigStyle} {info : StyleInfo} {size : ℕ} {hdr : Bytes}
    (hinfo : styleInfo style = some info) (hhdr : digestHdr info size = some hdr)
    (rest : Bytes) : delSignature style (hdr ++ rest) =
      if Separable info size then some (rest.drop size) else none := by
  rw [digestHdr] at hhdr
  cases hstr : info.isStr with
  | true =>
    rw [hstr, if_pos rfl] at hhdr
    cases hhdr
    have hsep : Separable info size ↔ size < 16 ^ 8 := by simp [Separable, hstr]
    rw [if_congr hsep rfl rfl]
    by_cases hsize : size < 16 ^ 8
    case neg => rw [if_neg hsize, delSignature_of_le hinfo hstr (Nat.not_lt.mp hsize)]
    have hlength : (formatHex 8 size).length = 8 := length_formatHex_of_lt hsize
    have hint : intOfHex (formatHex 8 size) = some size := by
      rw [intOfHex, if_neg fun hnil => by rw [hnil] at hlength; cases hlength]
      exact foldlM_formatHex hsize
    rw [if_pos hsize]
    refine (delSignature_hdr hinfo ?_ (by decide) ?_ ?_ rest).trans
      (if_neg (colon_notMem_formatHex 8 size))
    · rw [hstr, hlength]
      rfl
    · rw [hstr]
      rfl
    · rw [hstr]
      exact hint
  | false =>
    rw [hstr, if_neg Bool.false_ne_true] at hhdr
    have hsep : Separable info size ↔ colon ∉ toBytes 4 size := by simp [Separable, hstr]
    rw [if_congr hsep rfl rfl, ite_not]
    rw [structPack] at hhdr
    split_ifs at hhdr with hfits
    · cases hhdr
      have hunpack : structUnpack (toBytes 4 size) = some size := by
        rw [structUnpack, if_pos (length_toBytes 4 size), bigEndian_toBytes hfits]
      refine delSignature_hdr hinfo ?_ (by decide) ?_ ?_ rest
      · rw [hstr, length_toBytes]
        rfl
      · rw [hstr]
        rfl
      · rw [hstr]
        exact hunpack
    · cases hhdr

/-- What `embed` has written is taken away exactly if the size of the digests can be read
back. -/
theorem delSignature_embed_iff (style : DigStyle) (digList : List DigEntry) (payload file : Bytes)
    (hembed : embed style digList payload = some file) :
    delSignature style file = some payload ↔
      ∀ info data, styleInfo style = some info → digestData info digList = some data →
        Separable info data.length := by
  obtain ⟨header, hheader, rfl⟩ := map_eq_some_iff.mp hembed
  rw [digestStr] at hheader
  cases hinfo : styleInfo style with
  | none =>
    rw [hinfo] at hheader
    cases hheader
  | some info =>
    rw [hinfo] at hheader
    cases hdata : digestData info digList with
    | none =>
      simp only [hdata] at hheader
      cases hheader
    | some data =>
      simp only [hdata] at hheader
      obtain ⟨hdr, hhdr, rfl⟩ := map_eq_some_iff.mp hheader
      rw [append_assoc, delSignature_digestHdr hinfo hhdr, drop_left]
      constructor
      · rintro h info data ⟨⟩ hdata'
        cases hdata.symm.trans hdata'
        by_contra hsep
        rw [if_neg hsep] at h
        cases h
      · intro h
        exact if_pos (h info data rfl hdata)

/-- An md5 digest before a script. -/
theorem delSignature_embed_iff_script :
    ∃ file, embed .sh [⟨.md5, ascii "d41d8cd98f00b204e9800998ecf8427e"⟩] (ascii "exit 0") =
        some file ∧ delSignature .sh file = some (ascii "exit 0") := by
  refine ⟨_, rfl, (delSignature_embed_iff .sh [⟨.md5, ascii "d41d8cd98f00b204e9800998ecf8427e"⟩]
    (ascii "exit 0") _ rfl).mpr ?_⟩
  intro info data hinfo hdata
  cases hinfo
  cases hdata
  decide +kernel

/-- An md5 and a sha256 digest in a binary file are 58 bytes, and 58 is a colon: the header
has three parts, and nothing is written. -/
theorem delSignature_colon :
    ∃ file, embed .bin [⟨.md5, List.replicate 32 0x30⟩, ⟨.sha256, List.replicate 64 0x30⟩] [1] =
        some file ∧ delSignature .bin file = none :=
  ⟨_, rfl, by decide +kernel⟩

end BeepMusic.Update
