import Mathlib.Data.List.GetD
import Mathlib.Data.List.Induction
import BeepMusic.Update.Signer

/-!
What the signer writes is what the verifier reads. An entry is read back whatever stands
behind it, in the binary format and in the formats with text; the lists follow by induction,
and the header gives the size of the list as long as the size fits into its field.
-/

namespace BeepMusic.Update

open Lib List

/-! ### Digits -/

theorem charToVal_of_hexVal {c : UInt8} {v : ℕ} (h : hexVal c = some v) :
    charToVal c = UInt8.ofNat v := by
  have hall : ∀ c, ∀ v ∈ hexVal c, charToVal c = UInt8.ofNat v := forall_byte (by decide +kernel)
  exact hall c v h

theorem or_shiftLeft_ofNat {v w : ℕ} (hv : v < 16) (hw : w < 16) :
    UInt8.ofNat w ||| UInt8.ofNat v <<< 4 = UInt8.ofNat (16 * v + w) := by
  have hall : ∀ v w : Fin 16,
      UInt8.ofNat w ||| UInt8.ofNat v <<< 4 = UInt8.ofNat (16 * v.val + w.val) := by decide
  exact hall ⟨v, hv⟩ ⟨w, hw⟩

theorem hexPairs_append {text : Bytes} (heven : text.length % 2 = 0) (low high : UInt8) :
    hexPairs (text ++ [low, high]) = hexPairs text ++ [charToVal low ||| charToVal high <<< 4] := by
  fun_induction hexPairs text with
  | case1 => rfl
  | case2 c => simp at heven
  | case3 low' high' rest ih =>
    have heven' : rest.length % 2 = 0 := by
      simp only [length_cons] at heven
      omega
    rw [cons_append, cons_append, hexPairs, ih heven', cons_append]

theorem hexToBuf_cons_cons (high low : UInt8) {rest : Bytes} (heven : rest.length % 2 = 0) :
    hexToBuf (high :: low :: rest) =
      (charToVal low ||| charToVal high <<< 4) :: hexToBuf rest := by
  have happend : (high :: low :: rest).reverse = rest.reverse ++ [low, high] := by simp
  rw [hexToBuf, happend, hexPairs_append (by simpa using heven)]
  simp [hexToBuf]

/-- Both programs make the same bytes of an even number of digits. -/
theorem hexStrToBin_eq {text : Bytes} (hdigits : ∀ c ∈ text, (hexVal c).isSome)
    (heven : text.length % 2 = 0) :
    hexStrToBin text = some (hexToBuf text) ∧ (hexToBuf text).length = text.length / 2 := by
  induction text using twoStepInduction with
  | nil => exact ⟨rfl, rfl⟩
  | singleton c => simp at heven
  | cons_cons high low rest ih _ =>
    obtain ⟨v, hv⟩ := Option.isSome_iff_exists.mp (hdigits high (by simp))
    obtain ⟨w, hw⟩ := Option.isSome_iff_exists.mp (hdigits low (by simp))
    have heven' : rest.length % 2 = 0 := by
      simp only [length_cons] at heven
      omega
    obtain ⟨hrest, hlength⟩ := ih (fun c hc => hdigits c (by simp [hc])) heven'
    rw [hexToBuf_cons_cons high low heven', hexStrToBin, hv, hw, hrest, charToVal_of_hexVal hv,
      charToVal_of_hexVal hw, or_shiftLeft_ofNat (hexVal_lt hv) (hexVal_lt hw)]
    refine ⟨rfl, ?_⟩
    simp only [length_cons, hlength]
    omega

theorem hexToBuf_hexEncode (bs : Bytes) : hexToBuf (hexEncode bs) = bs := by
  induction bs with
  | nil => rfl
  | cons b bs ih =>
    have hb := b.toNat_lt
    have hhigh : b.toNat / 16 < 16 := by omega
    have hlow : b.toNat % 16 < 16 := by omega
    have heven : (hexEncode bs).length % 2 = 0 := by
      simp [hexEncode, length_flatMap]
    have hbyte : 16 * (b.toNat / 16) + b.toNat % 16 = b.toNat := by omega
    rw [hexEncode, flatMap_cons, ← hexEncode, cons_append, cons_append,
      nil_append, hexToBuf_cons_cons _ _ heven, ih,
      charToVal_of_hexVal (hexVal_hexDigit hhigh), charToVal_of_hexVal (hexVal_hexDigit hlow),
      or_shiftLeft_ofNat hhigh hlow, hbyte, UInt8.ofNat_toNat]

variable {n : ℕ} {info : StyleInfo}

theorem bigEndian_hexToBuf_formatHex (width : ℕ) (h : n < 256 ^ width) :
    bigEndian (hexToBuf (formatHex (2 * width) n)) = n := by
  rw [formatHex_eq_hexEncode h, hexToBuf_hexEncode, bigEndian_toBytes h]

/-! ### Entries -/

theorem codeToMethod_digMethods (method : DigestMethod) :
    codeToMethod (digMethods method) = some method := by
  cases method <;> rfl

theorem digSize_of_isHash {method : DigestMethod} (h : isHash method = true) :
    digSize method = some (hashToHexSize method) := by
  cases method with
  | md5 | sha1 | sha256 | sha512 => rfl
  | signedSha256 | signedSha512 => cases h

theorem slice_append (a b c : Bytes) {start : ℕ} (hstart : start = a.length) (hn : n = b.length) :
    slice (a ++ (b ++ c)) start n = b := by
  subst hstart hn
  rw [slice, drop_left, take_left]

theorem getD_append_cons (a : Bytes) (x : UInt8) (c : Bytes) {i : ℕ} (hi : i = a.length) :
    (a ++ x :: c).getD i 0 = x := by
  subst hi
  simp

/-- An entry in some format. -/
def entryLine (fmt : EntryFormat) (method : DigestMethod) (sizeText text : Bytes) : Bytes :=
  fmt.start ++ (digMethods method :: colon :: (sizeText ++ colon ::
    (text ++ if fmt.trailingNewline then [newline] else [])))

section Entry

variable {env : Environment} {ftype : FileType} {fmt : EntryFormat} {method : DigestMethod}
  {sizeText text : Bytes}

theorem length_entryLine (hlength : sizeText.length = fmt.digSizeBytes) :
    (entryLine fmt method sizeText text).length = fmt.minSize + text.length := by
  cases hnewline : fmt.trailingNewline <;>
    · simp [entryLine, EntryFormat.minSize, hnewline]
      omega

/-- A buffer has the parts of an entry where the reader looks for them. -/
structure HasEntry (fmt : EntryFormat) (method : DigestMethod) (sizeText text buf : Bytes) :
    Prop where
  start : buf.take fmt.start.length = fmt.start
  code : buf.getD fmt.start.length 0 = digMethods method
  firstColon : buf.getD (fmt.start.length + 1) 0 = colon
  size : slice buf (fmt.start.length + 2) fmt.digSizeBytes = sizeText
  secondColon : buf.getD (fmt.start.length + fmt.digSizeBytes + 2) 0 = colon
  digest : slice buf (fmt.start.length + fmt.digSizeBytes + 3) text.length = text
  lastNewline : fmt.trailingNewline = true →
    buf.getD (fmt.minSize + text.length - 1) 0 = newline
  length : fmt.minSize + text.length ≤ buf.length

theorem hasEntry_entryLine (hlength : sizeText.length = fmt.digSizeBytes) (rest : Bytes) :
    HasEntry fmt method sizeText text (entryLine fmt method sizeText text ++ rest) := by
  have hnewline : fmt.trailingNewline = true →
      (entryLine fmt method sizeText text ++ rest).getD (fmt.minSize + text.length - 1) 0 =
        newline := by
    intro htrailing
    have happend : entryLine fmt method sizeText text ++ rest =
        (fmt.start ++ digMethods method :: colon :: (sizeText ++ colon :: text)) ++
          newline :: rest := by simp [entryLine, htrailing]
    rw [happend]
    apply getD_append_cons
    simp only [EntryFormat.minSize, htrailing, if_true, length_append, length_cons]
    omega
  have hlen : fmt.minSize + text.length ≤ (entryLine fmt method sizeText text ++ rest).length := by
    rw [length_append, length_entryLine hlength]
    omega
  have happend : entryLine fmt method sizeText text ++ rest =
      fmt.start ++ (digMethods method :: colon :: (sizeText ++ colon :: (text ++
        ((if fmt.trailingNewline then [newline] else []) ++ rest)))) := by simp [entryLine]
  -- from here on it does not matter what stands behind the digest
  rw [happend] at hnewline hlen ⊢
  generalize (if fmt.trailingNewline then [newline] else []) ++ rest = tail at hnewline hlen ⊢
  refine ⟨take_left, getD_append_cons _ _ _ rfl, by simp, ?_, ?_, ?_, hnewline, hlen⟩
  · simpa using slice_append (fmt.start ++ [digMethods method, colon]) sizeText
      (colon :: (text ++ tail)) (by simp) hlength.symm
  · rw [← hlength]
    simpa [Nat.add_assoc] using getD_append_cons
      (fmt.start ++ digMethods method :: colon :: sizeText) colon (text ++ tail) rfl
  · rw [← hlength]
    simpa [Nat.add_assoc] using slice_append
      (fmt.start ++ digMethods method :: colon :: (sizeText ++ [colon])) text tail rfl rfl

/-- The reader takes an entry apart again. -/
theorem createDigEntry_of_hasEntry {buf : Bytes} (hmalloc : ∀ n, env.malloc n = true)
    (hfmt : entryFormat ftype = some fmt)
    (hsize : bigEndian (if fmt.digInHex then hexToBuf sizeText else sizeText) = text.length)
    (hhash : isHash method = true →
      hashToHexSize method / 2 = if fmt.digInHex then text.length / 2 else text.length)
    (h : HasEntry fmt method sizeText text buf) :
    createDigEntry env buf ftype =
      .entry ⟨method, if fmt.digInHex then text.length / 2 else text.length,
        if fmt.digInHex then hexToBuf text else text⟩ (fmt.minSize + text.length) := by
  have hlen := h.length
  have hmin : 3 ≤ fmt.minSize := by
    unfold EntryFormat.minSize
    omega
  have hne : buf ≠ [] := by
    rintro rfl
    rw [length_nil] at hlen
    omega
  have hshort : ¬ buf.length < fmt.minSize := by omega
  have hwhole : ¬ buf.length < fmt.minSize + text.length := by omega
  have hentry : createEntry env fmt buf method text.length =
      .entry ⟨method, if fmt.digInHex then text.length / 2 else text.length,
        if fmt.digInHex then hexToBuf text else text⟩ (fmt.minSize + text.length) := by
    have hcolons : ¬ (buf.take fmt.start.length ≠ fmt.start ∨
        buf.getD (fmt.start.length + 1) 0 ≠ colon ∨
        buf.getD (fmt.start.length + fmt.digSizeBytes + 2) 0 ≠ colon) := by
      simp only [h.start, h.firstColon, h.secondColon, ne_eq, not_true_eq_false, or_self,
        not_false_eq_true]
    have hnewline : ¬ (fmt.trailingNewline = true ∧
        buf.getD (fmt.minSize + text.length - 1) 0 ≠ newline) :=
      fun ⟨htrailing, hne⟩ => hne (h.lastNewline htrailing)
    have hhash' : ¬ (isHash method = true ∧ hashToHexSize method / 2 ≠
        if fmt.digInHex then text.length / 2 else text.length) :=
      fun ⟨hish, hne⟩ => hne (hhash hish)
    unfold createEntry
    rw [if_neg hcolons, if_neg hnewline, if_neg (by simp [hmalloc]), if_neg hhash',
      if_neg (by simp [hmalloc]), h.digest]
  unfold createDigEntry
  rw [if_neg hne, hfmt]
  dsimp only
  rw [if_neg hshort, h.size, hsize, if_neg hwhole, h.code, codeToMethod_digMethods]
  exact hentry

end Entry

namespace OpensslEntry

variable (e : OpensslEntry)

theorem bytes_eq : e.bytes = hexToBuf e.digest := by
  rw [bytes, (hexStrToBin_eq e.digits e.even).1]
  rfl

theorem hexStrToBin_digest : hexStrToBin e.digest = some e.bytes := by
  rw [bytes_eq, (hexStrToBin_eq e.digits e.even).1]

theorem length_bytes : e.bytes.length = e.digest.length / 2 := by
  rw [bytes_eq, (hexStrToBin_eq e.digits e.even).2]

theorem hashToHexSize_eq (h : isHash e.method = true) :
    hashToHexSize e.method / 2 = e.digest.length / 2 := by
  rw [e.size _ (digSize_of_isHash h)]

/-- What is proved of the line of an entry. -/
def ReadBack (ftype : FileType) (line : Bytes) : Prop :=
  line ≠ [] ∧ ∀ env : Environment, (∀ n, env.malloc n = true) → ∀ rest,
    createDigEntry env (line ++ rest) ftype = .entry e.entry line.length

theorem readBack_bin : ∃ line, digLine ⟨[], [], false⟩ e.toDigEntry = some line ∧
    e.ReadBack .binary line := by
  have hshort : e.bytes.length < 256 ^ 2 := by
    have := e.short
    rw [length_bytes]
    omega
  have hpack : structPack 2 e.bytes.length = some (toBytes 2 e.bytes.length) := if_pos hshort
  refine ⟨entryLine ⟨[], 2, false, false⟩ e.method (toBytes 2 e.bytes.length) e.bytes, ?_, ?_, ?_⟩
  · simp [digLine, digEntryToBin, hexStrToBin_digest, hpack, entryLine]
  · simp [entryLine]
  · intro env hmalloc rest
    rw [length_entryLine (length_toBytes _ _)]
    refine createDigEntry_of_hasEntry hmalloc rfl ?_ ?_
      (hasEntry_entryLine (length_toBytes _ _) rest)
    · exact bigEndian_toBytes hshort
    · exact fun h => (e.hashToHexSize_eq h).trans e.length_bytes.symm

theorem readBack_str {ftype : FileType} {start : Bytes}
    (hfmt : entryFormat ftype = some ⟨start, 4, true, true⟩) :
    ∃ line, digLine ⟨start, [newline], true⟩ e.toDigEntry = some line ∧ e.ReadBack ftype line := by
  have hlength : (formatHex 4 e.digest.length).length = 4 := length_formatHex_of_lt e.short
  refine ⟨entryLine ⟨start, 4, true, true⟩ e.method (formatHex 4 e.digest.length) e.digest,
    ?_, ?_, ?_⟩
  · simp [digLine, digEntryToStr, entryLine]
  · simp [entryLine]
  · intro env hmalloc rest
    rw [length_entryLine hlength, entry, length_bytes, bytes_eq]
    refine createDigEntry_of_hasEntry hmalloc hfmt ?_ ?_ (hasEntry_entryLine hlength rest)
    · exact bigEndian_hexToBuf_formatHex 2 e.short
    · exact e.hashToHexSize_eq

theorem readBack_digLine {style : DigStyle} {info : StyleInfo}
    (hinfo : styleInfo style = some info) :
    ∃ line, digLine info e.toDigEntry = some line ∧ e.ReadBack style.ftype line := by
  cases style with try obtain rfl := Option.some.inj hinfo
  | bin => exact e.readBack_bin
  | lua | sh | yml => exact e.readBack_str rfl
  | manifest => cases hinfo

end OpensslEntry

/-! ### Lists of entries -/

theorem digestData_cons {e : DigEntry} {digList : List DigEntry} {line data : Bytes}
    (hline : digLine info e = some line) (hdata : digestData info digList = some data) :
    digestData info (e :: digList) = some (line ++ data) := by
  obtain ⟨lines, hlines, rfl⟩ := Option.map_eq_some_iff.mp hdata
  simp [digestData, mapM_cons, hline, hlines]

/-- The digest data has at least a byte for each entry, and is read back. -/
theorem readBack_digestData {style : DigStyle} (hinfo : styleInfo style = some info)
    (entries : List OpensslEntry) :
    ∃ data, digestData info (entries.map OpensslEntry.toDigEntry) = some data ∧
      entries.length ≤ data.length ∧
      ∀ env : Environment, (∀ n, env.malloc n = true) → ∀ fuel count, data.length ≤ fuel →
        digEntries env style.ftype fuel count data = .ok (entries.map OpensslEntry.entry) := by
  induction entries with
  | nil =>
    refine ⟨[], rfl, Nat.le_refl 0, fun env _ fuel count _ => ?_⟩
    cases fuel <;> rfl
  | cons e entries ih =>
    obtain ⟨data, hdata, hle, hread⟩ := ih
    obtain ⟨line, hline, hne, hentry⟩ := e.readBack_digLine hinfo
    have hpos : 0 < line.length := length_pos_iff.mpr hne
    refine ⟨line ++ data, digestData_cons hline hdata, ?_, ?_⟩
    · rw [length_cons, length_append]
      omega
    · intro env hmalloc fuel count hfuel
      rw [length_append] at hfuel
      obtain ⟨fuel, rfl⟩ : ∃ f, fuel = f + 1 := ⟨fuel - 1, by omega⟩
      obtain ⟨b, buf, hbuf⟩ :=
        exists_cons_of_ne_nil (append_ne_nil_of_left_ne_nil hne data)
      rw [hbuf, digEntries, ← hbuf, hentry env hmalloc data]
      dsimp only
      rw [drop_left, hread env hmalloc fuel (count + 1) (by omega)]
      rfl

/-! ### The header -/

theorem readDigSizeMem_bin (h : n < 256 ^ 4) (rest : Bytes) :
    readDigSizeMem (signedMagicBytes ++ colon :: (toBytes 4 n ++ rest)) .binary = .ok n := by
  have hmagic : slice (signedMagicBytes ++ colon :: (toBytes 4 n ++ rest)) 0 4 =
      signedMagicBytes := slice_append [] signedMagicBytes _ rfl rfl
  have hsize : slice (signedMagicBytes ++ colon :: (toBytes 4 n ++ rest)) 5 4 = toBytes 4 n :=
    slice_append (signedMagicBytes ++ [colon]) (toBytes 4 n) rest rfl (length_toBytes 4 n).symm
  have hvalue : bigEndian signedMagicBytes = signedMagic := by decide
  have hcolon : (signedMagicBytes ++ colon :: (toBytes 4 n ++ rest)).getD 4 0 = colon :=
    getD_append_cons signedMagicBytes colon _ rfl
  unfold readDigSizeMem
  rw [if_neg (by decide), if_pos rfl, if_neg (not_not.mpr hcolon), hmagic,
    if_neg (not_not.mpr hvalue), hsize, bigEndian_toBytes h]

section Text

variable {ftype : FileType}

/-- The header of the formats with text, with the digits of the size. -/
def textHdr (ftype : FileType) (size : Bytes) : Bytes :=
  scriptPrefix ftype ++ (hexEncode signedMagicBytes ++ colon :: size)

theorem textHdr_append (ftype : FileType) (size rest : Bytes) :
    textHdr ftype size ++ rest =
      (scriptPrefix ftype ++ (hexEncode signedMagicBytes ++ [colon])) ++ (size ++ rest) := by
  simp [textHdr]

theorem length_textHdr_start (ftype : FileType) :
    (scriptPrefix ftype ++ (hexEncode signedMagicBytes ++ [colon])).length =
      (scriptPrefix ftype).length + 9 := by
  simp [hexEncode, signedMagicBytes]

/-- If the size does not have eight digits, there is no newline where it has to be. -/
theorem readDigSizeMem_textHdr (hftype : ftype ≠ .binary)
    (hhdr : ftypeHdrSize ftype = (scriptPrefix ftype).length + 18) (size rest : Bytes) :
    readDigSizeMem (textHdr ftype size ++ rest) ftype =
      if (size ++ rest).getD 8 0 ≠ newline then .error .digFail
      else .ok (bigEndian (hexToBuf ((size ++ rest).take 8))) := by
  have happend : textHdr ftype size ++ rest =
      scriptPrefix ftype ++ (hexEncode signedMagicBytes ++ colon :: (size ++ rest)) := by
    simp [textHdr]
  have hstart : (textHdr ftype size ++ rest).take (scriptPrefix ftype).length =
      scriptPrefix ftype := by
    rw [happend]
    exact take_left
  have hlength := length_textHdr_start ftype
  have hnewline : (textHdr ftype size ++ rest).getD (ftypeHdrSize ftype - 1) 0 =
      (size ++ rest).getD 8 0 := by
    rw [textHdr_append, getD_append_right _ _ _ _ (by omega), hlength, hhdr]
    congr 1
    omega
  have hcolon : (textHdr ftype size ++ rest).getD (ftypeHdrSize ftype - 10) 0 = colon := by
    have hassoc : textHdr ftype size ++ rest =
        (scriptPrefix ftype ++ hexEncode signedMagicBytes) ++ colon :: (size ++ rest) := by
      simp [textHdr]
    rw [hassoc, hhdr]
    exact getD_append_cons _ _ _ (by simp [hexEncode, signedMagicBytes])
  have hmagic : slice (textHdr ftype size ++ rest) (ftypeHdrSize ftype - 18) 8 =
      hexEncode signedMagicBytes := by
    rw [happend, hhdr]
    exact slice_append _ _ _ (by omega) rfl
  have hvalue : bigEndian (hexToBuf (hexEncode signedMagicBytes)) = signedMagic := by
    decide
  have hsize : slice (textHdr ftype size ++ rest) (ftypeHdrSize ftype - 9) 8 =
      (size ++ rest).take 8 := by
    rw [textHdr_append, slice, drop_left' (by omega)]
  unfold readDigSizeMem
  dsimp only
  rw [if_neg (by omega), if_neg hftype, hstart, if_neg (not_not.mpr rfl), hnewline, hcolon, hmagic,
    if_neg (not_not.mpr hvalue), hsize]
  simp

theorem readDigSizeMem_textHdr_of_lt (hftype : ftype ≠ .binary)
    (hhdr : ftypeHdrSize ftype = (scriptPrefix ftype).length + 18) {n : ℕ} (h : n < 256 ^ 4)
    (rest : Bytes) :
    readDigSizeMem (textHdr ftype (formatHex 8 n ++ [newline]) ++ rest) ftype = .ok n := by
  have hlength : (formatHex 8 n).length = 8 := length_formatHex_of_lt h
  have htake : (formatHex 8 n ++ [newline] ++ rest).take 8 = formatHex 8 n := by
    rw [append_assoc]
    exact take_left' hlength
  have hnewline : (formatHex 8 n ++ [newline] ++ rest).getD 8 0 = newline := by
    rw [append_assoc]
    exact getD_append_cons _ _ _ hlength.symm
  rw [readDigSizeMem_textHdr hftype hhdr, if_neg (not_not.mpr hnewline), htake,
    bigEndian_hexToBuf_formatHex 4 h]

/-- A size with more than eight digits is not accepted. -/
theorem readDigSizeMem_textHdr_of_le (hftype : ftype ≠ .binary)
    (hhdr : ftypeHdrSize ftype = (scriptPrefix ftype).length + 18) {n : ℕ} (h : 256 ^ 4 ≤ n)
    (rest : Bytes) :
    readDigSizeMem (textHdr ftype (formatHex 8 n ++ [newline]) ++ rest) ftype =
      .error .digFail := by
  have hlength : 8 < (formatHex 8 n).length := lt_length_formatHex h
  have hdigit : (formatHex 8 n).getD 8 0 ≠ newline := by
    rw [getD_eq_getElem _ _ hlength]
    obtain ⟨d, hd, hc⟩ := mem_formatHex (getElem_mem hlength)
    rw [hc]
    have hall : ∀ d : Fin 16, hexDigit d ≠ newline := by decide
    exact hall ⟨d, hd⟩
  rw [readDigSizeMem_textHdr hftype hhdr, append_assoc, getD_append _ _ _ _ hlength,
    if_pos hdigit]

theorem take_textHdr (hhdr : ftypeHdrSize ftype = (scriptPrefix ftype).length + 18)
    (size rest : Bytes) :
    (textHdr ftype size ++ rest).take (ftypeHdrSize ftype) =
      textHdr ftype ((size ++ rest).take 9) := by
  have hlength := length_textHdr_start ftype
  rw [textHdr_append, take_append, take_of_length_le (by omega), hlength, hhdr,
    Nat.add_sub_add_left]
  simp [textHdr]

theorem readDigSizeMem_take_textHdr (hftype : ftype ≠ .binary)
    (hhdr : ftypeHdrSize ftype = (scriptPrefix ftype).length + 18) (size rest : Bytes) :
    readDigSizeMem ((textHdr ftype size ++ rest).take (ftypeHdrSize ftype)) ftype =
      readDigSizeMem (textHdr ftype size ++ rest) ftype := by
  have hnewline : ((size ++ rest).take 9 ++ []).getD 8 0 = (size ++ rest).getD 8 0 := by
    simp [getD_eq_getElem?_getD]
  have htake : ((size ++ rest).take 9 ++ []).take 8 = (size ++ rest).take 8 := by
    simp [take_take]
  rw [take_textHdr hhdr, ← append_nil (textHdr ftype ((size ++ rest).take 9)),
    readDigSizeMem_textHdr hftype hhdr, readDigSizeMem_textHdr hftype hhdr, hnewline, htake]

end Text

/-- The header gives the size of the digest data, if that fits into four bytes. -/
theorem readBack_digestHdr {style : DigStyle} (hinfo : styleInfo style = some info)
    (h : n < 256 ^ 4) :
    ∃ hdr, digestHdr info n = some hdr ∧ hdr.length = ftypeHdrSize style.ftype ∧
      ∀ rest, readDigSizeMem (hdr ++ rest) style.ftype = .ok n := by
  have htext : ∀ ftype : FileType, ftype ≠ .binary →
      ftypeHdrSize ftype = (scriptPrefix ftype).length + 18 →
      ∃ hdr, digestHdr ⟨scriptPrefix ftype, [newline], true⟩ n = some hdr ∧
        hdr.length = ftypeHdrSize ftype ∧ ∀ rest, readDigSizeMem (hdr ++ rest) ftype = .ok n := by
    intro ftype hftype hhdr
    have hlength : (formatHex 8 n).length = 8 := length_formatHex_of_lt h
    refine ⟨textHdr ftype (formatHex 8 n ++ [newline]), rfl, ?_,
      readDigSizeMem_textHdr_of_lt hftype hhdr h⟩
    simp [textHdr, hlength, hhdr, hexEncode, signedMagicBytes]
  cases style with try obtain rfl := Option.some.inj hinfo
  | bin =>
    have hpack : structPack 4 n = some (toBytes 4 n) := if_pos h
    refine ⟨signedMagicBytes ++ colon :: toBytes 4 n, by simp [digestHdr, hpack], ?_, ?_⟩
    · simp [signedMagicBytes, DigStyle.ftype, ftypeHdrSize]
    · intro rest
      exact readDigSizeMem_bin h rest
  | lua => exact htext .lua (by decide) rfl
  | sh => exact htext .sh (by decide) rfl
  | yml => exact htext .yml (by decide) rfl
  | manifest => cases hinfo

/-! ### Whole files -/

section Whole

variable {env : Environment} {ftype : FileType} {hdr data : Bytes} {digList : List DigestEntry}

theorem ftypeHdrSize_ne_zero (hftype : isFtype ftype = true) : ftypeHdrSize ftype ≠ 0 := by
  cases ftype with
  | binary | lua | sh | yml => decide
  | unknown | manifest => cases hftype

theorem readDigListMem_append (hftype : isFtype ftype = true)
    (hlength : hdr.length = ftypeHdrSize ftype)
    (hsize : ∀ rest, readDigSizeMem (hdr ++ rest) ftype = .ok data.length)
    (hdata : createDigList env data ftype = .ok digList) (payload : Bytes) :
    readDigListMem env (hdr ++ (data ++ payload)) ftype =
      .ok ((hdr ++ data).length, digList) := by
  have hne := ftypeHdrSize_ne_zero hftype
  have hwhole : ¬ (hdr ++ (data ++ payload)).length < ftypeHdrSize ftype + data.length := by
    simp only [length_append, hlength]
    omega
  unfold readDigListMem
  rw [if_neg hne, hsize]
  dsimp only
  rw [if_neg hwhole, slice_append hdr data payload hlength.symm rfl, hdata, length_append,
    hlength]

theorem readDigListFile_append (hmalloc : ∀ n, env.malloc n = true)
    (hftype : isFtype ftype = true) (hlength : hdr.length = ftypeHdrSize ftype)
    (hsize : ∀ rest, readDigSizeMem (hdr ++ rest) ftype = .ok data.length)
    (hdata : createDigList env data ftype = .ok digList) (payload : Bytes) (pos : ℕ) :
    readDigListFile env ⟨hdr ++ (data ++ payload), pos⟩ ftype =
      (.ok digList, ⟨hdr ++ (data ++ payload), (hdr ++ data).length⟩) := by
  have hne := ftypeHdrSize_ne_zero hftype
  have hhdr : (File.seek ⟨hdr ++ (data ++ payload), pos⟩ 0).read (ftypeHdrSize ftype) =
      (hdr, ⟨hdr ++ (data ++ payload), ftypeHdrSize ftype⟩) := by
    simp [File.seek, File.read, File.rest, ← hlength]
  have hread : File.read ⟨hdr ++ (data ++ payload), ftypeHdrSize ftype⟩ data.length =
      (data, ⟨hdr ++ (data ++ payload), (hdr ++ data).length⟩) := by
    simp [File.read, File.rest, ← hlength]
  have hsize' : readDigSizeFile ⟨hdr ++ (data ++ payload), pos⟩ ftype =
      (.ok data.length, ⟨hdr ++ (data ++ payload), ftypeHdrSize ftype⟩) := by
    unfold readDigSizeFile
    dsimp only
    rw [if_neg hne, hhdr]
    rw [if_neg (not_not.mpr hlength), ← append_nil hdr, hsize, append_nil]
  unfold readDigListFile
  rw [if_neg (by simp [hftype]), hsize']
  dsimp only
  rw [if_neg (by simp [hmalloc]), hread]
  rw [if_neg (not_not.mpr rfl), hdata]

theorem readDigListFile_reject {bytes : Bytes} (hftype : isFtype ftype = true)
    (hreject : readDigSizeMem (bytes.take (ftypeHdrSize ftype)) ftype = .error .digFail) (pos : ℕ) :
    (readDigListFile env ⟨bytes, pos⟩ ftype).1 = .error .digFail := by
  have hsize : (readDigSizeFile ⟨bytes, pos⟩ ftype).1 = .error .digFail := by
    unfold readDigSizeFile
    dsimp only
    rw [if_neg (ftypeHdrSize_ne_zero hftype)]
    split
    · rfl
    · exact hreject
  unfold readDigListFile
  rw [if_neg (by simp [hftype])]
  split
  · rename_i heq
    rw [heq] at hsize
    exact congrArg Except.error (Except.error.inj hsize)
  · rename_i heq
    rw [heq] at hsize
    cases hsize

end Whole

/-- The size of the digest data. -/
def digestDataSize (style : DigStyle) (digList : List DigEntry) : ℕ :=
  (((styleInfo style).bind fun info => digestData info digList).getD []).length

/-- Whatever is put before a file in any style is read back, from the file and from memory,
and ends where the file begins; but the digest data must have less than four gigabytes. -/
theorem signer_verifier_agree (env : Environment) (hmalloc : ∀ n, env.malloc n = true)
    (style : DigStyle) (hstyle : style ≠ .manifest) (entries : List OpensslEntry)
    (hentries : entries ≠ []) (payload : Bytes)
    (hsize : digestDataSize style (entries.map OpensslEntry.toDigEntry) < 4294967296) :
    ∃ header, digestStr style (entries.map OpensslEntry.toDigEntry) = some header ∧
      embed style (entries.map OpensslEntry.toDigEntry) payload = some (header ++ payload) ∧
      (∀ pos, readDigListFile env ⟨header ++ payload, pos⟩ style.ftype =
        (.ok (entries.map OpensslEntry.entry), ⟨header ++ payload, header.length⟩)) ∧
      readDigListMem env (header ++ payload) style.ftype =
        .ok (header.length, entries.map OpensslEntry.entry) := by
  obtain ⟨info, hinfo⟩ : ∃ info, styleInfo style = some info := by
    cases style with
    | bin | lua | sh | yml => exact ⟨_, rfl⟩
    | manifest => exact absurd rfl hstyle
  have hftype : isFtype style.ftype = true := by
    cases style with
    | bin | lua | sh | yml => rfl
    | manifest => exact absurd rfl hstyle
  obtain ⟨data, hdata, hle, hread⟩ := readBack_digestData hinfo entries
  have hdataSize : data.length < 256 ^ 4 := by
    simpa [digestDataSize, hinfo, hdata] using hsize
  obtain ⟨hdr, hhdr, hlength, hhdrSize⟩ := readBack_digestHdr hinfo hdataSize
  have hstr : digestStr style (entries.map OpensslEntry.toDigEntry) = some (hdr ++ data) := by
    simp [digestStr, hinfo, hdata, hhdr]
  have hlist : createDigList env data style.ftype = .ok (entries.map OpensslEntry.entry) := by
    have hne : data ≠ [] := by
      have := length_pos_iff.mpr hentries
      exact length_pos_iff.mp (by omega)
    rw [createDigList, if_neg hne, hread env hmalloc _ _ (Nat.le_refl _)]
  refine ⟨hdr ++ data, hstr, by simp [embed, hstr], fun pos => ?_, ?_⟩
  · rw [append_assoc]
    exact readDigListFile_append hmalloc hftype hlength hhdrSize hlist payload pos
  · rw [append_assoc]
    exact readDigListMem_append hftype hlength hhdrSize hlist payload

/-- The hash of nothing. -/
def emptyMd5 : OpensslEntry where
  method := .md5
  digest := ascii "d41d8cd98f00b204e9800998ecf8427e"
  digits := by decide +kernel
  even := by decide +kernel
  size := by decide +kernel
  short := by decide +kernel

/-- A short signature with the key 7. -/
def shortSignature : OpensslEntry where
  method := .signedSha256
  digest := ascii "0000000701ab"
  digits := by decide +kernel
  even := by decide +kernel
  size := by decide +kernel
  short := by decide +kernel

/-- Libraries with nothing but memory. -/
def memoryEnv : Environment where
  publicKeys := []
  malloc _ := true
  loadKey _ := false
  verifyInit _ := false
  verifyUpdate _ _ := false
  verifyFinal _ _ _ _ := false
  digestUpdate _ _ := false
  digestFinal _ _ := none

/-- What is put before a script. -/
def scriptHeader : Bytes :=
  ascii "# b5b9debc:00000040\n# 0:0020:d41d8cd98f00b204e9800998ecf8427e\n# 4:000c:0000000701ab\n"

theorem signer_verifier_agree_script :
    digestStr .sh [emptyMd5.toDigEntry, shortSignature.toDigEntry] = some scriptHeader ∧
      readDigListMem memoryEnv (scriptHeader ++ ascii "exit 0") .sh =
        .ok (84, [emptyMd5.entry, shortSignature.entry]) ∧
      shortSignature.entry = ⟨.signedSha256, 6, [0, 0, 0, 7, 1, 0xab]⟩ := by
  have hstr : digestStr .sh [emptyMd5.toDigEntry, shortSignature.toDigEntry] =
      some scriptHeader := by decide +kernel
  have hlength : scriptHeader.length = 84 := by decide +kernel
  obtain ⟨header, hheader, -, -, hmem⟩ := signer_verifier_agree memoryEnv (fun _ => rfl) .sh
    (by decide) [emptyMd5, shortSignature] (by simp) (ascii "exit 0") (by decide +kernel)
  obtain rfl : scriptHeader = header := Option.some.inj (hstr.symm.trans hheader)
  exact ⟨hstr, hlength ▸ hmem, by decide +kernel⟩

/-- More than four gigabytes of entries have a header that the verifier does not accept. -/
theorem readDigList_of_le {entries : List OpensslEntry} (h : 256 ^ 4 ≤ entries.length) :
    ∃ header, digestStr .lua (entries.map OpensslEntry.toDigEntry) = some header ∧
      ∀ env payload, readDigListMem env (header ++ payload) .lua = .error .digFail ∧
        (readDigListFile env ⟨header ++ payload, 0⟩ .lua).1 = .error .digFail := by
  have hinfo : styleInfo .lua = some ⟨scriptPrefix .lua, [newline], true⟩ := rfl
  obtain ⟨data, hdata, hle, -⟩ := readBack_digestData hinfo entries
  have hsize : 256 ^ 4 ≤ data.length := h.trans hle
  have hstr : digestStr .lua (entries.map OpensslEntry.toDigEntry) =
      some (textHdr .lua (formatHex 8 data.length ++ [newline]) ++ data) := by
    rw [digestStr, hinfo]
    dsimp only
    rw [hdata]
    rfl
  refine ⟨_, hstr, fun env payload => ?_⟩
  rw [append_assoc]
  have hlua : FileType.lua ≠ .binary := by decide
  have hreject := readDigSizeMem_textHdr_of_le hlua rfl hsize (data ++ payload)
  constructor
  · unfold readDigListMem
    rw [if_neg (by decide), hreject]
  · exact readDigListFile_reject rfl ((readDigSizeMem_take_textHdr hlua rfl _ _).trans hreject) 0

theorem exists_length_eq (n : ℕ) : ∃ entries : List OpensslEntry, entries.length = n :=
  ⟨replicate n emptyMd5, length_replicate⟩

theorem signer_verifier_disagree :
    ∃ entries : List OpensslEntry, entries ≠ [] ∧
      ∃ header, digestStr .lua (entries.map OpensslEntry.toDigEntry) = some header ∧
        ∀ env payload, readDigListMem env (header ++ payload) .lua = .error .digFail ∧
          (readDigListFile env ⟨header ++ payload, 0⟩ .lua).1 = .error .digFail := by
  obtain ⟨entries, hlength⟩ := exists_length_eq (256 ^ 4)
  refine ⟨entries, ?_, readDigList_of_le hlength.ge⟩
  rintro rfl
  cases hlength

end BeepMusic.Update
