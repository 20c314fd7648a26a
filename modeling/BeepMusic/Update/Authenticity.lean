import BeepMusic.Update.Package

/-!
What is verified is what is read: a file that passes `verify_embedded_file` with
signatures required has a signature, by a key of the database, for everything
behind its digest data, and a reader of the package sees nothing else. A package is
compared with a view that has only the verified bytes.
-/

namespace BeepMusic.Update

open Lib List

/-- Where the digest data of a file ends. -/
def digestEnd (ftype : FileType) (bytes : Bytes) : ℕ :=
  match readDigSizeMem (bytes.take (ftypeHdrSize ftype)) ftype with
  | .ok digSize => ftypeHdrSize ftype + digSize
  | .error _ => 0

/-- Everything behind the digest data. -/
def signedRange (ftype : FileType) (bytes : Bytes) : Bytes := bytes.drop (digestEnd ftype bytes)

/-- The digest data of a file has a signature that was checked, with a key of the
database, over exactly the bytes behind the digest data. -/
def Authentic (env : Environment) (ftype : FileType) (bytes : Bytes) : Prop :=
  ∃ digSize entries e key fed,
    readDigSizeMem (bytes.take (ftypeHdrSize ftype)) ftype = .ok digSize ∧
    ftypeHdrSize ftype + digSize ≤ bytes.length ∧
    createDigList env (slice bytes (ftypeHdrSize ftype) digSize) ftype = .ok entries ∧
    e ∈ entries ∧ isSignature e.digMethod = true ∧
    key ∈ env.publicKeys ∧ key.id = e.keyId ∧
    List.flatten fed = signedRange ftype bytes ∧
    env.verifyFinal e.digMethod fed e.signature key = true

section Verify

variable {env : Environment} {ftype : FileType} {bytes : Bytes} {stream stream' : File}
  {e : DigestEntry}

theorem readDigSizeFile_ok {digSize : ℕ}
    (h : readDigSizeFile stream ftype = (.ok digSize, stream')) :
    readDigSizeMem (stream.bytes.take (ftypeHdrSize ftype)) ftype = .ok digSize ∧
      stream' = ⟨stream.bytes, ftypeHdrSize ftype⟩ := by
  simp only [readDigSizeFile] at h
  split_ifs at h with hzero hlength
  · simp at h
  · simp at h
  · obtain ⟨hsize, rfl⟩ := Prod.mk.inj h
    have hread : ((stream.seek 0).read (ftypeHdrSize ftype)).1 =
        stream.bytes.take (ftypeHdrSize ftype) := rfl
    refine ⟨hread ▸ hsize, ?_⟩
    have hfull : (stream.bytes.take (ftypeHdrSize ftype)).length = ftypeHdrSize ftype :=
      not_not.mp hlength
    show File.mk stream.bytes (0 + (stream.bytes.take (ftypeHdrSize ftype)).length) = _
    rw [hfull, Nat.zero_add]

theorem readDigListFile_ok {entries : List DigestEntry}
    (h : readDigListFile env stream ftype = (.ok entries, stream')) :
    ∃ digSize, readDigSizeMem (stream.bytes.take (ftypeHdrSize ftype)) ftype = .ok digSize ∧
      ftypeHdrSize ftype + digSize ≤ stream.bytes.length ∧
      createDigList env (slice stream.bytes (ftypeHdrSize ftype) digSize) ftype = .ok entries ∧
      stream' = ⟨stream.bytes, ftypeHdrSize ftype + digSize⟩ := by
  simp only [readDigListFile] at h
  split_ifs at h with hftype
  · simp at h
  · split at h
    · simp at h
    · rename_i digSize middle hsize
      obtain ⟨hmem, rfl⟩ := readDigSizeFile_ok hsize
      split_ifs at h with hmalloc hlength
      · simp at h
      · simp at h
      · obtain ⟨hlist, rfl⟩ := Prod.mk.inj h
        have hfull : (slice stream.bytes (ftypeHdrSize ftype) digSize).length = digSize :=
          not_not.mp hlength
        refine ⟨digSize, hmem, ?_, hlist, ?_⟩
        · rw [slice, length_take, length_drop] at hfull
          rcases Nat.eq_zero_or_pos digSize with rfl | hpos
          · simp [createDigList, File.read, File.rest] at hlist
          · omega
        · show File.mk stream.bytes (ftypeHdrSize ftype +
            (slice stream.bytes (ftypeHdrSize ftype) digSize).length) = _
          rw [hfull]

theorem getSslKeyData_ok {keyId : ℕ} {key : PublicKey} (h : getSslKeyData env keyId = .ok key) :
    key ∈ env.publicKeys ∧ key.id = keyId := by
  simp only [getSslKeyData] at h
  split at h
  · simp at h
  · rename_i publicKey hfind
    split_ifs at h
    obtain rfl := Except.ok.inj h
    exact ⟨mem_of_find?_eq_some hfind, by simpa using find?_some hfind⟩

theorem getSslKeyData_error {keyId : ℕ} : getSslKeyData env keyId ≠ .error .ok := by
  simp only [getSslKeyData]
  split
  · simp
  · split <;> simp

/-- The context of a check that succeeds has been fed the rest of the file. -/
theorem checkSignature_ok {key : PublicKey} (h : checkSignature env stream e key = .ok) :
    ∃ fed, List.flatten fed = stream.rest ∧
      env.verifyFinal e.digMethod fed e.signature key = true := by
  simp only [checkSignature] at h
  split at h
  · simp at h
  · simp at h
  · rename_i fed final hfeed
    split_ifs at h with hfinal
    have hflatten := File.flatten_feed (by simp [File.rest]) hfeed
    exact ⟨fed, by simpa using hflatten, hfinal⟩

/-! No function fails with the code for success. -/

theorem readDigSizeFile_error {f : File} : readDigSizeFile stream ftype ≠ (.error .ok, f) := by
  simp only [readDigSizeFile, readDigSizeMem]
  split_ifs <;> simp

theorem createEntry_fail {fmt : EntryFormat} {buf : Bytes} {digMethod : DigestMethod}
    {digSize : ℕ} : createEntry env fmt buf digMethod digSize ≠ .fail .ok := by
  simp only [createEntry]
  split_ifs <;> simp

theorem createDigEntry_fail {buf : Bytes} : createDigEntry env buf ftype ≠ .fail .ok := by
  rw [createDigEntry]
  split
  · simp
  · split
    · simp
    · dsimp only
      split
      · simp
      · generalize bigEndian _ = digSize
        split
        · simp
        · split
          · simp
          · exact createEntry_fail

theorem digEntries_error {fuel count : ℕ} {buf : Bytes} :
    digEntries env ftype fuel count buf ≠ .error .ok := by
  induction fuel generalizing count buf with
  | zero => cases buf <;> simp [digEntries]
  | succ fuel ih =>
    cases buf with
    | nil => simp [digEntries]
    | cons b buf =>
      rw [digEntries]
      split
      · rename_i code hcode
        split
        · simp
        · intro heq
          rw [Except.error.inj heq] at hcode
          exact createDigEntry_fail hcode
      · exact ih
      · rename_i e entrySize _
        cases hrest : digEntries env ftype fuel (count + 1) ((b :: buf).drop entrySize) with
        | ok entries => simp [Except.map]
        | error code =>
          intro heq
          exact ih (hrest.trans heq)

theorem readDigListFile_error {f : File} : readDigListFile env stream ftype ≠ (.error .ok, f) := by
  rw [readDigListFile]
  split
  · simp
  · split
    · rename_i code middle hsize
      intro heq
      rw [(Except.error.inj (Prod.mk.inj heq).1)] at hsize
      exact readDigSizeFile_error hsize
    · dsimp only
      split
      · simp
      · split
        · simp
        · intro heq
          have hlist := (Prod.mk.inj heq).1
          rw [createDigList] at hlist
          split at hlist
          · simp at hlist
          · exact digEntries_error hlist

/-- A signature that checks is by a key of the database, for the rest of the file. -/
theorem verifySignatureFile_ok (h : verifySignatureFile env stream e = (.ok, stream')) :
    isSignature e.digMethod = true ∧ stream' = stream ∧
      ∃ key ∈ env.publicKeys, key.id = e.keyId ∧ ∃ fed, List.flatten fed = stream.rest ∧
        env.verifyFinal e.digMethod fed e.signature key = true := by
  rw [verifySignatureFile] at h
  split at h
  · simp at h
  · rename_i hargs
    have hsignature : isSignature e.digMethod = true := by
      cases hsig : isSignature e.digMethod with
      | true => rfl
      | false => exact absurd (.inl hsig) hargs
    split at h
    · rename_i code hkey
      obtain ⟨rfl, -⟩ := Prod.mk.inj h
      exact absurd hkey getSslKeyData_error
    · rename_i key hkey
      split_ifs at h
      · simp at h
      · simp at h
      · obtain ⟨hcheck, rfl⟩ := Prod.mk.inj h
        obtain ⟨hmem, hid⟩ := getSslKeyData_ok hkey
        exact ⟨hsignature, rfl, key, hmem, hid, checkSignature_ok hcheck⟩

theorem stream_verifySignatureFile : (verifySignatureFile env stream e).2 = stream := by
  rw [verifySignatureFile]
  split
  · rfl
  · split
    · rfl
    · split_ifs <;> rfl

/-- With signatures required, success comes from a signature entry, and leaves the
stream where the digest data ends. -/
theorem checkEntries_ok {startPos : ℕ} {entries : List DigestEntry} {found : Option DigestEntry}
    (h : checkEntries env true startPos entries stream = (.ok, found, stream')) :
    ∃ e ∈ entries, verifySignatureFile env (stream.seek startPos) e = (.ok, stream') := by
  induction entries generalizing stream with
  | nil => simp [checkEntries] at h
  | cons e rest ih =>
    have hrest : ∀ middle : File, middle.seek startPos = stream.seek startPos →
        checkEntries env true startPos rest middle = (.ok, found, stream') →
        ∃ e' ∈ e :: rest, verifySignatureFile env (stream.seek startPos) e' = (.ok, stream') := by
      intro middle hmiddle hrun
      obtain ⟨e', he', hverify⟩ := ih hrun
      exact ⟨e', mem_cons_of_mem e he', hmiddle ▸ hverify⟩
    rw [checkEntries] at h
    cases hhash : isHash e.digMethod with
    | true =>
      rw [hhash] at h
      exact hrest stream rfl h
    | false =>
      simp only [hhash, Bool.and_false, Bool.false_eq_true, if_false] at h
      split_ifs at h with hsig hcode
      · -- the key is not known, and the stream has been put back
        rw [stream_verifySignatureFile] at h
        exact hrest (stream.seek startPos) rfl h
      · obtain ⟨hok, hstream⟩ := Prod.mk.inj h
        refine ⟨e, mem_cons_self, ?_⟩
        exact Prod.ext hok (Prod.mk.inj hstream).2
      · exact hrest (stream.seek startPos) rfl h

/-- What a successful verification means, and where it leaves the stream. -/
theorem verifyEmbeddedFile_ok (h : (verifyEmbeddedFile env stream ftype true).code = .ok) :
    Authentic env ftype stream.bytes ∧
      (verifyEmbeddedFile env stream ftype true).stream =
        ⟨stream.bytes, digestEnd ftype stream.bytes⟩ := by
  cases hread : readDigListFile env stream ftype with
  | mk result middle =>
    cases result with
    | error code =>
      simp only [verifyEmbeddedFile, hread] at h
      split at h
      · simp at h
      · obtain rfl : code = .ok := h
        exact absurd hread readDigListFile_error
    | ok entries =>
      obtain ⟨digSize, hsize, hle, hlist, rfl⟩ := readDigListFile_ok hread
      have hend : digestEnd ftype stream.bytes = ftypeHdrSize ftype + digSize := by
        rw [digestEnd, hsize]
      cases hcheck : checkEntries env true (ftypeHdrSize ftype + digSize) entries
          ⟨stream.bytes, ftypeHdrSize ftype + digSize⟩ with
      | mk code final =>
        obtain ⟨found, final⟩ := final
        simp only [verifyEmbeddedFile, hread, hcheck] at h ⊢
        split at h
        · simp at h
        · rename_i hftype
          obtain rfl : code = .ok := h
          obtain ⟨e, he, hverify⟩ := checkEntries_ok hcheck
          obtain ⟨hsig, rfl, key, hkey, hid, fed, hfed, hfinal⟩ :=
            verifySignatureFile_ok hverify
          rw [if_neg hftype, hend]
          refine ⟨⟨digSize, entries, e, key, fed, hsize, hle, hlist, he, hsig, hkey, hid,
            ?_, hfinal⟩, rfl⟩
          rw [signedRange, hend]
          exact hfed

end Verify

/-! ### What a reader can see -/

/-- A package reduced to the data it gives out, with the size its seeks are checked
against. -/
structure View where
  compressed : Bool
  content : Bytes
  size : ℕ
  pos : ℕ

namespace View

def target (v : View) (offset : ℤ) : Whence → ℤ
  | .fromEnd => v.size + offset
  | .set => offset
  | .cur => offset + v.pos

def seek (v : View) (offset : ℤ) (whence : Whence) : ℤ × View :=
  if whence = .cur ∧ offset = 0 then (0, v)
  else
    let target := v.target offset whence
    if v.size < target ∨ target < 0 then (-1, v)
    else if target = v.pos then (0, v)
    else (if v.compressed then -1 else 0, { v with pos := target.toNat })

def read (v : View) (size : ℕ) : Bytes × View :=
  let pos := if v.compressed then min v.pos v.content.length else v.pos
  let bytes := slice v.content pos size
  (bytes, { v with pos := pos + bytes.length })

def perform (v : View) : PackageOp → PackageAnswer × View
  | .tell => (.position v.pos, v)
  | .seek offset whence => ((.sought (v.seek offset whence).1), (v.seek offset whence).2)
  | .read size => (.data (v.read size).1, (v.read size).2)

end View

namespace UpdatePackage

/-- The part of the file that the package is in. -/
def window (pkg : UpdatePackage) : Bytes :=
  match pkg.io with
  | .file base _ => pkg.stream.bytes.drop base
  | .zlib start _ => pkg.stream.bytes.drop start

/-- The position of an uncompressed package is not before its beginning. -/
def Valid (pkg : UpdatePackage) : Prop :=
  match pkg.io with
  | .file base _ => base ≤ pkg.stream.pos
  | .zlib _ _ => True

def view (inflate : Bytes → Bytes) (pkg : UpdatePackage) : View :=
  match pkg.io with
  | .file base size => ⟨false, pkg.window, size, pkg.stream.pos - base⟩
  | .zlib _ size => ⟨true, inflate pkg.window, size, pkg.stream.pos⟩

variable (inflate : Bytes → Bytes) {pkg pkg' : UpdatePackage}

theorem tell_view (h : pkg.Valid) : pkg.tell = (pkg.view inflate).pos := by
  obtain ⟨io, stream⟩ := pkg
  cases io with
  | file base size =>
    have hle : base ≤ stream.pos := h
    show (stream.pos - base : ℤ) = ((stream.pos - base : ℕ) : ℤ)
    omega
  | zlib start size => rfl

theorem size_view : pkg.size = (pkg.view inflate).size := by
  obtain ⟨io, stream⟩ := pkg
  cases io <;> rfl

theorem target_view (h : pkg.Valid) (offset : ℤ) (whence : Whence) :
    pkg.target offset whence = (pkg.view inflate).target offset whence := by
  cases whence with
  | set => rfl
  | cur => rw [target, tell_view inflate h, View.target]
  | fromEnd => rw [target, size_view inflate, View.target]

theorem seek_view (h : pkg.Valid) (offset : ℤ) (whence : Whence) :
    (pkg.seek offset whence).1 = ((pkg.view inflate).seek offset whence).1 ∧
      (pkg.seek offset whence).2.view inflate = ((pkg.view inflate).seek offset whence).2 ∧
      (pkg.seek offset whence).2.Valid := by
  simp only [seek, View.seek]
  rw [← target_view inflate h, ← size_view inflate, ← tell_view inflate h]
  split
  · exact ⟨rfl, rfl, h⟩
  · split
    · exact ⟨rfl, rfl, h⟩
    · split
      · exact ⟨rfl, rfl, h⟩
      · obtain ⟨io, stream⟩ := pkg
        cases io with
        | file base size =>
          refine ⟨rfl, ?_, Nat.le_add_left _ _⟩
          simp [view, window, File.seek, UpdatePackage.size]
        | zlib start size => exact ⟨rfl, rfl, trivial⟩

theorem read_view (h : pkg.Valid) (size : ℕ) :
    (pkg.read inflate size).1 = ((pkg.view inflate).read size).1 ∧
      (pkg.read inflate size).2.view inflate = ((pkg.view inflate).read size).2 ∧
      (pkg.read inflate size).2.Valid := by
  obtain ⟨io, stream⟩ := pkg
  cases io with
  | file base total =>
    have hle : base ≤ stream.pos := h
    have hdrop : stream.rest = (stream.bytes.drop base).drop (stream.pos - base) := by
      rw [File.rest, drop_drop]
      congr 1
      omega
    refine ⟨?_, ?_, Nat.le_trans hle (Nat.le_add_right _ _)⟩
    · show stream.rest.take size = _
      rw [hdrop]
      rfl
    · show View.mk false (stream.bytes.drop base) total
        (stream.pos + (stream.rest.take size).length - base) = _
      rw [hdrop, Nat.sub_add_comm hle]
      rfl
  | zlib start total => exact ⟨rfl, rfl, trivial⟩

theorem perform_view (h : pkg.Valid) (op : PackageOp) :
    (pkg.perform inflate op).1 = ((pkg.view inflate).perform op).1 ∧
      (pkg.perform inflate op).2.view inflate = ((pkg.view inflate).perform op).2 ∧
      (pkg.perform inflate op).2.Valid := by
  cases op with
  | tell => exact ⟨congrArg PackageAnswer.position (tell_view inflate h), rfl, h⟩
  | seek offset whence =>
    obtain ⟨hanswer, hview, hvalid⟩ := seek_view inflate h offset whence
    exact ⟨congrArg PackageAnswer.sought hanswer, hview, hvalid⟩
  | read size =>
    obtain ⟨hanswer, hview, hvalid⟩ := read_view inflate h size
    exact ⟨congrArg PackageAnswer.data hanswer, hview, hvalid⟩

/-- Packages with the same view cannot be told apart. -/
theorem transcript_eq (reader : Reader) (fuel : ℕ) (answers : List PackageAnswer)
    (h : pkg.Valid) (h' : pkg'.Valid) (hview : pkg'.view inflate = pkg.view inflate) :
    transcript inflate reader fuel pkg' answers = transcript inflate reader fuel pkg answers := by
  induction fuel generalizing pkg pkg' answers with
  | zero => rfl
  | succ fuel ih =>
    rw [transcript, transcript]
    split
    · rfl
    · rename_i op _
      obtain ⟨hanswer, hnext, hvalid⟩ := perform_view inflate h op
      obtain ⟨hanswer', hnext', hvalid'⟩ := perform_view inflate h' op
      rw [hview] at hanswer' hnext'
      show transcript inflate reader fuel (pkg'.perform inflate op).2
          (answers ++ [(pkg'.perform inflate op).1]) =
        transcript inflate reader fuel (pkg.perform inflate op).2
          (answers ++ [(pkg.perform inflate op).1])
      rw [hanswer', ← hanswer]
      exact ih _ hvalid hvalid' (hnext'.trans hnext.symm)

end UpdatePackage

/-! ### What `init_package_streams` opens -/

/-- The view of a package that has been opened, from the bytes behind its digest
data alone. -/
def openedView (inflate : Bytes → Bytes) (window : Bytes) : View :=
  if window.take gzMagic.length = gzMagic then
    ⟨true, inflate window, littleEndian (slice window (window.length - 4) 4), 0⟩
  else ⟨false, window, window.length, 0⟩

/-- The range begins like a gzip file and ends before its header does. -/
def CutShort (window : Bytes) : Prop :=
  window.take gzMagic.length = gzMagic ∧ window.length < 4

section Open

variable {env : PackageEnvironment} {path : String} {bytes : Bytes} {stream : File}
  {pkg : UpdatePackage}

theorem packageFileOpen_ok (h : packageFileOpen env stream = .ok pkg) :
    pkg = ⟨.file stream.pos (stream.bytes.length - stream.pos), stream⟩ := by
  simp only [packageFileOpen] at h
  split_ifs at h
  exact (Except.ok.inj h).symm

theorem packageZlibOpen_ok (h : packageZlibOpen env stream = .ok pkg) :
    pkg = ⟨.zlib stream.pos (littleEndian (slice stream.bytes (stream.bytes.length - 4) 4)),
      stream.seek 0⟩ := by
  simp only [packageZlibOpen] at h
  split_ifs at h
  exact (Except.ok.inj h).symm

/-- The first two bytes behind the digest data decide how the package is opened. -/
theorem openVerified_ok (h : openVerified env path stream = .ok pkg) :
    if stream.rest.take gzMagic.length = gzMagic then packageZlibOpen env stream = .ok pkg
    else packageFileOpen env stream = .ok pkg := by
  simp only [openVerified] at h
  split_ifs at h with _ _ _ hgz
  · exact (if_pos hgz).symm ▸ h
  · exact (if_neg hgz).symm ▸ h

/-- The last four bytes of a file are those of a long enough end of it. -/
theorem slice_drop_length_sub {pos : ℕ} (h : 4 ≤ (bytes.drop pos).length) :
    slice (bytes.drop pos) ((bytes.drop pos).length - 4) 4 = slice bytes (bytes.length - 4) 4 := by
  rw [length_drop] at h ⊢
  rw [slice, slice, drop_drop]
  congr 2
  omega

/-- A package that has been opened begins where the digest data ends; unless it is too
short for a gzip file, what can be seen of it depends on nothing before. -/
theorem initPackageStreams_ok (h : initPackageStreams env path (some bytes) = .ok pkg) :
    pkg.Valid ∧ pkg.window = signedRange .binary bytes ∧
      (¬ CutShort (signedRange .binary bytes) →
        pkg.view env.inflate = openedView env.inflate (signedRange .binary bytes)) ∧
      (CutShort (signedRange .binary bytes) →
        (pkg.view env.inflate).content = [] ∧ (pkg.view env.inflate).pos = 0) := by
  simp only [initPackageStreams] at h
  split_ifs at h with hcode
  obtain ⟨-, hstream⟩ := verifyEmbeddedFile_ok (not_not.mp hcode)
  rw [hstream] at h
  have hopen := openVerified_ok h
  split_ifs at hopen with hgz
  · obtain rfl := packageZlibOpen_ok hopen
    refine ⟨trivial, rfl, fun hlong => ?_, fun hshort => ⟨env.inflate_short _ hshort.1 hshort.2, rfl⟩⟩
    have hge : 4 ≤ (signedRange .binary bytes).length :=
      Nat.le_of_not_lt fun hlt => hlong ⟨hgz, hlt⟩
    rw [openedView, if_pos (show (signedRange .binary bytes).take _ = _ from hgz)]
    rw [signedRange, slice_drop_length_sub hge]
    rfl
  · obtain rfl := packageFileOpen_ok hopen
    refine ⟨Nat.le_refl _, rfl, fun _ => ?_, fun hshort => absurd hshort.1 hgz⟩
    rw [openedView, if_neg (show ¬ (signedRange .binary bytes).take _ = _ from hgz)]
    simp [UpdatePackage.view, UpdatePackage.window, signedRange]

/-- A package with no content stops the reader of the first tar header. -/
theorem transcript_openingReader_of_content_nil {inflate : Bytes → Bytes} (rest : Reader)
    (fuel : ℕ) (h : pkg.Valid)
    (hcontent : (pkg.view inflate).content = []) (hpos : (pkg.view inflate).pos = 0) :
    transcript inflate (openingReader rest) fuel pkg [] =
      List.take fuel [.position 0, .position 0, .data []] := by
  have htell : pkg.perform inflate .tell = (.position 0, pkg) := by
    show (PackageAnswer.position pkg.tell, pkg) = _
    rw [UpdatePackage.tell_view inflate h, hpos]
    rfl
  have hread : (pkg.perform inflate (.read tarBlock)).1 = .data [] := by
    rw [(UpdatePackage.perform_view inflate h _).1]
    simp [View.perform, View.read, hcontent, slice]
  match fuel with
  | 0 => rfl
  | 1 => simp [transcript, openingReader, htell]
  | 2 => simp [transcript, openingReader, htell]
  | 3 => simp [transcript, openingReader, htell, hread]
  | fuel + 4 =>
    have hshort : ¬ 0 = tarBlock := by decide
    simp [transcript, openingReader, htell, hread, hshort]

/-- The readers of two packages with the same bytes behind their digest data get the
same answers. -/
theorem transcript_eq_of_signedRange_eq {env' : PackageEnvironment} {path' : String}
    {bytes' : Bytes} {pkg' : UpdatePackage}
    (h : initPackageStreams env path (some bytes) = .ok pkg)
    (h' : initPackageStreams env' path' (some bytes') = .ok pkg')
    (hinflate : env'.inflate = env.inflate)
    (hrange : signedRange .binary bytes' = signedRange .binary bytes) (rest : Reader) (fuel : ℕ) :
    transcript env.inflate (openingReader rest) fuel pkg' [] =
      transcript env.inflate (openingReader rest) fuel pkg [] := by
  obtain ⟨hvalid, -, hlong, hshort⟩ := initPackageStreams_ok h
  obtain ⟨hvalid', -, hlong', hshort'⟩ := initPackageStreams_ok h'
  rw [hinflate, hrange] at hlong' hshort'
  by_cases hcut : CutShort (signedRange .binary bytes)
  · obtain ⟨hcontent, hpos⟩ := hshort hcut
    obtain ⟨hcontent', hpos'⟩ := hshort' hcut
    rw [transcript_openingReader_of_content_nil rest fuel hvalid hcontent hpos,
      transcript_openingReader_of_content_nil rest fuel hvalid' hcontent' hpos']
  · exact UpdatePackage.transcript_eq _ _ _ _ hvalid hvalid' ((hlong' hcut).trans (hlong hcut).symm)

end Open

/-- A file that is verified with signatures required has a signature by a key of the
database for exactly what follows its digest data. A package is read from there on:
whoever reads it, in a file that has something else before that, gets the same
answers. -/
theorem update_authentic (env : PackageEnvironment) (stream : File) (ftype : FileType)
    (h : (verifyEmbeddedFile env.toEnvironment stream ftype true).code = .ok) :
    Authentic env.toEnvironment ftype stream.bytes ∧
      ∀ path pkg, initPackageStreams env path (some stream.bytes) = .ok pkg →
        pkg.window = signedRange .binary stream.bytes ∧
        ∀ env' path' bytes' pkg', initPackageStreams env' path' (some bytes') = .ok pkg' →
          env'.inflate = env.inflate →
          signedRange .binary bytes' = signedRange .binary stream.bytes →
          ∀ rest fuel, transcript env.inflate (openingReader rest) fuel pkg' [] =
            transcript env.inflate (openingReader rest) fuel pkg [] := by
  refine ⟨(verifyEmbeddedFile_ok h).1, fun path pkg hopen => ?_⟩
  refine ⟨(initPackageStreams_ok hopen).2.1, ?_⟩
  intro env' path' bytes' pkg' hopen' hinflate hrange rest fuel
  exact transcript_eq_of_signedRange_eq hopen hopen' hinflate hrange rest fuel

/-- A database with one key, and libraries that never fail. -/
def oneKeyEnv : PackageEnvironment where
  publicKeys := [⟨[], 7⟩]
  malloc _ := true
  loadKey _ := true
  verifyInit _ := true
  verifyUpdate _ _ := true
  verifyFinal _ fed _ _ := fed = [[0x1f, 0x8b, 0, 0, 0, 0]]
  digestUpdate _ _ := true
  digestFinal _ _ := none
  dup := true
  gzdopen := true
  gzbuffer := true
  inflate _ := []
  inflate_short _ _ _ := rfl

/-- Six bytes with a signature by that key. -/
def signedFile : Bytes :=
  [0xb5, 0xb9, 0xde, 0xbc, 0x3a, 0, 0, 0, 10] ++
    [0x34, 0x3a, 0, 5, 0x3a, 0, 0, 0, 7, 1] ++ [0x1f, 0x8b, 0, 0, 0, 0]

theorem update_authentic_signed_file :
    Authentic oneKeyEnv.toEnvironment .binary signedFile ∧
      initPackageStreams oneKeyEnv "" (some signedFile) = .ok ⟨.zlib 19 0, ⟨signedFile, 0⟩⟩ ∧
      (UpdatePackage.mk (.zlib 19 0) ⟨signedFile, 0⟩).window = [0x1f, 0x8b, 0, 0, 0, 0] := by
  have hopen : initPackageStreams oneKeyEnv "" (some signedFile) =
      .ok ⟨.zlib 19 0, ⟨signedFile, 0⟩⟩ := by decide +kernel
  obtain ⟨hsigned, hreaders⟩ :=
    update_authentic oneKeyEnv ⟨signedFile, 0⟩ .binary (by decide +kernel)
  have hrange : signedRange .binary signedFile = [0x1f, 0x8b, 0, 0, 0, 0] := by decide +kernel
  exact ⟨hsigned, hopen, (hreaders "" _ hopen).1.trans hrange⟩

end BeepMusic.Update
