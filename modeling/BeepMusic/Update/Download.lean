import Mathlib.Data.List.ReduceOption
import BeepMusic.Update.Authenticity

/-!
How the updater fetches the packages of an update (`server.c`) and applies them
(`main.c`). What curl and the file system answer is left open, and so is what becomes of
the manifest and of the files of a package that has been verified.
-/

namespace BeepMusic.Update

open Lib List

inductive UpdateGetSelection
  | invalid
  | preinst
  | install
  | postinst
  deriving DecidableEq

structure UpdateConfig where
  server : Option String
  preinst : Option String
  install : Option String
  postinst : Option String
  release : Option String
  deriving DecidableEq

/-- What happens during one request to the server. -/
structure Transfer where
  asprintf : Bool
  /-- `tmpfopen` has made a file. -/
  tmpfopen : Bool
  /-- The last `curl_formadd` has succeeded. -/
  formadd : Bool
  easyInit : Bool
  /-- Everything from `curl_easy_setopt` to `curl_easy_getinfo` has returned `CURLE_OK`. -/
  performed : Bool
  httpCode : ℕ
  /-- What has been written to the file. -/
  received : Bytes
  tmpfpath : Option String
  deriving DecidableEq

/-- A temporary file. -/
structure Download where
  path : String
  bytes : Bytes
  deriving DecidableEq

def httpsUrlStr : String := "https://"

/-- The stream, which is at its beginning, and the code. -/
def serverPost (url : String) (t : Transfer) : Option Bytes × UpdateCode :=
  if httpsUrlStr.toList.isPrefixOf url.toList = false then (none, .badArg)
  else if t.tmpfopen = false then (none, .fileErr)
  else if t.formadd = false ∨ t.easyInit = false ∨ t.performed = false then (none, .curlErr)
  else if t.httpCode = 204 then (none, .http204)
  else if t.httpCode ≠ 200 then (none, .httpErr)
  else (some t.received, .ok)

/-- The name of a file in the configuration. -/
def UpdateConfig.file (uc : UpdateConfig) : UpdateGetSelection → Option String
  | .invalid => none
  | .preinst => uc.preinst
  | .install => uc.install
  | .postinst => uc.postinst

/-- `dlfile` and `rcode` at the end of `server_get_file`. -/
def getFile (uc : UpdateConfig) (selection : UpdateGetSelection) (t : Transfer) :
    Option Download × UpdateCode :=
  match uc.server, uc.release with
  | some server, some _ =>
    if selection = .invalid then (none, .badArg)
    -- a valid selection, but nothing to do
    else if (uc.file selection).getD "" = "" then (none, .ok)
    else if t.asprintf = false then (none, .oom)
    else
      match serverPost (server ++ "/1/update/file") t with
      | (none, rcode) => (none, rcode)
      | (some bytes, rcode) =>
        match t.tmpfpath with
        | none => (none, .fileErr)
        | some path => (some ⟨path, bytes⟩, rcode)
  | _, _ => (none, .badArg)

/-- `server_get_file` does not store `rcode`: what `code` points to is not changed. -/
def serverGetFile (uc : UpdateConfig) (selection : UpdateGetSelection) (t : Transfer)
    (code : UpdateCode) : Option Download × UpdateCode :=
  ((getFile uc selection t).1, code)

/-- The answers for the package with an index. -/
structure UpdateEnvironment extends PackageEnvironment where
  fopen : ℕ → Bool
  /-- The rest of `open_package`, for the first tar header and the manifest. -/
  readManifest : ℕ → UpdatePackage → UpdateCode
  packageProcess : ℕ → UpdatePackage → UpdateCode

variable (env : UpdateEnvironment)

def openPackage (index : ℕ) (d : Download) : Except UpdateCode UpdatePackage :=
  match initPackageStreams env.toPackageEnvironment d.path
      (if env.fopen index then some d.bytes else none) with
  | .error code => .error code
  | .ok pkg =>
    if env.readManifest index pkg = .ok then .ok pkg else .error (env.readManifest index pkg)

/-- What `process_uc` has done, and its code. -/
structure Outcome where
  code : UpdateCode
  /-- The files that have been given to `package_process`. -/
  processed : List Download
  unlinked : List Download
  deriving DecidableEq

/-- The body of the first loop; `close_package` succeeds. -/
def processPackage (index : ℕ) (d : Download) (o : Outcome) : Outcome :=
  match openPackage env index d with
  | .ok pkg => ⟨env.packageProcess index pkg, o.processed ++ [d], o.unlinked ++ [d]⟩
  | .error _ => ⟨.packageDigFail, o.processed, o.unlinked ++ [d]⟩

/-- The first loop, from an index on, with what it makes of the entries there: it stops at an
error, and `pkg_list[index]` is `NULL` once its package has been processed. -/
def processLoop (env : UpdateEnvironment) :
    ℕ → List (Option Download) → Outcome → List (Option Download) × Outcome
  | _, [], o => ([], o)
  | index, item :: rest, o =>
    if o.code ≠ .ok then (item :: rest, o)
    else
      let (rest, o) := processLoop env (index + 1) rest
        (match item with
        | none => o
        | some d => processPackage env index d o)
      (none :: rest, o)

/-- The second loop, over the whole array. -/
def unlinkLoop : List (Option Download) → Outcome → Outcome
  | [], o => o
  | none :: rest, o => unlinkLoop rest o
  | some d :: rest, o => unlinkLoop rest { o with unlinked := o.unlinked ++ [d] }

/-- One loop after the other. -/
def processList (index : ℕ) (list : List (Option Download)) (o : Outcome) : Outcome :=
  let (list, o) := processLoop env index list o
  unlinkLoop list o

def processUc (uc : Option UpdateConfig) (transfers : UpdateGetSelection → Transfer) : Outcome :=
  match uc with
  | none => ⟨.badArg, [], []⟩
  | some uc =>
    let (preinst, code) := serverGetFile uc .preinst (transfers .preinst) .ok
    let (install, code) := serverGetFile uc .install (transfers .install) code
    let (postinst, code) := serverGetFile uc .postinst (transfers .postinst) code
    if preinst = none ∧ install = none ∧ postinst = none then ⟨.ok, [], []⟩
    else processList env 0 [preinst, install, postinst] ⟨code, [], []⟩

/-! ### The files that are applied -/

section Loop

variable (env : UpdateEnvironment)

/-- The first file of a list, with its index. -/
def firstDownload : ℕ → List (Option Download) → Option (ℕ × Download)
  | _, [] => none
  | index, none :: rest => firstDownload (index + 1) rest
  | index, some d :: _ => some (index, d)

/-- Whether `open_package` fails. -/
def Rejected (env : UpdateEnvironment) (index : ℕ) (d : Download) : Prop :=
  ∀ pkg, openPackage env index d ≠ .ok pkg

variable {env}

variable {index : ℕ} {d : Download}

theorem processPackage_of_rejected (h : Rejected env index d) (o : Outcome) :
    processPackage env index d o = ⟨.packageDigFail, o.processed, o.unlinked ++ [d]⟩ := by
  unfold processPackage
  split
  · rename_i pkg hopen
    exact absurd hopen (h pkg)
  · rfl

theorem processPackage_of_not_rejected (h : ¬ Rejected env index d) (o : Outcome) :
    (processPackage env index d o).processed = o.processed ++ [d] := by
  unfold processPackage
  split
  · rfl
  · rename_i code hopen
    refine absurd (fun pkg hpkg => ?_) h
    rw [hopen] at hpkg
    cases hpkg

theorem unlinkLoop_eq (list : List (Option Download)) (o : Outcome) :
    unlinkLoop list o = { o with unlinked := o.unlinked ++ list.reduceOption } := by
  induction list generalizing o with
  | nil => simp [unlinkLoop, reduceOption]
  | cons item rest ih =>
    cases item with
    | none => rw [unlinkLoop, ih, reduceOption_cons_of_none]
    | some d =>
      rw [unlinkLoop, ih, reduceOption_cons_of_some, append_assoc, singleton_append]

/-- The second loop finds nothing where the first one has been. -/
theorem processList_cons (env : UpdateEnvironment) (index : ℕ) (item : Option Download)
    (rest : List (Option Download)) (o : Outcome) :
    processList env index (item :: rest) o =
      if o.code ≠ .ok then { o with unlinked := o.unlinked ++ (item :: rest).reduceOption }
      else
        match item with
        | none => processList env (index + 1) rest o
        | some d => processList env (index + 1) rest (processPackage env index d o) := by
  by_cases hcode : o.code ≠ .ok
  · rw [if_pos hcode, processList, processLoop.eq_def, ← unlinkLoop_eq]
    dsimp only
    rw [if_pos hcode]
  · rw [if_neg hcode, processList, processLoop.eq_def]
    dsimp only
    rw [if_neg hcode]
    cases item <;> rfl

/-- Once the code is an error, nothing more is applied. -/
theorem processList_of_error (env : UpdateEnvironment) (index : ℕ)
    (list : List (Option Download)) {o : Outcome}
    (h : o.code ≠ .ok) :
    (processList env index list o).code = o.code ∧
      (processList env index list o).processed = o.processed := by
  cases list with
  | nil => exact ⟨rfl, rfl⟩
  | cons item rest => simp [processList_cons, h]

/-- What holds for the outcome of each package holds in the end. -/
theorem processList_invariant {P : Outcome → Prop}
    (hunlink : ∀ o files, P o → P { o with unlinked := o.unlinked ++ files })
    (hpackage : ∀ index d o, P o → P (processPackage env index d o))
    (list : List (Option Download)) :
    ∀ index o, P o → P (processList env index list o) := by
  induction list with
  | nil => exact fun _ _ ho => ho
  | cons item rest ih =>
    intro index o ho
    rw [processList_cons]
    split
    · exact hunlink o _ ho
    · cases item with
      | none => exact ih _ _ ho
      | some d => exact ih _ _ (hpackage index d o ho)

theorem mem_processed_processList (env : UpdateEnvironment) (d : Download) (index : ℕ)
    (list : List (Option Download)) {o : Outcome} (h : d ∈ o.processed) :
    d ∈ (processList env index list o).processed := by
  refine processList_invariant (P := fun o => d ∈ o.processed) (fun _ _ ho => ho) ?_ list index o h
  intro index d' o ho
  unfold processPackage
  split
  · exact mem_append_left _ ho
  · exact ho

theorem authentic_of_openPackage {pkg : UpdatePackage} (h : openPackage env index d = .ok pkg) :
    Authentic env.toEnvironment .binary d.bytes := by
  unfold openPackage at h
  split at h
  · cases h
  · rename_i hinit
    cases hfopen : env.fopen index with
    | false => simp [hfopen, initPackageStreams] at hinit
    | true =>
      simp only [hfopen, if_true, initPackageStreams] at hinit
      split at hinit
      · cases hinit
      · rename_i hcode
        exact (verifyEmbeddedFile_ok (not_not.mp hcode)).1

/-- Every file that is applied has a signature by a key of the database. -/
theorem authentic_of_processed (index : ℕ) (list : List (Option Download)) {code : UpdateCode} :
    ∀ d ∈ (processList env index list ⟨code, [], []⟩).processed,
      Authentic env.toEnvironment .binary d.bytes := by
  refine processList_invariant
    (P := fun o => ∀ d ∈ o.processed, Authentic env.toEnvironment .binary d.bytes)
    (fun _ _ ho => ho) ?_ list index _ (by simp)
  intro index d o ho
  by_cases hrejected : Rejected env index d
  · rw [processPackage_of_rejected hrejected]
    exact ho
  · rw [processPackage_of_not_rejected hrejected]
    intro d' hd'
    rcases mem_append.mp hd' with hd' | hd'
    · exact ho d' hd'
    · obtain rfl := mem_singleton.mp hd'
      obtain ⟨pkg, hopen⟩ := not_forall_not.mp hrejected
      exact authentic_of_openPackage hopen

/-- Every file of the list is unlinked, whatever happens. -/
theorem unlinked_processList (env : UpdateEnvironment) (list : List (Option Download)) :
    ∀ (index : ℕ) (o : Outcome),
      (processList env index list o).unlinked = o.unlinked ++ list.reduceOption := by
  induction list with
  | nil => intro index o; simp [processList, processLoop, unlinkLoop, reduceOption]
  | cons item rest ih =>
    intro index o
    rw [processList_cons]
    split
    · rfl
    · cases item with
      | none => rw [reduceOption_cons_of_none, ih]
      | some d =>
        have hpackage : (processPackage env index d o).unlinked = o.unlinked ++ [d] := by
          unfold processPackage
          split <;> rfl
        rw [reduceOption_cons_of_some, ih, hpackage, append_assoc,
          singleton_append]

theorem processList_of_firstDownload_eq_none {list : List (Option Download)} :
    ∀ {index : ℕ} {o : Outcome}, firstDownload index list = none → o.code = .ok →
      processList env index list o = o := by
  induction list with
  | nil => intro index o _ _; rfl
  | cons item rest ih =>
    intro index o hnone hok
    cases item with
    | none => simpa [processList_cons, hok] using ih hnone hok
    | some d => cases hnone

/-- Everything before the first file is skipped. -/
theorem processList_of_firstDownload_eq_some (env : UpdateEnvironment)
    {list : List (Option Download)} :
    ∀ {index i : ℕ} {d : Download} {o : Outcome}, firstDownload index list = some (i, d) →
      o.code = .ok →
      ∃ rest, processList env index list o =
        processList env (i + 1) rest (processPackage env i d o) := by
  induction list with
  | nil => intro index i d o hfirst _; cases hfirst
  | cons item rest ih =>
    intro index i d o hfirst hok
    cases item with
    | none => simpa [processList_cons, hok] using ih hfirst hok
    | some d' =>
      cases hfirst
      exact ⟨rest, by simp [processList_cons, hok]⟩

end Loop

/-! ### All packages of an update -/

section Call

variable {env : UpdateEnvironment} {uc : UpdateConfig} {transfers : UpdateGetSelection → Transfer}
  {content : UpdateGetSelection → Bytes}

/-- `pkg_list`. -/
def pkgList (uc : UpdateConfig) (transfers : UpdateGetSelection → Transfer) :
    List (Option Download) :=
  [(getFile uc .preinst (transfers .preinst)).1, (getFile uc .install (transfers .install)).1,
    (getFile uc .postinst (transfers .postinst)).1]

theorem processUc_some :
    processUc env (some uc) transfers = processList env 0 (pkgList uc transfers) ⟨.ok, [], []⟩ := by
  refine ite_eq_right_iff.mpr fun ⟨hpreinst, hinstall, hpostinst⟩ => ?_
  refine (processList_of_firstDownload_eq_none ?_ rfl).symm
  simp [hpreinst, hinstall, hpostinst, firstDownload]

/-- A package that the configuration names. -/
def UpdateConfig.Listed (uc : UpdateConfig) (selection : UpdateGetSelection) : Prop :=
  (uc.file selection).getD "" ≠ ""
deriving Decidable

/-- Whatever fails, no file that has been fetched is left behind. -/
theorem processUc_unlinked :
    (processUc env (some uc) transfers).unlinked = (pkgList uc transfers).reduceOption := by
  rw [processUc_some]
  exact unlinked_processList env _ 0 _

/-- The whole of a package of the server is in a file. -/
def Downloaded (uc : UpdateConfig) (selection : UpdateGetSelection) (t : Transfer)
    (content : Bytes) : Prop :=
  (getFile uc selection t).1.map Download.bytes = some content
deriving Decidable

/-- Every package that is listed has been downloaded. -/
def DownloadedAll (uc : UpdateConfig) (transfers : UpdateGetSelection → Transfer)
    (content : UpdateGetSelection → Bytes) : Prop :=
  ∀ selection, uc.Listed selection → Downloaded uc selection (transfers selection)
    (content selection)

/-- Files are applied only if everything has been downloaded; otherwise there is an error. -/
def Outcome.AllOrNothing (o : Outcome) (uc : UpdateConfig)
    (transfers : UpdateGetSelection → Transfer) (content : UpdateGetSelection → Bytes) : Prop :=
  (o.processed ≠ [] → DownloadedAll uc transfers content) ∧
    (¬ DownloadedAll uc transfers content → o.code ≠ .ok ∧ o.processed = [])

/-- If something has not been downloaded, then the updater does nothing and reports an error
exactly if the first file that it has cannot be opened. -/
theorem failed_downloads_not_applied (env : UpdateEnvironment) (uc : UpdateConfig)
    (transfers : UpdateGetSelection → Transfer) (content : UpdateGetSelection → Bytes) :
    (processUc env (some uc) transfers).AllOrNothing uc transfers content ↔
      DownloadedAll uc transfers content ∨
        ∃ index d, firstDownload 0 (pkgList uc transfers) = some (index, d) ∧
          Rejected env index d := by
  rw [processUc_some]
  constructor
  · rintro ⟨-, hnothing⟩
    by_cases hall : DownloadedAll uc transfers content
    · exact .inl hall
    obtain ⟨hcode, hprocessed⟩ := hnothing hall
    cases hfirst : firstDownload 0 (pkgList uc transfers) with
    | none =>
      rw [processList_of_firstDownload_eq_none hfirst rfl] at hcode
      exact absurd rfl hcode
    | some first =>
      obtain ⟨index, d⟩ := first
      refine .inr ⟨index, d, rfl, by_contra fun hopened => ?_⟩
      obtain ⟨rest, hrest⟩ :=
        processList_of_firstDownload_eq_some env (o := ⟨.ok, [], []⟩) hfirst rfl
      have hmem : d ∈ (processPackage env index d ⟨.ok, [], []⟩).processed := by
        rw [processPackage_of_not_rejected hopened]
        exact mem_append_right _ (mem_singleton_self d)
      have happlied := mem_processed_processList env d (index + 1) rest hmem
      rw [← hrest, hprocessed] at happlied
      cases happlied
  · rintro (hall | ⟨index, d, hfirst, hrejected⟩)
    · exact ⟨fun _ => hall, fun hnot => absurd hall hnot⟩
    · obtain ⟨rest, hrest⟩ :=
        processList_of_firstDownload_eq_some env (o := ⟨.ok, [], []⟩) hfirst rfl
      rw [processPackage_of_rejected hrejected] at hrest
      have herror : UpdateCode.packageDigFail ≠ .ok := by decide
      obtain ⟨hcode, hprocessed⟩ := processList_of_error env (index + 1) rest
        (o := ⟨.packageDigFail, [], [] ++ [d]⟩) herror
      rw [← hrest] at hcode hprocessed
      exact ⟨fun happlied => absurd hprocessed happlied, fun _ => ⟨hcode ▸ herror, hprocessed⟩⟩

/-- Libraries that never fail, and packages that can always be applied. -/
def applyingEnv : UpdateEnvironment where
  toPackageEnvironment := oneKeyEnv
  fopen _ := true
  readManifest _ _ := .ok
  packageProcess _ _ := .ok

/-- An update of two packages. -/
def twoPackages : UpdateConfig :=
  ⟨some "https://update:443", none, some "install", some "postinst", some "release"⟩

/-- A transfer without an error, in which some of a file arrives. -/
def arrives (path : String) (bytes : Bytes) : Transfer :=
  ⟨true, true, true, true, true, 200, bytes, some path⟩

/-- The connection fails. -/
def refused : Transfer := ⟨true, true, true, true, false, 0, [], none⟩

/-- Only the last package arrives. -/
def onlyPostinst (selection : UpdateGetSelection) : Transfer :=
  if selection = .postinst then arrives "/tmp/beepupdate-000001" signedFile else refused

/-- The last package arrives in part. -/
def partOfPostinst (selection : UpdateGetSelection) : Transfer :=
  if selection = .postinst then arrives "/tmp/beepupdate-000001" (signedFile.take 20)
  else arrives "/tmp/beepupdate-000002" signedFile

/-- The second package is applied, without an error, when the first one has not been
downloaded; there is no error when neither has been; and the first one is applied when the
second one has arrived only in part. -/
theorem failed_downloads_applied :
    (processUc applyingEnv (some twoPackages) onlyPostinst =
        ⟨.ok, [⟨"/tmp/beepupdate-000001", signedFile⟩], [⟨"/tmp/beepupdate-000001", signedFile⟩]⟩ ∧
      ¬ (processUc applyingEnv (some twoPackages) onlyPostinst).AllOrNothing twoPackages
        onlyPostinst (fun _ => signedFile)) ∧
    (processUc applyingEnv (some twoPackages) (fun _ => refused) = ⟨.ok, [], []⟩ ∧
      ¬ (processUc applyingEnv (some twoPackages) (fun _ => refused)).AllOrNothing twoPackages
        (fun _ => refused) (fun _ => signedFile)) ∧
    ((processUc applyingEnv (some twoPackages) partOfPostinst).processed =
        [⟨"/tmp/beepupdate-000002", signedFile⟩] ∧
      ¬ (processUc applyingEnv (some twoPackages) partOfPostinst).AllOrNothing twoPackages
        partOfPostinst (fun _ => signedFile)) := by
  refine ⟨⟨by decide +kernel, fun h => ?_⟩, ⟨by decide +kernel, fun h => ?_⟩,
    ⟨by decide +kernel, fun h => ?_⟩⟩
  · have hinstall := h.1 (by decide +kernel) .install (by decide +kernel)
    exact absurd hinstall (by decide +kernel)
  · refine (h.2 fun hall => ?_).1 (by decide +kernel)
    exact absurd (hall .install (by decide +kernel)) (by decide +kernel)
  · have hpostinst := h.1 (by decide +kernel) .postinst (by decide +kernel)
    exact absurd hpostinst (by decide +kernel)

/-- Whatever the server sends, every file that is applied has a signature by a known key. -/
theorem processUc_authentic : ∀ d ∈ (processUc env (some uc) transfers).processed,
    Authentic env.toEnvironment .binary d.bytes := by
  rw [processUc_some]
  exact authentic_of_processed 0 _

theorem processUc_authentic_onlyPostinst :
    Authentic applyingEnv.toEnvironment .binary signedFile :=
  @processUc_authentic applyingEnv twoPackages onlyPostinst ⟨"/tmp/beepupdate-000001", signedFile⟩
    (by decide +kernel)

end Call

end BeepMusic.Update
