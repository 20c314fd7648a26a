import BeepMusic.Update.Bpk

/-!
Editing a package (`bpk.py`): the entries of its lists, after any calls that add and delete
them. `os.path.expanduser` is arbitrary. Directories end in a slash.
-/

namespace BeepMusic.Update.Bpk

section Entries

variable {α : Type} [DecidableEq α]

def addNew (l : List α) (x : α) : List α := if x ∈ l then l else l ++ [x]

def remove (l : List α) (x : α) : List α := l.erase x

theorem remove_of_notMem {l : List α} {x : α} (h : x ∉ l) : remove l x = l :=
  List.erase_of_not_mem h

/-- A list after edits, from the latest on: an entry, and whether it is added. -/
def listed : List (α × Bool) → List α
  | [] => []
  | (x, true) :: edits => addNew (listed edits) x
  | (x, false) :: edits => remove (listed edits) x

/-- There are no duplicates, and what is listed has been added by the last edit of it. -/
structure Edited (edits : List (α × Bool)) (l : List α) : Prop where
  nodup : l.Nodup
  mem_iff (x : α) : x ∈ l ↔ edits.lookup x = some true

theorem edited_listed (edits : List (α × Bool)) : Edited edits (listed edits) := by
  induction edits with
  | nil => exact ⟨.nil, by simp [listed]⟩
  | cons edit edits ih =>
    obtain ⟨x, added⟩ := edit
    have hnodup := ih.nodup
    refine ⟨?_, fun y => ?_⟩
    · cases added with
      | true => grind [listed, addNew]
      | false => exact hnodup.erase x
    · have hmem : y ∈ listed ((x, added) :: edits) ↔
          if y = x then added = true else y ∈ listed edits := by
        cases added <;> grind [listed, addNew, remove, hnodup.mem_erase_iff]
      rw [hmem, ih.mem_iff, List.lookup_cons]
      by_cases hy : y = x
      · simp [hy]
      · simp [hy, beq_eq_false_iff_ne.mpr hy]

end Entries

/-! ### The calls -/

abbrev Path := List Char

/-- `os.path.normpath`, for an absolute path. -/
def normpath (path : Path) : Path :=
  let slashes := if path.take 2 = ['/', '/'] ∧ path.take 3 ≠ ['/', '/', '/'] then 2 else 1
  let push (comps : List Path) (comp : Path) :=
    if comp = [] ∨ comp = ['.'] then comps
    else if comp = ['.', '.'] then comps.dropLast
    else comps ++ [comp]
  List.replicate slashes '/' ++ ['/'].intercalate ((components path).foldl push [])

/-- `os.path.abspath`, in a working directory. -/
def abspath (cwd path : Path) : Path :=
  normpath (if path.head? = some '/' then path else cwd ++ path)

/-- `path.lstrip('./')`. -/
def lstrip (path : Path) : Path := path.dropWhile fun c => c = '.' ∨ c = '/'

inductive Engine
  | sh
  | lua
  deriving DecidableEq

inductive When
  | pre
  | post
  deriving DecidableEq

inductive BpkCall
  | addFile (path : Path)
  | delFile (path : Path)
  | addScript (cwd path : Path) (engine : Engine) (when : When) (excludeFromFiles : Bool)
  | delScript (cwd path : Path) (engine : Engine) (when : When)
  | addRemove (path : Path)
  | delRemove (path : Path)

/-- The lists of a package; `scripts` are `pre_scripts` and `post_scripts`. -/
structure Lists where
  files : List Path
  scripts : When → List (Path × Engine)
  removes : List Path

variable (root : Path) (expanduser : Path → Path)

def pathFromRoot (path : Path) : Option Path :=
  let path := abspath root (expanduser path)
  if root <+: path then some (path.drop root.length) else none

def delFile (files : List Path) (path : Path) : List Path :=
  (pathFromRoot root expanduser path).elim files (remove files)

/-- One call; `add_file` raises an exception for a path outside of the root. -/
def Lists.perform (s : Lists) : BpkCall → Lists
  | .addFile path =>
    { s with files := (pathFromRoot root expanduser path).elim s.files (addNew s.files) }
  | .delFile path => { s with files := delFile root expanduser s.files path }
  | .addScript cwd path engine when excludeFromFiles =>
    let path := abspath cwd path
    { s with
      scripts := fun w =>
        if w = when then addNew (s.scripts w) (path, engine) else s.scripts w
      files :=
        if excludeFromFiles then
          (pathFromRoot root expanduser path).elim s.files (delFile root expanduser s.files)
        else s.files }
  | .delScript _ path engine when =>
    { s with
      scripts := fun w =>
        if w = when then remove (s.scripts w) (path, engine) else s.scripts w }
  | .addRemove path => { s with removes := addNew s.removes (lstrip path) }
  | .delRemove path =>
    { s with
      removes := if lstrip path ∈ s.removes then s.removes ++ [lstrip path] else s.removes }

/-- The lists after calls, from the latest on. -/
def afterCalls : List BpkCall → Lists
  | [] => ⟨[], fun _ => [], []⟩
  | call :: calls => (afterCalls calls).perform root expanduser call

/-! ### What the calls are for -/

def fileEdit : BpkCall → Option (Path × Bool)
  | .addFile path => (pathFromRoot root expanduser path).map (·, true)
  | .delFile path => (pathFromRoot root expanduser path).map (·, false)
  | .addScript cwd path _ _ true =>
    (pathFromRoot root expanduser (abspath cwd path)).map (·, false)
  | _ => none

def scriptEdit (when : When) : BpkCall → Option ((Path × Engine) × Bool)
  | .addScript cwd path engine when' _ =>
    if when = when' then some ((abspath cwd path, engine), true) else none
  | .delScript cwd path engine when' =>
    if when = when' then some ((abspath cwd path, engine), false) else none
  | _ => none

/-- A path without `.` components and leading slashes. -/
def resolved (path : Path) : Path :=
  ['/'].intercalate ((components path).filter fun comp => comp ≠ [] ∧ comp ≠ ['.'])

def removeEdit : BpkCall → Option (Path × Bool)
  | .addRemove path => some (resolved path, true)
  | .delRemove path => some (resolved path, false)
  | _ => none

/-- Calls that do what they are for: a script that is to be no file is found as one under its
path from the root, a script is deleted by its absolute path, `lstrip` takes away no more than
`.` components and slashes, and nothing is deleted that `removes` has. -/
def regular : List BpkCall → Bool
  | [] => true
  | call :: calls =>
    regular calls && match call with
      | .addFile _ | .delFile _ | .addScript _ _ _ _ false => true
      | .addScript cwd path _ _ true => (pathFromRoot root expanduser (abspath cwd path)).all
          fun file => pathFromRoot root expanduser file = some file
      | .delScript cwd path _ _ => abspath cwd path = path
      | .addRemove path => lstrip path = resolved path
      | .delRemove path =>
        lstrip path = resolved path ∧ lstrip path ∉ (afterCalls root expanduser calls).removes

/-- If the calls are regular, the lists are those of their edits. -/
theorem afterCalls_listed (calls : List BpkCall) (hregular : regular root expanduser calls = true) :
    afterCalls root expanduser calls =
      ⟨listed (calls.filterMap (fileEdit root expanduser)),
        fun when => listed (calls.filterMap (scriptEdit when)),
        listed (calls.filterMap removeEdit)⟩ := by
  induction calls with
  | nil => rfl
  | cons call calls ih =>
    obtain ⟨hcalls, hcall⟩ := Bool.and_eq_true_iff.mp hregular
    cases call with
      simp only [afterCalls, Lists.perform, ih hcalls, List.filterMap_cons, fileEdit, scriptEdit,
        removeEdit, decide_eq_true_eq, delFile] at hcall ⊢
    | addFile path | delFile path => cases pathFromRoot root expanduser path <;> rfl
    | addScript cwd path engine when excludeFromFiles =>
      congr 1
      · cases excludeFromFiles with
        | false => rfl
        | true =>
          cases hpath : pathFromRoot root expanduser (abspath cwd path) with
          | none => simp [hpath]
          | some file =>
            simp only [hpath] at hcall
            simp [hpath, delFile, of_decide_eq_true hcall, listed]
      · funext w
        split_ifs <;> rfl
    | delScript cwd path engine when =>
      congr 1
      funext w
      rw [hcall]
      split_ifs <;> rfl
    | addRemove path => rw [hcall, listed]
    | delRemove path =>
      rw [if_neg hcall.2, listed, ← hcall.1, remove_of_notMem hcall.2]

/-- If the calls are regular, no list has duplicates, and each has the entries that the last
call for them has added. -/
theorem lists_edited (calls : List BpkCall) (hregular : regular root expanduser calls = true) :
    Edited (calls.filterMap (fileEdit root expanduser)) (afterCalls root expanduser calls).files ∧
      (∀ when, Edited (calls.filterMap (scriptEdit when))
        ((afterCalls root expanduser calls).scripts when)) ∧
      Edited (calls.filterMap removeEdit) (afterCalls root expanduser calls).removes := by
  rw [afterCalls_listed root expanduser calls hregular]
  exact ⟨edited_listed _, fun _ => edited_listed _, edited_listed _⟩

/-- A file is added, made a script, and added again. -/
def fileAndScript : List BpkCall :=
  [.addFile ['.', '/', 'f'], .addScript ['/', 'r', '/'] ['f'] .sh .pre true, .addRemove ['/', 'g'],
    .addFile ['f']]

theorem lists_edited_file_and_script :
    (afterCalls ['/', 'r', '/'] id fileAndScript).files = [['f']] ∧
      ['g'] ∈ (afterCalls ['/', 'r', '/'] id fileAndScript).removes :=
  ⟨by decide, ((lists_edited ['/', 'r', '/'] id fileAndScript (by decide)).2.2.mem_iff _).mpr
    (by decide)⟩

/-- What is deleted from `removes` is then there twice; a script is deleted by the path that it
was added by, and stays; and the dot of a hidden file is no component. -/
theorem deleted_entries_stay :
    (afterCalls ['/', 'r', '/'] id [.delRemove ['g'], .addRemove ['g']]).removes = [['g'], ['g']] ∧
      (afterCalls ['/', 'r', '/'] id [.delScript ['/', 'r', '/'] ['f'] .sh .pre,
        .addScript ['/', 'r', '/'] ['f'] .sh .pre true]).scripts .pre =
        [(['/', 'r', '/', 'f'], .sh)] ∧
      (afterCalls ['/', 'r', '/'] id [.addRemove ['.', 'g']]).removes = [['g']] := by
  decide

end BeepMusic.Update.Bpk
