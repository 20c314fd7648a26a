import BeepMusic.Grouper.Grouping

/-!
The `delta` that `assign_groups` returns beside the new table. Written over the
old table it gives the new one, since the passes change nothing but sources and
integrations.
-/

namespace BeepMusic.Grouper

open Lib Option

variable {ν : Type}

/-- A record with the fields of its entry written over it. -/
def Device.overwrite (d : Device ν) : Option DeltaEntry → Device ν
  | none => d
  | some entry =>
    { d with
      sink := entry.sink.getD d.sink
      source := entry.source.getD d.source
      integrations := entry.integrations.or d.integrations }

/-- The two records differ in a field that `delta` is about. -/
def Differs (old new : Device ν) : Prop :=
  old.sink ≠ new.sink ∨ old.source ≠ new.source ∨ old.integrations ≠ new.integrations
deriving Decidable

/-! ### One entry -/

/-- The fields that no pass writes. -/
def SameStatus (old new : Device ν) : Prop :=
  old.signal = new.signal ∧ old.sourceTime = new.sourceTime

theorem getD_changed (a b : String) : (if a ≠ b then some b else none).getD a = b := by
  by_cases h : a = b <;> simp [h]

theorem overwrite_deltaEntry {old new : Device ν} (hstatus : SameStatus old new)
    (hnew : new.integrations.isSome = true) : old.overwrite (deltaEntry old new) = new := by
  obtain ⟨source, sink, signal, time, list⟩ := new
  obtain ⟨hsignal, htime⟩ := hstatus
  obtain ⟨list, rfl⟩ := isSome_iff_exists.mp hnew
  simp only [deltaEntry, isSome_some, Bool.or_true, if_true, Device.overwrite,
    getD_changed, some_or, hsignal, htime]

/-- A device with a list of integrations has an entry, changed or not. -/
theorem deltaEntry_isSome {old new : Device ν} (hnew : new.integrations.isSome = true) :
    (deltaEntry old new).isSome = true := by
  simp [deltaEntry, hnew]

/-! ### What the passes leave alone -/

/-- The tables agree but for sources. -/
def SameButSource (c c' : Records ν) : Prop := ∀ n, (c' n).cleared = (c n).cleared

theorem SameButSource.trans {c c' c'' : Records ν} (h : SameButSource c c')
    (h' : SameButSource c' c'') : SameButSource c c'' :=
  fun n => (h' n).trans (h n)

theorem sameButSource_setSource (c : Records ν) (n g : String) :
    SameButSource c (setSource c n g) := by
  intro m
  by_cases hm : m = n
  · subst hm
    rw [setSource_self]
    rfl
  · rw [setSource_of_ne c g hm]

theorem sameButSource_assignOwnSinks (keys : List (DeviceKey ν)) (gs : List String)
    (c : Records ν) (devices : List (DeviceKey ν)) :
    SameButSource c (assignOwnSinks keys gs c devices).1 := by
  induction gs generalizing c devices with
  | nil => exact fun _ => rfl
  | cons g gs ih =>
    rw [assignOwnSinks]
    split
    · exact (sameButSource_setSource c _ g).trans (ih _ _)
    · exact ih c devices

theorem sameButSource_assignRemaining {groups : List String} {keys : List (DeviceKey ν)}
    {c new : Records ν} (h : assignRemaining groups keys c = some new) :
    SameButSource c new := by
  induction groups generalizing keys c with
  | nil =>
    cases h
    exact fun _ => rfl
  | cons g groups ih =>
    cases keys with
    | nil => cases h
    | cons key keys => exact (sameButSource_setSource c key.name g).trans (ih h)

/-- Dealing out the integrations keeps the status, and every listed device has a
list. -/
def Listed (names : List String) (c c' : Records ν) : Prop :=
  ∀ n, SameStatus (c n) (c' n) ∧ (n ∈ names → (c' n).integrations.isSome = true)

theorem Listed.setIntegrations {names : List String} {c c' : Records ν} (h : Listed names c c')
    (m : String) (is : List String) : Listed names c (setIntegrations c' m is) := by
  intro n
  by_cases hn : n = m
  · subst hn
    rw [Grouper.setIntegrations, Function.update_self]
    exact ⟨(h n).1, fun _ => rfl⟩
  · rw [Grouper.setIntegrations, Function.update_of_ne hn]
    exact h n

theorem listed_dealIntegrations (names : List String) {devices : List (DeviceKey ν)}
    (hdevices : 0 < devices.length) (integrations : List String) (c : Records ν) :
    Listed names c (dealIntegrations names devices integrations c) := by
  rw [dealIntegrations, if_pos hdevices]
  have hcleared : Listed names c (withoutIntegrations names c) := by
    intro n
    rw [withoutIntegrations]
    split
    · exact ⟨⟨rfl, rfl⟩, fun _ => rfl⟩
    · exact ⟨⟨rfl, rfl⟩, fun hn => absurd hn ‹_›⟩
  generalize withoutIntegrations names c = start at hcleared
  induction integrations.zipIdx generalizing start with
  | nil => exact hcleared
  | cons entry entries ih =>
    refine ih _ ?_
    rw [dealIntegration]
    split
    · exact hcleared.setIntegrations _ _
    · exact hcleared

/-! ### The delta of a run -/

theorem SameStatus.of_cleared {old new : Device ν} (h : new.cleared = old.cleared) :
    SameStatus old new :=
  ⟨(congrArg Device.signal h).symm, (congrArg Device.sourceTime h).symm⟩

theorem SameStatus.trans {a b c : Device ν} (h : SameStatus a b) (h' : SameStatus b c) :
    SameStatus a c :=
  ⟨h.1.trans h'.1, h.2.trans h'.2⟩

variable [LinearOrder ν]

theorem sameButSource_settled (names : List String) (c : Records ν) :
    SameButSource c (settled names c) := by
  intro n
  rw [settled]
  split <;> rfl

/-- The new record of a device: its status is as before, and it has a list of
integrations. -/
theorem assigned_listed {integrations names : List String} {c new : Records ν}
    (h : assigned integrations names c = some new) {n : String} (hn : n ∈ names) :
    SameStatus (c n) (new n) ∧ (new n).integrations.isSome = true := by
  have hdevices : 0 < (rankedDevices names c).length := by
    rw [rankedDevices, length_tableSort, List.length_map]
    exact List.length_pos_of_mem hn
  have hsettled := SameStatus.of_cleared (sameButSource_settled names c n)
  obtain ⟨hstatus, hlist⟩ := listed_dealIntegrations names hdevices integrations
    (settled names c) n
  have hsources := (sameButSource_assignOwnSinks (freeDevices names c) (openGroups names c)
    (dealIntegrations names (rankedDevices names c) integrations (settled names c))
    (rankedDevices names c)).trans (sameButSource_assignRemaining h) n
  refine ⟨(hsettled.trans hstatus).trans (.of_cleared hsources), ?_⟩
  have hintegrations := congrArg Device.integrations hsources
  exact (congrArg isSome hintegrations).trans (hlist hn)

end BeepMusic.Grouper
