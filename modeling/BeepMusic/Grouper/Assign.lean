import BeepMusic.Lib.Traversal
import Mathlib.Data.String.Basic

/-!
`assign_groups` of `beepmanager_grouper.lua`: every device runs it on the
shared grouping table to decide which device is the source of which group.

The table of devices is a list of distinct names with a record for each name.
Wherever the source walks over a table with `pairs`, the order is a parameter
(`PairsOrders`), one for each loop, so that a theorem about all orders is a
theorem about every Lua implementation. A record field that the function does
not look at (`version`) is left out. Numbers are any linearly ordered type.
-/

namespace BeepMusic.Grouper

open Lib

/-- The `source` of a device that is the source of no group. -/
def noSource : String := "-1"

/-- What the table holds for one device. A device that has never been through
`assign_groups` has no `integrations` field. -/
structure Device (ν : Type) where
  source : String
  sink : String
  signal : ν
  sourceTime : ν
  integrations : Option (List String)
  deriving DecidableEq

/-- The records of a table, by device name. -/
abbrev Records (ν : Type) := String → Device ν

/-- A table of devices. -/
structure Config (ν : Type) where
  names : List String
  nodup : names.Nodup
  dev : Records ν

/-- The key under which a device is entered in `device_set`. -/
structure DeviceKey (ν : Type) where
  name : String
  signal : ν
  deriving DecidableEq

def sortDescending (x y : String) : Bool := decide (x > y)

section

variable {ν : Type} [LinearOrder ν]

def sortSignals (x y : DeviceKey ν) : Bool :=
  if x.signal = y.signal then decide (x.name > y.name) else decide (x.signal > y.signal)

/-- The orders of the `pairs` loops, in the order of the source. The loops
nested in another loop may choose anew each time they are entered. -/
structure PairsOrders (ν : Type) where
  dedupeOuter : Enumeration String
  dedupeInner : String → Enumeration String
  collectSets : Enumeration String
  cullSources : Enumeration String
  cullDevices : String → Enumeration String
  dropSourced : Enumeration String
  listGroups : Enumeration String
  buildDeviceSet : Enumeration String
  listDevices : Enumeration (DeviceKey ν)
  clearIntegrations : Enumeration String
  dropSources : Enumeration (DeviceKey ν)
  listNonSources : Enumeration (DeviceKey ν)
  delta : Enumeration String

def setSource (c : Records ν) (n g : String) : Records ν :=
  Function.update c n { c n with source := g }

def setIntegrations (c : Records ν) (n : String) (is : List String) : Records ν :=
  Function.update c n { c n with integrations := some is }

/-! ### Removing duplicate sources -/

/-- One iteration of the pairwise comparison: of two holders of one source the
one with the later `source_time` gives it up, and on equal times the one with
the smaller name. -/
def dedupePair (c : Records ν) (i j : String) : Records ν :=
  if i ≠ j then
    if (c i).source = (c j).source then
      if (c i).sourceTime > (c j).sourceTime then setSource c i noSource
      else if (c i).sourceTime < (c j).sourceTime then setSource c j noSource
      else if i > j then setSource c j noSource
      else setSource c i noSource
    else c
  else c

variable (ord : PairsOrders ν) (names : List String)

def removeDuplicateSources (c : Records ν) : Records ν :=
  (ord.dedupeOuter.order names).foldl (fun c i =>
    ((ord.dedupeInner i).order names).foldl (fun c j => dedupePair c i j) c) c

/-! ### The sets of sources and sinks -/

/-- `source_set` and `sink_set`, as lists of the keys that were entered. -/
def collectSets (c : Records ν) : List String × List String :=
  (ord.collectSets.order names).foldl (fun (sets : List String × List String) n =>
    (if (c n).source ≠ noSource then sets.1.insert (c n).source else sets.1,
      sets.2.insert (c n).sink)) ([], [])

/-- The inner loop of the culling pass: every device that claims `source`
loses it. -/
def cullDevices (source : String) (c : Records ν) : Records ν :=
  ((ord.cullDevices source).order names).foldl (fun c n =>
    if (c n).source = source then setSource c n noSource else c) c

/-- Remove the groups that have no sinks, from the table and from
`source_set`. The loop walks over a copy of the set it removes from. -/
def cullOrphanSources (sourceSet sinkSet : List String) (c : Records ν) : Records ν × List String :=
  (ord.cullSources.order sourceSet).foldl (fun (st : Records ν × List String) source =>
    if source ∈ sinkSet then st
    else (cullDevices ord names source st.1, st.2.erase source)) (c, sourceSet)

/-- Remove from `sink_set` the groups that have a source. -/
def dropSourced (sourceSet sinkSet : List String) : List String :=
  (ord.dropSourced.order sourceSet).foldl (fun sinks source => sinks.erase source) sinkSet

/-! ### Devices and integrations -/

def buildDeviceSet (c : Records ν) : List (DeviceKey ν) :=
  (ord.buildDeviceSet.order names).foldl (fun set n =>
    set ++ [{ name := n, signal := (c n).signal }]) []

/-- Append one integration, given with its position in the ordered list. -/
def dealIntegration (devices : List (DeviceKey ν)) (c : Records ν) (entry : String × ℕ) :
    Records ν :=
  match devices[entry.2 % devices.length]? with
  | some key => setIntegrations c key.name (((c key.name).integrations.getD []) ++ [entry.1])
  | none => c

/-- Clear all integrations, then deal them out to the sorted devices in turn. -/
def assignIntegrations (devices : List (DeviceKey ν)) (integrations : List String) (c : Records ν) :
    Records ν :=
  if devices.length > 0 then
    let cleared := (ord.clearIntegrations.order names).foldl (fun c n => setIntegrations c n []) c
    integrations.zipIdx.foldl (dealIntegration devices) cleared
  else c

def dropSources (c : Records ν) (deviceSet : List (DeviceKey ν)) : List (DeviceKey ν) :=
  (ord.dropSources.order deviceSet).foldl (fun set key =>
    if (c key.name).source ≠ noSource then set.erase key else set) deviceSet

/-! ### Assigning the groups without a source -/

/-- A device that listens to `group` and has not been assigned yet. -/
def awaitsGroup (c : Records ν) (group : String) (key : DeviceKey ν) : Bool :=
  decide ((c key.name).sink = group ∧ (c key.name).source = noSource)

/-- The groups without a source go, where possible, to a device that already
listens to them. A group that finds one leaves the list; the position of the
device in `nonSources` is removed from `devices`, the list that was used for the
integrations. Returned are the records, `devices` and the groups left over. -/
def assignOwnSinks (nonSources : List (DeviceKey ν)) :
    List String → Records ν → List (DeviceKey ν) →
      Records ν × List (DeviceKey ν) × List String
  | [], c, devices => (c, devices, [])
  | group :: groups, c, devices =>
    match nonSources.findIdx? (awaitsGroup c group), nonSources.find? (awaitsGroup c group) with
    | some j, some key =>
      assignOwnSinks nonSources groups (setSource c key.name group) (devices.eraseIdx j)
    | _, _ =>
      let rest := assignOwnSinks nonSources groups c devices
      (rest.1, rest.2.1, group :: rest.2.2)

/-- The groups left over go to the devices of `nonSources` from its beginning.
Running past its end is an error (an index into `nil`). -/
def assignRemaining : List String → List (DeviceKey ν) → Records ν → Option (Records ν)
  | [], _, c => some c
  | _ :: _, [], _ => none
  | group :: groups, key :: keys, c => assignRemaining groups keys (setSource c key.name group)

/-! ### The result -/

/-- The changed fields of one device. -/
structure DeltaEntry where
  sink : Option String
  source : Option String
  integrations : Option (List String)
  deriving DecidableEq

/-- The entry of one device in `delta`, if it gets one. The two `integrations`
are compared by reference: they are different objects unless both are `nil`. -/
def deltaEntry (old new : Device ν) : Option DeltaEntry :=
  let sink := if old.sink ≠ new.sink then some new.sink else none
  let source := if old.source ≠ new.source then some new.source else none
  let changed := old.integrations.isSome || new.integrations.isSome
  if sink.isSome || source.isSome || changed then
    some { sink, source, integrations := if changed then new.integrations else none }
  else none

def deltaOf (old new : Records ν) : String → Option DeltaEntry :=
  (ord.delta.order names).foldl (fun delta n =>
    Function.update delta n (deltaEntry (old n) (new n))) fun _ => none

/-- `assign_groups`. The list `integrations` is the answer of
`apps:get_ordered_integrations()`; `none` is a Lua error. -/
def assignGroups (integrations : List String) (config : Config ν) :
    Option (Config ν × (String → Option DeltaEntry)) :=
  let names := config.names
  let deduped := removeDuplicateSources ord names config.dev
  let sets := collectSets ord names deduped
  let culled := cullOrphanSources ord names sets.1 sets.2 deduped
  let sinkSet := dropSourced ord culled.2 sets.2
  let groups := tableSort sortDescending (ord.listGroups.order sinkSet)
  let deviceSet := buildDeviceSet ord names culled.1
  let devices := tableSort sortSignals (ord.listDevices.order deviceSet)
  let integrated := assignIntegrations ord names devices integrations culled.1
  let nonSourceSet := dropSources ord integrated deviceSet
  let nonSources := tableSort sortSignals (ord.listNonSources.order nonSourceSet)
  let own := assignOwnSinks nonSources groups integrated devices
  (assignRemaining own.2.2 nonSources own.1).map fun new =>
    ({ config with dev := new }, deltaOf ord names config.dev new)

end

end BeepMusic.Grouper
