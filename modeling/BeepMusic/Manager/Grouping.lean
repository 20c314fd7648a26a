import Mathlib.Data.List.AList
import BeepMusic.Grouper.Grouping
import BeepMusic.Lib.System

/-!
The grouping of `beepmanager.lua` and `beepmanager_grouping.lua`: the table of the devices that
are known, the group of this device with a change of it that is pending, and the calls that keep
the distributor up to date. A call is sent at once and answered at any time; what follows the
answer is kept with the call. `on_grouping_changed` is always called with one argument, and
each of its blocks is a function here.
-/

namespace BeepMusic.Manager

open Lib BeepMusic.Grouper

/-- What the distributor is told of a player. -/
structure PlayerInfo where
  ip : String
  port : ℕ
  id : String
  name : String
  deriving DecidableEq

/-- A call of `beep.distributor`, `beep.comm.control` or `beep.io`. -/
inductive Call
  | addPlayer (player : PlayerInfo)
  | removeDevice (id : String)
  | removeAllDevices
  | commStart
  | commStop
  | setContext (context : String)
  deriving DecidableEq

/-- What is done when a call has been answered. -/
inductive Done
  /-- A line is logged. -/
  | log
  /-- `add_player` goes on with the rest of its `device_list`. -/
  | addPlayer (deviceList : List PlayerInfo)
  | startAll
  /-- The distributor has been cleared. -/
  | cleared
  | stopAll
  deriving DecidableEq

/-- The fields of `state.local_device` that the grouping of other devices uses. -/
structure DeviceReport (ν : Type) where
  deviceId : String
  sinkId : String
  sourceId : String
  sigAvg : ν
  sourceTime : ν
  name : String
  deriving DecidableEq

/-- An entry of `devices`. -/
structure KnownDevice (ν : Type) where
  sinkId : String
  sourceId : String
  sigAvg : ν
  sourceTime : ν
  name : String
  ip : String
  port : ℕ
  deriving DecidableEq

def KnownDevice.setSource {ν : Type} (dev : KnownDevice ν) (sourceId : String) : KnownDevice ν :=
  { dev with sourceId := sourceId }

def KnownDevice.player {ν : Type} (dev : KnownDevice ν) (id : String) : PlayerInfo :=
  ⟨dev.ip, dev.port, id, dev.name⟩

/-- What does not change of this device; `groupId` is the group that was saved. -/
structure LocalDevice (ν : Type) where
  deviceId : String
  name : String
  ip : String
  port : ℕ
  sigAvg : ν
  groupId : Option String

/-- The answer to `set_group`. A request for another device is passed on to it. -/
inductive Reply
  | success (groupId : Option String)
  | error (message : String)
  | forwarded
  deriving DecidableEq

/-- The state of grouping in the manager. -/
structure Grouping (ν : Type) where
  device : LocalDevice ν
  sourceId : String
  sourceTime : ν
  sinkId : String
  pendingSinkId : Option String
  devices : AList fun _ : String => KnownDevice ν
  /-- `process_group_state_timer` is set. -/
  processTimer : Bool
  receivedEvent : Bool
  persistTimer : Bool
  /-- `group_id` as it is saved. -/
  savedGroup : Option String
  /-- The reports in `grouping_changed` events on their way to this device itself. -/
  reports : List (DeviceReport ν)
  sent : List Call
  outstanding : List Done
  replies : List Reply

/-- What one run of `process_group_state` depends on: the orders of the `pairs` loops, whether
`sync_integrations` changed anything, and the time. -/
structure Choices (ν : Type) where
  assign : PairsOrders ν
  deviceList : Enumeration String
  newConfig : Enumeration String
  synced : Bool
  time : ν

namespace Grouping

variable {ν : Type}

def initial [OfNat ν 0] (device : LocalDevice ν) : Grouping ν where
  device := device
  sourceId := noSource
  sourceTime := 0
  sinkId := device.groupId.getD "1"
  pendingSinkId := none
  devices := ∅
  processTimer := false
  receivedEvent := false
  persistTimer := false
  savedGroup := device.groupId
  reports := []
  sent := []
  outstanding := []
  replies := []

variable (s : Grouping ν)

def ubusCall (call : Call) (done : Done) : Grouping ν :=
  { s with sent := s.sent ++ [call], outstanding := s.outstanding ++ [done] }

/-- `local_device` of `generate_state`; a sink that is pending is shown as if it were set. -/
def report : DeviceReport ν where
  deviceId := s.device.deviceId
  sinkId := s.pendingSinkId.getD s.sinkId
  sourceId := s.sourceId
  sigAvg := s.device.sigAvg
  sourceTime := s.sourceTime
  name := s.device.name

/-- `trigger_update('grouping_changed')`. The other updates say nothing to grouping. -/
def triggerUpdate : Grouping ν := { s with reports := s.reports ++ [s.report] }

def removeDeviceFromDistributor (id : String) : Grouping ν :=
  s.ubusCall (.removeDevice id) .log

/-! ### `on_grouping_changed` -/

def syncIntegrations (synced : Bool) : Grouping ν :=
  if synced then s.triggerUpdate else s

/-- The players are added one after the other, each when the one before has been answered. -/
def addPlayer : List PlayerInfo → Grouping ν
  | [] => s.ubusCall .commStart .startAll
  | dev :: deviceList => s.ubusCall (.addPlayer dev) (.addPlayer deviceList)

/-- The devices of a group, as they are known at the time. -/
def deviceList (order : Enumeration String) (sourceId : String) : List PlayerInfo :=
  (order.order s.devices.keys).filterMap fun id =>
    (s.devices.lookup id).bind fun dev =>
      if dev.sinkId = sourceId then some (dev.player id) else none

variable (c : Choices ν)

/-- The source has changed. -/
def newSource (sourceId : String) : Grouping ν :=
  if sourceId ≠ noSource then
    let s := { s with sourceTime := c.time }.triggerUpdate
    s.addPlayer (s.deviceList c.deviceList sourceId)
  else s.ubusCall .removeAllDevices .cleared

def joinSink (id : String) : Grouping ν :=
  match s.devices.lookup id with
  | some dev => s.ubusCall (.addPlayer (dev.player id)) .log
  | none => s

/-! ### The group state -/

/-- `set_source_id`; this device is in the table whenever it is called. -/
def setSourceId (sourceId : String) : Grouping ν :=
  if s.sourceId = sourceId then s
  else
    let devices := match s.devices.lookup s.device.deviceId with
      | some dev => s.devices.insert s.device.deviceId (dev.setSource sourceId)
      | none => s.devices
    { s with sourceId := sourceId, devices := devices }.newSource c sourceId

/-- The pending sink is committed. -/
def commitSink : Grouping ν :=
  match s.pendingSinkId with
  | some sinkId => { s with sinkId := sinkId, pendingSinkId := none }
  | none => s

/-- The table for `assign_groups`. It has no record of other names than its own. -/
def config : Config ν where
  names := s.devices.keys
  nodup := s.devices.keys_nodup
  dev id :=
    match s.devices.lookup id with
    | some dev => ⟨dev.sourceId, dev.sinkId, dev.sigAvg, dev.sourceTime, none⟩
    | none => ⟨noSource, noSource, s.device.sigAvg, s.sourceTime, none⟩

/-- The devices of the new configuration join the distributor or leave it. -/
def updateSinks (order : Enumeration String) (newConfig : Config ν) : Grouping ν :=
  (order.order newConfig.names).foldl (fun s id =>
    if (newConfig.dev id).sink = s.sourceId then s.joinSink id
    else s.removeDeviceFromDistributor id) s

/-- If this device is in the delta, its source changes. -/
def applyDelta (delta : String → Option DeltaEntry) : Grouping ν :=
  match (delta s.device.deviceId).bind DeltaEntry.source with
  | some sourceId => s.setSourceId c sourceId
  | none => s

def applyIntegrations (newConfig : Config ν) : Grouping ν :=
  if s.device.deviceId ∈ newConfig.names then s.syncIntegrations c.synced else s

/-- The result of `assign_groups` is put into effect. -/
def applyGroups (newConfig : Config ν) (delta : String → Option DeltaEntry) : Grouping ν :=
  ((s.applyDelta c delta).applyIntegrations c newConfig).updateSinks c.newConfig newConfig

/-- `process_group_state`, when its timer expires. After another event it waits once more. -/
def processGroupState [LinearOrder ν] (s : Grouping ν) (integrations : List String)
    (c : Choices ν) : Option (Grouping ν) :=
  if s.receivedEvent then some { s with receivedEvent := false }
  else
    let s := { s with processTimer := false }.commitSink
    (assignGroups c.assign integrations s.config).map fun result =>
      s.applyGroups c result.1 result.2

def scheduleGroupStateProcessor : Grouping ν :=
  if s.processTimer then { s with receivedEvent := true }
  else { s with processTimer := true, receivedEvent := false }

def groupStateEventHandler (config : DeviceReport ν) (ip : String) (port : ℕ) : Grouping ν :=
  scheduleGroupStateProcessor { s with
    devices := s.devices.insert config.deviceId
      ⟨config.sinkId, config.sourceId, config.sigAvg, config.sourceTime, config.name, ip, port⟩ }

/-- `device_removed` of grouping. -/
def deviceRemoved (id : String) : Grouping ν :=
  if id ∈ s.devices then scheduleGroupStateProcessor { s with devices := s.devices.erase id }
  else s

def onDeviceRemoved (id : String) : Grouping ν :=
  (s.deviceRemoved id).removeDeviceFromDistributor id

/-! ### Requests -/

def resetGroupIdPersistTimeout : Grouping ν := { s with persistTimer := true }

def onSinkIdChanged (sinkId : String) : Grouping ν :=
  (s.triggerUpdate.ubusCall (.setContext ("group." ++ sinkId)) .log).resetGroupIdPersistTimeout

def setGroupId (groupId : String) : Grouping ν :=
  { s with pendingSinkId := some groupId }.onSinkIdChanged groupId

def reply (r : Reply) : Grouping ν := { s with replies := s.replies ++ [r] }

/-- `set_group`; `found` says whether networking has the device of a request that is not for
this one. -/
def setGroup (deviceId groupId : String) (found : Bool) : Grouping ν :=
  if deviceId ≠ s.device.deviceId then
    s.reply (if found then .forwarded else .error ("Device " ++ deviceId ++ " not found"))
  else if s.sinkId = groupId then s.reply (.success none)
  else if groupId = noSource then s.reply (.error "Generic error")
  else (s.setGroupId groupId).reply (.success (some groupId))

def onGroupIdPersist : Grouping ν :=
  { s with persistTimer := false, savedGroup := some s.sinkId }

/-- A call has been answered. -/
def onDone : Done → Grouping ν
  | .log | .startAll | .stopAll => s
  | .addPlayer deviceList => s.addPlayer deviceList
  | .cleared => (s.ubusCall .commStop .stopAll).triggerUpdate

/-! ### Conditions on the state -/

/-- A condition that survives calls and updates. -/
structure Kept (P : Grouping ν → Prop) : Prop where
  ubusCall : ∀ s call done, P s → P (s.ubusCall call done)
  triggerUpdate : ∀ s, P s → P s.triggerUpdate
  sourceTime : ∀ s time, P s → P { s with sourceTime := time }

section

variable {P : Grouping ν → Prop} (h : Kept P) {s : Grouping ν} (hs : P s)
include h hs

theorem Kept.addPlayer (deviceList : List PlayerInfo) : P (s.addPlayer deviceList) := by
  cases deviceList with
  | nil | cons dev rest => exact h.ubusCall s _ _ hs

theorem Kept.newSource (c : Choices ν) (sourceId : String) : P (s.newSource c sourceId) := by
  rw [Grouping.newSource]
  split
  · exact h.addPlayer (h.triggerUpdate _ (h.sourceTime s c.time hs)) _
  · exact h.ubusCall s _ _ hs

theorem Kept.applyIntegrations (c : Choices ν) (newConfig : Config ν) :
    P (s.applyIntegrations c newConfig) := by
  rw [Grouping.applyIntegrations, syncIntegrations]
  split
  · split
    · exact h.triggerUpdate s hs
    · exact hs
  · exact hs

theorem Kept.updateSinks (order : Enumeration String) (newConfig : Config ν) :
    P (s.updateSinks order newConfig) := by
  rw [Grouping.updateSinks]
  induction order.order newConfig.names generalizing s with
  | nil => exact hs
  | cons id ids ih =>
    refine ih ?_
    dsimp only
    split
    · rw [joinSink]
      split
      · exact h.ubusCall s _ _ hs
      · exact hs
    · exact h.ubusCall s _ _ hs

theorem Kept.onDone (done : Done) : P (s.onDone done) := by
  cases done with
  | log | startAll | stopAll => exact hs
  | addPlayer deviceList => exact h.addPlayer hs deviceList
  | cleared => exact h.triggerUpdate _ (h.ubusCall s _ _ hs)

/-- The entry of this device changes with its source. -/
theorem Kept.setSourceId (c : Choices ν) {sourceId : String}
    (hset : ∀ devices, devices = s.devices ∨ (∃ dev ∈ s.devices.lookup s.device.deviceId,
      devices = s.devices.insert s.device.deviceId (dev.setSource sourceId)) →
        P { s with sourceId := sourceId, devices := devices }) :
    P (s.setSourceId c sourceId) := by
  rw [Grouping.setSourceId]
  split
  · exact hs
  · refine h.newSource (hset _ ?_) c sourceId
    cases hown : s.devices.lookup s.device.deviceId with
    | none => exact .inl rfl
    | some dev => exact .inr ⟨dev, rfl, rfl⟩

end

end Grouping

inductive GroupingEvent (ν : Type)
  /-- A request; without a group it is for a new one with the name `uuid`. -/
  | setGroup (deviceId : String) (groupId : Option String) (uuid : String) (found : Bool)
  /-- This device is ready and its own state is on its way to it. -/
  | ready
  /-- The first report of this device reaches it. -/
  | deliver
  /-- Another device reports. -/
  | report (config : DeviceReport ν) (ip : String) (port : ℕ)
  | removed (id : String)
  | processTimer (c : Choices ν)
  | persistTimer
  | answer (n : ℕ)

variable {ν : Type}

def Grouping.step [LinearOrder ν] (integrations : List String) (s : Grouping ν) :
    GroupingEvent ν → Option (Grouping ν)
  | .setGroup deviceId groupId uuid found => some (s.setGroup deviceId (groupId.getD uuid) found)
  | .ready => some s.triggerUpdate
  | .deliver =>
    match s.reports with
    | [] => none
    | config :: reports =>
      some ({ s with reports := reports }.groupStateEventHandler config s.device.ip
        s.device.port)
  | .report config ip port =>
    if config.deviceId = s.device.deviceId then none
    else some (s.groupStateEventHandler config ip port)
  | .removed id => some (s.onDeviceRemoved id)
  | .processTimer c => if s.processTimer then s.processGroupState integrations c else none
  | .persistTimer => if s.persistTimer then some s.onGroupIdPersist else none
  | .answer n =>
    s.outstanding[n]?.map fun done =>
      { s with outstanding := s.outstanding.eraseIdx n }.onDone done

/-- The grouping of a device, with everything that can happen to it in any order. -/
def grouping [LinearOrder ν] [OfNat ν 0] (integrations : List String) (device : LocalDevice ν) :
    System (Grouping ν) (GroupingEvent ν) where
  init := .initial device
  step := Grouping.step integrations

/-! A device and its choices, for concrete runs. -/

def LocalDevice.kitchen : LocalDevice ℤ := ⟨"a", "Kitchen", "10.0.0.1", 29418, -40, some "1"⟩

def Choices.atTime (time : ℤ) : Choices ℤ := ⟨.asListed, .inOrder, .inOrder, false, time⟩

end BeepMusic.Manager
