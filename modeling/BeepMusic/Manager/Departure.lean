import BeepMusic.Manager.Grouping

/-!
What the calls of the manager leave in the distributor. When this device stops being a source it
removes all players, but players that were still to be added one after the other are added
afterwards. The distributor stays empty if none were left.
-/

namespace BeepMusic.Manager

open Lib BeepMusic.Grouper List Option

variable {ν : Type}

/-- The ids of the players after a call. -/
def Call.apply (players : List String) : Call → List String
  | .addPlayer player => players.insert player.id
  | .removeDevice id => players.erase id
  | .removeAllDevices => []
  | .commStart | .commStop | .setContext _ => players

/-- The players that are added after the answer to a call. -/
def Done.deviceList : Done → List PlayerInfo
  | .addPlayer deviceList => deviceList
  | .log | .startAll | .cleared | .stopAll => []

namespace Grouping

variable {s s' : Grouping ν}

/-- The players that the calls so far leave in the distributor. -/
def players (s : Grouping ν) : List String := s.sent.foldl Call.apply []

/-- No players are left to be added after an answer. -/
def Drained (s : Grouping ν) : Prop := ∀ done ∈ s.outstanding, done.deviceList = []
deriving Decidable

/-- The distributor has no players and gets none from the answers. -/
structure Vacant (s : Grouping ν) : Prop where
  players : s.players = []
  drained : s.Drained

theorem players_ubusCall (s : Grouping ν) (call : Call) (done : Done) :
    (s.ubusCall call done).players = call.apply s.players :=
  foldl_append

variable {done : Done}

theorem Drained.ubusCall (h : s.Drained) (call : Call) (hdone : done.deviceList = []) :
    (s.ubusCall call done).Drained := by
  intro d hd
  rcases mem_append.mp hd with hold | hnew
  · exact h d hold
  · exact mem_singleton.mp hnew ▸ hdone

theorem Vacant.ubusCall (h : s.Vacant) {call : Call} (hcall : call.apply [] = [])
    (hdone : done.deviceList = []) : (s.ubusCall call done).Vacant :=
  ⟨by rw [players_ubusCall, h.players, hcall], h.drained.ubusCall call hdone⟩

/-! ### The groups of the devices -/

/-- Every device that is known has a group. -/
structure Sinks (s : Grouping ν) : Prop where
  sinkId : s.sinkId ≠ noSource
  pending : s.pendingSinkId ≠ some noSource
  reports : ∀ r ∈ s.reports, r.sinkId ≠ noSource
  devices : ∀ id dev, s.devices.lookup id = some dev → dev.sinkId ≠ noSource

section

variable (h : s.Sinks)
include h

theorem Sinks.report : s.report.sinkId ≠ noSource := by
  show s.pendingSinkId.getD s.sinkId ≠ noSource
  cases hpending : s.pendingSinkId with
  | none => exact h.sinkId
  | some g => exact fun hg => h.pending (hpending.trans (congrArg some hg))

theorem Sinks.of_eq (hsink : s'.sinkId = s.sinkId) (hpending : s'.pendingSinkId = s.pendingSinkId)
    (hreports : s'.reports = s.reports) (hdevices : s'.devices = s.devices) : s'.Sinks :=
  ⟨hsink ▸ h.sinkId, hpending ▸ h.pending, hreports ▸ h.reports, hdevices ▸ h.devices⟩

theorem Sinks.triggerUpdate : s.triggerUpdate.Sinks := by
  refine { h with reports := fun r hr => ?_ }
  rcases mem_append.mp hr with hold | hnew
  · exact h.reports r hold
  · exact mem_singleton.mp hnew ▸ h.report

theorem Sinks.insert (id : String) {dev : KnownDevice ν} (hdev : dev.sinkId ≠ noSource) :
    Sinks { s with devices := s.devices.insert id dev } := by
  refine { h with devices := fun id' dev' hlookup => ?_ }
  by_cases hid : id' = id
  · subst hid
    rw [AList.lookup_insert] at hlookup
    exact Option.some.inj hlookup ▸ hdev
  · rw [AList.lookup_insert_ne hid] at hlookup
    exact h.devices id' dev' hlookup

theorem Sinks.commitSink : s.commitSink.Sinks := by
  rw [Grouping.commitSink]
  split
  · rename_i g hg
    have hne : g ≠ noSource := fun heq => h.pending (hg.trans (congrArg some heq))
    exact ⟨hne, by simp, h.reports, h.devices⟩
  · exact h

theorem Sinks.erase (id : String) : Sinks { s with devices := s.devices.erase id } := by
  refine { h with devices := fun id' dev hlookup => ?_ }
  by_cases hid : id' = id
  · rw [hid, AList.lookup_erase] at hlookup
    cases hlookup
  · rw [AList.lookup_erase_ne hid] at hlookup
    exact h.devices id' dev hlookup

theorem Sinks.setGroup (deviceId groupId : String) (found : Bool) :
    (s.setGroup deviceId groupId found).Sinks := by
  rw [Grouping.setGroup]
  split
  · exact h.of_eq rfl rfl rfl rfl
  · split
    · exact h.of_eq rfl rfl rfl rfl
    · split
      · exact h.of_eq rfl rfl rfl rfl
      · rename_i hgroup
        have hpending : Sinks { s with pendingSinkId := some groupId } :=
          { h with pending := fun heq => hgroup (Option.some.inj heq) }
        exact hpending.triggerUpdate.of_eq rfl rfl rfl rfl

end

theorem kept_sinks : Kept (Sinks : Grouping ν → Prop) where
  ubusCall _ _ _ h := h.of_eq rfl rfl rfl rfl
  triggerUpdate _ h := h.triggerUpdate
  sourceTime _ _ h := h.of_eq rfl rfl rfl rfl

theorem Sinks.setSourceId (h : s.Sinks) (c : Choices ν) (sourceId : String) :
    (s.setSourceId c sourceId).Sinks := by
  refine kept_sinks.setSourceId h c ?_
  rintro devices (rfl | ⟨dev, hown, rfl⟩)
  · exact h.of_eq rfl rfl rfl rfl
  · have hdev : (dev.setSource sourceId).sinkId ≠ noSource := h.devices _ dev hown
    exact (h.insert s.device.deviceId hdev).of_eq rfl rfl rfl rfl

/-! ### The source -/

theorem kept_sourceId (sourceId : String) : Kept fun s : Grouping ν => s.sourceId = sourceId :=
  ⟨fun _ _ _ => id, fun _ => id, fun _ _ => id⟩

theorem sourceId_setSourceId (s : Grouping ν) (c : Choices ν) (sourceId : String) :
    (s.setSourceId c sourceId).sourceId = sourceId := by
  rw [Grouping.setSourceId]
  split
  · assumption
  · exact (kept_sourceId sourceId).newSource rfl c sourceId

theorem sourceId_applyGroups (s : Grouping ν) (c : Choices ν) (newConfig : Config ν)
    (delta : String → Option DeltaEntry) :
    (s.applyGroups c newConfig delta).sourceId = (s.applyDelta c delta).sourceId :=
  (kept_sourceId _).updateSinks ((kept_sourceId _).applyIntegrations rfl c newConfig) _ _

/-! ### Leaving a group -/

/-- Calls that have been sent and not been answered are all that matters. -/
theorem Vacant.of_eq (h : s.Vacant) (hsent : s'.sent = s.sent)
    (houtstanding : s'.outstanding = s.outstanding) : s'.Vacant where
  players := (congrArg (foldl Call.apply []) hsent).trans h.players
  drained := fun done hdone => h.drained done (houtstanding ▸ hdone)

theorem Drained.removeAll (h : s.Drained) : (s.ubusCall .removeAllDevices .cleared).Vacant :=
  ⟨players_ubusCall s _ _, h.ubusCall _ rfl⟩

theorem Vacant.removeDeviceFromDistributor (h : s.Vacant) (id : String) :
    (s.removeDeviceFromDistributor id).Vacant :=
  h.ubusCall rfl rfl

theorem Vacant.applyIntegrations (h : s.Vacant) (c : Choices ν) (newConfig : Config ν) :
    (s.applyIntegrations c newConfig).Vacant := by
  rw [Grouping.applyIntegrations, Grouping.syncIntegrations]
  split
  · split
    · exact h.of_eq rfl rfl
    · exact h
  · exact h

/-- While this device is no source, the devices only leave. -/
theorem Vacant.updateSinks (h : s.Vacant) (hsource : s.sourceId = noSource)
    (order : Enumeration String) {newConfig : Config ν}
    (hsinks : ∀ id ∈ newConfig.names, (newConfig.dev id).sink ≠ noSource) :
    (s.updateSinks order newConfig).Vacant := by
  have hids : ∀ id ∈ order.order newConfig.names, (newConfig.dev id).sink ≠ noSource :=
    fun id hid => hsinks id (order.mem_order.mp hid)
  rw [Grouping.updateSinks]
  generalize order.order newConfig.names = ids at hids
  induction ids generalizing s with
  | nil => exact h
  | cons id ids ih =>
    have hne : (newConfig.dev id).sink ≠ s.sourceId := hsource ▸ hids id (.head ids)
    rw [foldl_cons, if_neg hne]
    exact ih (h.removeDeviceFromDistributor id) hsource fun id' hid' => hids id' (.tail id hid')

/-- As long as this device is no source, the distributor is empty. -/
structure Empties (s : Grouping ν) : Prop where
  sinks : s.Sinks
  vacant : s.sourceId = noSource → s.Vacant

theorem Empties.of_eq (h : s.Empties) (hsinks : s'.Sinks) (hsource : s'.sourceId = s.sourceId)
    (hsent : s'.sent = s.sent) (houtstanding : s'.outstanding = s.outstanding) : s'.Empties :=
  ⟨hsinks, fun hnone => (h.vacant (hsource.symm.trans hnone)).of_eq hsent houtstanding⟩

theorem Empties.scheduleGroupStateProcessor (h : s.Empties) :
    s.scheduleGroupStateProcessor.Empties := by
  rw [Grouping.scheduleGroupStateProcessor]
  split <;> exact h.of_eq (h.sinks.of_eq rfl rfl rfl rfl) rfl rfl rfl

theorem Empties.applyDelta (h : s.Empties) (c : Choices ν) (delta : String → Option DeltaEntry)
    (hdrained : s.sourceId ≠ noSource → (s.applyDelta c delta).sourceId = noSource → s.Drained) :
    (s.applyDelta c delta).Empties := by
  rw [Grouping.applyDelta] at hdrained ⊢
  split
  · rename_i sourceId hdelta
    rw [hdelta] at hdrained
    refine ⟨h.sinks.setSourceId c sourceId, fun hnone => ?_⟩
    rw [sourceId_setSourceId] at hnone
    simp only [sourceId_setSourceId] at hdrained
    rw [Grouping.setSourceId]
    split
    · rename_i hsame
      exact h.vacant (hsame.trans hnone)
    · rename_i hsame
      have hs : s.Drained := hdrained (fun heq => hsame (heq.trans hnone.symm)) hnone
      rw [Grouping.newSource, if_neg (not_not_intro hnone)]
      exact Drained.removeAll hs
  · exact h

theorem Empties.applyGroups (h : s.Empties) (c : Choices ν) {newConfig : Config ν}
    {delta : String → Option DeltaEntry}
    (hsinks : ∀ id ∈ newConfig.names, (newConfig.dev id).sink ≠ noSource)
    (hdrained : s.sourceId ≠ noSource → (s.applyGroups c newConfig delta).sourceId = noSource →
      s.Drained) : (s.applyGroups c newConfig delta).Empties := by
  rw [sourceId_applyGroups] at hdrained
  have hdelta := h.applyDelta c delta hdrained
  refine ⟨?_, fun hnone => ?_⟩
  · exact kept_sinks.updateSinks (kept_sinks.applyIntegrations hdelta.sinks c newConfig) _ _
  · rw [sourceId_applyGroups] at hnone
    exact ((hdelta.vacant hnone).applyIntegrations c newConfig).updateSinks
      ((kept_sourceId _).applyIntegrations hnone c newConfig) c.newConfig hsinks

theorem config_sink (h : s.Sinks) {id : String} (hid : id ∈ s.config.names) :
    (s.config.dev id).sink ≠ noSource := by
  obtain ⟨dev, hdev⟩ :=
    isSome_iff_exists.mp (AList.lookup_isSome.mpr (AList.mem_keys.mpr hid))
  have hsink : (s.config.dev id).sink = dev.sinkId := by
    simp [Grouping.config, hdev]
  exact hsink ▸ h.devices id dev hdev

theorem Empties.groupStateEventHandler (h : s.Empties) {config : DeviceReport ν}
    (hconfig : config.sinkId ≠ noSource) (ip : String) (port : ℕ) :
    (s.groupStateEventHandler config ip port).Empties :=
  (h.of_eq (h.sinks.insert config.deviceId hconfig) rfl rfl rfl).scheduleGroupStateProcessor

theorem Empties.removeDeviceFromDistributor (h : s.Empties) (id : String) :
    (s.removeDeviceFromDistributor id).Empties :=
  ⟨kept_sinks.ubusCall s _ _ h.sinks,
    fun hnone => (h.vacant hnone).removeDeviceFromDistributor id⟩

theorem Empties.onDeviceRemoved (h : s.Empties) (id : String) : (s.onDeviceRemoved id).Empties := by
  refine Empties.removeDeviceFromDistributor ?_ id
  rw [Grouping.deviceRemoved]
  split
  · exact (h.of_eq (h.sinks.erase id) rfl rfl rfl).scheduleGroupStateProcessor
  · exact h

theorem Empties.setGroup (h : s.Empties) (deviceId groupId : String) (found : Bool) :
    (s.setGroup deviceId groupId found).Empties := by
  have hreply : ∀ r, (s.reply r).Empties :=
    fun r => h.of_eq (h.sinks.of_eq rfl rfl rfl rfl) rfl rfl rfl
  refine ⟨h.sinks.setGroup deviceId groupId found, ?_⟩
  rw [Grouping.setGroup]
  split
  · exact (hreply _).vacant
  · split
    · exact (hreply _).vacant
    · split
      · exact (hreply _).vacant
      · intro hnone
        have hcall : (s.ubusCall (.setContext ("group." ++ groupId)) .log).Vacant :=
          (h.vacant hnone).ubusCall rfl rfl
        exact hcall.of_eq rfl rfl

/-- The answer to a call adds only what was left to be added. -/
theorem Empties.onDone (h : s.Empties) (hdone : s.sourceId = noSource → done.deviceList = []) :
    (s.onDone done).Empties := by
  refine ⟨kept_sinks.onDone h.sinks done, fun hnone => ?_⟩
  rw [(kept_sourceId s.sourceId).onDone rfl done] at hnone
  cases done with
  | log | startAll | stopAll => exact h.vacant hnone
  | addPlayer deviceList =>
    obtain rfl : deviceList = [] := hdone hnone
    exact (h.vacant hnone).ubusCall rfl rfl
  | cleared =>
    have hcall : (s.ubusCall .commStop .stopAll).Vacant := (h.vacant hnone).ubusCall rfl rfl
    exact hcall.of_eq rfl rfl

theorem Empties.answer (h : s.Empties) {n : ℕ} (hn : s.outstanding[n]? = some done) :
    ({ s with outstanding := s.outstanding.eraseIdx n }.onDone done).Empties := by
  have herased : Empties { s with outstanding := s.outstanding.eraseIdx n } := by
    refine ⟨h.sinks.of_eq rfl rfl rfl rfl, fun hnone => ⟨(h.vacant hnone).players, ?_⟩⟩
    intro d hd
    exact (h.vacant hnone).drained d (mem_of_mem_eraseIdx hd)
  exact herased.onDone fun hnone => (h.vacant hnone).drained done (mem_of_getElem? hn)

theorem empties_initial [OfNat ν 0] {device : LocalDevice ν}
    (hgroup : device.groupId ≠ some noSource) :
    (initial device).Empties := by
  have hsink : device.groupId.getD "1" ≠ noSource := by
    cases hid : device.groupId with
    | none => decide
    | some g => exact fun hg => hgroup (hid.trans (congrArg some hg))
  refine ⟨⟨hsink, by simp [initial], nofun, nofun⟩,
    fun _ => ⟨rfl, nofun⟩⟩

variable [LinearOrder ν]

/-- No players are left to be added when this device stops being a source. -/
def LeavesDrained (integrations : List String) (s : Grouping ν) (e : GroupingEvent ν) : Prop :=
  ∀ s' ∈ s.step integrations e, s.sourceId ≠ noSource → s'.sourceId = noSource → s.Drained

theorem Empties.processGroupState {integrations : List String} {c : Choices ν} (h : s.Empties)
    (hstep : s.processGroupState integrations c = some s')
    (hdrained : s.sourceId ≠ noSource → s'.sourceId = noSource → s.Drained) : s'.Empties := by
  rw [Grouping.processGroupState] at hstep
  split at hstep
  · cases hstep
    exact h.of_eq (h.sinks.of_eq rfl rfl rfl rfl) rfl rfl rfl
  · obtain ⟨⟨newConfig, delta⟩, hassign, rfl⟩ := map_eq_some_iff.mp hstep
    have htimer : Empties { s with processTimer := false } :=
      h.of_eq (h.sinks.of_eq rfl rfl rfl rfl) rfl rfl rfl
    have hsame : { s with processTimer := false }.commitSink.sourceId = s.sourceId ∧
        { s with processTimer := false }.commitSink.outstanding = s.outstanding := by
      rw [Grouping.commitSink]
      split <;> exact ⟨rfl, rfl⟩
    have hcommit : { s with processTimer := false }.commitSink.Empties := by
      refine htimer.of_eq htimer.sinks.commitSink hsame.1 ?_ hsame.2
      rw [Grouping.commitSink]
      split <;> rfl
    obtain ⟨hnames, hsinks⟩ := assignGroups_sink hassign
    refine hcommit.applyGroups c (fun id hid => ?_) fun hne hnone done hdone => ?_
    · rw [hsinks]
      exact config_sink hcommit.sinks (hnames ▸ hid)
    · exact hdrained (hsame.1 ▸ hne) hnone done (hsame.2 ▸ hdone)

end Grouping

/-- Another device reports a group that it is in. -/
def GroupingEvent.InGroup : GroupingEvent ν → Prop
  | .report config _ _ => config.sinkId ≠ noSource
  | _ => True

namespace Grouping

variable [LinearOrder ν] {s s' : Grouping ν}

theorem Empties.step {integrations : List String} {e : GroupingEvent ν} (h : s.Empties)
    (hdrained : s.LeavesDrained integrations e) (hgroup : e.InGroup)
    (hstep : s.step integrations e = some s') : s'.Empties := by
  have hdrained' := hdrained s' hstep
  cases e with try cases hstep
  | setGroup deviceId groupId uuid found => exact h.setGroup deviceId (groupId.getD uuid) found
  | ready => exact h.of_eq h.sinks.triggerUpdate rfl rfl rfl
  | deliver =>
    simp only [Grouping.step] at hstep
    split at hstep
    · cases hstep
    · rename_i config reports hreports
      cases hstep
      have hsinks : Sinks { s with reports := reports } := by
        refine ⟨h.sinks.sinkId, h.sinks.pending, fun r hr => ?_, h.sinks.devices⟩
        exact h.sinks.reports r (hreports ▸ .tail config hr)
      have hrest : Empties { s with reports := reports } := h.of_eq hsinks rfl rfl rfl
      exact hrest.groupStateEventHandler (h.sinks.reports config (hreports ▸ .head reports)) _ _
  | report config ip port =>
    obtain ⟨-, hs'⟩ := ite_none_left_eq_some.mp hstep
    exact Option.some.inj hs' ▸ h.groupStateEventHandler hgroup ip port
  | removed id => exact h.onDeviceRemoved id
  | processTimer c =>
    obtain ⟨-, hs'⟩ := ite_none_right_eq_some.mp hstep
    exact h.processGroupState hs' hdrained'
  | persistTimer =>
    obtain ⟨-, rfl⟩ := ite_some_none_eq_some.mp hstep
    exact h.of_eq (h.sinks.of_eq rfl rfl rfl rfl) rfl rfl rfl
  | answer n =>
    obtain ⟨done, hn, rfl⟩ := map_eq_some_iff.mp hstep
    exact h.answer hn

instance (integrations : List String) (s : Grouping ν) (e : GroupingEvent ν) :
    Decidable (s.LeavesDrained integrations e) :=
  Option.decidableForallMem (s.step integrations e)

end Grouping

instance (e : GroupingEvent ν) : Decidable e.InGroup :=
  match e with
  | .report _ _ _ => inferInstanceAs (Decidable (_ ≠ _))
  | .setGroup _ _ _ _ | .ready | .deliver | .removed _ | .processTimer _ | .persistTimer
  | .answer _ => inferInstanceAs (Decidable True)

/-- While this device is no source its calls leave the distributor without players, if no players
were left to be added each time it stopped being one, and all devices are in groups. -/
theorem distributor_empty_of_drained [LinearOrder ν] [OfNat ν 0] {integrations : List String}
    {device : LocalDevice ν} {s : Grouping ν} (hgroup : device.groupId ≠ some noSource)
    (h : (grouping integrations device).ReachableUnder
      (fun s e => s.LeavesDrained integrations e ∧ e.InGroup) s)
    (hsource : s.sourceId = noSource) : s.players = [] := by
  have hempties := h.invariant (I := Grouping.Empties) (Grouping.empties_initial hgroup)
    fun s e s' hs hok hstep => hs.step hok.1 hok.2 hstep
  exact (hempties.vacant hsource).players

/-- A report of another device in group 1. -/
def GroupingEvent.bath (sourceId : String) (sourceTime : ℤ) : GroupingEvent ℤ :=
  .report ⟨"b", "1", sourceId, -50, sourceTime, "Bath"⟩ "10.0.0.2" 29418

/-- The device becomes the source of its group and adds both players, the other device turns out
to have been the source for longer, and the players are removed. -/
theorem distributor_empty_of_drained_bath :
    ∃ s : Grouping ℤ, (grouping [] .kitchen).ReachableUnder
      (fun s e => s.LeavesDrained [] e ∧ e.InGroup) s ∧
      .addPlayer ⟨"10.0.0.2", 29418, "b", "Bath"⟩ ∈ s.sent ∧ s.sourceId = noSource ∧
      s.players = [] := by
  obtain ⟨s, -, hs, hsent, hsource⟩ := System.exists_reachableUnder (grouping [] .kitchen)
    (fun s e => s.LeavesDrained [] e ∧ e.InGroup)
    [.ready, .deliver, .bath noSource 0, .processTimer (.atTime 5), .processTimer (.atTime 5),
      .answer 0, .answer 2, .bath "1" 3, .deliver, .processTimer (.atTime 6),
      .processTimer (.atTime 6)]
    (fun s => .addPlayer ⟨"10.0.0.2", 29418, "b", "Bath"⟩ ∈ s.sent ∧
      s.sourceId = noSource) (by decide +kernel) (by decide +kernel)
  exact ⟨s, hs, hsent, hsource, distributor_empty_of_drained (by decide) hs hsource⟩

/-- The same, but the first player is answered after the device has left: the other one is added
then, and is in the distributor when all calls have been answered. -/
theorem distributor_keeps_player :
    ∃ s : Grouping ℤ, (grouping [] .kitchen).ReachableUnder (fun _ e => e.InGroup) s ∧
      s.outstanding = [] ∧ s.sourceId = noSource ∧ s.players = ["b"] := by
  obtain ⟨s, -, hs, htest⟩ := System.exists_reachableUnder (grouping [] .kitchen)
    (fun _ e => e.InGroup)
    [.ready, .deliver, .bath noSource 0, .processTimer (.atTime 5), .processTimer (.atTime 5),
      .bath "1" 3, .deliver, .processTimer (.atTime 6), .processTimer (.atTime 6),
      .answer 0, .answer 0, .answer 0, .answer 0, .answer 0, .answer 0, .answer 0, .answer 0,
      .answer 0]
    (fun s => s.outstanding = [] ∧ s.sourceId = noSource ∧ s.players = ["b"])
    (by decide +kernel) (by decide +kernel)
  exact ⟨s, hs, htest⟩

end BeepMusic.Manager
