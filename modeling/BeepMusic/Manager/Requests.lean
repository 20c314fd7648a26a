import BeepMusic.Manager.Grouping

/-!
Requests for a group. A request is compared with the group that the device is in and not with a
change that is pending, so a request to stay is lost while the device is about to leave. Every
other request takes effect, whatever else happens in the meantime.
-/

namespace BeepMusic.Manager

open Lib BeepMusic.Grouper Option

variable {ν : Type}

namespace Grouping

variable {s s' : Grouping ν}

/-- The group that the device is in or about to be in. -/
def target (s : Grouping ν) : String := s.pendingSinkId.getD s.sinkId

/-- A change that is pending is one, and it will be looked at. -/
structure Heeded (s : Grouping ν) : Prop where
  changes : s.pendingSinkId ≠ some s.sinkId
  awaited : s.pendingSinkId.isSome → s.processTimer = true ∨ s.reports ≠ []

/-- Everything that was started has come to its end. -/
structure Settled (s : Grouping ν) : Prop where
  processTimer : s.processTimer = false
  persistTimer : s.persistTimer = false
  reports : s.reports = []
  outstanding : s.outstanding = []

theorem Heeded.sinkId_eq_target (h : s.Heeded) (hsettled : s.Settled) : s.sinkId = s.target := by
  cases hpending : s.pendingSinkId with
  | none => simp [target, hpending]
  | some g =>
    rcases h.awaited (by simp [hpending]) with htimer | hreports
    · cases htimer.symm.trans hsettled.processTimer
    · exact absurd hsettled.reports hreports

/-- The sinks stay and what there is to look at does. -/
structure Extends (s s' : Grouping ν) : Prop where
  device : s'.device = s.device
  sinkId : s'.sinkId = s.sinkId
  pending : s'.pendingSinkId = s.pendingSinkId
  processTimer : s.processTimer = true → s'.processTimer = true
  reports : s.reports ≠ [] → s'.reports ≠ []

theorem Extends.refl (s : Grouping ν) : s.Extends s := ⟨rfl, rfl, rfl, id, id⟩

theorem Extends.trans {t : Grouping ν} (h : s.Extends s') (h' : s'.Extends t) : s.Extends t :=
  ⟨h'.device.trans h.device, h'.sinkId.trans h.sinkId, h'.pending.trans h.pending,
    h'.processTimer ∘ h.processTimer,
    h'.reports ∘ h.reports⟩

theorem Heeded.of_extends (h : s.Heeded) (hext : s.Extends s') : s'.Heeded := by
  refine ⟨?_, fun hsome => ?_⟩
  · rw [hext.pending, hext.sinkId]
    exact h.changes
  · rw [hext.pending] at hsome
    exact (h.awaited hsome).imp hext.processTimer hext.reports

theorem Extends.target (h : s.Extends s') : s'.target = s.target := by
  rw [Grouping.target, h.pending, h.sinkId, Grouping.target]

theorem extends_triggerUpdate (s : Grouping ν) : s.Extends s.triggerUpdate :=
  ⟨rfl, rfl, rfl, id, fun _ => by simp [triggerUpdate]⟩

theorem kept_extends (s : Grouping ν) : Kept s.Extends where
  ubusCall _ _ _ h := h.trans ⟨rfl, rfl, rfl, id, id⟩
  triggerUpdate _ h := h.trans (extends_triggerUpdate _)
  sourceTime _ _ h := h.trans ⟨rfl, rfl, rfl, id, id⟩

theorem extends_applyGroups (s : Grouping ν) (c : Choices ν) (newConfig : Config ν)
    (delta : String → Option DeltaEntry) : s.Extends (s.applyGroups c newConfig delta) := by
  have hdelta : s.Extends (s.applyDelta c delta) := by
    rw [applyDelta]
    split
    · exact (kept_extends s).setSourceId (.refl s) c fun _ _ => ⟨rfl, rfl, rfl, id, id⟩
    · exact .refl s
  exact (kept_extends s).updateSinks ((kept_extends s).applyIntegrations hdelta c newConfig) _ _

theorem extends_scheduleGroupStateProcessor (s : Grouping ν) :
    s.Extends s.scheduleGroupStateProcessor := by
  rw [scheduleGroupStateProcessor]
  split
  · exact ⟨rfl, rfl, rfl, id, id⟩
  · exact ⟨rfl, rfl, rfl, fun _ => rfl, id⟩

/-- After a report the timer runs. -/
theorem processTimer_scheduleGroupStateProcessor (s : Grouping ν) :
    s.scheduleGroupStateProcessor.processTimer = true := by
  rw [scheduleGroupStateProcessor]
  split
  · assumption
  · rfl

theorem commitSink_spec (s : Grouping ν) : s.commitSink.device = s.device ∧
    s.commitSink.target = s.target ∧ s.commitSink.pendingSinkId = none := by
  rw [commitSink]
  split
  · rename_i g hg
    exact ⟨rfl, by simp [target, hg], rfl⟩
  · rename_i hnone
    exact ⟨rfl, rfl, hnone⟩

/-- Whatever happens to a heeded change apart from requests, it stays heeded and the target
stays. -/
structure Follows (s s' : Grouping ν) : Prop where
  device : s'.device = s.device
  heeded : s'.Heeded
  target : s'.target = s.target

theorem Heeded.follows_of_extends (h : s.Heeded) (hext : s.Extends s') : s.Follows s' :=
  ⟨hext.device, h.of_extends hext, hext.target⟩

theorem Heeded.processGroupState [LinearOrder ν] {integrations : List String} {c : Choices ν}
    (h : s.Heeded) (htimer : s.processTimer = true)
    (hstep : s.processGroupState integrations c = some s') : s.Follows s' := by
  rw [Grouping.processGroupState] at hstep
  split at hstep
  · cases hstep
    exact h.follows_of_extends ⟨rfl, rfl, rfl, fun _ => htimer, id⟩
  · obtain ⟨⟨newConfig, delta⟩, -, rfl⟩ := map_eq_some_iff.mp hstep
    obtain ⟨hdevice, htarget, hnone⟩ := commitSink_spec { s with processTimer := false }
    have hcommit : { s with processTimer := false }.commitSink.Heeded :=
      ⟨by simp [hnone], by simp [hnone]⟩
    have happly := hcommit.follows_of_extends (extends_applyGroups _ c newConfig delta)
    exact ⟨happly.device.trans hdevice, happly.heeded, happly.target.trans htarget⟩

theorem Heeded.onDeviceRemoved (h : s.Heeded) (deviceId : String) :
    s.Follows (s.onDeviceRemoved deviceId) := by
  have hremoved : s.Extends (s.deviceRemoved deviceId) := by
    rw [deviceRemoved]
    split
    · refine Extends.trans ?_ (extends_scheduleGroupStateProcessor _)
      exact ⟨rfl, rfl, rfl, id, id⟩
    · exact .refl s
  exact h.follows_of_extends ((kept_extends s).ubusCall _ _ _ hremoved)

/-- The report that is taken leaves the timer behind it. -/
theorem Heeded.deliver (h : s.Heeded) (config : DeviceReport ν) (reports : List (DeviceReport ν))
    (ip : String) (port : ℕ) :
    s.Follows ({ s with reports := reports }.groupStateEventHandler config ip port) := by
  have hext := extends_scheduleGroupStateProcessor { s with
    reports := reports
    devices := s.devices.insert config.deviceId
      { config with ip := ip, port := port } }
  refine ⟨hext.device, ⟨?_, fun _ => .inl (processTimer_scheduleGroupStateProcessor _)⟩,
    hext.target⟩
  rw [groupStateEventHandler, hext.pending, hext.sinkId]
  exact h.changes

/-- A request for a group. It is heeded unless the device is in the group and about to leave. -/
theorem Heeded.setGroup (h : s.Heeded) (groupId : String) (found : Bool) :
    (s.setGroup s.device.deviceId groupId found).Heeded ∧
      (groupId ≠ noSource → ((s.setGroup s.device.deviceId groupId found).target = groupId ↔
        (s.sinkId = groupId → s.pendingSinkId = none))) := by
  have hreply : ∀ r, s.Extends (s.reply r) := fun r => ⟨rfl, rfl, rfl, id, id⟩
  rw [Grouping.setGroup, if_neg (not_not_intro rfl)]
  split
  · rename_i hsink
    refine ⟨h.of_extends (hreply _), fun _ => ?_⟩
    rw [(hreply _).target]
    subst hsink
    cases hpending : s.pendingSinkId with
    | none => simp [target, hpending]
    | some g =>
      have hne : g ≠ s.sinkId := fun hg => h.changes (hpending.trans (congrArg some hg))
      simp [target, hpending, hne]
  · rename_i hsink
    split
    · rename_i hnone
      exact ⟨h.of_extends (hreply _), fun hvalid => absurd hnone hvalid⟩
    · have hset : ((s.setGroupId groupId).reply (.success (some groupId))).pendingSinkId =
          some groupId := rfl
      refine ⟨⟨fun heq => hsink (Option.some.inj heq).symm, fun _ => .inr ?_⟩, fun _ => ?_⟩
      · simp [reply, setGroupId, onSinkIdChanged, resetGroupIdPersistTimeout, ubusCall,
          triggerUpdate]
      · exact iff_of_true (by rw [target, hset]; rfl) fun heq => absurd heq hsink

end Grouping

/-- A request for the device. -/
def GroupingEvent.IsRequest (deviceId : String) (e : GroupingEvent ν) : Prop :=
  ∃ groupId uuid found, e = .setGroup deviceId groupId uuid found

namespace Grouping

variable [LinearOrder ν] {integrations : List String} {s s' : Grouping ν} {e : GroupingEvent ν}

theorem Heeded.step (h : s.Heeded) (he : ¬e.IsRequest s.device.deviceId)
    (hstep : s.step integrations e = some s') : s.Follows s' := by
  cases e with
  | setGroup deviceId groupId uuid found =>
    have hother : deviceId ≠ s.device.deviceId := by
      rintro rfl
      exact he ⟨groupId, uuid, found, rfl⟩
    cases hstep
    rw [Grouping.setGroup, if_pos hother]
    exact h.follows_of_extends ⟨rfl, rfl, rfl, id, id⟩
  | ready => exact Option.some.inj hstep ▸ h.follows_of_extends (extends_triggerUpdate s)
  | deliver =>
    simp only [Grouping.step] at hstep
    split at hstep
    · cases hstep
    · exact Option.some.inj hstep ▸ h.deliver _ _ _ _
  | report config ip port =>
    obtain ⟨-, hs'⟩ := ite_none_left_eq_some.mp hstep
    exact Option.some.inj hs' ▸ h.deliver config s.reports ip port
  | removed id => exact Option.some.inj hstep ▸ h.onDeviceRemoved id
  | processTimer c =>
    obtain ⟨htimer, hs'⟩ := ite_none_right_eq_some.mp hstep
    exact h.processGroupState htimer hs'
  | persistTimer =>
    obtain ⟨-, rfl⟩ := ite_some_none_eq_some.mp hstep
    exact h.follows_of_extends ⟨rfl, rfl, rfl, id, id⟩
  | answer n =>
    obtain ⟨done, -, rfl⟩ := map_eq_some_iff.mp hstep
    refine h.follows_of_extends ((kept_extends s).onDone ?_ done)
    exact ⟨rfl, rfl, rfl, id, id⟩

theorem heeded_of_reachable [OfNat ν 0] {device : LocalDevice ν}
    (h : (grouping integrations device).Reachable s) : s.device = device ∧ s.Heeded := by
  refine h.invariant (I := fun s => s.device = device ∧ s.Heeded) ?_ ?_
  · refine ⟨rfl, ⟨?_, nofun⟩⟩
    · simp [grouping, initial]
  · rintro s e s' ⟨hdevice, hs⟩ hstep
    by_cases he : e.IsRequest s.device.deviceId
    · obtain ⟨groupId, uuid, found, rfl⟩ := he
      cases hstep
      refine ⟨?_, (hs.setGroup _ found).1⟩
      rw [← hdevice]
      simp only [Grouping.setGroup]
      split
      · rfl
      · split
        · rfl
        · split <;> rfl
    · have hfollows := hs.step he hstep
      exact ⟨hfollows.device.trans hdevice, hfollows.heeded⟩

instance (s : Grouping ν) : Decidable s.Settled :=
  decidable_of_iff (s.processTimer = false ∧ s.persistTimer = false ∧ s.reports = [] ∧
      s.outstanding = [])
    ⟨fun h => ⟨h.1, h.2.1, h.2.2.1, h.2.2.2⟩,
      fun h => ⟨h.processTimer, h.persistTimer, h.reports, h.outstanding⟩⟩

end Grouping

/-- When everything has settled after the last request, the device is in the group of the request,
unless it was in that group already and about to leave it. -/
theorem last_request_wins_iff [LinearOrder ν] [OfNat ν 0] {integrations : List String}
    {device : LocalDevice ν} {s s' s'' : Grouping ν} {groupId : Option String} {uuid : String}
    {found : Bool} {es : List (GroupingEvent ν)} (h : (grouping integrations device).Reachable s)
    (hgroup : groupId.getD uuid ≠ noSource)
    (hrequest : s.step integrations (.setGroup device.deviceId groupId uuid found) = some s')
    (hes : ∀ e ∈ es, ¬e.IsRequest device.deviceId)
    (hrun : (grouping integrations device).runFrom s' es = some s'') (hsettled : s''.Settled) :
    s''.sinkId = groupId.getD uuid ↔ (s.sinkId = groupId.getD uuid → s.pendingSinkId = none) := by
  obtain ⟨hdevice, hs⟩ := Grouping.heeded_of_reachable h
  have hreach : (grouping integrations device).Reachable s' :=
    .step (e := .setGroup device.deviceId groupId uuid found) h trivial hrequest
  obtain ⟨hdevice', hs'⟩ := Grouping.heeded_of_reachable hreach
  have hrest : s''.device = device ∧ s''.Heeded ∧ s''.target = s'.target := by
    refine System.runFrom_invariant
      (I := fun t => t.device = device ∧ t.Heeded ∧ t.target = s'.target) hrun
      ⟨hdevice', hs', rfl⟩ ?_
    rintro t e t' he ⟨htdevice, ht, httarget⟩ hstep
    have hfollows := ht.step (htdevice.symm ▸ hes e he) hstep
    exact ⟨hfollows.device.trans htdevice, hfollows.heeded, hfollows.target.trans httarget⟩
  obtain ⟨-, hs'', htarget⟩ := hrest
  subst hdevice
  cases hrequest
  rw [hs''.sinkId_eq_target hsettled, htarget]
  exact (hs.setGroup _ found).2 hgroup

/-- Two requests, one right after the other. -/
theorem last_request_wins_iff_quick :
    ∃ s s' s'' : Grouping ℤ, (grouping [] .kitchen).Reachable s ∧ s.pendingSinkId = some "3" ∧
      s.step [] (.setGroup "a" (some "2") "" false) = some s' ∧
      (grouping [] .kitchen).runFrom s' [.deliver, .deliver, .processTimer (.atTime 5),
        .processTimer (.atTime 5), .deliver, .processTimer (.atTime 6), .answer 0, .answer 0,
        .answer 0, .answer 0, .answer 0, .answer 0, .persistTimer] = some s'' ∧
      s''.Settled ∧ s''.sinkId = "2" := by
  obtain ⟨s, hs, hsink, hthree, s', hrequest, s'', hrun, hsettled⟩ := System.exists_reachable
    (grouping [] .kitchen) [.setGroup "a" (some "3") "" false]
    (fun s => s.sinkId ≠ "2" ∧ s.pendingSinkId = some "3" ∧
      ∃ s' ∈ s.step [] (.setGroup "a" (some "2") "" false),
      ∃ s'' ∈ (grouping [] .kitchen).runFrom s' [.deliver, .deliver, .processTimer (.atTime 5),
        .processTimer (.atTime 5), .deliver, .processTimer (.atTime 6), .answer 0, .answer 0,
        .answer 0, .answer 0, .answer 0, .answer 0, .persistTimer], s''.Settled) (by decide +kernel)
  refine ⟨s, s', s'', hs, hthree, hrequest, hrun, hsettled, ?_⟩
  refine (last_request_wins_iff hs (by decide) hrequest ?_ hrun hsettled).mpr
    fun heq => absurd heq hsink
  simp [GroupingEvent.IsRequest]

/-- A request for another group, followed by one to stay: the second is granted and the device
leaves. -/
theorem second_request_lost :
    ∃ s s' s'' : Grouping ℤ, (grouping [] .kitchen).Reachable s ∧
      s.step [] (.setGroup "a" (some "1") "" false) = some s' ∧
      s'.replies = [.success (some "2"), .success none] ∧
      (grouping [] .kitchen).runFrom s' [.deliver, .processTimer (.atTime 5), .deliver,
        .processTimer (.atTime 6), .answer 0, .answer 0, .answer 0, .answer 0, .answer 0,
        .persistTimer] = some s'' ∧ s''.Settled ∧ s''.sinkId = "2" := by
  obtain ⟨s, hs, s', hrequest, hreplies, s'', hend⟩ := System.exists_reachable
    (grouping [] .kitchen) [.setGroup "a" (some "2") "" false]
    (fun s => ∃ s' ∈ s.step [] (.setGroup "a" (some "1") "" false),
      s'.replies = [.success (some "2"), .success none] ∧
      ∃ s'' ∈ (grouping [] .kitchen).runFrom s' [.deliver, .processTimer (.atTime 5), .deliver,
        .processTimer (.atTime 6), .answer 0, .answer 0, .answer 0, .answer 0, .answer 0,
        .persistTimer], s''.Settled ∧ s''.sinkId = "2")
    (by decide +kernel)
  exact ⟨s, s', s'', hs, hrequest, hreplies, hend⟩

end BeepMusic.Manager
