import Mathlib.Data.List.Infix
import BeepMusic.Distributor.PlayerStates

/-!
What a message on `player_states_ch` says about the players it lists as matched.
The thread compares with the cookie it knows and does not look at `cookie_ch`
during a polling cycle, so a message is right about the latest cookie as long as
no cookie waits in `cookie_ch` when the last reply of a cycle is taken.
-/

namespace BeepMusic.Distributor

open Lib List Option

/-- The cookie of a device was set by an order, unless it is the initial one. -/
theorem DeviceState.exists_executed {d : DeviceState} (h : 0 < d.cookie) :
    ∃ o ∈ d.executed, o.setCookie = d.cookie := by
  unfold cookie at h ⊢
  cases hlast : d.executed.getLast? with
  | none => simp [hlast] at h
  | some o => exact ⟨o, mem_of_getLast? hlast, rfl⟩

namespace StatesThread

/-- The players that the current cycle has found to match. -/
def matched (s : StatesThread) : List (Player × DeviceState) := (s.cycle.map Cycle.matched).getD []

/-! ### Reports come from the devices -/

/-- The reports of a player that the system holds somewhere. -/
inductive Recorded (s : StatesThread) (p : Player) : DeviceState → Prop
  | state : Recorded s p (s.state p)
  | answer {q : Poll} {d : DeviceState} : q ∈ s.polls → q.player = p → q.answer = some d →
      Recorded s p d
  | matched {d : DeviceState} : (p, d) ∈ s.matched → Recorded s p d
  | message {m : StatesMessage} {d : DeviceState} : m ∈ s.messages → (p, d) ∈ m.matched →
      Recorded s p d

/-- What is recorded, as one value: steps that do not touch it are dealt with
together. -/
def records (s : StatesThread) :=
  (s.state, s.polls, s.matched, s.messages)

variable {s s' : StatesThread} {p : Player} {d : DeviceState}

theorem Recorded.of_records (h : s'.Recorded p d) (heq : s'.records = s.records) :
    s.Recorded p d := by
  simp only [records, Prod.mk.injEq] at heq
  obtain ⟨hstate, hpolls, hmatched, hmessages⟩ := heq
  cases h with
  | state => exact hstate ▸ .state
  | answer hq hplayer hanswer => exact .answer (hpolls ▸ hq) hplayer hanswer
  | matched hd => exact .matched (hmatched ▸ hd)
  | message hm hd => exact .message (hmessages ▸ hm) hd

@[simp] theorem matched_putState (s : StatesThread) (number : ℕ) (id : Option String) :
    (s.putState number id).matched = s.matched := by
  cases hcycle : s.cycle with
  | none => simp [matched, putState, hcycle]
  | some cyc =>
    simp only [matched, putState, hcycle, map_some, getD_some]
    split <;> rfl

theorem records_putState (s : StatesThread) (number : ℕ) (id : Option String) :
    (s.putState number id).records = s.records := by
  simp only [records, matched_putState]
  rfl

variable {n : ℕ} {q : Poll} {cyc : Cycle} {input : StatesInput} {cookie : ℤ}

theorem Recorded.of_answer (h : (s.answer n q).Recorded p d) :
    s.Recorded p d ∨ d = s.device p.id := by
  cases h with
  | state => exact .inl .state
  | answer hq hplayer hanswer =>
    rcases mem_or_eq_of_mem_set hq with hq | rfl
    · exact .inl (.answer hq hplayer hanswer)
    · subst hplayer
      exact .inr (Option.some.inj hanswer).symm
  | matched hd => exact .inl (.matched hd)
  | message hm hd => exact .inl (.message hm hd)

theorem Recorded.of_failPoll (h : (s.failPoll n q).Recorded p d) : s.Recorded p d := by
  cases h.of_records (records_putState _ _ _) with
  | state => exact .state
  | answer hq hplayer hanswer => exact .answer (mem_of_mem_eraseIdx hq) hplayer hanswer
  | matched hd => exact .matched hd
  | message hm hd => exact .message hm hd

theorem Recorded.of_deliver {reported : DeviceState} (hq : q ∈ s.polls)
    (hanswer : q.answer = some reported) (h : (s.deliver n q reported).Recorded p d) :
    s.Recorded p d := by
  cases h.of_records (records_putState _ _ _) with
  | state =>
    rcases eq_or_ne p q.player with rfl | hne
    · simpa using Recorded.answer hq rfl hanswer
    · simpa [hne] using Recorded.state
  | answer hq hplayer hanswer => exact .answer (mem_of_mem_eraseIdx hq) hplayer hanswer
  | matched hd => exact .matched hd
  | message hm hd => exact .message hm hd

theorem matched_startCycle (s : StatesThread) (failed : List Player) :
    (s.startCycle failed).matched = [] := by
  simp only [matched, startCycle]
  split <;> rfl

theorem Recorded.of_startCycle {failed : List Player} (h : (s.startCycle failed).Recorded p d) :
    s.Recorded p d := by
  cases h with
  | state => exact .state
  | answer hq hplayer hanswer =>
    rcases mem_append.mp hq with hq | hq
    · exact .answer hq hplayer hanswer
    · obtain ⟨p', _, rfl⟩ := List.mem_map.mp hq
      cases hanswer
  | matched hd => simp [matched_startCycle] at hd
  | message hm hd => exact .message hm hd

theorem Recorded.of_takePlayers {ps : PlayerSet} (h : (s.takePlayers ps).Recorded p d) :
    s.Recorded p d := by
  cases h with
  | state => exact .state
  | answer hq hplayer hanswer => exact .answer hq hplayer hanswer
  | matched hd => cases hd
  | message hm hd => exact .message hm hd

/-- A player is sorted among the matched ones with its current state, and only if
that has the thread's cookie. -/
theorem mem_matched_sortReply {id : Option String} (h : (p, d) ∈ (s.sortReply cyc id).matched) :
    (p, d) ∈ cyc.matched ∨ d = s.state p ∧ d.cookie = s.cookie := by
  unfold sortReply at h
  split at h
  · exact .inl h
  · split at h
    · next hcookie =>
        rcases mem_append.mp h with h | h
        · exact .inl h
        · obtain ⟨rfl, rfl⟩ := Prod.mk.inj (mem_singleton.mp h)
          exact .inr ⟨rfl, hcookie⟩
    · exact .inl h

theorem Recorded.of_collected (h : (s.collected cyc).Recorded p d) :
    s.Recorded p d ∨ (p, d) ∈ cyc.matched := by
  unfold collected at h
  split at h
  · cases h with
    | state => exact .inl .state
    | answer hq hplayer hanswer => exact .inl (.answer hq hplayer hanswer)
    | matched hd => cases hd
    | message hm hd =>
      rcases mem_append.mp hm with hm | hm
      · exact .inl (.message hm hd)
      · obtain rfl := mem_singleton.mp hm
        exact .inr hd
  · cases h with
    | state => exact .inl .state
    | answer hq hplayer hanswer => exact .inl (.answer hq hplayer hanswer)
    | matched hd => exact .inr hd
    | message hm hd => exact .inl (.message hm hd)

theorem Recorded.of_collect (hcycle : s.cycle = some cyc) (hstep : s.collect cyc = some s')
    (h : s'.Recorded p d) : s.Recorded p d := by
  unfold collect at hstep
  split at hstep
  · cases hstep
    rcases h.of_collected with h | h
    · exact h
    · rcases mem_matched_sortReply h with h | ⟨rfl, _⟩
      · exact .matched (by simpa [StatesThread.matched, hcycle] using h)
      · exact .state
  · obtain ⟨ps, _, rfl⟩ := map_eq_some_iff.mp hstep
    exact h.of_takePlayers

theorem Recorded.of_listen (hstep : s.listen = some s') (h : s'.Recorded p d) :
    s.Recorded p d := by
  unfold listen at hstep
  split at hstep
  · cases hstep
    exact h.of_takePlayers
  · split at hstep
    · cases hstep
      exact h.of_records rfl
    · split at hstep <;> cases hstep
      exact h.of_records rfl

theorem device_collect (hstep : s.collect cyc = some s') : s'.device = s.device := by
  unfold collect at hstep
  split at hstep
  · cases hstep
    unfold collected
    split <;> rfl
  · obtain ⟨ps, _, rfl⟩ := map_eq_some_iff.mp hstep
    rfl

theorem device_listen (hstep : s.listen = some s') : s'.device = s.device := by
  unfold listen at hstep
  split at hstep
  · cases hstep
    rfl
  · split at hstep
    · cases hstep
      rfl
    · split at hstep <;> cases hstep
      rfl

theorem executed_prefix_execute (s : StatesThread) (n : ℕ) (p : Player) (o : CookieOrder)
    (id : String) : (s.device id).executed <+: ((s.execute n p o).device id).executed := by
  rcases eq_or_ne id p.id with rfl | hne
  · simp [execute, DeviceState.execute]
  · simp [execute, hne]

/-- A report that is new in the records is the present state of its device, and devices
execute further orders only. -/
theorem step_spec (hstep : s.step input = some s') :
    (∀ p d, s'.Recorded p d → s.Recorded p d ∨ d = s.device p.id) ∧
      ∀ id, (s.device id).executed <+: (s'.device id).executed := by
  have hkeeps (hdevice : s'.device = s.device)
      (hrecords : ∀ p d, s'.Recorded p d → s.Recorded p d) :
      (∀ p d, s'.Recorded p d → s.Recorded p d ∨ d = s.device p.id) ∧
        ∀ id, (s.device id).executed <+: (s'.device id).executed :=
    ⟨fun p d h => .inl (hrecords p d h), fun id => hdevice ▸ prefix_rfl⟩
  cases input with
  | players | debug | connect =>
    cases hstep
    exact hkeeps rfl fun _ _ h => h.of_records rfl
  | acquire | flush | requestRebuffer | rebufferDone =>
    simp only [step] at hstep
    split at hstep <;> cases hstep
    exact hkeeps rfl fun _ _ h => h.of_records rfl
  | rebuffer =>
    obtain ⟨⟨ps, cookie⟩, _, rfl⟩ := map_eq_some_iff.mp hstep
    exact hkeeps rfl fun _ _ h => h.of_records rfl
  | execute n =>
    obtain ⟨⟨p', o⟩, _, rfl⟩ := map_eq_some_iff.mp hstep
    exact ⟨fun _ _ h => .inl (h.of_records rfl), executed_prefix_execute s n p' o⟩
  | answer n =>
    obtain ⟨q, _, rfl⟩ := map_eq_some_iff.mp hstep
    exact ⟨fun _ _ h => h.of_answer, fun _ => prefix_rfl⟩
  | deliver n =>
    obtain ⟨q, hq, hdeliver⟩ := bind_eq_some_iff.mp hstep
    obtain ⟨reported, hanswer, rfl⟩ := map_eq_some_iff.mp hdeliver
    exact hkeeps rfl fun _ _ h => h.of_deliver (mem_of_getElem? hq) hanswer
  | fail n =>
    obtain ⟨q, _, rfl⟩ := map_eq_some_iff.mp hstep
    exact hkeeps rfl fun _ _ h => h.of_failPoll
  | timeout failed =>
    simp only [step] at hstep
    split at hstep <;> cases hstep
    exact hkeeps rfl fun _ _ h => h.of_startCycle
  | run =>
    cases hcycle : s.cycle with
    | none =>
      simp only [step, hcycle] at hstep
      exact hkeeps (device_listen hstep) fun _ _ h => h.of_listen hstep
    | some cyc =>
      simp only [step, hcycle] at hstep
      exact hkeeps (device_collect hstep) fun _ _ h => h.of_collect hcycle hstep

/-- Every report is a state its device has been in. -/
def Honest (s : StatesThread) : Prop :=
  ∀ p d, s.Recorded p d → d.executed <+: (s.device p.id).executed

theorem honest_init : Honest .init := by
  intro p d h
  cases h with
  | state => exact nil_prefix
  | answer hq => cases hq
  | matched hd => cases hd
  | message hm => cases hm

theorem Honest.step (hs : s.Honest) (hstep : s.step input = some s') : s'.Honest := by
  obtain ⟨hrecords, hearlier⟩ := step_spec hstep
  intro p d h
  -- an older report stays a beginning of what the device has executed
  refine List.IsPrefix.trans ?_ (hearlier p.id)
  rcases hrecords p d h with h | rfl
  · exact hs p d h
  · exact prefix_rfl

/-! ### The cookie the thread compares with -/

/-- What the cookies are kept in: the threads that set them, the channel, and the
thread that compares. -/
structure CookieView where
  streamCookie : ℤ
  rebufferRequestCh : Option (PlayerSet × ℤ)
  cookieCh : Option ℤ
  latest : Option ℤ
  cookie : ℤ
  matched : List (Player × DeviceState)
  messages : List StatesMessage

def view (s : StatesThread) : CookieView where
  streamCookie := s.streamCookie
  rebufferRequestCh := s.rebufferRequestCh
  cookieCh := s.cookieCh
  latest := s.latest
  cookie := s.cookie
  matched := s.matched
  messages := s.messages

/-- The thread knows the latest cookie or has it waiting, players are matched with
the cookie it knows, and messages with the latest one. -/
structure CookieView.Kept (v : CookieView) : Prop where
  counter : 0 ≤ v.streamCookie
  request : ∀ r, v.rebufferRequestCh = some r → 0 < r.2
  positive : ∀ c, v.latest = some c → 0 < c
  waiting : ∀ c, v.cookieCh = some c → v.latest = some c
  taken : v.cookieCh = none → ∀ c, v.latest = some c → v.cookie = c
  matched : ∀ x ∈ v.matched, x.2.cookie = v.cookie
  messages : ∀ m ∈ v.messages, ∀ c, m.latest = some c → 0 < c ∧ ∀ x ∈ m.matched, x.2.cookie = c

theorem kept_init : (view .init).Kept where
  counter := Int.le_refl 0
  request := by rintro r ⟨⟩
  positive := by rintro c ⟨⟩
  waiting := by rintro c ⟨⟩
  taken := by rintro _ c ⟨⟩
  matched := by rintro x ⟨⟩
  messages := by rintro m ⟨⟩

@[simp] theorem view_sendOrders (s : StatesThread) (o : CookieOrder) (ps : PlayerSet) :
    (s.sendOrders o ps).view = s.view := rfl

theorem view_putState (s : StatesThread) (number : ℕ) (id : Option String) :
    (s.putState number id).view = s.view := by
  simp only [view, matched_putState]
  rfl

section

variable (h : s.view.Kept)
include h

theorem Kept.putCookie (hcookie : 0 < cookie) :
    (s.putCookie cookie).view.Kept where
  counter := h.counter
  request := h.request
  positive := by
    rintro c ⟨⟩
    exact hcookie
  waiting := fun _ hc => hc
  taken := by rintro ⟨⟩
  matched := h.matched
  messages := h.messages

theorem Kept.next_pos : 0 < s.streamCookie + 1 := by
  have hcounter : 0 ≤ s.streamCookie := h.counter
  omega

theorem Kept.nextCookie (order : ℤ → CookieOrder) (ps : PlayerSet) :
    (s.nextCookie order ps).view.Kept := by
  have hpos := Kept.next_pos h
  rw [StatesThread.nextCookie, view_sendOrders]
  exact Kept.putCookie { h with counter := Int.le_of_lt hpos } hpos

theorem Kept.requestRebuffer (ps : PlayerSet) : (s.requestRebuffer ps).view.Kept := by
  have hpos := Kept.next_pos h
  refine { h with counter := Int.le_of_lt hpos, request := ?_ }
  rintro r ⟨⟩
  exact hpos

theorem Kept.takeRequest {ps : PlayerSet} (hrequest : s.rebufferRequestCh = some (ps, cookie)) :
    (s.takeRequest ps cookie).view.Kept := by
  rw [StatesThread.takeRequest, view_sendOrders]
  refine Kept.putCookie { h with request := ?_ } (h.request _ hrequest)
  rintro r ⟨⟩

/-- The thread takes a cookie only between two cycles, when nothing is matched. -/
theorem Kept.takeCookie (hcycle : s.cycle = none) (hcookie : s.cookieCh = some cookie) :
    (s.takeCookie cookie).view.Kept where
  counter := h.counter
  request := h.request
  positive := h.positive
  waiting := by rintro c ⟨⟩
  taken := by
    intro _ c hc
    have hlatest : s.latest = some cookie := h.waiting _ hcookie
    exact Option.some.inj (hlatest.symm.trans hc)
  matched := by
    intro x hx
    simp [view, StatesThread.matched, StatesThread.takeCookie, hcycle] at hx
  messages := h.messages

theorem Kept.forget (hview : s'.view = { s.view with matched := [] }) : s'.view.Kept := by
  rw [hview]
  exact { h with matched := by rintro x ⟨⟩ }

theorem Kept.publish (hcookie : s.cookieCh = none)
    (hmatched : ∀ x ∈ cyc.matched, x.2.cookie = s.cookie) : (s.publish cyc).view.Kept where
  counter := h.counter
  request := h.request
  positive := h.positive
  waiting := h.waiting
  taken := h.taken
  matched := by rintro x ⟨⟩
  messages := by
    intro m hm c hc
    rcases mem_append.mp hm with hm | hm
    · exact h.messages m hm c hc
    · obtain rfl := mem_singleton.mp hm
      have hknown : s.cookie = c := h.taken hcookie c hc
      exact ⟨h.positive c hc, fun x hx => (hmatched x hx).trans hknown⟩

theorem Kept.collected (hcookie : cyc.left ≤ 1 → s.cookieCh = none)
    (hmatched : ∀ x ∈ cyc.matched, x.2.cookie = s.cookie) : (s.collected cyc).view.Kept := by
  unfold StatesThread.collected
  split
  · next hleft => exact Kept.publish h (hcookie hleft) hmatched
  · exact { h with matched := hmatched }

end

@[simp] theorem left_sortReply (s : StatesThread) (cyc : Cycle) (id : Option String) :
    (s.sortReply cyc id).left = cyc.left := by
  unfold sortReply
  split
  · rfl
  · split <;> rfl

/-- Whether the thread publishes a message when it goes on: it takes the last
reply of a cycle. -/
def publishes (s : StatesThread) : Bool :=
  s.cycle.any fun cyc => decide (cyc.left ≤ 1) && !cyc.stateCh.isEmpty

theorem Kept.collect (h : s.view.Kept) (hcycle : s.cycle = some cyc)
    (hcookie : s.publishes = true → s.cookieCh = none) (hstep : s.collect cyc = some s') :
    s'.view.Kept := by
  unfold StatesThread.collect at hstep
  split at hstep
  · next id rest hreplies =>
      cases hstep
      apply Kept.collected h
      · intro hleft
        apply hcookie
        simpa [publishes, hcycle, hreplies] using hleft
      · rintro ⟨p, d⟩ hx
        rcases mem_matched_sortReply hx with hx | ⟨_, hd⟩
        · exact h.matched _ (by simpa [view, StatesThread.matched, hcycle] using hx)
        · exact hd
  · obtain ⟨ps, _, rfl⟩ := map_eq_some_iff.mp hstep
    exact Kept.forget h rfl

theorem Kept.listen (h : s.view.Kept) (hcycle : s.cycle = none) (hstep : s.listen = some s') :
    s'.view.Kept := by
  unfold StatesThread.listen at hstep
  split at hstep
  · cases hstep
    exact Kept.forget h rfl
  · split at hstep
    · next hcookie =>
        cases hstep
        exact Kept.takeCookie h hcycle hcookie
    · split at hstep <;> cases hstep
      exact h

/-- No cookie waits in `cookie_ch` when the thread takes the last reply of a
cycle. -/
def UpToDate (s : StatesThread) : StatesInput → Prop
  | .run => s.publishes = true → s.cookieCh = none
  | _ => True

instance (s : StatesThread) (input : StatesInput) : Decidable (s.UpToDate input) := by
  cases input <;> unfold UpToDate <;> infer_instance

theorem Kept.step (h : s.view.Kept) (hok : s.UpToDate input) (hstep : s.step input = some s') :
    s'.view.Kept := by
  cases input with
  | players | debug | connect =>
    cases hstep
    exact h
  | acquire ps | flush ps =>
    simp only [StatesThread.step] at hstep
    split at hstep <;> cases hstep
    exact Kept.nextCookie h _ ps
  | requestRebuffer ps =>
    simp only [StatesThread.step] at hstep
    split at hstep <;> cases hstep
    exact Kept.requestRebuffer h ps
  | rebuffer =>
    obtain ⟨⟨ps, cookie⟩, hrequest, rfl⟩ := map_eq_some_iff.mp hstep
    exact Kept.takeRequest h hrequest
  | rebufferDone =>
    simp only [StatesThread.step] at hstep
    split at hstep <;> cases hstep
    exact h
  | execute | answer =>
    obtain ⟨_, _, rfl⟩ := map_eq_some_iff.mp hstep
    exact h
  | deliver n =>
    obtain ⟨q, _, hdeliver⟩ := bind_eq_some_iff.mp hstep
    obtain ⟨reported, _, rfl⟩ := map_eq_some_iff.mp hdeliver
    rw [StatesThread.deliver, view_putState]
    exact h
  | fail n =>
    obtain ⟨q, _, rfl⟩ := map_eq_some_iff.mp hstep
    rw [StatesThread.failPoll, view_putState]
    exact h
  | timeout failed =>
    simp only [StatesThread.step] at hstep
    split at hstep <;> cases hstep
    -- a cycle begins with nobody matched
    apply Kept.forget h
    rw [view, matched_startCycle]
    rfl
  | run =>
    cases hcycle : s.cycle with
    | none =>
      simp only [StatesThread.step, hcycle] at hstep
      exact Kept.listen h hcycle hstep
    | some cyc =>
      simp only [StatesThread.step, hcycle] at hstep
      exact Kept.collect h hcycle hok hstep

end StatesThread

/-- A player that a message lists as matched was reported by its device after the
device had executed an order with the latest cookie, in every run in which the
thread is up to date whenever it publishes. -/
theorem matched_executed_of_upToDate (s : StatesThread) (m : StatesMessage) (c : ℤ) (p : Player)
    (d : DeviceState) (h : statesThread.ReachableUnder StatesThread.UpToDate s)
    (hm : m ∈ s.messages) (hlatest : m.latest = some c) (hp : (p, d) ∈ m.matched) :
    d.executed <+: (s.device p.id).executed ∧ ∃ o ∈ d.executed, o.setCookie = c := by
  obtain ⟨hhonest, hkept⟩ : s.Honest ∧ s.view.Kept := by
    refine h.invariant (I := fun u => u.Honest ∧ u.view.Kept)
      ⟨StatesThread.honest_init, StatesThread.kept_init⟩ ?_
    exact fun _ _ _ hI hok hs => ⟨hI.1.step hs, StatesThread.Kept.step hI.2 hok hs⟩
  obtain ⟨hpos, hcookie⟩ := hkept.messages m hm c hlatest
  -- the report has the latest cookie, so the order that set it has been executed
  have hd : d.cookie = c := hcookie (p, d) hp
  refine ⟨hhonest p d (.message hm hp), ?_⟩
  obtain ⟨o, ho, hset⟩ := d.exists_executed (hd ▸ hpos)
  exact ⟨o, ho, hset.trans hd⟩

/-- One player is acquired with cookie 1, and its state is polled. -/
def pollInputs : List StatesInput :=
  [.players onePlayer, .run, .acquire onePlayer, .run, .execute 0, .timeout [], .answer 0]

/-- The message of that cycle: the player has executed the stop with cookie 1. -/
theorem matched_executed_one_cycle :
    ∃ s m d, statesThread.runFrom .init (pollInputs ++ [.deliver 0, .run]) = some s ∧
      m ∈ s.messages ∧ m.latest = some 1 ∧ (⟨"p", 0⟩, d) ∈ m.matched ∧
      d.executed <+: (s.device "p").executed ∧ ∃ o ∈ d.executed, o.setCookie = 1 := by
  refine ⟨_, _, ⟨[.stop 1]⟩, rfl, mem_singleton.mpr rfl, rfl, mem_singleton.mpr rfl, ?_⟩
  refine matched_executed_of_upToDate _ _ 1 ⟨"p", 0⟩ _ ?_ (mem_singleton.mpr rfl) rfl
    (mem_singleton.mpr rfl)
  exact System.ReachableUnder.runFrom (pollInputs ++ [.deliver 0, .run]) .init (by decide) rfl

/-- A second cookie is put while the reply is on its way. The message lists the
player as matched, although its report knows nothing of that cookie. -/
theorem stale_cycle_published :
    ∃ s, statesThread.Reachable s ∧ ∃ m ∈ s.messages, ∃ c, m.latest = some c ∧
      ∃ p d, (p, d) ∈ m.matched ∧ ¬∃ o ∈ d.executed, o.setCookie = c := by
  refine ⟨_, System.Reachable.runFrom (pollInputs ++ [.acquire onePlayer, .deliver 0, .run])
    .init rfl, _, mem_singleton.mpr rfl, 2, rfl, ⟨"p", 0⟩, ⟨[.stop 1]⟩,
    mem_singleton.mpr rfl, ?_⟩
  decide

end BeepMusic.Distributor
