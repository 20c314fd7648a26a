import BeepMusic.Beephead.Lossless
import BeepMusic.Lib.Ledger

/-!
The requests of `beephead` over whole runs. Every call of `events` is a request with a
number of its own, and all replies are kept.
-/

namespace BeepMusic.Beephead

open Lib List

variable {ν : Type}

structure Exchange (ν : Type) where
  server : Server ℕ ν
  issued : ℕ
  replies : List (ℕ × Reply ν)

inductive ExchangeEvent (ν : Type)
  | events (pairs : Enumeration (Event ν)) (now : ℕ) (seq : ℤ)
  | publish (event : Event ν)
  | purge (now : ℕ)

namespace Exchange

variable (s : Exchange ν)

def answered : List ℕ := s.replies.map Prod.fst

/-- The state after a call that leaves the server in a state and sends replies. -/
def send (call : Server ℕ ν × List (ℕ × Reply ν)) : Exchange ν :=
  { s with server := call.1, replies := s.replies ++ call.2 }

def purge (now : ℕ) : Exchange ν := s.send (s.server.purgeStaleRequests now)

def step : ExchangeEvent ν → Option (Exchange ν)
  | .events pairs now seq =>
    some { s.send (s.server.events pairs now s.issued seq) with issued := s.issued + 1 }
  | .publish event => some (s.send (s.server.processEvent event))
  | .purge now => some (s.purge now)

end Exchange

def exchange (ν : Type) : System (Exchange ν) (ExchangeEvent ν) where
  init := ⟨.initial, 0, []⟩
  step := Exchange.step

/-! ### What a purge leaves -/

def ParkedRequest.Stale (now : ℕ) (v : ParkedRequest ℕ) : Prop :=
  v.stamp + staleThreshold ≤ now
deriving Decidable

/-- The loop misses exactly the stale requests that stand right behind another one. -/
theorem purgeLoop_fresh_iff (now : ℕ) (parked : List (ParkedRequest ℕ))
    (purged : List (ParkedRequest ℕ) × List (ℕ × Reply ν))
    (h : Server.purgeLoop now parked = purged) :
    (∀ v ∈ purged.1, ¬ v.Stale now) ↔
      parked.IsChain fun v next => v.Stale now → ¬ next.Stale now := by
  subst h
  fun_induction Server.purgeLoop with
  | case1 => simp
  | case2 v hstale => simp
  | case3 v hstale next rest ih =>
    rw [forall_mem_cons, ih, isChain_cons_cons, isChain_cons]
    constructor
    · rintro ⟨hnext, hrest⟩
      exact ⟨fun _ => hnext, fun _ _ h => absurd h hnext, hrest⟩
    · rintro ⟨hnext, -, hrest⟩
      exact ⟨hnext hstale, hrest⟩
  | case4 v rest hfresh ih =>
    rw [forall_mem_cons, ih, isChain_cons]
    constructor
    · rintro ⟨-, hrest⟩
      exact ⟨fun _ _ h => absurd h hfresh, hrest⟩
    · rintro ⟨-, hrest⟩
      exact ⟨hfresh, hrest⟩

/-! ### The ledger of the requests -/

section

variable (s : Server ℕ ν)

theorem events_settles (pairs : Enumeration (Event ν)) (now req : ℕ) (seq : ℤ) :
    ((s.events pairs now req seq).2.map Prod.fst ++ (s.events pairs now req seq).1.waiting).Perm
      (req :: s.waiting) := by
  rw [Server.events]
  split_ifs
  · exact .refl _
  · simp [Server.waiting]
  · exact .refl _

theorem processEvent_settles (event : Event ν) :
    ((s.processEvent event).2.map Prod.fst ++ (s.processEvent event).1.waiting).Perm
      s.waiting := by
  rw [Server.processEvent]
  split_ifs
  · exact .refl _
  · dsimp only
    split <;>
    simp [Server.notifyParkedRequests, Server.waiting, Server.incrementSequence,
      Server.record, Server.setLatest, Server.setRemoved, Server.cullAgentsForGroup,
      Server.cullAgentForGroup, Function.comp_def]

end

theorem Exchange.balanced_send {s : Exchange ν} {issued : ℕ} {waiting : List ℕ}
    {call : Server ℕ ν × List (ℕ × Reply ν)} (h : Balanced issued s.answered waiting)
    (hcall : (call.2.map Prod.fst ++ call.1.waiting).Perm waiting) :
    Balanced issued (s.send call).answered (s.send call).server.waiting := by
  rw [Exchange.answered, Exchange.send, map_append]
  exact (h.perm hcall).answerAll

theorem exchange_balanced {s : Exchange ν} (h : (exchange ν).Reachable s) :
    Balanced s.issued s.answered s.server.waiting := by
  refine h.invariant (I := fun s => Balanced s.issued s.answered s.server.waiting) Balanced.init ?_
  intro s e s' hs hstep
  cases e with cases hstep
  | events pairs now seq =>
    exact Exchange.balanced_send hs.issue (events_settles s.server pairs now s.issued seq)
  | publish event => exact Exchange.balanced_send hs (processEvent_settles s.server event)
  | purge now => exact Exchange.balanced_send hs (purgeLoop_spec now _ _ rfl).1.symm

/-- No request gets two replies, and a request that a purge removes gets a timeout. After a
purge no request is stale exactly if before it no two stale ones stood next to each other. -/
theorem parked_requests_answered {s : Exchange ν} (h : (exchange ν).Reachable s) (now : ℕ) :
    s.answered.Nodup ∧
      (∀ r ∈ s.server.waiting, r ∉ (s.purge now).server.waiting →
        (r, .error "Request timed out" ubusStatusTimeout) ∈ (s.purge now).replies) ∧
      ((∀ v ∈ (s.purge now).server.parkedRequests, now < v.stamp + staleThreshold) ↔
        s.server.parkedRequests.IsChain fun v next => v.Stale now → ¬ next.Stale now) := by
  obtain ⟨hperm, htimeout⟩ := purgeLoop_spec now s.server.parkedRequests
    (Server.purgeLoop now s.server.parkedRequests : _ × List (ℕ × Reply ν)) rfl
  refine ⟨(exchange_balanced h).nodup_answered, fun r hr hgone => ?_, ?_⟩
  · rcases mem_append.mp (hperm.mem_iff.mp hr) with hsent | hkept
    · obtain ⟨reply, hmem, rfl⟩ := List.mem_map.mp hsent
      rw [← htimeout reply hmem]
      exact mem_append_right _ hmem
    · exact absurd hkept hgone
  · rw [← purgeLoop_fresh_iff now _ (Server.purgeLoop now s.server.parkedRequests :
      _ × List (ℕ × Reply ν)) rfl]
    simp only [ParkedRequest.Stale, not_le]
    rfl

/-- A stale request gets its timeout, and the one that came half a minute later stays. -/
theorem parked_requests_answered_one_stale :
    ∃ s : Exchange Unit, (exchange Unit).Reachable s ∧ s.server.waiting = [0, 1] ∧
      s.answered.Nodup ∧
      ∀ v ∈ (s.purge 60).server.parkedRequests, 60 < v.stamp + staleThreshold := by
  obtain ⟨s, hreachable, hwaiting, hchain⟩ := System.exists_reachable (exchange Unit)
    [.events .inOrder 0 1, .events .inOrder 30 1]
    (fun s => s.server.waiting = [0, 1] ∧
      s.server.parkedRequests.IsChain fun v next => v.Stale 60 → ¬ next.Stale 60)
    (by decide +kernel)
  obtain ⟨hnodup, -, hfresh⟩ := parked_requests_answered hreachable 60
  exact ⟨s, hreachable, hwaiting, hnodup, hfresh.mpr hchain⟩

/-- Of two requests that are parked together, the second is still parked a minute later,
after the purge. -/
theorem purge_misses_stale :
    ∃ s : Exchange Unit, (exchange Unit).Reachable s ∧
      ∃ v ∈ (s.purge 60).server.parkedRequests, v.stamp + staleThreshold ≤ 60 :=
  System.exists_reachable (exchange Unit) [.events .inOrder 0 1, .events .inOrder 0 1] _
    (by decide +kernel)

end BeepMusic.Beephead
