import BeepMusic.Castchat.LifeCycle

/-!
Whose message it is. The client of a connection is found by a hash of the address and the port,
which is not one to one: two connections may have the same hash, and then the messages of one are
delivered as those of the other. Messages are attributed rightly exactly if the clients that are
there have different hashes.
-/

namespace BeepMusic.Castchat

open Lib List

namespace Comm

variable {s s' : Comm}

/-- The hash of every client that has been made is that of its connection. -/
structure Hashed (s : Comm) : Prop where
  hash : ∀ i < s.made, (s.client i).hash = clientHash (s.client i).conn
  list : ∀ i ∈ s.clientList, i < s.made

section

variable (h : s.Hashed)
include h

theorem Hashed.of_ident (hident : ∀ i, (s'.client i).ident = (s.client i).ident)
    (hmade : s'.made = s.made) (hlist : s'.clientList ⊆ s.clientList) : s'.Hashed := by
  refine ⟨fun i hi => ?_, fun i hi => hmade ▸ h.list i (hlist hi)⟩
  have hconn : (s'.client i).conn = (s.client i).conn := congrArg Prod.fst (hident i)
  have hhash : (s'.client i).hash = (s.client i).hash :=
    congrArg (fun x => x.2.2.2) (hident i)
  rw [hconn, hhash]
  exact h.hash i (hmade ▸ hi)

theorem Hashed.calm (hcalm : s.Calm s') : s'.Hashed :=
  h.of_ident hcalm.ident hcalm.made (hcalm.list ▸ fun _ hi => hi)

theorem Hashed.setClient {i : ℕ} (c : Client) (hident : c.ident = (s.client i).ident) :
    (s.setClient i c).Hashed := by
  refine h.of_ident (fun j => ?_) rfl fun _ hi => hi
  unfold Comm.setClient
  dsimp only
  split
  · rename_i hj
    exact hj ▸ hident
  · rfl

theorem Hashed.setPc (pc : Pc) : (s.setPc pc).Hashed := { h with }

theorem Hashed.uloop (hstep : s.uloop = some s') : s'.Hashed := by
  unfold Comm.uloop at hstep
  split at hstep
  · cases hstep
  · cases hstep
    exact h.setPc _
  · cases hstep
    exact h.setPc _
  · rename_i i _
    split at hstep
    · cases hstep
      exact h.setPc _
    · cases hstep
      have hwait := h.setClient (i := i) (s.client i).waitBind rfl
      exact (hwait.calm (calm_unlockClient _ _ i)).setPc _
  · rename_i i _
    cases hstep
    exact (h.setClient (i := i) (s.client i).activate rfl).setPc _
  · rename_i i _
    cases hstep
    exact (h.setClient (i := i) ((s.client i).setState .destroyPending) rfl).setPc _
  · rename_i i _
    cases hstep
    have hcancel := h.setClient (i := i) (s.client i).cancelTimers rfl
    exact ⟨hcancel.hash, fun j hj => hcancel.list j (mem_of_mem_erase hj)⟩
  · rename_i i _
    cases hstep
    exact (h.calm ((calm_finalizeClient s i).trans (calm_unlockClient _ _ i))).setPc _

theorem Hashed.wsReady (conn : Conn) (uuid appName : String) (sessionId : Int) :
    (s.wsReady conn uuid appName sessionId).Hashed := by
  unfold Comm.wsReady
  split
  · exact h
  · refine ⟨fun i hi => ?_, fun i hi => ?_⟩
    · unfold Comm.setClient
      dsimp only
      split
      · rfl
      · exact h.hash i (Nat.lt_of_le_of_ne (Nat.le_of_lt_succ hi) ‹_›)
    · rcases mem_cons.mp hi with rfl | hi
      · exact Nat.lt_succ_self _
      · exact Nat.lt_succ_of_lt (h.list i hi)

theorem Hashed.step {e : CommEvent} (hstep : s.step e = some s') : s'.Hashed := by
  cases he : goesOn e with
  | true => exact h.uloop (uloop_of_step he hstep)
  | false =>
    cases effect_of_step he hstep with
    | calm hcalm => exact h.calm hcalm
    | ready conn uuid appName sessionId heq =>
      exact heq ▸ h.wsReady conn uuid appName sessionId
    | scan heq => exact heq ▸ { h with }
    | unbound i heq =>
      exact heq ▸ (h.setClient (i := i) (s.client i).clearHello rfl).setPc _

end

/-- The client of a connection is found if no other one has its hash. -/
theorem Hashed.findClientByHash (h : s.Hashed) {i : ℕ} (hi : i ∈ s.clientList)
    (hdistinct : ∀ j ∈ s.clientList,
      clientHash (s.client j).conn = clientHash (s.client i).conn → j = i) :
    s.findClientByHash (clientHash (s.client i).conn) = some i := by
  have hsome : (s.findClientByHash (clientHash (s.client i).conn)).isSome := by
    rw [Comm.findClientByHash, find?_isSome]
    exact ⟨i, hi, decide_eq_true (h.hash i (h.list i hi))⟩
  obtain ⟨j, hj⟩ := Option.isSome_iff_exists.mp hsome
  have hmem : j ∈ s.clientList := mem_of_find?_eq_some hj
  have htest := find?_some hj
  have hhash : (s.client j).hash = clientHash (s.client i).conn := of_decide_eq_true htest
  rw [h.hash j (h.list j hmem)] at hhash
  rw [hj, hdistinct j hmem hhash]

end Comm

end BeepMusic.Castchat
