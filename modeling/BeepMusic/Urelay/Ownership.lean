import Mathlib.Data.List.Nodup
import BeepMusic.Lib.Ledger
import BeepMusic.Urelay.Client

/-!
Who a deferred request waits for. Every request is answered at most once. A client that is deleted
takes the requests that wait for its connection with it, and the calls that were sent to it stay
in `ri_list` without a client; so a request is sure to have a client only as long as clients are
deleted with nothing pending.
-/

namespace BeepMusic.Urelay

open Lib Option

namespace OutgoingClient

/-- The requests that wait for the connection; after it the list is kept, but all are answered. -/
def waiting (oc : OutgoingClient) : List ℕ :=
  if oc.isConnected then [] else oc.connectRequestList

end OutgoingClient

/-- The requests that wait for a connection. -/
def connects (l : List OutgoingClient) : List ℕ := l.flatMap OutgoingClient.waiting

/-- The clients besides the one with a number. -/
def others (l : List OutgoingClient) (client : ℕ) : List OutgoingClient :=
  l.filter fun x => x.serial ≠ client

variable {l : List OutgoingClient} {oc : OutgoingClient}

theorem perm_others (hnodup : (l.map OutgoingClient.serial).Nodup) (hoc : oc ∈ l) :
    l.Perm (oc :: others l oc.serial) := by
  have hfilter : l.filter (fun x => x != oc) = others l oc.serial := by
    refine List.filter_congr fun x hx => ?_
    have hiff : x = oc ↔ x.serial = oc.serial :=
      ⟨congrArg _, fun heq => List.inj_on_of_nodup_map hnodup hx hoc heq⟩
    simp [bne, beq_eq_decide, hiff, decide_not]
  rw [← hfilter, ← List.Nodup.erase_eq_filter hnodup.of_map]
  exact List.perm_cons_erase hoc

theorem connects_perm (hnodup : (l.map OutgoingClient.serial).Nodup) (hoc : oc ∈ l) :
    (connects l).Perm (oc.waiting ++ connects (others l oc.serial)) :=
  (perm_others hnodup hoc).flatMap_right _

/-- The list with one client replaced. -/
def replaced (l : List OutgoingClient) (oc : OutgoingClient) : List OutgoingClient :=
  l.map fun x => if x.serial = oc.serial then oc else x

theorem map_serial_replaced (l : List OutgoingClient) (oc : OutgoingClient) :
    (replaced l oc).map OutgoingClient.serial = l.map OutgoingClient.serial := by
  unfold replaced
  rw [List.map_map]
  refine List.map_congr_left fun x _ => ?_
  simp only [Function.comp_apply]
  split
  · exact Eq.symm ‹_›
  · rfl

theorem others_replaced (l : List OutgoingClient) (oc : OutgoingClient) :
    others (replaced l oc) oc.serial = others l oc.serial := by
  induction l with
  | nil => rfl
  | cons x l ih =>
    unfold replaced others at ih ⊢
    rw [List.map_cons, List.filter_cons, List.filter_cons, ih]
    by_cases hx : x.serial = oc.serial <;> simp [hx]

theorem mem_replaced {old : OutgoingClient} (hold : old ∈ l) (hserial : old.serial = oc.serial) :
    oc ∈ replaced l oc :=
  List.mem_map.mpr ⟨old, hold, if_pos hserial⟩

theorem connects_replaced {old : OutgoingClient} (oc : OutgoingClient)
    (hnodup : (l.map OutgoingClient.serial).Nodup) (hold : old ∈ l)
    (hserial : old.serial = oc.serial) :
    (connects (replaced l oc)).Perm (oc.waiting ++ connects (others l oc.serial)) := by
  rw [← others_replaced]
  refine connects_perm ?_ (mem_replaced hold hserial)
  rw [map_serial_replaced]
  exact hnodup

namespace Relay

variable {s s' : Relay} {lost : List ℕ}

def answered (s : Relay) : List ℕ := s.completed.map Answer.req

/-- The requests that are deferred, and that the relay still knows of. -/
def waiting (s : Relay) : List ℕ := connects s.ocList ++ s.riList.map RemoteInvoke.defReq

/-- Each request is answered, or waits, or has been lost. -/
structure Kept (s : Relay) (lost : List ℕ) : Prop where
  balanced : Balanced s.issued s.answered (s.waiting ++ lost)
  nodup : (s.ocList.map OutgoingClient.serial).Nodup
  lt : ∀ oc ∈ s.ocList, oc.serial < s.serials

variable {oc : OutgoingClient} {client : ℕ} {accepts : Sent → Bool} {e : RelayEvent}

theorem delOutgoingClient_eq (hoc : oc ∈ s.ocList) :
    s.delOutgoingClient oc = { s with ocList := others s.ocList oc.serial } := by
  refine if_pos ?_
  rw [Relay.lookupClient, List.find?_isSome]
  exact ⟨oc, hoc, by simp⟩

/-- The requests of a client that is deleted are lost, unless they have been answered. -/
theorem Kept.delOutgoingClient (h : s.Kept lost) (hoc : oc ∈ s.ocList) :
    (s.delOutgoingClient oc).Kept (oc.waiting ++ lost) := by
  rw [delOutgoingClient_eq hoc]
  refine ⟨h.balanced.perm ?_, ?_, fun x hx => h.lt x (List.mem_of_mem_filter hx)⟩
  · have hperm := connects_perm h.nodup hoc
    simp only [waiting, List.append_assoc]
    refine List.Perm.trans ?_ (hperm.symm.append_right _)
    rw [List.append_assoc]
    refine List.Perm.trans (List.Perm.append_left _ (List.perm_append_comm_assoc _ _ _)) ?_
    exact List.perm_append_comm_assoc _ _ _
  · exact h.nodup.sublist (List.filter_sublist.map _)

/-- A client keeps its number when it is replaced. -/
theorem Kept.clients_replaced (h : s.Kept lost) (oc : OutgoingClient) :
    ((replaced s.ocList oc).map OutgoingClient.serial).Nodup ∧
      ∀ x ∈ replaced s.ocList oc, x.serial < s.serials := by
  have hserials := map_serial_replaced s.ocList oc
  refine ⟨hserials ▸ h.nodup, fun x hx => ?_⟩
  obtain ⟨y, hy, heq⟩ := List.mem_map.mp (hserials ▸ List.mem_map_of_mem hx)
  exact heq ▸ h.lt y hy

/-- Every call that waits was sent to a client that is there. -/
def Owned (s : Relay) : Prop :=
  ∀ ri ∈ s.riList, ∃ oc ∈ s.ocList, oc.serial = ri.client ∧ oc.isConnected = true

theorem Owned.of_subset (h : s.Owned) (hri : s'.riList ⊆ s.riList) (hoc : s.ocList ⊆ s'.ocList) :
    s'.Owned := by
  intro ri hmem
  obtain ⟨oc, hin, hserial⟩ := h ri (hri hmem)
  exact ⟨oc, hoc hin, hserial⟩

theorem Owned.replaced (h : s.Owned) (hnodup : (s.ocList.map OutgoingClient.serial).Nodup)
    {old : OutgoingClient} (oc : OutgoingClient) (hold : old ∈ s.ocList)
    (hserial : old.serial = oc.serial)
    (hconnected : old.isConnected = true → oc.isConnected = true) (hri : s'.riList = s.riList)
    (hoc : s'.ocList = replaced s.ocList oc) : s'.Owned := by
  intro ri hmem
  obtain ⟨x, hx, hclient, hxconnected⟩ := h ri (hri ▸ hmem)
  by_cases heq : x.serial = oc.serial
  · have hsame : x = old := List.inj_on_of_nodup_map hnodup hx hold (heq.trans hserial.symm)
    refine ⟨oc, hoc ▸ mem_replaced hold hserial, heq.symm.trans hclient, hconnected ?_⟩
    exact hsame ▸ hxconnected
  · exact ⟨x, hoc ▸ List.mem_map.mpr ⟨x, hx, if_neg heq⟩, hclient, hxconnected⟩

theorem Owned.others (h : s.Owned) (hnone : ∀ ri ∈ s.riList, ri.client ≠ client)
    (hri : s'.riList = s.riList) (hoc : s'.ocList = others s.ocList client) : s'.Owned := by
  intro ri hmem
  obtain ⟨x, hx, hclient, hconnected⟩ := h ri (hri ▸ hmem)
  refine ⟨x, hoc ▸ List.mem_filter.mpr ⟨hx, decide_eq_true ?_⟩, hclient, hconnected⟩
  exact fun heq => hnone ri (hri ▸ hmem) (hclient.symm.trans heq)

/-- No request is lost, and no call loses its client. -/
def Keeps (s s' : Relay) : Prop := ∀ lost, s.Kept lost → s'.Kept lost ∧ (s.Owned → s'.Owned)

theorem Keeps.trans {s'' : Relay} (h : s.Keeps s') (h' : s'.Keeps s'') : s.Keeps s'' := by
  intro lost hkept
  obtain ⟨hkept', howned⟩ := h lost hkept
  obtain ⟨hkept'', howned'⟩ := h' lost hkept'
  exact ⟨hkept'', fun hs => howned' (howned hs)⟩

theorem keeps_of_eq (hissued : s'.issued = s.issued) (hcompleted : s'.completed = s.completed)
    (hri : s'.riList = s.riList) (hoc : s'.ocList = s.ocList) (hserials : s'.serials = s.serials) :
    s.Keeps s' := by
  intro lost h
  refine ⟨⟨?_, hoc ▸ h.nodup, hoc ▸ hserials ▸ h.lt⟩, fun hs => ?_⟩
  · rw [answered, waiting, hissued, hcompleted, hri, hoc]
    exact h.balanced
  · rw [Owned, hri, hoc]
    exact hs

theorem keeps_reply (s : Relay) (reply : Reply) : s.Keeps (s.reply reply) := by
  intro lost h
  refine ⟨⟨?_, h.nodup, h.lt⟩, fun hs => hs⟩
  have hanswered : (s.reply reply).answered = s.answered ++ [s.issued] := by
    simp [answered, Relay.reply, Relay.complete]
  rw [hanswered]
  exact h.balanced.issue.answer

theorem keeps_deferConnect (hoc : oc ∈ s.ocList) (hconnecting : oc.isConnected = false) :
    s.Keeps (s.deferConnect oc) := by
  intro lost h
  obtain ⟨hnodup, hlt⟩ := h.clients_replaced (oc.addConnectRequest s.issued)
  refine ⟨⟨h.balanced.issue.perm ?_, hnodup, hlt⟩, fun hs => hs.replaced h.nodup
    (oc.addConnectRequest s.issued) hoc rfl (fun hc => hc) rfl rfl⟩
  have hreplaced : (connects (replaced s.ocList (oc.addConnectRequest s.issued))).Perm
      (s.issued :: connects s.ocList) := by
    refine (connects_replaced (oc.addConnectRequest s.issued) h.nodup hoc rfl).trans ?_
    have hwaiting : (oc.addConnectRequest s.issued).waiting = s.issued :: oc.waiting := by
      simp [OutgoingClient.waiting, OutgoingClient.addConnectRequest, hconnecting]
    rw [hwaiting, List.cons_append]
    exact ((connects_perm h.nodup hoc).symm).cons _
  exact (hreplaced.append_right _).append_right lost

theorem keeps_addOutgoingClient (s : Relay) (ip id : String) (port : ℕ) :
    s.Keeps { s.addOutgoingClient (s.newClient ip id port) with serials := s.serials + 1 } := by
  intro lost h
  refine ⟨⟨h.balanced, ?_, fun x hx => ?_⟩,
    fun hs => hs.of_subset (fun _ hri => hri) (List.subset_cons_self _ _)⟩
  · refine List.nodup_cons.mpr ⟨fun hmem => ?_, h.nodup⟩
    obtain ⟨y, hy, heq⟩ := List.mem_map.mp hmem
    exact Nat.lt_irrefl _ (heq ▸ h.lt y hy)
  · rcases List.mem_cons.mp hx with rfl | hx
    · exact Nat.lt_succ_self _
    · exact Nat.lt_succ_of_lt (h.lt x hx)

theorem lookupClient_mem {id : String} (h : s.lookupClient id = some oc) :
    oc ∈ s.ocList := List.mem_of_find?_eq_some h

theorem getClient_mem {connected : Bool} (h : s.getClient client connected = some oc) :
    oc ∈ s.ocList ∧ oc.serial = client ∧ oc.isConnected = connected := by
  have hsome := List.find?_some h
  exact ⟨List.mem_of_find?_eq_some h, of_decide_eq_true hsome⟩

theorem keeps_relayConnect (s : Relay) (ip id : Option String) (port : Option ℕ)
    (socket : Socket) : s.Keeps (s.relayConnect ip id port socket) := by
  unfold Relay.relayConnect
  split
  · exact keeps_reply s _
  · exact keeps_reply s _
  · split
    · rename_i oc hlookup
      split
      · exact keeps_reply s _
      · rename_i hconnected
        exact keeps_deferConnect (lookupClient_mem hlookup) (eq_false_of_ne_true hconnected)
    · split
      · exact keeps_reply s _
      · exact keeps_of_eq rfl rfl rfl rfl rfl
      · exact (keeps_addOutgoingClient s _ _ _).trans (keeps_deferConnect (.head _) rfl)

theorem keeps_relayInvoke (s : Relay) (id path method : Option String) (rawLen : ℕ) (wr : Int) :
    s.Keeps (s.relayInvoke id path method rawLen wr) := by
  have hnext : s.Keeps s.nextMsgId := keeps_of_eq rfl rfl rfl rfl rfl
  unfold Relay.relayInvoke
  split
  · exact keeps_reply s _
  · split
    · exact keeps_reply s _
    · rename_i oc hlookup
      split
      · exact keeps_reply s _
      · rename_i hconnected
        split
        · exact keeps_reply s _
        · split
          · exact keeps_of_eq rfl rfl rfl rfl rfl
          · split
            · exact hnext.trans (keeps_reply _ _)
            · intro lost h
              refine ⟨⟨h.balanced.issue.perm ?_, h.nodup, h.lt⟩, fun hs ri hri => ?_⟩
              · exact List.perm_middle.append_right lost
              · rcases List.mem_cons.mp hri with rfl | hri
                · exact ⟨oc, lookupClient_mem hlookup, rfl, not_not.mp hconnected⟩
                · exact hs ri hri

/-- A call is answered and taken from the list. -/
theorem keeps_answer {ri : RemoteInvoke} (hri : ri ∈ s.riList) (reply : Reply) (status : ℕ) :
    s.Keeps ((s.popRemoteInvoke ri).complete ri.defReq reply status) := by
  intro lost h
  refine ⟨⟨?_, h.nodup, h.lt⟩, fun hs => hs.of_subset List.erase_subset fun _ hoc => hoc⟩
  have hanswered : ((s.popRemoteInvoke ri).complete ri.defReq reply status).answered =
      s.answered ++ [ri.defReq] := by
    simp [answered, Relay.complete, Relay.popRemoteInvoke]
  rw [hanswered]
  refine (h.balanced.perm ?_).answer
  have hperm := (List.perm_cons_erase hri).map RemoteInvoke.defReq
  have hmiddle : (ri.defReq :: (connects s.ocList ++
      (s.riList.erase ri).map RemoteInvoke.defReq)).Perm (connects s.ocList ++
        ri.defReq :: (s.riList.erase ri).map RemoteInvoke.defReq) := List.perm_middle.symm
  exact (hmiddle.trans (hperm.symm.append_left _)).append_right lost

theorem keeps_orFail {result : Except Fault Relay}
    (hok : ∀ s', result = .ok s' → s.Keeps s') : s.Keeps (s.orFail result) := by
  cases result with
  | ok s' => exact hok s' rfl
  | error fault => exact keeps_of_eq rfl rfl rfl rfl rfl

/-! ### The end of an attempt to connect -/

theorem completeAll_eq (s : Relay) (reqs : List ℕ) (reply : Reply) (status : ℕ) :
    s.completeAll reqs reply status =
      { s with completed := s.completed ++ reqs.map fun req => ⟨req, reply, status⟩ } := by
  unfold Relay.completeAll
  induction reqs generalizing s with
  | nil => simp
  | cons req reqs ih =>
    rw [List.foldl_cons, ih]
    simp [Relay.complete]

/-- Every request that waits for the connection is answered, whatever becomes of it. -/
theorem keeps_uloopConnectFdReadyCb (hoc : oc ∈ s.ocList) (hconnecting : oc.isConnected = false)
    (error : Bool) : s.Keeps (s.uloopConnectFdReadyCb oc error) := by
  intro lost h
  have hwaiting : oc.waiting = oc.connectRequestList := by
    simp [OutgoingClient.waiting, hconnecting]
  have hbefore : Balanced s.issued (s.answered ++ oc.connectRequestList)
      (connects (others s.ocList oc.serial) ++ s.riList.map RemoteInvoke.defReq ++ lost) := by
    have hbalanced := h.balanced.perm (((connects_perm h.nodup hoc).symm.append_right
      (s.riList.map RemoteInvoke.defReq)).append_right lost)
    rw [hwaiting] at hbalanced
    simp only [List.append_assoc] at hbalanced ⊢
    exact hbalanced.answerAll
  have hanswered : ∀ reply : Reply, ∀ status, (s.completed ++ oc.connectRequestList.map
      fun req => (⟨req, reply, status⟩ : Answer)).map Answer.req =
        s.answered ++ oc.connectRequestList := by
    simp [answered, Function.comp_def]
  unfold Relay.uloopConnectFdReadyCb
  split
  · rw [completeAll_eq, delOutgoingClient_eq (by exact hoc)]
    refine ⟨⟨?_, h.nodup.sublist (List.filter_sublist.map _),
      fun x hx => h.lt x (List.mem_of_mem_filter hx)⟩,
      fun hs => hs.others (fun ri hri heq => ?_) rfl rfl⟩
    · rw [answered, hanswered]
      exact hbefore
    · -- a call is sent only to a client that is connected
      obtain ⟨x, hx, hclient, hconnected⟩ := hs ri hri
      have hsame := List.inj_on_of_nodup_map h.nodup hx hoc (hclient.trans heq)
      rw [hsame, hconnecting] at hconnected
      cases hconnected
  · rw [completeAll_eq]
    have hreplaced := connects_replaced oc.setConnected h.nodup hoc rfl
    obtain ⟨hnodup, hlt⟩ := h.clients_replaced oc.setConnected
    refine ⟨⟨?_, hnodup, hlt⟩,
      fun hs => hs.replaced h.nodup oc.setConnected hoc rfl (fun _ => rfl) rfl rfl⟩
    change Balanced s.issued ((s.completed ++ _).map Answer.req) _
    rw [hanswered]
    exact hbefore.perm ((hreplaced.append_right _).append_right lost)

/-! ### Steps -/

/-- The client that is deleted with what still waits for it. An attempt that has failed is not
among them, because its requests are answered first. -/
def deleted (s : Relay) : RelayEvent → Option OutgoingClient
  | .disconnect (some id) => s.lookupClient id
  | .state client eof writeError => if eof || writeError then s.getClient client true else none
  | _ => none

def lostBy (s : Relay) (e : RelayEvent) : List ℕ :=
  ((s.deleted e).map OutgoingClient.waiting).getD []

/-- Requests are lost, and calls lose their client, only with the client that is deleted. -/
theorem step_cases (hstep : s.step accepts e = some s') :
    s.deleted e = none ∧ s.Keeps s' ∨
      ∃ oc ∈ s.ocList, s.deleted e = some oc ∧ (s.delOutgoingClient oc).Keeps s' := by
  obtain ⟨-, hstep⟩ := ite_none_left_eq_some.mp hstep
  cases e with try cases hstep
  | connect ip id port socket => exact .inl ⟨rfl, keeps_relayConnect s ip id port socket⟩
  | disconnect id =>
    cases id with
    | none => exact .inl ⟨rfl, keeps_reply s _⟩
    | some id =>
      unfold Relay.relayDisconnect deleted
      dsimp only
      split
      · exact .inl ⟨‹_›, keeps_reply s _⟩
      · rename_i oc hlookup
        exact .inr ⟨oc, lookupClient_mem hlookup, hlookup, keeps_reply _ _⟩
  | isRegistered id =>
    refine .inl ⟨rfl, ?_⟩
    unfold Relay.relayIsRegistered
    split <;> exact keeps_reply s _
  | listRegistered => exact .inl ⟨rfl, keeps_reply s _⟩
  | invoke id path method rawLen wr => exact .inl ⟨rfl, keeps_relayInvoke s id path method rawLen wr⟩
  | connectReady client error =>
    obtain ⟨oc, hget, rfl⟩ := map_eq_some_iff.mp hstep
    obtain ⟨hoc, -, hconnected⟩ := getClient_mem hget
    exact .inl ⟨rfl, keeps_uloopConnectFdReadyCb hoc hconnected error⟩
  | state client eof writeError =>
    obtain ⟨oc, hget, rfl⟩ := map_eq_some_iff.mp hstep
    unfold Relay.outClientStateCb
    split
    · have hdeleted : s.deleted (.state client eof writeError) = some oc := (if_pos ‹_›).trans hget
      exact .inr ⟨oc, (getClient_mem hget).1, hdeleted, keeps_of_eq rfl rfl rfl rfl rfl⟩
    · exact .inl ⟨if_neg ‹_›, keeps_of_eq rfl rfl rfl rfl rfl⟩
  | response client id msg =>
    obtain ⟨oc, -, rfl⟩ := map_eq_some_iff.mp hstep
    refine .inl ⟨rfl, keeps_orFail fun t hok => ?_⟩
    obtain ⟨ri, hri, reply, rfl⟩ := handleResponse_ok hok
    exact keeps_answer hri reply 0
  | error client id errorMsg code =>
    obtain ⟨oc, -, rfl⟩ := map_eq_some_iff.mp hstep
    refine .inl ⟨rfl, keeps_orFail fun t hok => ?_⟩
    obtain ⟨ri, hri, reply, rfl⟩ := handleError_ok hok
    exact keeps_answer hri reply 0
  | event client type msg =>
    obtain ⟨oc, -, rfl⟩ := map_eq_some_iff.mp hstep
    refine .inl ⟨rfl, keeps_orFail fun t hok => ?_⟩
    obtain ⟨event, rfl⟩ := handleEvent_ok hok
    exact keeps_of_eq rfl rfl rfl rfl rfl

theorem Kept.step (h : s.Kept lost) (hstep : s.step accepts e = some s') :
    s'.Kept (s.lostBy e ++ lost) := by
  unfold lostBy
  obtain ⟨hdeleted, hkeeps⟩ | ⟨oc, hoc, hdeleted, hkeeps⟩ := step_cases hstep
  · rw [hdeleted]
    exact (hkeeps lost h).1
  · rw [hdeleted]
    exact (hkeeps _ (h.delOutgoingClient hoc)).1

theorem kept_initial : initial.Kept [] :=
  ⟨Balanced.init, List.nodup_nil, nofun⟩

theorem kept_of_reachable (h : (relay accepts).Reachable s) : ∃ lost, s.Kept lost :=
  h.invariant (I := fun s => ∃ lost, s.Kept lost) ⟨[], kept_initial⟩
    fun _ _ _ ⟨_, hkept⟩ hstep => ⟨_, hkept.step hstep⟩

/-! ### The client of a call -/

/-- The requests that wait for a client. -/
def pending (s : Relay) (oc : OutgoingClient) : List ℕ :=
  oc.waiting ++ (s.riList.filter fun ri => ri.client = oc.serial).map RemoteInvoke.defReq

/-- A client is deleted only if nothing waits for it. -/
def Tidy (s : Relay) (e : RelayEvent) : Prop := ∀ oc ∈ s.deleted e, s.pending oc = []
deriving Decidable

theorem client_ne_of_pending (h : s.pending oc = []) : ∀ ri ∈ s.riList, ri.client ≠ oc.serial := by
  intro ri hri heq
  obtain ⟨-, hmap⟩ := List.append_eq_nil_iff.mp h
  have hmem : ri ∈ s.riList.filter fun ri => ri.client = oc.serial :=
    List.mem_filter.mpr ⟨hri, decide_eq_true heq⟩
  rw [List.map_eq_nil_iff.mp hmap] at hmem
  cases hmem

theorem Tidy.lostBy_eq (h : s.Tidy e) : s.lostBy e = [] := by
  unfold lostBy
  cases hdeleted : s.deleted e with
  | none => rfl
  | some oc => exact (List.append_eq_nil_iff.mp (h oc hdeleted)).1

theorem Owned.step (h : s.Owned) (hkept : s.Kept lost) (htidy : s.Tidy e)
    (hstep : s.step accepts e = some s') : s'.Owned := by
  obtain ⟨-, hkeeps⟩ | ⟨oc, hoc, hdeleted, hkeeps⟩ := step_cases hstep
  · exact (hkeeps lost hkept).2 h
  · refine (hkeeps _ (hkept.delOutgoingClient hoc)).2 ?_
    rw [delOutgoingClient_eq hoc]
    exact h.others (client_ne_of_pending (htidy oc hdeleted)) rfl rfl

theorem owned_of_reachable (h : (relay accepts).ReachableUnder Tidy s) : s.Kept [] ∧ s.Owned := by
  refine h.invariant (I := fun s => s.Kept [] ∧ s.Owned) ⟨kept_initial, ?_⟩ ?_
  · exact nofun
  · intro s e s' hinv htidy hstep
    have hkept := hinv.1.step hstep
    rw [htidy.lostBy_eq, List.nil_append] at hkept
    exact ⟨hkept, hinv.2.step hinv.1 htidy hstep⟩

/-- The request waits for the connection of a client, or for the reply to a call to it. -/
def Holds (s : Relay) (oc : OutgoingClient) (req : ℕ) : Prop :=
  req ∈ oc.connectRequestList ∨ ∃ ri ∈ s.riList, ri.defReq = req ∧ ri.client = oc.serial
deriving Decidable

theorem exists_holds (hkept : s.Kept []) (howned : s.Owned) {req : ℕ} (hreq : req < s.issued)
    (hanswered : req ∉ s.answered) : ∃ oc ∈ s.ocList, s.Holds oc req := by
  have hwaiting := (hkept.balanced.mem_of_lt hreq).resolve_left hanswered
  rw [List.append_nil] at hwaiting
  rcases List.mem_append.mp hwaiting with hconnect | hinvoke
  · obtain ⟨oc, hoc, hmem⟩ := List.mem_flatMap.mp hconnect
    unfold OutgoingClient.waiting at hmem
    split at hmem
    · cases hmem
    · exact ⟨oc, hoc, .inl hmem⟩
  · obtain ⟨ri, hri, heq⟩ := List.mem_map.mp hinvoke
    obtain ⟨oc, hoc, hclient, -⟩ := howned ri hri
    exact ⟨oc, hoc, .inr ⟨ri, hri, heq, hclient.symm⟩⟩

end Relay

/-- No request is completed twice; and if a client is deleted only with nothing waiting for it,
each request that is not complete belongs to a client in the list. -/
theorem requests_have_client {accepts : Sent → Bool} {s : Relay}
    (h : (relay accepts).Reachable s) :
    s.answered.Nodup ∧ ((relay accepts).ReachableUnder Relay.Tidy s →
      ∀ req, req < s.issued → req ∉ s.answered → ∃ oc ∈ s.ocList, s.Holds oc req) := by
  refine ⟨?_, fun htidy req hreq hanswered => ?_⟩
  · obtain ⟨lost, hkept⟩ := Relay.kept_of_reachable h
    exact hkept.balanced.nodup_answered
  · obtain ⟨hkept, howned⟩ := Relay.owned_of_reachable htidy
    exact Relay.exists_holds hkept howned hreq hanswered

/-- A client is connected and called, and another one is asked for. -/
theorem requests_have_client_pending :
    ∃ s : Relay, (relay fun _ => true).Reachable s ∧
      (relay fun _ => true).ReachableUnder Relay.Tidy s ∧ s.answered = [0] ∧ s.issued = 3 ∧
      s.answered.Nodup ∧ (∃ oc ∈ s.ocList, s.Holds oc 1) ∧ ∃ oc ∈ s.ocList, s.Holds oc 2 := by
  obtain ⟨s, hrun, hs, hanswered, hissued⟩ := System.exists_reachableUnder
    (relay fun _ => true) Relay.Tidy
    [.connect (some "10.0.0.2") (some "a") none .opened, .connectReady 0 false,
      .invoke (some "a") (some "beep.manager") (some "get_state") 64 64,
      .connect (some "10.0.0.3") (some "b") none .opened]
    (fun s => s.answered = [0] ∧ s.issued = 3) (by decide +kernel) (by decide +kernel)
  have hreach : (relay fun _ => true).Reachable s := System.Reachable.runFrom _ .init hrun
  have hown := requests_have_client hreach
  refine ⟨s, hreach, hs, hanswered, hissued, hown.1, ?_, ?_⟩
  · exact hown.2 hs 1 (by rw [hissued]; decide) (by rw [hanswered]; decide)
  · exact hown.2 hs 2 (by rw [hissued]; decide) (by rw [hanswered]; decide)

/-- A client is disconnected while it connects, and the request to connect is never answered; and
a connection is lost while a call waits, which stays in the list without a client. -/
theorem requests_orphaned :
    (∃ s : Relay, (relay fun _ => true).Reachable s ∧ s.issued = 2 ∧ s.answered = [1] ∧
      s.ocList = []) ∧
    ∃ s : Relay, (relay fun _ => true).Reachable s ∧ s.issued = 2 ∧ s.answered = [0] ∧
      s.riList = [⟨0, 1, 0⟩] ∧ s.ocList = [] := by
  obtain ⟨s, hs, htest⟩ := System.exists_reachable (relay fun _ => true)
    [.connect (some "10.0.0.2") (some "a") none .opened, .disconnect (some "a")]
    (fun s => s.issued = 2 ∧ s.answered = [1] ∧ s.ocList = []) (by decide +kernel)
  obtain ⟨t, ht, htest'⟩ := System.exists_reachable (relay fun _ => true)
    [.connect (some "10.0.0.2") (some "a") none .opened, .connectReady 0 false,
      .invoke (some "a") (some "beep.manager") (some "get_state") 64 64, .state 0 true false]
    (fun t => t.issued = 2 ∧ t.answered = [0] ∧
      t.riList = [(⟨0, 1, 0⟩ : RemoteInvoke)] ∧ t.ocList = []) (by decide +kernel)
  exact ⟨⟨s, hs, htest⟩, t, ht, htest'⟩

end BeepMusic.Urelay
