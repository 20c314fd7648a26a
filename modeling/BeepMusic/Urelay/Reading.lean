import Mathlib.Data.List.Perm.Subperm
import BeepMusic.Urelay.Blob
import BeepMusic.Urelay.Client

/-!
What the relay does with the bytes that come from other relays: `client_read_cb` on a connection
that another relay has made, and `out_client_read_cb` on a connection of its own. Both take
messages off the buffer until no complete one is left. They end without a fault exactly if every
complete message is well formed and every reply is to a call that waits; a message that is not
brings the process down, or keeps `client_read_cb` busy for ever.
-/

namespace BeepMusic.Urelay

open Lib List Option

/-- The buffer of a stream: the bytes that have come, and the memory they lie in. -/
structure ReadBuf where
  mem : View
  len : ℕ

/-- `ustream_consume`. -/
def ReadBuf.consume (b : ReadBuf) (n : ℕ) : ReadBuf := ⟨b.mem.shift n, b.len - n⟩

def responseBlobPolicy : List Policy := [⟨"id", .int32⟩, ⟨"msg", .table⟩]

def errorBlobPolicy : List Policy := [⟨"id", .int32⟩, ⟨"code", .int32⟩, ⟨"error_msg", .string⟩]

def eventBlobPolicy : List Policy := [⟨"type", .string⟩, ⟨"msg", .table⟩]

/-! ### Calls from other relays -/

inductive Blob
  | response (id : Option ℕ) (msg : Option Msg)
  | error (id : Option ℕ) (errorMsg : Option Bytes) (code : Option ℕ)
  | event (type : Option Bytes) (msg : Option Msg)
  deriving DecidableEq

/-- Read a message; there is none if the type is unknown or the blob cannot be parsed. -/
def readBlob (ubuf : View) : Option Blob :=
  let sbuf := ubuf.shift 4
  match ubuf.be32 with
  | 0 =>
    (parseBlob responseBlobPolicy sbuf).map fun tb =>
      .response ((tb.getD 0 none).map View.blobmsgGetU32) ((tb.getD 1 none).map tableAttrs)
  | 1 =>
    (parseBlob errorBlobPolicy sbuf).map fun tb =>
      .error ((tb.getD 0 none).map View.blobmsgGetU32)
        ((tb.getD 2 none).map View.blobmsgGetString) ((tb.getD 1 none).map View.blobmsgGetU32)
  | 2 =>
    (parseBlob eventBlobPolicy sbuf).map fun tb =>
      .event ((tb.getD 0 none).map View.blobmsgGetString) ((tb.getD 1 none).map tableAttrs)
  | _ => none

def Relay.handleBlob (s : Relay) (accepts : Sent → Bool) (oc : OutgoingClient) :
    Blob → Except Fault Relay
  | .response id msg => s.handleResponse id msg
  | .error id errorMsg code => s.handleError id errorMsg code
  | .event type msg => s.handleEvent accepts oc type msg

/-- A connection to another relay, with the state of the whole relay. -/
structure Outgoing where
  buf : ReadBuf
  relay : Relay

variable (accepts : Sent → Bool)

/-- One turn of `out_client_read_cb`. -/
def outClientReadTurn (oc : OutgoingClient) (s : Outgoing) : Turn Outgoing Fault :=
  let rawLen := (s.buf.mem.shift 4).blobRawLen + 4
  if s.buf.len < 8 then .stop s
  else if s.buf.len < rawLen then .stop s
  else
    match readBlob s.buf.mem with
    | none => .fail .abort
    | some blob =>
      match s.relay.handleBlob accepts oc blob with
      | .error fault => .fail fault
      | .ok relay => .again ⟨s.buf.consume rawLen, relay⟩

/-! ### The messages in a buffer -/

/-- Take off a complete message, whose blob comes after `hdr` bytes. Nothing comes after a message
without a length. -/
def nextFrame (hdr : ℕ) (b : ReadBuf) : Option (View × ReadBuf) :=
  let rawLen := (b.mem.shift hdr).blobRawLen + hdr
  if b.len < hdr + 4 ∨ b.len < rawLen then none
  else some (b.mem, if rawLen = 0 then ⟨b.mem, 0⟩ else b.consume rawLen)

/-- The complete messages in a buffer. -/
def frames (hdr : ℕ) (b : ReadBuf) : List View := collect (nextFrame hdr) b.len b

theorem nextFrame_lt (hdr : ℕ) (b : ReadBuf) (f : View) (b' : ReadBuf)
    (h : nextFrame hdr b = some (f, b')) : b'.len < b.len := by
  unfold nextFrame at h
  dsimp only at h
  split at h
  · cases h
  · cases h
    split
    · change 0 < b.len
      omega
    · change b.len - _ < b.len
      omega

theorem frames_cons {hdr : ℕ} {b b' : ReadBuf} {f : View} (h : nextFrame hdr b = some (f, b')) :
    frames hdr b = f :: frames hdr b' :=
  collect_some (m := ReadBuf.len) (nextFrame_lt hdr) h

theorem frames_consume {hdr : ℕ} {b : ReadBuf} (hlen : hdr + 4 ≤ b.len)
    (hraw : (b.mem.shift hdr).blobRawLen + hdr ≤ b.len)
    (hpos : 0 < (b.mem.shift hdr).blobRawLen + hdr) :
    frames hdr b =
      b.mem :: frames hdr (b.consume ((b.mem.shift hdr).blobRawLen + hdr)) := by
  refine frames_cons ?_
  unfold nextFrame
  rw [if_neg (by omega), if_neg (by omega)]

namespace Blob

/-- The attributes that are read are there, and ubus takes the event. -/
def Good (oc : OutgoingClient) : Blob → Bool
  | response id _ => id.isSome
  | error id errorMsg code => id.isSome && errorMsg.isSome && code.isSome
  | event type msg =>
    match type, msg with
    | some type, some msg => accepts (.relayed type oc.id msg)
    | _, _ => false

/-- The call that a message is a reply to. -/
def replyId : Blob → Option ℕ
  | response id _ => id
  | error id _ _ => id
  | event _ _ => none

end Blob

/-- The messages can be read, and the replies among them are to calls that wait, one each. -/
def WellFormed (oc : OutgoingClient) (relay : Relay) (fs : List View) : Prop :=
  ∃ blobs, fs.mapM readBlob = some blobs ∧ (∀ blob ∈ blobs, blob.Good accepts oc = true) ∧
    (blobs.filterMap Blob.replyId).Subperm (relay.riList.map RemoteInvoke.id)

theorem mapM_cons_eq_some {α β : Type} {f : α → Option β} {a : α} {as : List α} {bs : List β}
    (h : (a :: as).mapM f = some bs) :
    ∃ b bs', bs = b :: bs' ∧ f a = some b ∧ as.mapM f = some bs' := by
  simp only [mapM_cons, Option.pure_def, bind_eq_bind, bind_eq_some_iff,
    Option.some.injEq] at h
  obtain ⟨b, hb, bs', hbs', rfl⟩ := h
  exact ⟨b, bs', rfl, hb, hbs'⟩

variable {accepts : Sent → Bool} {oc : OutgoingClient}

/-- A reply is taken from the list of the calls that wait. -/
theorem exists_lookupRequest_iff {relay : Relay} {id : ℕ} {ids : List ℕ} :
    (∃ ri, relay.lookupRequest id = some ri ∧
      ids.Subperm ((relay.riList.erase ri).map RemoteInvoke.id)) ↔
    (id :: ids).Subperm (relay.riList.map RemoteInvoke.id) := by
  have hperm : ∀ ri, relay.lookupRequest id = some ri →
      (relay.riList.map RemoteInvoke.id).Perm
        (id :: (relay.riList.erase ri).map RemoteInvoke.id) := by
    intro ri hlookup
    have htest := find?_some hlookup
    rw [← of_decide_eq_true htest]
    exact (perm_cons_erase (Relay.lookupRequest_mem hlookup)).map RemoteInvoke.id
  constructor
  · rintro ⟨ri, hlookup, hrest⟩
    exact ((subperm_cons id).mpr hrest).trans (hperm ri hlookup).symm.subperm
  · intro h
    obtain ⟨ri, hri, hid⟩ := List.mem_map.mp (h.subset (.head _))
    have hsome : (relay.lookupRequest id).isSome := by
      rw [Relay.lookupRequest, find?_isSome]
      exact ⟨ri, hri, decide_eq_true hid⟩
    obtain ⟨found, hfound⟩ := isSome_iff_exists.mp hsome
    exact ⟨found, hfound, (subperm_cons id).mp (h.trans (hperm found hfound).subperm)⟩

theorem handleBlob_iff {relay : Relay} {blob : Blob} {blobs : List Blob} :
    (∃ relay', relay.handleBlob accepts oc blob = .ok relay' ∧
      (blobs.filterMap Blob.replyId).Subperm (relay'.riList.map RemoteInvoke.id)) ↔
    blob.Good accepts oc = true ∧
      ((blob :: blobs).filterMap Blob.replyId).Subperm (relay.riList.map RemoteInvoke.id) := by
  cases blob with
  | response id msg =>
    cases id with
    | none => simp [Relay.handleBlob, Relay.handleResponse, Blob.Good]
    | some id =>
      refine Iff.trans ?_ (exists_lookupRequest_iff.trans (and_iff_right rfl).symm)
      cases hlookup : relay.lookupRequest id <;>
        simp [Relay.handleBlob, Relay.handleResponse, hlookup, Relay.popRemoteInvoke,
          Relay.complete]
  | error id errorMsg code =>
    by_cases hgood : (Blob.error id errorMsg code).Good accepts oc = true
    · rw [and_iff_right hgood]
      obtain ⟨hboth, hcode⟩ := Bool.and_eq_true_iff.mp hgood
      obtain ⟨hid, htext⟩ := Bool.and_eq_true_iff.mp hboth
      obtain ⟨id, rfl⟩ := isSome_iff_exists.mp hid
      obtain ⟨text, rfl⟩ := isSome_iff_exists.mp htext
      obtain ⟨code, rfl⟩ := isSome_iff_exists.mp hcode
      refine Iff.trans ?_ exists_lookupRequest_iff
      cases hlookup : relay.lookupRequest id <;>
        simp [Relay.handleBlob, Relay.handleError, hlookup, Relay.popRemoteInvoke, Relay.complete]
    · refine iff_of_false ?_ fun h => hgood h.1
      rintro ⟨relay', hhandle, -⟩
      cases id <;> cases errorMsg <;> cases code <;>
        first | exact absurd rfl hgood | cases hhandle
  | event type msg =>
    cases type with
    | none => simp [Relay.handleBlob, Relay.handleEvent, Blob.Good]
    | some type =>
      cases msg with
      | none => simp [Relay.handleBlob, Relay.handleEvent, Blob.Good]
      | some msg =>
        have hids : (Blob.event (some type) (some msg) :: blobs).filterMap Blob.replyId =
            blobs.filterMap Blob.replyId := rfl
        by_cases haccepts : accepts (.relayed type oc.id msg) = true <;>
          simp [Relay.handleBlob, Relay.handleEvent, Blob.Good, haccepts, hids]

/-- A message is read and handled, and the rest is well formed for what that leaves. -/
theorem wellFormed_cons {relay : Relay} {f : View} {fs : List View} :
    WellFormed accepts oc relay (f :: fs) ↔ ∃ blob relay', readBlob f = some blob ∧
      relay.handleBlob accepts oc blob = .ok relay' ∧ WellFormed accepts oc relay' fs := by
  constructor
  · rintro ⟨blobs, hblobs, hgood, hids⟩
    obtain ⟨blob, rest, rfl, hblob, hrest⟩ := mapM_cons_eq_some hblobs
    obtain ⟨hfirst, hothers⟩ := forall_mem_cons.mp hgood
    obtain ⟨relay', hhandle, hrestIds⟩ := handleBlob_iff.mpr ⟨hfirst, hids⟩
    exact ⟨blob, relay', hblob, hhandle, rest, hrest, hothers, hrestIds⟩
  · rintro ⟨blob, relay', hblob, hhandle, rest, hrest, hothers, hrestIds⟩
    obtain ⟨hfirst, hids⟩ := handleBlob_iff.mp ⟨relay', hhandle, hrestIds⟩
    exact ⟨blob :: rest, by simp [hblob, hrest], forall_mem_cons.mpr ⟨hfirst, hothers⟩, hids⟩

theorem exists_ends_outClientRead {s : Outgoing}
    (h : WellFormed accepts oc s.relay (frames 4 s.buf)) :
    ∃ s', Ends (outClientReadTurn accepts oc) s s' := by
  refine exists_ends (I := fun s => WellFormed accepts oc s.relay (frames 4 s.buf))
    (fun s => s.buf.len) ?_ h
  intro s hformed
  unfold outClientReadTurn
  dsimp only
  split
  · exact .inl ⟨s, rfl⟩
  · split
    · exact .inl ⟨s, rfl⟩
    · rw [frames_consume (by omega) (by omega) (by omega)] at hformed
      obtain ⟨blob, relay', hblob, hhandle, hrest⟩ := wellFormed_cons.mp hformed
      rw [hblob]
      dsimp only
      rw [hhandle]
      refine .inr ⟨_, rfl, hrest, ?_⟩
      change s.buf.len - ((s.buf.mem.shift 4).blobRawLen + 4) < s.buf.len
      omega

/-- A message as an event of the relay. -/
def Blob.relayEvent (client : ℕ) : Blob → RelayEvent
  | .response id msg => .response client id msg
  | .error id errorMsg code => .error client id errorMsg code
  | .event type msg => .event client type msg

theorem step_of_handleBlob {relay relay' : Relay} {blob : Blob} (hfault : relay.fault = none)
    (hoc : relay.getClient oc.serial true = some oc)
    (h : relay.handleBlob accepts oc blob = .ok relay') :
    relay.step accepts (blob.relayEvent oc.serial) = some relay' := by
  unfold Relay.step
  rw [if_neg (by simp [hfault])]
  cases blob with
  | response id msg | error id errorMsg code | event type msg =>
    change (relay.getClient oc.serial true).map _ = _
    rw [hoc, map_some]
    exact congrArg (fun r => some (relay.orFail r)) h

theorem handleBlob_frame {relay relay' : Relay} {blob : Blob}
    (h : relay.handleBlob accepts oc blob = .ok relay') :
    relay'.fault = relay.fault ∧ relay'.ocList = relay.ocList := by
  cases blob with
  | response id msg =>
    obtain ⟨ri, -, reply, rfl⟩ := Relay.handleResponse_ok h
    exact ⟨rfl, rfl⟩
  | error id errorMsg code =>
    obtain ⟨ri, -, reply, rfl⟩ := Relay.handleError_ok h
    exact ⟨rfl, rfl⟩
  | event type msg =>
    obtain ⟨event, rfl⟩ := Relay.handleEvent_ok h
    exact ⟨rfl, rfl⟩

/-- What `out_client_read_cb` leaves behind is a state that replies and events lead to. -/
theorem reachable_of_ends {s s' : Outgoing} (hs : (relay accepts).Reachable s.relay)
    (hfault : s.relay.fault = none) (hoc : s.relay.getClient oc.serial true = some oc)
    (h : Ends (outClientReadTurn accepts oc) s s') : (relay accepts).Reachable s'.relay := by
  refine (h.invariant (I := fun s => (relay accepts).Reachable s.relay ∧ s.relay.fault = none ∧
    s.relay.getClient oc.serial true = some oc) ⟨hs, hfault, hoc⟩ ?_).1
  rintro s t ⟨hs, hfault, hoc⟩ hturn
  unfold outClientReadTurn at hturn
  dsimp only at hturn
  split at hturn
  · rcases hturn with hturn | hturn <;> cases hturn
    exact ⟨hs, hfault, hoc⟩
  · split at hturn
    · rcases hturn with hturn | hturn <;> cases hturn
      exact ⟨hs, hfault, hoc⟩
    · split at hturn
      · rcases hturn with hturn | hturn <;> cases hturn
      · split at hturn
        · rcases hturn with hturn | hturn <;> cases hturn
        · rename_i blob _ _ relay' hhandle
          rcases hturn with hturn | hturn <;> cases hturn
          obtain ⟨hfault', hclients⟩ := handleBlob_frame hhandle
          have hstep := step_of_handleBlob hfault hoc hhandle
          refine ⟨.step hs trivial hstep, hfault'.trans hfault, ?_⟩
          rw [Relay.getClient, hclients]
          exact hoc

/-- A buffer with the given bytes and nothing behind them. -/
def ReadBuf.ofBytes (bs : Bytes) : ReadBuf := ⟨fun k => bs.getD k 0, bs.length⟩

/-- A reply without a message to the call with the given number. -/
def responseBytes (id : UInt8) : Bytes :=
  [0, 0, 0, 0, 0, 0, 0, 20, 5, 0, 0, 16, 0, 2, 105, 100, 0, 0, 0, 0, 0, 0, 0, id]

/-- A relay that is connected to another one and has made a call. -/
def calling : Relay :=
  { Relay.initial with
    ocList := [⟨0, "10.0.0.2", 29418, "a", true, [0]⟩]
    riList := [⟨0, 1, 0⟩]
    msgId := 1
    issued := 2
    completed := [⟨0, .success, 0⟩]
    serials := 1 }

theorem calling_reachable : (relay fun _ => true).Reachable calling := by
  obtain ⟨s, hs, htest⟩ := System.exists_reachable (relay fun _ => true)
    [.connect (some "10.0.0.2") (some "a") none .opened, .connectReady 0 false,
      .invoke (some "a") (some "beep.manager") (some "get_state") 64 64]
    (fun s => s = calling) (by decide +kernel)
  exact htest ▸ hs

theorem reachable_of_ends_response :
    ∃ s', Ends (outClientReadTurn (fun _ => true) ⟨0, "10.0.0.2", 29418, "a", true, [0]⟩)
      ⟨.ofBytes (responseBytes 0), calling⟩ s' ∧ (relay fun _ => true).Reachable s'.relay :=
  Exists.imp (fun _ h => ⟨h, reachable_of_ends calling_reachable rfl (by decide) h⟩)
    (exists_ends_outClientRead
      ⟨[.response (some 0) none], by decide +kernel, by decide, .refl _⟩)

end BeepMusic.Urelay
