import BeepMusic.Lib.File

/-!
`request_handler` of `beepcomm/apps.c`, which starts, stops and shows apps on request. What
beepmanager answers to the calls of the handler is given; responses are kept without bodies.
-/

namespace BeepMusic.Castchat

open Lib

/-- The calls of `beep.manager`. -/
inductive ManagerCall
  | startApp | stopApp | appRunning

/-- What `beep_ubus_invoke` returns and what `beep_parse_response` finds in the answer. -/
structure ManagerAnswer where
  ret : ℤ
  parses : Bool
  success : Bool
  result : Option ℕ

structure HttpRequest where
  requestMethod : String
  uri : List Char
  host : Option String
  /-- What `atoi` makes of the header. -/
  contentLength : Option ℤ
  /-- What arrives of the body, and whether an error follows. -/
  body : Bytes
  recvError : Bool

structure HttpResponse where
  status : ℕ
  reason : String
  location : Option String

/-- What the handler has done; the process may be gone. -/
structure Handled where
  responses : List HttpResponse
  started : List (List Char)
  ended : Bool

def Handled.respond (h : Handled) (status : ℕ) (reason : String) (location : Option String) :
    Handled :=
  { h with responses := h.responses ++ [⟨status, reason, location⟩] }

def Handled.respError (h : Handled) (status : ℕ) (reason : String) : Handled :=
  h.respond status reason none

/-- The name and the instance, in buffers of 128 and 8 characters. -/
def parseUri (uri : List Char) : List Char × List Char :=
  if "/apps/".toList.isPrefixOf uri then
    let name := (uri.drop 6).take 127
    let appName := name.takeWhile (· ≠ '/')
    if appName = name then (appName, [])
    else (appName, (uri.drop (6 + appName.length + 1)).take 7)
  else ([], [])

/-- The return value, unless the process aborts. -/
def controlApp (a : ManagerAnswer) : Option ℤ :=
  if a.ret ≠ 0 then some (-1)
  else if !a.parses then none
  else if a.success then some 0 else some (-1)

/-- The session, unless the process exits or aborts. -/
def getSessionId (a : ManagerAnswer) : Option ℤ :=
  if a.ret ≠ 0 || !a.parses then none
  else some (a.result.elim (-1) fun result => (result : ℤ).bmod 0x100000000)

def mgutilIsValid (payload : Bytes) (numBytes : ℤ) : Bool :=
  (payload.take numBytes.toNat).all fun c => !(c &&& 0x80 == 0x80 || c == 0x7F || c ≤ 0x1F)

variable (r : HttpRequest)

/-- `len` and `readbuf` of the handler. -/
def HttpRequest.read : ℤ × Bytes :=
  if r.contentLength.any (0 < ·) then
    let readbuf := r.body.take 4096
    (if readbuf.length < 4096 && r.recvError then -1 else readbuf.length, readbuf)
  else (0, [])

/-- A POST for an app. Neither of the first two responses ends the handler. -/
def startRequest (host : String) (appName : List Char) (a : ManagerAnswer) : Handled :=
  let (len, readbuf) := r.read
  let h : Handled := ⟨[], [appName], false⟩
  let h :=
    if len = 4096 then h.respError 413 "Request Entity Too Large"
    else if !mgutilIsValid readbuf len then h.respError 400 "Bad Request"
    else h
  match controlApp a with
  | none => { h with ended := true }
  | some ret =>
    if ret ≠ 0 then h.respError 503 "Service Unavailable"
    else h.respond 201 "Created" ("http://" ++ host ++ "/apps/" ++ .ofList appName ++ "/run")

def requestHandler (manager : ManagerCall → ManagerAnswer) : Handled :=
  let h : Handled := ⟨[], [], false⟩
  match r.host with
  | none => h.respError 400 "Bad Request"
  | some host =>
    if !"/apps".toList.isPrefixOf r.uri then h.respError 400 "Bad Request"
    else
      let (appName, inst) := parseUri r.uri
      if appName = [] then h.respError 404 "Not Found"
      else if r.requestMethod = "POST" ∧ inst = [] then
        startRequest r host appName (manager .startApp)
      else if r.requestMethod = "DELETE" ∧ inst = "run".toList then
        match getSessionId (manager .appRunning), controlApp (manager .stopApp) with
        | some sessionId, some ret =>
          if ¬0 < sessionId ∨ ret ≠ 0 then h.respError 404 "Not Found" else h.respond 200 "OK" none
        | _, _ => { h with ended := true }
      else if r.requestMethod = "GET" ∧ inst = [] then
        match getSessionId (manager .appRunning) with
        | some sessionId =>
          if sessionId < 0 then h.respError 404 "Not Found" else h.respond 200 "OK" none
        | none => { h with ended := true }
      else h.respError 400 "Bad Request"

/-- The body in `readbuf` is short enough and valid. -/
def HttpRequest.Accepted : Prop :=
  r.read.2.length < 4096 ∧ mgutilIsValid r.read.2 r.read.1

/-- There is one response, and an app has been started only with a body that is accepted. -/
def Handled.Proper (h : Handled) (r : HttpRequest) : Prop :=
  h.responses.length = 1 ∧ (h.started ≠ [] →
    (∀ x ∈ h.responses, x.status ≠ 400 ∧ x.status ≠ 413) ∧ r.Accepted)

variable (r : HttpRequest)

theorem accepted_iff : r.Accepted ↔ r.read.1 ≠ 4096 ∧ mgutilIsValid r.read.2 r.read.1 := by
  refine and_congr_left fun _ => ?_
  unfold HttpRequest.read
  split_ifs <;> grind

/-- A request for an app, or for an instance of it. -/
def HttpRequest.Asks (method inst : String) : Prop :=
  r.host.isSome ∧ "/apps".toList.isPrefixOf r.uri ∧ (parseUri r.uri).1 ≠ [] ∧
    r.requestMethod = method ∧ (parseUri r.uri).2 = inst.toList

theorem controlApp_isSome (a : ManagerAnswer) : (controlApp a).isSome ↔ (a.ret = 0 → a.parses) := by
  grind [controlApp]

theorem getSessionId_isSome (a : ManagerAnswer) :
    (getSessionId a).isSome ↔ a.ret = 0 ∧ a.parses := by
  grind [getSessionId]

theorem proper_startRequest (host : String) (appName : List Char) (a : ManagerAnswer) :
    (startRequest r host appName a).Proper r ↔ r.Accepted ∧ (controlApp a).isSome := by
  unfold startRequest
  dsimp only
  cases controlApp a with
  | none => split_ifs <;> simp [Handled.Proper, Handled.respError, Handled.respond]
  | some ret =>
    by_cases hret : ret = 0 <;> split_ifs <;>
      simp_all [Handled.Proper, Handled.respError, Handled.respond, accepted_iff]

theorem proper_respond (status : ℕ) (reason : String) (location : Option String) :
    (Handled.respond ⟨[], [], false⟩ status reason location).Proper r := by
  simp [Handled.Proper, Handled.respond]

theorem not_proper_ended : ¬(⟨[], [], true⟩ : Handled).Proper r := by
  simp [Handled.Proper]

/-- There is one answer, and an app is started only with a body that is accepted, exactly if a
request to start an app has such a body and beepmanager gives the answers that the handler
needs for what is asked. -/
theorem requestHandler_proper_iff (manager : ManagerCall → ManagerAnswer) :
    (requestHandler r manager).Proper r ↔
      (r.Asks "POST" "" → r.Accepted ∧
        ((manager .startApp).ret = 0 → (manager .startApp).parses)) ∧
      (r.Asks "DELETE" "run" →
        ((manager .appRunning).ret = 0 ∧ (manager .appRunning).parses) ∧
        ((manager .stopApp).ret = 0 → (manager .stopApp).parses)) ∧
      (r.Asks "GET" "" → (manager .appRunning).ret = 0 ∧ (manager .appRunning).parses) := by
  rw [← controlApp_isSome, ← controlApp_isSome, ← getSessionId_isSome]
  unfold requestHandler HttpRequest.Asks
  dsimp only
  split
  · simp_all [Handled.respError, proper_respond]
  · split_ifs with happs hname hpost hdelete hget
    · simp_all [Handled.respError, proper_respond]
    · simp_all [Handled.respError, proper_respond]
    · simp_all [proper_startRequest]
    · cases hrunning : getSessionId (manager .appRunning) <;>
        cases hstop : controlApp (manager .stopApp) <;>
        simp_all [not_proper_ended, apply_ite (Handled.Proper · r), Handled.respError,
          proper_respond]
    · cases hrunning : getSessionId (manager .appRunning) <;>
        simp_all [not_proper_ended, apply_ite (Handled.Proper · r), Handled.respError,
          proper_respond]
    · simp_all [Handled.respError, proper_respond]

/-- An app is started though its parameters hold a control character. -/
theorem started_after_bad_request :
    ∃ r : HttpRequest, (requestHandler r fun _ => ⟨0, true, true, some 1⟩).started ≠ [] ∧
      (requestHandler r fun _ => ⟨0, true, true, some 1⟩).responses.map HttpResponse.status =
        [400, 201] :=
  ⟨⟨"POST", "/apps/x".toList, some "h", some 1, [1], false⟩, by decide, by decide⟩

end BeepMusic.Castchat
