import BeepMusic.Update.Digest

/-!
What runs after an update. `cmd_update` stops the services of the device, and sets
`start_beep` so that `main` starts them again (`main.c`, `system.c`). The answers of the
system and of the server are arbitrary; the calls are numbered where there are several.
-/

namespace BeepMusic.Update

/-- The answers to `find_pid` (a code, the process and its group), and whether `kill`
succeeds. -/
structure KillAnswers where
  findPid : ℕ → UpdateCode × ℤ × ℤ
  sigterm : Bool
  sigkill : Bool

namespace KillAnswers

/-- The loop of `kill_group_by_name`: the process is still there after the last retry. -/
def remains (a : KillAnswers) : (retries call : ℕ) → Bool
  | 0, call => a.findPid call = a.findPid 0
  | retries + 1, call => a.findPid call = a.findPid 0 && a.remains retries (call + 1)

/-- `kill_group_by_name`, and whether the group has got SIGTERM. -/
def killGroupByName (a : KillAnswers) : UpdateCode × Bool :=
  if (a.findPid 0).1 ≠ .ok then ((a.findPid 0).1, false)
  else if (a.findPid 0).2.2 = 1 then (.err, false)
  else if !a.sigterm then (.err, false)
  else if a.remains 100 1 && !a.sigkill then (.err, true)
  else (.ok, true)

end KillAnswers

structure UpdateAnswers where
  /-- The flag `force` of a configuration, if there is one, and the code. -/
  serverGetConfig : ℕ → Option Bool × UpdateCode
  checkUnlessForce : Bool
  ftouch : UpdateCode
  manager : KillAnswers
  beepio : KillAnswers
  processUc : ℕ → UpdateCode
  systemResetReturns : Bool
  loadSwVersions : ℕ → UpdateCode

namespace UpdateAnswers

def stopBeepServices (a : UpdateAnswers) : UpdateCode :=
  let rcode := a.manager.killGroupByName.1
  if rcode = .ok ∨ rcode = .notFound then a.beepio.killGroupByName.1 else rcode

/-- The loop of `cmd_update`; there is no code if the system is reset. -/
def updateLoop (a : UpdateAnswers) : (counter update : ℕ) → Option UpdateCode
  | 0, _ => some .ok
  | counter + 1, update =>
    let code := a.processUc update
    if code ≠ .ok ∧ code ≠ .packageDigFail ∧ !a.systemResetReturns then none
    else if code ≠ .ok then some code
    else if a.loadSwVersions update ≠ .ok then some (a.loadSwVersions update)
    else
      match a.serverGetConfig (update + 1) with
      | (some _, .ok) => a.updateLoop counter (update + 1)
      | (_, code) => some code

/-- An update is deferred, or there is none. -/
def deferred (a : UpdateAnswers) : Option UpdateCode :=
  match a.serverGetConfig 0 with
  | (none, code) => some code
  | (some force, _) => if a.checkUnlessForce && !force then some a.ftouch else none

/-- `cmd_update`, with `start_beep` after it. -/
def cmdUpdate (a : UpdateAnswers) (startBeep : Bool) : Option (UpdateCode × Bool) :=
  match a.deferred with
  | some code => some (code, startBeep)
  | none =>
    let code := a.stopBeepServices
    let startBeep := if code = .ok then true else startBeep
    if code ≠ .ok ∧ code ≠ .notFound then some (code, startBeep)
    else (a.updateLoop 1 0).map fun code => (code, startBeep)

/-- `cmd_update` kills the group of beepmanager. -/
def KillsManager (a : UpdateAnswers) : Prop :=
  a.deferred = none ∧ a.manager.killGroupByName.2 = true
deriving Decidable

end UpdateAnswers

theorem KillAnswers.killGroupByName_killed {a : KillAnswers} (h : a.killGroupByName.2 = true) :
    a.killGroupByName.1 = .ok ∨ a.killGroupByName.1 = .err := by
  revert h
  unfold killGroupByName
  split_ifs <;> simp

/-- The services that were stopped are started again exactly if both groups could be killed,
unless they are started in any case. -/
theorem cmdUpdate_restarts (a : UpdateAnswers) (startBeep started : Bool) (code : UpdateCode)
    (hkills : a.KillsManager) (h : a.cmdUpdate startBeep = some (code, started)) :
    started = true ↔ startBeep = true ∨
      a.manager.killGroupByName.1 = .ok ∧ a.beepio.killGroupByName.1 = .ok := by
  have hstarted : started = if a.stopBeepServices = .ok then true else startBeep := by
    simp only [UpdateAnswers.cmdUpdate, hkills.1] at h
    split at h
    · exact (Prod.mk.inj (Option.some.inj h)).2.symm
    · obtain ⟨code', -, heq⟩ := Option.map_eq_some_iff.mp h
      exact (Prod.mk.inj heq).2.symm
  rw [hstarted, UpdateAnswers.stopBeepServices]
  rcases KillAnswers.killGroupByName_killed hkills.2 with hmanager | hmanager
  · simp [hmanager, or_comm]
  · simp [hmanager]

/-- A group that ends when it gets SIGTERM, and one that is not there. -/
def ends : KillAnswers := ⟨fun n => if n = 0 then (.ok, 7, 7) else (.notFound, 0, 0), true, true⟩

def absent : KillAnswers := ⟨fun _ => (.notFound, 0, 0), true, true⟩

/-- One update, and nothing is left to be done. -/
def oneUpdate (beepio : KillAnswers) : UpdateAnswers where
  serverGetConfig n := if n = 0 then (some false, .ok) else (none, .upToDate)
  checkUnlessForce := false
  ftouch := .ok
  manager := ends
  beepio := beepio
  processUc _ := .ok
  systemResetReturns := false
  loadSwVersions _ := .ok

theorem cmdUpdate_restarts_both :
    (oneUpdate ends).cmdUpdate false = some (.upToDate, true) ∧
      ends.killGroupByName.1 = .ok ∧ ends.killGroupByName.1 = .ok :=
  ⟨by decide, ((cmdUpdate_restarts (oneUpdate ends) false true .upToDate (by decide)
    (by decide)).mp rfl).resolve_left Bool.false_ne_true⟩

/-- The group of beepmanager has been killed, there was none of beepio, and nothing is started. -/
theorem cmdUpdate_leaves_stopped :
    (oneUpdate absent).KillsManager ∧
      (oneUpdate absent).cmdUpdate false = some (.upToDate, false) := by
  decide

end BeepMusic.Update
