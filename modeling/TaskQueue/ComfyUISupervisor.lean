import TaskQueue.StateExceptions
import Mathlib.Data.List.Basic

/-!
# The ComfyUI supervisor

`workers/comfyui.py` as a program over a small operating system: a process table, one
pidfile, a clock. Everything the supervisor does not decide is an `Answer`: the world
consults one at each interaction, in order, and also lets other things happen first
(processes end, other people start some).

`World.seen` records what an observer sees; the program never reads it.
-/

namespace TaskQueue.ComfyUI
open StateExceptions

abbrev Pid := Int

/-- A running process. `launched` tells those that a supervisor started, `mainPy` those
with `main.py` in their command line. -/
structure Process where
  inst : ℕ
  pid : Pid
  launched : Bool
  mainPy : Bool
  deriving DecidableEq

/-- What may happen at any time. A pid in use is not given out again. -/
inductive OsEvent
  | exit (inst : ℕ)
  | spawn (pid : Pid) (mainPy : Bool)

/-- What the world says to one interaction. `fails` is the `OSError` of a file operation,
a launch, a signal, a `wait` or of running `ps`; a write that fails may still have emptied
the file. -/
structure Answer where
  events : List OsEvent := []
  fails : Bool := false
  healthy : Bool := false
  pid : Pid := 0
  mainPy : Bool := true
  code : Int := 0
  truncates : Bool := false
  elapsed : ℕ := 0

/-- The contents of the pidfile. -/
inductive PidText
  | number (pid : Pid)
  | garbled
  deriving DecidableEq

/-- `subprocess.Popen` knows its own child; `_AdoptedProcess` knows a pid. -/
inductive Handle
  | popen (inst : ℕ) (pid : Pid)
  | adopted (pid : Pid)
  deriving DecidableEq

inductive State
  | stopped | starting | ready | restarting | failed
  deriving DecidableEq

/-- `start_timeout` is a float, counted in whole seconds here; a `nan` runs out at once, as
`seconds 0` does. An infinite one never runs out; `rounds` is how many rounds of the start are
followed then. -/
inductive Timeout
  | seconds (n : Int)
  | endless (rounds : ℕ)
  deriving DecidableEq

namespace Timeout

def finite : Timeout → Bool
  | .seconds _ => true
  | .endless _ => false

def deadline (now : Int) : Timeout → Option Int
  | .seconds n => some (now + n)
  | .endless _ => none

/-- Enough rounds for the deadline to pass, if there is one. -/
def rounds : Timeout → ℕ
  | .seconds n => n.toNat + 1
  | .endless rounds => rounds

/-- The six leading digits of a number of seven digits or more, rounded half to even, and its
exponent. -/
def significant (n : ℕ) : ℕ × ℕ :=
  let e := (toString n).length - 1
  let unit := Nat.pow 10 (e - 5)
  let m := n / unit
  let up := unit < 2 * (n % unit) ∨ 2 * (n % unit) = unit ∧ m % 2 = 1
  if up then if m + 1 = 1000000 then (100000, e + 1) else (m + 1, e) else (m, e)

/-- The number of seconds as `:g` formats it. -/
def text : Timeout → String
  | .endless _ => "inf"
  | .seconds n =>
    let sign := if n < 0 then "-" else ""
    if n.natAbs < 1000000 then sign ++ toString n.natAbs
    else
      let (m, e) := significant n.natAbs
      let digits := (toString m).toList
      let fraction := ((digits.drop 1).reverse.dropWhile (· = '0')).reverse
      sign ++ String.ofList (digits.take 1) ++
        (if fraction.isEmpty then "" else "." ++ String.ofList fraction) ++
        (if e < 10 then "e+0" else "e+") ++ toString e

example : [300, 1000000, 1234567, 9999995].map (fun n => text (.seconds n)) =
    ["300", "1e+06", "1.23457e+06", "1e+07"] := by decide

end Timeout

structure Config where
  url : String := "http://127.0.0.1:8188"
  logPath : String := "comfyui.log"
  manage : Bool := true
  idleSeconds : Int := 600
  startTimeout : Timeout := .seconds 300

/-- The fields of `ComfyUISupervisor`. -/
structure Supervisor where
  cfg : Config
  proc : Option Handle
  state : State
  busy : Bool
  restartPending : Bool
  lastUsed : Int

/-- `unended` is no exception of the source: the call has not come back by the end of the
rounds of an endless start that are followed. -/
inductive Exn
  | comfyUIUnavailable (message : String)
  | timeoutExpired
  | osError
  | typeError
  | unended
  deriving DecidableEq

/-- What an observer sees, with what was true at that moment: the launcher called (while
the pidfile named a launched process that was running), a pidfile given up by adoption
(while it did), a log that could not be opened, a launch that failed, a pid that could not
be recorded, a pidfile that could not be deleted (while the process to be ended was
running), SIGTERM or SIGKILL sent (to whom), the end of a termination (with the process
still running), an endless start still going on after the rounds that are followed, somebody
else's process started (under a pid that the supervisor takes for its own). -/
inductive Sight
  | launch (orphan : Bool)
  | giveUp (orphan : Bool)
  | unopened
  | unlaunched
  | unrecorded
  | undeleted (abandons : Bool)
  | signal (target : Option Process)
  | terminated (survived : Bool)
  | unended
  | foreign (clash : Bool)
  deriving DecidableEq

structure World where
  processes : List Process
  nextInst : ℕ
  pidfile : Option PidText
  now : Int
  tick : ℕ
  sup : Supervisor
  /-- The handle that is being terminated. -/
  ending : Option Handle
  seen : List Sight

namespace World

def withPid (w : World) (pid : Pid) : Option Process := w.processes.find? fun p => p.pid = pid

def withInst (w : World) (inst : ℕ) : Option Process :=
  w.processes.find? fun p => p.inst = inst

/-- The running process that a handle speaks of. -/
def target (w : World) : Handle → Option Process
  | .popen inst _ => w.withInst inst
  | .adopted pid => w.withPid pid

/-- The pidfile names a launched process that is running. -/
def orphan (w : World) : Bool :=
  match w.pidfile with
  | some (.number pid) => w.processes.any fun p => p.pid = pid && p.launched
  | _ => false

/-- The process that is to be ended is running, out of the supervisor's hands. -/
def abandons (w : World) : Bool := w.ending.any fun h => (w.target h).isSome

/-- The supervisor holds an adopted handle for this pid. -/
def holds (w : World) (pid : Pid) : Bool :=
  w.sup.proc = some (.adopted pid) || w.ending = some (.adopted pid)

/-- The supervisor would adopt a ComfyUI under this pid, now or once it has recorded it. -/
def records (w : World) (pid : Pid) : Bool :=
  w.pidfile = some (.number pid) || match w.sup.proc with
    | some (.popen _ p) => p = pid
    | _ => false

/-- Somebody else's process under this pid would be taken for a launched one. -/
def clash (w : World) (pid : Pid) (mainPy : Bool) : Bool :=
  w.holds pid || mainPy && w.records pid

def see (w : World) (s : Sight) : World := { w with seen := w.seen ++ [s] }

/-- One thing happens in the operating system. -/
def happen (w : World) : OsEvent → World
  | .exit inst => { w with processes := w.processes.filter fun p => p.inst ≠ inst }
  | .spawn pid mainPy =>
    if (w.withPid pid).isSome then w
    else { w.see (.foreign (w.clash pid mainPy)) with
      processes := ⟨w.nextInst, pid, false, mainPy⟩ :: w.processes
      nextInst := w.nextInst + 1 }

/-- Time goes on until the world gives its next answer. -/
def advance (w : World) (a : Answer) : World :=
  { a.events.foldl happen w with now := w.now + a.elapsed, tick := w.tick + 1 }

end World

/-- A method call: it changes the world and returns or raises. -/
abbrev M := ExceptT Exn (StateM World)

section Interactions
variable (env : ℕ → Answer)

/-- Let the world give its next answer. -/
def interact : M Answer := do
  let w ← get
  let a := env w.tick
  set (w.advance a)
  return a

def see (s : Sight) : M Unit := modify fun w => w.see s

def setState (state : State) : M Unit :=
  modify fun w => { w with sup := { w.sup with state := state } }

def setProc (proc : Option Handle) : M Unit :=
  modify fun w => { w with sup := { w.sup with proc := proc } }

def clock : M Int := do
  let _ ← interact env
  return (← get).now

/-- `poll() is None`. A pid that belongs to somebody counts as running. -/
def running (h : Handle) : M Bool := do
  let _ ← interact env
  return ((← get).target h).isSome

def health : M Bool := return (← interact env).healthy

/-- `Path.unlink(missing_ok=True)`. -/
def unlinkPidfile : M Unit := do
  if (← interact env).fails then
    let w ← get
    see (.undeleted w.abandons)
    throw .osError
  else modify fun w => { w with pidfile := none }

/-- `int(self.pid_path.read_text().strip())`, `none` for `OSError` and `ValueError`. -/
def readPid : M (Option Pid) := do
  let a ← interact env
  match (← get).pidfile with
  | some (.number pid) => return if a.fails then none else some pid
  | _ => return none

/-- `_adopt_comfyui`. -/
def adoptComfyui (pid : Pid) : M (Option Handle) := do
  let a ← interact env
  let w ← get
  if !a.fails && (w.withPid pid).any Process.mainPy then return some (.adopted pid)
  else return none

/-- `terminate` and `kill` of a handle. A process that is gone gets no signal. -/
def signal (h : Handle) : M Unit := do
  let a ← interact env
  see (.signal ((← get).target h))
  if a.fails then throw .osError

/-- `wait(timeout=20)` of a handle. -/
def wait (h : Handle) : M Unit := do
  if (← interact env).fails then throw .osError
  else if ((← get).target h).isSome then throw .timeoutExpired
  else return

/-- The child gets a pid that is not in use. -/
def addChild (a : Answer) (w : World) : World :=
  { w with
    processes := ⟨w.nextInst, a.pid, true, a.mainPy⟩ :: w.processes
    nextInst := w.nextInst + 1 }

/-- `self._popen(...)`. -/
def popen : M Handle := do
  let a ← interact env
  let w ← get
  see (.launch w.orphan)
  if a.fails || (w.withPid a.pid).isSome then
    see .unlaunched
    throw .osError
  else
    modify (addChild a)
    return .popen w.nextInst a.pid

/-- `self.pid_path.write_text(str(self._proc.pid))`. The handler of its `OSError` calls
`log`, which is the open log file there, so that a `TypeError` leaves the method. -/
def writePid (pid : Pid) : M Unit := do
  let a ← interact env
  if a.fails then
    see .unrecorded
    modify fun w => { w with pidfile := if a.truncates then some .garbled else w.pidfile }
    throw .typeError
  else modify fun w => { w with pidfile := some (.number pid) }

/-- `mkdir` of the log directory and `open` of the log file. -/
def openLog : M Unit := do
  if (← interact env).fails then
    see .unopened
    throw .osError

def sleep (seconds : ℕ) : M Unit := do
  let _ ← interact env
  modify fun w => { w with now := w.now + seconds }

end Interactions

def Handle.pid : Handle → Pid
  | .popen _ pid => pid
  | .adopted pid => pid

section Methods
variable (env : ℕ → Answer)

/-- `_child_alive`. -/
def childAlive : M Bool := do
  match (← get).sup.proc with
  | none => return false
  | some h => running env h

/-- `self._proc is not None and not self._child_alive()`. -/
def crashed : M Bool := do
  if (← get).sup.proc.isSome then return !(← childAlive env)
  else return false

/-- The handle that the pidfile leads to, if any. -/
def findOrphan : M (Option Handle) := do
  match ← readPid env with
  | none => return none
  | some pid => if pid = 0 then return none else adoptComfyui env pid

/-- `_adopt_orphan`. -/
def adoptOrphan : M Unit := do
  let w ← get
  if w.sup.proc.isNone && w.pidfile.isSome then
    match ← findOrphan env with
    | none =>
      let w ← get
      see (.giveUp w.orphan)
      unlinkPidfile env
    | some h => setProc (some h)
  else return

/-- SIGTERM and a wait; if that times out SIGKILL and another wait. -/
def signalAndWait (h : Handle) : M Unit := do
  signal env h
  tryCatch (wait env h) fun
    | .timeoutExpired => do
      signal env h
      wait env h
    | e => throw e

/-- The `try` statement of `_terminate`. -/
def endProcess (h : Handle) : M Unit :=
  tryCatch (signalAndWait env h) fun
    | .timeoutExpired => pure ()
    | .osError => pure ()
    | e => throw e

/-- `_terminate` after the pidfile is gone. -/
def endProc : Option Handle → M Unit
  | none => return
  | some h => do
    if ← running env h then
      endProcess env h
      let w ← get
      see (.terminated (w.target h).isSome)
    else return

/-- `_terminate`. -/
def terminate : M Unit := do
  let w ← get
  modify fun w => { w with sup := { w.sup with proc := none }, ending := w.sup.proc }
  unlinkPidfile env
  endProc env w.sup.proc
  modify fun w => { w with ending := none }

/-- The end of `_start` when ComfyUI has not become healthy in time. -/
def startTimedOut : M Unit := do
  terminate env
  setState .failed
  let cfg := (← get).sup.cfg
  throw (.comfyUIUnavailable
    (s!"comfyui_unavailable: ComfyUI did not respond at {cfg.url} within " ++
      s!"{cfg.startTimeout.text}s; see {cfg.logPath}"))

/-- The rounds of an endless start that are followed are over. -/
def stopFollowing : M Unit := do
  see .unended
  throw .unended

/-- The branch of `_start` for a child that has exited. -/
def childDied : M Unit := do
  let code := (← interact env).code
  setProc none
  unlinkPidfile env
  setState .failed
  let cfg := (← get).sup.cfg
  throw (.comfyUIUnavailable
    (s!"comfyui_unavailable: ComfyUI exited during startup (code {code}); " ++
      s!"see {cfg.logPath}"))

def becomeReady : M Unit := do
  setState .ready
  let now ← clock env
  modify fun w => { w with sup := { w.sup with lastUsed := now } }

/-- The loop of `_start`. Each round sleeps two seconds. -/
def startLoop (deadline : Option Int) : ℕ → M Unit
  | 0 => if deadline.isSome then startTimedOut env else stopFollowing
  | rounds + 1 => do
    let now ← clock env
    if deadline.all (now < ·) then
      if ← childAlive env then
        if ← health env then becomeReady env
        else
          sleep env 2
          startLoop deadline rounds
      else childDied env
    else startTimedOut env

/-- `_start`. -/
def start : M Unit := do
  setState .starting
  openLog env
  let proc ← popen env
  setProc (some proc)
  writePid env proc.pid
  let timeout := (← get).sup.cfg.startTimeout
  let deadline := timeout.deadline (← clock env)
  startLoop env deadline timeout.rounds

/-- The crash check of `ensure_running`. -/
def dropCrashed : M Unit := do
  if ← crashed env then setProc none

/-- The first half of `ensure_running`: the crash check, the probe and the adoption. -/
def look : M Bool := do
  dropCrashed env
  if ← health env then
    adoptOrphan env
    return true
  else return false

def setRestartPending (pending : Bool) : M Unit :=
  modify fun w => { w with sup := { w.sup with restartPending := pending } }

/-- A process of ours that is alive but does not answer is ended. -/
def endHung : M Unit := do
  if (← get).sup.proc.isSome then terminate env

/-- The branch of `ensure_running` for a restart that was requested. -/
def requestedRestart : M Unit := do
  setRestartPending false
  setState .restarting
  terminate env
  start env

/-- The rest of `ensure_running` if there is no restart to carry out. -/
def withoutRestart (healthy : Bool) : M Unit := do
  setRestartPending false
  if healthy then setState .ready
  else
    endHung env
    let cfg := (← get).sup.cfg
    if cfg.manage then start env
    else
      setState .failed
      throw (.comfyUIUnavailable
        (s!"comfyui_unavailable: ComfyUI is not running at {cfg.url} " ++
          "and COMFYUI_MANAGE is off -- start it manually."))

/-- `ensure_running`. -/
def ensureRunning : M Unit := do
  let healthy ← look env
  let w ← get
  if w.sup.restartPending && w.sup.proc.isSome then requestedRestart env
  else withoutRestart env healthy

/-- `stop`. -/
def stop : M Unit := do
  if (← get).sup.proc.isSome then
    terminate env
    setState .stopped

/-- `restart`. -/
def restart : M Bool := do
  if (← get).sup.proc.isSome then
    setState .restarting
    terminate env
    start env
    return true
  else return false

/-- `mark_busy`. -/
def markBusy : M Unit := modify fun w => { w with sup := { w.sup with busy := true } }

/-- `mark_idle`. -/
def markIdle : M Unit := do
  let now ← clock env
  modify fun w => { w with sup := { w.sup with busy := false, lastUsed := now } }

/-- `maybe_stop_idle`. -/
def maybeStopIdle : M Bool := do
  adoptOrphan env
  let w ← get
  if w.sup.proc.isSome && !w.sup.busy then
    if (← clock env) - w.sup.lastUsed < w.sup.cfg.idleSeconds then return false
    else
      stop env
      return true
  else return false

/-- `details` during a render: the exit status of the child instead of a probe. -/
def checkBusy : M Unit := do
  if ← crashed env then
    setProc none
    unlinkPidfile env
    setState .stopped

def forgetCrashed : M Unit := do
  if ← crashed env then
    setProc none
    unlinkPidfile env

/-- `details` between renders. -/
def probe : M Unit := do
  if ← health env then
    adoptOrphan env
    setState .ready
  else if (← get).sup.state = .ready then
    forgetCrashed env
    setState .stopped
  else return

def refresh (sup : Supervisor) : M Unit :=
  if sup.busy then checkBusy env
  else if sup.state = .ready || sup.state = .stopped || sup.state = .failed then probe env
  else return

/-- `details`, with the lock free; while it is held the call only reads two fields. -/
def details : M (State × Bool) := do
  let w ← get
  refresh env w.sup
  let sup := (← get).sup
  return (sup.state, sup.proc.isSome)

end Methods

/-- What a worker does with its supervisor; `newWorker` is a worker that starts after the
one before it has gone without cleaning up. -/
inductive Op
  | ensureRunning
  | restart
  | requestRestart
  | stop
  | markBusy
  | markIdle
  | maybeStopIdle
  | details
  | newWorker (cfg : Config)

/-- The next worker has a supervisor of its own. -/
def replaces : Op → Bool
  | .newWorker _ => true
  | _ => false

def newSupervisor (cfg : Config) (now : Int) : Supervisor where
  cfg := cfg
  proc := none
  state := .stopped
  busy := false
  restartPending := false
  lastUsed := now

/-- `__init__` reads the clock. -/
def newWorker (env : ℕ → Answer) (cfg : Config) : M Unit := do
  let now ← clock env
  modify fun w => { w with sup := newSupervisor cfg now }

def Op.run (env : ℕ → Answer) : Op → M Unit
  | .ensureRunning => ComfyUI.ensureRunning env
  | .restart => do let _ ← ComfyUI.restart env
  | .requestRestart => setRestartPending true
  | .stop => ComfyUI.stop env
  | .markBusy => ComfyUI.markBusy
  | .markIdle => ComfyUI.markIdle env
  | .maybeStopIdle => do let _ ← ComfyUI.maybeStopIdle env
  | .details => do let _ ← ComfyUI.details env
  | .newWorker cfg => ComfyUI.newWorker env cfg

/-- The world after an operation, whether it returns or raises. -/
def perform (env : ℕ → Answer) (w : World) (op : Op) : World :=
  (runFrom (op.run env) { w with ending := none }).2

def step (env : ℕ → Answer) (w : World) (op : Op) : Option World := some (perform env w op)

/-- Nothing runs yet, and nothing is recorded. -/
def beforeWorkers : World where
  processes := []
  nextInst := 0
  pidfile := none
  now := 0
  tick := 0
  sup := newSupervisor {} 0
  ending := none
  seen := []

end TaskQueue.ComfyUI
