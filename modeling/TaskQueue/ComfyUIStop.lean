import TaskQueue.ComfyUIInteractions
import Mathlib.Tactic.MkIffOfInductiveProp
import Mathlib.Tactic.SplitIfs

/-!
# What `stop` does to the process it ends

`stop` and `_terminate` of `workers/comfyui.py` for a handle and a pidfile that behave as
they like. The calls on the handle are recorded with their outcomes, so that SIGTERM and
SIGKILL can be told apart. What `stop` does among the processes of a machine is one of
these behaviours.
-/

namespace TaskQueue.ComfyUIStop
open ComfyUI (Supervisor Exn Handle)
open StateExceptions

/-- How a `wait` ends. -/
inductive Waited
  | returned
  | timeoutExpired
  | osError
  deriving DecidableEq

/-- How the pidfile and the managed handle behave during a call of `stop`. -/
structure Behaviour where
  unlinkFails : Bool := false
  alive : Bool := true
  terminateRefused : Bool := false
  firstWait : Waited := .returned
  killRefused : Bool := false
  secondWait : Waited := .returned

/-- A call on the handle; a refused signal is an `OSError`. -/
inductive Call
  | poll (alive : Bool)
  | terminate (refused : Bool)
  | kill (refused : Bool)
  | wait (outcome : Waited)
  deriving DecidableEq

structure Shutdown where
  sup : Supervisor
  calls : List Call := []

abbrev M := ExceptT Exn (StateM Shutdown)

section Methods
variable (b : Behaviour)

def record (call : Call) : M Unit := modify fun s => { s with calls := s.calls ++ [call] }

def setProc (proc : Option Handle) : M Unit :=
  modify fun s => { s with sup := { s.sup with proc := proc } }

def setState (state : ComfyUI.State) : M Unit :=
  modify fun s => { s with sup := { s.sup with state := state } }

/-- `self.pid_path.unlink(missing_ok=True)`. -/
def unlinkPidfile : M Unit :=
  if b.unlinkFails then throw .osError else return

/-- `proc.poll() is None`. -/
def poll : M Bool := do
  record (.poll b.alive)
  return b.alive

/-- `proc.terminate()`. -/
def sendTerminate : M Unit := do
  record (.terminate b.terminateRefused)
  if b.terminateRefused then throw .osError

/-- `proc.kill()`. -/
def sendKill : M Unit := do
  record (.kill b.killRefused)
  if b.killRefused then throw .osError

/-- `proc.wait(timeout=20)`. -/
def wait (outcome : Waited) : M Unit := do
  record (.wait outcome)
  match outcome with
  | .returned => return
  | .timeoutExpired => throw .timeoutExpired
  | .osError => throw .osError

/-- The inner `try` statement of `_terminate`. -/
def escalate : M Unit :=
  tryCatch (wait b.firstWait) fun
    | .timeoutExpired => do
      sendKill b
      wait b.secondWait
    | e => throw e

/-- The body of the outer one. -/
def signalAndWait : M Unit := do
  sendTerminate b
  escalate b

/-- The handler of `_terminate` only logs. -/
def endProcess : M Unit :=
  tryCatch (signalAndWait b) fun
    | .timeoutExpired => pure ()
    | .osError => pure ()
    | e => throw e

/-- `_terminate` after the pidfile is gone. -/
def endProc : Option Handle → M Unit
  | none => return
  | some _ => do
    if ← poll b then endProcess b else return

/-- `_terminate`. -/
def terminate : M Unit := do
  let s ← get
  setProc none
  unlinkPidfile b
  endProc b s.sup.proc

/-- `stop`. -/
def stop : M Unit := do
  if (← get).sup.proc.isSome then
    terminate b
    setState .stopped

end Methods

/-- How a call of `stop` ends, and what is left after it. -/
def stopFrom (b : Behaviour) (sup : Supervisor) : Except Exn Unit × Shutdown :=
  runFrom (stop b) { sup }

def Call.isWait : Call → Bool
  | .wait _ => true
  | _ => false

/-- The process has been seen to exit within the first wait. -/
def exitSeen (calls : List Call) : Bool := calls.find? Call.isWait = some (.wait .returned)

/-- A signal that the handle has refused counts as sent. -/
@[mk_iff]
structure Signalled (calls : List Call) : Prop where
  sigterm : .poll true ∈ calls → ∃ refused, .terminate refused ∈ calls
  sigkill : .poll true ∈ calls → exitSeen calls = false →
    .terminate true ∈ calls ∨ ∃ refused, .kill refused ∈ calls

/-- `stop` returns with nothing managed, and the process it gave up has been signalled. -/
structure StopsCleanly (b : Behaviour) (sup : Supervisor) : Prop where
  returns : (stopFrom b sup).1 = .ok ()
  unmanaged : (stopFrom b sup).2.sup.proc = none
  stopped : sup.proc ≠ none → (stopFrom b sup).2.sup.state = .stopped
  signalled : Signalled (stopFrom b sup).2.calls

section Runs
variable (b : Behaviour)

/-- The calls of `escalate`. -/
def escalation : List Call :=
  .wait b.firstWait ::
    if b.firstWait = .timeoutExpired then
      .kill b.killRefused :: if b.killRefused then [] else [.wait b.secondWait]
    else []

/-- The calls of `_terminate` on a handle. -/
def callsOf : List Call :=
  .poll b.alive ::
    if b.alive then
      .terminate b.terminateRefused :: if b.terminateRefused then [] else escalation b
    else []

/-- The state after more calls. -/
def Shutdown.calling (s : Shutdown) (calls : List Call) : Shutdown :=
  { s with calls := s.calls ++ calls }

@[simp] theorem calling_calling (s : Shutdown) (calls more : List Call) :
    (s.calling calls).calling more = s.calling (calls ++ more) := by
  simp [Shutdown.calling]

/-- What the handler of `_terminate` can deal with. -/
def handled : Except Exn Unit → Bool
  | .ok _ | .error .timeoutExpired | .error .osError => true
  | _ => false

variable {b} {s : Shutdown}

theorem runFrom_setProc {proc : Option Handle} :
    runFrom (setProc proc) s = (.ok (), { s with sup := { s.sup with proc := proc } }) := rfl

theorem runFrom_wait (outcome : Waited) : ∃ r, handled r = true ∧
    runFrom (wait outcome) s = (r, s.calling [.wait outcome]) ∧
    (r = .error .timeoutExpired ↔ outcome = .timeoutExpired) := by
  cases outcome with
  | returned => exact ⟨.ok (), rfl, rfl, nofun, nofun⟩
  | timeoutExpired => exact ⟨.error .timeoutExpired, rfl, rfl, fun _ => rfl, fun _ => rfl⟩
  | osError => exact ⟨.error .osError, rfl, rfl, nofun, nofun⟩

theorem runFrom_sendKill : runFrom (sendKill b) s =
    (if b.killRefused then .error .osError else .ok (), s.calling [.kill b.killRefused]) := by
  rw [sendKill]
  cases b.killRefused <;> rfl

theorem runFrom_sendTerminate : runFrom (sendTerminate b) s =
    (if b.terminateRefused then .error .osError else .ok (),
      s.calling [.terminate b.terminateRefused]) := by
  rw [sendTerminate]
  cases b.terminateRefused <;> rfl

/-- SIGKILL and another wait. -/
theorem runFrom_kill : ∃ r, handled r = true ∧
    runFrom (do sendKill b; wait b.secondWait) s =
      (r, s.calling (.kill b.killRefused ::
        if b.killRefused then [] else [.wait b.secondWait])) := by
  have hsend := runFrom_sendKill (b := b) (s := s)
  cases hkill : b.killRefused with
  | true =>
    rw [hkill, if_pos rfl] at hsend
    exact ⟨.error .osError, rfl, runFrom_bind_error hsend⟩
  | false =>
    rw [hkill, if_neg Bool.false_ne_true] at hsend
    obtain ⟨r, hr, hwait, -⟩ := runFrom_wait (s := s.calling [.kill false]) b.secondWait
    refine ⟨r, hr, ?_⟩
    rw [runFrom_bind_ok hsend, hwait, calling_calling]
    rfl

/-- A wait and, if it times out, SIGKILL and another one. -/
theorem runFrom_escalate : ∃ r, handled r = true ∧
    runFrom (escalate b) s = (r, s.calling (escalation b)) := by
  obtain ⟨r, hr, hwait, htimeout⟩ := runFrom_wait (s := s) b.firstWait
  match r with
  | .ok () =>
    have hfirst : b.firstWait ≠ .timeoutExpired := fun h => nomatch htimeout.2 h
    refine ⟨.ok (), rfl, ?_⟩
    rw [escalate, runFrom_tryCatch_ok hwait, escalation, if_neg hfirst]
  | .error .timeoutExpired =>
    obtain ⟨r', hr', hkill⟩ := runFrom_kill (b := b) (s := s.calling [.wait b.firstWait])
    refine ⟨r', hr', ?_⟩
    rw [escalate, runFrom_tryCatch_error hwait, escalation, if_pos (htimeout.1 rfl), hkill,
      calling_calling]
    rfl
  | .error .osError =>
    have hfirst : b.firstWait ≠ .timeoutExpired := fun h => nomatch htimeout.2 h
    refine ⟨.error .osError, rfl, ?_⟩
    rw [escalate, runFrom_tryCatch_error hwait, escalation, if_neg hfirst]
    rfl

/-- The handler of `_terminate` lets nothing out. -/
theorem runFrom_endProcess : runFrom (endProcess b) s =
    (.ok (), s.calling (.terminate b.terminateRefused ::
      if b.terminateRefused then [] else escalation b)) := by
  have hsend := runFrom_sendTerminate (b := b) (s := s)
  cases hrefused : b.terminateRefused with
  | true =>
    rw [hrefused, if_pos rfl] at hsend
    exact runFrom_tryCatch_error (runFrom_bind_error hsend)
  | false =>
    rw [hrefused, if_neg Bool.false_ne_true] at hsend
    obtain ⟨r, hr, hescalate⟩ := runFrom_escalate (b := b) (s := s.calling [.terminate false])
    have hrun := (runFrom_bind_ok (f := fun _ => escalate b) hsend).trans hescalate
    rw [calling_calling] at hrun
    match r with
    | .ok () => exact runFrom_tryCatch_ok hrun
    | .error .timeoutExpired => exact runFrom_tryCatch_error hrun
    | .error .osError => exact runFrom_tryCatch_error hrun

theorem runFrom_endProc (h : Handle) :
    runFrom (endProc b (some h)) s = (.ok (), s.calling (callsOf b)) := by
  have hpoll : runFrom (poll b) s = (.ok b.alive, s.calling [.poll b.alive]) := rfl
  rw [endProc, runFrom_bind_ok hpoll, callsOf]
  cases b.alive with
  | false => rfl
  | true => exact runFrom_endProcess.trans (by rw [calling_calling]; rfl)

end Runs

section Outcome
variable {b : Behaviour} {sup : Supervisor}

theorem stopFrom_unmanaged (h : sup.proc = none) : stopFrom b sup = (.ok (), { sup }) := by
  rw [stopFrom, stop, runFrom_bind_ok (runFrom_get _), h]
  rfl

/-- The handle is dropped, and then the pidfile cannot be deleted. -/
theorem stopFrom_undeleted {h : Handle} (hproc : sup.proc = some h) (hb : b.unlinkFails = true) :
    stopFrom b sup = (.error .osError, { sup := { sup with proc := none } }) := by
  have hterminate : runFrom (terminate b) { sup } =
      (.error .osError, { sup := { sup with proc := none } }) := by
    rw [terminate, runFrom_bind_ok (runFrom_get _), runFrom_bind_ok runFrom_setProc,
      unlinkPidfile, hb]
    rfl
  rw [stopFrom, stop, runFrom_bind_ok (runFrom_get _), hproc]
  exact runFrom_bind_error hterminate

theorem stopFrom_deleted {h : Handle} (hproc : sup.proc = some h) (hb : b.unlinkFails = false) :
    stopFrom b sup =
      (.ok (), { sup := { sup with proc := none, state := .stopped }, calls := callsOf b }) := by
  have hterminate : runFrom (terminate b) { sup } =
      (.ok (), { sup := { sup with proc := none }, calls := callsOf b }) := by
    rw [terminate, runFrom_bind_ok (runFrom_get _), runFrom_bind_ok runFrom_setProc,
      unlinkPidfile, hb, hproc]
    exact runFrom_endProc h
  rw [stopFrom, stop, runFrom_bind_ok (runFrom_get _), hproc]
  exact runFrom_bind_ok hterminate

/-- The calls escalate as they should unless the first wait breaks off. -/
theorem signalled_callsOf : Signalled (callsOf b) ↔
    b.alive = false ∨ b.terminateRefused = true ∨ b.firstWait ≠ .osError := by
  rw [signalled_iff, callsOf]
  cases halive : b.alive with
  | false => simp
  | true =>
    cases hrefused : b.terminateRefused with
    | true => simp
    | false =>
      cases hfirst : b.firstWait with
      | returned | timeoutExpired | osError =>
        simp [escalation, exitSeen, Call.isWait, hfirst]

theorem stopsCleanly_unmanaged (h : sup.proc = none) : StopsCleanly b sup := by
  have hrun := stopFrom_unmanaged (b := b) h
  exact
    { returns := by rw [hrun]
      unmanaged := by rw [hrun]; exact h
      stopped := absurd h
      signalled := by rw [hrun]; exact ⟨nofun, nofun⟩ }

theorem stopsCleanly_managed {h : Handle} (hproc : sup.proc = some h) :
    StopsCleanly b sup ↔ b.unlinkFails = false ∧
      (b.alive = false ∨ b.terminateRefused = true ∨ b.firstWait ≠ .osError) := by
  cases hb : b.unlinkFails with
  | true =>
    have hrun := stopFrom_undeleted hproc hb
    refine iff_of_false ?_ fun hdeleted => nomatch hdeleted.1
    intro hclean
    have hreturns := hclean.returns
    rw [hrun] at hreturns
    cases hreturns
  | false =>
    have hrun := stopFrom_deleted hproc hb
    rw [← signalled_callsOf]
    constructor
    · intro hclean
      have hsignalled := hclean.signalled
      rw [hrun] at hsignalled
      exact ⟨rfl, hsignalled⟩
    · intro hdeleted
      exact
        { returns := by rw [hrun]
          unmanaged := by rw [hrun]
          stopped := fun _ => by rw [hrun]
          signalled := by rw [hrun]; exact hdeleted.2 }

/-- `stop` is clean unless the pidfile cannot be deleted, or the first wait for a process
that took SIGTERM raises something else than a timeout. -/
theorem stopsCleanly_iff (b : Behaviour) (sup : Supervisor) : StopsCleanly b sup ↔
    sup.proc = none ∨ b.unlinkFails = false ∧
      (b.alive = false ∨ b.terminateRefused = true ∨ b.firstWait ≠ .osError) := by
  cases hproc : sup.proc with
  | none => exact iff_of_true (stopsCleanly_unmanaged hproc) (.inl rfl)
  | some h =>
    rw [stopsCleanly_managed hproc]
    exact ⟨.inr, fun hcases => hcases.resolve_left nofun⟩

/-- A ComfyUI that is ready, in a directory whose pidfile cannot be deleted. -/
def readySupervisor : Supervisor where
  cfg := {}
  proc := some (.popen 0 4711)
  state := .ready
  busy := false
  restartPending := false
  lastUsed := 0

/-- The running process is dropped without a signal, and the exception leaves `stop`. -/
theorem stop_undeleted : ¬StopsCleanly { unlinkFails := true } readySupervisor := by
  intro hclean
  exact absurd hclean.returns (by decide)

end Outcome

section Adopted

/-- `os.kill(pid, …)`. -/
inductive KillResult
  | delivered
  | noSuchProcess
  | notPermitted
  deriving DecidableEq

/-- `_AdoptedProcess.poll() is None`. -/
def adoptedRunning (result : KillResult) : Bool := result ≠ .noSuchProcess

/-- `_AdoptedProcess._signal` lets an exception out. -/
def adoptedRefuses (result : KillResult) : Bool := result = .notPermitted

/-- `_AdoptedProcess.wait`, with the answer to each poll and whether the deadline had passed
after it. -/
def adoptedWait : List (KillResult × Bool) → Option Waited
  | [] => none
  | (result, late) :: rounds =>
    if adoptedRunning result then
      if late then some .timeoutExpired else adoptedWait rounds
    else some .returned

/-- The behaviour of an adopted handle. -/
structure Adopted where
  unlinkFails : Bool
  poll : KillResult
  terminate : KillResult
  kill : KillResult
  firstWait : Waited
  secondWait : Waited
  first : ∃ rounds, adoptedWait rounds = some firstWait
  second : ∃ rounds, adoptedWait rounds = some secondWait

def Adopted.behaviour (a : Adopted) : Behaviour where
  unlinkFails := a.unlinkFails
  alive := adoptedRunning a.poll
  terminateRefused := adoptedRefuses a.terminate
  firstWait := a.firstWait
  killRefused := adoptedRefuses a.kill
  secondWait := a.secondWait

/-- The wait of an adopted process ends by its deadline. -/
theorem adoptedWait_isSome {rounds : List (KillResult × Bool)}
    (h : ∃ round ∈ rounds, round.2 = true) : (adoptedWait rounds).isSome := by
  induction rounds with
  | nil => simp at h
  | cons round rounds ih =>
    obtain ⟨result, late⟩ := round
    rw [adoptedWait]
    split_ifs with hrunning hlate
    · rfl
    · exact ih (by simpa [hlate] using h)
    · rfl

theorem adoptedWait_ne_osError {rounds : List (KillResult × Bool)} :
    adoptedWait rounds ≠ some .osError := by
  induction rounds with
  | nil => nofun
  | cons round rounds ih =>
    rw [adoptedWait]
    split_ifs
    · nofun
    · exact ih
    · nofun

/-- For an adopted process the pidfile is all that can go wrong. -/
theorem stopsCleanly_adopted (a : Adopted) {sup : Supervisor} {h : Handle}
    (hproc : sup.proc = some h) : StopsCleanly a.behaviour sup ↔ a.unlinkFails = false := by
  have hfirst : a.firstWait ≠ .osError := by
    intro hwait
    obtain ⟨rounds, hrounds⟩ := a.first
    exact adoptedWait_ne_osError (hwait ▸ hrounds)
  rw [stopsCleanly_managed hproc]
  exact ⟨And.left, fun hdeleted => ⟨hdeleted, .inr (.inr hfirst)⟩⟩

end Adopted

section World
open ComfyUI (World Answer Sight Lasting)

def isSignal : Sight → Bool
  | .signal _ => true
  | _ => false

/-- How many signals have been sent. -/
def sent (w : World) : ℕ := w.seen.countP isSignal

def Call.isSignal : Call → Bool
  | .terminate _ | .kill _ => true
  | _ => false

/-- The method comes to `r` after `n` signals, and leaves the supervisor as it is. -/
def Does {α : Type} (m : ComfyUI.M α) (w : World) (r : Except Exn α) (n : ℕ) : Prop :=
  ∃ v, runFrom m w = (r, v) ∧ v.sup = w.sup ∧ sent v = sent w + n

/-- What a `wait` comes to. -/
def Waited.result : Waited → Except Exn Unit
  | .returned => .ok ()
  | .timeoutExpired => .error .timeoutExpired
  | .osError => .error .osError

/-- What `terminate` and `kill` come to. -/
def signalResult (refused : Bool) : Except Exn Unit := if refused then .error .osError else .ok ()

variable (env : ℕ → Answer) {w : World} {h : Handle}

theorem sent_see (w : World) (x : Sight) :
    sent (w.see x) = sent w + if isSignal x then 1 else 0 := by
  simp [sent, World.see, List.countP_append, List.countP_cons]

theorem lasting_sent (n : ℕ) : Lasting fun w => sent w = n where
  event w e hw := by
    cases e with
    | exit inst => exact hw
    | spawn pid mainPy =>
      simp only [World.happen]
      split
      · exact hw
      · exact (sent_see w _).trans hw
  time _ _ _ hw := hw

theorem sent_advance (w : World) (a : Answer) : sent (w.advance a) = sent w :=
  (lasting_sent (sent w)).advance rfl a

theorem runFrom_interact : runFrom (ComfyUI.interact env) w =
    (.ok (env w.tick), w.advance (env w.tick)) := rfl

theorem does_wait : ∃ outcome : Waited, Does (ComfyUI.wait env h) w outcome.result 0 := by
  have hsup := ComfyUI.advance_sup w (env w.tick)
  have hsent := sent_advance w (env w.tick)
  unfold Does
  rw [ComfyUI.wait, runFrom_bind_ok (runFrom_interact env)]
  by_cases hfails : (env w.tick).fails = true
  · rw [if_pos hfails]
    exact ⟨.osError, _, rfl, hsup, hsent⟩
  · rw [if_neg hfails, runFrom_bind_ok (runFrom_get _)]
    by_cases htarget : ((w.advance (env w.tick)).target h).isSome = true
    · rw [if_pos htarget]
      exact ⟨.timeoutExpired, _, rfl, hsup, hsent⟩
    · rw [if_neg htarget]
      exact ⟨.returned, _, rfl, hsup, hsent⟩

theorem does_signal : ∃ refused, Does (ComfyUI.signal env h) w (signalResult refused) 1 := by
  have hsup := ComfyUI.advance_sup w (env w.tick)
  have hsent := sent_advance w (env w.tick)
  have hsignal := sent_see (w.advance (env w.tick)) (.signal ((w.advance (env w.tick)).target h))
  rw [hsent] at hsignal
  have hsee : runFrom (ComfyUI.see (.signal ((w.advance (env w.tick)).target h)))
      (w.advance (env w.tick)) = (.ok (), (w.advance (env w.tick)).see
        (.signal ((w.advance (env w.tick)).target h))) := rfl
  unfold Does
  rw [ComfyUI.signal, runFrom_bind_ok (runFrom_interact env), runFrom_bind_ok (runFrom_get _),
    runFrom_bind_ok hsee]
  by_cases hfails : (env w.tick).fails = true
  · rw [if_pos hfails]
    exact ⟨true, _, rfl, hsup, hsignal⟩
  · rw [if_neg hfails]
    exact ⟨false, _, rfl, hsup, hsignal⟩

theorem does_running : ∃ alive, Does (ComfyUI.running env h) w (.ok alive) 0 :=
  ⟨_, _, rfl, ComfyUI.advance_sup w (env w.tick), sent_advance w (env w.tick)⟩

/-- SIGKILL and another wait. -/
theorem does_kill : ∃ r, handled r = true ∧
    Does (do ComfyUI.signal env h; ComfyUI.wait env h) w r 1 := by
  obtain ⟨refused, v, hsignal, hsup, hsent⟩ := does_signal env (w := w) (h := h)
  cases refused with
  | true => exact ⟨.error .osError, rfl, v, runFrom_bind_error hsignal, hsup, hsent⟩
  | false =>
    obtain ⟨outcome, u, hwait, husup, husent⟩ := does_wait env (w := v) (h := h)
    refine ⟨outcome.result, ?_, u, ?_, husup.trans hsup, husent.trans hsent⟩
    · cases outcome <;> rfl
    · exact (runFrom_bind_ok hsignal).trans hwait

/-- SIGTERM, the first wait and, if it times out, SIGKILL and another wait. -/
theorem does_signalAndWait : ∃ b : Behaviour, b.unlinkFails = false ∧ b.alive = true ∧
    ∃ r, handled r = true ∧
      Does (ComfyUI.signalAndWait env h) w r ((callsOf b).countP Call.isSignal) := by
  obtain ⟨refused, v, hsignal, hsup, hsent⟩ := does_signal env (w := w) (h := h)
  cases refused with
  | true =>
    refine ⟨{ terminateRefused := true }, rfl, rfl, .error .osError, rfl, v, ?_, hsup, hsent⟩
    exact runFrom_bind_error hsignal
  | false =>
    obtain ⟨outcome, u, hwait, husup, husent⟩ := does_wait env (w := v) (h := h)
    have hrun := runFrom_bind_ok (f := fun _ => tryCatch (ComfyUI.wait env h) fun
      | .timeoutExpired => do ComfyUI.signal env h; ComfyUI.wait env h
      | e => throw e) hsignal
    cases outcome with
    | returned =>
      refine ⟨{}, rfl, rfl, .ok (), rfl, u, ?_, husup.trans hsup, husent.trans hsent⟩
      exact hrun.trans (runFrom_tryCatch_ok hwait)
    | osError =>
      refine ⟨{ firstWait := .osError }, rfl, rfl, .error .osError, rfl, u, ?_,
        husup.trans hsup, husent.trans hsent⟩
      exact hrun.trans (runFrom_tryCatch_error hwait)
    | timeoutExpired =>
      obtain ⟨r, hr, t, hkill, htsup, htsent⟩ := does_kill env (w := u) (h := h)
      refine ⟨{ firstWait := .timeoutExpired }, rfl, rfl, r, hr, t, ?_,
        htsup.trans (husup.trans hsup), ?_⟩
      · exact hrun.trans ((runFrom_tryCatch_error hwait).trans hkill)
      · rw [htsent, husent, hsent]
        rfl

theorem does_endProcess : ∃ b : Behaviour, b.unlinkFails = false ∧ b.alive = true ∧
    Does (ComfyUI.endProcess env h) w (.ok ()) ((callsOf b).countP Call.isSignal) := by
  obtain ⟨b, hdeleted, halive, r, hr, v, hrun, hv⟩ :=
    does_signalAndWait env (w := w) (h := h)
  refine ⟨b, hdeleted, halive, v, ?_, hv⟩
  match r with
  | .ok () => exact runFrom_tryCatch_ok hrun
  | .error .timeoutExpired => exact runFrom_tryCatch_error hrun
  | .error .osError => exact runFrom_tryCatch_error hrun

theorem does_endProc : ∃ b : Behaviour, b.unlinkFails = false ∧
    Does (ComfyUI.endProc env (some h)) w (.ok ()) ((callsOf b).countP Call.isSignal) := by
  obtain ⟨alive, v, hrunning, hsup, hsent⟩ := does_running env (w := w) (h := h)
  have hrun := runFrom_bind_ok (f := fun alive => if alive = true then do
      ComfyUI.endProcess env h
      let w ← get
      ComfyUI.see (.terminated (w.target h).isSome)
    else return) hrunning
  cases alive with
  | false => exact ⟨{ alive := false }, rfl, v, hrun, hsup, hsent⟩
  | true =>
    obtain ⟨b, hdeleted, -, u, hend, husup, husent⟩ :=
      does_endProcess env (w := v) (h := h)
    refine ⟨b, hdeleted, u.see (.terminated (u.target h).isSome), ?_, husup.trans hsup, ?_⟩
    · exact hrun.trans (runFrom_bind_ok hend)
    · rw [sent_see, husent, hsent]
      rfl

theorem does_unlinkPidfile : ∃ fails : Bool,
    Does (ComfyUI.unlinkPidfile env) w (if fails then .error .osError else .ok ()) 0 := by
  have hsup := ComfyUI.advance_sup w (env w.tick)
  have hsent := sent_advance w (env w.tick)
  unfold Does
  rw [ComfyUI.unlinkPidfile, runFrom_bind_ok (runFrom_interact env)]
  by_cases hfails : (env w.tick).fails = true
  · rw [if_pos hfails]
    exact ⟨true, _, rfl, hsup, (sent_see _ _).trans hsent⟩
  · rw [if_neg hfails]
    exact ⟨false, _, rfl, hsup, hsent⟩

/-- The handle is given up, to be ended. -/
def dropped (w : World) : World :=
  { w with sup := { w.sup with proc := none }, ending := w.sup.proc }

theorem runFrom_terminate : runFrom (ComfyUI.terminate env) w =
    runFrom (do
      ComfyUI.unlinkPidfile env
      ComfyUI.endProc env w.sup.proc
      modify fun w => { w with ending := none }) (dropped w) := by
  rw [ComfyUI.terminate, runFrom_bind_ok (runFrom_get _)]
  exact runFrom_bind_ok rfl

/-- Whatever the world answers, `stop` does in it what it does for one of the behaviours. -/
theorem stop_simulated (env : ℕ → Answer) (w : World) : ∃ (b : Behaviour) (v : World),
    runFrom (ComfyUI.stop env) w = ((stopFrom b w.sup).1, v) ∧
      v.sup = (stopFrom b w.sup).2.sup ∧
      sent v = sent w + (stopFrom b w.sup).2.calls.countP Call.isSignal := by
  cases hproc : w.sup.proc with
  | none =>
    refine ⟨{}, w, ?_⟩
    rw [stopFrom_unmanaged hproc, ComfyUI.stop, runFrom_bind_ok (runFrom_get _), hproc]
    exact ⟨rfl, rfl, rfl⟩
  | some h =>
    obtain ⟨fails, v, hunlink, hsup, hsent⟩ := does_unlinkPidfile env (w := dropped w)
    rw [ComfyUI.stop, runFrom_bind_ok (runFrom_get _), hproc]
    cases fails with
    | true =>
      refine ⟨{ unlinkFails := true }, v, ?_⟩
      have hterminate : runFrom (ComfyUI.terminate env) w = (.error .osError, v) := by
        rw [runFrom_terminate env]
        exact runFrom_bind_error hunlink
      rw [stopFrom_undeleted hproc rfl]
      exact ⟨runFrom_bind_error hterminate, hsup, hsent⟩
    | false =>
      obtain ⟨b, hdeleted, u, hend, husup, husent⟩ := does_endProc env (w := v) (h := h)
      have hterminate : runFrom (ComfyUI.terminate env) w =
          (.ok (), { u with ending := none }) := by
        rw [runFrom_terminate env, runFrom_bind_ok hunlink, hproc, runFrom_bind_ok hend]
        rfl
      refine ⟨b, { u with sup := { u.sup with state := .stopped }, ending := none }, ?_⟩
      rw [stopFrom_deleted hproc hdeleted]
      refine ⟨runFrom_bind_ok hterminate, ?_, ?_⟩
      · rw [husup, hsup]
        rfl
      · exact husent.trans (by rw [hsent]; rfl)

end World
end TaskQueue.ComfyUIStop
