import TaskQueue.StepRuns

/-!
# The heartbeat thread

`WorkerHeartbeat` of `workers/image_worker.py`: the thread that reports the worker's state,
and the main thread that replaces the state and wakes it, step by step in any order. The
state is copied and replaced under the lock, so that each is one step.
-/

namespace TaskQueue.HeartbeatLoop
open StepRuns

variable {Json : Type}

/-- What `update` reads of a claimed task. -/
structure ClaimedTask where
  id : String
  claimToken : String

/-- `WorkerHeartbeat._state`. -/
structure Report where
  state : String
  currentTaskId : Option String
  claimToken : Option String
  progressStage : Option String
  progressMessage : Option String
  deriving DecidableEq

/-- The state that `__init__` sets. -/
def initialReport : Report := ⟨"idle", none, none, none, none⟩

/-- The state that `update` sets. -/
def newReport (state : String) (task : Option ClaimedTask) (stage message : Option String) :
    Report where
  state := state
  currentTaskId := task.map ClaimedTask.id
  claimToken := task.map ClaimedTask.claimToken
  progressStage := stage
  progressMessage := message

/-- A call of `client.heartbeat`, with the details that could be had. -/
structure Attempt (Json : Type) where
  report : Report
  details : Option Json
  succeeded : Bool
  deriving DecidableEq

/-- Where the thread is in `_loop` and in the `_send` that it calls. -/
inductive Phase (Json : Type)
  | copying
  | describing (snapshot : Report)
  | sending (snapshot : Report) (details : Option Json)
  | waiting
  | clearing
  deriving DecidableEq

/-- Both threads. `updating` says that the main thread is between the two steps of `update`,
`snapshot` is the last copy that was taken, `attempts` has the last call first. -/
structure Beats (Json : Type) where
  report : Report
  wake : Bool
  updating : Bool
  phase : Phase Json
  snapshot : Option Report
  attempts : List (Attempt Json)

/-- The steps of the two threads. `describe` ends the callback: without details if there is
no callback or if it raises. `wakes` is a wait that finds the event set, `timesOut` one that
ends with the interval. -/
inductive Label (Json : Type)
  | replace (state : String) (task : Option ClaimedTask) (stage message : Option String)
  | setWake
  | copy
  | describe (details : Option Json)
  | send (succeeded : Bool)
  | wakes
  | timesOut
  | clear

def step (b : Beats Json) : Label Json → Option (Beats Json)
  | .replace state task stage message =>
    if b.updating then none
    else some { b with report := newReport state task stage message, updating := true }
  | .setWake => if b.updating then some { b with wake := true, updating := false } else none
  | .copy =>
    match b.phase with
    | .copying => some { b with snapshot := some b.report, phase := .describing b.report }
    | _ => none
  | .describe details =>
    match b.phase with
    | .describing snapshot => some { b with phase := .sending snapshot details }
    | _ => none
  | .send succeeded =>
    -- an exception is logged, and the loop goes on to its wait
    match b.phase with
    | .sending snapshot details => some { b with
        phase := .waiting
        attempts := ⟨snapshot, details, succeeded⟩ :: b.attempts }
    | _ => none
  | .wakes =>
    match b.phase with
    | .waiting => if b.wake then some { b with phase := .clearing } else none
    | _ => none
  | .timesOut =>
    match b.phase with
    | .waiting => some { b with phase := .clearing }
    | _ => none
  | .clear =>
    match b.phase with
    | .clearing => some { b with wake := false, phase := .copying }
    | _ => none

/-- The thread has just been started. -/
def start : Beats Json where
  report := initialReport
  wake := false
  updating := false
  phase := .copying
  snapshot := none
  attempts := []

/-- The steps that the thread takes by itself, without waiting out the interval. -/
def prompt : Label Json → Bool
  | .copy | .describe _ | .send _ | .wakes | .clear => true
  | .replace .. | .setWake | .timesOut => false

/-- The thread has nothing to do but to wait. -/
def Blocked (b : Beats Json) : Prop := ∀ l, prompt l = true → step b l = none

/-- The copy that the thread holds is the last one. -/
def HoldsLast (b : Beats Json) : Prop :=
  match b.phase with
  | .describing snapshot => b.snapshot = some snapshot
  | .sending snapshot _ => b.snapshot = some snapshot
  | .waiting => b.attempts.head?.map Attempt.report = b.snapshot
  | .copying | .clearing => True

/-- The thread is past its copy, and will not copy again before it has waited. -/
def pastCopy : Phase Json → Bool
  | .describing _ | .sending .. | .waiting => true
  | .copying | .clearing => false

/-- An update that the last copy has missed will wake the thread: either the event is set,
or the main thread is about to set it. -/
structure Invariant (b : Beats Json) : Prop where
  copied : pastCopy b.phase = true → b.wake = false → b.updating = false →
    b.snapshot = some b.report
  holds : HoldsLast b

theorem invariant_start : Invariant (start : Beats Json) := ⟨nofun, trivial⟩

theorem invariant_step (b : Beats Json) (l : Label Json) (c : Beats Json) (h : Invariant b)
    (hstep : step b l = some c) : Invariant c := by
  obtain ⟨hcopied, hholds⟩ := h
  cases l with
  | replace state task stage message =>
    simp only [step] at hstep
    split at hstep
    · cases hstep
    · cases hstep
      exact ⟨fun _ _ => nofun, hholds⟩
  | setWake =>
    simp only [step] at hstep
    split at hstep
    · cases hstep
      exact ⟨fun _ => nofun, hholds⟩
    · cases hstep
  | copy =>
    cases hphase : b.phase <;> simp only [step, hphase, reduceCtorEq, Option.some.injEq] at hstep
    cases hstep
    exact ⟨fun _ _ _ => rfl, rfl⟩
  | describe details =>
    cases hphase : b.phase <;> simp only [step, hphase, reduceCtorEq, Option.some.injEq] at hstep
    cases hstep
    simp only [HoldsLast, hphase] at hholds
    exact ⟨fun _ => hcopied (by simp [hphase, pastCopy]), hholds⟩
  | send succeeded =>
    cases hphase : b.phase <;> simp only [step, hphase, reduceCtorEq, Option.some.injEq] at hstep
    cases hstep
    simp only [HoldsLast, hphase] at hholds
    exact ⟨fun _ => hcopied (by simp [hphase, pastCopy]), hholds.symm⟩
  | wakes =>
    cases hphase : b.phase <;>
      simp only [step, hphase, reduceCtorEq, Option.ite_none_right_eq_some, Option.some.injEq]
        at hstep
    obtain ⟨-, rfl⟩ := hstep
    exact ⟨nofun, trivial⟩
  | timesOut =>
    cases hphase : b.phase <;> simp only [step, hphase, reduceCtorEq, Option.some.injEq] at hstep
    cases hstep
    exact ⟨nofun, trivial⟩
  | clear =>
    cases hphase : b.phase <;> simp only [step, hphase, reduceCtorEq, Option.some.injEq] at hstep
    cases hstep
    exact ⟨nofun, trivial⟩

/-- How many prompt steps the thread can take before it must wait. -/
def stepsLeft (b : Beats Json) : ℕ :=
  let again := if b.wake then 5 else 0
  match b.phase with
  | .copying => 3 + again
  | .describing _ => 2 + again
  | .sending .. => 1 + again
  | .waiting => again
  | .clearing => 4

theorem stepsLeft_le (b : Beats Json) : stepsLeft b ≤ 8 := by
  unfold stepsLeft
  cases b.phase <;> cases b.wake <;> simp

/-- A prompt step is one of those that are left, and leaves the state alone. -/
theorem prompt_step {b c : Beats Json} {l : Label Json} (hl : prompt l = true)
    (hstep : step b l = some c) :
    stepsLeft b = stepsLeft c + 1 ∧ c.report = b.report ∧ c.updating = b.updating := by
  cases l with
  | replace | setWake | timesOut => cases hl
  | copy | describe | send =>
    cases hphase : b.phase <;> simp only [step, hphase, reduceCtorEq, Option.some.injEq] at hstep
    cases hstep
    refine ⟨?_, rfl, rfl⟩
    simp only [stepsLeft, hphase]
    omega
  | clear =>
    cases hphase : b.phase <;> simp only [step, hphase, reduceCtorEq, Option.some.injEq] at hstep
    cases hstep
    exact ⟨by simp [stepsLeft, hphase], rfl, rfl⟩
  | wakes =>
    cases hphase : b.phase <;>
      simp only [step, hphase, reduceCtorEq, Option.ite_none_right_eq_some, Option.some.injEq]
        at hstep
    obtain ⟨hwake, rfl⟩ := hstep
    exact ⟨by simp [stepsLeft, hphase, hwake], rfl, rfl⟩

theorem prompt_run {b c : Beats Json} {ls : List (Label Json)} (hls : ∀ l ∈ ls, prompt l = true)
    (hrun : exec step b ls = some c) :
    stepsLeft b = stepsLeft c + ls.length ∧ c.report = b.report ∧ c.updating = b.updating := by
  induction ls generalizing b with
  | nil =>
    cases hrun
    exact ⟨rfl, rfl, rfl⟩
  | cons l ls ih =>
    obtain ⟨m, hm, hrest⟩ := exec_cons_inv hrun
    obtain ⟨hleft, hreport, hupdating⟩ := prompt_step (hls l List.mem_cons_self) hm
    obtain ⟨hleft', hreport', hupdating'⟩ :=
      ih (fun k hk => hls k (List.mem_cons_of_mem l hk)) hrest
    refine ⟨?_, hreport'.trans hreport, hupdating'.trans hupdating⟩
    rw [List.length_cons]
    omega

/-- The thread only waits where the event is clear. -/
theorem blocked_iff {b : Beats Json} : Blocked b ↔ b.phase = .waiting ∧ b.wake = false := by
  constructor
  · intro h
    cases hphase : b.phase with
    | copying => simpa [step, hphase] using h .copy rfl
    | describing snapshot => simpa [step, hphase] using h (.describe none) rfl
    | sending snapshot details => simpa [step, hphase] using h (.send true) rfl
    | waiting => simpa [step, hphase] using h .wakes rfl
    | clearing => simpa [step, hphase] using h .clear rfl
  · rintro ⟨hphase, hwake⟩ l hl
    cases l <;> simp_all [step, prompt]

/-- Nothing that the main thread has reported is lost. While the thread waits, no update
being under way, the last copy is the current state. And whenever none is under way, the
thread comes to its wait in a few steps of its own, whatever becomes of the sends, and the
last call it has made then reports the current state. -/
structure Reported (b : Beats Json) : Prop where
  waiting : b.phase = .waiting → b.wake = false → b.updating = false →
    b.snapshot = some b.report
  soon : b.updating = false → ∀ own c, (∀ l ∈ own, prompt l = true) →
    exec step b own = some c → own.length ≤ 8 ∧
      (Blocked c → c.attempts.head?.map Attempt.report = some b.report)

theorem Invariant.reported {b : Beats Json} (h : Invariant b) : Reported b where
  waiting hphase := h.copied (by simp [hphase, pastCopy])
  soon hupdating own c hown hrun := by
    obtain ⟨hleft, hreport, hidle⟩ := prompt_run hown hrun
    have hbound := stepsLeft_le b
    refine ⟨by omega, fun hblocked => ?_⟩
    obtain ⟨hphase, hwake⟩ := blocked_iff.1 hblocked
    have hc : Invariant c := invariant invariant_step h hrun
    have hlast := hc.holds
    simp only [HoldsLast, hphase] at hlast
    rw [hlast, hc.copied (by simp [hphase, pastCopy]) hwake (hidle.trans hupdating), hreport]

/-- No update is lost, in any interleaving of the two threads. -/
theorem updates_reported (steps : List (Label Json)) :
    Throughout step Reported start steps :=
  Throughout.mono (fun _ => Invariant.reported)
    (throughout_invariant invariant_step invariant_start steps)

/-- An update that lands between the wait and the clear is in the next copy. -/
example : (exec step (start : Beats ℕ) [.copy, .describe none, .send false, .timesOut,
    .replace "busy" (some ⟨"a", "token"⟩) (some "rendering") none, .setWake, .clear, .copy]).map
      Beats.snapshot =
    some (some ⟨"busy", some "a", some "token", some "rendering", none⟩) := rfl

end TaskQueue.HeartbeatLoop
