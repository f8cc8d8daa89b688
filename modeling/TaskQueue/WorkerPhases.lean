import TaskQueue.WorkerTasks

/-!
# The phases of a task

What the steps of the main thread say about where it is and what it leaves behind, and how
they go together with the calls of the supervisor.
-/

namespace TaskQueue.WorkerTasks
open ComfyUI hiding step
open OllamaManager hiding Label step

variable {Json : Type} {env : ℕ → Answer} {setup : Setup}

/-- From the check of `managed` to the end of the chat. -/
def texting : Phase Json → Bool
  | .asking _ | .chatting _ => true
  | _ => false

/-- From the unloading to the end of the render. -/
def imaging : Phase Json → Bool
  | .measuring _ | .short | .freeing | .preparing | .starting | .rendering _ => true
  | _ => false

/-- The restart has been requested for every process that was to blame. -/
def settled : Phase Json → Bool
  | .blaming => false
  | _ => true

section Main
variable {w : World} {m m' : Main Json} {l : Label Json} {i : ℕ}

theorem texting_firstPhase (work : Work Json) : texting (firstPhase work) = false := by
  cases work <;> rfl

theorem imaging_firstPhase (work : Work Json) : imaging (firstPhase work) = false := by
  cases work <;> rfl

/-- The main thread comes to a chat with nothing managed by the check or by a stop. -/
theorem texting_step (h : mainStep env setup w m l = some m') (ht : texting m'.phase) :
    (l = .details ∧ m' = m) ∨ (l.op = none ∧ texting m.phase) ∨
      (l = .readManaged ∧ managed setup w = false) ∨ (l = .stop ∧ returns env w .stop) := by
  cases l <;> grind [mainStep, texting, texting_firstPhase, ask, startRender, Label.op]

/-- It comes to a render with its own text model unloaded, and loads none on the way. -/
theorem imaging_step (h : mainStep env setup w m l = some m') (ht : imaging m'.phase) :
    (imaging m.phase ∧ m'.ollama = m.ollama) ∨
      m'.ollama = if setup.ollama.isSome then (unload m.ollama).1 else m.ollama := by
  cases l <;> grind [mainStep, imaging, imaging_firstPhase, ask, startRender]

/-- Without a manager no chat begins, and nothing is recorded. -/
theorem silent_step (hsetup : setup.ollama = none) (h : mainStep env setup w m l = some m')
    (hm : ∀ c, m.phase ≠ .chatting c) :
    (m'.ollama = m.ollama) ∧ ∀ c, m'.phase ≠ .chatting c := by
  cases l <;> grind [mainStep, ask, startRender, texting, texting_firstPhase]

theorem settled_firstPhase (work : Work Json) : settled (firstPhase work) = true := by
  cases work <;> rfl

theorem firstPhase_ne_rendering (work : Work Json) (on : Option ℕ) :
    firstPhase work ≠ .rendering on := by
  cases work <;> simp [firstPhase]

/-- Blame falls on the process of the render that has just ended. -/
theorem blamed_step (h : mainStep env setup w m l = some m') (hi : i ∈ m'.blamed) :
    i ∈ m.blamed ∨ (l.op = none ∧ m.phase = .rendering (some i) ∧ settled m'.phase = false) := by
  cases l <;> grind [mainStep, settled, Label.op]

/-- Blame is followed by the request at once. -/
theorem settled_step (h : mainStep env setup w m l = some m') (hm : settled m.phase = false) :
    settled m'.phase = false ∨ l = .requestRestart := by
  cases l <;> grind [mainStep, settled]

theorem blaming_step (h : mainStep env setup w m l = some m') (hm' : settled m'.phase = false) :
    settled m.phase = false ∨ setup.comfyui = true := by
  cases l <;> grind [mainStep, settled, settled_firstPhase, ask, startRender]

/-- A render on a managed process begins when `ensure_running` returns. -/
theorem rendering_step (h : mainStep env setup w m l = some m')
    (hm' : m'.phase = .rendering (some i)) :
    m' = m ∨ (l = .ensureRunning ∧ m'.blamed = m.blamed ∧
      settled m.phase = true ∧ setup.comfyui = true ∧ returns env w .ensureRunning ∧
      (managedProcess (perform env w .ensureRunning)).map Process.inst = some i) := by
  cases l <;> grind [mainStep, settled, firstPhase_ne_rendering, ask, startRender]

/-- The worker never replaces its supervisor. -/
theorem replaces_step (h : mainStep env setup w m l = some m') {op : Op} (hop : l.op = some op) :
    replaces op = false := by
  cases l <;> grind [mainStep, Label.op, replaces]

/-- `ensure_running` is called when no request is outstanding. -/
theorem ensureRunning_settled (h : mainStep env setup w m l = some m')
    (hop : l.op = some .ensureRunning) : settled m.phase = true := by
  cases l <;> grind [mainStep, Label.op, settled]

end Main

section Calls
variable {s t : LocalWorker Json} {l : Label Json}

/-- A step leaves the world alone, or makes one call of the supervisor. -/
theorem call_cases (hstep : step env setup s l = some t) :
    ((∀ op, l.op = some op → setup.comfyui = false) ∧ t.world = s.world ∧
      t.requests = s.requests ∧ t.restarts = s.restarts) ∨
    ∃ op, l.op = some op ∧ setup.comfyui = true ∧ replaces op = false ∧
      t.world = perform env s.world op ∧ t.requests = s.requests + (isRequest op).toNat ∧
      t.restarts = s.restarts + (carriesOut env s.world op).toNat := by
  obtain ⟨m, hm, rfl⟩ := step_eq_some hstep
  cases hop : l.op with
  | none => exact .inl ⟨by simp, rfl, rfl, rfl⟩
  | some op =>
    cases hsetup : setup.comfyui with
    | false => exact .inl ⟨by simp, by rw [call_absent hsetup], by rw [call_absent hsetup],
        by rw [call_absent hsetup]⟩
    | true =>
      rw [call_present hsetup]
      exact .inr ⟨op, rfl, rfl, replaces_step hm hop, rfl, rfl, rfl⟩

theorem main_of_step (hstep : step env setup s l = some t) :
    mainStep env setup s.world s.main l = some t.main := by
  obtain ⟨m, hm, rfl⟩ := step_eq_some hstep
  exact hm

end Calls
end TaskQueue.WorkerTasks
