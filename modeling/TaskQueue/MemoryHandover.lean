import TaskQueue.ComfyUIManagementOff
import TaskQueue.ComfyUIOutcome
import TaskQueue.WorkerPhases

/-!
# The memory is handed over between text and images

Before a render the main thread unloads its own text model, and nothing but the main thread
loads one. Before a chat it stops its own ComfyUI, but `managed` only knows the handle: a
heartbeat may still find the ComfyUI of a worker before it behind the pidfile, and take it
over while the chat runs.
-/

namespace TaskQueue.MemoryHandover
open ComfyUI hiding step
open OllamaManager hiding Label step
open ComfyUIManagementOff (leftRunning healthyWorld)
open StateExceptions StepRuns WorkerTasks

variable {Json : Type} {env : ℕ → Answer} {setup : Setup}

/-- `details` would look, find ComfyUI answering and a running one behind the pidfile. -/
def finds (env : ℕ → Answer) (w : World) : Bool := !w.sup.busy && takesOver env w

/-- No chat is in flight beside a managed ComfyUI that is running. -/
def ChatsAlone (s : LocalWorker Json) : Prop :=
  ∀ c, s.main.phase = .chatting c → managedProcess s.world = none

/-- No render is in flight beside a text model of our own. -/
def RendersAlone (s : LocalWorker Json) : Prop :=
  ∀ on, s.main.phase = .rendering on → s.main.ollama.owned = none

/-- What the main thread relies on for a chat. -/
structure Cleared (setup : Setup) (s : LocalWorker Json) : Prop where
  supervised : setup.comfyui = false → s.world.sup.proc = none
  texting : texting s.main.phase → s.world.sup.proc = none

/-- What it relies on for a render. -/
structure Unloaded (setup : Setup) (s : LocalWorker Json) : Prop where
  imaging : imaging s.main.phase → s.main.ollama.owned = none
  silent : setup.ollama = none →
    s.main.ollama.owned = none ∧ ∀ c, s.main.phase ≠ .chatting c

theorem Cleared.chatsAlone {s : LocalWorker Json} (h : Cleared setup s) : ChatsAlone s := by
  intro c hc
  rw [managedProcess, h.texting (by rw [hc]; rfl)]
  rfl

theorem Unloaded.rendersAlone {s : LocalWorker Json} (h : Unloaded setup s) : RendersAlone s :=
  fun on hon => h.imaging (by rw [hon]; rfl)

section Details
variable {w : World}

theorem forgetCrashed_unmanaged : Keeps Unmanaged (forgetCrashed env) := by
  have hforget : Keeps Unmanaged (do setProc none; unlinkPidfile env) :=
    Keeps.bind (Keeps.of_modify fun _ _ => rfl) fun _ => unlinkPidfile_unmanaged
  apply Keeps.bind (crashed_lasting unmanaged_lasting)
  intro dead
  exact Keeps.of_ite hforget (Keeps.of_pure _)

theorem setState_unmanaged (state : State) : Keeps Unmanaged (setState state) :=
  Keeps.of_modify fun _ h => h

theorem checkBusy_unmanaged : Keeps Unmanaged (checkBusy env) := by
  have hforget : Keeps Unmanaged (do setProc none; unlinkPidfile env; setState .stopped) :=
    Keeps.bind (Keeps.of_modify fun _ _ => rfl) fun _ =>
      Keeps.bind unlinkPidfile_unmanaged fun _ => setState_unmanaged _
  apply Keeps.bind (crashed_lasting unmanaged_lasting)
  intro dead
  exact Keeps.of_ite hforget (Keeps.of_pure _)

/-- A call of `details` that finds no ComfyUI manages none if there was none. -/
theorem details_unmanaged (hproc : w.sup.proc = none) (hfinds : finds env w = false) :
    Triple (fun v => v = w) (details env) (fun _ => Unmanaged) (fun _ => Unmanaged) := by
  have hw : ∀ v, v = w → Unmanaged v := fun v hv => hv ▸ hproc
  have hrefresh : Triple (fun v => v = w) (refresh env w.sup) (fun _ => Unmanaged)
      (fun _ => Unmanaged) := by
    apply Triple.of_ite
    · exact fun _ => checkBusy_unmanaged.pre hw
    · intro hbusy
      apply Triple.of_ite
      · intro _
        have hstopped : Keeps Unmanaged (do forgetCrashed env; setState .stopped) :=
          Keeps.bind forgetCrashed_unmanaged fun _ => setState_unmanaged _
        apply Triple.bind health_exact
        intro healthy
        apply Triple.of_ite
        · intro hhealthy
          by_cases hanswer : (env w.tick).healthy
          · have hnone : takesOver env w = false := by
              have hidle : w.sup.busy = false := by simpa using hbusy
              simpa [finds, hidle] using hfinds
            have hadopt := adoptOrphan_unmanaged hproc hanswer hnone
            exact Triple.bind (hadopt.pre fun v hv => hv.2) fun _ => setState_unmanaged _
          · exact Triple.of_false fun v hv => hanswer (hv.1 ▸ hhealthy)
        · intro _
          apply Triple.pre ?_ fun v hv => show Unmanaged v by simpa [Unmanaged, hv.2] using hproc
          apply Keeps.get_bind
          intro v
          exact Keeps.of_ite hstopped (Keeps.of_pure _)
      · exact fun _ => Triple.of_pure hw
  apply Triple.get_bind
  intro v hv
  subst hv
  apply Triple.bind hrefresh
  intro _
  exact Keeps.get_bind fun _ => Keeps.of_pure _

theorem stop_unmanaged {before : List Sight} : Triple (ComfyUIOutcome.Calm before) (stop env)
    (fun _ => Unmanaged) (fun _ _ => True) := by
  apply Triple.get_ite
  · have hterminate : Triple (ComfyUIOutcome.Calm before) (terminate env) (fun _ => Unmanaged)
        (fun _ _ => True) :=
      ComfyUIOutcome.terminate_calm.conseq (fun _ h => h) (fun _ _ h => h.2) fun _ _ _ => trivial
    apply Triple.bind (hterminate.pre fun v hv => hv.1)
    intro _
    exact (setState_unmanaged _).exn fun _ _ _ => trivial
  · exact Triple.of_pure fun v hv => by simpa [Unmanaged] using hv.2

theorem perform_details {w : World} (hproc : w.sup.proc = none)
    (hfinds : finds env { w with ending := none } = false) :
    (perform env w .details).sup.proc = none := by
  have hdetails := details_unmanaged (w := { w with ending := none }) hproc hfinds
  exact (hdetails.bind fun _ => Keeps.of_pure ()).state

/-- A stop that returns leaves nothing managed. -/
theorem perform_stop {w : World} (h : returns env w .stop) :
    (perform env w .stop).sup.proc = none := by
  have hperform : perform env w .stop = (runFrom (stop env) { w with ending := none }).2 := rfl
  rcases hrun : runFrom (stop env) { w with ending := none } with ⟨e | ⟨⟩, v⟩
  · have hraises : returns env w .stop = false := returns_of_error hrun
    rw [hraises] at h
    contradiction
  · rw [hperform, hrun]
    have hstop : Triple (ComfyUIOutcome.Calm w.seen) (stop env) (fun _ => Unmanaged)
        (fun _ _ => True) := stop_unmanaged
    exact hstop.returns _ () v ⟨[], by simp, by simp⟩ hrun

end Details

/-- The heartbeat of this step finds no ComfyUI while the main thread is about to chat. -/
def Undisturbed (env : ℕ → Answer) (s : LocalWorker Json) : Label Json → Prop
  | .details => texting s.main.phase → finds env { s.world with ending := none } = false
  | _ => True

section Steps
variable {w : World} {m m' : Main Json} {s t : LocalWorker Json} {l : Label Json}

theorem cleared_step (h : Cleared setup s) (hl : Undisturbed env s l)
    (hstep : step env setup s l = some t) : Cleared setup t := by
  obtain ⟨m, hm, rfl⟩ := step_eq_some hstep
  have habsent : setup.comfyui = false → (s.call env setup l.op).world.sup.proc = none := by
    intro hsetup
    rw [call_absent hsetup]
    exact h.supervised hsetup
  refine ⟨habsent, fun ht => ?_⟩
  cases hsetup : setup.comfyui with
  | false => exact habsent hsetup
  | true =>
    rcases texting_step hm ht with ⟨rfl, rfl⟩ | ⟨hop, hphase⟩ | ⟨rfl, hmanaged⟩ | ⟨rfl, hreturns⟩
    · rw [Label.op, call_present hsetup]
      exact perform_details (h.texting ht) (hl ht)
    · rw [hop]
      exact h.texting hphase
    · have hfree : s.world.sup.proc = none := by simpa [managed, hsetup] using hmanaged
      exact hfree
    · rw [Label.op, call_present hsetup]
      exact perform_stop hreturns

theorem unloaded_step (h : Unloaded setup s) (hstep : step env setup s l = some t) :
    Unloaded setup t := by
  obtain ⟨m, hm, rfl⟩ := step_eq_some hstep
  constructor
  · intro ht
    rcases imaging_step hm ht with ⟨hphase, hollama⟩ | hollama
    · exact (congrArg Manager.owned hollama).trans (h.imaging hphase)
    · cases hsetup : setup.ollama with
      | none => simpa [hollama, hsetup] using (h.silent hsetup).1
      | some cfg => simp [hollama, hsetup, unload]
  · intro hsetup
    obtain ⟨howned, hphase⟩ := h.silent hsetup
    obtain ⟨hollama, hphase'⟩ := silent_step hsetup hm hphase
    exact ⟨(congrArg Manager.owned hollama).trans howned, hphase'⟩

end Steps

/-- No chat runs beside a ComfyUI of our own in a run in which no heartbeat between the
check of `managed` and the end of a chat finds one to take over. No render ever runs beside
a text model of our own. -/
theorem memory_handed_over (env : ℕ → Answer) (setup : Setup) {s : LocalWorker Json}
    (hs : Started s) (ls : List (Label Json)) :
    (Along (step env setup) (Undisturbed env) s ls →
      Throughout (step env setup) ChatsAlone s ls) ∧
    Throughout (step env setup) RendersAlone s ls := by
  obtain ⟨cfg, now, hsup⟩ := hs.sup
  have hproc : s.world.sup.proc = none := by rw [hsup]; rfl
  constructor
  · intro hls
    have hcleared : Cleared setup s := ⟨fun _ => hproc, fun _ => hproc⟩
    exact Throughout.mono (fun _ => Cleared.chatsAlone)
      (throughout_of_along (fun _ _ _ h hl => cleared_step h hl) hcleared hls)
  · have hunloaded : Unloaded setup s :=
      ⟨fun _ => hs.owned, fun _ => ⟨hs.owned, by simp [hs.phase]⟩⟩
    exact Throughout.mono (fun _ => Unloaded.rendersAlone)
      (throughout_invariant (fun _ _ _ h => unloaded_step h) hunloaded ls)

def both : Setup where
  comfyui := true
  mock := false
  ollama := some ⟨"qwen3:14b", 300⟩

/-- A worker starts on a machine on which the one before it left its ComfyUI running. -/
def successor : LocalWorker Unit where
  main := ⟨.polling, ⟨none, 0⟩, []⟩
  world := { leftRunning with sup := newSupervisor {} 0 }
  requests := 0
  restarts := 0

def request : Payload Unit := ⟨none, some (), false, none, none⟩

theorem successor_started : Started successor :=
  ⟨rfl, rfl, rfl, ⟨{}, 0, rfl⟩, by decide, rfl, rfl, rfl⟩

instance (env : ℕ → Answer) (s : LocalWorker Json) (l : Label Json) :
    Decidable (Undisturbed env s l) := by
  unfold Undisturbed
  split <;> infer_instance

def textThenImage : List (Label Unit) :=
  [.details, .claim (.text request), .readManaged, .stop, .ps (.models []), .details, .chatted 10,
    .claim .visual, .unload, .measure false, .markBusy, .ensureRunning, .details]

/-- A heartbeat before the task adopts the ComfyUI, so that it is stopped for the chat. -/
theorem memory_handed_over_textThenImage :
    Throughout (step healthyWorld both) ChatsAlone successor textThenImage ∧
    Throughout (step healthyWorld both) RendersAlone successor textThenImage :=
  ⟨(memory_handed_over healthyWorld both successor_started textThenImage).1 (by decide),
    (memory_handed_over healthyWorld both successor_started textThenImage).2⟩

/-- Nothing is managed when the task is checked, so nothing is stopped. During the chat a
heartbeat adopts the ComfyUI. -/
theorem memory_not_handed_over :
    Started successor ∧ ∃ t c, exec (step healthyWorld both) successor
        [.claim (.text request), .readManaged, .ps (.models []), .details] = some t ∧
      t.main.phase = .chatting c ∧ managedProcess t.world = some ⟨0, 4242, true, true⟩ :=
  ⟨successor_started, _, _, rfl, rfl, rfl⟩

end TaskQueue.MemoryHandover
