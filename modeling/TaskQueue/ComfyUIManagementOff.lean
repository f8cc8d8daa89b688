import TaskQueue.ComfyUIAdoption
import TaskQueue.StepRuns

/-!
# Management off

Three places lead to a launch: a restart, a pending restart and the replacement of a
ComfyUI that does not answer. `COMFYUI_MANAGE=false` is looked at in the last one only,
so a supervisor that manages nothing may still launch once it has adopted an orphan.
-/

namespace TaskQueue.ComfyUIManagementOff
open ComfyUI StateExceptions StepRuns

def isLaunch : Sight → Bool
  | .launch _ => true
  | _ => false

/-- Management is off and the launcher has not been called. -/
structure Off (w : World) : Prop where
  manage : w.sup.cfg.manage = false
  launches : ∀ s ∈ w.seen, ¬isLaunch s

/-- The step is to restart a process: one is managed when `restart` is called, or a restart is
pending when `ensure_running` is, and there is a process of its own still running or one to
take over. -/
def restarts (env : ℕ → Answer) (w : World) : Op → Bool
  | .restart => w.sup.proc.isSome
  | .ensureRunning => w.sup.restartPending && looksManaged env { w with ending := none }
  | _ => false

theorem Off.see {w : World} (h : Off w) {s : Sight} (hs : ¬isLaunch s) :
    Off (w.see s) := by
  refine ⟨h.manage, fun x hx => ?_⟩
  rcases List.mem_append.1 hx with hx | hx
  · exact h.launches x hx
  · rw [List.mem_singleton.1 hx]
    exact hs

/-- `Off` depends on the configuration and on what was seen. -/
theorem Off.congr {w w' : World} (h : Off w) (hcfg : w'.sup.cfg = w.sup.cfg)
    (hseen : w'.seen = w.seen) : Off w' :=
  ⟨by rw [hcfg]; exact h.manage, by rw [hseen]; exact h.launches⟩

theorem off_lasting : Lasting Off where
  event w e h := by
    cases e with
    | exit inst => exact h.congr rfl rfl
    | spawn pid mainPy =>
      simp only [World.happen]
      split
      · exact h
      · exact (h.see (by simp [isLaunch])).congr rfl rfl
  time w now tick h := h.congr rfl rfl

/-- Everything but a launch leaves `Off` true. -/
theorem off_maintained : Maintained Off Off (fun _ => Off) (fun _ => Off) where
  lasting := off_lasting
  lasting_clear := off_lasting
  lasting_handed _ := off_lasting
  ending := {
    lasting _ := off_lasting
    signalled _ _ h := h.see (by simp [isLaunch])
    gone _ _ h _ := h
    terminated _ _ h := h.see (by simp [isLaunch]) }
  of_clear _ h := h
  fields _ _ hcfg _ _ h := h.congr hcfg rfl
  dead _ _ h _ _ := h
  drop _ h := h.congr rfl rfl
  unlink _ h := h.congr rfl rfl
  undeleted _ h := h.see (by simp [isLaunch])
  hand _ _ h _ := h.congr rfl rfl
  unlink_handed _ _ h := h.congr rfl rfl
  undeleted_handed _ _ h := h.see (by simp [isLaunch])
  done _ h := h.congr rfl rfl
  resume _ h := h.congr rfl rfl
  unended _ _ h := h.see (by simp [isLaunch])

theorem off_adopts : Adopts Off Off where
  adopt _ _ _ h _ _ _ _ := h.congr rfl rfl
  giveUp _ h _ := h.see (by simp [isLaunch])

theorem setRestartPending_off (pending : Bool) : Keeps Off (setRestartPending pending) :=
  Keeps.of_modify fun _ h => h.congr rfl rfl

section Methods
variable {env : ℕ → Answer}

/-- A look finds no process to restart, or nothing is pending. -/
theorem look_nothing {w : World}
    (hpending : (w.sup.restartPending && looksManaged env w) = false) :
    Triple (fun v => v = w) (look env)
      (fun _ v => (v.sup.restartPending && v.sup.proc.isSome) = false) (fun _ _ => True) := by
  rcases Bool.and_eq_false_iff.1 hpending with hnone | hnone
  · have hlook : Keeps (fun v => v.sup.restartPending = false) (look env) :=
      look_lasting (lasting_sup fun sup => sup.restartPending = false) (fun _ _ h => h)
        (fun _ h => h) (fun _ _ h => h) fun _ _ h => h
    exact hlook.conseq (fun v hv => hv ▸ hnone) (fun _ v hv => by simp [hv])
      fun _ _ _ => trivial
  · refine (look_unmanaged hnone).conseq (fun _ hv => hv) (fun _ v hv => ?_) fun _ _ _ => trivial
    rw [show v.sup.proc = none from hv]
    simp

/-- With management off, what comes after the look launches only to carry out a restart. -/
theorem ensureRunning_off {w : World} (h : Off w)
    (hpending : (w.sup.restartPending && looksManaged env w) = false) :
    Off (runFrom (ensureRunning env) w).2 := by
  have hoff : Keeps Off (look env) := Maintained.look_keeps off_maintained off_adopts
  have hlook : Triple (fun v => v = w) (look env)
      (fun _ v => Off v ∧ (v.sup.restartPending && v.sup.proc.isSome) = false) (fun _ => Off) :=
    (hoff.and (look_nothing hpending)).conseq (fun v hv => ⟨hv ▸ h, hv⟩) (fun _ _ hv => hv)
      fun _ _ hv => hv.1
  have hrun : Triple (fun v => v = w) (ensureRunning env) (fun _ => Off) (fun _ => Off) := by
    apply Triple.bind hlook
    intro healthy
    apply Triple.get_ite
    · apply Triple.of_false
      intro v hv
      rw [hv.1.2] at hv
      exact Bool.false_ne_true hv.2
    · apply Triple.pre ?_ fun v hv => hv.1.1
      apply Keeps.bind (setRestartPending_off false)
      intro _
      apply Keeps.of_ite (off_maintained.setState_keeps _)
      apply Triple.bind off_maintained.endHung_spec
      intro _
      apply Triple.get_bind
      intro v hv
      apply Triple.of_ite
      · intro hmanage
        rw [hv.1.manage] at hmanage
        contradiction
      · intro _
        apply Triple.pre ?_ fun u hu => hu ▸ hv.1
        exact Keeps.bind (off_maintained.setState_keeps .failed) fun _ => Keeps.of_throw _
  exact hrun.state

/-- Without a process in hand a restart does nothing. -/
theorem restart_off {w : World} (h : Off w) (hproc : w.sup.proc.isSome = false) :
    Triple (fun v => v = w) (restart env) (fun _ => Off) (fun _ => Off) := by
  apply Triple.get_ite
  · apply Triple.of_false
    intro v hv
    rw [hv.1, hproc] at hv
    exact Bool.false_ne_true hv.2
  · exact Triple.of_pure fun v hv => hv.1 ▸ h

/-- One operation. A new worker must have management off too. -/
theorem perform_off {w : World} {op : Op} (h : Off w) (hrestarts : restarts env w op = false)
    (hworker : ∀ cfg, op = .newWorker cfg → cfg.manage = false) : Off (perform env w op) := by
  have hstart : Off { w with ending := none } := off_maintained.resume w h
  cases op with
  | ensureRunning => exact ensureRunning_off hstart hrestarts
  | restart => exact ((restart_off hstart hrestarts).bind fun _ => Keeps.of_pure ()).state
  | requestRestart => exact (setRestartPending_off true).state hstart
  | stop => exact off_maintained.stop_keeps.state hstart
  | markBusy => exact off_maintained.markBusy_keeps.state hstart
  | markIdle => exact off_maintained.markIdle_keeps.state hstart
  | maybeStopIdle =>
    have hstop : Keeps Off (maybeStopIdle env) :=
      Maintained.maybeStopIdle_keeps off_maintained off_adopts
    exact (hstop.bind_pure fun _ => ()).state hstart
  | details =>
    have hdetails : Keeps Off (details env) :=
      Maintained.details_keeps off_maintained off_adopts
    exact (hdetails.bind_pure fun _ => ()).state hstart
  | newWorker cfg =>
    have hcfg := hworker cfg rfl
    exact (off_maintained.newWorker_keeps fun _ _ hv => ⟨hcfg, hv.launches⟩).state hstart

end Methods

/-- Supervisors with management off launch nothing, whatever the pidfile says at first and
whatever the world answers, in a run without restarts of a managed process. -/
theorem unmanaged_launches_nothing (env : ℕ → Answer) {w : World} {ops : List Op}
    (hmanage : w.sup.cfg.manage = false) (hseen : ∀ s ∈ w.seen, ¬isLaunch s)
    (hworkers : ∀ cfg, Op.newWorker cfg ∈ ops → cfg.manage = false)
    (hrestarts : Along (step env) (fun v op => restarts env v op = false) w ops) :
    Throughout (step env) (fun v => ∀ s ∈ v.seen, ¬isLaunch s) w ops := by
  have hoff : Along (step env) (fun _ op => ∀ cfg, op = .newWorker cfg → cfg.manage = false)
      w ops :=
    Along.of_forall fun op hop _ cfg hcfg => hworkers cfg (hcfg ▸ hop)
  refine Throughout.mono (fun _ h => Off.launches h)
    (throughout_of_along ?_ ⟨hmanage, hseen⟩ (hrestarts.and hoff))
  intro v op u hv hop hu
  cases hu
  exact perform_off hv hop.1 hop.2

/-- The pidfile names a ComfyUI that a worker before launched and left running. -/
def leftRunning : World where
  processes := [⟨0, 4242, true, true⟩]
  nextInst := 1
  pidfile := some (.number 4242)
  now := 0
  tick := 0
  sup := newSupervisor { manage := false } 0
  ending := none
  seen := []

/-- A healthy ComfyUI, which ends on SIGTERM. -/
def healthyWorld (n : ℕ) : Answer where
  events := if n = 6 then [.exit 0] else []
  healthy := true
  pid := 4243

theorem unmanaged_launches_nothing_leftRunning :
    Throughout (step healthyWorld) (fun v => ∀ s ∈ v.seen, ¬isLaunch s) leftRunning
      [.details, .requestRestart, .markBusy, .markIdle, .stop] :=
  unmanaged_launches_nothing healthyWorld rfl (by decide)
    (fun cfg hcfg => by simp at hcfg) (by decide)

/-- The leftover ComfyUI is adopted, and a restart then ends it and launches another. -/
theorem unmanaged_restart_launches :
    leftRunning.sup.cfg.manage = false ∧ leftRunning.seen = [] ∧
    ((exec (step healthyWorld) leftRunning [.ensureRunning, .restart]).map World.seen =
      some [.signal (some ⟨0, 4242, true, true⟩), .terminated false, .launch false]) := by
  decide

end TaskQueue.ComfyUIManagementOff
