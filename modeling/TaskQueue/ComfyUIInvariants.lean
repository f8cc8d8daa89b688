import TaskQueue.ComfyUIInteractions

/-!
# Invariants of the supervisor

The methods are put together from a few changes of the world. `Maintained I C H J` says
that `I` outlasts the changes that end a process: `C` holds once nothing of ours is left
running, `H h` when `h` is handed over to be ended, `J h` while it is (`Ending C J` is the
part about the signals). `Adopts I C` says the same of an adoption, and `Launches I K` of a
launch, with `K h` until the pid of the new process is recorded (`Records I K`).
-/

namespace TaskQueue.ComfyUI
open StateExceptions

def World.withProc (w : World) (proc : Option Handle) : World :=
  { w with sup := { w.sup with proc := proc } }

/-- `I`, with a process in the supervisor's hands. -/
def Managing (I : World → Prop) (w : World) : Prop := I w ∧ w.sup.proc.isSome

/-- `I`, with none in its hands. -/
def Free (I : World → Prop) (w : World) : Prop := I w ∧ w.sup.proc = none

theorem Lasting.free {I : World → Prop} (hI : Lasting I) : Lasting (Free I) :=
  hI.and (lasting_sup fun sup => sup.proc = none)

def World.withPending (w : World) (pending : Bool) : World :=
  { w with sup := { w.sup with restartPending := pending } }

structure Ending (C : World → Prop) (J : Handle → World → Prop) : Prop where
  lasting : ∀ h, Lasting (J h)
  signalled : ∀ w h, J h w → J h (w.see (.signal (w.target h)))
  gone : ∀ w h, J h w → w.target h = none → C w
  terminated : ∀ w h, J h w → C (w.see (.terminated (w.target h).isSome))

structure Maintained (I C : World → Prop) (H J : Handle → World → Prop) : Prop where
  lasting : Lasting I
  lasting_clear : Lasting C
  lasting_handed : ∀ h, Lasting (H h)
  ending : Ending C J
  of_clear : ∀ w, C w → I w
  fields : ∀ w sup, sup.cfg = w.sup.cfg → sup.proc = w.sup.proc →
    sup.restartPending = w.sup.restartPending → I w → I { w with sup := sup }
  dead : ∀ w h, I w → w.sup.proc = some h → w.target h = none → C w
  drop : ∀ w, C w → C (w.withProc none)
  unlink : ∀ w, C w → I { w with pidfile := none }
  undeleted : ∀ w, C w → I (w.see (.undeleted w.abandons))
  hand : ∀ w h, I w → w.sup.proc = some h → H h { w.withProc none with ending := some h }
  unlink_handed : ∀ w h, H h w → J h { w with pidfile := none }
  undeleted_handed : ∀ w h, H h w → I (w.see (.undeleted w.abandons))
  done : ∀ w, C w → C { w with ending := none }
  resume : ∀ w, I w → I { w with ending := none }
  unended : ∀ w, w.sup.cfg.startTimeout.finite = false → I w → I (w.see .unended)

structure Adopts (I C : World → Prop) : Prop where
  adopt : ∀ w pid p, I w → w.sup.proc = none → w.pidfile = some (.number pid) →
    w.withPid pid = some p → p.mainPy = true → I (w.withProc (some (.adopted pid)))
  giveUp : ∀ w, I w → w.sup.proc = none → C (w.see (.giveUp w.orphan))

structure Records (I : World → Prop) (K : Handle → World → Prop) : Prop where
  lasting : ∀ h, Lasting (K h)
  proc : ∀ w h, K h w → w.sup.proc = some h
  unrecorded : ∀ w h text, K h w → text = some .garbled ∨ text = w.pidfile →
    I { w.see .unrecorded with pidfile := text }
  recorded : ∀ w h, K h w → I { w with pidfile := some (.number h.pid) }

structure Launches (I : World → Prop) (K : Handle → World → Prop) : Prop extends Records I K where
  unopened : ∀ w, I w → I (w.see .unopened)
  unlaunched : ∀ w, I w → I ((w.see (.launch w.orphan)).see .unlaunched)
  child : ∀ w a, I w → w.sup.proc = none → w.withPid a.pid = none →
    K (.popen w.nextInst a.pid)
      ((addChild a (w.see (.launch w.orphan))).withProc (some (.popen w.nextInst a.pid)))

namespace Ending

variable {env : ℕ → Answer} {C : World → Prop} {J : Handle → World → Prop} (he : Ending C J)
include he

theorem signal_spec (h : Handle) :
    Triple (J h) (signal env h) (fun _ => J h) (fun e w => J h w ∧ e = .osError) := by
  apply Triple.bind (interact_spec (he.lasting h))
  intro a
  apply Triple.get_bind
  intro w hw
  have hsee : Triple (fun v => v = w) (see (.signal (w.target h))) (fun _ => J h)
      (fun e w => J h w ∧ e = .osError) :=
    Triple.of_modify fun v hv => hv ▸ he.signalled w h hw
  apply Triple.bind hsee
  intro _
  apply Triple.of_ite
  · exact fun _ => Triple.of_throw fun v hv => ⟨hv, rfl⟩
  · exact fun _ => Triple.of_pure fun v hv => hv

theorem wait_spec (h : Handle) : Triple (J h) (wait env h) (fun _ => J h)
    (fun e w => J h w ∧ (e = .timeoutExpired ∨ e = .osError)) := by
  apply Triple.bind (interact_spec (he.lasting h))
  intro a
  apply Triple.of_ite
  · exact fun _ => Triple.of_throw fun w hw => ⟨hw, .inr rfl⟩
  · intro _
    apply Triple.get_ite
    · exact Triple.of_throw fun w hw => ⟨hw.1, .inl rfl⟩
    · exact Triple.of_pure fun w hw => hw.1

/-- `_terminate` runs from `atexit`: its `try` statement lets no exception out. -/
theorem endProcess_spec (h : Handle) :
    Triple (J h) (endProcess env h) (fun _ => J h) (fun _ _ => False) := by
  have hterm : Triple (J h) (signal env h) (fun _ => J h)
      (fun e w => J h w ∧ (e = .timeoutExpired ∨ e = .osError)) :=
    (he.signal_spec h).exn fun _ _ hw => ⟨hw.1, .inr hw.2⟩
  have hkill : Triple (J h) (do signal env h; wait env h) (fun _ => J h)
      (fun e w => J h w ∧ (e = .timeoutExpired ∨ e = .osError)) :=
    Triple.bind hterm fun _ => he.wait_spec h
  have hsignal : Triple (J h) (signalAndWait env h) (fun _ => J h)
      (fun e w => J h w ∧ (e = .timeoutExpired ∨ e = .osError)) := by
    apply Triple.bind hterm
    intro _
    apply Triple.of_tryCatch (he.wait_spec h)
    intro e
    cases e with
    | timeoutExpired => exact hkill.pre fun w hw => hw.1
    | _ => exact Triple.of_throw fun w hw => hw
  apply Triple.of_tryCatch hsignal
  intro e
  cases e with
  | timeoutExpired => exact Triple.of_pure fun w hw => hw.1
  | osError => exact Triple.of_pure fun w hw => hw.1
  | _ => exact Triple.of_throw fun w hw => by simp at hw

theorem endProc_spec (h : Handle) :
    Triple (J h) (endProc env (some h)) (fun _ => C) (fun _ _ => False) := by
  apply Triple.bind (running_spec (he.lasting h) h)
  intro alive
  apply Triple.of_ite
  · intro _
    apply Triple.bind ((he.endProcess_spec h).pre fun w hw => hw.1)
    intro _
    apply Triple.get_bind
    intro w hw
    exact Triple.of_modify fun v hv => hv ▸ he.terminated w h hw
  · intro hdead
    apply Triple.of_pure
    intro w hw
    have hnone : w.target h = none := by
      rw [hw.2] at hdead
      simpa using hdead
    exact he.gone w h hw.1 hnone

/-- Nothing gets into the supervisor's hands while a process is being ended. -/
theorem free : Ending (Free C) (fun h => Free (J h)) where
  lasting h := (he.lasting h).free
  signalled w h hw := ⟨he.signalled w h hw.1, hw.2⟩
  gone w h hw hnone := ⟨he.gone w h hw.1 hnone, hw.2⟩
  terminated w h hw := ⟨he.terminated w h hw.1, hw.2⟩

end Ending

namespace Maintained

variable {env : ℕ → Answer} {I C : World → Prop} {H J K : Handle → World → Prop}

section Parts
variable (hm : Maintained I C H J)
include hm

theorem lasting_managing : Lasting (Managing I) :=
  hm.lasting.and (lasting_sup fun sup => sup.proc.isSome)

theorem setState_keeps (state : State) : Keeps I (setState state) :=
  Keeps.of_modify fun w h => hm.fields w _ rfl rfl rfl h

theorem markBusy_keeps : Keeps I markBusy :=
  Keeps.of_modify fun w h => hm.fields w _ rfl rfl rfl h

theorem markIdle_keeps : Keeps I (markIdle env) := by
  apply Keeps.bind (clock_spec hm.lasting)
  intro now
  exact Keeps.of_modify fun w h => hm.fields w _ rfl rfl rfl h

theorem setState_managing (state : State) {E : Exn → World → Prop} :
    Triple (Managing I) (setState state) (fun _ => Managing I) E :=
  Triple.of_modify fun w h => ⟨hm.fields w _ rfl rfl rfl h.1, h.2⟩

/-- A child found dead leaves nothing of ours running. -/
theorem childAlive_spec : Triple (Managing I) (childAlive env)
    (fun alive w => Managing I w ∧ (alive = false → C w)) (fun _ => I) := by
  apply Triple.get_bind
  intro w hw
  cases hproc : w.sup.proc with
  | none => simp [Managing, hproc] at hw
  | some h =>
    have hlasting : Lasting (fun v => I v ∧ v.sup.proc = some h) :=
      hm.lasting.and (lasting_sup fun sup => sup.proc = some h)
    have hrunning : Triple (fun v => v = w) (running env h)
        (fun alive v => (I v ∧ v.sup.proc = some h) ∧ alive = (v.target h).isSome)
        (fun _ => I) :=
      (running_spec hlasting h).pre fun v hv => hv ▸ ⟨hw.1, hproc⟩
    apply hrunning.post
    intro alive v hv
    obtain ⟨⟨hI, hheld⟩, halive⟩ := hv
    refine ⟨⟨hI, by simp [hheld]⟩, fun hdead => ?_⟩
    have hnone : v.target h = none := by
      rw [halive] at hdead
      simpa using hdead
    exact hm.dead v h hI hheld hnone

theorem crashed_spec : Triple I (crashed env)
    (fun dead w => I w ∧ (dead = true → C w)) (fun _ => I) := by
  apply Triple.get_ite
  · apply Triple.bind hm.childAlive_spec
    intro alive
    apply Triple.of_pure
    intro w hw
    exact ⟨hw.1.1, fun hdead => hw.2 (by simpa using hdead)⟩
  · exact Triple.of_pure fun w hw => ⟨hw.1, by simp⟩

theorem unlink_clear : Triple C (unlinkPidfile env) (fun _ => I) (fun _ => I) := by
  apply Triple.bind (interact_spec hm.lasting_clear)
  intro a
  apply Triple.of_ite
  · intro _
    apply Triple.get_bind
    intro w hw
    have hsee : Triple (fun v => v = w) (see (.undeleted w.abandons)) (fun _ => I) (fun _ => I) :=
      Triple.of_modify fun v hv => hv ▸ hm.undeleted w hw
    exact Triple.bind hsee fun _ => Keeps.of_throw _
  · exact fun _ => Triple.of_modify hm.unlink

/-- If the pidfile stays, so does the process, out of the supervisor's hands. -/
theorem unlink_handed_spec (h : Handle) :
    Triple (Free (H h)) (unlinkPidfile env) (fun _ => Free (J h)) (fun _ => Free I) := by
  apply Triple.bind (interact_spec (hm.lasting_handed h).free)
  intro a
  apply Triple.of_ite
  · intro _
    apply Triple.get_bind
    intro w hw
    have hstays : Free I (w.see (.undeleted w.abandons)) := ⟨hm.undeleted_handed w h hw.1, hw.2⟩
    have hsee : Triple (fun v => v = w) (see (.undeleted w.abandons)) (fun _ => Free I)
        (fun _ => Free I) :=
      Triple.of_modify fun v hv => hv ▸ hstays
    exact Triple.bind hsee fun _ => Triple.of_throw fun _ hv => hv
  · exact fun _ => Triple.of_modify fun w hw => ⟨hm.unlink_handed w h hw.1, hw.2⟩

theorem drop_clear_spec {E : Exn → World → Prop} :
    Triple C (setProc none) (fun _ => C) E :=
  Triple.of_modify hm.drop

theorem forgetCrashed_keeps : Keeps I (forgetCrashed env) := by
  apply Triple.bind hm.crashed_spec
  intro dead
  apply Triple.of_ite
  · intro hdead
    have hforget : Triple C (do setProc none; unlinkPidfile env) (fun _ => I) (fun _ => I) :=
      Triple.bind hm.drop_clear_spec fun _ => hm.unlink_clear
    exact hforget.pre fun w hw => hw.2 hdead
  · exact fun _ => Triple.of_pure fun w hw => hw.1

theorem checkBusy_keeps : Keeps I (checkBusy env) := by
  apply Triple.bind hm.crashed_spec
  intro dead
  apply Triple.of_ite
  · intro hdead
    have hforget : Triple C (do setProc none; unlinkPidfile env; setState .stopped)
        (fun _ => I) (fun _ => I) :=
      Triple.bind hm.drop_clear_spec fun _ =>
        Triple.bind hm.unlink_clear fun _ => hm.setState_keeps _
    exact hforget.pre fun w hw => hw.2 hdead
  · exact fun _ => Triple.of_pure fun w hw => hw.1

theorem dropCrashed_keeps : Keeps I (dropCrashed env) := by
  apply Triple.bind hm.crashed_spec
  intro dead
  apply Triple.of_ite
  · exact fun hdead => Triple.of_modify fun w hw => hm.of_clear _ (hm.drop w (hw.2 hdead))
  · exact fun _ => Triple.of_pure fun w hw => hw.1

/-- A termination takes the process out of the supervisor's hands, and ends it unless the
pidfile cannot be deleted. -/
theorem terminate_spec :
    Triple (Managing I) (terminate env) (fun _ => Free C) (fun _ => Free I) := by
  apply Triple.get_bind
  intro w hw
  obtain ⟨h, hproc⟩ := Option.isSome_iff_exists.1 hw.2
  rw [hproc]
  have hhand : Triple (fun v => v = w)
      (modify fun v => { v with sup := { v.sup with proc := none }, ending := v.sup.proc } : M Unit)
      (fun _ => Free (H h)) (fun _ => Free I) := by
    apply Triple.of_modify
    intro v hv
    rw [hv, hproc]
    exact ⟨hm.hand w h hw.1 hproc, rfl⟩
  have hend : Triple (Free (J h)) (endProc env (some h)) (fun _ => Free C) (fun _ => Free I) :=
    (hm.ending.free.endProc_spec h).exn fun _ _ hv => hv.elim
  have hdone : Triple (Free C) (modify fun v => { v with ending := none } : M Unit)
      (fun _ => Free C) (fun _ => Free I) :=
    Triple.of_modify fun v hv => ⟨hm.done v hv.1, hv.2⟩
  apply Triple.bind hhand
  intro _
  apply Triple.bind (hm.unlink_handed_spec h)
  intro _
  exact Triple.bind hend fun _ => hdone

theorem terminate_managing :
    Triple (Managing I) (terminate env) (fun _ => Free I) (fun _ => I) :=
  hm.terminate_spec.conseq (fun _ hw => hw) (fun _ w hw => ⟨hm.of_clear w hw.1, hw.2⟩)
    fun _ _ hw => hw.1

/-- A process that hangs is ended; after that none is in hand. -/
theorem endHung_spec : Triple I (endHung env) (fun _ => Free I) (fun _ => I) := by
  apply Triple.get_ite
  · exact hm.terminate_managing
  · exact Triple.of_pure fun _ hw => ⟨hw.1, by simpa using hw.2⟩

theorem stop_keeps : Keeps I (stop env) := by
  apply Triple.get_ite
  · exact Triple.bind hm.terminate_managing fun _ =>
      (hm.setState_keeps _).pre fun _ hw => hw.1
  · exact Triple.of_pure fun w hw => hw.1

theorem newWorker_keeps {cfg : Config}
    (hcfg : ∀ w now, I w → I { w with sup := newSupervisor cfg now }) :
    Keeps I (newWorker env cfg) := by
  apply Keeps.bind (clock_spec hm.lasting)
  intro now
  exact Keeps.of_modify fun w h => hcfg w now h

theorem startTimedOut_spec :
    Triple (Managing I) (startTimedOut env) (fun _ => I) (fun _ => I) := by
  apply Triple.bind hm.terminate_managing
  intro _
  apply Triple.pre ?_ fun w hw => hw.1
  apply Keeps.bind (hm.setState_keeps _)
  intro _
  exact Keeps.get_bind fun _ => Keeps.of_throw _

/-- Only an endless start is not followed to its end. -/
theorem stopFollowing_spec : Triple (fun w => w.sup.cfg.startTimeout.finite = false ∧ I w)
    stopFollowing (fun _ => I) (fun _ => I) := by
  have hsee : Triple (fun w => w.sup.cfg.startTimeout.finite = false ∧ I w) (see .unended)
      (fun _ => I) (fun _ => I) :=
    Triple.of_modify fun w hw => hm.unended w hw.1 hw.2
  exact Triple.bind hsee fun _ => Keeps.of_throw _

theorem childDied_spec : Triple C (childDied env) (fun _ => I) (fun _ => I) := by
  apply Triple.bind (interact_spec hm.lasting_clear)
  intro a
  apply Triple.bind hm.drop_clear_spec
  intro _
  apply Triple.bind hm.unlink_clear
  intro _
  apply Keeps.bind (hm.setState_keeps _)
  intro _
  exact Keeps.get_bind fun _ => Keeps.of_throw _

theorem becomeReady_keeps : Keeps I (becomeReady env) := by
  apply Keeps.bind (hm.setState_keeps _)
  intro _
  apply Keeps.bind (clock_spec hm.lasting)
  intro now
  exact Keeps.of_modify fun w h => hm.fields w _ rfl rfl rfl h

/-- `Managing I`, under a configuration. -/
def Under (I : World → Prop) (cfg : Config) (w : World) : Prop :=
  Managing I w ∧ w.sup.cfg = cfg

/-- Each round of the loop goes on with a process in hand, until one of its ends. -/
theorem startLoop_spec (cfg : Config) (now : Int) (rounds : ℕ) :
    Triple (Under I cfg) (startLoop env (cfg.startTimeout.deadline now) rounds) (fun _ => I)
      (fun _ => I) := by
  have hcfg : Lasting (fun w => w.sup.cfg = cfg) := lasting_sup fun sup => sup.cfg = cfg
  have hlasting : Lasting (Under I cfg) := hm.lasting_managing.and hcfg
  induction rounds with
  | zero =>
    apply Triple.of_ite
    · exact fun _ => hm.startTimedOut_spec.pre fun w hw => hw.1
    · intro hnone
      refine hm.stopFollowing_spec.pre fun w hw => ⟨?_, hw.1.1⟩
      rw [hw.2]
      cases htimeout : cfg.startTimeout with
      | seconds n => simp [htimeout, Timeout.deadline] at hnone
      | endless rounds => rfl
  | succ rounds ih =>
    have hagain : Triple (Under I cfg)
        (do sleep env 2; startLoop env (cfg.startTimeout.deadline now) rounds)
        (fun _ => I) (fun _ => I) :=
      Triple.bind (sleep_spec hlasting 2) fun _ => ih
    have halive : Triple (Under I cfg) (childAlive env)
        (fun alive w => Under I cfg w ∧ (alive = false → C w)) (fun _ => I) :=
      (hm.childAlive_spec.and (childAlive_lasting (E := fun _ _ => True) hcfg)).conseq
        (fun _ hw => hw) (fun _ _ hw => ⟨⟨hw.1.1, hw.2⟩, hw.1.2⟩) fun _ _ hw => hw.1
    apply Triple.bind (clock_spec hlasting)
    intro later
    apply Triple.of_ite
    · intro _
      apply Triple.bind halive
      intro alive
      apply Triple.of_ite
      · intro _
        apply Triple.bind ((health_spec hlasting).pre fun w hw => hw.1)
        intro healthy
        apply Triple.of_ite
        · exact fun _ => hm.becomeReady_keeps.pre fun w hw => hw.1.1
        · exact fun _ => hagain
      · intro hdead
        exact hm.childDied_spec.pre fun w hw => hw.2 (by simpa using hdead)
    · exact fun _ => hm.startTimedOut_spec.pre fun w hw => hw.1

end Parts

section Adoption
variable (hm : Maintained I C H J) (ha : Adopts I C)
include hm ha

theorem adoptOrphan_keeps : Keeps I (adoptOrphan env) := by
  have hlasting : Lasting (fun w => I w ∧ w.sup.proc = none) :=
    hm.lasting.and (lasting_sup fun sup => sup.proc = none)
  apply Triple.get_ite
  · have hfree : Triple (fun w => I w ∧ w.sup.proc.isNone && w.pidfile.isSome) (findOrphan env)
        (fun r w => (I w ∧ w.sup.proc = none) ∧ ∀ h, r = some h → ∃ pid p, h = .adopted pid ∧
          w.pidfile = some (.number pid) ∧ w.withPid pid = some p ∧ p.mainPy = true)
        (fun _ => I) :=
      (findOrphan_spec hlasting).pre fun w hw =>
        ⟨hw.1, Option.isNone_iff_eq_none.1 (Bool.and_eq_true_iff.1 hw.2).1⟩
    apply Triple.bind hfree
    intro r
    cases r with
    | none =>
      apply Triple.get_bind
      intro w hw
      have hsee : Triple (fun v => v = w) (see (.giveUp w.orphan)) (fun _ => C) (fun _ => I) :=
        Triple.of_modify fun v hv => hv ▸ ha.giveUp w hw.1.1 hw.1.2
      exact Triple.bind hsee fun _ => hm.unlink_clear
    | some h =>
      apply Triple.of_modify
      intro w hw
      obtain ⟨pid, p, rfl, hpidfile, hp, hmain⟩ := hw.2 h rfl
      exact ha.adopt w pid p hw.1.1 hw.1.2 hpidfile hp hmain
  · exact Triple.of_pure fun w hw => hw.1

theorem look_keeps : Keeps I (look env) := by
  have hadopt : Keeps I (do adoptOrphan env; return true) :=
    (adoptOrphan_keeps hm ha).bind_pure fun _ => true
  apply Keeps.bind hm.dropCrashed_keeps
  intro _
  apply Keeps.bind (health_spec hm.lasting)
  intro healthy
  exact Keeps.of_ite hadopt (Keeps.of_pure _)

theorem maybeStopIdle_keeps : Keeps I (maybeStopIdle env) := by
  have hstop : Keeps I (do stop env; return true) := hm.stop_keeps.bind_pure fun _ => true
  apply Keeps.bind (adoptOrphan_keeps hm ha)
  intro _
  apply Keeps.get_bind
  intro w
  apply Keeps.of_ite
  · apply Keeps.bind (clock_spec hm.lasting)
    intro now
    exact Keeps.of_ite (Keeps.of_pure _) hstop
  · exact Keeps.of_pure _

theorem probe_keeps : Keeps I (probe env) := by
  have hready : Keeps I (do adoptOrphan env; setState .ready) :=
    Keeps.bind (adoptOrphan_keeps hm ha) fun _ => hm.setState_keeps _
  have hstopped : Keeps I (do forgetCrashed env; setState .stopped) :=
    Keeps.bind hm.forgetCrashed_keeps fun _ => hm.setState_keeps _
  apply Keeps.bind (health_spec hm.lasting)
  intro healthy
  apply Keeps.of_ite hready
  apply Keeps.get_bind
  intro w
  exact Keeps.of_ite hstopped (Keeps.of_pure _)

theorem details_keeps : Keeps I (details env) := by
  apply Keeps.get_bind
  intro w
  have hrefresh : Keeps I (refresh env w.sup) :=
    Keeps.of_ite hm.checkBusy_keeps (Keeps.of_ite (probe_keeps hm ha) (Keeps.of_pure _))
  apply Keeps.bind hrefresh
  intro _
  exact Keeps.get_bind fun _ => Keeps.of_pure _

end Adoption

section Record
variable (hr : Records I K)
include hr

theorem writePid_spec (h : Handle) :
    Triple (K h) (writePid env h.pid) (fun _ => Managing I) (fun _ => I) := by
  apply Triple.bind (interact_spec (hr.lasting h))
  intro a
  apply Triple.of_ite
  · intro _
    have hsee : Triple (K h) (see .unrecorded) (fun _ w => ∃ v, K h v ∧ w = v.see .unrecorded)
        (fun _ => I) :=
      Triple.of_modify fun v hv => ⟨v, hv, rfl⟩
    apply Triple.bind hsee
    intro _
    have hlost : Triple (fun w => ∃ v, K h v ∧ w = v.see .unrecorded)
        (modify fun w => { w with pidfile := if a.truncates then some .garbled else w.pidfile } :
          M Unit) (fun _ => I) (fun _ => I) := by
      apply Triple.of_modify
      intro w hw
      obtain ⟨v, hv, hsee⟩ := hw
      rw [hsee]
      apply hr.unrecorded v h _ hv
      split
      · exact .inl rfl
      · exact .inr rfl
    apply Triple.bind hlost
    intro _
    exact Triple.of_throw fun w hw => hw
  · intro _
    apply Triple.of_modify
    intro w hw
    have hproc : w.sup.proc.isSome := by
      rw [hr.proc w h hw]
      rfl
    exact ⟨hr.recorded w h hw, hproc⟩

variable (hm : Maintained I C H J)
include hm

/-- The part of `_start` after the launch. -/
theorem launched_spec (h : Handle) : Triple (fun w => K h (w.withProc (some h)))
    (do
      setProc (some h)
      writePid env h.pid
      let timeout := (← get).sup.cfg.startTimeout
      let deadline := timeout.deadline (← clock env)
      startLoop env deadline timeout.rounds) (fun _ => I) (fun _ => I) := by
  have hproc : Triple (fun w => K h (w.withProc (some h))) (setProc (some h)) (fun _ => K h)
      (fun _ => I) :=
    Triple.of_modify fun w hw => hw
  apply Triple.bind hproc
  intro _
  apply Triple.bind (writePid_spec hr h)
  intro _
  apply Triple.get_bind
  intro w hw
  have hlasting : Lasting (Under I w.sup.cfg) :=
    hm.lasting_managing.and (lasting_sup fun sup => sup.cfg = w.sup.cfg)
  have hrest : Triple (Under I w.sup.cfg) (do
      let deadline := w.sup.cfg.startTimeout.deadline (← clock env)
      startLoop env deadline w.sup.cfg.startTimeout.rounds) (fun _ => I) (fun _ => I) :=
    Triple.bind (clock_spec hlasting) fun now => hm.startLoop_spec w.sup.cfg now _
  exact hrest.pre fun v hv => by subst hv; exact ⟨hw, rfl⟩

end Record

section Start
variable (hl : Launches I K) (hm : Maintained I C H J)
include hl hm

theorem popen_spec :
    Triple (Free I) (popen env) (fun h w => K h (w.withProc (some h))) (fun _ => I) := by
  apply Triple.bind (interact_spec hm.lasting.free)
  intro a
  apply Triple.get_bind
  intro w hw
  have hsee : Triple (fun v => v = w) (see (.launch w.orphan))
      (fun _ v => v = w.see (.launch w.orphan)) (fun _ => I) :=
    Triple.of_modify fun _ hv => hv ▸ rfl
  apply Triple.bind hsee
  intro _
  apply Triple.of_ite
  · intro _
    have hsee : Triple (fun v => v = w.see (.launch w.orphan)) (see .unlaunched) (fun _ => I)
        (fun _ => I) :=
      Triple.of_modify fun v hv => hv ▸ hl.unlaunched w hw.1
    exact Triple.bind hsee fun _ => Triple.of_throw fun _ hv => hv
  · intro hfree
    have hpid : w.withPid a.pid = none := by
      simp only [Bool.or_eq_true, not_or] at hfree
      simpa using hfree.2
    have hchild := hl.child w a hw.1 hw.2 hpid
    have hadd : Triple (fun v => v = w.see (.launch w.orphan)) (modify (addChild a) : M Unit)
        (fun _ v => v = addChild a (w.see (.launch w.orphan))) (fun _ => I) :=
      Triple.of_modify fun v hv => hv ▸ rfl
    apply Triple.bind hadd
    intro _
    exact Triple.of_pure fun v hv => hv ▸ hchild

/-- A start takes the new process into the supervisor's hands, which are free. -/
theorem start_spec : Triple (Free I) (start env) (fun _ => I) (fun _ => I) := by
  have hstate : Triple (Free I) (setState .starting) (fun _ => Free I) (fun _ => I) :=
    Triple.of_modify fun w hw => ⟨hm.fields w _ rfl rfl rfl hw.1, hw.2⟩
  have hlog : Triple (Free I) (openLog env) (fun _ => Free I) (fun _ => I) :=
    (openLog_keeps hm.lasting.free fun w hw => ⟨hl.unopened w hw.1, hw.2⟩).exn fun _ _ hw => hw.1
  apply Triple.bind hstate
  intro _
  apply Triple.bind hlog
  intro _
  apply Triple.bind (popen_spec hl hm)
  intro h
  exact launched_spec hl.toRecords hm h

theorem restart_keeps : Keeps I (restart env) := by
  have hstart : Triple (Free I) (do start env; return true) (fun _ => I) (fun _ => I) :=
    (start_spec hl hm).bind fun _ => Keeps.of_pure _
  apply Triple.get_ite
  · apply Triple.bind (hm.setState_managing _)
    intro _
    exact Triple.bind hm.terminate_managing fun _ => hstart
  · exact Triple.of_pure fun w hw => hw.1

theorem requestedRestart_keeps (hpending : ∀ w, I w → I (w.withPending false)) :
    Triple (Managing I) (requestedRestart env) (fun _ => I) (fun _ => I) := by
  have hdrop : Triple (Managing I) (setRestartPending false) (fun _ => Managing I) (fun _ => I) :=
    Triple.of_modify fun w hw => ⟨hpending w hw.1, hw.2⟩
  apply Triple.bind hdrop
  intro _
  apply Triple.bind (hm.setState_managing .restarting)
  intro _
  exact Triple.bind hm.terminate_managing fun _ => start_spec hl hm

theorem withoutRestart_keeps (hpending : ∀ w, I w → I (w.withPending false)) (healthy : Bool) :
    Keeps I (withoutRestart env healthy) := by
  have hdrop : Keeps I (setRestartPending false) := Keeps.of_modify hpending
  apply Keeps.bind hdrop
  intro _
  apply Keeps.of_ite (hm.setState_keeps _)
  apply Triple.bind hm.endHung_spec
  intro _
  apply Triple.get_bind
  intro w hw
  apply Triple.of_ite
  · exact fun _ => (start_spec hl hm).pre fun v hv => hv ▸ hw
  · intro _
    apply Triple.pre ?_ fun v hv => hv ▸ hw.1
    exact Keeps.bind (hm.setState_keeps .failed) fun _ => Keeps.of_throw _

variable (ha : Adopts I C)
include ha

theorem ensureRunning_keeps (hpending : ∀ w, I w → I (w.withPending false)) :
    Keeps I (ensureRunning env) := by
  apply Keeps.bind (look_keeps hm ha)
  intro healthy
  apply Triple.get_ite
  · exact (requestedRestart_keeps hl hm hpending).pre fun w hw =>
      ⟨hw.1, (Bool.and_eq_true_iff.1 hw.2).2⟩
  · exact (withoutRestart_keeps hl hm hpending healthy).pre fun w hw => hw.1

/-- The operations that leave a pending restart as it is. -/
def plain : Op → Bool
  | .ensureRunning | .requestRestart | .newWorker _ => false
  | _ => true

theorem perform_keeps_plain {w : World} (h : I w) {op : Op} (hop : plain op) :
    I (perform env w op) := by
  have hstart : I { w with ending := none } := hm.resume w h
  cases op with
  | restart => exact ((restart_keeps hl hm).bind_pure fun _ => ()).state hstart
  | stop => exact hm.stop_keeps.state hstart
  | markBusy => exact hm.markBusy_keeps.state hstart
  | markIdle => exact hm.markIdle_keeps.state hstart
  | maybeStopIdle => exact ((maybeStopIdle_keeps hm ha).bind_pure fun _ => ()).state hstart
  | details => exact ((details_keeps hm ha).bind_pure fun _ => ()).state hstart
  | _ => simp [plain] at hop

theorem perform_keeps_same (hpending : ∀ w pending, I w → I (w.withPending pending))
    {w : World} (h : I w) {op : Op} (hop : replaces op = false) : I (perform env w op) := by
  have hstart : I { w with ending := none } := hm.resume w h
  have hrequest : Keeps I (setRestartPending true) := Keeps.of_modify fun v => hpending v true
  cases op with
  | ensureRunning =>
    exact (ensureRunning_keeps hl hm ha fun v => hpending v false).state hstart
  | requestRestart => exact hrequest.state hstart
  | newWorker cfg => simp [replaces] at hop
  | _ => exact perform_keeps_plain hl hm ha h rfl

/-- What outlasts the changes outlasts every operation, however it ends. -/
theorem perform_keeps (hpending : ∀ w pending, I w → I (w.withPending pending))
    (hnew : ∀ w cfg now, I w → I { w with sup := newSupervisor cfg now })
    {w : World} (h : I w) (op : Op) : I (perform env w op) := by
  cases op with
  | newWorker cfg => exact (hm.newWorker_keeps fun v now => hnew v cfg now).state (hm.resume w h)
  | _ => exact perform_keeps_same hl hm ha hpending h rfl

end Start
end Maintained
end TaskQueue.ComfyUI
