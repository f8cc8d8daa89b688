import TaskQueue.ComfyUIAdoption
import TaskQueue.ComfyUISights

/-!
# How `ensure_running` ends

`ensure_running` returns with a ComfyUI that is ready, or raises `ComfyUIUnavailable` with
none in hand, unless a file operation or the launch fails. Then `OSError` leaves it, or the
`TypeError` of the handler in `_start`, in which `log` names the open log file. With an
infinite timeout it may also never come back.
-/

namespace TaskQueue.ComfyUIOutcome
open ComfyUI StateExceptions

/-- The log could not be opened, the launch failed, or the pidfile could not be written or
deleted. -/
def refusal : Sight → Bool
  | .unopened | .unlaunched | .unrecorded | .undeleted _ => true
  | _ => false

/-- One of these, or an endless start that is still going on. -/
def hinders (s : Sight) : Bool := refusal s || s = .unended

theorem hinders_eq_false {s : Sight} (h : hinders s = false) :
    refusal s = false ∧ s ≠ .unended := by
  simpa [hinders] using h

def Announced (message : String) : Prop := ∃ rest, message = "comfyui_unavailable:" ++ rest

theorem Announced.append {message : String} (h : Announced message) (more : String) :
    Announced (message ++ more) := by
  obtain ⟨rest, rfl⟩ := h
  exact ⟨rest ++ more, String.append_assoc⟩

/-- Ready, or failed with nothing managed and an exception that says so. -/
def Settled (w : World) : Except Exn Unit → Prop
  | .ok _ => w.sup.state = .ready
  | .error (.comfyUIUnavailable message) =>
    Announced message ∧ w.sup.state = .failed ∧ w.sup.proc = none
  | .error _ => False

section Outcome
variable (before : List Sight)

/-- Since then no file operation has failed, and no start has been left going on. -/
abbrev Calm : World → Prop := Clean hinders before

/-- Since then one has. -/
def Refused (w : World) : Prop :=
  ∃ more, w.seen = before ++ more ∧ ∃ s ∈ more, refusal s = true

/-- Calm so far, with something known of the supervisor. -/
def CalmWith (P : Supervisor → Prop) (w : World) : Prop := Calm before w ∧ P w.sup

/-- How `ensure_running` gives up. -/
def GivesUp (e : Exn) (w : World) : Prop :=
  (∃ message, e = .comfyUIUnavailable message ∧ Announced message) ∧
    CalmWith before (fun sup => sup.state = .failed ∧ sup.proc = none) w

/-- How it breaks off. -/
def BreaksOff (e : Exn) (w : World) : Prop :=
  (e = .osError ∨ e = .typeError) ∧ Refused before w

/-- How it goes on. -/
def GoesOn (e : Exn) (w : World) : Prop :=
  e = .unended ∧ ∃ more, w.seen = before ++ more ∧ .unended ∈ more

def Raises (e : Exn) (w : World) : Prop :=
  GivesUp before e w ∨ BreaksOff before e w ∨ GoesOn before e w

variable {before} {env : ℕ → Answer} {P : Supervisor → Prop}

theorem refused_of_calm {w : World} (h : Calm before w) {s : Sight} (hs : refusal s = true) :
    Refused before (w.see s) := by
  obtain ⟨more, hseen, -⟩ := h
  exact ⟨more ++ [s], by simp [World.see, hseen], s, by simp, hs⟩

theorem calm_lasting : Lasting (Calm before) := clean_lasting fun _ => rfl

theorem calmWith_lasting : Lasting (CalmWith before P) :=
  calm_lasting.and (lasting_sup P)

theorem calm_refusal {e : Exn} {s : Sight} (he : e = .osError ∨ e = .typeError)
    (hs : refusal s = true) {α : Type} {Q : α → World → Prop} :
    Triple (Calm before) (do see s; throw e) Q (BreaksOff before) := by
  have hsee : Triple (Calm before) (see s) (fun _ => Refused before) (BreaksOff before) :=
    Triple.of_modify fun w hw => refused_of_calm hw hs
  apply Triple.bind hsee
  intro _
  exact Triple.of_throw fun w hw => ⟨he, hw⟩

/-- The pidfile is deleted, or else `OSError` is raised. -/
theorem unlink_calm : Triple (CalmWith before P) (unlinkPidfile env)
    (fun _ => CalmWith before P) (BreaksOff before) := by
  apply Triple.bind (interact_spec calmWith_lasting)
  intro a
  apply Triple.of_ite
  · intro _
    apply Triple.get_bind
    intro w hw
    have hfailed : Triple (Calm before) (do see (.undeleted w.abandons); throw .osError)
        (fun _ : Unit => CalmWith before P) (BreaksOff before) := calm_refusal (.inl rfl) rfl
    exact hfailed.pre fun v hv => hv ▸ hw.1
  · exact fun _ => Triple.of_modify fun w hw => hw

/-- The signals and the waits let no exception out. -/
theorem calm_ending : Ending (CalmWith before P) (fun _ => CalmWith before P) where
  lasting _ := calmWith_lasting
  signalled _ _ h := ⟨h.1.see rfl, h.2⟩
  gone _ _ h _ := h
  terminated _ _ h := ⟨h.1.see rfl, h.2⟩

theorem endProc_calm (proc : Option Handle) : Triple (CalmWith before P) (endProc env proc)
    (fun _ => CalmWith before P) (BreaksOff before) := by
  cases proc with
  | none => exact Triple.of_pure fun w hw => hw
  | some h => exact (calm_ending.endProc_spec h).exn fun _ _ he => he.elim

theorem terminate_calm : Triple (Calm before) (terminate env)
    (fun _ => CalmWith before (fun sup => sup.proc = none)) (BreaksOff before) := by
  apply Triple.get_bind
  intro w hw
  have hhand : Triple (fun v => v = w)
      (modify fun v => { v with sup := { v.sup with proc := none }, ending := v.sup.proc } : M Unit)
      (fun _ => CalmWith before (fun sup => sup.proc = none)) (BreaksOff before) :=
    Triple.of_modify fun v hv => hv ▸ ⟨hw, rfl⟩
  apply Triple.bind hhand
  intro _
  apply Triple.bind unlink_calm
  intro _
  apply Triple.bind (endProc_calm w.sup.proc)
  intro _
  exact Triple.of_modify fun v hv => hv

theorem adoptOrphan_calm : Triple (Calm before) (adoptOrphan env) (fun _ => Calm before)
    (BreaksOff before) := by
  apply Triple.get_ite
  · apply Triple.bind ((findOrphan_spec calm_lasting).pre fun w hw => hw.1)
    intro r
    cases r with
    | none =>
      apply Triple.get_bind
      intro w hw
      have hsee : Triple (fun v => v = w) (see (.giveUp w.orphan))
          (fun _ => CalmWith before (fun _ => True)) (BreaksOff before) :=
        Triple.of_modify fun v hv => ⟨hv ▸ hw.1.see rfl, trivial⟩
      exact Triple.bind hsee fun _ => unlink_calm.post fun _ _ hv => hv.1
    | some h => exact Triple.of_modify fun w hw => hw.1
  · exact Triple.of_pure fun w hw => hw.1

theorem look_calm : Triple (Calm before) (look env) (fun _ => Calm before)
    (BreaksOff before) := by
  have hdrop :
      Triple (Calm before) (dropCrashed env) (fun _ => Calm before) (BreaksOff before) := by
    apply Triple.bind (crashed_lasting calm_lasting)
    intro dead
    exact Triple.of_ite (fun _ => Triple.of_modify fun w hw => hw)
      fun _ => Triple.of_pure fun w hw => hw
  apply Triple.bind hdrop
  intro _
  apply Triple.bind (health_spec calm_lasting)
  intro healthy
  apply Triple.of_ite
  · exact fun _ => Triple.bind adoptOrphan_calm fun _ => Triple.of_pure fun w hw => hw
  · exact fun _ => Triple.of_pure fun w hw => hw

theorem setFailed_spec : Triple (CalmWith before (fun sup => sup.proc = none)) (setState .failed)
    (fun _ => CalmWith before (fun sup => sup.state = .failed ∧ sup.proc = none))
    (Raises before) :=
  Triple.of_modify fun _ hw => ⟨hw.1, rfl, hw.2⟩

theorem giveUp_spec {w : World}
    (hw : CalmWith before (fun sup => sup.state = .failed ∧ sup.proc = none) w)
    {message : String} (hmessage : Announced message) {α : Type} {Q : α → World → Prop} :
    Triple (fun v => v = w) (throw (.comfyUIUnavailable message)) Q (Raises before) :=
  Triple.of_throw fun _ hv => .inl ⟨⟨message, rfl, hmessage⟩, hv ▸ hw⟩

theorem startTimedOut_outcome {Q : Unit → World → Prop} :
    Triple (Calm before) (startTimedOut env) Q (Raises before) := by
  apply Triple.bind (terminate_calm.exn fun _ _ he => .inr (.inl he))
  intro _
  apply Triple.bind setFailed_spec
  intro _
  apply Triple.get_bind
  intro w hw
  have hstart : Announced "comfyui_unavailable: ComfyUI did not respond at " :=
    ⟨" ComfyUI did not respond at ", rfl⟩
  exact giveUp_spec hw (((hstart.append _).append _).append _)

theorem childDied_outcome {Q : Unit → World → Prop} :
    Triple (Calm before) (childDied env) Q (Raises before) := by
  apply Triple.bind (interact_spec calm_lasting)
  intro a
  have hdrop : Triple (Calm before) (setProc none)
      (fun _ => CalmWith before (fun sup => sup.proc = none)) (Raises before) :=
    Triple.of_modify fun w hw => ⟨hw, rfl⟩
  apply Triple.bind hdrop
  intro _
  apply Triple.bind (unlink_calm.exn fun _ _ he => .inr (.inl he))
  intro _
  apply Triple.bind setFailed_spec
  intro _
  apply Triple.get_bind
  intro w hw
  have hstart : Announced "comfyui_unavailable: ComfyUI exited during startup (code " :=
    ⟨" ComfyUI exited during startup (code ", rfl⟩
  exact giveUp_spec hw (((hstart.append _).append _).append _)

theorem stopFollowing_outcome {Q : Unit → World → Prop} :
    Triple (Calm before) stopFollowing Q (Raises before) := by
  have hsee : Triple (Calm before) (see .unended) (fun _ => GoesOn before .unended)
      (Raises before) :=
    Triple.of_modify fun w hw => by
      obtain ⟨more, hseen, -⟩ := hw
      exact ⟨rfl, more ++ [.unended], by simp [World.see, hseen], by simp⟩
  exact Triple.bind hsee fun _ => Triple.of_throw fun w hw => .inr (.inr hw)

/-- Calm so far, and ready. -/
abbrev Ready (before : List Sight) : World → Prop :=
  CalmWith before fun sup => sup.state = .ready

theorem becomeReady_outcome :
    Triple (Calm before) (becomeReady env) (fun _ => Ready before) (Raises before) := by
  have hready : Triple (Calm before) (setState .ready) (fun _ => Ready before) (Raises before) :=
    Triple.of_modify fun w hw => ⟨hw, rfl⟩
  apply Triple.bind hready
  intro _
  apply Triple.bind (clock_spec calmWith_lasting)
  intro now
  exact Triple.of_modify fun w hw => hw

/-- The loop goes on calmly until one of its ends. -/
theorem startLoop_outcome (deadline : Option Int) (rounds : ℕ) :
    Triple (Calm before) (startLoop env deadline rounds) (fun _ => Ready before)
      (Raises before) := by
  induction rounds with
  | zero =>
    exact Triple.of_ite (fun _ => startTimedOut_outcome) fun _ => stopFollowing_outcome
  | succ rounds ih =>
    have hagain : Triple (Calm before) (do sleep env 2; startLoop env deadline rounds)
        (fun _ => Ready before) (Raises before) :=
      Triple.bind (sleep_spec calm_lasting 2) fun _ => ih
    apply Triple.bind (clock_spec calm_lasting)
    intro now
    apply Triple.of_ite
    · intro _
      apply Triple.bind (childAlive_lasting calm_lasting)
      intro alive
      apply Triple.of_ite
      · intro _
        apply Triple.bind (health_spec calm_lasting)
        intro healthy
        exact Triple.of_ite (fun _ => becomeReady_outcome) fun _ => hagain
      · exact fun _ => childDied_outcome
    · exact fun _ => startTimedOut_outcome

theorem openLog_calm : Triple (Calm before) (openLog env) (fun _ => Calm before)
    (BreaksOff before) := by
  apply Triple.bind (interact_spec calm_lasting)
  intro a
  exact Triple.of_ite (fun _ => calm_refusal (.inl rfl) rfl)
    fun _ => Triple.of_pure fun w hw => hw

theorem popen_calm : Triple (Calm before) (popen env) (fun _ => Calm before)
    (BreaksOff before) := by
  apply Triple.bind (interact_spec calm_lasting)
  intro a
  apply Triple.get_bind
  intro w hw
  have hsee : Triple (fun v => v = w) (see (.launch w.orphan)) (fun _ => Calm before)
      (BreaksOff before) :=
    Triple.of_modify fun v hv => hv ▸ hw.see rfl
  apply Triple.bind hsee
  intro _
  apply Triple.of_ite
  · exact fun _ => calm_refusal (.inl rfl) rfl
  · intro _
    have hadd : Triple (Calm before) (modify (addChild a) : M Unit) (fun _ => Calm before)
        (BreaksOff before) :=
      Triple.of_modify fun v hv => hv
    exact Triple.bind hadd fun _ => Triple.of_pure fun v hv => hv

theorem writePid_calm (pid : Pid) : Triple (Calm before) (writePid env pid)
    (fun _ => Calm before) (BreaksOff before) := by
  apply Triple.bind (interact_spec calm_lasting)
  intro a
  apply Triple.of_ite
  · intro _
    have hsee : Triple (Calm before) (see .unrecorded) (fun _ => Refused before)
        (BreaksOff before) :=
      Triple.of_modify fun w hw => refused_of_calm hw rfl
    have hlost : Triple (Refused before)
        (modify fun w => { w with pidfile := if a.truncates then some .garbled else w.pidfile } :
          M Unit) (fun _ => Refused before) (BreaksOff before) :=
      Triple.of_modify fun w hw => hw
    apply Triple.bind hsee
    intro _
    apply Triple.bind hlost
    intro _
    exact Triple.of_throw fun w hw => ⟨.inr rfl, hw⟩
  · exact fun _ => Triple.of_modify fun w hw => hw

theorem start_outcome :
    Triple (Calm before) (start env) (fun _ => Ready before) (Raises before) := by
  have hstate : Triple (Calm before) (setState .starting) (fun _ => Calm before)
      (Raises before) :=
    Triple.of_modify fun w hw => hw
  apply Triple.bind hstate
  intro _
  apply Triple.bind (openLog_calm.exn fun _ _ he => .inr (.inl he))
  intro _
  apply Triple.bind (popen_calm.exn fun _ _ he => .inr (.inl he))
  intro h
  have hproc : Triple (Calm before) (setProc (some h)) (fun _ => Calm before) (Raises before) :=
    Triple.of_modify fun w hw => hw
  apply Triple.bind hproc
  intro _
  apply Triple.bind ((writePid_calm h.pid).exn fun _ _ he => .inr (.inl he))
  intro _
  apply Triple.get_bind
  intro w hw
  apply Triple.pre ?_ fun v hv => hv ▸ hw
  apply Triple.bind (clock_spec calm_lasting)
  intro now
  exact startLoop_outcome _ _

theorem setRestartPending_calm (pending : Bool) : Triple (Calm before)
    (setRestartPending pending) (fun _ => Calm before) (Raises before) :=
  Triple.of_modify fun _ hw => hw

theorem requestedRestart_outcome :
    Triple (Calm before) (requestedRestart env) (fun _ => Ready before) (Raises before) := by
  have hstate : Triple (Calm before) (setState .restarting) (fun _ => Calm before)
      (Raises before) :=
    Triple.of_modify fun w hw => hw
  apply Triple.bind (setRestartPending_calm false)
  intro _
  apply Triple.bind hstate
  intro _
  apply Triple.bind (terminate_calm.exn fun _ _ he => .inr (.inl he))
  intro _
  exact start_outcome.pre fun w hw => hw.1

/-- A ComfyUI that hangs is ended; after that nothing is managed either way. -/
theorem endHung_calm : Triple (Calm before) (endHung env)
    (fun _ => CalmWith before (fun sup => sup.proc = none)) (BreaksOff before) := by
  apply Triple.get_ite
  · exact terminate_calm.pre fun w hw => hw.1
  · exact Triple.of_pure fun w hw => ⟨hw.1, by simpa using hw.2⟩

theorem withoutRestart_outcome (healthy : Bool) : Triple (Calm before)
    (withoutRestart env healthy) (fun _ => Ready before) (Raises before) := by
  apply Triple.bind (setRestartPending_calm false)
  intro _
  apply Triple.of_ite
  · exact fun _ => Triple.of_modify fun w hw => ⟨hw, rfl⟩
  · intro _
    apply Triple.bind (endHung_calm.exn fun _ _ he => .inr (.inl he))
    intro _
    apply Triple.get_bind
    intro w hw
    apply Triple.of_ite
    · exact fun _ => start_outcome.pre fun v hv => hv ▸ hw.1
    · intro _
      apply Triple.bind (setFailed_spec.pre fun v hv => hv ▸ hw)
      intro _
      have hstart : Announced "comfyui_unavailable: ComfyUI is not running at " :=
        ⟨" ComfyUI is not running at ", rfl⟩
      exact Triple.of_throw fun v hv =>
        .inl ⟨⟨_, rfl, ((hstart.append _).append _).append _⟩, hv⟩

theorem ensureRunning_outcome : Triple (Calm before) (ensureRunning env)
    (fun _ => Ready before) (Raises before) := by
  apply Triple.bind (look_calm.exn fun _ _ he => .inr (.inl he))
  intro healthy
  apply Triple.get_ite
  · exact requestedRestart_outcome.pre fun w hw => hw.1
  · exact (withoutRestart_outcome healthy).pre fun w hw => hw.1

end Outcome

theorem Ready.settled {before : List Sight} {w : World} (h : Ready before w) :
    Settled w (.ok ()) := h.2

theorem GivesUp.settled {before : List Sight} {e : Exn} {w : World} (h : GivesUp before e w) :
    Settled w (.error e) := by
  obtain ⟨⟨message, rfl, hmessage⟩, -, hstate, hproc⟩ := h
  exact ⟨hmessage, hstate, hproc⟩

theorem BreaksOff.not_settled {before : List Sight} {e : Exn} {w : World}
    (h : BreaksOff before e w) : ¬Settled w (.error e) := by
  rcases h.1 with rfl | rfl <;> exact id

theorem GoesOn.not_settled {before : List Sight} {e : Exn} {w : World}
    (h : GoesOn before e w) : ¬Settled w (.error e) := by
  rw [h.1]
  exact id

section Timed
variable {before : List Sight}

/-- The timeout is finite, and since then no start has been left going on. -/
def Timed (before : List Sight) (w : World) : Prop :=
  w.sup.cfg.startTimeout.finite = true ∧ Clean (· = .unended) before w

theorem Timed.see {w : World} (h : Timed before w) {s : Sight} (hs : s ≠ .unended) :
    Timed before (w.see s) := ⟨h.1, h.2.see (by simpa using hs)⟩

theorem timed_lasting : Lasting (Timed before) :=
  (lasting_sup fun sup => sup.cfg.startTimeout.finite = true).and (clean_lasting fun _ => rfl)

theorem timed_maintained : Maintained (Timed before) (Timed before) (fun _ => Timed before)
    (fun _ => Timed before) where
  lasting := timed_lasting
  lasting_clear := timed_lasting
  lasting_handed _ := timed_lasting
  ending := {
    lasting _ := timed_lasting
    signalled _ _ h := h.see (by simp)
    gone _ _ h _ := h
    terminated _ _ h := h.see (by simp) }
  of_clear _ h := h
  fields w sup hcfg _ _ h := ⟨by rw [hcfg]; exact h.1, h.2⟩
  dead _ _ h _ _ := h
  drop _ h := h
  unlink _ h := h
  undeleted _ h := h.see (by simp)
  hand _ _ h _ := h
  unlink_handed _ _ h := h
  undeleted_handed _ _ h := h.see (by simp)
  done _ h := h
  resume _ h := h
  unended w hendless h := absurd (hendless.symm.trans h.1) (by decide)

theorem timed_adopts : Adopts (Timed before) (Timed before) where
  adopt _ _ _ h _ _ _ _ := h
  giveUp _ h _ := h.see (by simp)

theorem timed_launches :
    Launches (Timed before) (fun h w => w.sup.proc = some h ∧ Timed before w) where
  lasting h := (lasting_sup fun sup => sup.proc = some h).and timed_lasting
  proc _ _ h := h.1
  unopened _ h := h.see (by simp)
  unlaunched _ h := (h.see (by simp)).see (by simp)
  child _ _ h _ _ := ⟨rfl, h.see (by simp)⟩
  unrecorded _ _ _ h _ := h.2.see (by simp)
  recorded _ _ h := h.2

/-- With a finite timeout a call always comes back. -/
theorem ensureRunning_timed {env : ℕ → Answer} {w : World}
    (h : w.sup.cfg.startTimeout.finite = true) : .unended ∉ sights env w .ensureRunning := by
  have hstart : Timed w.seen { w with ending := none } := ⟨h, clean_start _⟩
  have htimed : Timed w.seen (perform env w .ensureRunning) :=
    (Maintained.ensureRunning_keeps timed_launches timed_maintained timed_adopts
      fun _ h => h).state hstart
  intro hmem
  simpa using htimed.2.sights _ hmem

end Timed

section Endless
variable (env : ℕ → Answer)

/-- The child that is polled and probed in a round of the start runs and does not answer. -/
def silentRound (w : World) : Bool :=
  let polled := next env (next env w)
  (next env w).sup.proc.any (fun h => (polled.target h).isSome) && !(env polled.tick).healthy

/-- The world after a round in which the clock is read, the child polled and probed, and two
seconds slept. -/
def afterRound (w : World) : World :=
  let v := next env (next env (next env (next env w)))
  { v with now := v.now + 2 }

/-- In none of the rounds the child exits or answers. -/
def silent : ℕ → World → Bool
  | 0, _ => true
  | rounds + 1, w => silentRound env w && silent rounds (afterRound env w)

variable {env}

theorem runFrom_clock (w : World) :
    runFrom (clock env) w = (.ok (next env w).now, next env w) := rfl

theorem runFrom_health (w : World) :
    runFrom (health env) w = (.ok (env w.tick).healthy, next env w) := rfl

theorem runFrom_childAlive {w : World} {h : Handle} (hproc : w.sup.proc = some h) :
    runFrom (childAlive env) w = (.ok ((next env w).target h).isSome, next env w) := by
  rw [childAlive, runFrom_bind_ok (runFrom_get w), hproc]
  rfl

theorem runFrom_childAlive_none {w : World} (hproc : w.sup.proc = none) :
    runFrom (childAlive env) w = (.ok false, w) := by
  rw [childAlive, runFrom_bind_ok (runFrom_get w), hproc]
  rfl

theorem unlinkPidfile_ends : Triple (fun _ : World => True) (unlinkPidfile env)
    (fun _ _ => True) (fun e _ => e ≠ .unended) := by
  apply Triple.bind (interact_spec ⟨fun _ _ h => h, fun _ _ _ h => h⟩)
  intro a
  apply Triple.of_ite
  · intro _
    apply Triple.get_bind
    intro v _
    apply Triple.bind (Q := fun _ _ => True) (Triple.of_modify fun _ _ => trivial)
    intro _
    exact Triple.of_throw fun _ _ => by simp
  · exact fun _ => Triple.of_modify fun _ _ => trivial

/-- The branch for a child that has exited comes to an end. -/
theorem childDied_ends (w : World) : (runFrom (childDied env) w).1 ≠ .error .unended := by
  have hset : ∀ f : World → World, Triple (fun _ => True) (modify f : M Unit)
      (fun _ _ => True) (fun e _ => e ≠ .unended) := fun f => Triple.of_modify fun _ _ => trivial
  have hdied : Triple (fun _ : World => True) (childDied env) (fun _ _ => True)
      (fun e _ => e ≠ .unended) := by
    apply Triple.bind (interact_spec ⟨fun _ _ h => h, fun _ _ _ h => h⟩)
    intro a
    apply Triple.bind (hset _)
    intro _
    apply Triple.bind unlinkPidfile_ends
    intro _
    apply Triple.bind (hset _)
    intro _
    apply Triple.get_bind
    intro v _
    exact Triple.of_throw fun _ _ => by simp
  intro hend
  rcases hrun : runFrom (childDied env) w with ⟨e | _, v⟩
  · rw [hrun] at hend
    exact hdied.raises w e v trivial hrun (Except.error.inj hend)
  · rw [hrun] at hend
    cases hend

/-- A start without a deadline goes on exactly as long as its rounds are silent. -/
theorem startLoop_goesOn_iff (rounds : ℕ) (w : World) :
    (runFrom (startLoop env none rounds) w).1 = .error .unended ↔ silent env rounds w = true := by
  induction rounds generalizing w with
  | zero => exact iff_of_true rfl rfl
  | succ rounds ih =>
    have hclock : runFrom (startLoop env none (rounds + 1)) w =
        runFrom (do
          if ← childAlive env then
            if ← health env then becomeReady env
            else
              sleep env 2
              startLoop env none rounds
          else childDied env) (next env w) := runFrom_bind_ok (runFrom_clock w)
    rw [hclock, silent, silentRound]
    rcases hproc : (next env w).sup.proc with _ | h
    · rw [runFrom_bind_ok (runFrom_childAlive_none hproc)]
      exact iff_of_false (childDied_ends _) (by simp)
    · rw [runFrom_bind_ok (runFrom_childAlive hproc)]
      cases hpolled : ((next env (next env w)).target h).isSome with
      | false => exact iff_of_false (childDied_ends _) (by simp [hpolled])
      | true =>
        rw [if_pos rfl, runFrom_bind_ok (runFrom_health _)]
        cases hprobed : (env (next env (next env w)).tick).healthy with
        | true => exact iff_of_false (fun hend => by cases hend) (by simp)
        | false =>
          have hsilent : (Option.any (fun h => ((next env (next env w)).target h).isSome)
              (some h) && !false && silent env rounds (afterRound env w)) =
              silent env rounds (afterRound env w) := by simp [hpolled]
          rw [hsilent]
          exact ih (afterRound env w)

/-- The child lives on and answers no probe. -/
def silentChild (_ : ℕ) : Answer where
  pid := 100

/-- The child is in hand and running. -/
def Lives (w : World) : Prop :=
  w.sup.proc = some (.popen 0 100) ∧ w.processes = [⟨0, 100, true, true⟩]

theorem silent_silentChild (rounds : ℕ) {w : World} (hw : Lives w) :
    silent silentChild rounds w = true := by
  induction rounds generalizing w with
  | zero => rfl
  | succ rounds ih =>
    have hround : silentRound silentChild w = true := by
      have hprocesses : (next silentChild (next silentChild w)).processes =
          [⟨0, 100, true, true⟩] := hw.2
      simp [silentRound, hw.1, World.target, World.withInst, hprocesses, silentChild]
    rw [silent, hround, Bool.true_and]
    exact ih hw

/-- A worker whose timeout is infinite, followed for some rounds. -/
def patientWorker (rounds : ℕ) : World :=
  { beforeWorkers with sup := newSupervisor { startTimeout := .endless rounds } 0 }

theorem ensureRunning_endless (rounds : ℕ) :
    (runFrom (ensureRunning silentChild) (patientWorker rounds)).1 = .error .unended := by
  have hloop : ∃ w, Lives w ∧ runFrom (ensureRunning silentChild) (patientWorker rounds) =
      runFrom (startLoop silentChild none rounds) w := ⟨_, ⟨rfl, rfl⟩, rfl⟩
  obtain ⟨w, hw, hloop⟩ := hloop
  rw [hloop]
  exact (startLoop_goesOn_iff rounds w).2 (silent_silentChild rounds hw)

end Endless

/-- `ensure_running` ends: with a finite timeout the clock ends the loop of `_start`, however
many rounds it may take. And it ends as it should exactly if no file operation and no launch
fails and, should the timeout be infinite, the start comes to an end at all. That it does as
soon as the child exits or answers in a round, which it need not in any number of them. -/
theorem ensureRunning_settles_iff (env : ℕ → Answer) (w : World) :
    (∀ (now seconds : Int) (extra : ℕ), Agree (fun v => now ≤ v.now)
      (startLoop env (some (now + seconds)) (seconds.toNat + 1 + extra))
      (startLoop env (some (now + seconds)) (seconds.toNat + 1))) ∧
    (Settled (perform env w .ensureRunning)
        (runFrom (ensureRunning env) { w with ending := none }).1 ↔
      (∀ s ∈ sights env w .ensureRunning, refusal s = false) ∧
        (w.sup.cfg.startTimeout.finite = true ∨ .unended ∉ sights env w .ensureRunning)) ∧
    (∀ rounds v, (runFrom (startLoop env none rounds) v).1 = .error .unended ↔
      silent env rounds v = true) ∧
    ∀ rounds, (runFrom (ensureRunning silentChild) (patientWorker rounds)).1 =
      .error .unended := by
  refine ⟨fun now seconds extra => startLoop_rounds (by omega) extra, ?_, startLoop_goesOn_iff,
    ensureRunning_endless⟩
  have hcalm : Calm w.seen { w with ending := none } := clean_start _
  have hseen := seen_perform env w .ensureRunning
  have hperform : perform env w .ensureRunning =
      (runFrom (ensureRunning env) { w with ending := none }).2 := rfl
  have hclean : ∀ {more}, (perform env w .ensureRunning).seen = w.seen ++ more →
      sights env w .ensureRunning = more := fun hmore =>
    List.append_cancel_left (hseen.symm.trans hmore)
  rcases hrun : runFrom (ensureRunning env) { w with ending := none } with ⟨e | ⟨⟩, v⟩
  · rw [hrun] at hperform
    rcases ensureRunning_outcome.raises _ e v hcalm hrun with hend | hend | hend
    · obtain ⟨more, hmore, hcalm⟩ := hend.2.1
      rw [hclean ((congrArg World.seen hperform).trans hmore), hperform]
      refine iff_of_true hend.settled ⟨fun s hs => (hinders_eq_false (hcalm s hs)).1, .inr ?_⟩
      exact fun hs => (hinders_eq_false (hcalm _ hs)).2 rfl
    · obtain ⟨more, hmore, s, hs, hrefusal⟩ := hend.2
      rw [hclean ((congrArg World.seen hperform).trans hmore), hperform]
      refine iff_of_false hend.not_settled fun hnone => ?_
      exact Bool.false_ne_true ((hnone.1 s hs).symm.trans hrefusal)
    · obtain ⟨more, hmore, hs⟩ := hend.2
      have hsights := hclean ((congrArg World.seen hperform).trans hmore)
      rw [hperform]
      refine iff_of_false hend.not_settled fun hnone => ?_
      rcases hnone.2 with hfinite | hnone
      · exact ensureRunning_timed hfinite (hsights ▸ hs)
      · exact hnone (hsights ▸ hs)
  · rw [hrun] at hperform
    have hend := ensureRunning_outcome.returns _ () v hcalm hrun
    obtain ⟨more, hmore, hcalm⟩ := hend.1
    rw [hclean ((congrArg World.seen hperform).trans hmore), hperform]
    refine iff_of_true hend.settled ⟨fun s hs => (hinders_eq_false (hcalm s hs)).1, .inr ?_⟩
    exact fun hs => (hinders_eq_false (hcalm _ hs)).2 rfl

/-- The pid of the first ComfyUI cannot be recorded. It is healthy a moment later. -/
def pidUnwritable (n : ℕ) : Answer where
  fails := n = 3
  healthy := 0 < n
  pid := 100

/-- A failed write of the pidfile alone ends the call, and leaves the state at `starting`. -/
theorem ensureRunning_not_settled :
    let outcome := runFrom (ensureRunning pidUnwritable) beforeWorkers
    outcome.1 = .error .typeError ∧ outcome.2.sup.state = .starting ∧
      outcome.2.sup.proc = some (.popen 0 100) ∧ outcome.2.processes = [⟨0, 100, true, true⟩] ∧
      ¬Settled outcome.2 outcome.1 := by
  refine ⟨rfl, rfl, rfl, rfl, id⟩

end TaskQueue.ComfyUIOutcome
