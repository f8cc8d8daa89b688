import TaskQueue.ComfyUIAdoption
import TaskQueue.ComfyUISights

/-!
# What the supervisor overlooks

The supervisor knows a ComfyUI that it launched by its handle or by the pidfile. With nothing
in hand an operation may pass over an orphan that the pidfile names: `_start` launches another
one, or an adoption takes the pid for a stale one. The state and the answers to come say
beforehand whether it does.
-/

namespace TaskQueue.ComfyUIOrphans
open ComfyUI StateExceptions

/-- The handle was made for this process. -/
def names : Handle → Process → Bool
  | .popen inst pid, p => p.inst = inst && p.pid = pid
  | .adopted pid, p => p.pid = pid

/-- A launch or a stale check has passed over an orphan that is still running. -/
def passesOver : Sight → Bool
  | .launch orphan => orphan
  | .giveUp orphan => orphan
  | _ => false

/-- Every launched process that is running is recorded, and in the supervisor's hands if
any process is. -/
def Recorded (w : World) : Prop :=
  ∀ p ∈ w.processes, p.launched →
    w.pidfile = some (.number p.pid) ∧ ∀ h, w.sup.proc = some h → names h p

/-- Nothing that a supervisor launched is running. -/
def Gone (w : World) : Prop := ∀ p ∈ w.processes, p.launched = false

/-- Nothing but the process of `h` that a supervisor launched is running. -/
def Only (h : Handle) (w : World) : Prop := ∀ p ∈ w.processes, p.launched → names h p

theorem Recorded.only {w : World} {h : Handle} (hw : Recorded w) (hproc : w.sup.proc = some h) :
    Only h w := fun p hp hlaunched => (hw p hp hlaunched).2 h hproc

/-- A handle without a process has none of ours. -/
theorem Only.gone {w : World} {h : Handle} (hw : Only h w) (hnone : w.target h = none) :
    Gone w := by
  intro p hp
  by_contra hlaunched
  have hnames := hw p hp (by simpa using hlaunched)
  cases h with
  | popen inst pid =>
    have hfind := List.find?_eq_none.1 hnone p hp
    simp_all [names]
  | adopted pid =>
    have hfind := List.find?_eq_none.1 hnone p hp
    simp_all [names]

/-- What is said of the launched processes that are running holds until there is another. -/
theorem lasting_launched {P : World → Process → Prop}
    (hP : ∀ w w' p, w'.sup = w.sup → w'.pidfile = w.pidfile → P w p → P w' p) :
    Lasting (fun w => ∀ p ∈ w.processes, p.launched → P w p) where
  event w e h p hp hlaunched := by
    refine hP w _ p (happen_sup w e) (happen_pidfile w e) (h p ?_ hlaunched)
    cases e with
    | exit inst => exact List.mem_of_mem_filter hp
    | spawn pid mainPy =>
      simp only [World.happen] at hp
      split at hp
      · exact hp
      · rcases List.mem_cons.1 hp with rfl | hp
        · contradiction
        · exact hp
  time w _ _ h p hp hlaunched := hP w _ p rfl rfl (h p hp hlaunched)

theorem recorded_lasting : Lasting Recorded :=
  lasting_launched (P := fun w p => w.pidfile = some (.number p.pid) ∧
    ∀ h, w.sup.proc = some h → names h p) fun w w' p hsup hpidfile h => by rwa [hsup, hpidfile]

theorem only_lasting (h : Handle) : Lasting (Only h) :=
  lasting_launched (P := fun _ p => names h p) fun _ _ _ _ _ hp => hp

theorem gone_iff {w : World} : Gone w ↔ ∀ p ∈ w.processes, p.launched → False := by
  simp [Gone]

theorem gone_lasting : Lasting Gone := by
  have hlasting : Lasting (fun w => ∀ p ∈ w.processes, p.launched → False) :=
    lasting_launched fun _ _ _ _ _ hp => hp
  simpa only [← gone_iff] using hlasting

section Overlooking
variable (env : ℕ → Answer)

/-- The stale check of an adoption gives up the pidfile of a launched process that is running. -/
def givesUp (w : World) : Bool :=
  w.pidfile.isSome && !found env w && (searched env w).orphan

/-- The log can be opened, and the launcher is called while the pidfile names such a process. -/
def launchesOver (w : World) : Bool :=
  !(env w.tick).fails && (next env (next env w)).orphan

/-- With nothing in hand, the operation passes over an orphan: its probe does not answer, or
nothing is found behind the pidfile. -/
def passesBy (w : World) : Op → Bool
  | .ensureRunning =>
    if (env w.tick).healthy then givesUp env (next env w)
    else w.sup.cfg.manage && launchesOver env (next env w)
  | .maybeStopIdle => givesUp env w
  | .details =>
    !w.sup.busy &&
      (w.sup.state = .ready || w.sup.state = .stopped || w.sup.state = .failed) &&
      (env w.tick).healthy && givesUp env (next env w)
  | _ => false

/-- The state and the answers to come say that the operation loses track of an orphan. -/
def overlooks (w : World) (op : Op) : Bool :=
  w.sup.proc.isNone && passesBy env { w with ending := none } op

/-- Since then an orphan has been passed over, or none has. -/
def Passing (before : List Sight) (passed : Bool) (w : World) : Prop :=
  ∃ more, w.seen = before ++ more ∧ more.any passesOver = passed

/-- There is none to pass over. -/
def Unorphaned (w : World) : Prop := w.pidfile = none ∨ Gone w

variable {env} {before : List Sight} {passed : Bool} {w : World}

theorem passing_start (w : World) : Passing w.seen false w := ⟨[], by simp, rfl⟩

theorem Passing.see (h : Passing before passed w) (s : Sight) :
    Passing before (passed || passesOver s) (w.see s) := by
  obtain ⟨more, hseen, rfl⟩ := h
  exact ⟨more ++ [s], by simp [World.see, hseen], by simp⟩

theorem Passing.also (h : Passing before passed w) {s : Sight} (hs : passesOver s = false) :
    Passing before passed (w.see s) := by
  simpa [hs] using h.see s

theorem passing_lasting : Lasting (Passing before passed) where
  event w e h := by
    cases e with
    | exit inst => exact h
    | spawn pid mainPy =>
      simp only [World.happen]
      split
      · exact h
      · exact h.also rfl
  time _ _ _ h := h

theorem passing_maintained : Maintained (Passing before passed) (Passing before passed)
    (fun _ => Passing before passed) (fun _ => Passing before passed) where
  lasting := passing_lasting
  lasting_clear := passing_lasting
  lasting_handed _ := passing_lasting
  ending := {
    lasting _ := passing_lasting
    signalled _ _ h := h.also rfl
    gone _ _ h _ := h
    terminated _ _ h := h.also rfl }
  of_clear _ h := h
  fields _ _ _ _ _ h := h
  dead _ _ h _ _ := h
  drop _ h := h
  unlink _ h := h
  undeleted _ h := h.also rfl
  hand _ _ h _ := h
  unlink_handed _ _ h := h
  undeleted_handed _ _ h := h.also rfl
  done _ h := h
  resume _ h := h
  unended _ _ h := h.also rfl

theorem passing_records :
    Records (Passing before passed) (fun h w => w.sup.proc = some h ∧ Passing before passed w) where
  lasting h := (lasting_sup fun sup => sup.proc = some h).and passing_lasting
  proc _ _ hw := hw.1
  unrecorded _ _ _ hw _ := hw.2.also rfl
  recorded _ _ hw := hw.2

theorem searched_keeps {I : World → Prop} (hI : Lasting I) (h : I w) : I (searched env w) := by
  unfold searched
  split_ifs
  · exact hI.advance (hI.advance h _) _
  · exact hI.advance h _

theorem Unorphaned.orphan (h : Unorphaned w) : w.orphan = false := by
  rcases h with hfile | hgone
  · simp [World.orphan, hfile]
  · unfold World.orphan
    split
    · rw [List.any_eq_false]
      intro p hp
      simp [hgone p hp]
    · rfl

theorem unorphaned_lasting : Lasting Unorphaned where
  event w e h :=
    h.imp ((lasting_pidfile fun text => text = none).event w e) (gone_lasting.event w e)
  time _ _ _ h := h

theorem Unorphaned.givesUp (h : Unorphaned w) : givesUp env w = false := by
  have horphan : (searched env w).orphan = false :=
    Unorphaned.orphan (searched_keeps unorphaned_lasting h)
  rw [ComfyUIOrphans.givesUp, horphan, Bool.and_false]

theorem Unorphaned.launchesOver (h : Unorphaned w) : launchesOver env w = false := by
  have hfirst : Unorphaned (next env w) := unorphaned_lasting.advance h _
  have hsecond : Unorphaned (next env (next env w)) := unorphaned_lasting.advance hfirst _
  rw [ComfyUIOrphans.launchesOver, hsecond.orphan, Bool.and_false]

/-- The same processes, the same pidfile and the same answers to come. -/
structure Alike (v w : World) : Prop where
  processes : v.processes = w.processes
  nextInst : v.nextInst = w.nextInst
  pidfile : v.pidfile = w.pidfile
  tick : v.tick = w.tick

theorem Alike.happen {v w : World} (h : Alike v w) (e : OsEvent) :
    Alike (v.happen e) (w.happen e) := by
  obtain ⟨hprocesses, hnext, hfile, htick⟩ := h
  cases e with
  | exit inst => exact ⟨by simp [World.happen, hprocesses], hnext, hfile, htick⟩
  | spawn pid mainPy =>
    have hpid : v.withPid pid = w.withPid pid := by rw [World.withPid, hprocesses, World.withPid]
    simp only [World.happen, hpid]
    split_ifs
    · exact ⟨hprocesses, hnext, hfile, htick⟩
    · exact ⟨by simp [hprocesses, hnext], by simp [hnext], hfile, htick⟩

theorem Alike.next {v w : World} (h : Alike v w) : Alike (next env v) (next env w) := by
  have hfold : ∀ (es : List OsEvent) (v w : World), Alike v w →
      Alike (es.foldl World.happen v) (es.foldl World.happen w) := by
    intro es
    induction es with
    | nil => exact fun v w h => h
    | cons e es ih => exact fun v w h => ih _ _ (h.happen e)
  have hanswer : env v.tick = env w.tick := by rw [h.tick]
  obtain ⟨hprocesses, hnext, hfile, -⟩ := hfold (env w.tick).events v w h
  rw [ComfyUI.next, hanswer]
  exact ⟨hprocesses, hnext, hfile, by simp [World.advance, ComfyUI.next, h.tick]⟩

theorem Alike.orphan {v w : World} (h : Alike v w) : v.orphan = w.orphan := by
  rw [World.orphan, World.orphan, h.pidfile, h.processes]

theorem Alike.launchesOver {v : World} (h : Alike v w) :
    launchesOver env v = launchesOver env w := by
  rw [ComfyUIOrphans.launchesOver, ComfyUIOrphans.launchesOver, h.next.next.orphan, h.tick]

section Launch
variable {missed : Bool}

theorem openLog_passing :
    Triple (fun w => Passing before passed w ∧ launchesOver env w = missed) (openLog env)
      (fun _ w => Passing before passed w ∧ (next env w).orphan = missed)
      (fun _ => Passing before (passed || missed)) := by
  apply Triple.bind interact_next
  intro a
  apply Triple.of_ite
  · intro hfails
    have hsee : Triple (fun v => ∃ w, (Passing before passed w ∧ launchesOver env w = missed) ∧
        a = env w.tick ∧ v = next env w) (see .unopened)
        (fun _ => Passing before (passed || missed))
        (fun _ => Passing before (passed || missed)) := by
      apply Triple.of_modify
      rintro v ⟨w, ⟨hpassing, hover⟩, rfl, rfl⟩
      have hnone : missed = false := by simpa [launchesOver, hfails] using hover.symm
      rw [hnone, Bool.or_false]
      exact (passing_lasting.advance hpassing _).also rfl
    exact Triple.bind hsee fun _ => Triple.of_throw fun w hw => hw
  · intro hopened
    apply Triple.of_pure
    rintro v ⟨w, ⟨hpassing, hover⟩, rfl, rfl⟩
    refine ⟨passing_lasting.advance hpassing _, ?_⟩
    simpa [launchesOver, hopened] using hover

theorem popen_passing : Triple (fun w => Passing before passed w ∧ (next env w).orphan = missed)
    (popen env) (fun _ => Passing before (passed || missed))
    (fun _ => Passing before (passed || missed)) := by
  apply Triple.bind interact_next
  intro a
  apply Triple.get_bind
  rintro v ⟨w, ⟨hpassing, horphan⟩, -, rfl⟩
  have hnext : Passing before passed (next env w) := passing_lasting.advance hpassing _
  have hsee : Triple (fun v => v = next env w) (see (.launch (next env w).orphan))
      (fun _ => Passing before (passed || missed))
      (fun _ => Passing before (passed || missed)) := by
    apply Triple.of_modify
    rintro v rfl
    simpa [passesOver, horphan] using hnext.see (.launch (next env w).orphan)
  apply Triple.bind hsee
  intro _
  apply Triple.of_ite
  · intro _
    have hunlaunched : Keeps (Passing before (passed || missed)) (see .unlaunched) :=
      Keeps.of_modify fun w hw => hw.also rfl
    exact Triple.bind hunlaunched fun _ => Triple.of_throw fun w hw => hw
  · intro _
    have hadd : Keeps (Passing before (passed || missed)) (modify (addChild a) : M Unit) :=
      Keeps.of_modify fun w hw => hw
    exact Triple.bind hadd fun _ => Triple.of_pure fun w hw => hw

/-- A start passes over what the pidfile names when the launcher is called. -/
theorem start_passing : Triple (fun w => Passing before passed w ∧ launchesOver env w = missed)
    (start env) (fun _ => Passing before (passed || missed))
    (fun _ => Passing before (passed || missed)) := by
  have hstate : Triple (fun w => Passing before passed w ∧ launchesOver env w = missed)
      (setState .starting) (fun _ w => Passing before passed w ∧ launchesOver env w = missed)
      (fun _ => Passing before (passed || missed)) := by
    apply Triple.of_modify
    intro w hw
    have hsame : Alike { w with sup := { w.sup with state := .starting } } w := ⟨rfl, rfl, rfl, rfl⟩
    exact ⟨hw.1, hsame.launchesOver.trans hw.2⟩
  apply Triple.bind hstate
  intro _
  apply Triple.bind openLog_passing
  intro _
  apply Triple.bind popen_passing
  intro h
  exact (Maintained.launched_spec passing_records passing_maintained h).pre fun w hw => ⟨rfl, hw⟩

end Launch

/-- The pidfile is gone. -/
def Unlinked (before : List Sight) (passed : Bool) (w : World) : Prop :=
  Passing before passed w ∧ w.pidfile = none

theorem unlinked_ending :
    Ending (Unlinked before passed) (fun _ => Unlinked before passed) where
  lasting _ := passing_lasting.and (lasting_pidfile fun text => text = none)
  signalled _ _ h := ⟨h.1.also rfl, h.2⟩
  gone _ _ h _ := h
  terminated _ _ h := ⟨h.1.also rfl, h.2⟩

theorem unlink_passing : Triple (Passing before passed) (unlinkPidfile env)
    (fun _ => Unlinked before passed) (fun _ => Passing before passed) := by
  apply Triple.bind (interact_spec passing_lasting)
  intro a
  apply Triple.of_ite
  · intro _
    apply Triple.get_bind
    intro w hw
    have hsee : Triple (fun v => v = w) (see (.undeleted w.abandons))
        (fun _ => Passing before passed) (fun _ => Passing before passed) :=
      Triple.of_modify fun v hv => hv ▸ hw.also rfl
    exact Triple.bind hsee fun _ => Triple.of_throw fun v hv => hv
  · exact fun _ => Triple.of_modify fun w hw => ⟨hw, rfl⟩

theorem terminate_passing : Triple (Passing before passed) (terminate env)
    (fun _ => Unlinked before passed) (fun _ => Passing before passed) := by
  apply Triple.get_bind
  intro w hw
  have hhand : Triple (fun v => v = w)
      (modify fun v => { v with sup := { v.sup with proc := none }, ending := v.sup.proc } : M Unit)
      (fun _ => Passing before passed) (fun _ => Passing before passed) :=
    Triple.of_modify fun v hv => hv ▸ hw
  have hend : Triple (Unlinked before passed) (endProc env w.sup.proc)
      (fun _ => Unlinked before passed) (fun _ => Passing before passed) := by
    cases w.sup.proc with
    | none => exact Triple.of_pure fun v hv => hv
    | some h => exact (unlinked_ending.endProc_spec h).exn fun _ _ he => he.elim
  apply Triple.bind hhand
  intro _
  apply Triple.bind unlink_passing
  intro _
  apply Triple.bind hend
  intro _
  exact Triple.of_modify fun v hv => hv

/-- Once the pidfile is gone, there is nothing to launch over. -/
theorem start_unlinked : Triple (Unlinked before passed) (start env)
    (fun _ => Passing before passed) (fun _ => Passing before passed) := by
  have hstart : Triple (fun w => Passing before passed w ∧ launchesOver env w = false)
      (start env) (fun _ => Passing before (passed || false))
      (fun _ => Passing before (passed || false)) := start_passing
  rw [Bool.or_false] at hstart
  exact hstart.pre fun w hw => ⟨hw.1, Unorphaned.launchesOver (.inl hw.2)⟩

variable (env) in
/-- A search with nothing in hand passes over what the state and the answers say. -/
theorem adoptOrphan_passing (hw : Passing before passed w) : Triple (fun v => v = w)
    (adoptOrphan env) (fun _ => Passing before (passed || w.sup.proc.isNone && givesUp env w))
    (fun _ => Passing before (passed || w.sup.proc.isNone && givesUp env w)) := by
  have hsearched : Passing before passed (searched env w) := searched_keeps passing_lasting hw
  cases hsearches : w.sup.proc.isNone && w.pidfile.isSome with
  | false =>
    have hnone : (w.sup.proc.isNone && givesUp env w) = false := by
      rcases Bool.and_eq_false_iff.1 hsearches with hnone | hnone
      · rw [hnone, Bool.false_and]
      · rw [givesUp, hnone, Bool.false_and, Bool.false_and, Bool.and_false]
    rw [hnone, Bool.or_false]
    apply Triple.get_ite
    · exact Triple.of_false fun v hv => by simp [hv.1, hsearches] at hv
    · exact Triple.of_pure fun v hv => hv.1 ▸ hw
  | true =>
    obtain ⟨hfree, hfile⟩ := Bool.and_eq_true_iff.1 hsearches
    rw [givesUp, hfree, hfile, Bool.true_and, Bool.true_and]
    apply Triple.get_ite
    · apply Triple.bind (findOrphan_exact.pre fun v hv => hv.1)
      intro r
      cases r with
      | none =>
        apply Triple.get_bind
        rintro v ⟨rfl, hfound⟩
        rw [← hfound]
        have hsee : Triple (fun v => v = searched env w) (see (.giveUp (searched env w).orphan))
            (fun _ => Passing before (passed || (searched env w).orphan))
            (fun _ => Passing before (passed || (searched env w).orphan)) :=
          Triple.of_modify fun v hv => hv ▸ hsearched.see (.giveUp (searched env w).orphan)
        apply Triple.bind hsee
        intro _
        exact unlink_passing.post fun _ _ hv => hv.1
      | some h =>
        apply Triple.of_modify
        rintro v ⟨rfl, hfound⟩
        rw [← hfound, Option.isSome_some, Bool.not_true, Bool.false_and, Bool.or_false]
        exact hsearched
    · exact Triple.of_false fun v hv => by simp [hv.1, hsearches] at hv

/-- A launch is still to come, and it passes over an orphan. -/
def pending (env : ℕ → Answer) (w : World) : Bool :=
  w.sup.proc.isNone && (w.sup.cfg.manage && launchesOver env w)

/-- What has been passed over so far, and by the launch that follows a probe without an answer. -/
def Prepared (env : ℕ → Answer) (before : List Sight) (passed healthy : Bool) (w : World) : Prop :=
  ∃ sofar, Passing before sofar w ∧ (sofar || !healthy && pending env w) = passed

theorem Passing.prepared (h : Passing before passed w) (healthy : Bool)
    (hnone : (!healthy && pending env w) = false) : Prepared env before passed healthy w :=
  ⟨passed, h, by rw [hnone, Bool.or_false]⟩

/-- With nothing in hand there is no orphan. -/
def Steady (before : List Sight) (w : World) : Prop :=
  Passing before false w ∧ (w.sup.proc = none → Unorphaned w)

theorem steady_lasting : Lasting (Steady before) where
  event w e h := by
    refine ⟨passing_lasting.event w e h.1, fun hproc => unorphaned_lasting.event w e (h.2 ?_)⟩
    rwa [happen_sup] at hproc
  time _ _ _ h := h

theorem Steady.not_givesUp (h : Steady before w) :
    (w.sup.proc.isNone && givesUp env w) = false := by
  cases hproc : w.sup.proc with
  | none => rw [(h.2 hproc).givesUp, Bool.and_false]
  | some _ => rfl

theorem Steady.not_pending (h : Steady before w) : pending env w = false := by
  unfold pending
  cases hproc : w.sup.proc with
  | none => rw [(h.2 hproc).launchesOver, Bool.and_false, Bool.and_false]
  | some _ => rfl

theorem probe_steady : Triple (Steady before)
    (do if ← health env then adoptOrphan env; return true else return false)
    (Prepared env before false) (fun _ => Passing before false) := by
  apply Triple.bind (health_spec steady_lasting)
  intro healthy
  apply Triple.of_ite
  · intro _
    have hadopt : Triple (Steady before) (adoptOrphan env) (fun _ => Passing before false)
        (fun _ => Passing before false) := by
      apply Triple.of_each
      intro w hw
      simpa only [hw.not_givesUp, Bool.or_false] using adoptOrphan_passing env hw.1
    exact Triple.bind hadopt fun _ => Triple.of_pure fun v hv => hv.prepared true rfl
  · intro _
    apply Triple.of_pure
    intro v hv
    exact hv.1.prepared false (by rw [hv.not_pending, Bool.and_false])

theorem probe_passing (hw : Passing before false w) (hproc : w.sup.proc = none) :
    Triple (fun v => v = w)
      (do if ← health env then adoptOrphan env; return true else return false)
      (Prepared env before (passesBy env w .ensureRunning))
      (fun _ => Passing before (passesBy env w .ensureRunning)) := by
  have hnext : Passing before false (next env w) := passing_lasting.advance hw _
  have hfree : (next env w).sup.proc.isNone = true := by rw [next_sup, hproc]; rfl
  apply Triple.bind health_exact
  intro healthy
  apply Triple.of_ite
  · intro hhealthy
    by_cases hanswer : (env w.tick).healthy = true
    · have hadopt := adoptOrphan_passing env hnext
      rw [hfree, Bool.true_and, Bool.false_or] at hadopt
      rw [passesBy, if_pos hanswer]
      exact Triple.bind (hadopt.pre fun v hv => hv.2) fun _ =>
        Triple.of_pure fun v hv => hv.prepared true rfl
    · exact Triple.of_false fun v hv => hanswer (hv.1 ▸ hhealthy)
  · intro hsilent
    apply Triple.of_pure
    rintro v ⟨rfl, rfl⟩
    refine ⟨false, hnext, ?_⟩
    rw [passesBy, if_neg hsilent, pending, hfree, next_sup]
    simp

/-- The first half of `ensure_running`. As long as every process is recorded, a process of its own
that has exited leaves none behind. -/
theorem look_passing (hw : Passing before false w) (hrecorded : Recorded w) :
    Triple (fun v => v = w) (look env)
      (Prepared env before (w.sup.proc.isNone && passesBy env w .ensureRunning))
      (fun _ => Passing before (w.sup.proc.isNone && passesBy env w .ensureRunning)) := by
  cases hproc : w.sup.proc with
  | none => exact Triple.bind (dropCrashed_free hproc) fun _ => probe_passing hw hproc
  | some h =>
    have hdrop : Triple (fun v => v = w) (dropCrashed env) (fun _ => Steady before)
        (fun _ => Passing before false) := by
      apply (dropCrashed_exact hproc).post
      rintro _ v rfl
      have hpassing : Passing before false (next env w) := passing_lasting.advance hw _
      split_ifs with halive
      · exact ⟨hpassing, fun hnone => by simp [hproc] at hnone⟩
      · have honly : Only h (next env w) := (only_lasting h).advance (hrecorded.only hproc) _
        have hgone : Gone (next env w) := honly.gone (by simpa using halive)
        exact ⟨hpassing, fun _ => .inr hgone⟩
    exact Triple.bind hdrop fun _ => probe_steady

theorem requestedRestart_passing : Triple (Passing before passed) (requestedRestart env)
    (fun _ => Passing before passed) (fun _ => Passing before passed) := by
  have hpending : Keeps (Passing before passed) (setRestartPending false) :=
    Keeps.of_modify fun _ hw => hw
  apply Triple.bind hpending
  intro _
  apply Triple.bind (passing_maintained.setState_keeps _)
  intro _
  apply Triple.bind terminate_passing
  intro _
  exact start_unlinked

theorem endHung_passing : Triple (Prepared env before passed false) (endHung env)
    (fun _ w => ∃ sofar, Passing before sofar w ∧
      (sofar || w.sup.cfg.manage && launchesOver env w) = passed)
    (fun _ => Passing before passed) := by
  apply Triple.get_ite
  · have hmanaged : ∀ w, Prepared env before passed false w ∧ w.sup.proc.isSome = true →
        Passing before passed w := by
      rintro w ⟨⟨sofar, hpassing, rfl⟩, hsome⟩
      obtain ⟨h, hproc⟩ := Option.isSome_iff_exists.1 hsome
      simpa [pending, hproc] using hpassing
    refine (terminate_passing.pre hmanaged).post fun _ w hw => ⟨passed, hw.1, ?_⟩
    rw [Unorphaned.launchesOver (.inl hw.2), Bool.and_false, Bool.or_false]
  · apply Triple.of_pure
    rintro w ⟨⟨sofar, hpassing, rfl⟩, hnone⟩
    refine ⟨sofar, hpassing, ?_⟩
    have hfree : w.sup.proc.isNone = true := by simpa using hnone
    rw [pending, hfree]
    simp

theorem withoutRestart_passing (healthy : Bool) : Triple (Prepared env before passed healthy)
    (withoutRestart env healthy) (fun _ => Passing before passed)
    (fun _ => Passing before passed) := by
  have hpending : Triple (Prepared env before passed healthy) (setRestartPending false)
      (fun _ => Prepared env before passed healthy) (fun _ => Passing before passed) := by
    apply Triple.of_modify
    rintro w ⟨sofar, hpassing, rfl⟩
    have hsame : Alike (w.withPending false) w := ⟨rfl, rfl, rfl, rfl⟩
    refine ⟨sofar, hpassing, ?_⟩
    rw [pending, pending, ← hsame.launchesOver]
    rfl
  apply Triple.bind hpending
  intro _
  apply Triple.of_ite
  · rintro rfl
    refine (passing_maintained.setState_keeps _).pre ?_
    rintro w ⟨sofar, hpassing, rfl⟩
    simpa using hpassing
  · intro hsilent
    rw [Bool.not_eq_true] at hsilent
    subst hsilent
    apply Triple.bind endHung_passing
    intro _
    apply Triple.get_bind
    rintro w ⟨sofar, hpassing, rfl⟩
    apply Triple.of_ite
    · intro hmanage
      rw [hmanage, Bool.true_and]
      exact start_passing.pre fun v hv => by rw [hv]; exact ⟨hpassing, rfl⟩
    · intro hoff
      rw [Bool.not_eq_true] at hoff
      rw [hoff, Bool.false_and, Bool.or_false]
      apply Triple.bind ((passing_maintained.setState_keeps _).pre fun v hv => hv ▸ hpassing)
      intro _
      exact Triple.of_throw fun v hv => hv

theorem ensureRunning_passing (hw : Passing before false w) (hrecorded : Recorded w) :
    Triple (fun v => v = w) (ensureRunning env)
      (fun _ => Passing before (w.sup.proc.isNone && passesBy env w .ensureRunning))
      (fun _ => Passing before (w.sup.proc.isNone && passesBy env w .ensureRunning)) := by
  apply Triple.bind (look_passing hw hrecorded)
  intro healthy
  apply Triple.get_ite
  · refine requestedRestart_passing.pre ?_
    rintro v ⟨⟨sofar, hpassing, hpassed⟩, hrestart⟩
    obtain ⟨h, hproc⟩ := Option.isSome_iff_exists.1 (Bool.and_eq_true_iff.1 hrestart).2
    rw [pending, hproc, Option.isNone_some, Bool.false_and, Bool.and_false,
      Bool.or_false] at hpassed
    rwa [← hpassed]
  · exact (withoutRestart_passing healthy).pre fun v hv => hv.1

theorem restart_passing : Keeps (Passing before passed) (restart env) := by
  apply Triple.get_ite
  · apply Triple.bind ((passing_maintained.setState_keeps _).pre fun w hw => hw.1)
    intro _
    apply Triple.bind terminate_passing
    intro _
    apply Triple.bind start_unlinked
    intro _
    exact Triple.of_pure fun w hw => hw
  · exact Triple.of_pure fun w hw => hw.1

theorem maybeStopIdle_passing (hw : Passing before false w) : Triple (fun v => v = w)
    (maybeStopIdle env)
    (fun _ => Passing before (w.sup.proc.isNone && passesBy env w .maybeStopIdle))
    (fun _ => Passing before (w.sup.proc.isNone && passesBy env w .maybeStopIdle)) := by
  have hadopt := adoptOrphan_passing env hw
  rw [Bool.false_or] at hadopt
  apply Triple.bind hadopt
  intro _
  apply Keeps.get_bind
  intro v
  apply Keeps.of_ite
  · apply Keeps.bind (clock_spec passing_lasting)
    intro now
    exact Keeps.of_ite (Keeps.of_pure _) (passing_maintained.stop_keeps.bind_pure fun _ => true)
  · exact Keeps.of_pure _

/-- The probe of `details` between renders. -/
theorem probe_details (hw : Passing before false w) : Triple (fun v => v = w) (probe env)
    (fun _ => Passing before
      (w.sup.proc.isNone && ((env w.tick).healthy && givesUp env (next env w))))
    (fun _ => Passing before
      (w.sup.proc.isNone && ((env w.tick).healthy && givesUp env (next env w)))) := by
  have hnext : Passing before false (next env w) := passing_lasting.advance hw _
  apply Triple.bind health_exact
  intro healthy
  apply Triple.of_ite
  · intro hhealthy
    by_cases hanswer : (env w.tick).healthy = true
    · have hadopt := adoptOrphan_passing env hnext
      rw [Bool.false_or, next_sup] at hadopt
      rw [hanswer, Bool.true_and]
      exact Triple.bind (hadopt.pre fun v hv => hv.2) fun _ => passing_maintained.setState_keeps _
    · exact Triple.of_false fun v hv => hanswer (hv.1 ▸ hhealthy)
  · intro hsilent
    by_cases hanswer : (env w.tick).healthy = true
    · exact Triple.of_false fun v hv => hsilent (hv.1.trans hanswer)
    · rw [Bool.not_eq_true] at hanswer
      rw [hanswer, Bool.false_and, Bool.and_false]
      apply Triple.pre ?_ fun v hv => hv.2 ▸ hnext
      apply Keeps.get_bind
      intro v
      refine Keeps.of_ite ?_ (Keeps.of_pure _)
      exact Keeps.bind passing_maintained.forgetCrashed_keeps fun _ =>
        passing_maintained.setState_keeps _

theorem details_passing (hw : Passing before false w) : Triple (fun v => v = w) (details env)
    (fun _ => Passing before (w.sup.proc.isNone && passesBy env w .details))
    (fun _ => Passing before (w.sup.proc.isNone && passesBy env w .details)) := by
  have hrefresh : Triple (fun v => v = w) (refresh env w.sup)
      (fun _ => Passing before (w.sup.proc.isNone && passesBy env w .details))
      (fun _ => Passing before (w.sup.proc.isNone && passesBy env w .details)) := by
    apply Triple.of_ite
    · intro hbusy
      rw [passesBy, hbusy, Bool.not_true, Bool.false_and, Bool.false_and, Bool.false_and,
        Bool.and_false]
      exact passing_maintained.checkBusy_keeps.pre fun v hv => hv ▸ hw
    · intro hbusy
      rw [Bool.not_eq_true] at hbusy
      apply Triple.of_ite
      · intro hstate
        rw [passesBy, hbusy, hstate, Bool.not_false, Bool.true_and, Bool.true_and]
        exact probe_details hw
      · intro hstate
        rw [Bool.not_eq_true] at hstate
        rw [passesBy, hstate, Bool.and_false, Bool.false_and, Bool.false_and, Bool.and_false]
        exact Triple.of_pure fun v hv => hv ▸ hw
  apply Triple.get_bind
  rintro v rfl
  apply Triple.bind hrefresh
  intro _
  exact Keeps.get_bind fun _ => Keeps.of_pure _

variable (env) in
/-- As long as every process is recorded, an operation passes over an orphan exactly if the state
and the answers to come say so. -/
theorem perform_passing (op : Op) (hw : Recorded w) :
    Passing w.seen (overlooks env w op) (perform env w op) := by
  have hstart : Passing w.seen false { w with ending := none } := passing_start _
  have hrequest : Keeps (Passing w.seen false) (setRestartPending true) :=
    Keeps.of_modify fun _ h => h
  have hnone : passesBy env { w with ending := none } op = false → overlooks env w op = false := by
    intro hpasses
    rw [overlooks, hpasses, Bool.and_false]
  cases op with
  | ensureRunning => exact (ensureRunning_passing hstart hw).state
  | maybeStopIdle =>
    exact ((maybeStopIdle_passing hstart).bind fun _ => Keeps.of_pure ()).state
  | details => exact ((details_passing hstart).bind fun _ => Keeps.of_pure ()).state
  | restart => exact hnone rfl ▸ (restart_passing.bind_pure fun _ => ()).state hstart
  | requestRestart => exact hnone rfl ▸ hrequest.state hstart
  | stop => exact hnone rfl ▸ passing_maintained.stop_keeps.state hstart
  | markBusy => exact hnone rfl ▸ passing_maintained.markBusy_keeps.state hstart
  | markIdle => exact hnone rfl ▸ passing_maintained.markIdle_keeps.state hstart
  | newWorker cfg =>
    exact hnone rfl ▸ (passing_maintained.newWorker_keeps fun _ _ h => h).state hstart

theorem overlooks_iff {op : Op} (hw : Recorded w) :
    overlooks env w op = true ↔ ∃ s ∈ sights env w op, passesOver s = true := by
  obtain ⟨more, hmore, hpassed⟩ := perform_passing env op hw
  rw [List.append_cancel_left ((seen_perform env w op).symm.trans hmore), ← hpassed,
    List.any_eq_true]

end Overlooking
end TaskQueue.ComfyUIOrphans
