import TaskQueue.ComfyUIInvariants

/-!
# What there is to adopt

Whether a call finds a process to take over is told beforehand, by the state and by the
answers that the world gives next: the probe, the pidfile and what `ps` shows under the pid
in it.
-/

namespace TaskQueue.ComfyUI
open StateExceptions

section Answers
variable (env : ℕ → Answer)

/-- The world once it has given its next answer. -/
def next (w : World) : World := w.advance (env w.tick)

/-- The pid that is read from the pidfile. -/
def recorded (w : World) : Option Pid :=
  match w.pidfile with
  | some (.number pid) => if (env w.tick).fails then none else some pid
  | _ => none

/-- `ps` shows `main.py` under the pid. -/
def shown (w : World) (pid : Pid) : Bool :=
  !(env w.tick).fails && ((next env w).withPid pid).any Process.mainPy

/-- A ComfyUI is found behind the pidfile. -/
def found (w : World) : Bool :=
  (recorded env w).any fun pid => pid != 0 && shown env (next env w) pid

/-- The world after the search; `ps` is asked only if there is a pid. -/
def searched (w : World) : World :=
  if (recorded env w).any (· != 0) then next env (next env w) else next env w

/-- The probe answers, and a ComfyUI is found behind the pidfile. -/
def takesOver (w : World) : Bool := (env w.tick).healthy && found env (next env w)

/-- A look leaves a process in hand: its own one is still running, or there is one to take
over, also after its own one has exited. -/
def looksManaged (w : World) : Bool :=
  match w.sup.proc with
  | none => takesOver env w
  | some h => ((next env w).target h).isSome || takesOver env ((next env w).withProc none)

end Answers

/-- Nothing is managed. -/
def Unmanaged (w : World) : Prop := w.sup.proc = none

theorem unmanaged_lasting : Lasting Unmanaged := lasting_sup fun sup => sup.proc = none

section Exact
variable {env : ℕ → Answer} {w : World} {E : Exn → World → Prop}

@[simp] theorem next_sup : (next env w).sup = w.sup := advance_sup w _

@[simp] theorem searched_sup : (searched env w).sup = w.sup := by
  unfold searched
  split_ifs <;> simp

/-- The world gives its next answer, from any state with `P`. -/
theorem interact_next {P : World → Prop} : Triple P (interact env)
    (fun a v => ∃ u, P u ∧ a = env u.tick ∧ v = next env u) E := by
  apply Triple.get_bind
  intro u hu
  have hset : Triple (fun v => v = u) (set (u.advance (env u.tick)) : M Unit)
      (fun _ v => v = next env u) E := Triple.of_set fun _ _ => rfl
  apply Triple.bind hset
  intro _
  exact Triple.of_pure fun v hv => ⟨u, hu, rfl, hv⟩

theorem health_exact : Triple (fun v => v = w) (health env)
    (fun r v => r = (env w.tick).healthy ∧ v = next env w) E :=
  Triple.bind (interact_exact w) fun _ => Triple.of_pure fun _ hv => ⟨by rw [hv.1], hv.2⟩

theorem readPid_exact : Triple (fun v => v = w) (readPid env)
    (fun r v => v = next env w ∧ r = recorded env w) E := by
  apply Triple.bind (interact_exact w)
  intro a
  apply Triple.get_bind
  intro v hv
  obtain ⟨rfl, rfl⟩ := hv
  have hfile : (w.advance (env w.tick)).pidfile = w.pidfile := advance_pidfile w _
  split
  · next pid hpid => exact Triple.of_pure fun u hu => ⟨hu, by rw [recorded, ← hfile, hpid]⟩
  · next hpid =>
    refine Triple.of_pure fun u hu => ⟨hu, ?_⟩
    rw [recorded, ← hfile]
    split
    · next pid h => exact absurd h (hpid pid)
    · rfl

theorem adoptComfyui_exact (pid : Pid) : Triple (fun v => v = w) (adoptComfyui env pid)
    (fun r v => v = next env w ∧ r.isSome = shown env w pid) E := by
  apply Triple.bind (interact_exact w)
  intro a
  apply Triple.get_bind
  intro v hv
  obtain ⟨rfl, rfl⟩ := hv
  apply Triple.of_ite
  · exact fun h => Triple.of_pure fun u hu => ⟨hu, by simpa [shown, next] using h⟩
  · exact fun h => Triple.of_pure fun u hu => ⟨hu, by simpa [shown, next] using h⟩

/-- A handle is found exactly if a pid is read and `ps` shows a ComfyUI under it. -/
theorem findOrphan_exact : Triple (fun v => v = w) (findOrphan env)
    (fun r v => v = searched env w ∧ r.isSome = found env w) E := by
  apply Triple.bind readPid_exact
  intro r
  cases r with
  | none =>
    exact Triple.of_pure fun v hv => ⟨by simp [searched, hv.1, ← hv.2], by simp [found, ← hv.2]⟩
  | some pid =>
    apply Triple.of_ite
    · exact fun hzero => Triple.of_pure fun v hv =>
        ⟨by simp [searched, hv.1, ← hv.2, hzero], by simp [found, ← hv.2, hzero]⟩
    · intro hpid
      by_cases hread : recorded env w = some pid
      · apply ((adoptComfyui_exact pid).pre fun v hv => hv.1).post
        intro r v hv
        exact ⟨by simp [searched, hv.1, hread, hpid], by simp [found, hread, hv.2, hpid]⟩
      · exact Triple.of_false fun v hv => hread hv.2.symm

/-- `poll` of a handle in hand. -/
theorem childAlive_exact {h : Handle} (hproc : w.sup.proc = some h) :
    Triple (fun v => v = w) (childAlive env)
      (fun alive v => v = next env w ∧ alive = ((next env w).target h).isSome) E := by
  have hrunning : Triple (fun v => v = w) (running env h)
      (fun alive v => v = next env w ∧ alive = ((next env w).target h).isSome) E := by
    apply Triple.bind (interact_exact w)
    intro a
    apply Triple.get_bind
    intro v hv
    obtain ⟨-, rfl⟩ := hv
    exact Triple.of_pure fun u hu => ⟨hu, rfl⟩
  apply Triple.get_bind
  intro v hv
  rw [hv, hproc]
  exact hrunning

/-- The crash check finds nothing in hand. -/
theorem dropCrashed_free (hproc : w.sup.proc = none) :
    Triple (fun v => v = w) (dropCrashed env) (fun _ v => v = w) E := by
  have hcrashed : Triple (fun v => v = w) (crashed env) (fun dead v => v = w ∧ dead = false) E := by
    apply Triple.get_ite
    · exact Triple.of_false fun v hv => by simp [hv.1, hproc] at hv
    · exact Triple.of_pure fun v hv => ⟨hv.1, rfl⟩
  apply Triple.bind hcrashed
  intro dead
  apply Triple.of_ite
  · exact fun hdead => Triple.of_false fun v hv => by simp [hv.2] at hdead
  · exact fun _ => Triple.of_pure fun v hv => hv.1

/-- The crash check drops the handle of a process that has exited. -/
theorem dropCrashed_exact {h : Handle} (hproc : w.sup.proc = some h) :
    Triple (fun v => v = w) (dropCrashed env) (fun _ v => v =
      if ((next env w).target h).isSome then next env w else (next env w).withProc none) E := by
  have hcrashed : Triple (fun v => v = w) (crashed env)
      (fun dead v => v = next env w ∧ dead = !((next env w).target h).isSome) E := by
    apply Triple.get_ite
    · apply Triple.bind ((childAlive_exact hproc).pre fun v hv => hv.1)
      intro alive
      exact Triple.of_pure fun v hv => ⟨hv.1, by rw [hv.2]⟩
    · exact Triple.of_false fun v hv => by simp [hv.1, hproc] at hv
  apply Triple.bind hcrashed
  intro dead
  cases halive : ((next env w).target h).isSome with
  | true =>
    rw [if_pos rfl]
    apply Triple.of_ite
    · exact fun hdead => Triple.of_false fun v hv => by simp [hv.2] at hdead
    · exact fun _ => Triple.of_pure fun v hv => hv.1
  | false =>
    rw [if_neg Bool.false_ne_true]
    apply Triple.of_ite
    · exact fun _ => Triple.of_modify fun v hv => by rw [hv.1]; rfl
    · exact fun hlive => Triple.of_false fun v hv => hlive hv.2

theorem unlinkPidfile_unmanaged : Keeps Unmanaged (unlinkPidfile env) :=
  unlinkPidfile_keeps unmanaged_lasting (fun _ h => h) fun _ _ h => h

/-- After a probe that answered, only an orphan that is found gets into the hands of
`_adopt_orphan`. -/
theorem adoptOrphan_unmanaged (hproc : w.sup.proc = none) (hanswer : (env w.tick).healthy = true)
    (hnone : takesOver env w = false) :
    Triple (fun v => v = next env w) (adoptOrphan env) (fun _ => Unmanaged)
      (fun _ => Unmanaged) := by
  have hfound : found env (next env w) = false := by simpa [takesOver, hanswer] using hnone
  have hfree : (next env w).sup.proc = none := by rw [next_sup, hproc]
  apply Triple.get_ite
  · apply Triple.bind (findOrphan_exact.pre fun v hv => hv.1)
    intro r
    cases r with
    | none =>
      apply Triple.get_bind
      intro v hv
      have hsee : Triple (fun u => u = v) (see (.giveUp v.orphan)) (fun _ => Unmanaged)
          (fun _ => Unmanaged) :=
        Triple.of_modify fun u hu => by simpa [Unmanaged, hu, World.see, hv.1] using hfree
      exact Triple.bind hsee fun _ => unlinkPidfile_unmanaged
    | some h => exact Triple.of_false fun v hv => by simp [hfound] at hv
  · exact Triple.of_pure fun v hv => hv.1 ▸ hfree

/-- The probe of a look, with nothing in hand and none to take over. -/
theorem probe_unmanaged (hproc : w.sup.proc = none) (hnone : takesOver env w = false) :
    Triple (fun v => v = w)
      (do if ← health env then adoptOrphan env; return true else return false)
      (fun _ => Unmanaged) (fun _ => Unmanaged) := by
  apply Triple.bind health_exact
  intro healthy
  apply Triple.of_ite
  · intro hhealthy
    by_cases hanswer : (env w.tick).healthy = true
    · have hadopt := adoptOrphan_unmanaged hproc hanswer hnone
      exact Triple.bind (hadopt.pre fun v hv => hv.2) fun _ => Keeps.of_pure _
    · exact Triple.of_false fun v hv => hanswer (hv.1 ▸ hhealthy)
  · intro _
    exact Triple.of_pure fun v hv => show Unmanaged v by simpa [Unmanaged, hv.2] using hproc

/-- A look that finds no process leaves none in hand. -/
theorem look_unmanaged (hnone : looksManaged env w = false) :
    Triple (fun v => v = w) (look env) (fun _ => Unmanaged) (fun _ => Unmanaged) := by
  unfold looksManaged at hnone
  cases hproc : w.sup.proc with
  | none =>
    rw [hproc] at hnone
    exact Triple.bind (dropCrashed_free hproc) fun _ => probe_unmanaged hproc hnone
  | some h =>
    rw [hproc] at hnone
    obtain ⟨hexited, hnone⟩ := Bool.or_eq_false_iff.1 hnone
    have hdrop : Triple (fun v => v = w) (dropCrashed env)
        (fun _ v => v = (next env w).withProc none) (fun _ => Unmanaged) := by
      apply (dropCrashed_exact hproc).post
      intro _ v hv
      rwa [hexited, if_neg Bool.false_ne_true] at hv
    exact Triple.bind hdrop fun _ => probe_unmanaged rfl hnone

end Exact
end TaskQueue.ComfyUI
