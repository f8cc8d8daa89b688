import TaskQueue.ComfyUIInvariants
import TaskQueue.StepRuns

/-!
# What is seen of the supervisor

Every operation adds to what has been seen. `Unless bad P` is for invariants that only
hold as long as nothing bad has been seen.
-/

namespace TaskQueue.ComfyUI
open StateExceptions StepRuns

/-- A new process takes the next number. -/
theorem insts_cons {w w' : World} {q : Process} (hprocesses : w'.processes = q :: w.processes)
    (hnext : w'.nextInst = w.nextInst + 1) (hinst : q.inst = w.nextInst)
    (h : ∀ p ∈ w.processes, p.inst < w.nextInst) : ∀ p ∈ w'.processes, p.inst < w'.nextInst := by
  intro p hp
  rw [hprocesses] at hp
  rcases List.mem_cons.1 hp with rfl | hp
  · omega
  · have := h p hp
    omega

section Seen
variable {P : List Sight → Prop} (hP : ∀ seen s, P seen → P (seen ++ [s]))
include hP

theorem seen_lasting : Lasting (fun w => P w.seen) where
  event w e h := by
    cases e with
    | exit inst => exact h
    | spawn pid mainPy =>
      simp only [World.happen]
      split
      · exact h
      · exact hP _ _ h
  time _ _ _ h := h

/-- What another sight leaves true of those seen so far outlasts all that happens. -/
theorem seen_maintained : Maintained (fun w => P w.seen) (fun w => P w.seen)
    (fun _ w => P w.seen) (fun _ w => P w.seen) where
  lasting := seen_lasting hP
  lasting_clear := seen_lasting hP
  lasting_handed _ := seen_lasting hP
  ending := {
    lasting _ := seen_lasting hP
    signalled _ _ h := hP _ _ h
    gone _ _ h _ := h
    terminated _ _ h := hP _ _ h }
  of_clear _ h := h
  fields _ _ _ _ _ h := h
  dead _ _ h _ _ := h
  drop _ h := h
  unlink _ h := h
  undeleted _ h := hP _ _ h
  hand _ _ h _ := h
  unlink_handed _ _ h := h
  undeleted_handed _ _ h := hP _ _ h
  done _ h := h
  resume _ h := h
  unended _ _ h := hP _ _ h

theorem seen_adopts : Adopts (fun w => P w.seen) (fun w => P w.seen) where
  adopt _ _ _ h _ _ _ _ := h
  giveUp _ h _ := hP _ _ h

theorem seen_launches :
    Launches (fun w => P w.seen) (fun h w => w.sup.proc = some h ∧ P w.seen) where
  lasting h := (lasting_sup fun sup => sup.proc = some h).and (seen_lasting hP)
  proc _ _ h := h.1
  unopened _ h := hP _ _ h
  unlaunched _ h := hP _ _ (hP _ _ h)
  child _ _ h _ _ := ⟨rfl, hP _ _ h⟩
  unrecorded _ _ _ h _ := hP _ _ h.2
  recorded _ _ h := h.2

end Seen

/-- What has been seen stays seen. -/
theorem perform_seen (env : ℕ → Answer) (w : World) (op : Op) :
    w.seen <+: (perform env w op).seen := by
  have hP : ∀ seen s, w.seen <+: seen → w.seen <+: seen ++ [s] :=
    fun seen s h => h.trans (List.prefix_append seen [s])
  exact Maintained.perform_keeps (I := fun v => w.seen <+: v.seen) (seen_launches hP)
    (seen_maintained hP) (seen_adopts hP) (fun _ _ h => h) (fun _ _ _ h => h) List.prefix_rfl op

/-- What is seen in one operation. -/
def sights (env : ℕ → Answer) (w : World) (op : Op) : List Sight :=
  (perform env w op).seen.drop w.seen.length

theorem seen_perform (env : ℕ → Answer) (w : World) (op : Op) :
    (perform env w op).seen = w.seen ++ sights env w op :=
  (List.prefix_iff_eq_append.1 (perform_seen env w op)).symm

/-- Nothing bad has been seen since. -/
def Clean (bad : Sight → Bool) (before : List Sight) (w : World) : Prop :=
  ∃ more, w.seen = before ++ more ∧ ∀ s ∈ more, bad s = false

section Clean
variable {bad : Sight → Bool} {before : List Sight} {w : World}

theorem clean_start (w : World) : Clean bad w.seen w := ⟨[], by simp, by simp⟩

theorem Clean.see (h : Clean bad before w) {s : Sight} (hs : bad s = false) :
    Clean bad before (w.see s) := by
  obtain ⟨more, hseen, hclean⟩ := h
  refine ⟨more ++ [s], by simp [World.see, hseen], fun x hx => ?_⟩
  rcases List.mem_append.1 hx with hx | hx
  · exact hclean x hx
  · rw [List.mem_singleton.1 hx]
    exact hs

theorem clean_lasting (hforeign : ∀ clash, bad (.foreign clash) = false) :
    Lasting (Clean bad before) where
  event w e h := by
    cases e with
    | exit inst => exact h
    | spawn pid mainPy =>
      simp only [World.happen]
      split
      · exact h
      · exact h.see (hforeign _)
  time w now tick h := h

theorem Clean.sights {env : ℕ → Answer} {op : Op}
    (h : Clean bad w.seen (perform env w op)) : ∀ s ∈ sights env w op, bad s = false := by
  obtain ⟨more, hseen, hclean⟩ := h
  rwa [List.append_cancel_left ((seen_perform env w op).symm.trans hseen)]

end Clean

/-- `P`, unless something bad has been seen. -/
def Unless (bad : Sight → Bool) (P : World → Prop) (w : World) : Prop :=
  (∀ s ∈ w.seen, bad s = false) → P w

section Unless
variable {bad : Sight → Bool} {P Q : World → Prop} {w w' : World}

theorem Unless.congr (h : Unless bad P w) (hseen : w'.seen = w.seen) (hPQ : P w → Q w') :
    Unless bad Q w' := fun hclean => hPQ (h (hseen ▸ hclean))

theorem Unless.sighted (h : Unless bad P w) {s : Sight} (hseen : w'.seen = w.seen ++ [s])
    (hPQ : bad s = false → P w → Q w') : Unless bad Q w' := by
  intro hclean
  rw [hseen] at hclean
  refine hPQ (hclean s (by simp)) (h fun x hx => hclean x ?_)
  exact List.mem_append_left _ hx

/-- Somebody else starts a process. -/
def World.spawned (w : World) (pid : Pid) (mainPy : Bool) : World :=
  { w.see (.foreign (w.clash pid mainPy)) with
    processes := ⟨w.nextInst, pid, false, mainPy⟩ :: w.processes
    nextInst := w.nextInst + 1 }

theorem lasting_unless (hexit : ∀ w inst, P w → P (w.happen (.exit inst)))
    (hspawn : ∀ w pid mainPy, w.withPid pid = none →
      bad (.foreign (w.clash pid mainPy)) = false → P w → P (w.spawned pid mainPy))
    (htime : ∀ w now tick, P w → P { w with now := now, tick := tick }) :
    Lasting (Unless bad P) where
  event w e h := by
    cases e with
    | exit inst => exact h.congr rfl (hexit w inst)
    | spawn pid mainPy =>
      simp only [World.happen]
      split
      · exact h
      · next hfree =>
        have hpid : w.withPid pid = none := by simpa using hfree
        exact Unless.sighted h rfl (hspawn w pid mainPy hpid)
  time w now tick h := h.congr rfl (htime w now tick)

theorem Lasting.unless (hP : Lasting P) : Lasting (Unless bad P) :=
  lasting_unless (fun w inst h => hP.event w (.exit inst) h)
    (fun w pid mainPy hfree _ h => by
      have hevent := hP.event w (.spawn pid mainPy) h
      simpa [World.happen, hfree, World.spawned] using hevent)
    hP.time

/-- As long as nothing bad has been seen and each operation shows nothing bad, what each
operation keeps unless something bad has been seen holds all along. -/
theorem throughout_unless {env : ℕ → Answer} {ops : List Op}
    (hkeeps : ∀ v op, Unless bad P v → Unless bad P (perform env v op)) (hw : P w)
    (hseen : ∀ s ∈ w.seen, bad s = false)
    (hops : Along (step env) (fun v op => ∀ s ∈ sights env v op, bad s = false) w ops) :
    Throughout (step env) P w ops := by
  refine Throughout.mono (Q := fun v => Unless bad P v ∧ ∀ s ∈ v.seen, bad s = false)
    (fun v hv => hv.1 hv.2) (throughout_of_along ?_ ⟨fun _ => hw, hseen⟩ hops)
  intro v op u hv hop hu
  cases hu
  refine ⟨hkeeps v op hv.1, fun s hs => ?_⟩
  rw [seen_perform] at hs
  rcases List.mem_append.1 hs with hs | hs
  · exact hv.2 s hs
  · exact hop s hs

end Unless
end TaskQueue.ComfyUI
