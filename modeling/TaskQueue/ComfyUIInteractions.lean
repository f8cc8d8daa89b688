import TaskQueue.ComfyUISupervisor

/-!
# What the supervisor's interactions leave alone

Between two interactions processes come and go and time passes; the supervisor, the
pidfile and the handle being ended stay as they are. What events and time leave true is
`Lasting`: the methods that only look keep it.
-/

namespace TaskQueue.ComfyUI
open StateExceptions

section Happen
variable (w : World)

@[simp] theorem happen_sup (e : OsEvent) : (w.happen e).sup = w.sup := by
  cases e with
  | exit inst => rfl
  | spawn pid mainPy =>
    simp only [World.happen]
    split <;> rfl

@[simp] theorem happen_pidfile (e : OsEvent) : (w.happen e).pidfile = w.pidfile := by
  cases e with
  | exit inst => rfl
  | spawn pid mainPy =>
    simp only [World.happen]
    split <;> rfl

@[simp] theorem happen_ending (e : OsEvent) : (w.happen e).ending = w.ending := by
  cases e with
  | exit inst => rfl
  | spawn pid mainPy =>
    simp only [World.happen]
    split <;> rfl

end Happen

/-- What events and time leave true. -/
structure Lasting (I : World → Prop) : Prop where
  event : ∀ w e, I w → I (w.happen e)
  time : ∀ w now tick, I w → I { w with now := now, tick := tick }

theorem Lasting.advance {I : World → Prop} (hI : Lasting I) {w : World} (h : I w) (a : Answer) :
    I (w.advance a) := by
  have hfold : ∀ (es : List OsEvent) (w : World), I w → I (es.foldl World.happen w) := by
    intro es
    induction es with
    | nil => exact fun w h => h
    | cons e es ih => exact fun w h => ih _ (hI.event w e h)
  exact hI.time _ _ _ (hfold a.events w h)

theorem Lasting.and {I I' : World → Prop} (hI : Lasting I) (hI' : Lasting I') :
    Lasting (fun w => I w ∧ I' w) where
  event w e h := ⟨hI.event w e h.1, hI'.event w e h.2⟩
  time w now tick h := ⟨hI.time w now tick h.1, hI'.time w now tick h.2⟩

theorem lasting_sup (P : Supervisor → Prop) : Lasting (fun w => P w.sup) where
  event w e h := by rwa [happen_sup]
  time _ _ _ h := h

theorem lasting_pidfile (P : Option PidText → Prop) : Lasting (fun w => P w.pidfile) where
  event w e h := by rwa [happen_pidfile]
  time _ _ _ h := h

theorem lasting_ending (P : Option Handle → Prop) : Lasting (fun w => P w.ending) where
  event w e h := by rwa [happen_ending]
  time _ _ _ h := h

section Advance
variable (w : World) (a : Answer)

@[simp] theorem advance_sup : (w.advance a).sup = w.sup :=
  (lasting_sup fun sup => sup = w.sup).advance rfl a

@[simp] theorem advance_pidfile : (w.advance a).pidfile = w.pidfile :=
  (lasting_pidfile fun text => text = w.pidfile).advance rfl a

end Advance

section Interact
variable {env : ℕ → Answer} {I P : World → Prop} {E : Exn → World → Prop}

theorem of_interact {Q : Answer → World → Prop} (h : ∀ w a, P w → Q a (w.advance a)) :
    Triple P (interact env) Q E := by
  apply Triple.get_bind
  intro w hw
  have hset : Triple (fun v => v = w) (set (w.advance (env w.tick)) : M Unit)
      (fun _ v => v = w.advance (env w.tick)) E := Triple.of_set fun _ _ => rfl
  apply Triple.bind hset
  intro _
  apply Triple.of_pure
  intro v hv
  rw [hv]
  exact h w _ hw

/-- The world gives its next answer. -/
theorem interact_exact (w : World) : Triple (fun v => v = w) (interact env)
    (fun a v => a = env w.tick ∧ v = w.advance (env w.tick)) E := by
  apply Triple.get_bind
  intro v hv
  subst hv
  have hset : Triple (fun u => u = v) (set (v.advance (env v.tick)) : M Unit)
      (fun _ u => u = v.advance (env v.tick)) E := Triple.of_set fun _ _ => rfl
  apply Triple.bind hset
  intro _
  exact Triple.of_pure fun u hu => ⟨rfl, hu⟩

variable (hI : Lasting I)
include hI

theorem interact_spec : Triple I (interact env) (fun _ => I) E :=
  of_interact fun _ a hw => hI.advance hw a

theorem clock_spec : Triple I (clock env) (fun _ => I) E := by
  apply Triple.bind (interact_spec hI)
  intro _
  apply Triple.get_bind
  intro w hw
  exact Triple.of_pure fun v hv => hv ▸ hw

theorem health_spec : Triple I (health env) (fun _ => I) E := by
  apply Triple.bind (interact_spec hI)
  intro a
  exact Triple.of_pure fun _ hw => hw

theorem sleep_spec (seconds : ℕ) : Triple I (sleep env seconds) (fun _ => I) E := by
  apply Triple.bind (interact_spec hI)
  intro _
  exact Triple.of_modify fun w hw => hI.time w _ w.tick hw

/-- `poll` says whether the handle has a process at that moment. -/
theorem running_spec (h : Handle) :
    Triple I (running env h) (fun alive w => I w ∧ alive = (w.target h).isSome) E := by
  apply Triple.bind (interact_spec hI)
  intro _
  apply Triple.get_bind
  intro w hw
  apply Triple.of_pure
  intro v hv
  rw [hv]
  exact ⟨hw, rfl⟩

theorem childAlive_lasting : Triple I (childAlive env) (fun _ => I) E := by
  apply Triple.get_bind
  intro w hw
  cases w.sup.proc with
  | none => exact Triple.of_pure fun v hv => hv ▸ hw
  | some h =>
    exact (running_spec hI h).conseq (fun v hv => hv ▸ hw) (fun _ _ hv => hv.1) fun _ _ he => he

theorem crashed_lasting : Triple I (crashed env) (fun _ => I) E := by
  apply Triple.get_ite
  · apply Triple.bind ((childAlive_lasting hI).pre fun w hw => hw.1)
    intro alive
    exact Triple.of_pure fun w hw => hw
  · exact Triple.of_pure fun w hw => hw.1

theorem openLog_keeps (hsee : ∀ w, I w → I (w.see .unopened)) : Keeps I (openLog env) := by
  have hfailed : Keeps I (do see .unopened; throw .osError : M Unit) :=
    Keeps.bind (Keeps.of_modify hsee) fun _ => Keeps.of_throw _
  apply Keeps.bind (interact_spec hI)
  intro a
  exact Keeps.of_ite hfailed (Keeps.of_pure _)

theorem unlinkPidfile_keeps (hdelete : ∀ w, I w → I { w with pidfile := none })
    (hsee : ∀ w abandons, I w → I (w.see (.undeleted abandons))) :
    Keeps I (unlinkPidfile env) := by
  apply Keeps.bind (interact_spec hI)
  intro a
  apply Keeps.of_ite
  · exact Keeps.get_bind fun w =>
      Keeps.bind (Keeps.of_modify fun v => hsee v w.abandons) fun _ => Keeps.of_throw _
  · exact Keeps.of_modify hdelete

/-- What is read of the pidfile is what it says. -/
theorem readPid_spec : Triple I (readPid env)
    (fun r w => I w ∧ ∀ pid, r = some pid → w.pidfile = some (.number pid)) E := by
  apply Triple.bind (interact_spec hI)
  intro a
  apply Triple.get_bind
  intro w hw
  split
  · next pid hpid =>
    apply Triple.of_pure
    intro v hv
    refine ⟨hv ▸ hw, fun pid' hpid' => ?_⟩
    split at hpid'
    · contradiction
    · cases hpid'
      rw [hv, hpid]
  · exact Triple.of_pure fun v hv => ⟨hv ▸ hw, by simp⟩

/-- What is adopted is a process under the pid that was read, and it runs `main.py`. -/
theorem adoptComfyui_spec (pid : Pid) : Triple I (adoptComfyui env pid)
    (fun r w => I w ∧ ∀ h, r = some h →
      h = .adopted pid ∧ ∃ p, w.withPid pid = some p ∧ p.mainPy = true) E := by
  apply Triple.bind (interact_spec hI)
  intro a
  apply Triple.get_bind
  intro w hw
  apply Triple.of_ite
  · intro hfound
    have hmain : ∃ p, w.withPid pid = some p ∧ p.mainPy = true := by
      simpa [Option.any_eq_true] using (Bool.and_eq_true_iff.1 hfound).2
    apply Triple.of_pure
    intro v hv
    refine ⟨hv ▸ hw, fun h hh => ?_⟩
    cases hh
    exact ⟨rfl, hv ▸ hmain⟩
  · exact fun _ => Triple.of_pure fun v hv => ⟨hv ▸ hw, by simp⟩

/-- An orphan is found under the pid in the pidfile. -/
theorem findOrphan_spec : Triple I (findOrphan env)
    (fun r w => I w ∧ ∀ h, r = some h → ∃ pid p, h = .adopted pid ∧
      w.pidfile = some (.number pid) ∧ w.withPid pid = some p ∧ p.mainPy = true) E := by
  apply Triple.bind (readPid_spec hI)
  intro pid
  cases pid with
  | none => exact Triple.of_pure fun w hw => ⟨hw.1, by simp⟩
  | some pid =>
    apply Triple.of_ite
    · exact fun _ => Triple.of_pure fun w hw => ⟨hw.1, by simp⟩
    · intro _
      have hlasting : Lasting (fun w => I w ∧ w.pidfile = some (.number pid)) :=
        hI.and (lasting_pidfile fun text => text = some (.number pid))
      apply Triple.conseq (adoptComfyui_spec hlasting pid) (fun w hw => ⟨hw.1, hw.2 pid rfl⟩) ?_
        (fun _ _ he => he)
      intro r w hw
      refine ⟨hw.1.1, fun h hh => ?_⟩
      obtain ⟨hh, p, hp⟩ := hw.2 h hh
      exact ⟨pid, p, hh, hw.1.2, hp⟩

/-- The look changes what is in hand and what the pidfile says, and starts nothing. -/
theorem look_lasting
    (hproc : ∀ w proc, I w → I { w with sup := { w.sup with proc := proc } })
    (hdelete : ∀ w, I w → I { w with pidfile := none })
    (hgiveUp : ∀ w orphan, I w → I (w.see (.giveUp orphan)))
    (hundeleted : ∀ w abandons, I w → I (w.see (.undeleted abandons))) : Keeps I (look env) := by
  have hdrop : Keeps I (dropCrashed env) := by
    apply Keeps.bind (crashed_lasting hI)
    intro dead
    exact Keeps.of_ite (Keeps.of_modify fun w => hproc w none) (Keeps.of_pure _)
  have hadopt : Keeps I (adoptOrphan env) := by
    apply Triple.get_ite
    · apply Triple.bind ((findOrphan_spec hI).pre fun w hw => hw.1)
      intro r
      cases r with
      | none =>
        apply Triple.pre ?_ fun w hw => hw.1
        apply Keeps.get_bind
        intro w
        exact Keeps.bind (Keeps.of_modify fun v => hgiveUp v w.orphan) fun _ =>
          unlinkPidfile_keeps hI hdelete hundeleted
      | some h => exact Triple.of_modify fun w hw => hproc w _ hw.1
    · exact Triple.of_pure fun w hw => hw.1
  apply Keeps.bind hdrop
  intro _
  apply Keeps.bind (health_spec hI)
  intro healthy
  exact Keeps.of_ite (hadopt.bind_pure fun _ => true) (Keeps.of_pure _)

end Interact

section Rounds
variable {env : ℕ → Answer} {E : Exn → World → Prop}

theorem interact_later (t : Int) :
    Triple (fun w => t ≤ w.now) (interact env) (fun _ w => t ≤ w.now) E := by
  apply of_interact
  intro w a hw
  have hnow : (w.advance a).now = w.now + a.elapsed := rfl
  omega

theorem clock_later (t : Int) :
    Triple (fun w => t ≤ w.now) (clock env) (fun now w => t ≤ now ∧ t ≤ w.now) E := by
  apply Triple.bind (interact_later t)
  intro _
  apply Triple.get_bind
  intro w hw
  apply Triple.of_pure
  intro v hv
  rw [hv]
  exact ⟨hw, hw⟩

theorem childAlive_later (t : Int) :
    Triple (fun w => t ≤ w.now) (childAlive env) (fun _ w => t ≤ w.now) E := by
  apply Triple.get_bind
  intro w hw
  split
  · exact Triple.of_pure fun v hv => hv ▸ hw
  · apply Triple.pre ?_ fun v hv => hv ▸ hw
    apply Triple.bind (interact_later t)
    intro _
    exact Triple.get_bind fun v hv => Triple.of_pure fun u hu => hu ▸ hv

theorem health_later (t : Int) :
    Triple (fun w => t ≤ w.now) (health env) (fun _ w => t ≤ w.now) E :=
  Triple.bind (interact_later t) fun _ => Triple.of_pure fun _ hw => hw

theorem sleep_later (t : Int) (seconds : ℕ) :
    Triple (fun w => t ≤ w.now) (sleep env seconds) (fun _ w => t + seconds ≤ w.now) E := by
  apply Triple.bind (interact_later t)
  intro _
  apply Triple.of_modify
  intro w hw
  change t + (seconds : Int) ≤ w.now + seconds
  omega

/-- `_start` loops on the clock alone. The bound on the rounds is not what ends it: as
each round sleeps, the deadline has passed before they run out. -/
theorem startLoop_rounds {deadline t : Int} {rounds : ℕ} (h : deadline ≤ t + rounds)
    (extra : ℕ) :
    Agree (fun w => t ≤ w.now) (startLoop env (some deadline) (rounds + 1 + extra))
      (startLoop env (some deadline) (rounds + 1)) := by
  rw [Nat.add_right_comm]
  induction rounds generalizing t with
  | zero =>
    apply Agree.bind (clock_later t)
    intro now w hw
    have hpassed : ¬(some deadline).all (now < ·) := by
      have hnow : t ≤ now := hw.1
      simp only [Option.all_some, decide_eq_true_eq]
      omega
    rw [if_neg hpassed, if_neg hpassed]
  | succ rounds ih =>
    have hlater : deadline ≤ t + (2 : ℕ) + rounds := by omega
    have hagain : Agree (fun w => t ≤ w.now)
        (do sleep env 2; startLoop env (some deadline) (rounds + 1 + extra))
        (do sleep env 2; startLoop env (some deadline) (rounds + 1)) := by
      rw [Nat.add_right_comm]
      exact Agree.bind (sleep_later t 2) fun _ => ih hlater
    apply Agree.bind (clock_later t)
    intro now
    apply Agree.of_ite ?_ fun _ => Agree.refl _
    intro _
    apply Agree.bind ((childAlive_later t).pre fun w hw => hw.2)
    intro alive
    apply Agree.of_ite ?_ fun _ => Agree.refl _
    intro _
    apply Agree.bind (health_later t)
    intro healthy
    exact Agree.of_ite (fun _ => Agree.refl _) fun _ => hagain

end Rounds
end TaskQueue.ComfyUI
