import TaskQueue.ComfyUIOversights

/-!
# No orphan is lost

A launched ComfyUI is found again through the supervisor's handle or through the pidfile.
It is lost when the next one is launched over it: `ensure_running` looks at the pidfile
only if the probe succeeds, and `_start` overwrites it. It is also lost when adoption
takes its pid for a stale one.
-/

namespace TaskQueue.ComfyUIOrphans
open ComfyUI StateExceptions StepRuns

/-- Every running process that a supervisor launched is the managed one, or the pidfile
leads to it. -/
def Tracked (w : World) : Prop :=
  ∀ p ∈ w.processes, p.launched → w.sup.proc.any (names · p) ∨ w.pidfile = some (.number p.pid)

instance (w : World) : Decidable (Tracked w) := by
  unfold Tracked
  infer_instance

/-- A pid could not be recorded, or the signals did not end the process. -/
def ineffective : Sight → Bool
  | .unrecorded => true
  | .terminated survived => survived
  | _ => false

def loses (s : Sight) : Bool := passesOver s || ineffective s

theorem Recorded.tracked {w : World} (h : Recorded w) : Tracked w :=
  fun p hp hlaunched => .inr (h p hp hlaunched).1

theorem Gone.recorded {w : World} (h : Gone w) : Recorded w := by
  intro p hp hlaunched
  rw [h p hp] at hlaunched
  contradiction

/-- What the pidfile does not lead to is not running. -/
theorem Recorded.gone {w : World} (hw : Recorded w) (horphan : w.orphan = false) : Gone w := by
  intro p hp
  by_contra hlaunched
  have hlaunched' : p.launched = true := by simpa using hlaunched
  have hpid := (hw p hp hlaunched').1
  have hany : w.processes.any (fun q => q.pid = p.pid && q.launched) = true :=
    List.any_eq_true.2 ⟨p, hp, by simp [hlaunched']⟩
  rw [World.orphan, hpid] at horphan
  simp [hany] at horphan

theorem recorded_maintained : Maintained (Unless loses Recorded) (Unless loses Gone)
    (fun h w => Unless loses Recorded w ∧ Unless loses (Only h) w)
    (fun h => Unless loses (Only h)) where
  lasting := recorded_lasting.unless
  lasting_clear := gone_lasting.unless
  lasting_handed h := recorded_lasting.unless.and (only_lasting h).unless
  ending := {
    lasting h := (only_lasting h).unless
    signalled w h' h := h.sighted rfl fun _ hw => hw
    gone w h' h hnone := h.congr rfl fun hw => hw.gone hnone
    terminated w h' h := h.sighted rfl fun hs hw => by
      have hnone : w.target h' = none := by simpa [loses, passesOver, ineffective] using hs
      exact hw.gone hnone }
  of_clear w h := h.congr rfl Gone.recorded
  fields w sup _ hproc _ h := h.congr rfl fun hw p hp hlaunched =>
    ⟨(hw p hp hlaunched).1, fun h' hh' => (hw p hp hlaunched).2 h' (hproc ▸ hh')⟩
  dead w h' h hproc hnone := h.congr rfl fun hw => (hw.only hproc).gone hnone
  drop w h := h.congr rfl id
  unlink w h := h.congr rfl fun hw => Gone.recorded (w := { w with pidfile := none }) hw
  undeleted w h := h.sighted rfl fun _ => Gone.recorded
  hand w h' h hproc := ⟨h.congr rfl fun hw p hp hlaunched =>
    ⟨(hw p hp hlaunched).1, fun _ hnone => by cases hnone⟩, h.congr rfl fun hw => hw.only hproc⟩
  unlink_handed w h' h := h.2.congr rfl id
  undeleted_handed w h' h := h.1.sighted rfl fun _ hw => hw
  done w h := h.congr rfl id
  resume w h := h.congr rfl id
  unended w _ h := h.sighted rfl fun _ hw => hw

theorem recorded_adopts : Adopts (Unless loses Recorded) (Unless loses Gone) where
  adopt w pid p h _ hpidfile _ _ := h.congr rfl fun hw q hq hlaunched => by
    have hrecorded := (hw q hq hlaunched).1
    refine ⟨hrecorded, fun h' hh' => ?_⟩
    cases hh'
    rw [hpidfile] at hrecorded
    cases hrecorded
    simp [names]
  giveUp w h _ := h.sighted rfl fun hs hw =>
    hw.gone (by simpa [loses, passesOver, ineffective] using hs)

/-- A launch that passes over no orphan leaves the new process as the only one. -/
theorem recorded_launches : Launches (Unless loses Recorded)
    (fun h w => w.sup.proc = some h ∧ Unless loses (Only h) w) where
  lasting h := (lasting_sup fun sup => sup.proc = some h).and (only_lasting h).unless
  proc w h hw := hw.1
  unopened w h := h.sighted rfl fun _ hw => hw
  unlaunched w h := by
    have hlaunch : Unless loses Recorded (w.see (.launch w.orphan)) := h.sighted rfl fun _ hw => hw
    exact hlaunch.sighted rfl fun _ hw => hw
  child w a h _ _ := by
    refine ⟨rfl, h.sighted rfl fun hs hw p hp hlaunched => ?_⟩
    have hgone := hw.gone (by simpa [loses, passesOver, ineffective] using hs)
    rcases List.mem_cons.1 hp with rfl | hp
    · simp [names, World.see]
    · rw [hgone p hp] at hlaunched
      contradiction
  unrecorded w h text hw _ := hw.2.sighted rfl fun hs _ => by
    simp [loses, passesOver, ineffective] at hs
  recorded w h hw := hw.2.congr rfl fun honly p hp hlaunched => by
    have hnames := honly p hp hlaunched
    refine ⟨?_, fun h' hh' => ?_⟩
    · cases h <;> simp_all [names, Handle.pid]
    · have : h' = h := Option.some.inj (hh'.symm.trans hw.1)
      rw [this]
      exact hnames

/-- One operation. -/
theorem perform_recorded {env : ℕ → Answer} {w : World} {op : Op} (hw : Recorded w)
    (hseen : ∀ s ∈ w.seen, loses s = false)
    (heffective : ∀ s ∈ sights env w op, ¬ineffective s) (hkept : overlooks env w op = false) :
    Recorded (perform env w op) ∧ ∀ s ∈ (perform env w op).seen, loses s = false := by
  have hkeeps : Unless loses Recorded (perform env w op) := by
    refine Maintained.perform_keeps recorded_launches recorded_maintained recorded_adopts
      (fun w pending h => h.congr rfl id) (fun w cfg now h => ?_) (fun _ => hw) op
    exact h.congr rfl fun hw p hp hlaunched =>
      ⟨(hw p hp hlaunched).1, fun _ hnone => by cases hnone⟩
  have hclean : ∀ s ∈ (perform env w op).seen, loses s = false := by
    intro s hs
    rw [seen_perform] at hs
    rcases List.mem_append.1 hs with hs | hs
    · exact hseen s hs
    · have hspared : passesOver s = false := by
        by_contra hpasses
        have hover := (overlooks_iff hw).2 ⟨s, hs, by simpa using hpasses⟩
        cases hkept.symm.trans hover
      simpa [loses, hspared] using heffective s hs
  exact ⟨hkeeps hclean, hclean⟩

/-- A run in which every termination ends its process and every pid is recorded keeps track of
every process, if no operation overlooks an orphan: it does exactly if it launches over one or
gives one up. -/
theorem launched_tracked (env : ℕ → Answer) {w : World} {ops : List Op}
    (hforeign : ∀ p ∈ w.processes, p.launched = false) (hseen : w.seen = [])
    (heffective : Along (step env) (fun v op => ∀ s ∈ sights env v op, ¬ineffective s) w ops)
    (hkept : Along (step env) (fun v op => overlooks env v op = false) w ops) :
    Throughout (step env) Tracked w ops ∧
    ∀ v op, Recorded v → (overlooks env v op = true ↔
      ∃ s ∈ sights env v op, passesOver s = true) := by
  refine ⟨?_, fun v op hv => overlooks_iff hv⟩
  refine Throughout.mono (Q := fun v => Recorded v ∧ ∀ s ∈ v.seen, loses s = false)
    (fun v hv => hv.1.tracked) (throughout_of_along ?_ ⟨Gone.recorded hforeign, by simp [hseen]⟩
      (heffective.and hkept))
  intro v op u hv hop hu
  cases hu
  exact perform_recorded hv.1 hv.2 hop.1 hop.2

/-- The probe succeeds at the end of each start only. -/
def slowProbe (n : ℕ) : Answer where
  healthy := n = 7 || n = 17
  pid := if n < 10 then 100 else 101

theorem launched_tracked_oneWorker :
    Throughout (step slowProbe) Tracked beforeWorkers [.ensureRunning, .newWorker {}, .details] :=
  (launched_tracked slowProbe (by decide) rfl (by decide) (by decide)).1

/-- The probe of the second worker fails, and it launches a ComfyUI over the first one. -/
theorem orphan_lost :
    (exec (step slowProbe) beforeWorkers [.ensureRunning, .newWorker {}, .ensureRunning]).map
      (fun v => (v.seen, decide (Tracked v))) = some ([.launch false, .launch true], false) := by
  decide

end TaskQueue.ComfyUIOrphans
