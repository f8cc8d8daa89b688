import TaskQueue.ComfyUISights

/-!
# What becomes of a process that is to be restarted

A process in the supervisor's hands stays there until it is dead, or until a termination
drops it although it lives. A pending restart stays pending until `ensure_running` acts on
it. Together they keep a process that is to be restarted from being used again.
-/

namespace TaskQueue.ComfyUIRestarts
open ComfyUI StateExceptions

/-- Each process has a number of its own. -/
def Numbered (w : World) : Prop := ∀ p ∈ w.processes, p.inst < w.nextInst

/-- The process with this number is no longer running, and no other gets the number. -/
def Dead (i : ℕ) (w : World) : Prop := i < w.nextInst ∧ ∀ p ∈ w.processes, p.inst ≠ i

/-- The handle leads to the process with this number. -/
def LeadsTo (h : Handle) (i : ℕ) (w : World) : Prop := ∃ p, w.target h = some p ∧ p.inst = i

/-- The process is in the supervisor's hands. -/
def Held (i : ℕ) (w : World) : Prop := ∃ h, w.sup.proc = some h ∧ LeadsTo h i w

/-- It is there unless it is dead, and to be restarted if `pending` says so. -/
def Kept (pending : Bool) (i : ℕ) (w : World) : Prop :=
  i < w.nextInst ∧ (Dead i w ∨ Held i w ∧ (pending → w.sup.restartPending))

/-- The same of a process that is being ended. -/
def Leaving (h : Handle) (i : ℕ) (w : World) : Prop :=
  i < w.nextInst ∧ (Dead i w ∨ LeadsTo h i w)

section Table
variable {bad : Sight → Bool} {P : World → Prop} (hl : Lasting P)
  (hcongr : ∀ w w' : World, w'.processes = w.processes → w'.nextInst = w.nextInst → P w → P w')
include hl hcongr

/-- What is said of the processes alone concerns no operation. -/
theorem table_maintained : Maintained (Unless bad P) (Unless bad P) (fun _ => Unless bad P)
    (fun _ => Unless bad P) where
  lasting := hl.unless
  lasting_clear := hl.unless
  lasting_handed _ := hl.unless
  ending := {
    lasting _ := hl.unless
    signalled w _ h := h.sighted rfl fun _ => hcongr w _ rfl rfl
    gone _ _ h _ := h
    terminated w _ h := h.sighted rfl fun _ => hcongr w _ rfl rfl }
  of_clear _ h := h
  fields w _ _ _ _ h := h.congr rfl (hcongr w _ rfl rfl)
  dead _ _ h _ _ := h
  drop w h := h.congr rfl (hcongr w _ rfl rfl)
  unlink w h := h.congr rfl (hcongr w _ rfl rfl)
  undeleted w h := h.sighted rfl fun _ => hcongr w _ rfl rfl
  hand w _ h _ := h.congr rfl (hcongr w _ rfl rfl)
  unlink_handed w _ h := h.congr rfl (hcongr w _ rfl rfl)
  undeleted_handed w _ h := h.sighted rfl fun _ => hcongr w _ rfl rfl
  done w h := h.congr rfl (hcongr w _ rfl rfl)
  resume w h := h.congr rfl (hcongr w _ rfl rfl)
  unended w _ h := h.sighted rfl fun _ => hcongr w _ rfl rfl

omit hl in
theorem table_adopts : Adopts (Unless bad P) (Unless bad P) where
  adopt w _ _ h _ _ _ _ := h.congr rfl (hcongr w _ rfl rfl)
  giveUp w h _ := h.sighted rfl fun _ => hcongr w _ rfl rfl

/-- Of a launch it has to be known. -/
theorem table_launches (hchild : ∀ w a, P w → P (addChild a w)) :
    Launches (Unless bad P) (fun h w => w.sup.proc = some h ∧ Unless bad P w) where
  lasting h := (lasting_sup fun sup => sup.proc = some h).and hl.unless
  proc _ _ h := h.1
  unopened w h := h.sighted rfl fun _ => hcongr w _ rfl rfl
  unlaunched w h := by
    have hlaunch : Unless bad P (w.see (.launch w.orphan)) :=
      h.sighted rfl fun _ => hcongr w _ rfl rfl
    exact hlaunch.sighted rfl fun _ => hcongr _ _ rfl rfl
  child w a h _ _ := ⟨rfl, h.sighted rfl fun _ hP =>
    hcongr (addChild a w) _ rfl rfl (hchild w a hP)⟩
  unrecorded w _ _ h _ := h.2.sighted rfl fun _ => hcongr w _ rfl rfl
  recorded w _ h := h.2.congr rfl (hcongr w _ rfl rfl)

end Table

/-- Processes end, and others start under the next number. -/
theorem lasting_table {P : World → Prop}
    (hcongr : ∀ w w' : World, w'.processes = w.processes → w'.nextInst = w.nextInst → P w → P w')
    (hexit : ∀ w inst, P w → P (w.happen (.exit inst)))
    (hspawn : ∀ w pid mainPy, w.withPid pid = none → P w → P (w.spawned pid mainPy)) :
    Lasting P where
  event w e h := by
    cases e with
    | exit inst => exact hexit w inst h
    | spawn pid mainPy =>
      simp only [World.happen]
      split
      · exact h
      · next hfree => exact hspawn w pid mainPy (by simpa using hfree) h
  time w _ _ h := hcongr w _ rfl rfl h

theorem numbered_congr (w w' : World) (hprocesses : w'.processes = w.processes)
    (hinst : w'.nextInst = w.nextInst) (h : Numbered w) : Numbered w' := by
  intro p hp
  rw [hprocesses] at hp
  rw [hinst]
  exact h p hp

theorem numbered_lasting : Lasting Numbered :=
  lasting_table numbered_congr (fun _ _ h p hp => h p (List.mem_of_mem_filter hp))
    fun _ _ _ _ h => insts_cons rfl rfl rfl h

theorem dead_congr (i : ℕ) (w w' : World) (hprocesses : w'.processes = w.processes)
    (hinst : w'.nextInst = w.nextInst) (h : Dead i w) : Dead i w' :=
  ⟨hinst ▸ h.1, fun p hp => h.2 p (hprocesses ▸ hp)⟩

theorem dead_cons {i : ℕ} {w w' : World} {q : Process}
    (hprocesses : w'.processes = q :: w.processes) (hnext : w'.nextInst = w.nextInst + 1)
    (hinst : q.inst = w.nextInst) (h : Dead i w) : Dead i w' := by
  have hlt := h.1
  refine ⟨by omega, fun p hp => ?_⟩
  rw [hprocesses] at hp
  rcases List.mem_cons.1 hp with rfl | hp
  · omega
  · exact h.2 p hp

theorem dead_lasting (i : ℕ) : Lasting (Dead i) :=
  lasting_table (dead_congr i) (fun _ _ h => ⟨h.1, fun p hp => h.2 p (List.mem_of_mem_filter hp)⟩)
    fun _ _ _ _ h => dead_cons rfl rfl rfl h

/-- What was found before others were removed is found still. -/
theorem find?_filter_of_pos {α : Type} {q r : α → Bool} {xs : List α} {x : α}
    (h : xs.find? q = some x) (hr : r x) : (xs.filter r).find? q = some x := by
  obtain ⟨hq, front, back, rfl, hfront⟩ := List.find?_eq_some_iff_append.1 h
  refine List.find?_eq_some_iff_append.2 ⟨hq, front.filter r, back.filter r, ?_, fun y hy => ?_⟩
  · simp [hr]
  · exact hfront y (List.mem_of_mem_filter hy)

section Leads
variable {w w' : World} {h : Handle} {i : ℕ}

theorem LeadsTo.congr (hl : LeadsTo h i w) (hprocesses : w'.processes = w.processes) :
    LeadsTo h i w' := by
  obtain ⟨p, hp, hinst⟩ := hl
  refine ⟨p, ?_, hinst⟩
  cases h <;> simpa [World.target, World.withInst, World.withPid, hprocesses] using hp

/-- Only its own exit takes a process from a handle. -/
theorem LeadsTo.exit (hl : LeadsTo h i w) (hi : i < w.nextInst) (inst : ℕ) :
    LeadsTo h i (w.happen (.exit inst)) ∨ Dead i (w.happen (.exit inst)) := by
  obtain ⟨p, hp, hinst⟩ := hl
  by_cases hexit : p.inst = inst
  · refine .inr ⟨hi, fun q hq => ?_⟩
    have hne : q.inst ≠ inst := by simpa using List.of_mem_filter hq
    omega
  · refine .inl ⟨p, ?_, hinst⟩
    cases h with
    | popen inst' pid => exact find?_filter_of_pos hp (by simpa using hexit)
    | adopted pid => exact find?_filter_of_pos hp (by simpa using hexit)

/-- A new process has a number and a pid of its own. -/
theorem LeadsTo.cons {q : Process} (hl : LeadsTo h i w) (hi : i < w.nextInst)
    (hprocesses : w'.processes = q :: w.processes) (hinst : q.inst = w.nextInst)
    (hfree : w.withPid q.pid = none) : LeadsTo h i w' := by
  obtain ⟨p, hp, hpinst⟩ := hl
  refine ⟨p, ?_, hpinst⟩
  cases h with
  | popen inst pid =>
    have hfound : p.inst = inst := by simpa using List.find?_some hp
    have hne : ¬q.inst = inst := by omega
    simpa [World.target, World.withInst, hprocesses, hne] using hp
  | adopted pid =>
    have hne : ¬q.pid = pid := by
      intro hpid
      rw [hpid] at hfree
      exact Option.some_ne_none p (hp.symm.trans hfree)
    simpa [World.target, World.withPid, hprocesses, hne] using hp

/-- Whatever happens, a handle leads to the process until it is dead. -/
theorem LeadsTo.happen (hl : LeadsTo h i w) (hi : i < w.nextInst) (e : OsEvent) :
    LeadsTo h i (w.happen e) ∨ Dead i (w.happen e) := by
  cases e with
  | exit inst => exact hl.exit hi inst
  | spawn pid mainPy =>
    simp only [World.happen]
    split
    · exact .inl hl
    · next hfree => exact .inl (hl.cons hi rfl rfl (by simpa using hfree))

theorem nextInst_happen (e : OsEvent) : w.nextInst ≤ (w.happen e).nextInst := by
  cases e with
  | exit inst => exact Nat.le_refl _
  | spawn pid mainPy =>
    simp only [World.happen]
    split
    · exact Nat.le_refl _
    · exact Nat.le_succ _

variable {pending : Bool}

theorem Kept.congr (hk : Kept pending i w) (hproc : w'.sup.proc = w.sup.proc)
    (hpending : w'.sup.restartPending = w.sup.restartPending)
    (hprocesses : w'.processes = w.processes) (hinst : w'.nextInst = w.nextInst) :
    Kept pending i w' := by
  refine ⟨hinst ▸ hk.1, ?_⟩
  rcases hk.2 with hdead | ⟨⟨h, hheld, hl⟩, hp⟩
  · exact .inl (dead_congr i w w' hprocesses hinst hdead)
  · exact .inr ⟨⟨h, hproc ▸ hheld, hl.congr hprocesses⟩, fun hb => hpending ▸ hp hb⟩

/-- The process stays in hand whatever becomes of the pending restart. -/
theorem Kept.forget (hk : Kept pending i w) : Kept false i w :=
  ⟨hk.1, hk.2.imp_right fun h => ⟨h.1, by simp⟩⟩

theorem Kept.withPending (hk : Kept pending i w) (b : Bool) : Kept false i (w.withPending b) :=
  ⟨hk.1, hk.2.imp_right fun h => ⟨h.1, by simp⟩⟩

theorem Kept.request (hk : Kept pending i w) : Kept true i (w.withPending true) :=
  ⟨hk.1, hk.2.imp_right fun h => ⟨h.1, fun _ => rfl⟩⟩

theorem Leaving.congr (hk : Leaving h i w) (hprocesses : w'.processes = w.processes)
    (hinst : w'.nextInst = w.nextInst) : Leaving h i w' := by
  refine ⟨hinst ▸ hk.1, ?_⟩
  rcases hk.2 with hdead | hl
  · exact .inl (dead_congr i w w' hprocesses hinst hdead)
  · exact .inr (hl.congr hprocesses)

theorem kept_lasting : Lasting (Kept pending i) where
  event w e hk := by
    refine ⟨Nat.lt_of_lt_of_le hk.1 (nextInst_happen e), ?_⟩
    rcases hk.2 with hdead | ⟨⟨h, hheld, hl⟩, hp⟩
    · exact .inl ((dead_lasting i).event w e hdead)
    · rcases hl.happen hk.1 e with hl | hdead
      · exact .inr ⟨⟨h, by simpa using hheld, hl⟩, by simpa using hp⟩
      · exact .inl hdead
  time w now tick hk := hk.congr rfl rfl rfl rfl

theorem leaving_lasting : Lasting (Leaving h i) where
  event w e hk := by
    refine ⟨Nat.lt_of_lt_of_le hk.1 (nextInst_happen e), ?_⟩
    rcases hk.2 with hdead | hl
    · exact .inl ((dead_lasting i).event w e hdead)
    · exact (hl.happen hk.1 e).symm
  time w now tick hk := hk.congr rfl rfl

theorem Dead.kept (hd : Dead i w) : Kept pending i w := ⟨hd.1, .inl hd⟩

/-- A handle without a process leads to none. -/
theorem Leaving.dead (hk : Leaving h i w) (hnone : w.target h = none) : Dead i w := by
  rcases hk.2 with hdead | ⟨p, hp, -⟩
  · exact hdead
  · rw [hnone] at hp
    contradiction

theorem Kept.leaving (hk : Kept pending i w) (hproc : w.sup.proc = some h) : Leaving h i w := by
  refine ⟨hk.1, ?_⟩
  rcases hk.2 with hdead | ⟨⟨h', hheld, hl⟩, -⟩
  · exact .inl hdead
  · rw [hproc] at hheld
    cases hheld
    exact .inr hl

/-- What is not in the supervisor's hands is dead. -/
theorem Kept.dead (hk : Kept pending i w) (hproc : w.sup.proc = none) : Dead i w := by
  rcases hk.2 with hdead | ⟨⟨h, hheld, -⟩, -⟩
  · exact hdead
  · rw [hproc] at hheld
    contradiction

end Leads

/-- The signals did not end the process. -/
def survives : Sight → Bool
  | .terminated survived => survived
  | _ => false

/-- The pidfile could not be deleted, and the process to be ended was running. -/
def abandoned : Sight → Bool
  | .undeleted abandons => abandons
  | _ => false

def slips (s : Sight) : Bool := survives s || abandoned s

theorem kept_maintained (pending : Bool) (i : ℕ) :
    Maintained (Unless slips (Kept pending i)) (Unless slips (Dead i))
      (fun h w => w.ending = some h ∧ Unless slips (Leaving h i) w)
      (fun h => Unless slips (Leaving h i)) where
  lasting := kept_lasting.unless
  lasting_clear := (dead_lasting i).unless
  lasting_handed h := (lasting_ending fun ending => ending = some h).and leaving_lasting.unless
  ending := {
    lasting _ := leaving_lasting.unless
    signalled w h hw := hw.sighted rfl fun _ hk => hk.congr rfl rfl
    gone w h hw hnone := hw.congr rfl fun hk => hk.dead hnone
    terminated w h hw := hw.sighted rfl fun hs hk => by
      have hnone : w.target h = none := by simpa [slips, survives, abandoned] using hs
      exact dead_congr i w _ rfl rfl (hk.dead hnone) }
  of_clear w hw := hw.congr rfl Dead.kept
  fields w sup _ hproc hpending hw := hw.congr rfl fun hk => hk.congr hproc hpending rfl rfl
  dead w h hw hproc hnone := hw.congr rfl fun hk => (hk.leaving hproc).dead hnone
  drop w hw := hw.congr rfl (dead_congr i w _ rfl rfl)
  unlink w hw := hw.congr rfl fun hd => (dead_congr i w _ rfl rfl hd).kept
  undeleted w hw := hw.sighted rfl fun _ hd => (dead_congr i w _ rfl rfl hd).kept
  hand w h hw hproc := ⟨rfl, hw.congr rfl fun hk => (hk.leaving hproc).congr rfl rfl⟩
  unlink_handed w h hw := hw.2.congr rfl fun hk => hk.congr rfl rfl
  undeleted_handed w h hw := hw.2.sighted rfl fun hs hk => by
    have hnone : w.target h = none := by
      simpa [slips, survives, abandoned, World.abandons, hw.1] using hs
    exact (dead_congr i w _ rfl rfl (hk.dead hnone)).kept
  done w hw := hw.congr rfl (dead_congr i w _ rfl rfl)
  resume w hw := hw.congr rfl fun hk => hk.congr rfl rfl rfl rfl
  unended w _ hw := hw.sighted rfl fun _ hk => hk.congr rfl rfl rfl rfl

theorem kept_adopts (pending : Bool) (i : ℕ) :
    Adopts (Unless slips (Kept pending i)) (Unless slips (Dead i)) where
  adopt w pid _ hw hproc _ _ _ := hw.congr rfl fun hk =>
    (dead_congr i w (w.withProc (some (.adopted pid))) rfl rfl (hk.dead hproc)).kept
  giveUp w hw hproc := hw.sighted rfl fun _ hk => dead_congr i w _ rfl rfl (hk.dead hproc)

theorem kept_launches (pending : Bool) (i : ℕ) : Launches (Unless slips (Kept pending i))
    (fun h w => w.sup.proc = some h ∧ Unless slips (Kept pending i) w) where
  lasting h := (lasting_sup fun sup => sup.proc = some h).and kept_lasting.unless
  proc w h hw := hw.1
  unopened w hw := hw.sighted rfl fun _ hk => hk.congr rfl rfl rfl rfl
  unlaunched w hw := by
    have hlaunch : Unless slips (Kept pending i) (w.see (.launch w.orphan)) :=
      hw.sighted rfl fun _ hk => hk.congr rfl rfl rfl rfl
    exact hlaunch.sighted rfl fun _ hk => hk.congr rfl rfl rfl rfl
  child w a hw hproc _ := ⟨rfl, hw.sighted rfl fun _ hk =>
    (dead_cons rfl rfl rfl (hk.dead hproc)).kept⟩
  unrecorded w h text hw _ := hw.2.sighted rfl fun _ hk => hk.congr rfl rfl rfl rfl
  recorded w h hw := hw.2.congr rfl fun hk => hk.congr rfl rfl rfl rfl

theorem dead_maintained (i : ℕ) : Maintained (Unless slips (Dead i)) (Unless slips (Dead i))
    (fun _ => Unless slips (Dead i)) (fun _ => Unless slips (Dead i)) :=
  table_maintained (dead_lasting i) (dead_congr i)

theorem dead_launches (i : ℕ) : Launches (Unless slips (Dead i))
    (fun h w => w.sup.proc = some h ∧ Unless slips (Dead i) w) :=
  table_launches (dead_lasting i) (dead_congr i) fun _ _ h => dead_cons rfl rfl rfl h

section Methods
variable {env : ℕ → Answer} {i : ℕ}

/-- The requested restart ends the process, whether the next one starts or not. -/
theorem requestedRestart_dead :
    Triple (Managing (Unless slips (Kept false i))) (requestedRestart env)
      (fun _ => Unless slips (Dead i)) (fun _ => Unless slips (Dead i)) := by
  have hkept := kept_maintained false i
  have hdrop : Triple (Managing (Unless slips (Kept false i))) (setRestartPending false)
      (fun _ => Managing (Unless slips (Kept false i))) (fun _ => Unless slips (Dead i)) :=
    Triple.of_modify fun w hw =>
      ⟨hw.1.congr rfl fun hk => hk.withPending false, hw.2⟩
  have hterminate : Triple (Managing (Unless slips (Kept false i))) (terminate env)
      (fun _ => Free (Unless slips (Dead i))) (fun _ => Unless slips (Dead i)) :=
    hkept.terminate_spec.exn fun _ _ hw => hw.1.congr rfl fun hk => hk.dead hw.2
  apply Triple.bind hdrop
  intro _
  apply Triple.bind (hkept.setState_managing .restarting)
  intro _
  apply Triple.bind hterminate
  intro _
  exact Maintained.start_spec (dead_launches i) (dead_maintained i)

/-- A process that is to be restarted is dead when `ensure_running` returns. If it raises
before it gets to it, the restart is still pending. -/
theorem ensureRunning_kept : Triple (Unless slips (Kept true i)) (ensureRunning env)
    (fun _ => Unless slips (Dead i)) (fun _ => Unless slips (Kept true i)) := by
  have hdead : ∀ (e : Exn) w, Unless slips (Dead i) w → Unless slips (Kept true i) w :=
    fun _ _ hw => hw.congr rfl Dead.kept
  apply Triple.bind (Maintained.look_keeps (kept_maintained true i) (kept_adopts true i))
  intro healthy
  apply Triple.get_ite
  · apply (requestedRestart_dead.exn hdead).pre
    intro w hw
    exact ⟨hw.1.congr rfl Kept.forget, (Bool.and_eq_true_iff.1 hw.2).2⟩
  · have hwithout : Keeps (Unless slips (Dead i)) (withoutRestart env healthy) :=
      Maintained.withoutRestart_keeps (dead_launches i) (dead_maintained i)
        (fun w h => h.congr rfl (dead_congr i w _ rfl rfl)) healthy
    apply (hwithout.exn hdead).pre
    intro w hw
    refine hw.1.congr rfl fun hk => ?_
    rcases hk.2 with hd | ⟨⟨h, hproc, -⟩, hpending⟩
    · exact hd
    · simp [hproc, hpending rfl] at hw

end Methods

section Pending
variable {env : ℕ → Answer} {w : World}

def Pending (pending : Bool) (w : World) : Prop := w.sup.restartPending = pending

theorem pending_maintained (pending : Bool) : Maintained (Pending pending) (Pending pending)
    (fun _ => Pending pending) (fun _ => Pending pending) where
  lasting := lasting_sup fun sup => sup.restartPending = pending
  lasting_clear := lasting_sup fun sup => sup.restartPending = pending
  lasting_handed _ := lasting_sup fun sup => sup.restartPending = pending
  ending := {
    lasting _ := lasting_sup fun sup => sup.restartPending = pending
    signalled _ _ h := h
    gone _ _ h _ := h
    terminated _ _ h := h }
  of_clear _ h := h
  fields _ _ _ _ hpending h := hpending.trans h
  dead _ _ h _ _ := h
  drop _ h := h
  unlink _ h := h
  undeleted _ h := h
  hand _ _ h _ := h
  unlink_handed _ _ h := h
  undeleted_handed _ _ h := h
  done _ h := h
  resume _ h := h
  unended _ _ h := h

theorem pending_adopts (pending : Bool) : Adopts (Pending pending) (Pending pending) where
  adopt _ _ _ h _ _ _ _ := h
  giveUp _ h _ := h

theorem pending_launches (pending : Bool) :
    Launches (Pending pending) (fun h w => w.sup.proc = some h ∧ Pending pending w) where
  lasting h := (lasting_sup fun sup => sup.proc = some h).and
    (lasting_sup fun sup => sup.restartPending = pending)
  proc _ _ h := h.1
  unopened _ h := h
  unlaunched _ h := h
  child _ _ h _ _ := ⟨rfl, h⟩
  unrecorded _ _ _ h _ := h.2
  recorded _ _ h := h.2

/-- Only a request and `ensure_running` concern the pending restart. -/
theorem perform_pending_plain {op : Op} (hop : Maintained.plain op) :
    (perform env w op).sup.restartPending = w.sup.restartPending :=
  Maintained.perform_keeps_plain (pending_launches _) (pending_maintained _) (pending_adopts _)
    (w := w) rfl hop

/-- `ensure_running` requests no restart. -/
theorem perform_pending_ensureRunning (h : w.sup.restartPending = false) :
    (perform env w .ensureRunning).sup.restartPending = false :=
  (Maintained.ensureRunning_keeps (pending_launches false) (pending_maintained false)
    (pending_adopts false) fun _ _ => rfl).state (s := { w with ending := none }) h

theorem look_pending {r : Except Exn Bool} {looked : World}
    (h : runFrom (look env) w = (r, looked)) :
    looked.sup.restartPending = w.sup.restartPending := by
  have hkeeps : Keeps (Pending w.sup.restartPending) (look env) :=
    Maintained.look_keeps (pending_maintained _) (pending_adopts _)
  have hlooked := hkeeps.state (s := w) rfl
  rwa [h] at hlooked

theorem requestedRestart_pending : Triple (fun w => w.sup.proc.isSome) (requestedRestart env)
    (fun _ => Pending false) (fun _ => Pending false) := by
  have hm := pending_maintained false
  have hdrop : Triple (fun w : World => w.sup.proc.isSome) (setRestartPending false)
      (fun _ => Managing (Pending false)) (fun _ => Pending false) :=
    Triple.of_modify fun w hw => ⟨rfl, hw⟩
  apply Triple.bind hdrop
  intro _
  apply Triple.bind (hm.setState_managing .restarting)
  intro _
  apply Triple.bind hm.terminate_managing
  intro _
  exact Maintained.start_spec (pending_launches false) hm

/-- A restart that is pending when a process is in hand is carried out. -/
theorem ensureRunning_restarts {healthy : Bool} {looked : World}
    (hlook : runFrom (look env) w = (.ok healthy, looked))
    (h : (looked.sup.restartPending && looked.sup.proc.isSome) = true) :
    runFrom (ensureRunning env) w = runFrom (requestedRestart env) looked := by
  rw [ensureRunning, runFrom_bind_ok hlook]
  have hget : runFrom (get : M World) looked = (.ok looked, looked) := rfl
  rw [runFrom_bind_ok hget, if_pos h]

end Pending

/-- The process that a handle speaks of, by its number or by its pid. -/
def denotes : Handle → Process → Bool
  | .popen inst _, p => p.inst = inst
  | .adopted pid, p => p.pid = pid

theorem denotes_target {w : World} {h : Handle} {p : Process} (hp : w.target h = some p) :
    denotes h p := by
  cases h with
  | popen inst pid => exact List.find?_some hp
  | adopted pid => exact List.find?_some hp

section Signals
variable (before : List Sight) (first : ℕ) (managed : Handle)

/-- The process that was managed, or one that was launched since. -/
def Ours (p : Process) : Prop := denotes managed p ∨ first ≤ p.inst ∧ p.launched

/-- A handle that leads to such processes only. -/
def Proper (h : Handle) (w : World) : Prop :=
  h = managed ∨ ∃ inst pid, h = .popen inst pid ∧ first ≤ inst ∧ inst < w.nextInst ∧
    ∀ p ∈ w.processes, p.inst = inst → p.launched

/-- Since then only such processes have got signals. -/
def Spared (w : World) : Prop :=
  ∃ more, w.seen = before ++ more ∧ ∀ p, Sight.signal (some p) ∈ more → Ours first managed p

structure Restarting (w : World) : Prop where
  spared : Spared before first managed w
  numbered : Numbered w
  later : first ≤ w.nextInst
  proc : ∀ h, w.sup.proc = some h → Proper first managed h w

variable {before first managed} {w w' : World} {h : Handle}

theorem Spared.see (hs : Spared before first managed w) {s : Sight}
    (hours : ∀ p, s = .signal (some p) → Ours first managed p) :
    Spared before first managed (w.see s) := by
  obtain ⟨more, hseen, hmore⟩ := hs
  refine ⟨more ++ [s], by simp [World.see, hseen], fun p hp => ?_⟩
  rcases List.mem_append.1 hp with hp | hp
  · exact hmore p hp
  · exact hours p (List.mem_singleton.1 hp).symm

theorem Proper.congr (hp : Proper first managed h w)
    (hprocesses : ∀ p ∈ w'.processes, p ∈ w.processes) (hinst : w'.nextInst = w.nextInst) :
    Proper first managed h w' := by
  rcases hp with rfl | ⟨inst, pid, rfl, hfirst, hlt, hlaunched⟩
  · exact .inl rfl
  · exact .inr ⟨inst, pid, rfl, hfirst, hinst ▸ hlt, fun p hp => hlaunched p (hprocesses p hp)⟩

theorem Proper.cons {q : Process} (hp : Proper first managed h w)
    (hprocesses : w'.processes = q :: w.processes) (hnext : w'.nextInst = w.nextInst + 1)
    (hinst : q.inst = w.nextInst) : Proper first managed h w' := by
  rcases hp with rfl | ⟨inst, pid, rfl, hfirst, hlt, hlaunched⟩
  · exact .inl rfl
  · refine .inr ⟨inst, pid, rfl, hfirst, by omega, fun p hp heq => ?_⟩
    rw [hprocesses] at hp
    rcases List.mem_cons.1 hp with rfl | hp
    · omega
    · exact hlaunched p hp heq

/-- Who gets a signal through such a handle is one of them. -/
theorem Proper.ours (hp : Proper first managed h w) {p : Process} (ht : w.target h = some p) :
    Ours first managed p := by
  have hdenotes := denotes_target ht
  rcases hp with rfl | ⟨inst, pid, rfl, hfirst, -, hlaunched⟩
  · exact .inl hdenotes
  · have hinst : p.inst = inst := by simpa [denotes] using hdenotes
    exact .inr ⟨hinst ▸ hfirst, hlaunched p (List.mem_of_find?_eq_some ht) hinst⟩

theorem Restarting.see (hr : Restarting before first managed w) {s : Sight}
    (hours : ∀ p, s = .signal (some p) → Ours first managed p) :
    Restarting before first managed (w.see s) :=
  ⟨hr.spared.see hours, hr.numbered, hr.later, hr.proc⟩

theorem restarting_lasting : Lasting (Restarting before first managed) where
  event w e hr := by
    cases e with
    | exit inst =>
      exact ⟨hr.spared, fun p hp => hr.numbered p (List.mem_of_mem_filter hp), hr.later,
        fun h hh => (hr.proc h hh).congr (fun p hp => List.mem_of_mem_filter hp) rfl⟩
    | spawn pid mainPy =>
      simp only [World.happen]
      split
      · exact hr
      · exact ⟨hr.spared.see (by simp), insts_cons rfl rfl rfl hr.numbered,
          Nat.le_succ_of_le hr.later, fun h hh => (hr.proc h hh).cons rfl rfl rfl⟩
  time w now tick hr := ⟨hr.spared, hr.numbered, hr.later, hr.proc⟩

theorem proper_lasting : Lasting (Proper first managed h) where
  event w e hp := by
    cases e with
    | exit inst => exact hp.congr (fun p hp => List.mem_of_mem_filter hp) rfl
    | spawn pid mainPy =>
      simp only [World.happen]
      split
      · exact hp
      · exact hp.cons rfl rfl rfl
  time w now tick hp := hp.congr (fun _ hp => hp) rfl

/-- `Restarting`, with a handle that is being ended. -/
def RestartingWith (before : List Sight) (first : ℕ) (managed h : Handle) (w : World) : Prop :=
  Restarting before first managed w ∧ Proper first managed h w

theorem restarting_maintained :
    Maintained (Restarting before first managed) (Restarting before first managed)
      (RestartingWith before first managed) (RestartingWith before first managed) where
  lasting := restarting_lasting
  lasting_clear := restarting_lasting
  lasting_handed _ := restarting_lasting.and proper_lasting
  ending := {
    lasting _ := restarting_lasting.and proper_lasting
    signalled w h hr := ⟨hr.1.see fun p hp => hr.2.ours (Sight.signal.inj hp),
      hr.2.congr (fun _ hp => hp) rfl⟩
    gone _ _ hr _ := hr.1
    terminated w h hr := hr.1.see (by simp) }
  of_clear _ hr := hr
  fields w sup _ hproc _ hr := ⟨hr.spared, hr.numbered, hr.later, fun h hh =>
    (hr.proc h (hproc ▸ hh)).congr (fun _ hp => hp) rfl⟩
  dead _ _ hr _ _ := hr
  drop w hr := ⟨hr.spared, hr.numbered, hr.later, fun h hh => by cases hh⟩
  unlink w hr := ⟨hr.spared, hr.numbered, hr.later, hr.proc⟩
  undeleted w hr := hr.see (by simp)
  hand w h hr hproc := ⟨⟨hr.spared, hr.numbered, hr.later, fun h hh => by cases hh⟩,
    (hr.proc h hproc).congr (fun _ hp => hp) rfl⟩
  unlink_handed w h hr := ⟨⟨hr.1.spared, hr.1.numbered, hr.1.later, hr.1.proc⟩,
    hr.2.congr (fun _ hp => hp) rfl⟩
  undeleted_handed w h hr := hr.1.see (by simp)
  done w hr := ⟨hr.spared, hr.numbered, hr.later, hr.proc⟩
  resume w hr := ⟨hr.spared, hr.numbered, hr.later, hr.proc⟩
  unended w _ hr := hr.see (by simp)

theorem restarting_launches : Launches (Restarting before first managed)
    (fun h w => w.sup.proc = some h ∧ Restarting before first managed w) where
  lasting h := (lasting_sup fun sup => sup.proc = some h).and restarting_lasting
  proc _ _ hr := hr.1
  unopened w hr := hr.see (by simp)
  unlaunched w hr := (hr.see (by simp)).see (by simp)
  child w a hr _ _ := by
    refine ⟨rfl, hr.spared.see (by simp), insts_cons rfl rfl rfl hr.numbered,
      Nat.le_succ_of_le hr.later, fun h hh => ?_⟩
    cases hh
    refine .inr ⟨w.nextInst, a.pid, rfl, hr.later, Nat.lt_succ_self _, fun p hp hinst => ?_⟩
    rcases List.mem_cons.1 hp with rfl | hp
    · rfl
    · have := hr.numbered p hp
      omega
  unrecorded w h text hr _ := by
    have hseen := hr.2.see (s := .unrecorded) (by simp)
    exact ⟨hseen.spared, hseen.numbered, hseen.later, hseen.proc⟩
  recorded w h hr := ⟨hr.2.spared, hr.2.numbered, hr.2.later, hr.2.proc⟩

end Signals

section Carried
variable {env : ℕ → Answer} {before : List Sight} {w looked : World} {healthy : Bool}

/-- Since then nobody has got a signal. -/
def Quiet (before : List Sight) (w : World) : Prop :=
  ∃ more, w.seen = before ++ more ∧ ∀ p, Sight.signal (some p) ∉ more

theorem Quiet.see (h : Quiet before w) {s : Sight} (hs : ∀ p, Sight.signal (some p) ≠ s) :
    Quiet before (w.see s) := by
  obtain ⟨more, hseen, hmore⟩ := h
  refine ⟨more ++ [s], by simp [World.see, hseen], fun p hp => ?_⟩
  rcases List.mem_append.1 hp with hp | hp
  · exact hmore p hp
  · exact hs p (List.mem_singleton.1 hp)

theorem quiet_lasting : Lasting (Quiet before) where
  event w e h := by
    cases e with
    | exit inst => exact h
    | spawn pid mainPy =>
      simp only [World.happen]
      split
      · exact h
      · exact h.see (by simp)
  time _ _ _ h := h

/-- Nobody gets a signal while the supervisor looks. -/
theorem look_quiet (hnumbered : Numbered w)
    (hlook : runFrom (look env) w = (.ok healthy, looked)) :
    Quiet w.seen looked ∧ Numbered looked := by
  have hkeeps : Keeps (fun v => Quiet w.seen v ∧ Numbered v) (look env) :=
    look_lasting (quiet_lasting.and numbered_lasting) (fun _ _ h => h) (fun _ h => h)
      (fun _ _ h => ⟨h.1.see (by simp), h.2⟩) fun _ _ h => ⟨h.1.see (by simp), h.2⟩
  exact hkeeps.returns w healthy looked ⟨⟨[], by simp, by simp⟩, hnumbered⟩ hlook

/-- A restart that is carried out signals the process that was managed then, or one that it
has launched itself. -/
theorem ensureRunning_spares (hnumbered : Numbered w)
    (hlook : runFrom (look env) w = (.ok healthy, looked)) {h : Handle}
    (hproc : looked.sup.proc = some h) (hpending : looked.sup.restartPending = true) :
    Spared w.seen looked.nextInst h (runFrom (ensureRunning env) w).2 := by
  obtain ⟨⟨more, hseen, hmore⟩, hlooked⟩ := look_quiet hnumbered hlook
  rw [ensureRunning_restarts hlook (by simp [hpending, hproc])]
  have hrestart : Triple (fun v => v = looked) (requestedRestart env)
      (fun _ => Restarting w.seen looked.nextInst h)
      (fun _ => Restarting w.seen looked.nextInst h) := by
    apply (Maintained.requestedRestart_keeps restarting_launches restarting_maintained
      fun v hr => ⟨hr.spared, hr.numbered, hr.later, hr.proc⟩).pre
    intro v hv
    rw [hv]
    refine ⟨⟨⟨more, hseen, fun p hp => absurd hp (hmore p)⟩, hlooked, Nat.le_refl _,
      fun h' hh' => .inl ?_⟩, by simp [hproc]⟩
    exact Option.some.inj (hh'.symm.trans hproc)
  exact hrestart.state.spared

end Carried
end TaskQueue.ComfyUIRestarts
