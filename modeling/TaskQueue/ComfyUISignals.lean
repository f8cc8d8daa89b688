import TaskQueue.ComfyUISights
import TaskQueue.StepRuns
import Mathlib.Data.List.Nodup

/-!
# Whom the signals reach

An adopted handle and the pidfile know a process by its pid alone, so a process that
somebody else starts under that pid is taken for a launched one. Every other way to a
signal leads to a process that a supervisor launched.
-/

namespace TaskQueue.ComfyUISignals
open ComfyUI StateExceptions StepRuns

/-- Somebody else's process gets a pid that the supervisor takes for its own. -/
def clashes : Sight → Bool
  | .foreign clash => clash
  | _ => false

/-- The handle has launched processes only. -/
def Known (w : World) : Handle → Prop
  | .popen inst _ => inst < w.nextInst ∧ ∀ p ∈ w.processes, p.inst = inst → p.launched
  | .adopted pid => ∀ p ∈ w.processes, p.pid = pid → p.launched

/-- A ComfyUI under this pid is a launched one. -/
def Ours (w : World) (pid : Pid) : Prop :=
  ∀ p ∈ w.processes, p.pid = pid → p.mainPy → p.launched

structure Mine (w : World) : Prop where
  known : ∀ h, w.sup.proc = some h ∨ w.ending = some h → Known w h
  recorded : ∀ pid, w.pidfile = some (.number pid) → Ours w pid
  child : ∀ inst pid, w.sup.proc = some (.popen inst pid) → Ours w pid
  insts : ∀ p ∈ w.processes, p.inst < w.nextInst
  pids : (w.processes.map Process.pid).Nodup
  signals : ∀ p, Sight.signal (some p) ∈ w.seen → p.launched

/-- A known handle leads to a launched process. -/
theorem Known.launched {w : World} {h : Handle} (hk : Known w h) {p : Process}
    (hp : w.target h = some p) : p.launched := by
  cases h with
  | popen inst pid =>
    have hinst := List.find?_some hp
    exact hk.2 p (List.mem_of_find?_eq_some hp) (by simpa using hinst)
  | adopted pid =>
    have hpid := List.find?_some hp
    exact hk p (List.mem_of_find?_eq_some hp) (by simpa using hpid)

/-- `Known` depends on the processes and on the numbers given to them. -/
theorem Known.congr {w w' : World} {h : Handle} (hk : Known w h)
    (hprocesses : ∀ p ∈ w'.processes, p ∈ w.processes) (hinst : w'.nextInst = w.nextInst) :
    Known w' h := by
  cases h with
  | popen inst pid => exact ⟨hinst ▸ hk.1, fun p hp => hk.2 p (hprocesses p hp)⟩
  | adopted pid => exact fun p hp => hk p (hprocesses p hp)

theorem not_mem_pids {w : World} {pid : Pid} (h : w.withPid pid = none) :
    ∀ p ∈ w.processes, p.pid ≠ pid := by
  intro p hp
  simpa using List.find?_eq_none.1 h p hp

/-- A process under a free pid leaves the pids distinct. -/
theorem pids_cons {w : World} (hpids : (w.processes.map Process.pid).Nodup) {q : Process}
    (hfree : w.withPid q.pid = none) : ((q :: w.processes).map Process.pid).Nodup := by
  refine List.nodup_cons.2 ⟨fun hmem => ?_, hpids⟩
  obtain ⟨p, hp, hpid⟩ := List.mem_map.1 hmem
  exact not_mem_pids hfree p hp hpid

/-- Of two processes under one pid there is one. -/
theorem Mine.eq_of_pid {w : World} (hm : Mine w) {p q : Process} (hp : p ∈ w.processes)
    (hq : q ∈ w.processes) (hpid : p.pid = q.pid) : p = q :=
  List.inj_on_of_nodup_map hm.pids hp hq hpid

/-- The processes stay as they are; each handle and each pid in use was good already. -/
theorem Mine.rehandle {w w' : World} (hm : Mine w) (hprocesses : w'.processes = w.processes)
    (hinst : w'.nextInst = w.nextInst)
    (hsignals : ∀ p, Sight.signal (some p) ∈ w'.seen → p.launched)
    (hknown : ∀ h, w'.sup.proc = some h ∨ w'.ending = some h → Known w h)
    (hrecorded : ∀ pid, w'.pidfile = some (.number pid) → Ours w pid)
    (hchild : ∀ inst pid, w'.sup.proc = some (.popen inst pid) → Ours w pid) : Mine w' where
  known h hh := (hknown h hh).congr (fun _ hp => hprocesses ▸ hp) hinst
  recorded pid hpid p hp := hrecorded pid hpid p (hprocesses ▸ hp)
  child inst pid hproc p hp := hchild inst pid hproc p (hprocesses ▸ hp)
  insts p hp := hinst ▸ hm.insts p (hprocesses ▸ hp)
  pids := hprocesses ▸ hm.pids
  signals := hsignals

theorem Mine.see {w : World} (hm : Mine w) {s : Sight}
    (hs : ∀ p, s = .signal (some p) → p.launched) : Mine (w.see s) := by
  refine hm.rehandle rfl rfl (fun p hp => ?_) hm.known hm.recorded hm.child
  rcases List.mem_append.1 hp with hp | hp
  · exact hm.signals p hp
  · exact hs p (List.mem_singleton.1 hp).symm

/-- Without a process in hand there is less to know. -/
theorem Mine.drop {w : World} (hm : Mine w) : Mine (w.withProc none) := by
  refine hm.rehandle rfl rfl hm.signals (fun h hh => ?_) hm.recorded (fun _ _ hnone => ?_)
  · rcases hh with hh | hh
    · cases hh
    · exact hm.known h (.inr hh)
  · cases hnone

theorem Mine.exit {w : World} (hm : Mine w) (inst : ℕ) : Mine (w.happen (.exit inst)) where
  known h hh := (hm.known h hh).congr (fun _ hp => List.mem_of_mem_filter hp) rfl
  recorded pid hpid p hp := hm.recorded pid hpid p (List.mem_of_mem_filter hp)
  child i pid hproc p hp := hm.child i pid hproc p (List.mem_of_mem_filter hp)
  insts p hp := hm.insts p (List.mem_of_mem_filter hp)
  pids := hm.pids.sublist (List.filter_sublist.map Process.pid)
  signals := hm.signals

section Add
variable {w w' : World} {q : Process} (hprocesses : w'.processes = q :: w.processes)
include hprocesses

/-- A new process does not fall under an old handle unless it takes the pid of an adopted one. -/
theorem Known.add {h : Handle} (hk : Known w h) (hnext : w'.nextInst = w.nextInst + 1)
    (hinst : q.inst = w.nextInst) (hours : q.launched ∨ h ≠ .adopted q.pid) : Known w' h := by
  cases h with
  | popen inst pid =>
    refine ⟨by have := hk.1; omega, fun p hp hpinst => ?_⟩
    rw [hprocesses] at hp
    rcases List.mem_cons.1 hp with rfl | hp
    · have := hk.1
      omega
    · exact hk.2 p hp hpinst
  | adopted pid =>
    intro p hp hpid
    rw [hprocesses] at hp
    rcases List.mem_cons.1 hp with rfl | hp
    · exact hours.resolve_right fun hne => hne (hpid ▸ rfl)
    · exact hk p hp hpid

theorem Ours.add {pid : Pid} (ho : Ours w pid) (hours : q.launched ∨ (q.mainPy → q.pid ≠ pid)) :
    Ours w' pid := by
  intro p hp hpid hmain
  rw [hprocesses] at hp
  rcases List.mem_cons.1 hp with rfl | hp
  · exact hours.resolve_right fun hne => hne hmain hpid
  · exact ho p hp hpid hmain

end Add

/-- Somebody else's process does no harm under a pid that nobody takes for a launched one. -/
theorem Mine.spawn {w : World} (hm : Mine w) {pid : Pid} {mainPy : Bool}
    (hfree : w.withPid pid = none) (hclash : w.clash pid mainPy = false) :
    Mine (w.spawned pid mainPy) := by
  simp only [World.clash, Bool.or_eq_false_iff] at hclash
  obtain ⟨hholds, hrecords⟩ := hclash
  have hadopted : ∀ h, w.sup.proc = some h ∨ w.ending = some h → h ≠ .adopted pid := by
    intro h hh heq
    simp only [World.holds, Bool.or_eq_false_iff, decide_eq_false_iff_not] at hholds
    rcases hh with hh | hh
    · exact hholds.1 (heq ▸ hh)
    · exact hholds.2 (heq ▸ hh)
  have hrecorded : ∀ pid', w.pidfile = some (.number pid') → mainPy = true → pid ≠ pid' := by
    intro pid' hpid' hmain heq
    rw [hmain, World.records, hpid', heq] at hrecords
    simp at hrecords
  have hchild : ∀ inst pid', w.sup.proc = some (.popen inst pid') → mainPy = true → pid ≠ pid' := by
    intro inst pid' hproc hmain heq
    rw [hmain, World.records, hproc, heq] at hrecords
    simp at hrecords
  refine ⟨fun h hh => ?_, fun pid' hpid' => ?_, fun inst pid' hproc => ?_, ?_, ?_, ?_⟩
  · exact (hm.known h hh).add rfl rfl rfl (.inr (hadopted h hh))
  · exact Ours.add rfl (hm.recorded pid' hpid') (.inr (hrecorded pid' hpid'))
  · exact Ours.add rfl (hm.child inst pid' hproc) (.inr (hchild inst pid' hproc))
  · exact insts_cons rfl rfl rfl hm.insts
  · exact pids_cons hm.pids hfree
  · exact (hm.see (s := .foreign (w.clash pid mainPy)) (by simp)).signals

/-- A launched process under a free pid. -/
theorem Mine.launch {w : World} (hm : Mine w) {a : Answer} (hfree : w.withPid a.pid = none) :
    Mine ((addChild a (w.see (.launch w.orphan))).withProc (some (.popen w.nextInst a.pid))) := by
  refine ⟨fun h hh => ?_, fun pid hpid => ?_, fun inst pid hproc => ?_, ?_, ?_, ?_⟩
  · rcases hh with hh | hh
    · cases hh
      refine ⟨Nat.lt_succ_self _, fun p hp hinst => ?_⟩
      rcases List.mem_cons.1 hp with rfl | hp
      · rfl
      · have := hm.insts p hp
        omega
    · exact (hm.known h (.inr hh)).add rfl rfl rfl (.inl rfl)
  · exact Ours.add rfl (hm.recorded pid hpid) (.inl rfl)
  · cases hproc
    intro p hp hpid _
    rcases List.mem_cons.1 hp with rfl | hp
    · rfl
    · exact absurd hpid (not_mem_pids hfree p hp)
  · exact insts_cons rfl rfl rfl hm.insts
  · exact pids_cons hm.pids hfree
  · exact (hm.see (s := .launch w.orphan) (by simp)).signals

/-- An adopted process has the recorded pid and runs ComfyUI, so it is a launched one. -/
theorem Mine.adopt {w : World} (hm : Mine w) {pid : Pid} {p : Process}
    (hpidfile : w.pidfile = some (.number pid)) (hp : w.withPid pid = some p)
    (hmain : p.mainPy = true) : Mine (w.withProc (some (.adopted pid))) := by
  have hmem := List.mem_of_find?_eq_some hp
  have hpid : p.pid = pid := by simpa using List.find?_some hp
  have hlaunched := hm.recorded pid hpidfile p hmem hpid hmain
  refine hm.rehandle rfl rfl hm.signals (fun h hh => ?_) hm.recorded (fun _ _ hproc => ?_)
  · rcases hh with hh | hh
    · cases hh
      intro q hq hqpid
      rw [hm.eq_of_pid hq hmem (hqpid.trans hpid.symm)]
      exact hlaunched
    · exact hm.known h (.inr hh)
  · cases hproc

/-- What is written into the pidfile is the pid of the handle. -/
theorem Mine.record {w : World} (hm : Mine w) {h : Handle} (hproc : w.sup.proc = some h) :
    Mine { w with pidfile := some (.number h.pid) } := by
  refine hm.rehandle rfl rfl hm.signals hm.known (fun pid hpid => ?_) hm.child
  cases hpid
  cases h with
  | popen inst pid => exact hm.child inst pid hproc
  | adopted pid => exact fun p hp hpid _ => hm.known _ (.inl hproc) p hp hpid

/-- The handle moves from the supervisor to its termination. -/
theorem Mine.hand {w : World} (hm : Mine w) {h : Handle} (hproc : w.sup.proc = some h) :
    Mine { w.withProc none with ending := some h } := by
  refine hm.rehandle rfl rfl hm.signals (fun h' hh => ?_) hm.recorded (fun _ _ hnone => ?_)
  · rcases hh with hh | hh
    · cases hh
    · cases hh
      exact hm.known h (.inl hproc)
  · cases hnone

/-- A signal to the handle that is being ended reaches a launched process. -/
theorem Mine.signal {w : World} (hm : Mine w) {h : Handle} (hending : w.ending = some h) :
    Mine (w.see (.signal (w.target h))) := by
  refine hm.see fun p hp => ?_
  exact (hm.known h (.inr hending)).launched (Sight.signal.inj hp)

theorem Mine.forget {w : World} (hm : Mine w) : Mine { w with pidfile := none } :=
  hm.rehandle rfl rfl hm.signals hm.known (fun _ hnone => by cases hnone) hm.child

theorem Mine.resume {w : World} (hm : Mine w) : Mine { w with ending := none } :=
  hm.rehandle rfl rfl hm.signals
    (fun h hh => hm.known h (hh.imp_right fun hnone => by cases hnone)) hm.recorded hm.child

theorem mine_lasting : Lasting (Unless clashes Mine) := by
  apply lasting_unless
  · exact fun w inst hm => hm.exit inst
  · exact fun w pid mainPy hfree hclash hm => hm.spawn hfree hclash
  · exact fun w now tick hm => hm.rehandle rfl rfl hm.signals hm.known hm.recorded hm.child

theorem mine_maintained : Maintained (Unless clashes Mine) (Unless clashes Mine)
    (fun h w => w.ending = some h ∧ Unless clashes Mine w)
    (fun h w => w.ending = some h ∧ Unless clashes Mine w) where
  lasting := mine_lasting
  lasting_clear := mine_lasting
  lasting_handed h := (lasting_ending fun ending => ending = some h).and mine_lasting
  ending := {
    lasting h := (lasting_ending fun ending => ending = some h).and mine_lasting
    signalled w h' h := ⟨h.1, h.2.sighted rfl fun _ hm => hm.signal h.1⟩
    gone w h' h _ := h.2
    terminated w h' h := h.2.sighted rfl fun _ hm => hm.see (by simp) }
  of_clear _ h := h
  fields w sup _ hproc _ h := h.congr rfl fun hm => hm.rehandle rfl rfl hm.signals
    (fun h' hh => hm.known h' (hproc ▸ hh)) hm.recorded
    fun inst pid hh => hm.child inst pid (hproc ▸ hh)
  dead w h' h _ _ := h
  drop w h := h.congr rfl Mine.drop
  unlink w h := h.congr rfl Mine.forget
  undeleted w h := h.sighted rfl fun _ hm => hm.see (by simp)
  hand w h' h hproc := ⟨rfl, h.congr rfl fun hm => hm.hand hproc⟩
  unlink_handed w h' h := ⟨h.1, h.2.congr rfl Mine.forget⟩
  undeleted_handed w h' h := h.2.sighted rfl fun _ hm => hm.see (by simp)
  done w h := h.congr rfl fun hm => hm.resume
  resume w h := h.congr rfl fun hm => hm.resume
  unended w _ h := h.sighted rfl fun _ hm => hm.see (by simp)

theorem mine_adopts : Adopts (Unless clashes Mine) (Unless clashes Mine) where
  adopt w pid p h _ hpidfile hp hmain := h.congr rfl fun hm => hm.adopt hpidfile hp hmain
  giveUp w h _ := h.sighted rfl fun _ hm => hm.see (by simp)

theorem mine_launches : Launches (Unless clashes Mine)
    (fun h w => w.sup.proc = some h ∧ Unless clashes Mine w) where
  lasting h := (lasting_sup fun sup => sup.proc = some h).and mine_lasting
  proc w h hw := hw.1
  unopened w h := h.sighted rfl fun _ hm => hm.see (by simp)
  unlaunched w h := by
    have hlaunch : Unless clashes Mine (w.see (.launch w.orphan)) :=
      h.sighted rfl fun _ hm => hm.see (by simp)
    exact hlaunch.sighted rfl fun _ hm => hm.see (by simp)
  child w a h _ hfree := ⟨rfl, h.sighted rfl fun _ hm => hm.launch hfree⟩
  unrecorded w h text hw htext := hw.2.sighted rfl fun _ hm => by
    have hseen := hm.see (s := .unrecorded) (by simp)
    refine hseen.rehandle rfl rfl hseen.signals hseen.known (fun pid hpid => ?_) hseen.child
    rcases htext with rfl | rfl
    · cases hpid
    · exact hseen.recorded pid hpid
  recorded w h hw := hw.2.congr rfl fun hm => hm.record hw.1

/-- Before the first worker: nothing recorded, and every process is somebody else's. -/
structure Fresh (w : World) : Prop where
  pidfile : w.pidfile = none
  proc : w.sup.proc = none
  ending : w.ending = none
  seen : w.seen = []
  insts : ∀ p ∈ w.processes, p.inst < w.nextInst
  pids : (w.processes.map Process.pid).Nodup

theorem Fresh.mine {w : World} (h : Fresh w) : Mine w where
  known h' hh := by simp [h.proc, h.ending] at hh
  recorded pid hpid := by simp [h.pidfile] at hpid
  child inst pid hproc := by simp [h.proc] at hproc
  insts := h.insts
  pids := h.pids
  signals p hp := by simp [h.seen] at hp

/-- A run in which nobody else's process gets a pid that the supervisor takes for its own
signals launched processes only. -/
theorem signals_reach_launched (env : ℕ → Answer) {w : World} {ops : List Op} (hw : Fresh w)
    (hclash : Along (step env) (fun v op => ∀ s ∈ sights env v op, ¬clashes s) w ops) :
    Throughout (step env) (fun v => ∀ p, Sight.signal (some p) ∈ v.seen → p.launched) w ops := by
  have hkeeps : ∀ v op, Unless clashes Mine v → Unless clashes Mine (perform env v op) := by
    intro v op hv
    refine Maintained.perform_keeps mine_launches mine_maintained mine_adopts
      (fun w pending h => h.congr rfl fun hm => ?_) (fun w cfg now h => ?_) hv op
    · exact hm.rehandle rfl rfl hm.signals hm.known hm.recorded hm.child
    · exact h.congr rfl fun hm => hm.drop.rehandle rfl rfl hm.signals hm.drop.known
        hm.recorded hm.drop.child
  refine Throughout.mono (fun _ => Mine.signals)
    (throughout_unless hkeeps hw.mine (by simp [hw.seen]) ?_)
  exact hclash.mono fun v op hop s hs => by simpa using hop s hs

def oneComfyUI (n : ℕ) : Answer where
  healthy := n != 0
  pid := 100

theorem signals_reach_launched_oneWorker :
    Throughout (step oneComfyUI) (fun v => ∀ p, Sight.signal (some p) ∈ v.seen → p.launched)
      beforeWorkers [.ensureRunning, .stop] :=
  signals_reach_launched oneComfyUI
    ⟨rfl, rfl, rfl, rfl, by decide, by decide⟩ (by decide)

/-- After the first worker is gone its ComfyUI ends, and the user starts another, which
gets the pid of the first. -/
def pidReused (n : ℕ) : Answer :=
  { oneComfyUI n with
    events := if n = 9 then [.exit 0, .spawn 100 true] else if n = 16 then [.exit 1] else [] }

/-- The second worker finds the user's ComfyUI under the recorded pid and stops it. -/
theorem user_process_signalled :
    (exec (step pidReused) beforeWorkers [.ensureRunning, .newWorker {}, .ensureRunning, .stop]).map
      World.seen = some [.launch false, .foreign true, .signal (some ⟨1, 100, false, true⟩),
        .terminated false] := by
  decide

end TaskQueue.ComfyUISignals
