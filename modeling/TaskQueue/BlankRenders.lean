import TaskQueue.ComfyUIRestarts
import TaskQueue.WorkerPhases

/-!
# A blank render gets a fresh ComfyUI

After a corrupt render on a managed process the worker asks for a restart, which
`ensure_running` carries out before the next task. The process stays in the supervisor's
hands until then, or dies, unless a termination drops it and then cannot delete the
pidfile: the pending restart is used up, and the process may be adopted again.
-/

namespace TaskQueue.BlankRenders
open ComfyUI hiding step
open StateExceptions StepRuns WorkerTasks ComfyUIRestarts

variable {Json : Type} {env : ℕ → Answer} {setup : Setup}

/-- What is seen during a step. -/
def seenIn (env : ℕ → Answer) (setup : Setup) (s : LocalWorker Json) (l : Label Json) :
    List Sight :=
  match l.op with
  | some op => if setup.comfyui then sights env s.world op else []
  | none => []

/-- If `ensure_running` returns, no process that a corrupt render ran on is running. -/
def StartsFresh (env : ℕ → Answer) (setup : Setup) (s : LocalWorker Json) (l : Label Json) : Prop :=
  setup.comfyui → l.op = some .ensureRunning → returns env s.world .ensureRunning →
    ∀ i ∈ s.main.blamed, ∀ p ∈ (perform env s.world .ensureRunning).processes, p.inst ≠ i

/-- No render runs on a process that a corrupt render ran on. -/
def RendersFresh (s : LocalWorker Json) : Prop :=
  ∀ i, s.main.phase = .rendering (some i) → i ∉ s.main.blamed

/-- A restart that `ensure_running` carries out is one of a managed process, and signals
nothing but that process and those that it launches itself. -/
def SparesOthers (env : ℕ → Answer) (s : LocalWorker Json) (l : Label Json) : Prop :=
  ∀ op, l.op = some op → carriesOut env s.world op → ∃ healthy looked h,
    runFrom (look env) { s.world with ending := none } = (.ok healthy, looked) ∧
      looked.sup.proc = some h ∧
      ∀ p, Sight.signal (some p) ∈ sights env s.world op → Ours looked.nextInst h p

structure Watched (setup : Setup) (s : LocalWorker Json) : Prop where
  clean : ∀ x ∈ s.world.seen, slips x = false
  numbered : Numbered s.world
  blamed : ∀ i ∈ s.main.blamed, Kept (settled s.main.phase) i s.world
  rendering : ∀ i, s.main.phase = .rendering (some i) →
    Kept false i s.world ∧ i ∉ s.main.blamed
  blaming : settled s.main.phase = false → setup.comfyui = true

theorem mem_target {w : World} {h : Handle} {p : Process} (hp : w.target h = some p) :
    p ∈ w.processes := by
  cases h <;> exact List.mem_of_find?_eq_some hp

section Perform
variable {w : World} {op : Op} {i : ℕ}

theorem perform_numbered (h : Numbered w) (hop : replaces op = false) :
    Numbered (perform env w op) := by
  have hkeeps : Unless (fun _ => false) Numbered (perform env w op) := Maintained.perform_keeps_same
    (table_launches numbered_lasting numbered_congr fun _ _ h => insts_cons rfl rfl rfl h)
    (table_maintained numbered_lasting numbered_congr) (table_adopts numbered_congr)
    (fun w _ h => h.congr rfl (numbered_congr w _ rfl rfl)) (fun _ => h) hop
  exact hkeeps fun _ _ => rfl

theorem perform_kept (h : Kept false i w) (hop : replaces op = false)
    (hclean : ∀ x ∈ (perform env w op).seen, slips x = false) :
    Kept false i (perform env w op) :=
  Maintained.perform_keeps_same (kept_launches false i) (kept_maintained false i)
    (kept_adopts false i) (fun _ b hw => hw.congr rfl fun hk => hk.withPending b) (fun _ => h) hop
    hclean

/-- `ensure_running` on a process that is to be restarted. -/
theorem ensureRunning_fresh (h : Kept true i w)
    (hclean : ∀ x ∈ (perform env w .ensureRunning).seen, slips x = false) :
    Kept true i (perform env w .ensureRunning) ∧
      (returns env w .ensureRunning → Dead i (perform env w .ensureRunning)) := by
  have hstart : Unless slips (Kept true i) { w with ending := none } :=
    fun _ => h.congr rfl rfl rfl rfl
  have hperform : perform env w .ensureRunning =
      (runFrom (ensureRunning env) { w with ending := none }).2 := rfl
  rcases hrun : runFrom (ensureRunning env) { w with ending := none } with ⟨e | ⟨⟩, v⟩
  · rw [hperform, hrun] at hclean ⊢
    have hraises : returns env w .ensureRunning = false := returns_of_error hrun
    exact ⟨ensureRunning_kept.raises _ e v hstart hrun hclean, by simp [hraises]⟩
  · rw [hperform, hrun] at hclean ⊢
    have hdead : Dead i v := ensureRunning_kept.returns _ () v hstart hrun hclean
    exact ⟨hdead.kept, fun _ => hdead⟩

/-- What is to be restarted remains so until it is dead. -/
theorem perform_kept_pending (h : Kept true i w) (hop : replaces op = false)
    (hclean : ∀ x ∈ (perform env w op).seen, slips x = false) :
    Kept true i (perform env w op) := by
  cases hplain : Maintained.plain op with
  | true =>
    exact Maintained.perform_keeps_plain (kept_launches true i) (kept_maintained true i)
      (kept_adopts true i) (fun _ => h) hplain hclean
  | false =>
    cases op with
    | ensureRunning => exact (ensureRunning_fresh h hclean).1
    | requestRestart => exact h.request.congr rfl rfl rfl rfl
    | newWorker cfg => simp [replaces] at hop
    | _ => simp [Maintained.plain] at hplain

end Perform

section Steps
variable {s t : LocalWorker Json} {l : Label Json} {i : ℕ}

/-- What has been seen so far and what is seen in the step. -/
theorem seen_step (hstep : step env setup s l = some t) :
    t.world.seen = s.world.seen ++ seenIn env setup s l := by
  rcases call_cases hstep with ⟨hnone, hworld, -, -⟩ | ⟨op, hop, hsetup, -, hworld, -, -⟩
  · rw [hworld, seenIn]
    cases hop : l.op with
    | none => simp
    | some op => simp [hnone op hop]
  · rw [hworld, seen_perform, seenIn, hop]
    simp [hsetup]

/-- No termination is ineffective, and none drops a process without deleting the pidfile. -/
def Orderly (env : ℕ → Answer) (setup : Setup) (s : LocalWorker Json) (l : Label Json) : Prop :=
  ∀ x ∈ seenIn env setup s l, slips x = false

theorem clean_step (h : Watched setup s) (hl : Orderly env setup s l)
    (hstep : step env setup s l = some t) : ∀ x ∈ t.world.seen, slips x = false := by
  intro x hx
  rw [seen_step hstep] at hx
  rcases List.mem_append.1 hx with hx | hx
  · exact h.clean x hx
  · exact hl x hx

theorem kept_step (h : Watched setup s) (hl : Orderly env setup s l)
    (hstep : step env setup s l = some t) (hk : Kept false i s.world) : Kept false i t.world := by
  have hclean := clean_step h hl hstep
  rcases call_cases hstep with ⟨-, hworld, -, -⟩ | ⟨op, -, -, hop, hworld, -, -⟩
  · rwa [hworld]
  · rw [hworld] at hclean ⊢
    exact perform_kept hk hop hclean

/-- Who is to blame stays in hand, and to be restarted once that has been requested. -/
theorem watched_blamed (h : Watched setup s) (hl : Orderly env setup s l)
    (hstep : step env setup s l = some t) (hi : i ∈ t.main.blamed) :
    Kept (settled t.main.phase) i t.world := by
  have hm := main_of_step hstep
  have hclean := clean_step h hl hstep
  rcases blamed_step hm hi with hold | ⟨hop, hphase, hunsettled⟩
  · have hk := h.blamed i hold
    cases hsettled : settled t.main.phase with
    | false => exact kept_step h hl hstep hk.forget
    | true =>
      cases hbefore : settled s.main.phase with
      | true =>
        rw [hbefore] at hk
        rcases call_cases hstep with ⟨-, hworld, -, -⟩ | ⟨op, -, -, hop, hworld, -, -⟩
        · rwa [hworld]
        · rw [hworld] at hclean ⊢
          exact perform_kept_pending hk hop hclean
      | false =>
        have hrequest : l = .requestRestart :=
          (settled_step hm hbefore).resolve_left (by simp [hsettled])
        rcases call_cases hstep with ⟨hnone, -, -, -⟩ | ⟨op, hop, -, -, hworld, -, -⟩
        · have habsent := hnone .requestRestart (by rw [hrequest]; rfl)
          rw [h.blaming hbefore] at habsent
          contradiction
        · rw [hrequest] at hop
          cases hop
          rw [hworld]
          exact hk.request.congr rfl rfl rfl rfl
  · rw [hunsettled]
    exact kept_step h hl hstep (h.rendering i hphase).1

/-- What a render runs on is in hand, and `ensure_running` has seen to it that it is new. -/
theorem watched_rendering (h : Watched setup s) (hl : Orderly env setup s l)
    (hstep : step env setup s l = some t) (hphase : t.main.phase = .rendering (some i)) :
    Kept false i t.world ∧ i ∉ t.main.blamed := by
  have hm := main_of_step hstep
  have hclean := clean_step h hl hstep
  rcases rendering_step hm hphase with hsame | ⟨rfl, hblamed, hsettled, hsetup, hreturns, hmanaged⟩
  · rw [hsame] at hphase ⊢
    obtain ⟨hk, hnot⟩ := h.rendering i hphase
    exact ⟨kept_step h hl hstep hk, hnot⟩
  · obtain ⟨p, hp, hinst⟩ := Option.map_eq_some_iff.1 hmanaged
    obtain ⟨hd, hproc, htarget⟩ := Option.bind_eq_some_iff.1 hp
    have hmem := mem_target htarget
    rcases call_cases hstep with ⟨hnone, -, -, -⟩ | ⟨op, hop, -, hkeep, hworld, -, -⟩
    · rw [hnone .ensureRunning rfl] at hsetup
      contradiction
    · cases hop
      rw [hworld] at hclean ⊢
      have hnumbered : Numbered (perform env s.world .ensureRunning) :=
        perform_numbered h.numbered hkeep
      refine ⟨⟨hinst ▸ hnumbered p hmem, .inr ⟨⟨hd, hproc, p, htarget, hinst⟩, by simp⟩⟩, ?_⟩
      intro hi
      rw [hblamed] at hi
      have hk := h.blamed i hi
      rw [hsettled] at hk
      exact ((ensureRunning_fresh hk hclean).2 hreturns).2 p hmem hinst

theorem watched_step (h : Watched setup s) (hl : Orderly env setup s l)
    (hstep : step env setup s l = some t) : Watched setup t where
  clean := clean_step h hl hstep
  numbered := by
    rcases call_cases hstep with ⟨-, hworld, -, -⟩ | ⟨op, -, -, hop, hworld, -, -⟩
    · rw [hworld]
      exact h.numbered
    · rw [hworld]
      exact perform_numbered h.numbered hop
  blamed _ hi := watched_blamed h hl hstep hi
  rendering _ hphase := watched_rendering h hl hstep hphase
  blaming hsettled := (blaming_step (main_of_step hstep) hsettled).elim h.blaming id

/-- Every process that was to blame is dead when `ensure_running` returns. -/
theorem startsFresh_of_watched (h : Watched setup s) (hl : Orderly env setup s l)
    (hstep : step env setup s l = some t) : StartsFresh env setup s l := by
  intro hsetup hop hreturns i hi
  have hk := h.blamed i hi
  rw [ensureRunning_settled (main_of_step hstep) hop] at hk
  have hclean := clean_step h hl hstep
  rcases call_cases hstep with ⟨hnone, -, -, -⟩ | ⟨op, hop', -, -, hworld, -, -⟩
  · rw [hnone _ hop] at hsetup
    contradiction
  · rw [hop] at hop'
    cases hop'
    rw [hworld] at hclean
    exact ((ensureRunning_fresh hk hclean).2 hreturns).2

/-- A restart is carried out if it is pending when a process is in hand. -/
theorem carriesOut_cases {w : World} (h : carriesOut env w .ensureRunning) :
    ∃ healthy looked hd, runFrom (look env) { w with ending := none } = (.ok healthy, looked) ∧
      looked.sup.proc = some hd ∧ looked.sup.restartPending = true := by
  rw [carriesOut] at h
  rcases hlook : runFrom (look env) { w with ending := none } with ⟨e | healthy, looked⟩
  · rw [hlook] at h
    contradiction
  · rw [hlook] at h
    obtain ⟨hpending, hproc⟩ := Bool.and_eq_true_iff.1 h
    obtain ⟨hd, hproc⟩ := Option.isSome_iff_exists.1 hproc
    exact ⟨healthy, looked, hd, rfl, hproc, hpending⟩

/-- A restart that is carried out was pending, and is no longer. -/
theorem carriesOut_pending {w : World} (h : carriesOut env w .ensureRunning) :
    w.sup.restartPending = true ∧ (perform env w .ensureRunning).sup.restartPending = false := by
  obtain ⟨healthy, looked, hd, hlook, hproc, hpending⟩ := carriesOut_cases h
  refine ⟨(look_pending hlook).symm.trans hpending, ?_⟩
  change (runFrom (ensureRunning env) { w with ending := none }).2.sup.restartPending = false
  rw [ensureRunning_restarts hlook (by simp [hpending, hproc])]
  have hrestart : Triple (fun v => v = looked) (requestedRestart env) (fun _ => Pending false)
      (fun _ => Pending false) :=
    requestedRestart_pending.pre fun v hv => by simp [hv, hproc]
  exact hrestart.state

/-- Restarts carried out and the one that is pending were requested. -/
def Counted (s : LocalWorker Json) : Prop :=
  s.restarts + s.world.sup.restartPending.toNat ≤ s.requests

theorem counted_step (h : Counted s) (hstep : step env setup s l = some t) : Counted t := by
  unfold Counted at h ⊢
  rcases call_cases hstep with ⟨-, hworld, hreq, hres⟩ | ⟨op, -, -, hop, hworld, hreq, hres⟩
  · rwa [hworld, hreq, hres]
  · rw [hworld, hreq, hres]
    cases hplain : Maintained.plain op with
    | true =>
      rw [perform_pending_plain hplain]
      have hnone : carriesOut env s.world op = false := by
        cases op <;> first | rfl | simp [Maintained.plain] at hplain
      rw [hnone]
      simp only [Bool.toNat_false]
      omega
    | false =>
      cases op with
      | ensureRunning =>
        cases hcarries : carriesOut env s.world .ensureRunning with
        | true =>
          obtain ⟨hbefore, hafter⟩ := carriesOut_pending hcarries
          rw [hbefore] at h
          simpa [hafter, isRequest] using h
        | false =>
          cases hbefore : s.world.sup.restartPending with
          | false =>
            rw [hbefore] at h
            simpa [perform_pending_ensureRunning hbefore, isRequest] using h
          | true =>
            rw [hbefore] at h
            have hle := Bool.toNat_le (perform env s.world .ensureRunning).sup.restartPending
            simp only [Bool.toNat_true, Bool.toNat_false, isRequest] at h ⊢
            omega
      | requestRestart =>
        have hafter : (perform env s.world .requestRestart).sup.restartPending = true := rfl
        simp only [hafter, isRequest, carriesOut, Bool.toNat_true, Bool.toNat_false]
        omega
      | newWorker cfg => simp [replaces] at hop
      | _ => simp [Maintained.plain] at hplain

/-- Whom the restart signals does not depend on how it goes. -/
theorem sparesOthers (hnumbered : Numbered s.world) : SparesOthers env s l := by
  intro op _ hcarries
  cases op with
  | ensureRunning =>
    obtain ⟨healthy, looked, hd, hlook, hproc, hpending⟩ := carriesOut_cases hcarries
    refine ⟨healthy, looked, hd, hlook, hproc, fun p hp => ?_⟩
    obtain ⟨more, hseen, hmore⟩ := ensureRunning_spares (w := { s.world with ending := none })
      hnumbered hlook hproc hpending
    have hsights : sights env s.world .ensureRunning = more :=
      List.append_cancel_left ((seen_perform env s.world .ensureRunning).symm.trans hseen)
    exact hmore p (hsights ▸ hp)
  | _ => simp [carriesOut] at hcarries

theorem numbered_step (h : Numbered s.world) (hstep : step env setup s l = some t) :
    Numbered t.world := by
  rcases call_cases hstep with ⟨-, hworld, -, -⟩ | ⟨op, -, -, hop, hworld, -, -⟩
  · rwa [hworld]
  · rw [hworld]
    exact perform_numbered h hop

end Steps

/-- In a run in which every termination ends its process, and none drops a running process
without deleting the pidfile, no process that a corrupt render ran on is running when
`ensure_running` returns, and no render runs on one. In every run a requested restart
signals only the process that is managed then and those it launches, and each request is
carried out at most once. -/
theorem blank_render_restarts (env : ℕ → Answer) (setup : Setup) {s : LocalWorker Json}
    (hs : Started s) (ls : List (Label Json)) :
    (Along (step env setup) (fun s l => ∀ x ∈ seenIn env setup s l, survives x = false) s ls →
      Along (step env setup) (fun s l => ∀ x ∈ seenIn env setup s l, abandoned x = false) s ls →
      Along (step env setup) (StartsFresh env setup) s ls ∧
        Throughout (step env setup) RendersFresh s ls) ∧
    Along (step env setup) (SparesOthers env) s ls ∧
    Throughout (step env setup) (fun s => s.restarts ≤ s.requests) s ls := by
  obtain ⟨cfg, now, hsup⟩ := hs.sup
  refine ⟨fun hsurvives habandoned => ?_, ?_, ?_⟩
  · have horderly : Along (step env setup) (Orderly env setup) s ls :=
      (hsurvives.and habandoned).mono fun s l h x hx => by
        simp [slips, h.1 x hx, h.2 x hx]
    have hwatched : Watched setup s := by
      refine ⟨by simp [hs.seen], hs.numbered, by simp [hs.blamed], by simp [hs.phase], ?_⟩
      simp [hs.phase, settled]
    refine ⟨horderly.imp (fun _ _ _ h hl => watched_step h hl)
      (fun _ _ _ h hl => startsFresh_of_watched h hl) hwatched, ?_⟩
    exact Throughout.mono (fun _ h i hphase => (h.rendering i hphase).2)
      (throughout_of_along (fun _ _ _ h hl => watched_step h hl) hwatched horderly)
  · have hnumbered : Throughout (step env setup) (fun s => Numbered s.world) s ls :=
      throughout_invariant (fun _ _ _ h => numbered_step h) hs.numbered ls
    exact Throughout.along (fun s l (h : Numbered s.world) => sparesOthers h) hnumbered
  · have hcounted : Counted s := by
      simp [Counted, hs.restarts, hs.requests, hsup, newSupervisor]
    exact Throughout.mono (fun _ h => Nat.le_of_add_right_le h)
      (throughout_invariant (fun _ _ _ h => counted_step h) hcounted ls)

def imagesOnly : Setup where
  comfyui := true
  mock := false
  ollama := none

def firstWorker : LocalWorker Unit where
  main := ⟨.polling, ⟨none, 0⟩, []⟩
  world := beforeWorkers
  requests := 0
  restarts := 0

theorem firstWorker_started : Started firstWorker :=
  ⟨rfl, rfl, rfl, ⟨{}, 0, rfl⟩, by decide, rfl, rfl, rfl⟩

def image : List (Label Unit) :=
  [.claim .visual, .unload, .measure false, .markBusy, .ensureRunning]

def blankImage : List (Label Unit) := image ++ [.renderEnds true, .requestRestart, .markIdle]

/-- The first ComfyUI ends on SIGTERM. -/
def endsOnTerm (n : ℕ) : Answer where
  events := if n = 15 then [.exit 0] else []
  healthy := 0 < n
  pid := 100 + n

theorem blank_render_restarts_image :
    (Along (step endsOnTerm imagesOnly) (StartsFresh endsOnTerm imagesOnly) firstWorker
        (blankImage ++ image) ∧
      Throughout (step endsOnTerm imagesOnly) RendersFresh firstWorker (blankImage ++ image)) ∧
    Along (step endsOnTerm imagesOnly) (SparesOthers endsOnTerm) firstWorker
      (blankImage ++ image) ∧
    Throughout (step endsOnTerm imagesOnly) (fun s => s.restarts ≤ s.requests) firstWorker
      (blankImage ++ image) :=
  ⟨(blank_render_restarts endsOnTerm imagesOnly firstWorker_started (blankImage ++ image)).1
      (by decide +kernel) (by decide +kernel),
    (blank_render_restarts endsOnTerm imagesOnly firstWorker_started (blankImage ++ image)).2⟩

/-- The pidfile cannot be deleted when the restart is carried out. -/
def pidfileStuck (n : ℕ) : Answer where
  fails := n = 12
  healthy := 0 < n
  pid := 100

/-- The restart drops the process and is used up. The next task finds the process answering,
adopts it again and renders on it. -/
theorem blank_render_not_restarted :
    Started firstWorker ∧ ∃ t, exec (step pidfileStuck imagesOnly) firstWorker
        (blankImage ++ image ++ [.markIdle] ++ image) = some t ∧
      t.main.phase = .rendering (some 0) ∧ t.main.blamed = [0] ∧
      t.world.processes = [⟨0, 100, true, true⟩] ∧
      t.world.sup.proc = some (.adopted 100) ∧ t.world.sup.restartPending = false :=
  ⟨firstWorker_started, _, rfl, rfl, rfl, rfl, rfl, rfl⟩

end TaskQueue.BlankRenders
