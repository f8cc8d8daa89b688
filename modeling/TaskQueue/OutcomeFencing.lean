import TaskQueue.ReadCommittedInvariant

/-!
# Outcomes are fenced by tokens while nothing comes between

`complete_task` and `fail_task` check status and token on the row they load and write
by primary key later. An outcome that commits on an undisturbed row, one that only
heartbeats have written since the load, meets the claim it was checked against. A sweep,
a claim or another outcome in between is overwritten.
-/

namespace TaskQueue.OutcomeFencing
open KeyedTables TaskService WorkerService ClaimLifecycle ReadCommittedRequests
open ReadCommittedSteps ReadCommittedInvariant StepRuns

variable {Json : Type}

/-- If the step is the commit of an outcome, only heartbeats have written the row since
the handler loaded it. -/
def undisturbed (s : System Json) : Label Json → Bool
  | .commitOutcome handler _ =>
    match s.handlers handler with
    | .settling taskId _ _ _ seen => (s.tasks.get taskId).all fun slot =>
        (slot.history.drop seen).all Event.isRenewal
    | _ => true
  | _ => true

/-- The columns that record how a task ended. -/
def outcomeOf (task : Task Json) :
    TaskStatus × Option Json × Option String × Option Time :=
  (task.status, task.result, task.error, task.completedAt)

def Settled (task : Task Json) : Prop := task.status = .done ∨ task.status = .failed

theorem phase_of_settled {task : Task Json} (h : Settled task) : phase task = .settled := by
  rcases h with h | h <;> simp [phase, h]

/-- An outcome meets the claim it was checked against exactly if its row is undisturbed. -/
theorem fenced_iff_undisturbed {s : System Json} (hinv : Inv s) (l : Label Json) :
    outcomeFenced s l ↔ undisturbed s l := by
  cases l with
  | commitOutcome handler now =>
    have hknown := hinv.handlers handler
    simp only [outcomeFenced, undisturbed]
    cases hh : s.handlers handler with
    | settling taskId claimToken outcome task seen =>
      rw [hh] at hknown
      obtain ⟨-, slot, hg, hlen, hu⟩ := hknown
      have hslot := hinv.slots taskId slot hg
      have hrow : (phase slot.row).Under (some claimToken) ↔
          ∀ e ∈ slot.history.drop seen, e.isRenewal := by
        rw [hslot.rowPhase, ← List.take_append_drop seen slot.history, after_append,
          List.take_append_drop]
        exact under_iff_renewals hu (token_not_later hslot hu)
      rw [under_phase_iff] at hrow
      simpa [hg] using hrow
    | _ => simp
  | _ => exact Iff.rfl

theorem settled_of_outcome {task task' : Task Json} (h : outcomeOf task' = outcomeOf task)
    (hs : Settled task) : Settled task' := by
  have hst : task'.status = task.status := congrArg Prod.fst h
  rwa [Settled, hst]

/-- What a run keeps whose outcomes are fenced. -/
structure FencedInv (s : System Json) : Prop where
  inv : Inv s
  lawful : EventsLawful s

theorem start_fencedInv : FencedInv (start : System Json) := ⟨start_inv, start_lawful⟩

section Runs
variable [DecidableEq Json] [EmptyCollection Json] {cfg : Settings}

theorem step_fencedInv (s : System Json) (l : Label Json) (t : System Json) (hs : FencedInv s)
    (hf : outcomeFenced s l) (h : step cfg s l = some t) : FencedInv t :=
  ⟨step_inv s l t hs.inv h, step_lawful s l t hs.inv hs.lawful hf h⟩

/-- A fenced step leaves the outcome of a settled task as it is. -/
theorem step_outcome {s t : System Json} {l : Label Json} (hs : FencedInv s)
    (hf : outcomeFenced s l) (h : step cfg s l = some t) {id : TaskId} {slot : Slot Json}
    (hg : s.tasks.get id = some slot) (hsettled : Settled slot.row) :
    ∃ slot', t.tasks.get id = some slot' ∧ outcomeOf slot'.row = outcomeOf slot.row := by
  obtain ⟨slot', hg', hm⟩ := step_slot h hg
  refine ⟨slot', hg', ?_⟩
  have hslot := hs.inv.slots id slot hg
  have hphase := phase_of_settled hsettled
  cases hm with
  | stay => rfl
  | settle hh hgs hlock =>
    have hl := lawful_of_fenced hh hgs hf
    rw [hphase] at hl
    exact hl.elim
  | renew hh hid hgs hlock =>
    simp [outcomeOf, Slot.commitUpdate, flushTask, beatTask]
  | sweep hfree hlapsed => rw [row_write]
  | claim hh ht hfree hc => rw [row_write]
  | publish handler =>
    cases hl : slot.lock with
    | none => simp [Slot.publish, hl]
    | some lock =>
      -- A claim that holds the row would have begun on a settled task.
      obtain ⟨-, hne, hlaw, hclaiming⟩ := hslot.lock lock hl
      rw [← hslot.rowPhase, hphase] at hlaw
      obtain ⟨e, he⟩ := List.exists_mem_of_ne_nil _ hne
      have hr := renewals_of_settled hlaw e he
      have hc := hclaiming e he
      cases e <;> simp [Event.isRenewal, Event.isClaiming] at hr hc
  | release handler =>
    rcases release_cases handler slot with he | ⟨-, hr, -⟩
    · rw [he]
    · rw [hr]

theorem run_outcome {s t : System Json} {ls : List (Label Json)} (hs : FencedInv s)
    (hf : Along (step cfg) (fun s l => outcomeFenced s l) s ls)
    (hrun : exec (step cfg) s ls = some t) {id : TaskId} {slot : Slot Json}
    (hg : s.tasks.get id = some slot) (hsettled : Settled slot.row) :
    ∃ slot', t.tasks.get id = some slot' ∧ outcomeOf slot'.row = outcomeOf slot.row := by
  induction ls generalizing s slot with
  | nil => cases hrun; exact ⟨slot, hg, rfl⟩
  | cons l ls ih =>
    obtain ⟨m, hm, hr⟩ := exec_cons_inv hrun
    obtain ⟨hl, hls⟩ := (along_cons_of_step hm ls).1 hf
    obtain ⟨slot', hg', ho⟩ := step_outcome hs hl hm hg hsettled
    obtain ⟨slot'', hg'', ho'⟩ :=
      ih (step_fencedInv s l m hs hl hm) hls hr hg' (settled_of_outcome ho hsettled)
    exact ⟨slot'', hg'', ho'.trans ho⟩

/-- What token fencing promises of a run from `start` to `s`. -/
structure OutcomesFenced (cfg : Settings) (ls : List (Label Json)) (s : System Json) :
    Prop where
  /-- Every outcome that commits finds the row claimed under its token. -/
  fenced : Along (step cfg) (fun s l => outcomeFenced s l) start ls
  once : ∀ slot ∈ s.tasks.rows, slot.history.countP Event.isSettlement ≤ 1
  /-- A token whose claim was taken back never settles the task. -/
  stale : ∀ slot ∈ s.tasks.rows, ∀ pre lease now post token,
    slot.history = pre ++ .reclaimed lease now :: post → token ∈ tokensOf pre →
    .settled token ∉ post
  final : ∀ as bs m, ls = as ++ bs → exec (step cfg) start as = some m →
    ∀ id slot, m.tasks.get id = some slot → Settled slot.row →
    ∃ slot', s.tasks.get id = some slot' ∧ outcomeOf slot'.row = outcomeOf slot.row

/-- A run keeps what token fencing promises exactly if each of its outcomes commits on a
row that only heartbeats have written since the handler loaded it. -/
theorem outcomes_fenced_iff (cfg : Settings) (ls : List (Label Json)) (s : System Json)
    (hrun : exec (step cfg) start ls = some s) :
    OutcomesFenced cfg ls s ↔ Along (step cfg) (fun s l => undisturbed s l) start ls := by
  have hiff : Along (step cfg) (fun s l => outcomeFenced s l) start ls ↔
      Along (step cfg) (fun s l => undisturbed s l) (start : System Json) ls :=
    along_congr step_inv (fun s l t hs _ => fenced_iff_undisturbed hs l) start_inv ls
  constructor
  · exact fun h => hiff.1 h.fenced
  · intro hu
    have hf := hiff.2 hu
    have hs : FencedInv s := invariant_along step_fencedInv start_fencedInv hf hrun
    have hcommitted : ∀ slot ∈ s.tasks.rows, LawfulFrom Lapsed .absent slot.history ∧
        (tokensOf slot.history).Nodup := by
      intro slot hmem
      have hg := Table.get_of_mem hmem
      refine ⟨(lawfulFrom_append.1 (hs.lawful _ slot hg)).1, ?_⟩
      have hn := (hs.inv.slots _ slot hg).nodup
      rw [Slot.events, tokensOf_append] at hn
      exact (List.nodup_append.1 hn).1
    refine ⟨hf, fun slot hmem => settlements_le_one (hcommitted slot hmem).1, ?_, ?_⟩
    · intro slot hmem pre lease now post token he ht
      obtain ⟨hlaw, hn⟩ := hcommitted slot hmem
      rw [he] at hlaw hn
      exact stale_never_settles hlaw hn ht
    · rintro as bs m rfl hm id slot hg hsettled
      obtain ⟨hfa, hfb⟩ := Along.split hf hm
      rw [exec_append hm] at hrun
      have hsm : FencedInv m := invariant_along step_fencedInv start_fencedInv hfa hm
      exact run_outcome hsm hfb hrun hg hsettled

/-- `complete_task` loads the row, the lease runs out, another worker sweeps and claims,
and the stale outcome commits on its claim. -/
def staleOutcome : List (Label (List ℕ)) :=
  let first : ClaimRequest := ⟨["music_generation"], "worker-1", some 1, 10⟩
  let second : ClaimRequest := ⟨["music_generation"], "worker-2", none, minutes 1 + 11⟩
  [.submitTask "a" "music_generation" [] none none 0 1,
    .beginSweep 0 first fun _ => 0, .beginSelect 0 "token-1" fun _ => 0, .selectRow 0,
    .commitClaim 0,
    .loadOutcome 0 "a" "token-1" (.complete [1]),
    .beginSweep 1 second fun _ => 0, .sweepRow 1, .beginSelect 1 "token-2" fun _ => 0,
    .selectRow 1, .commitClaim 1,
    .commitOutcome 0 (minutes 1 + 12)]

theorem outcomes_not_fenced :
    ¬∀ (ls : List (Label (List ℕ))) (s : System (List ℕ)),
      exec (step {}) start ls = some s → OutcomesFenced {} ls s :=
  fun h => absurd (h staleOutcome _ rfl).fenced (by decide)

/-- A heartbeat commits between the load and the commit of the outcome. -/
def renewedOutcome : List (Label (List ℕ)) :=
  let first : ClaimRequest := ⟨["music_generation"], "worker-1", some 1, 10⟩
  let busy : Heartbeat (List ℕ) := ⟨"worker-1", "session", .busy, some "a", some "token-1",
    some "sampling", none, some 1, some 4, none⟩
  [.submitTask "a" "music_generation" [] none none 0 1,
    .loadRegister 0 ⟨"worker-1", "mac", "session", [], none, none⟩ 2, .commitRegister 0,
    .beginSweep 0 first fun _ => 0, .beginSelect 0 "token-1" fun _ => 0, .selectRow 0,
    .commitClaim 0,
    .loadOutcome 0 "a" "token-1" (.complete [1]),
    .loadHeartbeat 1 busy 20, .commitHeartbeat 1,
    .commitOutcome 0 21]

theorem outcomes_fenced_iff_renewedOutcome :
    ∃ s, exec (step {}) start renewedOutcome = some s ∧
      s.tasks.rows.map (fun slot => slot.row.status) = [.done] ∧
      OutcomesFenced {} renewedOutcome s :=
  ⟨_, rfl, by decide, (outcomes_fenced_iff {} renewedOutcome _ rfl).2 (by decide)⟩

end Runs
end TaskQueue.OutcomeFencing
