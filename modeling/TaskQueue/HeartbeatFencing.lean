import TaskQueue.ReadCommittedInvariant

/-!
# Heartbeats are fenced by sessions and claims while nothing comes between

`heartbeat` checks the session of the worker row and the claim of the task row on the
rows it loads and writes both by primary key later. A newer session, a sweep, a claim
or an outcome that commits in between is overwritten. A process that registers again
under the session id it loaded writes none, so that a newer session id stays stored.
-/

namespace TaskQueue.HeartbeatFencing
open KeyedTables TaskService WorkerService ClaimLifecycle ReadCommittedRequests
open ReadCommittedSteps ReadCommittedInvariant StepRuns

variable {Json : Type}

/-- The stored worker row carries the session of the heartbeat. -/
def sessionFenced (s : System Json) (req : Heartbeat Json) : Bool :=
  (s.workers.get req.workerId).any fun slot => slot.row.sessionId = req.sessionId

/-- The task row the heartbeat names, if any, is claimed by its worker under its token. -/
def claimFenced (s : System Json) (req : Heartbeat Json) : Bool :=
  req.currentTaskId.all fun taskId => (s.tasks.get taskId).any fun slot =>
    slot.row.status = .claimed && slot.row.claimedBy = some req.workerId &&
      slot.row.claimToken = req.claimToken

/-- If the step is the commit of a heartbeat, both rows are the ones it may write. -/
def heartbeatFenced (s : System Json) : Label Json → Bool
  | .commitHeartbeat handler =>
    match s.handlers handler with
    | .beating req _ _ _ _ _ => sessionFenced s req && claimFenced s req
    | _ => true
  | _ => true

/-- The last session id that has been stored since the load, if any, is the heartbeat's. -/
def sessionUndisturbed (s : System Json) (req : Heartbeat Json) (seenSessions : ℕ) : Bool :=
  (s.workers.get req.workerId).all fun slot =>
    (slot.sessions.drop seenSessions).getLast?.all (· = req.sessionId)

/-- Only heartbeats have written the named task row since the load. -/
def claimUndisturbed (s : System Json) (req : Heartbeat Json) (seen : ℕ) : Bool :=
  req.currentTaskId.all fun taskId => (s.tasks.get taskId).all fun slot =>
    (slot.history.drop seen).all Event.isRenewal

/-- If the step is the commit of a heartbeat, nothing has come between its loads and it. -/
def undisturbed (s : System Json) : Label Json → Bool
  | .commitHeartbeat handler =>
    match s.handlers handler with
    | .beating req _ _ _ seenSessions seen =>
      sessionUndisturbed s req seenSessions && claimUndisturbed s req seen
    | _ => true
  | _ => true

theorem getLast_append_of_take {α : Type} [DecidableEq α] {xs : List α} {n : ℕ} {a : α}
    (h : (xs.take n).getLast? = some a) :
    xs.getLast? = some a ↔ (xs.drop n).getLast?.all (· = a) := by
  rw [← List.take_append_drop n xs, List.getLast?_append, List.take_append_drop, h]
  cases (xs.drop n).getLast? <;> simp

section Invariant
variable {s : System Json} (hinv : Inv s) {handler : ℕ} {req : Heartbeat Json} {now : Time}
  {worker : Worker Json} {task : Option (Task Json)} {seenSessions seen : ℕ}
  (hh : s.handlers handler = .beating req now worker task seenSessions seen)
include hinv hh

theorem sessionFenced_iff : sessionFenced s req ↔ sessionUndisturbed s req seenSessions := by
  have hknown := hinv.handlers handler
  rw [hh] at hknown
  obtain ⟨⟨slot, hg, -, hlast⟩, -⟩ := hknown
  have hrow : slot.row.sessionId = req.sessionId ↔
      (slot.sessions.drop seenSessions).getLast?.all (· = req.sessionId) := by
    rw [← getLast_append_of_take hlast, hinv.workers _ slot hg, Option.some_inj]
  simpa [sessionFenced, sessionUndisturbed, hg] using hrow

theorem claimFenced_iff : claimFenced s req ↔ claimUndisturbed s req seen := by
  have hknown := hinv.handlers handler
  rw [hh] at hknown
  cases hid : req.currentTaskId with
  | none => simp [claimFenced, claimUndisturbed, hid]
  | some taskId =>
    obtain ⟨slot, hg, -, ho⟩ := hknown.2 taskId hid
    have hslot := hinv.slots taskId slot hg
    have hrow : (phase slot.row).Owned (some req.workerId) req.claimToken ↔
        ∀ e ∈ slot.history.drop seen, e.isRenewal := by
      rw [hslot.rowPhase, ← List.take_append_drop seen slot.history, after_append,
        List.take_append_drop]
      exact owned_iff_renewals ho (token_not_later hslot ho.under)
    rw [owned_phase_iff] at hrow
    simpa [claimFenced, claimUndisturbed, hid, hg, and_assoc] using hrow

end Invariant

/-- A heartbeat meets the session and the claim it was checked against exactly if its
rows are undisturbed. -/
theorem fenced_iff_undisturbed {s : System Json} (hinv : Inv s) (l : Label Json) :
    heartbeatFenced s l ↔ undisturbed s l := by
  cases l with
  | commitHeartbeat handler =>
    simp only [heartbeatFenced, undisturbed]
    cases hh : s.handlers handler with
    | beating req now worker task seenSessions seen =>
      simp only [Bool.and_eq_true]
      rw [sessionFenced_iff hinv hh, claimFenced_iff hinv hh]
    | _ => simp
  | _ => exact Iff.rfl

section Runs
variable [DecidableEq Json] [EmptyCollection Json]

/-- If the step is the commit of a heartbeat, it writes no task row but one that is
claimed by its worker under its token, and no worker row of another session. -/
def Harmless (cfg : Settings) (s : System Json) (l : Label Json) : Prop :=
  ∀ handler req now worker task seenSessions seen t, l = .commitHeartbeat handler →
    s.handlers handler = .beating req now worker task seenSessions seen →
    step cfg s l = some t →
    (∀ id slot, s.tasks.get id = some slot → t.tasks.get id = some slot ∨
      slot.row.status = .claimed ∧ slot.row.claimedBy = some req.workerId ∧
        slot.row.claimToken = req.claimToken) ∧
    ∀ id slot, s.workers.get id = some slot → t.workers.get id = some slot ∨
      slot.row.sessionId = req.sessionId

theorem harmless_of_fenced {cfg : Settings} {s : System Json} {l : Label Json}
    (hf : heartbeatFenced s l) : Harmless cfg s l := by
  rintro handler req now worker task seenSessions seen t rfl hh hstep
  simp only [heartbeatFenced, hh, Bool.and_eq_true] at hf
  obtain ⟨hsession, hclaim⟩ := hf
  constructor
  · intro id slot hg
    obtain ⟨slot', hg', hm⟩ := step_slot hstep hg
    cases hm with
    | stay => exact .inl hg'
    | renew hh' hid hgs hlock =>
      cases hh.symm.trans hh'
      right
      simpa [claimFenced, hid, hgs, and_assoc] using hclaim
  · intro id slot hg
    obtain ⟨slot', hg', hm⟩ := step_worker hstep hg
    cases hm with
    | stay => exact .inl hg'
    | beat hh' hgs =>
      cases hh.symm.trans hh'
      right
      simpa [sessionFenced, hgs] using hsession

/-- What fencing promises of the heartbeats of a run. -/
structure HeartbeatsFenced (cfg : Settings) (ls : List (Label Json)) : Prop where
  /-- Every heartbeat that commits finds its session and its claim. -/
  fenced : Along (step cfg) (fun s l => heartbeatFenced s l) start ls
  harmless : Along (step cfg) (Harmless cfg) start ls

/-- The heartbeats of a run are fenced exactly if each of them commits on a worker row
whose last stored session id since the load, if any, is its own, and on a task row that
only heartbeats have written since. -/
theorem heartbeats_fenced_iff (cfg : Settings) (ls : List (Label Json)) :
    HeartbeatsFenced cfg ls ↔ Along (step cfg) (fun s l => undisturbed s l) start ls := by
  have hiff : Along (step cfg) (fun s l => heartbeatFenced s l) start ls ↔
      Along (step cfg) (fun s l => undisturbed s l) (start : System Json) ls :=
    along_congr step_inv (fun s l t hs _ => fenced_iff_undisturbed hs l) start_inv ls
  constructor
  · exact fun h => hiff.1 h.fenced
  · intro hu
    have hf := hiff.2 hu
    exact ⟨hf, hf.mono fun s l => harmless_of_fenced⟩

/-- The completion that the worker sends from its other thread and the registration of
a new worker process commit between the loads and the commit of a heartbeat. -/
def lateHeartbeat : List (Label (List ℕ)) :=
  let claim : ClaimRequest := ⟨["music_generation"], "worker-1", none, 10⟩
  let busy : Heartbeat (List ℕ) := ⟨"worker-1", "session-1", .busy, some "a", some "token-1",
    some "sampling", none, some 1, some 4, none⟩
  [.submitTask "a" "music_generation" [] none none 0 1,
    .loadRegister 0 ⟨"worker-1", "mac", "session-1", [], none, none⟩ 2, .commitRegister 0,
    .beginSweep 0 claim fun _ => 0, .beginSelect 0 "token-1" fun _ => 0, .selectRow 0,
    .commitClaim 0,
    .loadHeartbeat 1 busy 20,
    .loadOutcome 0 "a" "token-1" (.complete [1]), .commitOutcome 0 21,
    .loadRegister 0 ⟨"worker-1", "mac", "session-2", [], none, none⟩ 22, .commitRegister 0,
    .commitHeartbeat 1]

theorem heartbeats_not_fenced :
    ¬∀ ls : List (Label (List ℕ)), HeartbeatsFenced {} ls :=
  fun h => absurd (h lateHeartbeat).fenced (by decide)

end Runs
end TaskQueue.HeartbeatFencing
