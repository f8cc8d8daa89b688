import TaskQueue.Authentication
import TaskQueue.SerialRequests
import Mathlib.Tactic.Linarith

/-!
# Which workers are shown as online

`is_online` compares the clock with `last_heartbeat_at` when the list is read. Over a run of
requests the list then shows exactly the workers that have registered or sent a heartbeat within
the last two minutes, and only the newest session of a worker can keep it there.
-/

namespace TaskQueue.WorkerPresence
open KeyedTables TaskService WorkerService SerialRequests StepRuns
open Authentication (seconds)

variable {Json : Type}

/-- `OFFLINE_AFTER_SECONDS`. -/
def offlineAfterSeconds : Int := 120

/-- `is_online`. -/
def isOnline (worker : Worker Json) (now : Time) : Bool :=
  now - worker.lastHeartbeatAt ≤ seconds offlineAfterSeconds

/-- `list_workers`: `ORDER BY last_heartbeat_at DESC`. -/
def listWorkers (workers : WorkerTable Json) : List (Worker Json) :=
  workers.rows.insertionSort fun a b => b.lastHeartbeatAt ≤ a.lastHeartbeatAt

theorem mem_listWorkers {workers : WorkerTable Json} {worker : Worker Json} :
    worker ∈ listWorkers workers ↔ workers.get worker.id = some worker := by
  rw [listWorkers, (List.perm_insertionSort _ _).mem_iff, Table.get_eq_some_iff]
  exact (and_iff_left rfl).symm

/-- The workers that are online stand first in the list. -/
theorem listWorkers_online_first (workers : WorkerTable Json) (now : Time) :
    (listWorkers workers).Pairwise fun a b => isOnline b now = true → isOnline a now = true := by
  have : Std.Total fun a b : Worker Json => b.lastHeartbeatAt ≤ a.lastHeartbeatAt :=
    ⟨fun a b => le_total _ _⟩
  have : IsTrans (Worker Json) fun a b => b.lastHeartbeatAt ≤ a.lastHeartbeatAt :=
    ⟨fun a b c hab hbc => le_trans hbc hab⟩
  refine List.Pairwise.imp (fun {a b} hle hb => ?_) (List.pairwise_insertionSort _ workers.rows)
  simp only [isOnline, decide_eq_true_eq] at hb ⊢
  exact (sub_le_sub_left hle now).trans hb

/-- An accepted request by which a worker shows that it is there. -/
inductive Sign
  | registered (sessionId : String) (time : Time)
  | beat (sessionId : String) (time : Time)
  deriving DecidableEq

def Sign.time : Sign → Time
  | .registered _ time => time
  | .beat _ time => time

def nextSession : Option (String × Time) → Sign → Option (String × Time)
  | _, .registered sessionId time => some (sessionId, time)
  | session, .beat _ _ => session

/-- The session that the last registration has begun, and when. -/
def sessionOf (signs : List Sign) : Option (String × Time) := signs.foldl nextSession none

@[simp] theorem sessionOf_concat (signs : List Sign) (sign : Sign) :
    sessionOf (signs ++ [sign]) = nextSession (sessionOf signs) sign := by
  rw [sessionOf, List.foldl_append]
  rfl

theorem mem_of_sessionOf {signs : List Sign} {sessionId : String} {time : Time}
    (h : sessionOf signs = some (sessionId, time)) : .registered sessionId time ∈ signs := by
  induction signs using List.reverseRecOn with
  | nil => cases h
  | append_singleton signs sign ih =>
    rw [sessionOf_concat] at h
    rw [List.mem_append]
    cases sign with
    | registered sessionId' time' =>
      cases h
      exact .inr (List.mem_singleton_self _)
    | beat sessionId' time' => exact .inl (ih h)

section Moves
variable [EmptyCollection Json] (cfg : Settings)

/-- The sign that a request is of a worker, as its response shows it. -/
def signOf (id : String) (s : Served Json) (r : Timed Json) : List Sign :=
  match r.request with
  | .registerWorker req => match (handle cfg s.db r).2 with
    | .accepted => if req.workerId = id then [.registered req.sessionId r.now] else []
    | _ => []
  | .heartbeat req => match (handle cfg s.db r).2 with
    | .accepted => if req.workerId = id then [.beat req.sessionId r.now] else []
    | _ => []
  | _ => []

/-- What one request can do to the row of a worker, with the sign that it is. -/
inductive WorkerMove (r : Timed Json) (worker : Worker Json) :
    List Sign → Option (Worker Json) → Prop
  | keep (currentTaskId : Option TaskId) :
      WorkerMove r worker [] (some { worker with currentTaskId := currentTaskId })
  | register {req} (request : r.request = .registerWorker req) :
      WorkerMove r worker [.registered req.sessionId r.now] (some (registerRow req r.now worker))
  | beat {req} (request : r.request = .heartbeat req)
      (session : worker.sessionId = req.sessionId) :
      WorkerMove r worker [.beat req.sessionId r.now] (some (beatWorker req r.now worker))
  | delete (request : r.request = .cleanupWorkers)
      (old : worker.lastHeartbeatAt < r.now - days 30) : WorkerMove r worker [] none

variable {cfg} {s : Served Json} {r : Timed Json} {id : String}

/-- One request moves the row of a worker in one of these ways. -/
theorem worker_move (cfg : Settings) (r : Timed Json) {worker : Worker Json}
    (hg : s.db.workers.get id = some worker) :
    WorkerMove r worker (signOf cfg id s r) ((handle cfg s.db r).1.workers.get id) := by
  obtain ⟨now, later, request⟩ := r
  have hid := Table.key_of_get hg
  have stay {r : Timed Json} : WorkerMove r worker [] (some worker) := .keep worker.currentTaskId
  cases request with
  | submitTask newId taskType payload leaseMinutes retentionHours =>
    cases hsub : submitTask cfg now later newId s.db.tasks taskType payload leaseMinutes
      retentionHours <;> simp only [signOf, handle, hsub, hg] <;> exact stay
  | claimNext claimToken taskTypes workerId leaseMinutes =>
    cases hclaim : claimNext now claimToken s.db.tasks taskTypes workerId leaseMinutes <;>
      simp only [signOf, handle, hclaim, hg] <;> exact stay
  | completeTask taskId claimToken result =>
    cases hsettle : completeTask now s.db.tasks taskId claimToken result <;>
      simp only [signOf, handle, hsettle, hg] <;> exact stay
  | failTask taskId claimToken error =>
    cases hsettle : failTask now s.db.tasks taskId claimToken error <;>
      simp only [signOf, handle, hsettle, hg] <;> exact stay
  | registerWorker req =>
    cases hreg : registerWorker now s.db.workers req with
    | error e =>
      simp only [signOf, handle, hreg, hg]
      exact stay
    | ok p =>
      simp only [signOf, handle, hreg]
      rcases registerWorker_ok_iff.1 hreg with ⟨hnew, rfl⟩ | ⟨found, hfound, -, rfl⟩
      · have hne : req.workerId ≠ id := by
          rintro rfl
          cases hnew.symm.trans hg
        have hnot : id ≠ (newWorker req now).id := Ne.symm hne
        rw [if_neg hne, Table.get_insertNew, if_neg hnot, hg]
        exact stay
      · by_cases hwho : req.workerId = id
        · subst hwho
          rw [if_pos rfl, Table.get_modify_self, hg]
          exact .register rfl
        · rw [if_neg hwho, Table.get_modify_of_ne _ _ _ (Ne.symm hwho), hg]
          exact stay
  | heartbeat req =>
    cases hbeat : heartbeat now s.db.tasks s.db.workers req with
    | error e =>
      simp only [signOf, handle, hbeat, hg]
      exact stay
    | ok p =>
      obtain ⟨hok, rfl⟩ := heartbeat_ok_iff.1 hbeat
      simp only [signOf, handle, hbeat]
      by_cases hwho : req.workerId = id
      · subst hwho
        obtain ⟨found, hfound, hsession, -⟩ := checkWorker_ok_iff.1 (checkHeartbeat_ok_iff.1 hok).1
        cases hg.symm.trans hfound
        rw [if_pos rfl, Table.get_modify_self, hg]
        exact .beat rfl hsession
      · rw [if_neg hwho, Table.get_modify_of_ne _ _ _ (Ne.symm hwho), hg]
        exact stay
  | cleanupTasks =>
    simp only [signOf, handle, cleanupTasks, Table.get_mapRows, hg, Option.map_some]
    exact .keep _
  | cleanupWorkers =>
    simp only [signOf, handle, cleanupWorkers, Table.get_filter, hg]
    by_cases hold : worker.lastHeartbeatAt < now - days 30
    · simpa [hold, Option.filter] using WorkerMove.delete rfl hold
    · simpa [hold, Option.filter] using stay
  | rescan rank =>
    simp only [signOf, handle, hg]
    exact stay

/-- A worker that is not there appears by its registration only. -/
theorem worker_absent (cfg : Settings) (r : Timed Json) (hg : s.db.workers.get id = none) :
    (signOf cfg id s r = [] ∧ (handle cfg s.db r).1.workers.get id = none) ∨
    ∃ req, r.request = .registerWorker req ∧
      signOf cfg id s r = [.registered req.sessionId r.now] ∧
      (handle cfg s.db r).1.workers.get id = some (newWorker req r.now) := by
  obtain ⟨now, later, request⟩ := r
  cases request with
  | submitTask newId taskType payload leaseMinutes retentionHours =>
    cases hsub : submitTask cfg now later newId s.db.tasks taskType payload leaseMinutes
      retentionHours <;> exact .inl ⟨rfl, by simp only [handle, hsub, hg]⟩
  | claimNext claimToken taskTypes workerId leaseMinutes =>
    cases hclaim : claimNext now claimToken s.db.tasks taskTypes workerId leaseMinutes <;>
      exact .inl ⟨rfl, by simp only [handle, hclaim, hg]⟩
  | completeTask taskId claimToken result =>
    cases hsettle : completeTask now s.db.tasks taskId claimToken result <;>
      exact .inl ⟨rfl, by simp only [handle, hsettle, hg]⟩
  | failTask taskId claimToken error =>
    cases hsettle : failTask now s.db.tasks taskId claimToken error <;>
      exact .inl ⟨rfl, by simp only [handle, hsettle, hg]⟩
  | registerWorker req =>
    cases hreg : registerWorker now s.db.workers req with
    | error e => exact .inl (by simp [signOf, handle, hreg, hg])
    | ok p =>
      simp only [signOf, handle, hreg]
      by_cases hwho : req.workerId = id
      · subst hwho
        refine .inr ⟨req, rfl, if_pos rfl, ?_⟩
        rcases registerWorker_ok_iff.1 hreg with ⟨hnew, rfl⟩ | ⟨found, hfound, -, rfl⟩
        · have hid : req.workerId = (newWorker req now).id := rfl
          rw [Table.get_insertNew, if_pos hid]
        · cases hfound.symm.trans hg
      · refine .inl ⟨if_neg hwho, ?_⟩
        rcases registerWorker_ok_iff.1 hreg with ⟨hnew, rfl⟩ | ⟨found, hfound, -, rfl⟩
        · have hnot : id ≠ (newWorker req now).id := Ne.symm hwho
          rw [Table.get_insertNew, if_neg hnot, hg]
        · rw [Table.get_modify_of_ne _ _ _ (Ne.symm hwho), hg]
  | heartbeat req =>
    cases hbeat : heartbeat now s.db.tasks s.db.workers req with
    | error e => exact .inl (by simp [signOf, handle, hbeat, hg])
    | ok p =>
      obtain ⟨hok, rfl⟩ := heartbeat_ok_iff.1 hbeat
      obtain ⟨found, hfound, -⟩ := checkWorker_ok_iff.1 (checkHeartbeat_ok_iff.1 hok).1
      have hwho : req.workerId ≠ id := by
        rintro rfl
        cases hg.symm.trans hfound
      simp only [signOf, handle, hbeat]
      exact .inl ⟨if_neg hwho, by rw [Table.get_modify_of_ne _ _ _ (Ne.symm hwho), hg]⟩
  | cleanupTasks => exact .inl ⟨rfl, by simp [handle, cleanupTasks, hg]⟩
  | cleanupWorkers => exact .inl ⟨rfl, by simp [handle, cleanupWorkers, Table.get_filter, hg]⟩
  | rescan rank => exact .inl ⟨rfl, by simp [handle, hg]⟩

end Moves

section Runs
variable [EmptyCollection Json] {cfg : Settings} {id : String}

/-- What the signs of a worker and its row have to do with each other. -/
structure Seen (signs : List Sign) (clock : Time) (row : Option (Worker Json)) : Prop where
  ordered : signs.Pairwise fun a b => a.time ≤ b.time
  past : ∀ sign ∈ signs, sign.time ≤ clock
  last : ∀ worker, row = some worker →
    signs.getLast?.map Sign.time = some worker.lastHeartbeatAt
  session : ∀ worker, row = some worker →
    sessionOf signs = some (worker.sessionId, worker.sessionStartedAt) ∧
      worker.registeredAt ≤ worker.sessionStartedAt
  gone : row = none → ∀ sign ∈ signs, sign.time < clock - days 30
  fenced : ∀ pre sessionId time, pre ++ [.beat sessionId time] <+: signs →
    ∃ started, sessionOf pre = some (sessionId, started)

omit [EmptyCollection Json] in
/-- The row shows the last sign. -/
theorem Seen.le_last {signs : List Sign} {clock : Time} {worker : Worker Json}
    (h : Seen signs clock (some worker)) {sign : Sign} (hs : sign ∈ signs) :
    sign.time ≤ worker.lastHeartbeatAt := by
  obtain ⟨last, hlast, hshown⟩ := Option.map_eq_some_iff.1 (h.last worker rfl)
  obtain ⟨pre, rfl⟩ := List.getLast?_eq_some_iff.1 hlast
  rw [← hshown]
  rcases List.mem_append.1 hs with hs | hs
  · exact (List.pairwise_append.1 h.ordered).2.2 sign hs last (List.mem_singleton_self _)
  · rw [List.mem_singleton.1 hs]

omit [EmptyCollection Json] in
/-- A new sign comes after all others. -/
theorem Seen.ordered_concat {signs : List Sign} {clock : Time} {row : Option (Worker Json)}
    (h : Seen signs clock row) {sign : Sign} (hs : clock ≤ sign.time) :
    (signs ++ [sign]).Pairwise fun a b => a.time ≤ b.time := by
  refine List.pairwise_append.2 ⟨h.ordered, List.pairwise_singleton _ _, ?_⟩
  intro a ha b hb
  rw [List.mem_singleton.1 hb]
  exact (h.past a ha).trans hs

omit [EmptyCollection Json] in
/-- A new sign keeps what is behind it. -/
theorem Seen.append {signs : List Sign} {clock later : Time} {row : Option (Worker Json)}
    (h : Seen signs clock row) (sign : Sign) (hle : clock ≤ sign.time) (hle' : sign.time ≤ later)
    {worker : Worker Json} (hlast : worker.lastHeartbeatAt = sign.time)
    (hsession : nextSession (sessionOf signs) sign =
      some (worker.sessionId, worker.sessionStartedAt))
    (hregistered : worker.registeredAt ≤ worker.sessionStartedAt)
    (hfenced : ∀ sessionId time, sign = .beat sessionId time →
      ∃ started, sessionOf signs = some (sessionId, started)) :
    Seen (signs ++ [sign]) later (some worker) where
  ordered := h.ordered_concat hle
  past := by
    intro x hx
    rcases List.mem_append.1 hx with hx | hx
    · exact (h.past x hx).trans (hle.trans hle')
    · rw [List.mem_singleton.1 hx]
      exact hle'
  last := by
    rintro x ⟨⟩
    simp [hlast]
  session := by
    rintro x ⟨⟩
    rw [sessionOf_concat]
    exact ⟨hsession, hregistered⟩
  gone := by
    rintro ⟨⟩
  fenced := by
    intro pre sessionId time hpre
    rcases List.prefix_concat_iff.1 hpre with heq | hpre
    · obtain ⟨rfl, hsign⟩ := List.append_inj' heq rfl
      exact hfenced sessionId time (List.singleton_inj.1 hsign).symm
    · exact h.fenced pre sessionId time hpre

theorem step_seen {signs : List Sign} {s t : Served Json} {r : Timed Json}
    (hstep : step cfg s r = some t) (h : Seen signs s.clock (s.db.workers.get id)) :
    Seen (signs ++ signOf cfg id s r) t.clock (t.db.workers.get id) := by
  obtain ⟨hle, hle', rfl⟩ := step_inv cfg hstep
  have hpast : ∀ sign ∈ signs, sign.time ≤ r.later :=
    fun sign hs => (h.past sign hs).trans (hle.trans hle')
  dsimp only
  cases hg : s.db.workers.get id with
  | none =>
    rw [hg] at h
    rcases worker_absent cfg r hg with ⟨hsigns, hnone⟩ | ⟨req, -, hsigns, hsome⟩
    · rw [hsigns, List.append_nil, hnone]
      refine ⟨h.ordered, hpast, nofun, nofun, fun _ sign hs => ?_, h.fenced⟩
      exact (h.gone rfl sign hs).trans_le (sub_le_sub_right (hle.trans hle') _)
    · rw [hsigns, hsome]
      exact h.append (.registered req.sessionId r.now) hle hle' rfl rfl le_rfl nofun
  | some worker =>
    have hmove := worker_move cfg r hg
    rw [hg] at h
    obtain ⟨hsession, hregistered⟩ := h.session worker rfl
    generalize signOf cfg id s r = new at hmove
    generalize (handle cfg s.db r).1.workers.get id = row at hmove
    cases hmove with
    | keep currentTaskId =>
      rw [List.append_nil]
      refine ⟨h.ordered, hpast, ?_, ?_, nofun, h.fenced⟩
      · rintro x ⟨⟩
        exact h.last worker rfl
      · rintro x ⟨⟩
        exact ⟨hsession, hregistered⟩
    | @register req request =>
      have hstarted : worker.sessionStartedAt ≤ r.now :=
        (h.past _ (mem_of_sessionOf hsession)).trans hle
      exact h.append (.registered req.sessionId r.now) hle hle' rfl rfl
        (hregistered.trans hstarted) nofun
    | @beat req request hsame =>
      refine h.append (.beat req.sessionId r.now) hle hle' rfl hsession hregistered ?_
      rintro sessionId time ⟨⟩
      exact ⟨_, hsame ▸ hsession⟩
    | delete request old =>
      rw [List.append_nil]
      refine ⟨h.ordered, hpast, nofun, nofun, fun _ sign hs => ?_, h.fenced⟩
      exact ((h.le_last hs).trans_lt old).trans_le (sub_le_sub_right hle' _)

variable (cfg)

/-- The signs of a worker in a run of requests. -/
def signsOf (id : String) (clock : Time) (rs : List (Timed Json)) : List Sign :=
  gather (step cfg) (signOf cfg id) (start clock) rs

variable {cfg}

theorem run_seen {clock : Time} {rs : List (Timed Json)} {s : Served Json}
    (hrun : exec (step cfg) (start clock) rs = some s) (id : String) :
    Seen (signsOf cfg id clock rs) s.clock (s.db.workers.get id) := by
  refine invariant_with_past
    (I := fun rs s => Seen (signsOf cfg id clock rs) s.clock (s.db.workers.get id)) ?_ ?_ hrun
  · refine ⟨List.Pairwise.nil, nofun, nofun, nofun, nofun, fun pre sessionId time hpre => ?_⟩
    have hnil := List.prefix_nil.1 hpre
    simp at hnil
  · intro ks m r n hks ih hr
    rw [signsOf, gather_concat hks hr]
    exact step_seen hr ih

/-- What the list of workers says about one of them. -/
structure Presence (id : String) (signs : List Sign) (s : Served Json) : Prop where
  /-- The worker is shown as online exactly if it has shown itself in the last two minutes. -/
  online : ∀ now, s.clock ≤ now →
    ((∃ worker ∈ listWorkers s.db.workers, worker.id = id ∧ isOnline worker now = true) ↔
      ∃ sign ∈ signs, now - sign.time ≤ seconds offlineAfterSeconds)
  /-- The session shown is that of the last registration. -/
  shown : ∀ worker ∈ listWorkers s.db.workers, worker.id = id →
    sessionOf signs = some (worker.sessionId, worker.sessionStartedAt) ∧
      worker.registeredAt ≤ worker.sessionStartedAt ∧
      worker.sessionStartedAt ≤ worker.lastHeartbeatAt ∧ worker.lastHeartbeatAt ≤ s.clock
  /-- Only the session of the last registration is heard. -/
  fenced : ∀ pre sessionId time, pre ++ [.beat sessionId time] <+: signs →
    ∃ started, sessionOf pre = some (sessionId, started)

theorem worker_presence (cfg : Settings) (clock : Time) (rs : List (Timed Json))
    (s : Served Json) (hrun : exec (step cfg) (start clock) rs = some s) (id : String) :
    Presence id (signsOf cfg id clock rs) s := by
  have hseen := run_seen hrun id
  have hlisted : ∀ worker ∈ listWorkers s.db.workers, worker.id = id →
      s.db.workers.get id = some worker := by
    rintro worker hmem rfl
    exact mem_listWorkers.1 hmem
  refine ⟨fun now hnow => ?_, fun worker hmem hid => ?_, hseen.fenced⟩
  · constructor
    · rintro ⟨worker, hmem, hid, honline⟩
      obtain ⟨last, hlast, hshown⟩ :=
        Option.map_eq_some_iff.1 (hseen.last worker (hlisted worker hmem hid))
      refine ⟨last, List.mem_of_getLast? hlast, ?_⟩
      rw [hshown]
      simpa [isOnline] using honline
    · rintro ⟨sign, hsign, hrecent⟩
      cases hg : s.db.workers.get id with
      | none =>
        have hold := hseen.gone hg sign hsign
        simp only [days, seconds, offlineAfterSeconds] at hold hrecent
        linarith only [hnow, hold, hrecent]
      | some worker =>
        have hid := Table.key_of_get hg
        refine ⟨worker, mem_listWorkers.2 (hid ▸ hg), hid, ?_⟩
        rw [hg] at hseen
        simp only [isOnline, decide_eq_true_eq]
        exact (sub_le_sub_left (hseen.le_last hsign) now).trans hrecent
  · have hg := hlisted worker hmem hid
    rw [hg] at hseen
    obtain ⟨hsession, hregistered⟩ := hseen.session worker rfl
    obtain ⟨last, hlast, hshown⟩ := Option.map_eq_some_iff.1 (hseen.last worker rfl)
    refine ⟨hsession, hregistered, hseen.le_last (mem_of_sessionOf hsession), ?_⟩
    rw [← hshown]
    exact hseen.past last (List.mem_of_getLast? hlast)

/-- A worker is started anew and its first process sends one more heartbeat. -/
def replacedSession : List (Timed (List ℕ)) :=
  let beat : Heartbeat (List ℕ) :=
    ⟨"worker-1", "first", .idle, none, none, none, none, none, none, none⟩
  [⟨0, 0, .registerWorker ⟨"worker-1", "Worker", "first", [], none, none⟩⟩,
    ⟨minutes 1, minutes 1, .heartbeat beat⟩,
    ⟨minutes 2, minutes 2, .registerWorker ⟨"worker-1", "Worker", "second", [], none, none⟩⟩,
    ⟨minutes 3, minutes 3, .heartbeat beat⟩]

theorem worker_presence_replacedSession :
    ∃ s, exec (step {}) (start 0) replacedSession = some s ∧
      signsOf {} "worker-1" 0 replacedSession =
        [.registered "first" 0, .beat "first" (minutes 1), .registered "second" (minutes 2)] ∧
      Presence "worker-1" (signsOf {} "worker-1" 0 replacedSession) s :=
  ⟨_, rfl, by decide, worker_presence {} 0 replacedSession _ rfl "worker-1"⟩

end Runs
end TaskQueue.WorkerPresence
