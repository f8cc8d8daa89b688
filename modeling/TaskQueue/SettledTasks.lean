import TaskQueue.LeaseRefinement
import TaskQueue.OutcomeFencing

/-!
# A settled task is final

Served one at a time, no request changes a settled row before the retention job deletes it.
So a producer that waits for a task with `wait_for_task` of `clients/python_client.py` is
given the outcome that stays stored.
-/

namespace TaskQueue.SettledTasks
open KeyedTables TaskService SerialRequests LeaseRefinement StepRuns
open OutcomeFencing (Settled)

variable {Json : Type}

theorem not_settled_of_claimed {task : Task Json} (h : task.status = .claimed) :
    ¬Settled task := by
  rintro (hs | hs) <;> cases h.symm.trans hs

theorem not_settled_of_queued {task : Task Json} (h : task.status = .queued) :
    ¬Settled task := by
  rintro (hs | hs) <;> cases h.symm.trans hs

/-- A request leaves a settled row as it is, or it is the job that deletes it. -/
theorem settled_move {r : Timed Json} {task : Task Json} {es} {out : Option (Task Json)}
    (h : RowMove r task es out) (hs : Settled task) :
    out = some task ∨ (out = none ∧ r.request = .cleanupTasks ∧ task.expiresAt < r.now) := by
  cases h with
  | stay => exact .inl rfl
  | sweep request expired => exact absurd hs (not_settled_of_claimed expired.1)
  | claim request queued listed => exact absurd hs (not_settled_of_queued queued)
  | reclaim request expired => exact absurd hs (not_settled_of_claimed expired.1)
  | settle request claimed token => exact absurd hs (not_settled_of_claimed claimed)
  | renew request named claimed owned token => exact absurd hs (not_settled_of_claimed claimed)
  | delete request old => exact .inr ⟨rfl, request, old⟩

/-- A row that is there is there until the retention job deletes it. -/
theorem stored_move {r : Timed Json} {task : Task Json} {es} {out : Option (Task Json)}
    (h : RowMove r task es out) : (∃ task', out = some task') ∨ r.request = .cleanupTasks := by
  cases h with
  | delete request old => exact .inr request
  | _ => exact .inl ⟨_, rfl⟩

/-- Some request of the list is the retention job after the row has expired. -/
def DeletedAmong (rs : List (Timed Json)) (task : Task Json) : Prop :=
  ∃ r ∈ rs, r.request = .cleanupTasks ∧ task.expiresAt < r.now

theorem DeletedAmong.mono {rs rs' : List (Timed Json)} {task : Task Json}
    (h : DeletedAmong rs task) (hsub : ∀ r ∈ rs, r ∈ rs') : DeletedAmong rs' task := by
  obtain ⟨r, hr, hd⟩ := h
  exact ⟨r, hsub r hr, hd⟩

variable [EmptyCollection Json] (cfg : Settings)

/-- A settled row outlives every run in which it is not deleted, unchanged. -/
theorem settled_kept {s t : Served Json} {rs : List (Timed Json)}
    (hrun : exec (step cfg) s rs = some t) {id : TaskId} {task : Task Json}
    (hg : s.db.tasks.get id = some task) (hs : Settled task) :
    t.db.tasks.get id = some task ∨ DeletedAmong rs task := by
  induction rs generalizing s with
  | nil => cases hrun; exact .inl hg
  | cons r rs ih =>
    obtain ⟨m, hm, hrest⟩ := exec_cons_inv hrun
    obtain ⟨-, -, rfl⟩ := step_inv cfg hm
    rcases settled_move (handle_move cfg r hg) hs with hkept | ⟨-, hr, hold⟩
    · rcases ih hrest hkept with h | h
      · exact .inl h
      · exact .inr (h.mono fun q hq => List.mem_cons_of_mem r hq)
    · exact .inr ⟨r, List.mem_cons_self, hr, hold⟩

section Wait

/-- Where `wait_for_task` stands. -/
inductive Client (Json : Type)
  | polling
  | checking (task : Task Json)
  | returned (task : Task Json)
  | timedOut (task : Task Json)
  | raised

structure Waiting (Json : Type) where
  server : Served Json
  client : Client Json

/-- `request` is any other request to the server, `failedPoll` a poll that brings no row,
`check` the reading of the client's clock after a poll. -/
inductive WaitLabel (Json : Type)
  | request (r : Timed Json)
  | poll
  | failedPoll
  | check (now : Time)

/-- `task["status"] in ("done", "failed")`. -/
def isSettled (task : Task Json) : Bool := task.status = .done || task.status = .failed

omit [EmptyCollection Json] in
theorem isSettled_iff {task : Task Json} : isSettled task = true ↔ Settled task := by
  simp [isSettled, Settled]

/-- One step of `wait_for_task`, begun at `begun`, or of the server. -/
def waitStep (taskId : TaskId) (timeout : Option Time) (begun : Time) (s : Waiting Json) :
    WaitLabel Json → Option (Waiting Json)
  | .request r => (step cfg s.server r).map fun server => { s with server := server }
  | .poll =>
    match s.client with
    | .polling =>
      match getTask s.server.db.tasks taskId with
      | .error _ => some { s with client := .raised }
      | .ok task =>
        some { s with client := if isSettled task then .returned task else .checking task }
    | _ => none
  | .failedPoll =>
    match s.client with
    | .polling => some { s with client := .raised }
    | _ => none
  | .check now =>
    match s.client with
    | .checking task =>
      some { s with client :=
        if timeout.any (· < now - begun) then .timedOut task else .polling }
    | _ => none

def WaitLabel.request? : WaitLabel Json → Option (Timed Json)
  | .request r => some r
  | _ => none

def WaitLabel.isPoll : WaitLabel Json → Bool
  | .poll => true
  | .failedPoll => true
  | _ => false

/-- The requests to the server in a run. -/
def requests (ls : List (WaitLabel Json)) : List (Timed Json) := ls.filterMap WaitLabel.request?

omit [EmptyCollection Json] in
theorem mem_requests_append {ls : List (WaitLabel Json)} (ks : List (WaitLabel Json))
    {r : Timed Json} (h : r ∈ requests ls) : r ∈ requests (ls ++ ks) := by
  rw [requests, List.filterMap_append]
  exact List.mem_append_left _ h

/-- What the end of the wait says, after the labels `ls`. -/
def Told (taskId : TaskId) (timeout : Option Time) (begun : Time) (ls : List (WaitLabel Json))
    (s : Waiting Json) : Prop :=
  match s.client with
  | .polling => True
  | .checking task => ¬Settled task
  | .returned task => Settled task ∧
      (s.server.db.tasks.get taskId = some task ∨ DeletedAmong (requests ls) task)
  | .timedOut task => ¬Settled task ∧ ∃ limit now, timeout = some limit ∧
      .check now ∈ ls ∧ limit < now - begun
  | .raised => .failedPoll ∈ ls ∨ ∃ r ∈ requests ls, r.request = .cleanupTasks

/-- What a run of the wait keeps. -/
structure WaitInv (taskId : TaskId) (timeout : Option Time) (begun : Time)
    (ls : List (WaitLabel Json)) (s : Waiting Json) : Prop where
  told : Told taskId timeout begun ls s
  stored : (∃ task, s.server.db.tasks.get taskId = some task) ∨
    ∃ r ∈ requests ls, r.request = .cleanupTasks

variable {cfg} {taskId : TaskId} {timeout : Option Time} {begun : Time}

theorem step_waitInv {ls : List (WaitLabel Json)} {s t : Waiting Json} {l : WaitLabel Json}
    (h : WaitInv taskId timeout begun ls s)
    (hstep : waitStep cfg taskId timeout begun s l = some t) :
    WaitInv taskId timeout begun (ls ++ [l]) t := by
  obtain ⟨server, client⟩ := s
  obtain ⟨htold, hstored⟩ := h
  have hstored' : (∃ task, server.db.tasks.get taskId = some task) ∨
      ∃ r ∈ requests (ls ++ [l]), r.request = .cleanupTasks := by
    refine hstored.imp_right ?_
    rintro ⟨r, hr, hc⟩
    exact ⟨r, mem_requests_append [l] hr, hc⟩
  cases l with
  | request r =>
    obtain ⟨server', hm, rfl⟩ := Option.map_eq_some_iff.1 hstep
    have hmem : r ∈ requests (ls ++ [.request r]) := by
      simp [requests, WaitLabel.request?]
    refine ⟨?_, ?_⟩
    · cases client with
      | polling => trivial
      | checking task => exact htold
      | returned task =>
        obtain ⟨hs, hkept⟩ := htold
        refine ⟨hs, ?_⟩
        rcases hkept with hg | hd
        · have hone : exec (step cfg) server [r] = some server' := exec_cons_of_step hm []
          rcases settled_kept cfg hone hg hs with hg' | hd
          · exact .inl hg'
          · refine .inr (hd.mono ?_)
            rintro q hq
            rw [List.mem_singleton.1 hq]
            exact hmem
        · exact .inr (hd.mono fun q hq => mem_requests_append _ hq)
      | timedOut task =>
        obtain ⟨hs, limit, now, hl, hnow, hlt⟩ := htold
        exact ⟨hs, limit, now, hl, List.mem_append_left _ hnow, hlt⟩
      | raised =>
        rcases htold with hf | ⟨q, hq, hc⟩
        · exact .inl (List.mem_append_left _ hf)
        · exact .inr ⟨q, mem_requests_append _ hq, hc⟩
    · rcases hstored' with ⟨task, hg⟩ | hd
      · obtain ⟨-, -, rfl⟩ := step_inv cfg hm
        rcases stored_move (handle_move cfg r hg) with hg' | hc
        · exact .inl hg'
        · exact .inr ⟨r, hmem, hc⟩
      · exact .inr hd
  | poll =>
    cases client with
    | polling =>
      simp only [waitStep] at hstep
      cases hget : getTask server.db.tasks taskId with
      | error e =>
        simp only [hget, Option.some.injEq] at hstep
        subst hstep
        refine ⟨?_, hstored'⟩
        rcases hstored' with ⟨task, hg⟩ | hd
        · rw [getTask_ok_iff.2 hg] at hget
          cases hget
        · exact .inr hd
      | ok task =>
        have hg := getTask_ok_iff.1 hget
        simp only [hget, Option.some.injEq] at hstep
        subst hstep
        refine ⟨?_, hstored'⟩
        by_cases hs : isSettled task = true
        · simp only [Told, hs, if_true]
          exact ⟨isSettled_iff.1 hs, .inl hg⟩
        · simp only [Told, hs]
          exact fun h => hs (isSettled_iff.2 h)
    | _ => cases hstep
  | failedPoll =>
    cases client with
    | polling =>
      cases hstep
      exact ⟨.inl (by simp), hstored'⟩
    | _ => cases hstep
  | check now =>
    cases client with
    | checking task =>
      cases hstep
      refine ⟨?_, hstored'⟩
      by_cases hover : timeout.any (· < now - begun) = true
      · obtain ⟨limit, hl, hlt⟩ := (Option.any_eq_true _ _).1 hover
        simp only [Told, hover, if_true]
        exact ⟨htold, limit, now, hl, by simp, of_decide_eq_true hlt⟩
      · simp [Told, hover]
    | _ => cases hstep

omit [EmptyCollection Json] in
/-- The wait is over. -/
def Over (s : Waiting Json) : Prop :=
  match s.client with
  | .polling => False
  | .checking _ => False
  | _ => True

theorem no_poll_of_over {ls : List (WaitLabel Json)} {s t : Waiting Json} (h : Over s)
    (hrun : exec (waitStep cfg taskId timeout begun) s ls = some t) :
    ls.countP WaitLabel.isPoll = 0 := by
  induction ls generalizing s with
  | nil => rfl
  | cons l ls ih =>
    obtain ⟨m, hm, hrest⟩ := exec_cons_inv hrun
    obtain ⟨server, client⟩ := s
    cases l with
    | request r =>
      obtain ⟨server', -, rfl⟩ := Option.map_eq_some_iff.1 hm
      have hover : Over (⟨server', client⟩ : Waiting Json) := h
      rw [List.countP_cons_of_neg (by simp [WaitLabel.isPoll])]
      exact ih hover hrest
    | _ => cases client <;> first | exact h.elim | cases hm

/-- Once the task is settled, or its row gone, one more poll ends the wait. -/
theorem one_poll_of_settled {ls : List (WaitLabel Json)} {s t : Waiting Json}
    (hsettled : ∀ task, s.server.db.tasks.get taskId = some task → Settled task)
    (hsubmit : ∀ r ∈ requests ls, submitted r.request ≠ some taskId)
    (hrun : exec (waitStep cfg taskId timeout begun) s ls = some t) :
    ls.countP WaitLabel.isPoll ≤ 1 := by
  induction ls generalizing s with
  | nil => simp
  | cons l ls ih =>
    obtain ⟨m, hm, hrest⟩ := exec_cons_inv hrun
    have hlater : ∀ r ∈ requests ls, submitted r.request ≠ some taskId := by
      intro r hr
      refine hsubmit r ?_
      rw [← List.singleton_append, requests, List.filterMap_append]
      exact List.mem_append_right _ hr
    obtain ⟨server, client⟩ := s
    cases l with
    | request r =>
      obtain ⟨server', hserver, rfl⟩ := Option.map_eq_some_iff.1 hm
      rw [List.countP_cons_of_neg (by simp [WaitLabel.isPoll])]
      refine ih ?_ hlater hrest
      intro task hg'
      obtain ⟨-, -, rfl⟩ := step_inv cfg hserver
      cases hg : server.db.tasks.get taskId with
      | none =>
        rcases handle_absent cfg r hg with
          ⟨-, habsent⟩ | ⟨_, _, _, _, _, hr, -⟩
        · cases habsent.symm.trans hg'
        · exact absurd (by rw [hr]; rfl) (hsubmit r (by simp [requests, WaitLabel.request?]))
      | some old =>
        rcases settled_move (handle_move cfg r hg) (hsettled old hg) with
          hkept | ⟨hgone, -⟩
        · cases hkept.symm.trans hg'
          exact hsettled task hg
        · cases hgone.symm.trans hg'
    | poll =>
      have hover : Over m := by
        cases client with
        | polling =>
          simp only [waitStep] at hm
          cases hget : getTask server.db.tasks taskId with
          | error e =>
            simp only [hget, Option.some.injEq] at hm
            subst hm
            trivial
          | ok task =>
            have hs := isSettled_iff.2 (hsettled task (getTask_ok_iff.1 hget))
            simp only [hget, hs, if_true, Option.some.injEq] at hm
            subst hm
            trivial
        | _ => cases hm
      rw [List.countP_cons_of_pos rfl, no_poll_of_over hover hrest]
    | failedPoll =>
      have hover : Over m := by
        cases client with
        | polling => cases hm; trivial
        | _ => cases hm
      rw [List.countP_cons_of_pos rfl, no_poll_of_over hover hrest]
    | check now =>
      rw [List.countP_cons_of_neg (by simp [WaitLabel.isPoll])]
      cases client with
      | checking task =>
        cases hm
        exact ih (s := ⟨server, if timeout.any (· < now - begun) then .timedOut task else .polling⟩)
          hsettled hlater hrest
      | _ => cases hm

/-- What `wait_for_task` does: the client `client` after the labels `ls`. -/
structure WaitsFor (cfg : Settings) (taskId : TaskId) (timeout : Option Time) (begun : Time)
    (server : Served Json) (ls : List (WaitLabel Json)) (s : Waiting Json) : Prop where
  /-- A row it returns is settled, and stored as it is until the retention job deletes it. -/
  returned : ∀ task, s.client = .returned task → Settled task ∧
    (s.server.db.tasks.get taskId = some task ∨ DeletedAmong (requests ls) task)
  /-- It gives up on an open task only, when its own clock has passed the limit. -/
  timedOut : ∀ task, s.client = .timedOut task → ¬Settled task ∧
    ∃ limit now, timeout = some limit ∧ .check now ∈ ls ∧ limit < now - begun
  /-- It raises for a poll that failed or a row that the retention job may have deleted. -/
  raised : s.client = .raised → .failedPoll ∈ ls ∨ ∃ r ∈ requests ls, r.request = .cleanupTasks
  /-- Once the task is settled it polls at most once more. -/
  prompt : ∀ as bs m, ls = as ++ bs →
    exec (waitStep cfg taskId timeout begun) ⟨server, .polling⟩ as = some m →
    (∃ task, m.server.db.tasks.get taskId = some task ∧ Settled task) →
    bs.countP WaitLabel.isPoll ≤ 1

/-- Whatever else the server is asked meanwhile, `wait_for_task` returns the final outcome of
a task that is there when it begins. -/
theorem wait_for_task_outcome (cfg : Settings) (taskId : TaskId) (timeout : Option Time)
    (begun : Time) (server : Served Json) (ls : List (WaitLabel Json)) (s : Waiting Json)
    (hrun : exec (waitStep cfg taskId timeout begun) ⟨server, .polling⟩ ls = some s)
    (hstored : ∃ task, server.db.tasks.get taskId = some task)
    (hsubmit : ∀ r ∈ requests ls, submitted r.request ≠ some taskId) :
    WaitsFor cfg taskId timeout begun server ls s := by
  have hbegun : WaitInv taskId timeout begun [] ⟨server, .polling⟩ := ⟨trivial, .inl hstored⟩
  have hinv : WaitInv taskId timeout begun ls s :=
    invariant_with_past (I := fun ls s => WaitInv taskId timeout begun ls s) hbegun
      (fun _ _ _ _ _ h hm => step_waitInv h hm) hrun
  have htold := hinv.told
  refine ⟨?_, ?_, ?_, ?_⟩
  · intro task hc
    simpa only [Told, hc] using htold
  · intro task hc
    simpa only [Told, hc] using htold
  · intro hc
    simpa only [Told, hc] using htold
  · rintro as bs m rfl has ⟨task, hg, hs⟩
    obtain ⟨m', hm', hbs⟩ := exec_append_inv hrun
    cases has.symm.trans hm'
    refine one_poll_of_settled ?_ ?_ hbs
    · intro found hfound
      cases hg.symm.trans hfound
      exact hs
    · intro r hr
      refine hsubmit r ?_
      rw [requests, List.filterMap_append]
      exact List.mem_append_right _ hr

/-- A queued task, a poll that finds it so, a claim, its outcome and one more poll. -/
def patientWait : List (WaitLabel (List ℕ)) :=
  [.poll, .check 1, .request ⟨2, 2, .claimNext "token" ["text_generation"] "worker-1" none⟩,
    .request ⟨3, 3, .completeTask "a" "token" [7]⟩, .poll]

theorem wait_for_task_outcome_patientWait :
    ∃ server s task, exec (step {}) (start 0)
        [⟨0, 1, .submitTask "a" "text_generation" [] none none⟩] = some server ∧
      exec (waitStep {} "a" (some 5) 0) ⟨server, .polling⟩ patientWait = some s ∧
      s.client = .returned task ∧ task.result = some [7] ∧
      WaitsFor {} "a" (some 5) 0 server patientWait s :=
  ⟨_, _, _, rfl, rfl, rfl, rfl,
    wait_for_task_outcome {} "a" (some 5) 0 _ patientWait _ rfl ⟨_, rfl⟩ (by
      rintro r hr
      simp only [requests, patientWait, List.filterMap_cons, WaitLabel.request?,
        List.filterMap_nil, List.mem_cons, List.not_mem_nil, or_false] at hr
      rcases hr with rfl | rfl <;> exact nofun)⟩

end Wait
end TaskQueue.SettledTasks
