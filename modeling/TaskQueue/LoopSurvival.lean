import TaskQueue.WorkerLoop

/-!
# What the loop of the worker survives

The loop goes on exactly as long as every answer can be read, every claimed task has the
fields the loop reads, every exception of the work can be logged, and every report can be
sent. Whether it goes on or not, a task it has claimed is reported once before the next claim.
-/

namespace TaskQueue.LoopSurvival
open StepRuns WorkerLoop

/-- The fields of a task that the loop reads before the work begins. -/
def ReadableTask (env : Env) (task : Json) : Prop :=
  (∃ taskType, task.field "task_type" = some (.string taskType)) ∧
    (∃ id, task.field "id" = some id) ∧ (∃ token, task.field "claim_token" = some token) ∧
    env.printable task = true

/-- The answer to a claim is no task or a readable one. -/
def ClaimAnswered (env : Env) : Reply → Prop
  | .networkError => True
  | .response status body => status = 204 ∨ ¬(200 ≤ status ∧ status < 300) ∨
      ∃ task, body = .json task ∧ env.parses task = true ∧ (task = .null ∨ ReadableTask env task)

/-- The answer to a report is a failure or a JSON document that can be read. -/
def ReportAnswered (env : Env) : Reply → Prop
  | .networkError => True
  | .response status body => ¬(200 ≤ status ∧ status < 300) ∨
      ∃ document, body = .json document ∧ env.parses document = true

/-- The step meets nothing that the loop does not catch. -/
def Meets (env : Env) (s : Loop) : Label → Prop
  | .claimNext reply => ClaimAnswered env reply
  | .maintain raises => raises = false
  | .runTask outcome => ∀ text, outcome = .raised text →
      ∃ message, text = some message ∧ env.shows message = true
  | .report reply => ∀ report, s.phase = .reporting report →
      env.sendable report = true ∧ ReportAnswered env reply
  | .heartbeat _ => True

/-- The reports among some calls. -/
def reports (calls : List Call) : List Report :=
  calls.filterMap fun call => match call with
    | .report report => some report
    | _ => none

def NoClaim (calls : List Call) : Prop := ∀ task, .claimNext task ∉ calls

/-- Between the claim that brought a task and the next claim there is one report, and it is
about that task. -/
def OneReportEach (calls : List Call) : Prop :=
  ∀ before task between next after,
    calls = before ++ .claimNext (some task) :: (between ++ .claimNext next :: after) →
    NoClaim between →
    ∃ report, reports between = [report] ∧ task.field "id" = some report.taskId

/-- The task of the last claim, if it brought one, has been reported. -/
def Settled (calls : List Call) : Prop :=
  ∀ before task rest, calls = before ++ .claimNext (some task) :: rest → NoClaim rest →
    ∃ report, reports rest = [report] ∧ task.field "id" = some report.taskId

/-- The task of the last claim has this id and no report yet. -/
def Owed (calls : List Call) (id : Json) : Prop :=
  ∀ before task rest, calls = before ++ .claimNext (some task) :: rest → NoClaim rest →
    reports rest = [] ∧ task.field "id" = some id

/-- What the calls so far have to do with the place in the loop. -/
def Accounted (s : Loop) : Prop :=
  OneReportEach s.calls ∧ match s.phase with
    | .polling | .idle => Settled s.calls
    | .working task => Owed s.calls task.id
    | .reporting report => Owed s.calls report.taskId
    | .ended => True

section Calls
variable {calls : List Call} {call : Call} {id : Json}

theorem snoc_eq_append_cons {α : Type} {l a b : List α} {x y : α}
    (h : l ++ [x] = a ++ y :: b) :
    (b = [] ∧ l = a ∧ x = y) ∨ ∃ b', b = b' ++ [x] ∧ l = a ++ y :: b' := by
  rcases List.eq_nil_or_concat b with rfl | ⟨b', z, rfl⟩
  · obtain ⟨hl, hx⟩ := List.append_inj' h rfl
    exact .inl ⟨rfl, hl, List.singleton_inj.1 hx⟩
  · rw [List.concat_eq_append] at h ⊢
    rw [← List.cons_append, ← List.append_assoc] at h
    obtain ⟨hl, hx⟩ := List.append_inj' h rfl
    exact .inr ⟨b', by rw [List.singleton_inj.1 hx], hl⟩

theorem NoClaim.of_append {rest : List Call} (h : NoClaim (rest ++ [call])) :
    NoClaim rest ∧ ∀ task, call ≠ .claimNext task :=
  ⟨fun task hmem => h task (List.mem_append_left _ hmem),
    fun task hcall => h task (by simp [hcall])⟩

theorem OneReportEach.append (h : OneReportEach calls)
    (hcall : ∀ next, call = .claimNext next → Settled calls) :
    OneReportEach (calls ++ [call]) := by
  intro before task between next after heq hnone
  rcases snoc_eq_append_cons heq with ⟨hnil, -, -⟩ | ⟨rest, hrest, hcalls⟩
  · cases between <;> cases hnil
  rcases snoc_eq_append_cons hrest.symm with ⟨-, hrest, hclaim⟩ | ⟨after', -, hrest⟩
  · rw [hrest] at hcalls
    exact hcall next hclaim before task between hcalls hnone
  · rw [hrest] at hcalls
    exact h before task between next after' hcalls hnone

/-- A claim that brings nothing leaves nothing to report. -/
theorem settled_of_empty_claim : Settled (calls ++ [.claimNext none]) := by
  intro before task rest heq hnone
  rcases snoc_eq_append_cons heq with ⟨-, -, hclaim⟩ | ⟨rest', rfl, -⟩
  · cases hclaim
  · exact absurd rfl (hnone.of_append.2 none)

theorem owed_of_claim {task : Json} (hid : task.field "id" = some id) :
    Owed (calls ++ [.claimNext (some task)]) id := by
  intro before task' rest heq hnone
  rcases snoc_eq_append_cons heq with ⟨rfl, -, hclaim⟩ | ⟨rest', rfl, -⟩
  · cases hclaim
    exact ⟨rfl, hid⟩
  · exact absurd rfl (hnone.of_append.2 (some task))

theorem Owed.report {report : Report} (h : Owed calls report.taskId) :
    Settled (calls ++ [.report report]) := by
  intro before task rest heq hnone
  rcases snoc_eq_append_cons heq with ⟨-, -, hclaim⟩ | ⟨rest', rfl, hcalls⟩
  · cases hclaim
  · obtain ⟨hreports, hid⟩ := h before task rest' hcalls hnone.of_append.1
    refine ⟨report, ?_, hid⟩
    rw [reports, List.filterMap_append, ← reports, hreports]
    rfl

theorem reports_heartbeat (rest : List Call) : reports (rest ++ [.heartbeat]) = reports rest := by
  simp [reports]

theorem Settled.heartbeat (h : Settled calls) : Settled (calls ++ [.heartbeat]) := by
  intro before task rest heq hnone
  rcases snoc_eq_append_cons heq with ⟨-, -, hclaim⟩ | ⟨rest', rfl, hcalls⟩
  · cases hclaim
  · rw [reports_heartbeat]
    exact h before task rest' hcalls hnone.of_append.1

theorem Owed.heartbeat (h : Owed calls id) : Owed (calls ++ [.heartbeat]) id := by
  intro before task rest heq hnone
  rcases snoc_eq_append_cons heq with ⟨-, -, hclaim⟩ | ⟨rest', rfl, hcalls⟩
  · cases hclaim
  · rw [reports_heartbeat]
    exact h before task rest' hcalls hnone.of_append.1

end Calls

section Steps
variable {env : Env} {s t : Loop} {l : Label}

theorem prepare_eq_some_iff {task : Json} :
    (∃ claimed, prepare env task = some claimed) ↔ ReadableTask env task := by
  unfold prepare ReadableTask
  split
  · rename_i htype hid htoken
    simp only [htype, hid, htoken]
    cases env.printable task <;> simp
  · rename_i hnone
    constructor
    · rintro ⟨claimed, h⟩
      cases h
    · rintro ⟨⟨taskType, htype⟩, ⟨id, hid⟩, ⟨token, htoken⟩, -⟩
      exact (hnone taskType id token htype hid htoken).elim

theorem field_of_prepare {task : Json} {claimed : ClaimedTask}
    (h : prepare env task = some claimed) : task.field "id" = some claimed.id := by
  unfold prepare at h
  split at h
  · rename_i hid _
    split at h <;> cases h
    exact hid
  · cases h

theorem taskId_of_reportOf {task : ClaimedTask} {outcome : Outcome} {report : Report}
    (h : reportOf env task outcome = some report) : report.taskId = task.id := by
  cases outcome with
  | result result => cases h; rfl
  | raised text =>
    obtain ⟨error, -, rfl⟩ := Option.map_eq_some_iff.1 h
    rfl

/-- A report is made of every result, and of every exception that can be logged. -/
theorem reportOf_isSome_iff (task : ClaimedTask) {outcome : Outcome} :
    (reportOf env task outcome).isSome = true ↔ ∀ text, outcome = .raised text →
      ∃ message, text = some message ∧ env.shows message = true := by
  cases outcome with
  | result result => simp [reportOf]
  | raised text =>
    cases text with
    | none => simp [reportOf]
    | some message =>
      cases hshows : env.shows message <;> simp [reportOf, Option.filter, hshows]

theorem reportReturns_iff {report : Report} {reply : Reply} :
    reportReturns env report reply = true ↔
      env.sendable report = true ∧ ReportAnswered env reply := by
  unfold reportReturns clientReport
  by_cases hsend : env.sendable report = true
  · cases reply with
    | networkError => simp [hsend, ReportAnswered]
    | response status body =>
      by_cases hstatus : 200 ≤ status ∧ status < 300
      · cases body with
        | notJson => simp [hsend, ReportAnswered, readJson, hstatus]
        | json document =>
          cases hparses : env.parses document <;>
            simp [hsend, ReportAnswered, readJson, hstatus, hparses]
      · simp [hsend, ReportAnswered, readJson, hstatus]
  · simp [hsend]

/-- No claim raises past `claim_next_task` but one whose body cannot be read, and no task
fails to be prepared but an unreadable one. -/
theorem claimAnswered_iff {reply : Reply} : ClaimAnswered env reply ↔
    match claimNextTask env reply with
    | .error _ => False
    | .ok none => True
    | .ok (some task) => ReadableTask env task := by
  cases reply with
  | networkError => simp [ClaimAnswered, claimNextTask, clientClaimNext]
  | response status body =>
    by_cases hempty : status = 204
    · simp [ClaimAnswered, claimNextTask, clientClaimNext, hempty]
    by_cases hstatus : 200 ≤ status ∧ status < 300
    · cases body with
      | notJson => simp [ClaimAnswered, claimNextTask, clientClaimNext, readJson, hempty, hstatus]
      | json document =>
        cases hparses : env.parses document with
        | false =>
          simp [ClaimAnswered, claimNextTask, clientClaimNext, readJson, hempty, hstatus, hparses]
        | true =>
          cases document <;>
            simp [ClaimAnswered, claimNextTask, clientClaimNext, readJson, hempty, hstatus,
              hparses]
    · simp [ClaimAnswered, claimNextTask, clientClaimNext, readJson, hempty, hstatus]

/-- A step ends the loop exactly if it meets something that the loop does not catch. -/
theorem alive_step (hs : s.phase ≠ .ended) (hstep : step env s l = some t) :
    t.phase ≠ .ended ↔ Meets env s l := by
  cases l with
  | claimNext reply =>
    simp only [step] at hstep
    split at hstep
    · rw [Meets, claimAnswered_iff]
      cases hclaim : claimNextTask env reply with
      | error e =>
        simp only [hclaim] at hstep
        cases hstep
        simp
      | ok found =>
        cases found with
        | none =>
          simp only [hclaim] at hstep
          cases hstep
          simp
        | some task =>
          simp only [hclaim, ← prepare_eq_some_iff] at hstep ⊢
          cases hprepare : prepare env task with
          | none =>
            simp only [hprepare] at hstep
            cases hstep
            simp
          | some claimed =>
            simp only [hprepare] at hstep
            cases hstep
            simp
    · cases hstep
  | maintain raises =>
    simp only [step] at hstep
    split at hstep <;> cases hstep
    cases raises <;> simp [Meets]
  | runTask outcome =>
    simp only [step] at hstep
    split at hstep
    · rename_i task _
      rw [Meets, ← reportOf_isSome_iff task]
      cases hreport : reportOf env task outcome with
      | none =>
        rw [hreport] at hstep
        cases hstep
        simp
      | some report =>
        rw [hreport] at hstep
        cases hstep
        simp
    · cases hstep
  | report reply =>
    simp only [step] at hstep
    split at hstep <;> cases hstep
    rename_i report hphase
    have hmeets : Meets env s (.report reply) ↔ reportReturns env report reply = true := by
      rw [reportReturns_iff]
      simp [Meets, hphase]
    rw [hmeets]
    cases reportReturns env report reply <;> simp
  | heartbeat reply =>
    cases hstep
    exact iff_of_true hs trivial

/-- Every step keeps the account of claims and reports. -/
theorem accounted_step (h : Accounted s) (hstep : step env s l = some t) : Accounted t := by
  obtain ⟨hone, hphase⟩ := h
  have hother : ∀ call, (∀ next, call ≠ .claimNext next) → OneReportEach (s.calls ++ [call]) :=
    fun call hcall => hone.append fun next h => absurd h (hcall next)
  cases l with
  | claimNext reply =>
    simp only [step] at hstep
    split at hstep
    · rename_i hpolling
      rw [hpolling] at hphase
      have hnext : ∀ next, OneReportEach (s.calls ++ [.claimNext next]) :=
        fun next => hone.append fun _ _ => hphase
      split at hstep
      · cases hstep
        exact ⟨hnext none, trivial⟩
      · cases hstep
        exact ⟨hnext none, settled_of_empty_claim⟩
      · split at hstep <;> cases hstep
        · exact ⟨hnext _, trivial⟩
        · rename_i hprepare
          exact ⟨hnext _, owed_of_claim (field_of_prepare hprepare)⟩
    · cases hstep
  | maintain raises =>
    simp only [step] at hstep
    split at hstep <;> cases hstep
    rename_i hidle
    rw [hidle] at hphase
    cases raises
    · exact ⟨hone, hphase⟩
    · exact ⟨hone, trivial⟩
  | runTask outcome =>
    simp only [step] at hstep
    split at hstep
    · rename_i task hworking
      rw [hworking] at hphase
      split at hstep <;> cases hstep
      · exact ⟨hone, trivial⟩
      · rename_i report hreport
        refine ⟨hone, ?_⟩
        dsimp only at hphase ⊢
        rwa [taskId_of_reportOf hreport]
    · cases hstep
  | report reply =>
    simp only [step] at hstep
    split at hstep <;> cases hstep
    rename_i report hreporting
    rw [hreporting] at hphase
    refine ⟨hother _ (by simp), ?_⟩
    cases reportReturns env report reply
    · trivial
    · exact Owed.report hphase
  | heartbeat reply =>
    cases hstep
    refine ⟨hother _ (by simp), ?_⟩
    cases hp : s.phase with
    | polling =>
      rw [hp] at hphase
      exact hphase.heartbeat
    | idle =>
      rw [hp] at hphase
      exact hphase.heartbeat
    | working task =>
      rw [hp] at hphase
      exact hphase.heartbeat
    | reporting report =>
      rw [hp] at hphase
      exact hphase.heartbeat
    | ended => trivial

theorem accounted_start : Accounted start := by
  constructor
  · intro before task between next after heq
    cases before <;> cases heq
  · intro before task rest heq
    cases before <;> cases heq

end Steps

/-- Through every sequence of answers and outcomes the loop goes on, with one report for each
task before the next claim, exactly if no step meets something that the loop does not catch. -/
theorem loop_survives_iff (env : Env) (ls : List Label) :
    Throughout (step env) (fun s => s.phase ≠ .ended ∧ OneReportEach s.calls) start ls ↔
      Along (step env) (Meets env) start ls := by
  have halive : Throughout (step env) (fun s => s.phase ≠ .ended) start ls ↔
      Along (step env) (Meets env) start ls :=
    throughout_iff_along (fun s l t hs hstep => alive_step hs hstep) (by simp [start]) ls
  have haccounted : Throughout (step env) Accounted start ls :=
    throughout_invariant (fun s l t hs hstep => accounted_step hs hstep) accounted_start ls
  rw [← halive]
  constructor
  · intro h
    exact h.mono fun s hs => hs.1
  · intro h
    exact h.and (haccounted.mono fun s hs => hs.1)

/-- A claim answered by a page that is no JSON ends the loop, on a machine that can show
every task and send every report. -/
theorem loop_ends :
    ¬∀ ls : List Label, (∀ raises, .maintain raises ∈ ls → raises = false) →
      Throughout (step {})
        (fun s => s.phase ≠ .ended ∧ OneReportEach s.calls) start ls := by
  intro hall
  have hrun := hall [.claimNext (.response 200 .notJson)] (by simp)
  exact hrun.2.1 rfl

end TaskQueue.LoopSurvival
