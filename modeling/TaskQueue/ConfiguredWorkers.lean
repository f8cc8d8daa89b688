import TaskQueue.ClusterOutcomes
import TaskQueue.TaskLedger
import TaskQueue.WorkerTasks

/-!
# What the workers are given to do

The task types of a worker are those of its `WORKER_TASK_TYPES`. A process that is at work is
so on a task of one of them, for which `main` has built what its handler calls, and which was
submitted as it is.
-/

namespace TaskQueue.ConfiguredWorkers
open KeyedTables TaskService SerialRequests LeaseRefinement TaskLedger WorkerLoop WorkerCluster
open ClusterOutcomes PythonStrings StepRuns

section Configuration

def TEXT : String := "text_generation"
def IMAGE : String := "image_generation"
def HERO : String := "hero_candidate_generation"
def VISUAL : List String := [IMAGE, HERO]
def SUPPORTED : List String := TEXT :: VISUAL

/-- `configured_task_types`; an error is the text of its `ValueError`. -/
def configuredTaskTypes (configured : String) : Except String (List String) :=
  let types := ((split configured ',').filter fun t => strip t ≠ "").map strip
  if types = [] then
    .error ("set WORKER_TASK_TYPES to the task types this worker should run, e.g. " ++
      ",".intercalate SUPPORTED)
  else
    let unknown := types.filter fun t => t ∉ SUPPORTED
    if unknown ≠ [] then
      .error ("unknown WORKER_TASK_TYPES entries: " ++ ", ".intercalate unknown ++
        " (supported: " ++ ", ".intercalate SUPPORTED ++ ")")
    else .ok types.eraseDups

/-- The functions that `run_task` hands a task to. -/
inductive Handler
  | handleTextTask
  | handleTask
  | handleHeroCandidateTask
  deriving DecidableEq

/-- The branch of `run_task` for a task type; for others it raises `unsupported task type`. -/
def handlerOf (taskType : String) : Option Handler :=
  if taskType = TEXT then some .handleTextTask
  else if taskType ∈ VISUAL then
    if taskType = IMAGE then some .handleTask else some .handleHeroCandidateTask
  else none

/-- What `main` builds for the configured types. -/
def setupOf (mockMode : Bool) (ollama : OllamaManager.Config) (taskTypes : List String) :
    WorkerTasks.Setup where
  comfyui := taskTypes.any (· ∈ VISUAL) && !mockMode
  mock := mockMode
  ollama := if TEXT ∈ taskTypes then some ollama else none

/-- What the handler calls is there: Ollama for text, ComfyUI for a render that is no mock. -/
def Equipped (setup : WorkerTasks.Setup) : Handler → Prop
  | .handleTextTask => setup.ollama.isSome
  | .handleTask | .handleHeroCandidateTask => setup.comfyui || setup.mock

variable {text : String} {types : List String}

theorem nodup_eraseDups {α : Type} [DecidableEq α] (l : List α) : l.eraseDups.Nodup := by
  generalize hn : l.length = n
  induction n using Nat.strongRecOn generalizing l with
  | ind n ih =>
    cases l with
    | nil => exact List.nodup_nil
    | cons a l =>
      rw [List.eraseDups_cons, List.nodup_cons]
      have hle := List.length_filter_le (fun b => !b == a) l
      refine ⟨by simp [List.mem_eraseDups], ih _ ?_ _ rfl⟩
      rw [← hn, List.length_cons]
      omega

/-- What is configured is not empty, names no type twice and only types that are supported. -/
theorem configured_spec (h : configuredTaskTypes text = .ok types) :
    types ≠ [] ∧ types.Nodup ∧ ∀ t ∈ types, t ∈ SUPPORTED := by
  unfold configuredTaskTypes at h
  dsimp only at h
  generalize ((split text ',').filter fun t => strip t ≠ "").map strip = entries at h
  split_ifs at h with hempty hunknown
  cases h
  refine ⟨?_, nodup_eraseDups entries, fun t ht => ?_⟩
  · cases entries with
    | nil => exact absurd rfl hempty
    | cons a l => simp [List.eraseDups_cons]
  · rw [not_not, List.filter_eq_nil_iff] at hunknown
    simpa using hunknown t (List.mem_eraseDups.1 ht)

/-- A handler and what it calls are there for every configured type. -/
theorem equipped_of_configured {taskType : String} (h : configuredTaskTypes text = .ok types)
    (ht : taskType ∈ types) (mockMode : Bool) (ollama : OllamaManager.Config) :
    ∃ handler, handlerOf taskType = some handler ∧
      Equipped (setupOf mockMode ollama types) handler := by
  have hvisual : taskType ∈ VISUAL → (setupOf mockMode ollama types).comfyui ||
      (setupOf mockMode ollama types).mock := by
    intro hmem
    have hany : types.any (· ∈ VISUAL) = true := List.any_eq_true.2 ⟨taskType, ht, by simpa⟩
    cases mockMode <;> simp [setupOf, hany]
  rcases List.mem_cons.1 ((configured_spec h).2.2 taskType ht) with rfl | hmem
  · exact ⟨.handleTextTask, rfl, by simp [Equipped, setupOf, ht]⟩
  · have hcases := hmem
    rcases List.mem_cons.1 hcases with rfl | hcases
    · exact ⟨.handleTask, rfl, hvisual hmem⟩
    · cases List.mem_singleton.1 hcases
      exact ⟨.handleHeroCandidateTask, rfl, hvisual hmem⟩

theorem no_comma {t : String} (h : t ∈ SUPPORTED) : ',' ∉ t.toList := by
  simp only [SUPPORTED, VISUAL, List.mem_cons, List.not_mem_nil, or_false] at h
  rcases h with rfl | rfl | rfl <;> decide

/-- Joined with commas and split again. -/
theorem split_intercalate (hne : types ≠ []) (h : ∀ t ∈ types, ',' ∉ t.toList) :
    split (",".intercalate types) ',' = types := by
  have hparts : ∀ l ∈ types.map String.toList, ',' ∉ l := by
    intro l hl
    obtain ⟨t, ht, rfl⟩ := List.mem_map.1 hl
    exact h t ht
  have hcomma : ",".toList = [','] := rfl
  rw [split, String.toList_intercalate, hcomma, List.splitOn_intercalate _ hparts (by simpa)]
  simp

end Configuration

section Grants
variable {d : Deployment} {clock : Time} {s m t : Cluster} {sender : Option ℕ} {r : Timed Json}
  {response : Response Json}

/-- The rows that the server has handed out were submitted, and a process got those of its own
types only. -/
structure Granted (d : Deployment) (clock : Time) (s : Cluster) : Prop where
  run : exec (step d.settings) (start clock) s.log = some s.server
  rows : ∀ sender row, (sender, row) ∈ s.grants →
    Submitted d.settings clock s.log row.id (ticket row) ∧
      ∀ process, sender = some process → row.taskType ∈ (d.config process).taskTypes

/-- A process claims tasks of its own types. -/
def InOwnTypes (d : Deployment) (sender : Option ℕ) (request : Request Json) : Prop :=
  ∀ process claimToken taskTypes workerId leaseMinutes, sender = some process →
    request = .claimNext claimToken taskTypes workerId leaseMinutes →
    taskTypes = (d.config process).taskTypes

theorem inOwnTypes_of_asked {process : ℕ} {claimToken : String} {sent : Sent}
    {request : Request Json} (hne : (d.config process).taskTypes ≠ [])
    (hplain : ∀ t ∈ (d.config process).taskTypes, ',' ∉ t.toList)
    (h : requestOf d.jsonb (d.config process) claimToken sent = some request) :
    InOwnTypes d (some process) request := by
  rintro _ _ taskTypes _ _ ⟨⟩ rfl
  replace h := asked_of_requestOf h
  unfold asked at h
  split at h <;> cases h
  exact split_intercalate hne hplain

/-- The row that is handed out is stored. -/
theorem stored_of_handed {db : Db Json} {row : Task Json}
    (h : row ∈ handedRow (handle d.settings db r).2) :
    (handle d.settings db r).1.tasks.get row.id = some row := by
  obtain ⟨claimToken, taskTypes, workerId, leaseMinutes, hr, -⟩ := handedRow_claimed h
  simp only [handle, hr] at h ⊢
  cases hp : claimNext r.now claimToken db.tasks taskTypes workerId leaseMinutes with
  | error e =>
    simp only [hp] at h
    cases h
  | ok p =>
    simp only [hp] at h ⊢
    have hlease := (claimNext_ok_cases hp).1
    cases hc : candidate taskTypes (reclaim taskTypes r.now db.tasks) with
    | none =>
      cases (ClaimNext.claimNext_of_none hlease hc).symm.trans hp
      cases h
    | some picked =>
      cases (ClaimNext.claimNext_of_some hlease hc).symm.trans hp
      cases List.mem_singleton.1 h
      exact (ClaimNext.handed_of_candidate hc).stored

theorem serve_granted (hs : Granted d clock s) (hown : InOwnTypes d sender r.request)
    (h : serve d s sender r = some (m, response)) : Granted d clock m := by
  obtain ⟨-, server, hserver, rfl, rfl⟩ := serve_inv h
  have hrun : exec (step d.settings) (start clock) (s.log ++ [r]) = some server := by
    rw [exec_append hs.run, exec_cons_of_step hserver]
    rfl
  refine ⟨hrun, fun from_ row hg => ?_⟩
  rcases List.mem_append.1 hg with hg | hg
  · obtain ⟨hsubmitted, htypes⟩ := hs.rows _ row hg
    exact ⟨hsubmitted.append r, htypes⟩
  · obtain ⟨_, hrow, heq⟩ := List.mem_map.1 hg
    cases heq
    obtain ⟨-, -, rfl⟩ := step_inv d.settings hserver
    refine ⟨submitted_of_stored hrun (stored_of_handed hrow), ?_⟩
    rintro process rfl
    obtain ⟨_, _, _, _, hr, -, -, hlisted⟩ := handedRow_claimed hrow
    exact hown process _ _ _ _ rfl hr ▸ hlisted

/-- The invariant speaks of the server, its log and the grants only. -/
theorem Granted.congr (h : Granted d clock s) (hserver : t.server = s.server)
    (hlog : t.log = s.log) (hgrants : t.grants = s.grants) : Granted d clock t :=
  ⟨by rw [hlog, hserver]; exact h.run, by rw [hgrants, hlog]; exact h.rows⟩

theorem Granted.inFlight (h : Granted d clock s) (calls : List (ℕ × Sent)) :
    Granted d clock { s with inFlight := calls } := h.congr rfl rfl rfl

theorem hear_granted {process : ℕ} {reply : Reply} (h : Granted d clock s)
    (hheard : hear d s process reply = some t) : Granted d clock t := by
  obtain ⟨loop, -, rfl⟩ := hear_inv hheard
  exact h.congr rfl rfl rfl

variable (hconfigured : ∀ process, ∃ text,
  configuredTaskTypes text = .ok (d.config process).taskTypes)

include hconfigured in
theorem asked_inOwnTypes {process : ℕ} {claimToken : String} {sent : Sent}
    {request : Request Json}
    (h : requestOf d.jsonb (d.config process) claimToken sent = some request) :
    InOwnTypes d (some process) request := by
  obtain ⟨text, htext⟩ := hconfigured process
  obtain ⟨hne, -, hsupported⟩ := configured_spec htext
  exact inOwnTypes_of_asked hne (fun t ht => no_comma (hsupported t ht)) h

include hconfigured in
theorem step_granted {l : WorkerCluster.Label} (hs : Granted d clock s)
    (h : clusterStep d s l = some t) : Granted d clock t := by
  cases clusterStep_move h with
  | environment other served =>
    exact serve_granted hs (fun _ _ _ _ _ hsender => by cases hsender) served
  | served call asked served answer heard =>
    exact hear_granted (serve_granted hs (asked_inOwnTypes hconfigured asked) served) heard
  | unserved bare heard => exact hear_granted hs heard
  | delayed call bare heard => exact hear_granted (hs.inFlight _) heard
  | arrived found asked served =>
    exact serve_granted (hs.inFlight _) (asked_inOwnTypes hconfigured asked) served
  | refused gone => exact gone ▸ hs.inFlight _
  | maintained moved result => exact result ▸ hs.congr rfl rfl rfl
  | worked moved result => exact result ▸ hs.congr rfl rfl rfl
  | killed result => exact result ▸ hs.congr rfl rfl rfl

end Grants

section Work

/-- The task that a process works on is of a type that it is configured for and equipped to
handle, and has the id, the type and the payload of an accepted submission. -/
structure Assigned (d : Deployment) (clock : Time) (mockMode : Bool)
    (ollama : OllamaManager.Config) (s : Cluster) (process : ℕ) (claimed : ClaimedTask) :
    Prop where
  configured : claimed.taskType ∈ (d.config process).taskTypes
  equipped : ∃ handler, handlerOf claimed.taskType = some handler ∧
    Equipped (setupOf mockMode ollama (d.config process).taskTypes) handler
  submitted : ∃ task id t, lastTask (s.loops process).calls = some task ∧
    claimed.id = .string id ∧ claimed.taskType = t.taskType ∧
    task.field "payload" = some t.payload ∧ Submitted d.settings clock s.log id t

/-- In every run of the queue and its workers each process that is at work has been given a
task that it is configured for and that was submitted as it is. -/
theorem work_assigned (d : Deployment) (clock : Time) (mockMode : Bool)
    (ollama : OllamaManager.Config)
    (hconfigured : ∀ process, ∃ text,
      configuredTaskTypes text = .ok (d.config process).taskTypes)
    (ls : List WorkerCluster.Label) (s : Cluster)
    (hrun : exec (clusterStep d) (begin clock) ls = some s) (process : ℕ)
    (claimed : ClaimedTask) (hworking : (s.loops process).phase = .working claimed) :
    Assigned d clock mockMode ollama s process claimed := by
  have hbegin : Granted d clock (begin clock) := ⟨rfl, fun _ _ h => by cases h⟩
  have hgranted := invariant (fun s l t => step_granted hconfigured) hbegin hrun
  have hinv : Inv d (fun _ _ _ => True) clock s :=
    run_inv hrun (Along.of_forall fun l _ _ => by cases l <;> simp [Works])
  have hknows := hinv.knows process
  simp only [Knows, hworking] at hknows
  obtain ⟨row, hgrant, hlast, hprepare⟩ := hknows
  cases prepare_claimDocument hprepare
  obtain ⟨hsubmitted, htypes⟩ := hgranted.rows _ row hgrant
  obtain ⟨text, htext⟩ := hconfigured process
  exact {
    configured := htypes process rfl
    equipped := equipped_of_configured htext (htypes process rfl) mockMode ollama
    submitted := ⟨_, row.id, ticket row, hlast, rfl, rfl, field_payload, hsubmitted⟩ }

/-- A submission, and the claim of the first of two workers. -/
def firstClaim : List WorkerCluster.Label :=
  [.request ⟨0, 1, .submitTask "a" "text_generation" (.object []) (some 1) none⟩,
    .call 0 (.answered 2 2 "token-1")]

theorem work_assigned_firstClaim :
    ∃ s claimed, exec (clusterStep twoWorkers) (begin 0) firstClaim = some s ∧
      (s.loops 0).phase = .working claimed ∧
      Assigned twoWorkers 0 false ⟨"qwen3:14b", 300⟩ s 0 claimed := by
  have htypes : configuredTaskTypes " text_generation, text_generation," =
      .ok ["text_generation"] := by
    decide +kernel
  exact ⟨_, _, rfl, rfl, work_assigned twoWorkers 0 false ⟨"qwen3:14b", 300⟩
    (fun _ => ⟨_, htypes⟩) firstClaim _ rfl 0 _ rfl⟩

end Work
end TaskQueue.ConfiguredWorkers
