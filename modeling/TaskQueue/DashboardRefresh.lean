import TaskQueue.EscapedRecords
import TaskQueue.DashboardPage
import TaskQueue.StepRuns

/-!
# When a refresh of the dashboard runs to its end

A load is rejected exactly if the records it has to show cannot be printed, and these are
always workers: their capabilities are JSON of their own making. A rejected load takes
`refresh` with it, before the flag and the button are reset.
-/

namespace TaskQueue.Dashboard
open JavaScript Html StateExceptions StepRuns

/-- Both lists of capabilities can be spread, and their elements have texts. -/
structure PrintableWorker (worker : WorkerRecord) : Prop where
  taskTypes : Json.Listable (worker.capabilities.lookup (units "task_types"))
  profiles : Json.Listable (worker.capabilities.lookup (units "profiles"))

section Rendering

theorem capability_ok_iff (value : Json) :
    (∃ markup, capability value = .ok markup) ↔ Json.Printable value := by
  rw [← Json.display_ok_iff]
  constructor
  · rintro ⟨markup, h⟩
    rw [capability] at h
    cases htext : value.display with
    | error e => rw [htext] at h; cases h
    | ok text => exact ⟨text, rfl⟩
  · rintro ⟨text, htext⟩
    exact ⟨_, by rw [capability, htext]; rfl⟩

theorem capabilityValues_inv {worker : WorkerRecord} {values : List Json}
    (h : capabilityValues worker = .ok values) : ∃ taskTypes profiles,
      Json.spread (worker.capabilities.lookup (units "task_types")) = .ok taskTypes ∧
      Json.spread (worker.capabilities.lookup (units "profiles")) = .ok profiles ∧
      values = taskTypes ++ profiles := by
  rw [capabilityValues] at h
  cases htaskTypes : Json.spread (worker.capabilities.lookup (units "task_types")) with
  | error e => rw [htaskTypes] at h; cases h
  | ok taskTypes =>
    cases hprofiles : Json.spread (worker.capabilities.lookup (units "profiles")) with
    | error e => rw [htaskTypes, hprofiles] at h; cases h
    | ok profiles =>
      rw [htaskTypes, hprofiles] at h
      cases h
      exact ⟨taskTypes, profiles, rfl, rfl, rfl⟩

theorem capabilityValues_printable_iff (worker : WorkerRecord) :
    (∃ values, capabilityValues worker = .ok values ∧ ∀ v ∈ values, Json.Printable v) ↔
      PrintableWorker worker := by
  constructor
  · rintro ⟨values, hvalues, hprintable⟩
    obtain ⟨taskTypes, profiles, htaskTypes, hprofiles, rfl⟩ := capabilityValues_inv hvalues
    rw [List.forall_mem_append] at hprintable
    exact
      { taskTypes := (Json.spread_ok_iff _).1 ⟨taskTypes, htaskTypes, hprintable.1⟩
        profiles := (Json.spread_ok_iff _).1 ⟨profiles, hprofiles, hprintable.2⟩ }
  · intro h
    obtain ⟨taskTypes, htaskTypes, hprintable⟩ := (Json.spread_ok_iff _).2 h.taskTypes
    obtain ⟨profiles, hprofiles, hprintable'⟩ := (Json.spread_ok_iff _).2 h.profiles
    refine ⟨taskTypes ++ profiles, ?_, List.forall_mem_append.2 ⟨hprintable, hprintable'⟩⟩
    rw [capabilityValues, htaskTypes, hprofiles]
    rfl

theorem capabilities_ok_iff (worker : WorkerRecord) :
    (∃ markup, capabilities worker = .ok markup) ↔ PrintableWorker worker := by
  have hitems : ∀ values, (∃ items, Markup.joined capability values = .ok items) ↔
      ∀ v ∈ values, Json.Printable v := fun values =>
    (Markup.joined_ok_iff values).trans (forall₂_congr fun v _ => capability_ok_iff v)
  rw [← capabilityValues_printable_iff]
  constructor
  · rintro ⟨markup, h⟩
    obtain ⟨values, hvalues, ⟨rfl, -⟩ | ⟨-, items, hjoined, -⟩⟩ := capabilities_inv h
    · exact ⟨[], hvalues, List.forall_mem_nil _⟩
    · exact ⟨values, hvalues, (hitems values).1 ⟨items, hjoined⟩⟩
  · rintro ⟨values, hvalues, hprintable⟩
    obtain ⟨items, hjoined⟩ := (hitems values).2 hprintable
    rw [capabilities, hvalues]
    cases values with
    | nil => exact ⟨_, rfl⟩
    | cons value values =>
      refine ⟨[.text "<div class=\"capability-list\" translate=\"no\">"] ++ items ++
        [.text "</div>"], ?_⟩
      change (Markup.joined capability (value :: values) >>= _) = _
      rw [hjoined]
      rfl

/-- A table is built exactly if each of its rows is. -/
theorem table_ok_iff {R : Type} {P : R → Prop} {row : Int → R → Except JsError Markup}
    (hrow : ∀ now r, (∃ markup, row now r = .ok markup) ↔ P r) (noRecords head : Markup)
    (clock : ℕ → Int) (records : List R) :
    (∃ markup, table noRecords head row clock records = .ok markup) ↔ ∀ r ∈ records, P r := by
  have hrows : (∃ rows, Markup.joined (fun x => row (clock x.2) x.1) records.zipIdx = .ok rows) ↔
      ∀ r ∈ records, P r := by
    have hfst : (∀ x ∈ records.zipIdx, P x.1) ↔ ∀ r ∈ records, P r := by
      rw [← List.forall_mem_map (P := P), List.zipIdx_map_fst]
    rw [Markup.joined_ok_iff, ← hfst]
    exact forall₂_congr fun x _ => hrow _ _
  cases records with
  | nil => exact ⟨fun _ => nofun, fun _ => ⟨noRecords, rfl⟩⟩
  | cons r records =>
    rw [← hrows]
    constructor
    · rintro ⟨markup, h⟩
      rcases table_inv h with ⟨hnil, -⟩ | ⟨-, rows, hjoined, -⟩
      · cases hnil
      · exact ⟨rows, hjoined⟩
    · rintro ⟨rows, hjoined⟩
      refine ⟨head ++ rows ++ [.text "</tbody>\n      </table>\n    </div>"], ?_⟩
      change (Markup.joined _ (r :: records).zipIdx >>= _) = _
      rw [hjoined]
      rfl

variable (browser : Browser) (clock : ℕ → Int)

theorem workersMarkup_ok_iff (workers : List WorkerRecord) :
    (∃ markup, workersMarkup browser clock workers = .ok markup) ↔
      ∀ worker ∈ workers, PrintableWorker worker := by
  refine table_ok_iff (fun now worker => ?_) _ _ clock workers
  rw [← capabilities_ok_iff]
  constructor
  · rintro ⟨markup, h⟩
    obtain ⟨items, hitems, -⟩ := workerRow_inv browser h
    exact ⟨items, hitems⟩
  · rintro ⟨items, hitems⟩
    exact ⟨_, by rw [workerRow, hitems]; rfl⟩

/-- Tasks can always be rendered. -/
theorem tasksMarkup_ok (tasks : List TaskRecord) :
    ∃ markup, tasksMarkup browser clock tasks = .ok markup :=
  (table_ok_iff (P := fun _ => True) (fun _ _ => ⟨fun _ => trivial, fun _ => ⟨_, rfl⟩⟩) _ _ clock
    tasks).2 fun _ _ => trivial

end Rendering

section Loads
variable {R : Type}

/-- The records that `fetchJson` accepts. -/
def Response.records : Response R → Option (List R)
  | .answer status (.array records) => if isOk status then some records else none
  | _ => none

/-- The records that are there to be shown once the response is: its own, or the stored ones. -/
def shown (stored : Option (List R)) (response : Response R) : Option (List R) :=
  response.records.or stored

theorem fetchJson_accepts (endpoint : JsString) {response : Response R} {records : List R}
    (h : response.records = some records) (p : Panel R) :
    runFrom (fetchJson endpoint response) p = (.ok records, p) := by
  cases response with
  | networkFailure => cases h
  | answer status body =>
    cases body with
    | unreadable | other => cases h
    | array rs =>
      rw [Response.records] at h
      split at h
      · rename_i hok
        cases h
        rw [fetchJson, if_neg (by simp [hok])]
        rfl
      · cases h

theorem fetchJson_refuses (endpoint : JsString) {response : Response R}
    (h : response.records = none) (p : Panel R) :
    ∃ e, runFrom (fetchJson endpoint response) p = (.error e, p) := by
  cases response with
  | networkFailure => exact ⟨_, rfl⟩
  | answer status body =>
    cases body with
    | unreadable | other =>
      rw [fetchJson]
      split <;> exact ⟨_, rfl⟩
    | array rs =>
      rw [Response.records] at h
      split at h
      · cases h
      · rename_i hok
        rw [fetchJson, if_pos (by simpa using hok)]
        exact ⟨_, rfl⟩

theorem setPanelMessage_run (message : JsString) (isError : Bool) (p : Panel R) :
    runFrom (setPanelMessage message isError) p =
      (.ok (), { p with message := ⟨message.isEmpty, isError, message⟩ }) := rfl

/-- The renderer leaves the data alone and returns exactly if each record can be printed. -/
def Draws (P : R → Prop) (draw : (ℕ → Int) → List R → M R Unit) : Prop :=
  ∀ clock records p, ∃ r p', runFrom (draw clock records) p = (r, p') ∧ p'.data = p.data ∧
    (r = .ok () ↔ ∀ record ∈ records, P record)

theorem render_draws {P : R → Prop} {singular : String}
    {build : (ℕ → Int) → List R → Except JsError Markup}
    (hbuild : ∀ clock records, (∃ markup, build clock records = .ok markup) ↔
      ∀ record ∈ records, P record) : Draws P (render singular build) := by
  intro clock records p
  rw [← hbuild clock records, render]
  have hcount : runFrom (modify fun p => { p with count := plural records.length singular } :
      M R Unit) p = (.ok (), { p with count := plural records.length singular }) := rfl
  rw [runFrom_bind_ok hcount]
  cases hmarkup : build clock records with
  | error e => exact ⟨.error e, _, rfl, rfl, nofun, nofun⟩
  | ok markup => exact ⟨.ok (), _, rfl, rfl, fun _ => ⟨markup, rfl⟩, fun _ => rfl⟩

/-- What a load comes to: the data it leaves, and when it is not rejected. -/
def Loads (m : M R Bool) (p : Panel R) (data : Option (List R)) (Q : Prop) : Prop :=
  ∃ r p', runFrom m p = (r, p') ∧ p'.data = data ∧ ((∃ ok, r = .ok ok) ↔ Q)

variable {P : R → Prop} {draw : (ℕ → Int) → List R → M R Unit} (browser : Browser)
  (name : String) (reply : Reply R) (p : Panel R)

theorem store_loads (hdraw : Draws P draw) {records : List R}
    (h : reply.response.records = some records) :
    Loads (store browser name draw reply) p (some records) (∀ record ∈ records, P record) := by
  have hfetch := fetchJson_accepts (apiUrl browser name) h p
  obtain ⟨r, p', hrun, hdata, hiff⟩ := hdraw reply.clock records
    { p with data := some records, error := none, updatedAt := some reply.updatedAt }
  have hstore : runFrom (store browser name draw reply) p = runFrom (do
      draw reply.clock records
      setPanelMessage []
      return true)
      { p with data := some records, error := none, updatedAt := some reply.updatedAt } := by
    rw [store, runFrom_bind_ok hfetch]
    exact runFrom_bind_ok rfl
  rw [Loads, hstore, ← hiff]
  cases r with
  | error e => exact ⟨.error e, p', runFrom_bind_error hrun, hdata, nofun, nofun⟩
  | ok _ =>
    have hmessage := runFrom_bind_ok (f := fun _ => (return true : M R Bool))
      (setPanelMessage_run [] false p')
    exact ⟨.ok true, _, (runFrom_bind_ok hrun).trans hmessage, hdata, fun _ => rfl,
      fun _ => ⟨true, rfl⟩⟩

theorem showStored_run (hdraw : Draws P draw) :
    ∃ r p', runFrom (showStored browser name draw reply p) p = (r, p') ∧ p'.data = p.data ∧
      (r = .ok () ↔ ∀ records, p.data = some records → ∀ record ∈ records, P record) := by
  cases hdata : p.data with
  | none =>
    rw [showStored, hdata]
    exact ⟨.ok (), _, rfl, hdata, fun _ => nofun, fun _ => rfl⟩
  | some records =>
    obtain ⟨r, p', hrun, hdata', hiff⟩ := hdraw reply.clockAgain records p
    have hprintable : (∀ rs, some records = some rs → ∀ record ∈ rs, P record) ↔ r = .ok () :=
      ⟨fun h => hiff.2 (h records rfl), fun hr rs hrs => Option.some.inj hrs ▸ hiff.1 hr⟩
    rw [showStored, hdata, hprintable]
    cases r with
    | error e => exact ⟨.error e, p', runFrom_bind_error hrun, hdata'.trans hdata, Iff.rfl⟩
    | ok _ =>
      exact ⟨.ok (), _, (runFrom_bind_ok hrun).trans (setPanelMessage_run _ _ _),
        hdata'.trans hdata, Iff.rfl⟩

theorem fallBack_loads (hdraw : Draws P draw) (e : JsError) :
    Loads (fallBack browser name draw reply e) p p.data
      (∀ records, p.data = some records → ∀ record ∈ records, P record) := by
  have hmodify : runFrom (modify fun p => { p with error := some e } : M R Unit) p =
    (.ok (), { p with error := some e }) := rfl
  obtain ⟨r, p', hrun, hdata, hiff⟩ :=
    showStored_run browser name reply { p with error := some e } hdraw
  rw [Loads, fallBack, runFrom_bind_ok hmodify, runFrom_bind_ok (runFrom_get _), ← hiff]
  cases r with
  | error e' => exact ⟨.error e', p', runFrom_bind_error hrun, hdata, nofun, nofun⟩
  | ok _ => exact ⟨.ok false, p', runFrom_bind_ok hrun, hdata, fun _ => rfl, fun _ => ⟨false, rfl⟩⟩

/-- A load is rejected exactly if what there is to show cannot be printed. -/
theorem loadResource_loads (hdraw : Draws P draw) :
    Loads (loadResource browser name draw reply) p (shown p.data reply.response)
      (∀ records, shown p.data reply.response = some records → ∀ record ∈ records, P record) := by
  have hbusy : ∀ q : Panel R, runFrom (modify fun p => { p with busy := false } : M R Unit) q =
    (.ok (), { q with busy := false }) := fun _ => rfl
  suffices hbody : Loads (tryCatch (store browser name draw reply)
      (fallBack browser name draw reply)) p (shown p.data reply.response)
      (∀ records, shown p.data reply.response = some records → ∀ record ∈ records, P record) by
    obtain ⟨r, q, hrun, hdata, hiff⟩ := hbody
    exact ⟨r, { q with busy := false }, runFrom_tryFinally hrun (hbusy q), hdata, hiff⟩
  rw [shown]
  cases hrecords : reply.response.records with
  | none =>
    -- what is stored is shown again
    obtain ⟨e, hfetch⟩ := fetchJson_refuses (apiUrl browser name) hrecords p
    have hstore : runFrom (store browser name draw reply) p = (.error e, p) :=
      runFrom_bind_error hfetch
    rw [Loads, runFrom_tryCatch_error hstore]
    exact fallBack_loads browser name reply p hdraw e
  | some records =>
    obtain ⟨r, q, hrun, hdata, hiff⟩ := store_loads browser name reply p hdraw hrecords
    have hshown : (∀ rs, (some records).or p.data = some rs → ∀ record ∈ rs, P record) ↔
        ∀ record ∈ records, P record :=
      ⟨fun h => h records rfl, fun h rs hrs => Option.some.inj hrs ▸ h⟩
    rw [Loads, hshown]
    cases r with
    | ok ok => exact ⟨.ok ok, q, runFrom_tryCatch_ok hrun, hdata, hiff⟩
    | error e =>
      -- the data that could not be rendered is rendered once more
      obtain ⟨r', q', hrun', hdata', hiff'⟩ := fallBack_loads browser name reply q hdraw e
      rw [hdata] at hdata' hiff'
      refine ⟨r', q', (runFrom_tryCatch_error hrun).trans hrun', hdata', hiff'.trans ?_⟩
      exact ⟨fun h => h records rfl, fun h rs hrs => Option.some.inj hrs ▸ h⟩

end Loads

/-- All workers of the list, if there is one, can be printed. -/
def Printable (workers : Option (List WorkerRecord)) : Prop :=
  ∀ ws, workers = some ws → ∀ worker ∈ ws, PrintableWorker worker

/-- No `refresh` is in progress, and the button can be pressed. -/
structure Settled (page : Page) : Prop where
  idle : page.refreshInProgress = false
  enabled : page.button.disabled = false

section Replies
variable (browser : Browser)

theorem renderWorkers_draws : Draws PrintableWorker (renderWorkers browser) :=
  render_draws (workersMarkup_ok_iff browser)

theorem renderTasks_draws : Draws (fun _ => True) (renderTasks browser) :=
  render_draws fun clock tasks =>
    iff_of_true (tasksMarkup_ok browser clock tasks) fun _ _ => trivial

/-- The load of the workers takes the data to be shown, and is rejected if they cannot be. -/
theorem workersReply_eq (reply : Reply WorkerRecord) (page : Page) :
    ∃ panel load, workersReply browser reply page =
        resume browser reply.finishedAt { page with workers := panel, workersLoad := load } ∧
      panel.data = shown page.workers.data reply.response ∧
      (Printable panel.data ∧ (∃ ok, load = .fulfilled ok) ∨
        ¬Printable panel.data ∧ load = .rejected) := by
  obtain ⟨r, panel, hrun, hdata, hiff⟩ :=
    loadResource_loads browser "workers" reply page.workers (renderWorkers_draws browser)
  refine ⟨panel, settledLoad r, by rw [workersReply, hrun], hdata, ?_⟩
  rw [Printable, hdata, ← hiff]
  cases r with
  | ok ok => exact .inl ⟨⟨ok, rfl⟩, ok, rfl⟩
  | error e => exact .inr ⟨nofun, rfl⟩

theorem tasksReply_eq (reply : Reply TaskRecord) (page : Page) :
    ∃ panel ok, tasksReply browser reply page =
      resume browser reply.finishedAt { page with tasks := panel, tasksLoad := .fulfilled ok } := by
  obtain ⟨r, panel, hrun, -, hiff⟩ :=
    loadResource_loads browser "tasks" reply page.tasks (renderTasks_draws browser)
  obtain ⟨ok, rfl⟩ := hiff.2 fun _ _ _ _ => trivial
  exact ⟨panel, ok, by rw [tasksReply, hrun]; rfl⟩

end Replies

/-- The loads that `refresh` waits for: at least one request has no reply yet. -/
inductive Awaiting : Load → Load → Prop
  | both : Awaiting .pending .pending
  | tasks (ok : Bool) : Awaiting (.fulfilled ok) .pending
  | workers (ok : Bool) : Awaiting .pending (.fulfilled ok)

/-- `Promise.all` has not been rejected: a request is out, or both loads are fulfilled. -/
def Unrejected (workersLoad tasksLoad : Load) : Prop :=
  Awaiting workersLoad tasksLoad ∨
    ∃ workersOk tasksOk, workersLoad = .fulfilled workersOk ∧ tasksLoad = .fulfilled tasksOk

theorem Awaiting.workersCome {load : Load} (h : Awaiting .pending load) (ok : Bool) :
    Unrejected (.fulfilled ok) load := by
  cases h with
  | both => exact .inl (.tasks ok)
  | workers tasksOk => exact .inr ⟨ok, tasksOk, rfl, rfl⟩

theorem Awaiting.tasksCome {load : Load} (h : Awaiting load .pending) (ok : Bool) :
    Unrejected load (.fulfilled ok) := by
  cases h with
  | both => exact .inl (.workers ok)
  | tasks workersOk => exact .inr ⟨workersOk, ok, rfl, rfl⟩

section Resume
variable (browser : Browser) (now : Int) (page : Page)

theorem resume_left (h : page.waiting = false) : resume browser now page = page := by
  rw [resume, h]
  rfl

theorem resume_awaiting (h : Awaiting page.workersLoad page.tasksLoad) :
    resume browser now page = page := by
  rw [resume]
  split
  · cases page with
    | mk => cases h <;> rfl
  · rfl

theorem resume_rejected (hwaiting : page.waiting = true) (h : page.workersLoad = .rejected) :
    resume browser now page = { page with waiting := false } := by
  rw [resume, if_pos hwaiting, h]

theorem resume_fulfilled {workersOk tasksOk : Bool} (hwaiting : page.waiting = true)
    (hworkers : page.workersLoad = .fulfilled workersOk)
    (htasks : page.tasksLoad = .fulfilled tasksOk) :
    resume browser now page = finishRefresh browser now workersOk tasksOk page := by
  rw [resume, if_pos hwaiting, hworkers, htasks]

/-- The rest of `refresh` leaves the data and the loads alone. -/
theorem finishRefresh_frame (workersOk tasksOk : Bool) :
    (finishRefresh browser now workersOk tasksOk page).workers = page.workers ∧
      (finishRefresh browser now workersOk tasksOk page).workersLoad = page.workersLoad ∧
      (finishRefresh browser now workersOk tasksOk page).tasksLoad = page.tasksLoad := by
  simp only [finishRefresh, setConnectionState]
  split_ifs <;> exact ⟨rfl, rfl, rfl⟩

theorem finishRefresh_settled (workersOk tasksOk : Bool) :
    Settled (finishRefresh browser now workersOk tasksOk page) := ⟨rfl, rfl⟩

end Resume

section Calls
variable (browser : Browser) {page : Page} (w : Reply WorkerRecord) (t : Reply TaskRecord)

theorem step_workersReply (h : page.workersLoad = .pending) :
    step browser page (.workersReply w) = some (workersReply browser w page) := if_pos h

theorem step_tasksReply (h : page.tasksLoad = .pending) :
    step browser page (.tasksReply t) = some (tasksReply browser t page) := if_pos h

theorem step_refresh (hidle : page.refreshInProgress = false) (hvisible : page.mainHidden = false) :
    step browser page .refresh = some (startRefresh page) := by
  simp [step, refresh, hidle, hvisible]

/-- A call of `refresh` on a page that shows the dashboard, with the workers first. -/
theorem refresh_workers_first (hidle : page.refreshInProgress = false)
    (hvisible : page.mainHidden = false) :
    ∃ page', exec (step browser) page [.refresh, .workersReply w, .tasksReply t] = some page' ∧
      (Settled page' ↔ Printable (shown page.workers.data w.response)) := by
  rw [exec_cons_of_step (step_refresh browser hidle hvisible),
    exec_cons_of_step (step_workersReply browser w rfl)]
  obtain ⟨panel, load, hworkers, hdata, hcases⟩ :=
    workersReply_eq browser w (startRefresh page)
  have hdata : panel.data = shown page.workers.data w.response := hdata
  rw [hworkers, ← hdata]
  rcases hcases with ⟨hprintable, ok, rfl⟩ | ⟨hprintable, rfl⟩
  · -- the second load ends the refresh
    rw [resume_awaiting _ _ _ (.tasks ok), exec_cons_of_step (step_tasksReply browser t rfl)]
    obtain ⟨panel', ok', htasks⟩ := tasksReply_eq browser t
      { startRefresh page with workers := panel, workersLoad := .fulfilled ok }
    rw [htasks, resume_fulfilled _ _ _ rfl rfl rfl]
    exact ⟨_, rfl, iff_of_true (finishRefresh_settled _ _ _ ok ok') hprintable⟩
  · -- the second load finds nobody waiting
    rw [resume_rejected _ _ _ rfl rfl, exec_cons_of_step (step_tasksReply browser t rfl)]
    obtain ⟨panel', ok', htasks⟩ := tasksReply_eq browser t
      { startRefresh page with workers := panel, workersLoad := .rejected, waiting := false }
    rw [htasks, resume_left _ _ _ rfl]
    exact ⟨_, rfl, iff_of_false (fun hsettled => nomatch hsettled.idle) hprintable⟩

/-- The same with the tasks first. -/
theorem refresh_tasks_first (hidle : page.refreshInProgress = false)
    (hvisible : page.mainHidden = false) :
    ∃ page', exec (step browser) page [.refresh, .tasksReply t, .workersReply w] = some page' ∧
      (Settled page' ↔ Printable (shown page.workers.data w.response)) := by
  rw [exec_cons_of_step (step_refresh browser hidle hvisible),
    exec_cons_of_step (step_tasksReply browser t rfl)]
  obtain ⟨panel', ok', htasks⟩ := tasksReply_eq browser t (startRefresh page)
  rw [htasks, resume_awaiting _ _ _ (.workers ok'),
    exec_cons_of_step (step_workersReply browser w rfl)]
  obtain ⟨panel, load, hworkers, hdata, hcases⟩ := workersReply_eq browser w
    { startRefresh page with tasks := panel', tasksLoad := .fulfilled ok' }
  have hdata : panel.data = shown page.workers.data w.response := hdata
  rw [hworkers, ← hdata]
  rcases hcases with ⟨hprintable, ok, rfl⟩ | ⟨hprintable, rfl⟩
  · rw [resume_fulfilled _ _ _ rfl rfl rfl]
    exact ⟨_, rfl, iff_of_true (finishRefresh_settled _ _ _ ok ok') hprintable⟩
  · rw [resume_rejected _ _ _ rfl rfl]
    exact ⟨_, rfl, iff_of_false (fun hsettled => nomatch hsettled.idle) hprintable⟩

end Calls

/-- `refresh` runs to its end: it waits for a request, or has left everything ready for the next
call. -/
structure Live (page : Page) : Prop where
  outstanding : page.waiting = true → page.workersLoad = .pending ∨ page.tasksLoad = .pending
  ended : page.waiting = false → Settled page

/-- What a reply must bring for the workers. -/
def Brings : Event → Prop
  | .workersReply reply => Printable reply.response.records
  | _ => True

/-- The states between the events as long as no load has been rejected. -/
structure Inv (page : Page) : Prop where
  stored : Printable page.workers.data
  waiting : page.waiting = true → page.refreshInProgress = true ∧
    Awaiting page.workersLoad page.tasksLoad
  ended : page.waiting = false →
    Settled page ∧ page.workersLoad ≠ .pending ∧ page.tasksLoad ≠ .pending

section Runs
variable {browser : Browser} {page page' : Page}

theorem printable_shown {stored : Option (List WorkerRecord)} (hstored : Printable stored)
    (response : Response WorkerRecord) :
    Printable (shown stored response) ↔ Printable response.records := by
  rw [shown]
  cases response.records with
  | none => exact iff_of_true hstored nofun
  | some records => rfl

theorem Inv.live (h : Inv page) : Live page where
  outstanding hwaiting := by
    obtain ⟨-, hawaiting⟩ := h.waiting hwaiting
    revert hawaiting
    generalize page.workersLoad = a, page.tasksLoad = b
    rintro (_ | ok | ok)
    · exact .inl rfl
    · exact .inr rfl
    · exact .inl rfl
  ended hwaiting := (h.ended hwaiting).1

/-- A refresh begins, or the page stays as it is. -/
theorem Inv.refresh (h : Inv page) : Inv (refresh page) := by
  rw [Dashboard.refresh]
  split
  · exact h
  · exact
      { stored := h.stored
        waiting := fun _ => ⟨rfl, .both⟩
        ended := nofun }

/-- What does not touch the refresh keeps the invariant. -/
theorem Inv.frame (h : Inv page) (hstored : Printable page'.workers.data)
    (hwaiting : page'.waiting = page.waiting)
    (hprogress : page'.refreshInProgress = page.refreshInProgress)
    (hbutton : page'.button = page.button) (hworkers : page'.workersLoad = page.workersLoad)
    (htasks : page'.tasksLoad = page.tasksLoad) : Inv page' where
  stored := hstored
  waiting hw := by
    rw [hprogress, hworkers, htasks]
    exact h.waiting (hwaiting ▸ hw)
  ended hw := by
    obtain ⟨hsettled, hnotPending⟩ := h.ended (hwaiting ▸ hw)
    rw [hworkers, htasks]
    exact ⟨⟨hprogress ▸ hsettled.idle, hbutton ▸ hsettled.enabled⟩, hnotPending⟩

theorem finishRefresh_inv {now : Int} {workersOk tasksOk : Bool}
    (hstored : Printable page.workers.data) (hworkers : page.workersLoad = .fulfilled workersOk)
    (htasks : page.tasksLoad = .fulfilled tasksOk) :
    Inv (finishRefresh browser now workersOk tasksOk page) := by
  obtain ⟨hpanel, hworkers', htasks'⟩ :=
    finishRefresh_frame browser now page workersOk tasksOk
  refine ⟨hpanel ▸ hstored, nofun, fun _ => ⟨finishRefresh_settled _ _ _ _ _, ?_, ?_⟩⟩
  · rw [hworkers', hworkers]
    nofun
  · rw [htasks', htasks]
    nofun

/-- Unless a load is rejected, the invariant outlasts a reply. -/
theorem resume_inv {now : Int} (hstored : Printable page.workers.data)
    (hwaiting : page.waiting = true) (hprogress : page.refreshInProgress = true)
    (hloads : Unrejected page.workersLoad page.tasksLoad) : Inv (resume browser now page) := by
  rcases hloads with hawaiting | ⟨workersOk, tasksOk, hworkers, htasks⟩
  · rw [resume_awaiting _ _ _ hawaiting]
    exact
      { stored := hstored
        waiting := fun _ => ⟨hprogress, hawaiting⟩
        ended := fun hleft => absurd (hwaiting.symm.trans hleft) nofun }
  · rw [resume_fulfilled _ _ _ hwaiting hworkers htasks]
    exact finishRefresh_inv hstored hworkers htasks

/-- A reply comes while `refresh` waits. -/
theorem Inv.awaiting (h : Inv page) (hpending : page.workersLoad = .pending ∨
    page.tasksLoad = .pending) : page.waiting = true ∧ page.refreshInProgress = true ∧
      Awaiting page.workersLoad page.tasksLoad := by
  cases hwaiting : page.waiting with
  | true => exact ⟨rfl, h.waiting hwaiting⟩
  | false =>
    obtain ⟨-, hworkers, htasks⟩ := h.ended hwaiting
    exact absurd hpending (not_or.2 ⟨hworkers, htasks⟩)

theorem workersReply_inv (h : Inv page) (hpending : page.workersLoad = .pending)
    (reply : Reply WorkerRecord) :
    (Printable reply.response.records → Inv (workersReply browser reply page)) ∧
      (Live (workersReply browser reply page) → Printable reply.response.records) := by
  obtain ⟨hwaiting, hprogress, hawaiting⟩ := h.awaiting (.inl hpending)
  obtain ⟨panel, load, heq, hdata, hcases⟩ := workersReply_eq browser reply page
  rw [← printable_shown h.stored, ← hdata, heq]
  rcases hcases with ⟨hprintable, ok, rfl⟩ | ⟨hprintable, rfl⟩
  · refine ⟨fun _ => ?_, fun _ => hprintable⟩
    rw [hpending] at hawaiting
    exact resume_inv hprintable hwaiting hprogress (hawaiting.workersCome ok)
  · have hrest := resume_rejected browser reply.finishedAt
      { page with workers := panel, workersLoad := .rejected } hwaiting rfl
    rw [hrest]
    refine ⟨fun h => absurd h hprintable, fun hlive => ?_⟩
    exact absurd (hprogress.symm.trans (hlive.ended rfl).idle) nofun

theorem tasksReply_inv (h : Inv page) (hpending : page.tasksLoad = .pending)
    (reply : Reply TaskRecord) : Inv (tasksReply browser reply page) := by
  obtain ⟨hwaiting, hprogress, hawaiting⟩ := h.awaiting (.inr hpending)
  obtain ⟨panel, ok, heq⟩ := tasksReply_eq browser reply page
  rw [heq]
  rw [hpending] at hawaiting
  exact resume_inv h.stored hwaiting hprogress (hawaiting.tasksCome ok)

theorem step_inv (h : Inv page) {e : Event} (hstep : step browser page e = some page') :
    (Brings e → Inv page') ∧ (Live page' → Brings e) := by
  cases e with
  | refresh =>
    cases hstep
    exact ⟨fun _ => h.refresh, fun _ => trivial⟩
  | showMessage =>
    cases hstep
    exact ⟨fun _ => h.frame nofun rfl rfl rfl rfl rfl, fun _ => trivial⟩
  | showDashboard =>
    cases hstep
    refine ⟨fun _ => ?_, fun _ => trivial⟩
    rw [showDashboard]
    split
    · exact h.frame h.stored rfl rfl rfl rfl rfl
    · have hvisible : Inv { page with mainHidden := false, dashboardStarted := true } :=
        h.frame h.stored rfl rfl rfl rfl rfl
      exact hvisible.refresh
  | workersReply reply =>
    rw [step] at hstep
    split at hstep <;> cases hstep
    rename_i hpending
    exact workersReply_inv h hpending reply
  | tasksReply reply =>
    rw [step] at hstep
    split at hstep <;> cases hstep
    rename_i hpending
    exact ⟨fun _ => tasksReply_inv h hpending reply, fun _ => trivial⟩

theorem start_inv : Inv {} where
  stored := nofun
  waiting := nofun
  ended _ := ⟨⟨rfl, rfl⟩, nofun, nofun⟩

end Runs

/-- `refresh` runs to its end exactly if the workers it has to show, from the response or from
an earlier one, can be printed: on any page, and all along from the page as it is loaded. -/
theorem refresh_settles_iff (browser : Browser) :
    (∀ (page : Page) (w : Reply WorkerRecord) (t : Reply TaskRecord) (replies : List Event),
      page.refreshInProgress = false → page.mainHidden = false →
      (replies = [.workersReply w, .tasksReply t] ∨ replies = [.tasksReply t, .workersReply w]) →
      ∃ page', exec (step browser) page (.refresh :: replies) = some page' ∧
        (Settled page' ↔ Printable (shown page.workers.data w.response))) ∧
    ∀ events, Throughout (step browser) Live {} events ↔
      Along (step browser) (fun _ e => Brings e) {} events := by
  constructor
  · rintro page w t replies hidle hvisible (rfl | rfl)
    · exact refresh_workers_first browser w t hidle hvisible
    · exact refresh_tasks_first browser w t hidle hvisible
  · exact throughout_iff_along_of_invariant (fun _ => Inv.live)
      (fun page e page' h he hstep => (step_inv h hstep).1 he)
      (fun page e page' h hstep => (step_inv h hstep).2) start_inv

/-- A browser that reads no dates and changes no letters. -/
def plainBrowser : Browser where
  apiBase := units "/queue"
  toUpperCase := id
  parseDate := fun _ => none
  clockTime := fun _ => units "12:00:00"

def workerOfTaskTypes (taskTypes : Json) : WorkerRecord where
  id := units "1"
  name := units "gpu-1"
  capabilities := [(units "task_types", taskTypes)]

theorem refresh_settles_listed : ∃ page, exec (step plainBrowser) { mainHidden := false }
    [.refresh, .tasksReply { response := .networkFailure },
      .workersReply { response := .answer 200 (.array
        [workerOfTaskTypes (.array [.string (units "image_gen"), .null])]) }] = some page ∧
    Settled page := by
  obtain ⟨page, hrun, hiff⟩ := (refresh_settles_iff plainBrowser).1 { mainHidden := false }
    { response := .answer 200 (.array
      [workerOfTaskTypes (.array [.string (units "image_gen"), .null])]) }
    { response := .networkFailure } _ rfl rfl (.inr rfl)
  refine ⟨page, hrun, hiff.2 ?_⟩
  rintro workers ⟨⟩ worker hworker
  rw [List.mem_singleton] at hworker
  subst hworker
  refine { taskTypes := .array fun value hvalue => ?_, profiles := .absent }
  rcases List.mem_pair.1 hvalue with rfl | rfl
  · exact .string _
  · exact .null

/-- One worker that registered its task types as an object wedges the page as it is loaded: no
call of `refresh` does anything from then on. -/
theorem refresh_wedges : ∃ page, exec (step plainBrowser) {}
    [.showDashboard,
      .workersReply { response := .answer 200 (.array
        [workerOfTaskTypes (.object [(units "image_gen", .bool true)])]) },
      .tasksReply { response := .answer 200 (.array []) }] = some page ∧
    page.waiting = false ∧ ¬Settled page ∧ refresh page = page := by
  refine ⟨_, rfl, rfl, fun hsettled => ?_, rfl⟩
  exact nomatch hsettled.idle

end TaskQueue.Dashboard
