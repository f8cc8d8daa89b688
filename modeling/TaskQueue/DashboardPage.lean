import TaskQueue.DashboardMarkup
import TaskQueue.StateExceptions

/-!
# The page of the admin dashboard

`refresh` of `app/admin_ui/admin.js` and what it calls, with the elements that they write.
Between two events the page waits: `refresh` for its two loads, and each load for the reply
to its request. The two loads write to different elements, so that the rest of a load, once
its reply is there, is a computation on its own panel.
-/

namespace TaskQueue.Dashboard
open JavaScript Html StateExceptions

structure PanelMessage where
  hidden : Bool := true
  isError : Bool := false
  text : JsString := []

/-- A resource with the elements that show it. -/
structure Panel (R : Type) where
  data : Option (List R) := none
  error : Option JsError := none
  updatedAt : Option Int := none
  count : JsString := units "Loading"
  markup : Markup := []
  busy : Bool := true
  message : PanelMessage := {}

/-- The body of a response: no JSON, JSON that is no array, or records. -/
inductive Body (R : Type)
  | unreadable
  | other
  | array (records : List R)

inductive Response (R : Type)
  | networkFailure
  | answer (status : ℕ) (body : Body R)

/-- A response with the readings of the clock while it is dealt with: for `updatedAt`, for the
rows, for the rows if they are built again, and at the end of `refresh`. -/
structure Reply (R : Type) where
  response : Response R
  updatedAt : Int := 0
  clock : ℕ → Int := fun _ => 0
  clockAgain : ℕ → Int := fun _ => 0
  finishedAt : Int := 0

section Loading
variable {R : Type}

abbrev M (R : Type) := ExceptT JsError (StateM (Panel R))

def apiUrl (browser : Browser) (path : String) : JsString :=
  let base := browser.apiBase
  let path := units path
  (if base.getLast? = some slash then base.dropLast else base) ++ [slash] ++
    (if path.head? = some slash then path.tail else path)

def setPanelMessage (message : JsString) (isError : Bool := false) : M R Unit :=
  modify fun p => { p with message := ⟨message.isEmpty, isError, message⟩ }

def unavailableState (browser : Browser) (noun : String) : M R Unit :=
  modify fun p => { p with
    markup :=
      [.text "\n    <div class=\"empty-state\">\n      ",
        .text "<svg viewBox=\"0 0 24 24\" aria-hidden=\"true\"><path d=\"M12 2 1 21h22L12 2Zm0 4 ",
        .text "7.5 13h-15L12 6Zm-1 4v5h2v-5h-2Zm0 7v2h2v-2h-2Z\"/></svg>",
        .text "\n      <strong>", .value (escapeHtml (sentenceCase browser (some (units noun)))),
        .text " unavailable</strong>\n      <p>The queue did not return ",
        .value (escapeHtml (units noun)),
        .text ". Use Refresh to try again.</p>\n    </div>"] }

/-- `renderWorkers` or `renderTasks`: the count is there before the markup is built. -/
def render (singular : String) (build : (ℕ → Int) → List R → Except JsError Markup)
    (clock : ℕ → Int) (records : List R) : M R Unit := do
  modify fun p => { p with count := plural records.length singular }
  match build clock records with
  | .ok markup => modify fun p => { p with markup := markup }
  | .error e => throw e

/-- `response.ok`. -/
def isOk (status : ℕ) : Bool := 200 ≤ status && status ≤ 299

def fetchJson (endpoint : JsString) : Response R → M R (List R)
  | .networkFailure => throw .typeError
  | .answer status body =>
    if !isOk status then throw (.error (endpoint ++ units " returned " ++ decimal status))
    else match body with
      | .unreadable => throw .syntaxError
      | .other => throw (.error (endpoint ++ units " returned an unexpected response"))
      | .array records => return records

variable (browser : Browser) (name : String)
  (draw : (ℕ → Int) → List R → M R Unit) (reply : Reply R)

/-- The `try` block of `loadResource`. -/
def store : M R Bool := do
  let data ← fetchJson (apiUrl browser name) reply.response
  modify fun p => { p with data := some data, error := none, updatedAt := some reply.updatedAt }
  draw reply.clock data
  setPanelMessage []
  return true

/-- What the handler shows: the stored data, if there is any. -/
def showStored (resource : Panel R) : M R Unit :=
  match resource.data with
  | some data => do
    draw reply.clockAgain data
    setPanelMessage (units s!"Could not refresh {name}. Showing data from " ++
      browser.clockTime (resource.updatedAt.getD 0) ++ units ".")
  | none => do
    unavailableState browser name
    setPanelMessage (units s!"Could not load {name}.") true

/-- The handler. -/
def fallBack (error : JsError) : M R Bool := do
  modify fun p => { p with error := some error }
  showStored browser name draw reply (← get)
  return false

/-- `loadResource` from its reply on. -/
def loadResource : M R Bool :=
  tryFinally (tryCatch (store browser name draw reply) (fallBack browser name draw reply))
    (modify fun p => { p with busy := false })

end Loading

section Page

/-- The promise of a call of `loadResource`. -/
inductive Load
  | none
  | pending
  | fulfilled (ok : Bool)
  | rejected
  deriving DecidableEq

structure RefreshButton where
  disabled : Bool := false
  refreshing : Bool := false
  label : JsString := units "Refresh"

structure WorkerMetrics where
  online : JsString := units "–"
  onlineNote : JsString := units "Connecting"
  busy : JsString := units "–"
  busyNote : JsString := units "Connecting"

structure TaskMetrics where
  queued : JsString := units "–"
  queuedNote : JsString := units "Connecting"
  running : JsString := units "–"
  runningNote : JsString := units "Connecting"

structure Attention where
  hidden : Bool := true
  message : JsString := []

/-- The class of the connection summary. -/
inductive Connection
  | isLive
  | isWarning
  | isError
  deriving DecidableEq

/-- The page, as it is loaded by default. `waiting` while `refresh` is at its `await`. -/
structure Page where
  workers : Panel WorkerRecord := {}
  tasks : Panel TaskRecord := {}
  refreshInProgress : Bool := false
  dashboardStarted : Bool := false
  mainHidden : Bool := true
  button : RefreshButton := {}
  workerMetrics : WorkerMetrics := {}
  taskMetrics : TaskMetrics := {}
  attention : Attention := {}
  connection : Option Connection := none
  updated : JsString := units "Connecting to queue…"
  waiting : Bool := false
  workersLoad : Load := .none
  tasksLoad : Load := .none

def workerMetrics : Option (List WorkerRecord) → WorkerMetrics
  | some workers =>
    let online := workers.countP fun worker => worker.online
    let busy := workers.countP fun worker => worker.online && worker.state = units "busy"
    let offline := workers.length - online
    { online := decimal online
      onlineNote :=
        if offline ≠ 0 then plural offline "worker" ++ units " offline"
        else decimal workers.length ++ units " registered"
      busy := decimal busy
      busyNote :=
        if busy ≠ 0 then units "of " ++ decimal online ++ units " online"
        else units "No active work" }
  | none => { onlineNote := units "Unavailable", busyNote := units "Unavailable" }

def withStatus (status : String) (tasks : List TaskRecord) : ℕ :=
  tasks.countP fun task => task.status = units status

def taskMetrics : Option (List TaskRecord) → TaskMetrics
  | some tasks =>
    let failed := withStatus "failed" tasks
    { queued := decimal (withStatus "queued" tasks)
      queuedNote := decimal tasks.length ++ units " recent"
      running := decimal (withStatus "claimed" tasks)
      runningNote :=
        if failed ≠ 0 then plural failed "task" ++ units " failed"
        else units "No recent failures" }
  | none => { queuedNote := units "Unavailable", runningNote := units "Unavailable" }

def updateMetrics (page : Page) : Page :=
  { page with
    workerMetrics := workerMetrics page.workers.data
    taskMetrics := taskMetrics page.tasks.data }

def updateAttention (page : Page) : Page :=
  let offline := (page.workers.data.getD []).countP fun worker => !worker.online
  let failed := withStatus "failed" (page.tasks.data.getD [])
  let messages :=
    (if offline ≠ 0 then [plural offline "worker" ++ units " offline"] else []) ++
      (if failed ≠ 0 then [plural failed "recent task" ++ units " failed"] else [])
  { page with
    attention := {
      hidden := messages.isEmpty
      message :=
        if messages.isEmpty then []
        else (units " and ").intercalate messages ++
          units ". Review the records below for context." } }

def setConnectionState (browser : Browser) (now : Int) (workersOk tasksOk : Bool) (page : Page) :
    Page :=
  if workersOk && tasksOk then
    { page with
      connection := some .isLive
      updated := units "Queue updated " ++ browser.clockTime now }
  else if workersOk || tasksOk then
    { page with
      connection := some .isWarning
      updated := units "Partial update · showing available data" }
  else
    { page with
      connection := some .isError
      updated :=
        if page.workers.data.isSome || page.tasks.data.isSome then
          units "Queue unavailable · showing last known data"
        else units "Could not connect to queue" }

/-- The two loads begin. -/
def startRefresh (page : Page) : Page :=
  { page with
    refreshInProgress := true
    button := { disabled := true, refreshing := true, label := units "Refreshing" }
    workers := { page.workers with busy := true }
    tasks := { page.tasks with busy := true }
    waiting := true
    workersLoad := .pending
    tasksLoad := .pending }

/-- `refresh` up to its `await`. -/
def refresh (page : Page) : Page :=
  if page.refreshInProgress || page.mainHidden then page else startRefresh page

/-- The rest of `refresh`. -/
def finishRefresh (browser : Browser) (now : Int) (workersOk tasksOk : Bool) (page : Page) : Page :=
  let page := updateAttention (updateMetrics page)
  let page := setConnectionState browser now workersOk tasksOk page
  { page with
    button := { disabled := false, refreshing := false, label := units "Refresh" }
    refreshInProgress := false
    waiting := false }

/-- `Promise.all` settles: with the first rejection, or when both loads are fulfilled. A
rejection leaves `refresh` at once. -/
def resume (browser : Browser) (now : Int) (page : Page) : Page :=
  if page.waiting then
    match page.workersLoad, page.tasksLoad with
    | .rejected, _ => { page with waiting := false }
    | _, .rejected => { page with waiting := false }
    | .fulfilled workersOk, .fulfilled tasksOk => finishRefresh browser now workersOk tasksOk page
    | _, _ => page
  else page

def settledLoad : Except JsError Bool → Load
  | .ok ok => .fulfilled ok
  | .error _ => .rejected

def renderWorkers (browser : Browser) : (ℕ → Int) → List WorkerRecord → M WorkerRecord Unit :=
  render "worker" (workersMarkup browser)

def renderTasks (browser : Browser) : (ℕ → Int) → List TaskRecord → M TaskRecord Unit :=
  render "task" (tasksMarkup browser)

def workersReply (browser : Browser) (reply : Reply WorkerRecord) (page : Page) : Page :=
  let run := runFrom (loadResource browser "workers" (renderWorkers browser) reply) page.workers
  resume browser reply.finishedAt { page with workers := run.2, workersLoad := settledLoad run.1 }

def tasksReply (browser : Browser) (reply : Reply TaskRecord) (page : Page) : Page :=
  let run := runFrom (loadResource browser "tasks" (renderTasks browser) reply) page.tasks
  resume browser reply.finishedAt { page with tasks := run.2, tasksLoad := settledLoad run.1 }

def resetPanel {R : Type} (panel : Panel R) : Panel R :=
  { panel with data := none, error := none, updatedAt := none }

/-- `showMessage` with `resetDashboard`. -/
def showMessage (page : Page) : Page :=
  { page with
    dashboardStarted := false
    workers := resetPanel page.workers
    tasks := resetPanel page.tasks
    mainHidden := true }

def showDashboard (page : Page) : Page :=
  if page.dashboardStarted then { page with mainHidden := false }
  else refresh { page with mainHidden := false, dashboardStarted := true }

/-- What happens to the page: a tick of the timer or a click, a reply, or a message or the
dashboard shown after a look at the session. -/
inductive Event
  | refresh
  | workersReply (reply : Reply WorkerRecord)
  | tasksReply (reply : Reply TaskRecord)
  | showMessage
  | showDashboard

/-- A reply comes to a request only. -/
def step (browser : Browser) (page : Page) : Event → Option Page
  | .refresh => some (refresh page)
  | .workersReply reply =>
    if page.workersLoad = .pending then some (workersReply browser reply page) else none
  | .tasksReply reply =>
    if page.tasksLoad = .pending then some (tasksReply browser reply page) else none
  | .showMessage => some (showMessage page)
  | .showDashboard => some (showDashboard page)

end Page
end TaskQueue.Dashboard
