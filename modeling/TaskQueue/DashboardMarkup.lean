import TaskQueue.HtmlOutlines
import Mathlib.Data.Int.Log
import Mathlib.Data.Rat.Floor

/-!
# The markup of the admin dashboard

What `renderWorkers` and `renderTasks` of `app/admin_ui/admin.js` build from the records of
the API. A template literal is a list of pieces: its own text, and the values put into it.
-/

namespace TaskQueue.Dashboard
open JavaScript Html

/-- A record of `GET /workers`, with the fields that the dashboard reads. -/
structure WorkerRecord where
  id : JsString
  name : JsString
  capabilities : Json.Fields := []
  version : Option JsString := none
  state : JsString := units "idle"
  currentTaskId : Option JsString := none
  lastHeartbeatAt : JsString := []
  online : Bool := true

/-- A record of `GET /tasks`. The progress columns are 32-bit integers. -/
structure TaskRecord where
  id : JsString
  taskType : JsString
  status : JsString := units "queued"
  claimedBy : Option JsString := none
  createdAt : JsString := []
  progressStage : Option JsString := none
  progressMessage : Option JsString := none
  progressCurrent : Option Int32 := none
  progressTotal : Option Int32 := none

/-- What depends on the browser: `toUpperCase`, `new Date(value).getTime()` (`none` for `NaN`)
and `clockTime` with its locale; and `API_BASE`, which the page sets. -/
structure Browser where
  apiBase : JsString
  toUpperCase : JsString → JsString
  parseDate : JsString → Option Int
  clockTime : Int → JsString

section Texts

def escapeUnit (c : CodeUnit) : JsString :=
  if c = ampersand then units "&amp;"
  else if c = lessThan then units "&lt;"
  else if c = greaterThan then units "&gt;"
  else if c = quote then units "&quot;"
  else if c = apostrophe then units "&#39;"
  else [c]

def escapeHtml (value : JsString) : JsString := value.flatMap escapeUnit

/-- `value || other`. -/
def orElse (value : Option JsString) (other : JsString) : JsString :=
  match value with
  | none | some [] => other
  | some text => text

def truthy : Option JsString → Bool
  | none | some [] => false
  | some _ => true

/-- A number in a template literal. -/
def decimal (n : Int) : JsString := units (toString n)

def plural (count : ℕ) (singular : String) : JsString :=
  decimal count ++ units " " ++ units (if count = 1 then singular else singular ++ "s")

def shortId (value : JsString) : JsString := value.take 8

variable (browser : Browser)

def sentenceCase (value : Option JsString) : JsString :=
  match trim (replaceAll (orElse value []) 0x5f 0x20) with
  | [] => units "Unknown"
  | first :: rest => browser.toUpperCase [first] ++ rest

def relativeTime (now : Int) (value : JsString) : JsString :=
  match browser.parseDate value with
  | none => units "Unknown"
  | some timestamp =>
    let seconds := max 0 ((now - timestamp) / 1000)
    if seconds < 10 then units "Just now"
    else if seconds < 60 then decimal seconds ++ units "s ago"
    else if seconds < 3600 then decimal (seconds / 60) ++ units "m ago"
    else if seconds < 86400 then decimal (seconds / 3600) ++ units "h ago"
    else decimal (seconds / 86400) ++ units "d ago"

end Texts

section Badges

def identifier (value : Option JsString) (label : String) : Markup :=
  if truthy value then
    let value := orElse value []
    [.text "<code class=\"identifier\" title=\"", .value (escapeHtml value),
      .text "\" aria-label=\"", .value (escapeHtml (units label)), .text " ",
      .value (escapeHtml value), .text "\" translate=\"no\">",
      .value (escapeHtml (shortId value)), .text "</code>"]
  else [.text "<span aria-label=\"No value\">—</span>"]

/-- A label and a kind, `undefined` where the object has none. -/
structure Badge where
  label : Option JsString
  kind : Option JsString

def statusBadge (badge : Badge) (includeDot : Bool := true) : Markup :=
  [.text "\n  <span class=\"status status-", .value (escapeHtml (badge.kind.getD [])),
    .text "\">\n    "] ++
    (if includeDot then [.text "<span class=\"status-dot\" aria-hidden=\"true\"></span>"]
    else []) ++
    [.text "\n    ", .value (escapeHtml (badge.label.getD [])), .text "\n  </span>"]

def badge (label kind : String) : Badge := ⟨some (units label), some (units kind)⟩

/-- The properties that every object literal inherits; none of them has a label or a kind. -/
def inherited : List String :=
  ["constructor", "__defineGetter__", "__defineSetter__", "hasOwnProperty", "__lookupGetter__",
    "__lookupSetter__", "isPrototypeOf", "propertyIsEnumerable", "toString", "valueOf",
    "__proto__", "toLocaleString"]

def taskStatus (browser : Browser) (status : JsString) : Badge :=
  if status = units "queued" then badge "Queued" "queued"
  else if status = units "claimed" then badge "Running" "running"
  else if status = units "done" then badge "Completed" "completed"
  else if status = units "failed" then badge "Failed" "failed"
  else if inherited.any fun key => status = units key then ⟨none, none⟩
  else ⟨some (sentenceCase browser (some status)), some (units "neutral")⟩

def workerState (worker : WorkerRecord) : Badge :=
  if !worker.online then badge "Offline" "offline"
  else if worker.state = units "busy" then badge "Busy" "busy"
  else badge "Available" "available"

end Badges

section Capabilities

/-- The values that are listed for a worker. -/
def capabilityValues (worker : WorkerRecord) : Except JsError (List Json) := do
  let taskTypes ← Json.spread (worker.capabilities.lookup (units "task_types"))
  let profiles ← Json.spread (worker.capabilities.lookup (units "profiles"))
  return taskTypes ++ profiles

def capability (value : Json) : Except JsError Markup := do
  let text ← value.display
  return [.text "<span class=\"capability\">", .value (escapeHtml text), .text "</span>"]

def capabilities (worker : WorkerRecord) : Except JsError Markup := do
  let values ← capabilityValues worker
  if values.isEmpty then return [.text "<span class=\"secondary-line\">None reported</span>"]
  else
    let items ← Markup.joined capability values
    return [.text "<div class=\"capability-list\" translate=\"no\">"] ++ items ++ [.text "</div>"]

end Capabilities

section Progress

/-- The nearest integer, and the even one of two. -/
def roundEven (q : ℚ) : ℤ :=
  if q - ⌊q⌋ < 1 / 2 then ⌊q⌋
  else if 1 / 2 < q - ⌊q⌋ then ⌊q⌋ + 1
  else if ⌊q⌋ % 2 = 0 then ⌊q⌋ else ⌊q⌋ + 1

/-- The floating-point number for a positive result in the normal range, or for zero. -/
def double (q : ℚ) : ℚ :=
  let ulp : ℚ := 2 ^ (Int.log 2 q - 52)
  roundEven (q / ulp) * ulp

/-- `Math.round((current / total) * 100)`. -/
def percent (current total : Int) : Int := ⌊double (double (current / total) * 100) + 1 / 2⌋

example : percent 29 200 = 14 := by decide +kernel

/-- `Number(value)` of a column; an absent value counts as zero. -/
def number (value : Option Int32) : Int := (value.map Int32.toInt).getD 0

def hasProgress (task : TaskRecord) : Bool := 0 < number task.progressTotal

def progressText (task : TaskRecord) : Option JsString :=
  if task.status = units "failed" then some (units "The worker reported a failure.")
  else task.progressMessage

def progressMessage (message : Option JsString) : Markup :=
  if truthy message then
    [.text "<span class=\"progress-message\">", .value (escapeHtml (orElse message [])),
      .text "</span>"]
  else []

def progress (browser : Browser) (task : TaskRecord) : Markup :=
  let stage := sentenceCase browser (some (orElse task.progressStage task.status))
  let message := progressText task
  if hasProgress task then
    let total := number task.progressTotal
    let boundedCurrent := min (max (number task.progressCurrent) 0) total
    let percent := percent boundedCurrent total
    [.text "\n    <div class=\"progress-copy\">\n      <div class=\"progress-heading\"><strong>",
      .value (escapeHtml stage), .text "</strong><span>", .value (decimal percent),
      .text "%</span></div>\n      <progress value=\"", .value (decimal boundedCurrent),
      .text "\" max=\"", .value (decimal total), .text "\" aria-label=\"",
      .value (escapeHtml (sentenceCase browser (some task.taskType))), .text " progress\">",
      .value (decimal percent), .text "%</progress>\n      "] ++
      progressMessage message ++ [.text "\n    </div>"]
  else
    [.text "<strong>", .value (escapeHtml stage), .text "</strong>"] ++ progressMessage message

end Progress

section Tables
variable (browser : Browser)

/-- The row of a worker with the markup of its capabilities. -/
def workerCells (now : Int) (worker : WorkerRecord) (capabilities : Markup) : Markup :=
  let state := workerState worker
  [.text "\n          <tr>\n            ",
      .text "<td data-label=\"Worker\" data-priority=\"primary\"><strong>",
      .value (escapeHtml worker.name), .text "</strong>"] ++
    identifier (some worker.id) "Worker ID" ++
    [.text "<span class=\"secondary-line\">",
      .value (escapeHtml (orElse worker.version (units "Version unknown"))),
      .text "</span></td>\n            <td data-label=\"Status\">"] ++
    statusBadge state ++
    [.text "</td>\n            <td data-label=\"Capabilities\">"] ++
    capabilities ++
    [.text "</td>\n            <td data-label=\"Current task\">"] ++
    identifier worker.currentTaskId "Current task ID" ++
    [.text "</td>\n            <td data-label=\"Last heartbeat\"><time datetime=\"",
      .value (escapeHtml worker.lastHeartbeatAt), .text "\">",
      .value (escapeHtml (relativeTime browser now worker.lastHeartbeatAt)),
      .text "</time></td>\n          </tr>"]

/-- A row is built with a reading of the clock. -/
def workerRow (now : Int) (worker : WorkerRecord) : Except JsError Markup := do
  return workerCells browser now worker (← capabilities worker)

/-- The worker of a task. -/
def claimant (task : TaskRecord) : Markup :=
  if truthy task.claimedBy then
    [.text "<span class=\"technical-value\">", .value (escapeHtml (orElse task.claimedBy [])),
      .text "</span>"]
  else [.text "<span class=\"secondary-line\">Waiting for worker</span>"]

def taskRow (now : Int) (task : TaskRecord) : Markup :=
  let state := taskStatus browser task.status
  [.text "\n          <tr>\n            ",
      .text "<td data-label=\"Task\" data-priority=\"primary\"><strong>",
      .value (escapeHtml (sentenceCase browser (some task.taskType))), .text "</strong>"] ++
    identifier (some task.id) "Task ID" ++
    [.text "</td>\n            <td data-label=\"Status\">"] ++
    statusBadge state ++
    [.text "</td>\n            <td data-label=\"Worker\">"] ++
    claimant task ++
    [.text "</td>\n            <td data-label=\"Progress\">"] ++
    progress browser task ++
    [.text "</td>\n            <td data-label=\"Created\"><time datetime=\"",
      .value (escapeHtml task.createdAt), .text "\">",
      .value (escapeHtml (relativeTime browser now task.createdAt)),
      .text "</time></td>\n          </tr>"]

/-- A table of records. Each row is built with a reading of the clock of its own. -/
def table {R : Type} (noRecords head : Markup) (row : Int → R → Except JsError Markup)
    (clock : ℕ → Int) (records : List R) : Except JsError Markup :=
  if records.isEmpty then .ok noRecords
  else do
    let rows ← Markup.joined (fun x => row (clock x.2) x.1) records.zipIdx
    return head ++ rows ++ [.text "</tbody>\n      </table>\n    </div>"]

/-- The panel without workers. -/
def noWorkers : Markup :=
  [.text "\n      <div class=\"empty-state\">\n        ",
    .text "<svg viewBox=\"0 0 24 24\" aria-hidden=\"true\"><path d=\"M6 2h12v6h3v8h-3v6H6v-6H3V8",
    .text "h3V2Zm2 2v16h8V4H8Zm10 6v4h1v-4h-1ZM5 10v4h1v-4H5Zm5-3h4v2h-4V7Zm0 4h4v2h-4v-2Z\"/></svg>",
    .text "\n        <strong>No workers registered</strong>\n        ",
    .text "<p>Start a configured worker to register it and begin sending heartbeats.</p>",
    .text "\n      </div>"]

/-- What `renderWorkers` assigns to `innerHTML`. -/
def workersMarkup (clock : ℕ → Int) (workers : List WorkerRecord) : Except JsError Markup :=
  table noWorkers
    [.text "\n    <div class=\"table-scroll\" tabindex=\"0\" role=\"region\" ",
      .text "aria-label=\"Registered workers table\">\n      <table>\n        ",
      .text "<thead><tr><th scope=\"col\">Worker</th><th scope=\"col\">Status</th>",
      .text "<th scope=\"col\">Capabilities</th><th scope=\"col\">Current task</th>",
      .text "<th scope=\"col\">Last heartbeat</th></tr></thead>",
      .text "\n        <tbody>"]
    (workerRow browser) clock workers

/-- The panel without tasks. -/
def noTasks : Markup :=
  [.text "\n      <div class=\"empty-state\">\n        ",
    .text "<svg viewBox=\"0 0 24 24\" aria-hidden=\"true\"><path d=\"M6 2h9l5 5v15H6V2Zm8 2H8v16h10",
    .text "V8h-4V4Zm-4 8h6v2h-6v-2Zm0 4h6v2h-6v-2Z\"/></svg>",
    .text "\n        <strong>No tasks submitted</strong>\n        ",
    .text "<p>Recent queue activity will appear here after a producer submits work.</p>",
    .text "\n      </div>"]

/-- What `renderTasks` assigns to `innerHTML`. -/
def tasksMarkup (clock : ℕ → Int) (tasks : List TaskRecord) : Except JsError Markup :=
  table noTasks
    [.text "\n    <div class=\"table-scroll\" tabindex=\"0\" role=\"region\" ",
      .text "aria-label=\"Recent tasks table\">\n      <table>\n        ",
      .text "<thead><tr><th scope=\"col\">Task</th><th scope=\"col\">Status</th>",
      .text "<th scope=\"col\">Worker</th><th scope=\"col\">Progress</th>",
      .text "<th scope=\"col\">Created</th></tr></thead>",
      .text "\n        <tbody>"]
    (fun now task => .ok (taskRow browser now task)) clock tasks

end Tables
end TaskQueue.Dashboard
