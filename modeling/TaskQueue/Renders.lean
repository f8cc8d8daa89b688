import TaskQueue.PythonStrings
import TaskQueue.StateExceptions
import TaskQueue.WorkerLoop

/-!
# The renders of the image worker

`_render_real` and `_render_hero_candidate_real` of `workers/image_worker.py`, with what
they call around forge2. A `Behaviour` says how each operation of the machine goes; the
calls that matter are recorded in order. An interrupt from outside is seen where the
source expects one, in the wait for forge2.
-/

namespace TaskQueue.Renders
open PythonStrings StateExceptions
open WorkerLoop (Json)

/-- `RuntimeError` and its subclasses, other subclasses of `Exception`, the rest. -/
inductive Kind
  | runtimeError
  | exception
  | baseException
  deriving DecidableEq

/-- An exception with its `str`. -/
structure Raised where
  kind : Kind
  text : String

/-- What may raise an exception that the code modelled here does not raise itself. -/
inductive Operation
  | memoryShortfall (again : Bool)
  | log
  | stop
  | ensureRunning
  | temporaryDirectory
  | writeCard
  | popen
  | startReader
  | wait
  | kill
  | waitKilled
  | readMetadata
  | readOutput
  | cleanup
  deriving DecidableEq

/-- How the machine and the supervisor behave during a render. `supervisor` says whether
there is one and whether it is managed, `shortfall` what a measurement adds to the start of
its message, `statusText` how `subprocess` speaks of an exit code. -/
structure Behaviour (Image : Type) where
  heartbeat : Bool := true
  supervisor : Option Bool := some true
  fails : Operation → Option Raised := fun _ => none
  shortfall : Bool → Option String := fun _ => none
  stderr : List String := []
  exitCode : Int := 0
  statusText : Int → String := fun _ => "returned non-zero exit status."
  command : String := "forge2"
  profileRepr : String := "'full'"
  metadata : Json := .null
  image : Image

inductive Call
  | memoryShortfall (short : Bool)
  | stop
  | markBusy
  | update (stage message : String)
  | ensureRunning (returned : Bool)
  | launch
  | exited (code : Int)
  | requestRestart
  | markIdle
  deriving DecidableEq

/-- The flag of the supervisor and the calls so far. -/
structure Render where
  busy : Bool
  calls : List Call

abbrev M := ExceptT Raised (StateM Render)

/-- The parameters `payload` and `task`, which are dictionaries. -/
abbrev Dict := List (String × Json)

def Render.calling (s : Render) (call : Call) : Render := { s with calls := s.calls ++ [call] }

def record (call : Call) : M Unit := modify fun s => s.calling call

/-- `fields[key]`; the text of a `KeyError` is the key in quotes. -/
def item (fields : Dict) (key : String) : M Json :=
  match (Json.object fields).field key with
  | some value => return value
  | none => throw ⟨.exception, "'" ++ key ++ "'"⟩

def has (fields : Dict) (key : String) : Bool := ((Json.object fields).field key).isSome

/-- `fields.get(key)` is not `None`. -/
def hasValue (fields : Dict) (key : String) : Bool :=
  match (Json.object fields).field key with
  | none | some .null => false
  | some _ => true

/-- `payload.get("profile", "full")`. -/
def profileOf (payload : Dict) : Json :=
  ((Json.object payload).field "profile").getD (.string "full")

/-- `profile in ("full", "lightning")`. -/
def supported : Json → Bool
  | .string profile => profile = "full" || profile = "lightning"
  | _ => false

def isCorrupt (text : String) : Bool := startsWith text "corrupt_output:"

def FORGE2_CORRUPT_EXIT_CODE : Int := 3

section Methods
variable {Image α : Type} (b : Behaviour Image)

def perform (op : Operation) : M Unit :=
  match b.fails op with
  | none => return
  | some e => throw e

/-- `memory.memory_shortfall(profile)`. -/
def memoryShortfall (again : Bool) : M (Option String) := do
  perform b (.memoryShortfall again)
  record (.memoryShortfall (b.shortfall again).isSome)
  return (b.shortfall again).map ("insufficient_memory: " ++ ·)

/-- What the worker does about a shortfall. -/
def remeasure : Option String → M (Option String)
  | none => return none
  | some shortfall =>
    if b.supervisor = some true then do
      perform b .log
      record .stop
      perform b .stop
      memoryShortfall b true
    else return some shortfall

/-- `if shortfall: raise RuntimeError(shortfall)`. -/
def refuse : Option String → M Unit
  | none => return
  | some shortfall => throw ⟨.runtimeError, shortfall⟩

/-- The memory gate. -/
def memoryGate : M Unit := do
  refuse (← remeasure b (← memoryShortfall b false))

/-- `if supervisor:`. -/
def supervised (m : M Unit) : M Unit := if b.supervisor.isSome then m else return

/-- `supervisor.mark_busy()`. -/
def markBusy : M Unit := modify fun s => { s.calling .markBusy with busy := true }

/-- `supervisor.mark_idle()`. -/
def markIdle : M Unit := modify fun s => { s.calling .markIdle with busy := false }

/-- `if heartbeat: heartbeat.update(state="busy", task=task, …)`. -/
def update (task : Dict) (stage message : String) : M Unit :=
  if b.heartbeat then
    if task.isEmpty then record (.update stage message)
    else do
      let _ ← item task "id"
      let _ ← item task "claim_token"
      record (.update stage message)
  else return

def ensureRunning : M Unit := do
  record (.ensureRunning (b.fails .ensureRunning).isNone)
  perform b .ensureRunning

/-- `_build_real_command` and `_build_hero_candidate_command` refuse alike. -/
def buildCommand (profile : Json) : M Unit :=
  if supported profile then return
  else throw ⟨.exception, "unsupported image profile: " ++ b.profileRepr⟩

/-- The `try` statement of `_run_forge2`. A process that is not waited for is killed. -/
def waitForge2 : M Unit :=
  tryCatch (do
    perform b .wait
    record (.exited b.exitCode)) fun e => do
      perform b .kill
      perform b .waitKilled
      throw e

/-- The `deque` with its 40 places. -/
def lastLines (lines : List String) : List String :=
  (lines.drop (lines.length - 40)).map (rstrip (· = '\n'))

/-- `_run_forge2`. -/
def runForge2 : M (Int × List String) := do
  record .launch
  perform b .popen
  perform b .startReader
  waitForge2 b
  return (b.exitCode, lastLines b.stderr)

/-- The text of a blank render: forge2's own line, or one that says what it should have. -/
def corruptText (tail : List String) : String :=
  ((tail.reverse.map strip).find? isCorrupt).getD
    ("corrupt_output: ComfyUI returned a blank/uniform image (forge2 exit " ++
      toString FORGE2_CORRUPT_EXIT_CODE ++ ")")

/-- `_raise_for_forge2_failure`. -/
def raiseForForge2Failure (returncode : Int) (tail : List String) : M Unit :=
  if returncode = FORGE2_CORRUPT_EXIT_CODE then throw ⟨.runtimeError, corruptText tail⟩
  else if returncode ≠ 0 then
    throw ⟨.exception, "Command '" ++ b.command ++ "' " ++ b.statusText returncode⟩
  else return

/-- forge2 with what is read after it. -/
def generate (output : M α) : M α := do
  let (returncode, tail) ← runForge2 b
  raiseForForge2Failure b returncode tail
  output

/-- `_run_real`. A remote render works in a temporary directory, made before the `try`
statement and deleted in its `finally` block. -/
def runReal (profile : Json) (heroPath characterCard : Bool) : M Image :=
  if heroPath ≠ characterCard then
    throw ⟨.exception, "remote render requires both hero_path and character_card"⟩
  else do
    if heroPath then
      perform b .temporaryDirectory
      perform b .writeCard
    buildCommand b profile
    tryFinally
      (generate b do
        perform b .readOutput
        return b.image)
      (if heroPath then perform b .cleanup else return)

/-- `_run_hero_candidate`, whose `with` statement covers all that follows. -/
def runHeroCandidate (profile : Json) : M (Image × Json) := do
  perform b .temporaryDirectory
  tryFinally
    (do
      perform b .writeCard
      buildCommand b profile
      generate b do
        perform b .readMetadata
        perform b .readOutput
        return (b.image, b.metadata))
    (perform b .cleanup)

/-- The inner `try` statement of the two render functions. -/
def requestingRestart (run : M α) : M α :=
  tryCatch run fun e => do
    if e.kind = .runtimeError ∧ b.supervisor.isSome ∧ isCorrupt e.text then record .requestRestart
    throw e

/-- What the two render functions share. -/
def render (task : Dict) (stage message : String) (run : M α) : M α := do
  memoryGate b
  supervised b markBusy
  tryFinally
    (do
      supervised b do
        update b task "starting_comfyui" "Making sure ComfyUI is running"
        ensureRunning b
      update b task stage message
      requestingRestart b run)
    (supervised b markIdle)

/-- `_render_real`. The command takes the values of the payload that only have to be there. -/
def renderReal (task payload : Dict) (heroPath : Bool) : M Image :=
  render b task "rendering" "Character Forge and ComfyUI are generating the image" do
    let _ ← item payload "character_id"
    let _ ← item payload "task"
    runReal b (profileOf payload) heroPath (heroPath && hasValue payload "character_card")

/-- `_render_hero_candidate_real`. -/
def renderHeroCandidateReal (task payload : Dict) : M (Image × Json) :=
  render b task "generating_hero" "Character Forge is generating a hero candidate" do
    let _ ← item payload "character_card"
    let _ ← item payload "seed"
    runHeroCandidate b (profileOf payload)

end Methods

/-- What `main` passes on to `report_failure`, which takes the `str` of it. -/
def reported {α : Type} : Except Raised α → Option String
  | .ok _ => none
  | .error e => if e.kind = .baseException then none else some e.text

/-- The answer of the last measurement. -/
def Call.short : Call → Option Bool
  | .memoryShortfall short => some short
  | _ => none

/-- A call of which the life cycle says nothing. -/
def Call.neutral : Call → Bool
  | .launch | .stop | .requestRestart => false
  | .exited code => code ≠ 3
  | _ => true

def lastMeasured (calls : List Call) : Option Bool := (calls.filterMap Call.short).getLast?

/-- A render from a state of the supervisor to what is left of it. -/
def renderFrom {α : Type} (busy : Bool) (m : M α) : Except Raised α × Render :=
  runFrom m { busy, calls := [] }

/-- forge2 is launched on measured memory and a ComfyUI that is there, only a managed ComfyUI
is stopped, no flag stays up, and a blank render is told as one and answered by a request for a
restart. -/
structure Lifecycle {Image α : Type} (b : Behaviour Image) (busy : Bool)
    (r : Except Raised α × Render) : Prop where
  launches : ∀ before after, r.2.calls = before ++ .launch :: after →
    lastMeasured before = some false ∧
      (b.supervisor.isSome → .ensureRunning true ∈ before)
  stops : ∀ before after, r.2.calls = before ++ .stop :: after →
    b.supervisor = some true ∧ lastMeasured before = some true
  idle : busy = false → r.2.busy = false
  restarts : .requestRestart ∈ r.2.calls ↔ b.supervisor.isSome ∧ .exited 3 ∈ r.2.calls
  reports : (∃ text, reported r.1 = some text ∧ isCorrupt text) ↔ .exited 3 ∈ r.2.calls

section Conditions
variable {Image : Type} (b : Behaviour Image)

/-- No exception of the machine has a text that starts like that of a blank render. -/
def Behaviour.Plain : Prop := ∀ op e, b.fails op = some e → isCorrupt e.text = false

def works (op : Operation) : Bool := (b.fails op).isNone

/-- The second measurement takes place. -/
def frees : Bool := works b .log && works b .stop && works b (.memoryShortfall true)

/-- The memory gate lets the render pass. -/
def admits : Bool :=
  works b (.memoryShortfall false) && ((b.shortfall false).isNone ||
    b.supervisor = some true && frees b && (b.shortfall true).isNone)

def updates (task : Dict) : Bool :=
  !b.heartbeat || task.isEmpty || has task "id" && has task "claim_token"

/-- ComfyUI is there, and the heartbeat has been told. -/
def prepares (task : Dict) : Bool :=
  updates b task && (b.supervisor.isNone || works b .ensureRunning)

def makesDirectory : Bool := works b .temporaryDirectory && works b .writeCard

/-- `_render_real` comes to `_run_forge2`. -/
def realReady (payload : Dict) (heroPath : Bool) : Bool :=
  has payload "character_id" && has payload "task" && supported (profileOf payload) &&
    (!heroPath || hasValue payload "character_card" && makesDirectory b)

/-- `_render_hero_candidate_real` comes to `_run_forge2`. -/
def heroReady (payload : Dict) : Bool :=
  has payload "character_card" && has payload "seed" && supported (profileOf payload) &&
    makesDirectory b

/-- forge2, once it is launched, exits with the code of a blank render. -/
def exitsCorrupt : Bool :=
  works b .popen && works b .startReader && works b .wait &&
    b.exitCode = FORGE2_CORRUPT_EXIT_CODE

/-- `_render_real` comes to a blank render. -/
def realBlank (task payload : Dict) (heroPath : Bool) : Bool :=
  admits b && prepares b task && realReady b payload heroPath && exitsCorrupt b

/-- `_render_hero_candidate_real` comes to one. -/
def heroBlank (task payload : Dict) : Bool :=
  admits b && prepares b task && heroReady b payload && exitsCorrupt b

end Conditions

end TaskQueue.Renders
