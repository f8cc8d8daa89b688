import Mathlib.Data.List.Basic

/-!
# The Ollama manager

The functions of `workers/ollama.py`, cut at their HTTP requests: what a reply turns
into, what is sent next, and what the manager remembers. Below them an Ollama that
other clients use too, at the granularity of one request.
-/

namespace TaskQueue.OllamaManager

variable {Json : Type}

/-- `_norm`. -/
def norm (name : String) : String :=
  if name.toList.contains ':' then name else name ++ ":latest"

structure PsEntry where
  name : Option String
  model : Option String

/-- The answers of `/api/ps`. `failed` is a transport error, an error status or a body
that is no JSON object; `malformed` an object whose `models` cannot be walked. -/
inductive PsReply
  | failed
  | malformed
  | models (entries : List PsEntry)

/-- The exceptions of `chat`. `rejected` and `unreachable` are its `text_unavailable`
errors, the others leave it as they come. -/
inductive ChatError
  | missingMessages
  | malformedPs
  | garbledReply
  | rejected (model : String) (status : ℕ)
  | unreachable (error : String)
  deriving DecidableEq

/-- The names of an entry that `_loaded_models` takes into its set. -/
def PsEntry.names (e : PsEntry) : List String :=
  ([e.name, e.model].filterMap id).filter (· ≠ "")

/-- `_loaded_models`; `none` if the loaded models can't be known. -/
def loadedModels : PsReply → Except ChatError (Option (List String))
  | .failed => .ok none
  | .malformed => .error .malformedPs
  | .models entries => .ok (some (entries.flatMap fun e => e.names.map norm))

structure Config where
  defaultModel : String
  idleSeconds : Int

/-- The payload of a text task. -/
structure Payload (Json : Type) where
  model : Option String
  messages : Option Json
  reasoning : Bool
  temperature : Option Json
  responseFormat : Option String

/-- The body of `/api/chat`; without a temperature it says 0.7. -/
structure ChatBody (Json : Type) where
  model : String
  messages : Json
  think : Bool
  temperature : Option Json
  formatJson : Bool

inductive ChatReply
  | answered (content : String) (model : Option String)
  | garbled
  | rejected (status : ℕ)
  | unreachable (error : String)

structure ChatResult where
  content : String
  provider : String
  model : String
  deriving DecidableEq

/-- What the manager remembers: the model it takes for its own, and its last use. -/
structure Manager where
  owned : Option String
  lastUsed : Int

/-- The model of a request: the payload's, unless that is missing or empty. -/
def chatModel (cfg : Config) (payload : Payload Json) : String :=
  match payload.model with
  | none => cfg.defaultModel
  | some model => if model = "" then cfg.defaultModel else model

def chatBody (cfg : Config) (payload : Payload Json) : Except ChatError (ChatBody Json) :=
  match payload.messages with
  | none => .error .missingMessages
  | some messages => .ok {
      model := chatModel cfg payload
      messages := messages
      think := payload.reasoning
      temperature := payload.temperature
      formatJson := payload.responseFormat = some "json" }

/-- Ollama positively showed the model not loaded. -/
def ours (loaded : Option (List String)) (model : String) : Bool :=
  match loaded with
  | none => false
  | some names => !names.contains (norm model)

/-- `chat` between its two requests. -/
structure Chatting where
  model : String
  ours : Bool

/-- `chat` up to its second request: the body it sends and what it will record. -/
def beginChat (cfg : Config) (payload : Payload Json) (reply : PsReply) :
    Except ChatError (ChatBody Json × Chatting) := do
  let body ← chatBody cfg payload
  let loaded ← loadedModels reply
  return (body, ⟨body.model, ours loaded body.model⟩)

/-- The `finally` block of `chat`. It runs whatever the second request came to. -/
def finishChat (c : Chatting) (now : Int) (m : Manager) : Manager where
  owned := if c.ours then some c.model else m.owned
  lastUsed := now

def chatResult (c : Chatting) : ChatReply → Except ChatError ChatResult
  | .answered content model => .ok ⟨content, "ollama", model.getD c.model⟩
  | .garbled => .error .garbledReply
  | .rejected status => .error (.rejected c.model status)
  | .unreachable error => .error (.unreachable error)

/-- `unload` up to its request: the model it asks Ollama to drop, if any. Ownership is
given up before the request is known to have worked. -/
def unload (m : Manager) : Manager × Option String := ({ m with owned := none }, m.owned)

/-- The answers to the unload request; its status is not looked at. -/
inductive UnloadReply
  | answered (status : ℕ)
  | failed (error : String)

/-- What `unload` returns. -/
def unloadResult (requested : Option String) (reply : UnloadReply) : Bool :=
  match requested, reply with
  | some _, .answered _ => true
  | _, _ => false

/-- `maybe_unload_idle` finds an owned model that has been idle for long enough. -/
def idle (cfg : Config) (now : Int) (m : Manager) : Bool :=
  m.owned.isSome && !decide (now - m.lastUsed < cfg.idleSeconds)

def maybeUnloadIdle (cfg : Config) (now : Int) (m : Manager) : Manager × Option String :=
  if idle cfg now m then unload m else (m, none)

/-- The answer of `/api/ps` lists what is loaded, and the model is not in the list. -/
def showsAbsent (model : String) : PsReply → Bool
  | .failed => false
  | .malformed => false
  | .models entries => entries.all fun e => e.names.all fun n => norm n ≠ norm model

/-- A model in Ollama's memory: whether a chat of the manager loaded it, and whether
`/api/ps` had shown it not loaded just before that chat. -/
structure Load where
  byManager : Bool
  shownAbsent : Bool
  deriving DecidableEq

/-- The memory is indexed by the names Ollama lists. `shown` is what `/api/ps` answered to the
last chat. -/
structure System where
  manager : Manager
  now : Int
  memory : String → Option Load
  chatting : Option Chatting
  shown : PsReply

/-- `chatPs` and `chatPost` are the two requests of a chat. Ollama may load the model of
a chat or not, whatever it answers, and may evict others for it; it may drop a model at
an unload request or not, and any model by itself at any time. -/
inductive Label (Json : Type)
  | chatPs (payload : Payload Json) (reply : PsReply)
  | chatPost (reply : ChatReply) (loads : Bool) (evicts : String → Bool)
  | unload (reply : UnloadReply) (drops : Bool)
  | maybeUnloadIdle (reply : UnloadReply) (drops : Bool)
  | foreignLoad (name : String) (evicts : String → Bool)
  | drop (name : String)
  | tick (seconds : ℕ)

/-- The memory after a load of `name`. A model that is in memory keeps its load. -/
def loadInto (name : String) (load : Load) (evicts : String → Bool)
    (memory : String → Option Load) : String → Option Load := fun n =>
  if n = name then some ((memory n).getD load)
  else if evicts n then none
  else memory n

/-- The memory after a request for `name` that loads nothing. -/
def evict (name : String) (evicts : String → Bool) (memory : String → Option Load) :
    String → Option Load := fun n => if n ≠ name ∧ evicts n then none else memory n

def dropFrom (name : String) (memory : String → Option Load) : String → Option Load :=
  fun n => if n = name then none else memory n

section Step
variable (canon : String → String) (cfg : Config)

/-- The model that the unload request of a step names, if it sends one. -/
def requested (s : System) : Label Json → Option String
  | .unload _ _ => (unload s.manager).2
  | .maybeUnloadIdle _ _ => (maybeUnloadIdle cfg s.now s.manager).2
  | _ => none

/-- Ollama lists a model that is asked for as `name` under `canon name`. -/
def dropRequested (s : System) (name : Option String) (drops : Bool) : String → Option Load :=
  match name with
  | some name => if drops then dropFrom (canon name) s.memory else s.memory
  | none => s.memory

/-- The lock of the manager is held during a chat. -/
def step (s : System) : Label Json → Option System
  | .chatPs payload reply =>
    match s.chatting, beginChat cfg payload reply with
    | none, .ok (_, c) => some { s with chatting := some c, shown := reply }
    | none, .error _ => some s
    | some _, _ => none
  | .chatPost _ loads evicts =>
    match s.chatting with
    | none => none
    | some c => some { s with
        manager := finishChat c s.now s.manager
        memory := if loads then
            loadInto (canon c.model) ⟨true, showsAbsent c.model s.shown⟩ evicts s.memory
          else evict (canon c.model) evicts s.memory
        chatting := none }
  | .unload _ drops =>
    if s.chatting.isSome then none
    else some { s with
      manager := (unload s.manager).1
      memory := dropRequested canon s (unload s.manager).2 drops }
  | .maybeUnloadIdle _ drops =>
    if s.chatting.isSome then none
    else some { s with
      manager := (maybeUnloadIdle cfg s.now s.manager).1
      memory := dropRequested canon s (maybeUnloadIdle cfg s.now s.manager).2 drops }
  | .foreignLoad name evicts =>
    some { s with memory := loadInto name ⟨false, false⟩ evicts s.memory }
  | .drop name => some { s with memory := dropFrom name s.memory }
  | .tick seconds => some { s with now := s.now + seconds }

end Step

/-- A new manager beside an Ollama in which others have loaded some models. -/
def start (now : Int) (loaded : String → Bool) : System where
  manager := ⟨none, now⟩
  now := now
  memory := fun n => if loaded n then some ⟨false, false⟩ else none
  chatting := none
  shown := .failed

/-- A chat counts its model as ours exactly if the reply it read shows the model absent. -/
theorem beginChat_ours {cfg : Config} {payload : Payload Json} {reply : PsReply}
    {body : ChatBody Json} {c : Chatting} (h : beginChat cfg payload reply = .ok (body, c)) :
    c.model = chatModel cfg payload ∧ c.ours = showsAbsent c.model reply := by
  unfold beginChat chatBody at h
  cases hm : payload.messages with
  | none => simp [hm, bind, Except.bind] at h
  | some messages =>
    cases reply with
    | failed =>
      simp only [hm, loadedModels, bind, Except.bind, pure, Except.pure, Except.ok.injEq,
        Prod.mk.injEq] at h
      obtain ⟨-, rfl⟩ := h
      exact ⟨rfl, rfl⟩
    | malformed => simp [hm, loadedModels, bind, Except.bind] at h
    | models entries =>
      simp only [hm, loadedModels, bind, Except.bind, pure, Except.pure, Except.ok.injEq,
        Prod.mk.injEq] at h
      obtain ⟨-, rfl⟩ := h
      refine ⟨rfl, ?_⟩
      rw [Bool.eq_iff_iff]
      simp [ours, showsAbsent]

end TaskQueue.OllamaManager
