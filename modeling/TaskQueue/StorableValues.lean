import TaskQueue.MachineNumbers

/-!
# Values the database stores

The requests of `MachineNumbers` with the limits of the other columns: a text must not hold
U+0000, and a document must be one that `jsonb` takes. A statement given such a value fails,
and the request breaks off with nothing written, unless its service has refused it before.
-/

namespace TaskQueue.StorableValues
open KeyedTables TaskService WorkerService SerialRequests StepRuns
open MachineNumbers (Fault)

variable {Json : Type}

/-- PostgreSQL has no texts with U+0000. -/
def storableText (s : String) : Bool := !s.toList.contains '\x00'

section Values
variable (jsonb : Json → Bool)

/-- Every text and document that the statements of a request are given can be stored. The
stage and the message of a heartbeat are given to none if it names no task. -/
def storable : Request Json → Bool
  | .submitTask _ taskType payload _ _ => storableText taskType && jsonb payload
  | .claimNext _ taskTypes workerId _ => taskTypes.all storableText && storableText workerId
  | .completeTask _ _ result => jsonb result
  | .failTask _ _ error => storableText error
  | .registerWorker req =>
    storableText req.workerId && storableText req.name && storableText req.sessionId &&
      jsonb req.capabilities && req.version.all storableText && req.ownerUserId.all storableText
  | .heartbeat req =>
    storableText req.workerId && req.details.all jsonb &&
      (req.currentTaskId.isNone ||
        req.progressStage.all storableText && req.progressMessage.all storableText)
  | .cleanupTasks | .cleanupWorkers | .rescan _ => true

end Values

def Response.isRejected : Response Json → Bool
  | .rejected _ => true
  | _ => false

/-- The request was carried out: it was neither refused nor did it break off. -/
def accepted : Except Fault (Db Json × Response Json) → Bool
  | .ok (_, response) => !Response.isRejected response
  | .error _ => false

section Requests
variable [EmptyCollection Json] (cfg : Settings) (eager : Bool) (jsonb : Json → Bool)

/-- A request with the limits of all columns. -/
def answer (db : Db Json) (r : Timed Json) : Except Fault (Db Json × Response Json) :=
  match MachineNumbers.answer cfg eager db r with
  | .ok answered =>
    if Response.isRejected answered.2 || storable jsonb r.request then .ok answered
    else .error .dataError
  | .error fault => .error fault

/-- The tables after a request; one that breaks off leaves them alone. -/
def tablesAfter (db : Db Json) (r : Timed Json) : Db Json :=
  match answer cfg eager jsonb db r with
  | .ok (db, _) => db
  | .error _ => db

/-- One request, provided the clock does not go back. -/
def step (s : Served Json) (r : Timed Json) : Option (Served Json) :=
  if s.clock ≤ r.now ∧ r.now ≤ r.later then
    some ⟨tablesAfter cfg eager jsonb s.db r, r.later⟩
  else none

variable {cfg eager jsonb}

theorem step_inv {s t : Served Json} {r : Timed Json} (h : step cfg eager jsonb s r = some t) :
    s.clock ≤ r.now ∧ r.now ≤ r.later ∧ t = ⟨tablesAfter cfg eager jsonb s.db r, r.later⟩ := by
  unfold step at h
  split_ifs at h with hc
  exact ⟨hc.1, hc.2, (Option.some.inj h).symm⟩

/-- A refused request writes nothing. -/
theorem handle_rejected {db : Db Json} {r : Timed Json}
    (h : Response.isRejected (handle cfg db r).2 = true) : (handle cfg db r).1 = db := by
  obtain ⟨now, later, request⟩ := r
  cases request with
  | cleanupTasks | cleanupWorkers | rescan => cases h
  | _ =>
    simp only [handle] at h ⊢
    split at h
    · cases h
    · rfl

theorem answer_eq_ok_iff {db : Db Json} {r : Timed Json} {answered : Db Json × Response Json} :
    answer cfg eager jsonb db r = .ok answered ↔
      MachineNumbers.answer cfg eager db r = .ok answered ∧
        (Response.isRejected answered.2 || storable jsonb r.request) = true := by
  rw [answer]
  cases MachineNumbers.answer cfg eager db r with
  | error fault => simp
  | ok answered' =>
    dsimp only
    split_ifs with hstorable
    · constructor
      · rintro ⟨⟩
        exact ⟨rfl, hstorable⟩
      · exact And.left
    · refine iff_of_false (fun h => by cases h) ?_
      rintro ⟨⟨⟩, h⟩
      exact hstorable h

variable (cfg eager jsonb) in
/-- A request does what it does in unbounded numbers, or it breaks off and does nothing. -/
theorem answer_cases (db : Db Json) (r : Timed Json) :
    (answer cfg eager jsonb db r = .ok (handle cfg db r) ∧
      tablesAfter cfg eager jsonb db r = (handle cfg db r).1) ∨
    (∃ fault, answer cfg eager jsonb db r = .error fault) ∧
      tablesAfter cfg eager jsonb db r = db := by
  cases hanswer : answer cfg eager jsonb db r with
  | error fault => exact .inr ⟨⟨fault, rfl⟩, by rw [tablesAfter, hanswer]⟩
  | ok answered =>
    obtain rfl := MachineNumbers.answer_ok (answer_eq_ok_iff.1 hanswer).1
    exact .inl ⟨rfl, by rw [tablesAfter, hanswer]⟩

/-- A request that its service does not refuse is carried out exactly if its numbers fit and
its values can be stored. -/
theorem accepted_iff {s : Served Json} {r : Timed Json}
    (hserved : Response.isRejected (handle cfg s.db r).2 = false) :
    accepted (answer cfg eager jsonb s.db r) = true ↔
      MachineNumbers.Fits cfg eager s r ∧ storable jsonb r.request = true := by
  rw [← MachineNumbers.exact_iff_fits, MachineNumbers.Exact, answer]
  cases hn : MachineNumbers.answer cfg eager s.db r with
  | error fault =>
    refine iff_of_false Bool.false_ne_true fun h => ?_
    cases h.1
  | ok answered =>
    obtain rfl := MachineNumbers.answer_ok hn
    dsimp only
    by_cases hstorable : storable jsonb r.request = true
    · rw [hstorable, Bool.or_true, if_pos rfl]
      exact iff_of_true (by rw [accepted, hserved]; rfl) ⟨rfl, rfl⟩
    · rw [hserved, Bool.false_or, if_neg hstorable]
      exact iff_of_false Bool.false_ne_true fun h => hstorable h.2

end Requests
end TaskQueue.StorableValues
