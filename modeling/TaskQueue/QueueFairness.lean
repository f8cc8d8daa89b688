import TaskQueue.LeaseRefinement
import TaskQueue.StorableValues

/-!
# Who is served before a task that waits

`claim_next` takes the oldest row. While a task waits, each claim that may take its type is
handed another task which is no younger, so only those that were ahead of it, and those whose
lease lapses meanwhile, come before it. Requests are served one at a time: of claims at the
same time the later one may skip a locked row and be handed a younger one. A claim whose lease
or whose texts do not fit the columns is handed nothing.
-/

namespace TaskQueue.QueueFairness
open KeyedTables TaskService WorkerService ClaimNext StepRuns LeaseRefinement StorableValues
open SerialRequests hiding step step_inv

variable {Json : Type}

/-- The task is in the queue, with what its submission has stored. -/
def Waits (id : TaskId) (taskType : String) (since : Time) (s : Served Json) : Prop :=
  ∃ task, s.db.tasks.get id = some task ∧ task.status = .queued ∧ task.taskType = taskType ∧
    task.createdAt = since

/-- The request is a claim with a positive lease that may take tasks of the type. -/
def covers (taskType : String) : Request Json → Bool
  | .claimNext _ taskTypes _ leaseMinutes =>
    taskTypes.contains taskType && !leaseMinutes.any (· ≤ 0)
  | _ => false

/-- The ids of the tasks that stand before the task in the queue. -/
def aheadIds (id : TaskId) (since : Time) (tasks : TaskTable Json) : List TaskId :=
  (tasks.rows.filter fun task =>
    task.id ≠ id && task.status = .queued && task.createdAt ≤ since).map Task.id

/-- The ids of the tasks no younger that the request puts into the queue: one submitted at the
same time, or those whose lease has lapsed. -/
def enteringIds (since : Time) (s : Served Json) (r : Timed Json) : List TaskId :=
  match r.request with
  | .submitTask id .. => if r.later ≤ since then [id] else []
  | .claimNext _ taskTypes _ _ =>
    (s.db.tasks.rows.filter fun task =>
      leaseLapsed taskTypes r.now task && task.createdAt ≤ since).map Task.id
  | _ => []

section Lists
variable {id : TaskId} {since : Time} {tasks : TaskTable Json}

theorem mem_aheadIds {x : TaskId} :
    x ∈ aheadIds id since tasks ↔ x ≠ id ∧ ∃ task, tasks.get x = some task ∧
      task.status = .queued ∧ task.createdAt ≤ since := by
  simp only [aheadIds, List.mem_map, List.mem_filter, Bool.and_eq_true, decide_eq_true_eq]
  constructor
  · rintro ⟨task, ⟨hmem, ⟨hne, hq⟩, hle⟩, rfl⟩
    exact ⟨hne, task, Table.get_of_mem hmem, hq, hle⟩
  · rintro ⟨hne, task, hg, hq, hle⟩
    have hid := Table.key_of_get hg
    exact ⟨task, ⟨Table.mem_of_get hg, ⟨by rwa [hid], hq⟩, hle⟩, hid⟩

theorem nodup_aheadIds : (aheadIds id since tasks).Nodup :=
  tasks.nodup.sublist (List.filter_sublist.map Task.id)

theorem mem_enteringIds {s : Served Json} {r : Timed Json} {x : TaskId} {claimToken : String}
    {taskTypes : List String} {workerId : String} {leaseMinutes : Option Int} {task : Task Json}
    (hr : r.request = .claimNext claimToken taskTypes workerId leaseMinutes)
    (hg : s.db.tasks.get x = some task) (hexpired : Expired taskTypes r.now task)
    (hle : task.createdAt ≤ since) : x ∈ enteringIds since s r := by
  simp only [enteringIds, hr, List.mem_map, List.mem_filter, Bool.and_eq_true, decide_eq_true_eq]
  exact ⟨task, ⟨Table.mem_of_get hg, leaseLapsed_eq_true_iff.2 hexpired, hle⟩,
    Table.key_of_get hg⟩

end Lists

section Steps
variable [EmptyCollection Json] {cfg : Settings} {id : TaskId} {taskType : String} {since : Time}
  {s : Served Json} {r : Timed Json}

/-- Whoever stands before the task after a request stood there already or has entered. -/
theorem ahead_of_ahead {x : TaskId}
    (h : x ∈ aheadIds id since (handle cfg s.db r).1.tasks) :
    x ∈ aheadIds id since s.db.tasks ++ enteringIds since s r := by
  obtain ⟨hne, task', hg', hq', hle⟩ := mem_aheadIds.1 h
  rw [List.mem_append]
  cases hg : s.db.tasks.get x with
  | none =>
    rcases handle_absent cfg r hg with
      ⟨-, hnone⟩ | ⟨type, payload, lease, retention, task, hr, hrow, -, hsome⟩
    · cases hnone.symm.trans hg'
    · cases hsome.symm.trans hg'
      right
      have hcreated : task'.createdAt = r.later := by
        dsimp only [queuedRow] at hrow
        split_ifs at hrow
        cases hrow
        rfl
      simp only [enteringIds, hr]
      rw [if_pos (hcreated ▸ hle)]
      exact List.mem_singleton_self x
  | some task =>
    have hmove := handle_move cfg r hg
    rw [hg'] at hmove
    generalize eventsOf cfg x s.db r = es at hmove
    cases hmove with
    | stay => exact .inl (mem_aheadIds.2 ⟨hne, _, hg, hq', hle⟩)
    | sweep request expired => exact .inr (mem_enteringIds request hg expired hle)
    | claim => cases hq'
    | reclaim => cases hq'
    | @settle claimToken outcome => cases outcome <;> cases hq'
    | renew request named claimed => cases claimed.symm.trans hq'

variable (cfg) in
/-- A claim that may take the type of a waiting task is handed a task no younger. -/
theorem handed_of_covers (hwaits : Waits id taskType since s)
    (hcovers : covers taskType r.request = true) :
    ∃ row, (handle cfg s.db r).2 = .claimed (some row) ∧ row.createdAt ≤ since ∧
      (handle cfg s.db r).1.tasks.get row.id = some row ∧ row.status = .claimed ∧
      (row.id ≠ id → row.id ∈ aheadIds id since s.db.tasks ++ enteringIds since s r) := by
  obtain ⟨task, hg, hq, rfl, rfl⟩ := hwaits
  obtain ⟨now, later, request⟩ := r
  cases request with
  | claimNext claimToken taskTypes workerId leaseMinutes =>
    simp only [covers, Bool.and_eq_true, Bool.not_eq_true', List.contains_iff_mem] at hcovers
    have hlease : ∀ n, leaseMinutes = some n → 0 < n := by
      rintro n rfl
      simpa using hcovers.2
    have havailable : Available taskTypes now task := .inl ⟨hq, hcovers.1⟩
    cases hcandidate : candidate taskTypes (reclaim taskTypes now s.db.tasks) with
    | none =>
      exact absurd havailable (candidate_eq_none_iff.1 hcandidate task (Table.mem_of_get hg))
    | some picked =>
      have heq : claimNext now claimToken s.db.tasks taskTypes workerId leaseMinutes = _ :=
        claimNext_of_some hlease hcandidate
      have hc : Handed s.db.tasks _ taskTypes now workerId claimToken leaseMinutes
          (claimRow workerId claimToken now leaseMinutes picked) := handed_of_candidate hcandidate
      obtain ⟨old, hold, hav, holdest, -⟩ := hc.oldest
      obtain ⟨stored, hstored, hcolumns⟩ := (claimNext_sameTask heq _).2 old hold
      cases hc.stored.symm.trans hstored
      have hle : old.createdAt ≤ task.createdAt :=
        holdest task (Table.mem_of_get hg) havailable
      simp only [handle, heq]
      refine ⟨_, rfl, hcolumns.createdAt.trans_le hle, hc.stored, hc.status, fun hne => ?_⟩
      rw [List.mem_append]
      rcases hav with ⟨hqueued, -⟩ | hexpired
      · exact .inl (mem_aheadIds.2 ⟨hne, old, hold, hqueued, hle⟩)
      · exact .inr (mem_enteringIds rfl hold hexpired hle)
  | _ => cases hcovers

variable (cfg) in
/-- Each claim that may take the type serves one of those that stand before the task. -/
theorem handle_spends (hs : Waits id taskType since s)
    (ht : Waits id taskType since ⟨(handle cfg s.db r).1, r.later⟩) :
    (if covers taskType r.request then 1 else 0) +
        (aheadIds id since (handle cfg s.db r).1.tasks).length ≤
      (aheadIds id since s.db.tasks).length + (enteringIds since s r).length := by
  rw [← List.length_append]
  by_cases hcovers : covers taskType r.request = true
  · obtain ⟨row, -, -, hstored, hclaimed, hahead⟩ := handed_of_covers cfg hs hcovers
    obtain ⟨task, hg, hq, -, -⟩ := ht
    have hne : row.id ≠ id := by
      intro hid
      rw [hid] at hstored
      cases hstored.symm.trans hg
      cases hclaimed.symm.trans hq
    have hnot : row.id ∉ aheadIds id since (handle cfg s.db r).1.tasks := by
      intro hmem
      obtain ⟨-, other, hother, hqueued, -⟩ := mem_aheadIds.1 hmem
      cases hstored.symm.trans hother
      cases hclaimed.symm.trans hqueued
    have hsub : row.id :: aheadIds id since (handle cfg s.db r).1.tasks ⊆
        aheadIds id since s.db.tasks ++ enteringIds since s r := by
      intro x hx
      rcases List.mem_cons.1 hx with rfl | hx
      · exact hahead hne
      · exact ahead_of_ahead hx
    have hle := (List.subperm_of_subset (List.nodup_cons.2 ⟨hnot, nodup_aheadIds⟩) hsub).length_le
    rw [List.length_cons] at hle
    rw [if_pos hcovers]
    omega
  · have hle := (List.subperm_of_subset nodup_aheadIds
      fun x (hx : x ∈ aheadIds id since (handle cfg s.db r).1.tasks) =>
        ahead_of_ahead hx).length_le
    rw [if_neg hcovers]
    omega

/-- A claim in the events of a request is its answer. -/
theorem claimed_of_event {claimToken : String} {taskTypes : List String} {workerId : String}
    {leaseMinutes : Option Int} {task : Task Json}
    (hr : r.request = .claimNext claimToken taskTypes workerId leaseMinutes)
    (h : LeaseRefinement.claimEvent task ∈ eventsOf cfg id s.db r) :
    ∃ row, (handle cfg s.db r).2 = .claimed (some row) ∧ row.id = id := by
  simp only [eventsOf, hr] at h
  split at h
  next row hrow =>
    rcases List.mem_append.1 h with h | h
    · unfold sweepEvents at h
      split at h
      · split at h
        · cases List.mem_singleton.1 h
        · cases h
      · cases h
    · cases row with
      | none => cases h
      | some row =>
        simp only [claimEvents] at h
        split at h
        next hid => exact ⟨row, hrow, hid⟩
        next => cases h
  next => cases h

variable (cfg) in
/-- A task stops waiting because it is handed out or because the clean-up job deletes it. -/
theorem waits_or_leaves (r : Timed Json) (hs : Waits id taskType since s) :
    Waits id taskType since ⟨(handle cfg s.db r).1, r.later⟩ ∨
      (∃ row, (handle cfg s.db r).2 = .claimed (some row) ∧ row.id = id) ∨
      r.request = .cleanupTasks := by
  obtain ⟨task, hg, hq, htype, hsince⟩ := hs
  have hmove := handle_move cfg r hg
  generalize hes : eventsOf cfg id s.db r = es at hmove
  generalize hout : (handle cfg s.db r).1.tasks.get id = out at hmove
  cases hmove with
  | stay => exact .inl ⟨task, hout, hq, htype, hsince⟩
  | sweep request expired => cases expired.1.symm.trans hq
  | claim request =>
    exact .inr (.inl (claimed_of_event request (hes ▸ List.mem_singleton_self _)))
  | reclaim request expired => cases expired.1.symm.trans hq
  | settle request claimed => cases claimed.symm.trans hq
  | renew request named claimed => cases claimed.symm.trans hq
  | delete request => exact .inr (.inr request)

end Steps

section Runs
variable [EmptyCollection Json] (cfg : Settings) (eager : Bool) (jsonb : Json → Bool)

/-- The request is a claim that may take tasks of the type, and is carried out. -/
def takes (taskType : String) (s : Served Json) (r : Timed Json) : ℕ :=
  if covers taskType r.request && accepted (answer cfg eager jsonb s.db r) then 1 else 0

/-- How many tasks the request puts before one that waits since then. -/
def entering (since : Time) (s : Served Json) (r : Timed Json) : ℕ :=
  if accepted (answer cfg eager jsonb s.db r) then (enteringIds since s r).length else 0

/-- The claim is handed a task that is no younger. -/
def HandedOlder (since : Time) (s : Served Json) (r : Timed Json) : Prop :=
  ∃ db row, answer cfg eager jsonb s.db r = .ok (db, .claimed (some row)) ∧ row.createdAt ≤ since

/-- The turn of a task that waits: every claim that may take its type, with a lease and texts
that fit, is handed a task no younger, and there are no more of them than tasks stand before
it or enter. -/
structure InTurn (id : TaskId) (taskType : String) (since : Time) (s t : Served Json)
    (rs : List (Timed Json)) : Prop where
  handed : Along (step cfg eager jsonb) (fun m r => covers taskType r.request = true →
    MachineNumbers.Fits cfg eager m r → storable jsonb r.request = true →
      HandedOlder cfg eager jsonb since m r) s rs
  bound : tally (step cfg eager jsonb) (takes cfg eager jsonb taskType) s rs +
      (aheadIds id since t.db.tasks).length ≤
    (aheadIds id since s.db.tasks).length +
      tally (step cfg eager jsonb) (entering cfg eager jsonb since) s rs

variable {cfg eager jsonb} {id : TaskId} {taskType : String} {since : Time} {s t : Served Json}
  {r : Timed Json}

/-- A claim that fits is answered, as in unbounded numbers. -/
theorem handedOlder_of_fits (hwaits : Waits id taskType since s)
    (hcovers : covers taskType r.request = true) (hfits : MachineNumbers.Fits cfg eager s r)
    (hstorable : storable jsonb r.request = true) : HandedOlder cfg eager jsonb since s r := by
  obtain ⟨row, hrow, hle, -⟩ := handed_of_covers cfg hwaits hcovers
  have haccepted : accepted (answer cfg eager jsonb s.db r) = true :=
    (accepted_iff (by rw [hrow]; rfl)).2 ⟨hfits, hstorable⟩
  rcases answer_cases cfg eager jsonb s.db r with ⟨hok, -⟩ | ⟨⟨fault, herror⟩, -⟩
  · exact ⟨_, row, by rw [hok, ← hrow], hle⟩
  · rw [herror] at haccepted
    cases haccepted

theorem step_spends (hstep : step cfg eager jsonb s r = some t) (hs : Waits id taskType since s)
    (ht : Waits id taskType since t) :
    takes cfg eager jsonb taskType s r + (aheadIds id since t.db.tasks).length ≤
      (aheadIds id since s.db.tasks).length + entering cfg eager jsonb since s r := by
  obtain ⟨-, -, rfl⟩ := step_inv hstep
  rcases answer_cases cfg eager jsonb s.db r with ⟨hok, htables⟩ | ⟨⟨fault, herror⟩, htables⟩
  · rw [htables] at ht ⊢
    have hspends := handle_spends cfg hs ht
    cases haccepted : accepted (answer cfg eager jsonb s.db r) with
    | true =>
      rw [takes, entering, haccepted, Bool.and_true, if_pos rfl]
      exact hspends
    | false =>
      -- A refused request leaves the rows as they were.
      have hsame : (handle cfg s.db r).1 = s.db := by
        rw [hok, accepted] at haccepted
        exact handle_rejected (by simpa using haccepted)
      rw [takes, entering, haccepted, Bool.and_false, hsame]
      simp
  · rw [takes, entering, herror, htables]
    simp [accepted]

/-- A task waits for its turn only: the run goes on in that way until the task is handed out or
is deleted by the clean-up job. -/
theorem waits_in_turn (cfg : Settings) (eager : Bool) (jsonb : Json → Bool)
    {rs : List (Timed Json)} (hs : Waits id taskType since s)
    (hrun : exec (step cfg eager jsonb) s rs = some t) :
    ∃ pre post m, rs = pre ++ post ∧ exec (step cfg eager jsonb) s pre = some m ∧
      InTurn cfg eager jsonb id taskType since s m pre ∧ Waits id taskType since m ∧
      ∀ r rest, post = r :: rest →
        (∃ db row, answer cfg eager jsonb m.db r = .ok (db, .claimed (some row)) ∧ row.id = id) ∨
        r.request = .cleanupTasks := by
  obtain ⟨pre, post, m, rfl, hpre, hall, hend⟩ := exists_longest hs hrun
  have hm := hall.at_end hpre
  refine ⟨pre, post, m, rfl, hpre, ⟨?_, ?_⟩, hm, ?_⟩
  · exact hall.along fun n r hn hcovers hfits hstorable =>
      handedOlder_of_fits hn hcovers hfits hstorable
  · exact tally_le_of_potential (fun n r u hn hu hstep => step_spends hstep hn hu) hall hpre
  · intro r rest hpost
    obtain ⟨n, hstep, hn⟩ := hend r rest hpost
    obtain ⟨-, -, rfl⟩ := step_inv hstep
    rcases answer_cases cfg eager jsonb m.db r with ⟨hok, htables⟩ | ⟨-, htables⟩
    · rw [htables] at hn
      rcases waits_or_leaves cfg r hm with hwaits | ⟨row, hrow, hid⟩ | hr
      · exact absurd hwaits hn
      · exact .inl ⟨_, row, by rw [hok, ← hrow], hid⟩
      · exact .inr hr
    · rw [htables] at hn
      exact absurd hm hn

/-- Two workers ask while the task "b" waits behind the task "a". -/
def twoClaims : List (Timed (List ℕ)) :=
  [⟨4, 4, .claimNext "token-1" ["image_generation"] "worker-1" (some 1)⟩,
    ⟨5, 5, .claimNext "token-2" ["image_generation"] "worker-2" none⟩]

/-- The tasks "a" and "b" have been submitted. -/
def twoTasks : Served (List ℕ) :=
  let first := (handle {} emptyDb ⟨0, 1, .submitTask "a" "image_generation" [] none none⟩).1
  ⟨(handle {} first ⟨2, 3, .submitTask "b" "image_generation" [] none none⟩).1, 3⟩

theorem waits_in_turn_twoClaims :
    ∃ t, exec (step {} true fun _ => true) twoTasks twoClaims = some t ∧
    ∃ pre post m, twoClaims = pre ++ post ∧
      exec (step {} true fun _ => true) twoTasks pre = some m ∧
      InTurn {} true (fun _ => true) "b" "image_generation" 3 twoTasks m pre ∧
      Waits "b" "image_generation" 3 m ∧
      ∀ r rest, post = r :: rest →
        (∃ db row, answer {} true (fun _ => true) m.db r = .ok (db, .claimed (some row)) ∧
          row.id = "b") ∨
        r.request = .cleanupTasks :=
  ⟨_, rfl, waits_in_turn {} true (fun _ => true) ⟨_, rfl, rfl, rfl, rfl⟩ rfl⟩

end Runs
end TaskQueue.QueueFairness
