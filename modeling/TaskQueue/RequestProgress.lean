import TaskQueue.ReadCommittedInvariant
import Mathlib.Data.Fintype.EquivFin
import Mathlib.Logic.Equiv.List
import Mathlib.Algebra.Order.BigOperators.Group.Finset

/-!
# Requests in progress come to their end

A sweep keeps the rows it has put back locked while it waits for the next one, so two sweeps
that meet the rows in different orders can wait for each other. If all of them scan in one
order, a sweep waits only for rows behind those it holds, and no interleaving of the requests
in progress gets stuck or goes on forever.

The two `UPDATE`s of a heartbeat and the lock on its worker row are one step here, so that what
two heartbeats of one worker may wait for is not part of the result.
-/

namespace TaskQueue.RequestProgress
open KeyedTables TaskService WorkerService ReadCommittedRequests ReadCommittedSteps
open ReadCommittedInvariant StepRuns

variable {Json : Type}

/-- The steps by which a request in progress goes on. -/
def continues : Label Json → Bool
  | .commitOutcome .. => true
  | .commitRegister _ => true
  | .commitHeartbeat _ => true
  | .sweepRow _ => true
  | .beginSelect .. => true
  | .selectRow _ => true
  | .commitClaim _ => true
  | _ => false

/-- No request is in progress, and no row is locked. -/
structure AtRest (s : System Json) : Prop where
  handlers : ∀ i, s.handlers i = .idle
  rows : ∀ slot ∈ s.tasks.rows, slot.lock = none

/-- The handler may hold the lock on the row, and waits only for rows behind it. -/
def Holds (rank : TaskId → ℕ) (id : TaskId) : Handler Json → Prop
  | .sweeping _ todo => ∀ next ∈ todo, rank id < rank next
  | .selecting .. => True
  | .claimed => True
  | _ => False

/-- The versions of a row have its id. -/
structure Named (slot : Slot Json) : Prop where
  row : slot.row.id = slot.id
  lock : ∀ lock, slot.lock = some lock → lock.row.id = slot.id

/-- Sweeps visit the rows in one order, and hold none that comes after the next. -/
structure Ordered (rank : TaskId → ℕ) (s : System Json) : Prop where
  named : ∀ slot ∈ s.tasks.rows, Named slot
  sorted : ∀ i req todo, s.handlers i = .sweeping req todo →
    todo.Pairwise fun a b => rank a < rank b
  held : ∀ id slot lock, s.tasks.get id = some slot → slot.lock = some lock →
    Holds rank id (s.handlers lock.holder)

/-- How many steps a handler may still take while no row is added. -/
def work (rows : ℕ) : Handler Json → ℕ
  | .idle => 0
  | .settling .. => 1
  | .registering .. => 1
  | .beating .. => 1
  | .sweeping _ todo => todo.length + rows + 3
  | .selecting _ _ todo => todo.length + 2
  | .claimed => 1

section Rows

theorem Named.visible {slot : Slot Json} (h : Named slot) (handler : ℕ) :
    (slot.visible handler).id = slot.id := by
  cases hl : slot.lock with
  | none => simpa [Slot.visible, hl] using h.row
  | some lock =>
    simp only [Slot.visible, hl]
    split
    · exact h.lock lock hl
    · exact h.row

theorem Named.commitUpdate {slot : Slot Json} (h : Named slot) (hl : slot.lock = none)
    {f : Task Json → Task Json} (hf : ∀ task, (f task).id = task.id) (e : RowEvent) :
    Named (slot.commitUpdate f e) where
  row := (hf slot.row).trans h.row
  lock := by
    intro lock hlock
    rw [show (slot.commitUpdate f e).lock = slot.lock from rfl, hl] at hlock
    cases hlock

theorem Named.write {slot : Slot Json} (h : Named slot) (handler : ℕ) {f : Task Json → Task Json}
    (hf : ∀ task, (f task).id = task.id) (e : RowEvent) : Named (slot.write handler f e) := by
  cases hl : slot.lock with
  | none =>
    refine ⟨by simpa [Slot.write, hl] using h.row, fun lock hlock => ?_⟩
    simp only [Slot.write, hl, Option.some.injEq] at hlock ⊢
    subst hlock
    exact (hf slot.row).trans h.row
  | some found =>
    refine ⟨by simpa [Slot.write, hl] using h.row, fun lock hlock => ?_⟩
    simp only [Slot.write, hl, Option.some.injEq] at hlock ⊢
    subst hlock
    exact (hf found.row).trans (h.lock found hl)

theorem Named.publish {slot : Slot Json} (h : Named slot) (handler : ℕ) :
    Named (slot.publish handler) := by
  cases hl : slot.lock with
  | none => simpa [Slot.publish, hl] using h
  | some lock =>
    by_cases hh : lock.holder = handler
    · refine ⟨by simpa [Slot.publish, hl, hh] using h.lock lock hl, fun other hother => ?_⟩
      simp [Slot.publish, hl, hh] at hother
    · simpa [Slot.publish, hl, hh] using h

theorem Named.release {slot : Slot Json} (h : Named slot) (handler : ℕ) :
    Named (slot.release handler) := by
  unfold Slot.release
  split
  · refine ⟨h.row, fun lock hlock => ?_⟩
    cases hlock
  · exact h

/-- A step on a row keeps its name. -/
theorem Named.move [DecidableEq Json] {s t : System Json} {l : Label Json} {slot slot' : Slot Json}
    (h : Named slot) (hm : SlotMove s t l slot slot') : Named slot' := by
  cases hm with
  | stay => exact h
  | settle hh hg hl => exact h.commitUpdate hl (flushTask_id _ _) _
  | renew hh hid hg hl => exact h.commitUpdate hl (flushTask_id _ _) _
  | sweep hf hl => exact h.write _ requeueRow_id _
  | claim hh ht hf hc => exact h.write _ (claimRow_id _ _ _ _) _
  | publish => exact h.publish _
  | release => exact h.release _

end Rows

section Steps
variable [DecidableEq Json] [EmptyCollection Json] {cfg : Settings} {s t : System Json}
  {l : Label Json}

/-- Only a submission adds a row, and none is removed. -/
theorem step_ids (h : step cfg s l = some t) (hl : Label.handler l ≠ none) :
    t.tasks.rows.map Slot.id = s.tasks.rows.map Slot.id := by
  cases l with
  | submitTask => exact absurd rfl hl
  | abort handler =>
    cases h
    exact Table.keys_mapRows _ _ (Slot.release_id handler)
  | _ =>
    simp only [step, loadOutcome, commitOutcome, loadRegister, commitRegister, loadHeartbeat,
      commitHeartbeat, beginSweep, sweepRow, beginSelect, selectRow, commitClaim] at h
    repeat' split at h
    all_goals first
      | (cases h; done)
      | (cases h; rfl)
      | (cases h; simp only [Table.modify, Table.keys_mapRows])

/-- The rows of a step are rows from before it, moved, or the row of a submission. -/
theorem step_rows (h : step cfg s l = some t) {slot' : Slot Json} (hm : slot' ∈ t.tasks.rows) :
    (∃ slot ∈ s.tasks.rows, SlotMove s t l slot slot') ∨ slot'.lock = none ∧ Named slot' := by
  have hg := Table.get_of_mem hm
  cases hs : s.tasks.get slot'.id with
  | some slot =>
    obtain ⟨moved, hmoved, hmove⟩ := step_slot h hs
    cases hmoved.symm.trans hg
    exact .inl ⟨slot, Table.mem_of_get hs, hmove⟩
  | none =>
    have hunlocked := (step_new_slot h hs hg).2.2
    refine .inr ⟨hunlocked, ?_, fun lock hlock => by rw [hunlocked] at hlock; cases hlock⟩
    by_cases hl : Label.handler l = none
    · cases l with
      | submitTask newId taskType payload leaseMinutes retentionHours now createdAt =>
        cases h
        rcases submitStep_tasks s cfg newId taskType payload leaseMinutes retentionHours now
          createdAt with ht | ⟨task, hn, -, ht⟩
        · rw [ht, hs] at hg
          cases hg
        · rw [ht, Table.get_insertNew, hs] at hg
          split_ifs at hg
          cases hg
          rfl
      | _ => cases hl
    · have hkey := Table.isSome_get_iff.1 (Option.isSome_iff_exists.2 ⟨slot', hg⟩)
      rw [step_ids h hl, ← Table.isSome_get_iff, hs] at hkey
      cases hkey

omit [DecidableEq Json] [EmptyCollection Json] in
/-- The rows that a scan visits, in the common order. -/
theorem scanned_sorted {rank : TaskId → ℕ} (hrank : Function.Injective rank)
    (hnamed : ∀ slot ∈ s.tasks.rows, Named slot) (handler : ℕ) (req : ClaimRequest) :
    (lapsedIds req (s.snapshot handler rank)).Pairwise fun a b => rank a < rank b := by
  let scan := s.tasks.rows.insertionSort fun a b => rank a.id ≤ rank b.id
  have hperm : scan.Perm s.tasks.rows := List.perm_insertionSort _ _
  have hle : (scan.map Slot.id).Pairwise fun a b => rank a ≤ rank b := by
    rw [List.pairwise_map]
    have : Std.Total fun a b : Slot Json => rank a.id ≤ rank b.id := ⟨fun a b => le_total _ _⟩
    have : IsTrans (Slot Json) fun a b => rank a.id ≤ rank b.id := ⟨fun a b c => le_trans⟩
    exact List.pairwise_insertionSort _ _
  have hnodup : (scan.map Slot.id).Nodup := (hperm.map Slot.id).nodup_iff.2 s.tasks.nodup
  have hlt : (scan.map Slot.id).Pairwise fun a b => rank a < rank b := by
    refine (hle.and hnodup).imp fun h => ?_
    exact lt_of_le_of_ne h.1 fun heq => h.2 (hrank heq)
  have hvisible : (s.snapshot handler rank).map Task.id = scan.map Slot.id := by
    rw [System.snapshot, List.map_map]
    exact List.map_congr_left fun slot hslot =>
      (hnamed slot (hperm.mem_iff.1 hslot)).visible handler
  rw [← hvisible] at hlt
  exact hlt.sublist (List.filter_sublist.map Task.id)

/-- A step keeps the order if its handler does, and no lock passes to another handler. -/
theorem Ordered.move {rank : TaskId → ℕ} (hs : Ordered rank s) (h : step cfg s l = some t)
    (hsorted : ∀ i, Label.handler l = some i → ∀ req todo, t.handlers i = .sweeping req todo →
      todo.Pairwise fun a b => rank a < rank b)
    (hheld : ∀ id slot lock, t.tasks.get id = some slot → slot.lock = some lock →
      (Label.handler l = some lock.holder → Holds rank id (t.handlers lock.holder)) ∧
        (Label.handler l ≠ some lock.holder → ∃ before found, s.tasks.get id = some before ∧
          before.lock = some found ∧ found.holder = lock.holder)) : Ordered rank t where
  named := by
    intro slot' hm
    rcases step_rows h hm with ⟨slot, hslot, hmove⟩ | ⟨-, hnamed⟩
    · exact (hs.named slot hslot).move hmove
    · exact hnamed
  sorted := by
    intro i req todo hi
    by_cases hl : Label.handler l = some i
    · exact hsorted i hl req todo hi
    · rw [step_handler_of_ne h hl] at hi
      exact hs.sorted i req todo hi
  held := by
    intro id slot lock hg hlock
    obtain ⟨hown, hother⟩ := hheld id slot lock hg hlock
    by_cases hl : Label.handler l = some lock.holder
    · exact hown hl
    · obtain ⟨before, found, hb, hf, heq⟩ := hother hl
      rw [step_handler_of_ne h hl, ← heq]
      exact hs.held id before found hb hf

/-- What a handler holds it goes on to hold, but for the steps that end a claim and those that
visit a row. -/
theorem holds_of_step {rank : TaskId → ℕ} (h : step cfg s l = some t) {i : ℕ}
    (hi : Label.handler l = some i) (hsweep : l ≠ .sweepRow i) (hselect : l ≠ .selectRow i)
    (hcommit : l ≠ .commitClaim i) (habort : l ≠ .abort i) {id : TaskId}
    (hh : Holds rank id (s.handlers i)) : Holds rank id (t.handlers i) := by
  cases l with
  | submitTask => cases hi
  | sweepRow handler => cases hi; exact absurd rfl hsweep
  | selectRow handler => cases hi; exact absurd rfl hselect
  | commitClaim handler => cases hi; exact absurd rfl hcommit
  | abort handler => cases hi; exact absurd rfl habort
  | _ =>
    cases hi
    simp only [step, loadOutcome, commitOutcome, loadRegister, commitRegister, loadHeartbeat,
      commitHeartbeat, beginSweep, beginSelect] at h
    repeat' split at h
    all_goals first
      | (cases h; done)
      | (cases h; exact hh)
      | (cases h; simp_all [Holds, System.setHandler])

/-- Where a sweep stands after a step, the rest of its scan is in order. -/
theorem sorted_of_step {rank : TaskId → ℕ} (hrank : Function.Injective rank)
    (hs : Ordered rank s) (h : step cfg s l = some t)
    (hscan : ∀ handler req r, l = .beginSweep handler req r → r = rank) {i : ℕ}
    (hi : Label.handler l = some i) {req : ClaimRequest} {todo : List TaskId}
    (ht : t.handlers i = .sweeping req todo) : todo.Pairwise fun a b => rank a < rank b := by
  cases l with
  | submitTask => cases hi
  | abort handler =>
    cases hi
    cases h
    simp [abort, System.setHandler] at ht
  | beginSweep handler found r =>
    cases hi
    obtain rfl := hscan _ _ _ rfl
    simp only [step, beginSweep] at h
    split at h
    next hidle =>
      split_ifs at h
      · cases h
        rw [hidle] at ht
        cases ht
      · cases h
        rw [setHandler_self] at ht
        cases ht
        exact scanned_sorted hrank hs.named i _
    next => cases h
  | sweepRow handler =>
    cases hi
    simp only [step, sweepRow] at h
    split at h
    next found id rest hsweeping =>
      have hrest := (List.pairwise_cons.1 (hs.sorted i found _ hsweeping)).2
      have htodo : t.handlers i = .sweeping found rest := by
        repeat' split at h
        all_goals first
          | (cases h; done)
          | (cases h; exact setHandler_self s i _)
      cases htodo.symm.trans ht
      exact hrest
    next => cases h
  | _ =>
    cases hi
    simp only [step, loadOutcome, commitOutcome, loadRegister, commitRegister, loadHeartbeat,
      commitHeartbeat, beginSelect, selectRow, commitClaim] at h
    repeat' split at h
    all_goals first
      | (cases h; done)
      | (cases h; simp_all [System.setHandler])

omit [DecidableEq Json] [EmptyCollection Json] in
theorem publish_lock {slot : Slot Json} {handler : ℕ} {lock : Lock Json}
    (h : (slot.publish handler).lock = some lock) :
    slot.lock = some lock ∧ lock.holder ≠ handler := by
  cases hl : slot.lock with
  | none => simp [Slot.publish, hl] at h
  | some found =>
    by_cases hh : found.holder = handler
    · simp [Slot.publish, hl, hh] at h
    · simp only [Slot.publish, hl, if_neg hh, Option.some.injEq] at h
      subst h
      exact ⟨rfl, hh⟩

omit [DecidableEq Json] [EmptyCollection Json] in
theorem release_lock {slot : Slot Json} {handler : ℕ} {lock : Lock Json}
    (h : (slot.release handler).lock = some lock) :
    slot.lock = some lock ∧ lock.holder ≠ handler := by
  unfold Slot.release at h
  split at h
  next => cases h
  next hfree => exact ⟨h, by simpa [Slot.free, h] using hfree⟩

omit [DecidableEq Json] [EmptyCollection Json] in
theorem write_holder {slot : Slot Json} {handler : ℕ} {f : Task Json → Task Json} {e : RowEvent}
    {lock : Lock Json} (h : (slot.write handler f e).lock = some lock) : lock.holder = handler := by
  unfold Slot.write at h
  split at h <;> cases h <;> rfl

/-- A claim that ends leaves no lock behind. -/
theorem holder_of_end {i : ℕ} (hl : l = .commitClaim i ∨ l = .abort i)
    (h : step cfg s l = some t) {id : TaskId} {slot : Slot Json} {lock : Lock Json}
    (hg : t.tasks.get id = some slot) (hlock : slot.lock = some lock) : lock.holder ≠ i := by
  rcases hl with rfl | rfl
  · simp only [step, commitClaim] at h
    split at h
    next =>
      cases h
      rw [Table.get_mapRows] at hg
      obtain ⟨before, -, rfl⟩ := Option.map_eq_some_iff.1 hg
      exact (publish_lock hlock).2
    next => cases h
  · cases h
    rw [abort, Table.get_mapRows] at hg
    obtain ⟨before, -, rfl⟩ := Option.map_eq_some_iff.1 hg
    exact (release_lock hlock).2

theorem holds_of_select {rank : TaskId → ℕ} {i : ℕ} (h : step cfg s (.selectRow i) = some t)
    (id : TaskId) : Holds rank id (t.handlers i) := by
  simp only [step, selectRow] at h
  repeat' split at h
  all_goals first
    | (cases h; done)
    | (cases h; simp [System.setHandler, Holds])

/-- A lock after a step was there before it, or its handler has just written the row. -/
theorem lock_of_step (h : step cfg s l = some t) {id : TaskId} {slot : Slot Json}
    {lock : Lock Json} (hg : t.tasks.get id = some slot) (hlock : slot.lock = some lock) :
    (∃ before, s.tasks.get id = some before ∧ before.lock = some lock) ∨
      (l = .sweepRow lock.holder ∧ ∃ before, s.tasks.get id = some before ∧
        before.free lock.holder) ∨
      (l = .selectRow lock.holder ∧ t.handlers lock.holder = .claimed) := by
  cases hs : s.tasks.get id with
  | none =>
    rw [(step_new_slot h hs hg).2.2] at hlock
    cases hlock
  | some before =>
    obtain ⟨after, hafter, hmove⟩ := step_slot h hs
    cases hafter.symm.trans hg
    cases hmove with
    | stay => exact .inl ⟨_, rfl, hlock⟩
    | settle hh hg' hl => cases hl.symm.trans hlock
    | renew hh hid hg' hl => cases hl.symm.trans hlock
    | sweep hf hl =>
      obtain rfl := write_holder hlock
      exact .inr (.inl ⟨rfl, _, rfl, hf⟩)
    | claim hh ht hf hc =>
      obtain rfl := write_holder hlock
      exact .inr (.inr ⟨rfl, ht⟩)
    | publish => exact .inl ⟨_, rfl, (publish_lock hlock).1⟩
    | release => exact .inl ⟨_, rfl, (release_lock hlock).1⟩

/-- Where the handler of a sweep stands on the row that it has just visited. -/
theorem holds_of_sweep {rank : TaskId → ℕ} (hs : Ordered rank s) {i : ℕ}
    (h : step cfg s (.sweepRow i) = some t) {id : TaskId} {slot : Slot Json} {lock : Lock Json}
    (hg : t.tasks.get id = some slot) (hlock : slot.lock = some lock) (hholder : lock.holder = i) :
    Holds rank id (t.handlers i) := by
  simp only [step, sweepRow] at h
  split at h
  next req next rest hsweeping =>
    have hsorted := List.pairwise_cons.1 (hs.sorted i req _ hsweeping)
    have hstands : t.handlers i = .sweeping req rest := by
      repeat' split at h
      all_goals first
        | (cases h; done)
        | (cases h; exact setHandler_self s i _)
    rw [hstands]
    -- the row is the one just visited, or the lock was there before
    by_cases hid : id = next
    · exact hid ▸ hsorted.1
    · have hbefore : s.tasks.get id = some slot := by
        repeat' split at h
        all_goals first
          | (cases h; done)
          | (cases h; exact hg)
          | (cases h; rwa [Table.get_modify_of_ne _ _ _ hid] at hg)
      have hheld := hs.held id slot lock hbefore hlock
      rw [hholder, hsweeping] at hheld
      exact fun later hlater => hheld later (List.mem_cons_of_mem next hlater)
  next => cases h

/-- Every step keeps the order of the sweeps. -/
theorem step_ordered {rank : TaskId → ℕ} (hrank : Function.Injective rank) (hs : Ordered rank s)
    (h : step cfg s l = some t)
    (hscan : ∀ handler req r, l = .beginSweep handler req r → r = rank) : Ordered rank t := by
  refine hs.move h (fun i hi req todo ht => sorted_of_step hrank hs h hscan hi ht) ?_
  intro id slot lock hg hlock
  constructor
  · intro hi
    by_cases hsweep : l = .sweepRow lock.holder
    · subst hsweep
      exact holds_of_sweep hs h hg hlock rfl
    rcases lock_of_step h hg hlock with ⟨before, hb, hl⟩ | ⟨hl, -⟩ | ⟨-, hclaimed⟩
    · by_cases hselect : l = .selectRow lock.holder
      · subst hselect
        exact holds_of_select h id
      by_cases hend : l = .commitClaim lock.holder ∨ l = .abort lock.holder
      · exact absurd rfl (holder_of_end hend h hg hlock)
      · exact holds_of_step h hi hsweep hselect (fun he => hend (.inl he))
          (fun he => hend (.inr he)) (hs.held id before lock hb hl)
    · exact absurd hl hsweep
    · rw [hclaimed]
      trivial
  · intro hi
    rcases lock_of_step h hg hlock with ⟨before, hb, hl⟩ | ⟨rfl, -⟩ | ⟨rfl, -⟩
    · exact ⟨before, lock, hb, hl, rfl⟩
    · exact absurd rfl hi
    · exact absurd rfl hi

theorem length_of_continues (h : step cfg s l = some t) (hl : continues l = true) :
    t.tasks.rows.length = s.tasks.rows.length := by
  have hids := step_ids h (by cases l <;> simp_all [continues, Label.handler])
  simpa using congrArg List.length hids

omit [DecidableEq Json] [EmptyCollection Json] in
theorem claimableIds_length (req : ClaimRequest) (handler : ℕ) (rank : TaskId → ℕ) :
    (claimableIds req (s.snapshot handler rank)).length ≤ s.tasks.rows.length := by
  rw [claimableIds, List.length_map, List.length_insertionSort]
  refine (List.length_filter_le _ _).trans ?_
  rw [System.snapshot, List.length_map, List.length_insertionSort]

/-- A handler that goes on has less to do. -/
theorem work_of_continues (h : step cfg s l = some t) (hl : continues l = true) {i : ℕ}
    (hi : Label.handler l = some i) :
    work t.tasks.rows.length (t.handlers i) < work s.tasks.rows.length (s.handlers i) := by
  rw [length_of_continues h hl]
  cases l with
  | beginSelect handler claimToken rank =>
    cases hi
    simp only [step, beginSelect] at h
    split at h
    next req hsweeping =>
      split_ifs at h
      cases h
      have hle := claimableIds_length (s := s) req i rank
      simp only [hsweeping, setHandler_self, work, List.length_nil]
      omega
    next => cases h
  | submitTask => cases hl
  | loadOutcome => cases hl
  | loadRegister => cases hl
  | loadHeartbeat => cases hl
  | beginSweep => cases hl
  | abort => cases hl
  | _ =>
    cases hi
    simp only [step, commitOutcome, commitRegister, commitHeartbeat, sweepRow, selectRow,
      commitClaim] at h
    repeat' split at h
    all_goals first
      | (cases h; done)
      | (cases h; simp_all [work, System.setHandler])

/-- Some request in progress can go on. -/
abbrev GoesOn (cfg : Settings) (s : System Json) : Prop :=
  ∃ l t, continues l = true ∧ step cfg s l = some t

/-- The next row of a sweep can be visited unless another handler holds it. -/
theorem sweep_goesOn {i : ℕ} {req : ClaimRequest} {id : TaskId} {todo : List TaskId}
    (hi : s.handlers i = .sweeping req (id :: todo))
    (hfree : ∀ slot, s.tasks.get id = some slot → slot.free i) : GoesOn cfg s := by
  refine ⟨.sweepRow i, ?_⟩
  simp only [continues, step, sweepRow, hi, true_and]
  cases hg : s.tasks.get id with
  | none => exact ⟨_, rfl⟩
  | some slot =>
    dsimp only
    rw [if_pos (hfree slot hg)]
    split <;> exact ⟨_, rfl⟩

theorem swept_goesOn {i : ℕ} {req : ClaimRequest} (hi : s.handlers i = .sweeping req []) :
    GoesOn cfg s := by
  obtain ⟨token, htoken⟩ := Infinite.exists_notMem_finset s.tokens.toFinset
  rw [List.mem_toFinset] at htoken
  refine ⟨.beginSelect i token fun _ => 0, ?_⟩
  simp only [continues, step, beginSelect, hi, true_and]
  rw [if_neg htoken]
  exact ⟨_, rfl⟩

theorem select_goesOn {i : ℕ} {req : ClaimRequest} {token : String} {todo : List TaskId}
    (hi : s.handlers i = .selecting req token todo) : GoesOn cfg s := by
  refine ⟨.selectRow i, ?_⟩
  cases todo with
  | nil =>
    simp only [continues, step, selectRow, hi, true_and]
    exact ⟨_, rfl⟩
  | cons id todo =>
    simp only [continues, step, selectRow, hi, true_and]
    repeat' split
    all_goals exact ⟨_, rfl⟩

theorem claimed_goesOn {i : ℕ} (hi : s.handlers i = .claimed) : GoesOn cfg s := by
  refine ⟨.commitClaim i, ?_⟩
  simp only [continues, step, commitClaim, hi, true_and]
  exact ⟨_, rfl⟩

/-- Behind a locked row some request goes on: the holder, or the holder of the row that it waits
for, and so on. Each of these rows comes after the one before. -/
theorem goesOn_of_lock {rank : TaskId → ℕ} (hs : Ordered rank s) {bound : ℕ}
    (hbound : ∀ slot ∈ s.tasks.rows, rank slot.id < bound) :
    ∀ n id slot lock, s.tasks.get id = some slot → slot.lock = some lock →
      bound ≤ rank id + n → GoesOn cfg s := by
  intro n
  induction n with
  | zero =>
    intro id slot lock hg _ hle
    have hlt := hbound slot (Table.mem_of_get hg)
    rw [Table.key_of_get hg] at hlt
    omega
  | succ n ih =>
    intro id slot lock hg hlock hle
    have hheld := hs.held id slot lock hg hlock
    cases hi : s.handlers lock.holder with
    | selecting req token todo => exact select_goesOn hi
    | claimed => exact claimed_goesOn hi
    | sweeping req todo =>
      cases todo with
      | nil => exact swept_goesOn hi
      | cons next todo =>
        rw [hi] at hheld
        by_cases hfree : ∀ found, s.tasks.get next = some found → found.free lock.holder
        · exact sweep_goesOn hi hfree
        · simp only [not_forall, exists_prop] at hfree
          obtain ⟨found, hfound, hnot⟩ := hfree
          cases hl : found.lock with
          | none => simp [Slot.free, hl] at hnot
          | some other =>
            have hlt := hheld next List.mem_cons_self
            exact ih next found other hfound hl (by omega)
    | _ =>
      rw [hi] at hheld
      exact hheld.elim

/-- While no row is locked, every request in progress can go on. -/
theorem goesOn_of_unlocked (hinv : Inv s) (hfree : ∀ slot ∈ s.tasks.rows, slot.lock = none)
    {i : ℕ} (hi : s.handlers i ≠ .idle) : GoesOn cfg s := by
  have hunlocked : ∀ id slot, s.tasks.get id = some slot → slot.lock = none :=
    fun id slot hg => hfree slot (Table.mem_of_get hg)
  have hknown := hinv.handlers i
  cases hh : s.handlers i with
  | idle => exact absurd hh hi
  | settling taskId token outcome task seen =>
    rw [hh] at hknown
    obtain ⟨-, slot, hg, -⟩ := hknown
    refine ⟨.commitOutcome i 0, ?_⟩
    simp only [continues, step, commitOutcome, hh, hg, hunlocked taskId slot hg, true_and]
    exact ⟨_, rfl⟩
  | registering req now found =>
    refine ⟨.commitRegister i, ?_⟩
    cases found with
    | some worker =>
      simp only [continues, step, commitRegister, hh, true_and]
      exact ⟨_, rfl⟩
    | none =>
      simp only [continues, step, commitRegister, hh, true_and]
      split <;> exact ⟨_, rfl⟩
  | beating req now worker task seenSessions seen =>
    rw [hh] at hknown
    refine ⟨.commitHeartbeat i, ?_⟩
    cases hid : req.currentTaskId with
    | none =>
      simp only [continues, step, commitHeartbeat, hh, hid, true_and]
      exact ⟨_, rfl⟩
    | some taskId =>
      obtain ⟨slot, hg, -⟩ := hknown.2 taskId hid
      cases task with
      | none =>
        simp only [continues, step, commitHeartbeat, hh, hid, true_and]
        exact ⟨_, rfl⟩
      | some task =>
        simp only [continues, step, commitHeartbeat, hh, hid, hg, hunlocked taskId slot hg,
          true_and]
        exact ⟨_, rfl⟩
  | sweeping req todo =>
    cases todo with
    | nil => exact swept_goesOn hh
    | cons id todo => exact sweep_goesOn hh fun slot hg => by simp [Slot.free, hunlocked id slot hg]
  | selecting req token todo => exact select_goesOn hh
  | claimed => exact claimed_goesOn hh

theorem atRest_or_goesOn {rank : TaskId → ℕ} (hinv : Inv s) (hs : Ordered rank s) :
    AtRest s ∨ GoesOn cfg s := by
  by_cases hfree : ∀ slot ∈ s.tasks.rows, slot.lock = none
  · by_cases hidle : ∀ i, s.handlers i = .idle
    · exact .inl ⟨hidle, hfree⟩
    · obtain ⟨i, hi⟩ := not_forall.1 hidle
      exact .inr (goesOn_of_unlocked hinv hfree hi)
  · simp only [not_forall, exists_prop] at hfree
    obtain ⟨slot, hm, hlock⟩ := hfree
    obtain ⟨lock, hlock⟩ := Option.ne_none_iff_exists'.1 hlock
    let bound := (s.tasks.rows.map fun slot => rank slot.id).sum + 1
    have hbound : ∀ slot ∈ s.tasks.rows, rank slot.id < bound := fun found hfound =>
      Nat.lt_succ_of_le (List.le_sum_of_mem (List.mem_map_of_mem hfound))
    exact .inr (goesOn_of_lock hs hbound bound slot.id slot lock (Table.get_of_mem hm) hlock
      (Nat.le_add_left _ _))

omit [DecidableEq Json] [EmptyCollection Json] in
theorem start_ordered (rank : TaskId → ℕ) : Ordered rank (start : System Json) where
  named := by
    intro slot hm
    cases hm
  sorted := by
    intro i req todo hi
    cases hi
  held := by
    intro id slot lock hg
    cases hg

/-- Only so many handlers have been at work. -/
theorem exists_idle {ls : List (Label Json)} (hrun : exec (step cfg) start ls = some s) :
    ∃ n, ∀ i, n ≤ i → s.handlers i = .idle := by
  refine invariant (I := fun s => ∃ n, ∀ i, n ≤ i → s.handlers i = .idle) ?_ ⟨0, fun _ _ => rfl⟩
    hrun
  intro m l t hm h
  obtain ⟨n, hn⟩ := hm
  cases hi : Label.handler l with
  | none => exact ⟨n, fun i hle => by rw [step_handler_of_ne h (by simp [hi]), hn i hle]⟩
  | some j =>
    refine ⟨max n (j + 1), fun i hle => ?_⟩
    have hne : j ≠ i := by omega
    rw [step_handler_of_ne h (by simp [hi, hne]), hn i (by omega)]

/-- The requests in progress are among the first `n` handlers. -/
structure Draining (rank : TaskId → ℕ) (n : ℕ) (s : System Json) : Prop where
  inv : Inv s
  ordered : Ordered rank s
  idle : ∀ i, n ≤ i → s.handlers i = .idle

/-- How many steps the requests in progress may still take. -/
def totalWork (n : ℕ) (s : System Json) : ℕ :=
  ∑ i ∈ Finset.range n, work s.tasks.rows.length (s.handlers i)

theorem draining_step {rank : TaskId → ℕ} (hrank : Function.Injective rank) {n : ℕ}
    (hs : Draining rank n s) (hl : continues l = true) (h : step cfg s l = some t) :
    Draining rank n t ∧ totalWork n t < totalWork n s := by
  obtain ⟨i, hi⟩ : ∃ i, Label.handler l = some i := by
    cases l <;> first | exact ⟨_, rfl⟩ | cases hl
  have hwork := work_of_continues h hl hi
  have hlt : i < n := by
    by_contra hle
    rw [hs.idle i (by omega)] at hwork
    simp [work] at hwork
  have hother : ∀ j, j ≠ i → t.handlers j = s.handlers j := fun j hj =>
    step_handler_of_ne h (by simp [hi, Ne.symm hj])
  refine ⟨⟨step_inv s l t hs.inv h, step_ordered hrank hs.ordered h ?_, ?_⟩, ?_⟩
  · rintro handler req r rfl
    cases hl
  · intro j hj
    rw [hother j (by omega), hs.idle j hj]
  · refine Finset.sum_lt_sum (fun j _ => ?_) ⟨i, Finset.mem_range.2 hlt, hwork⟩
    by_cases hj : j = i
    · exact hj ▸ hwork.le
    · rw [hother j hj, length_of_continues h hl]

/-- What the requests in progress come to: however they interleave, they go on for a bounded
number of steps, and when none can go on they are all over. -/
structure Progresses (cfg : Settings) (s : System Json) : Prop where
  bounded : ∃ n, ∀ ls t, (∀ l ∈ ls, continues l = true) → exec (step cfg) s ls = some t →
    ls.length ≤ n
  free : ∀ ls t, (∀ l ∈ ls, continues l = true) → exec (step cfg) s ls = some t →
    AtRest t ∨ GoesOn cfg t
  drained : ∃ ls t, (∀ l ∈ ls, continues l = true) ∧ exec (step cfg) s ls = some t ∧ AtRest t

/-- If all sweeps visit the rows in one order, what a run reaches comes to its end. -/
theorem progresses_of_ordered {rank : TaskId → ℕ} (hrank : Function.Injective rank)
    {ls : List (Label Json)} (hrun : exec (step cfg) start ls = some s)
    (hscan : ∀ handler req r, .beginSweep handler req r ∈ ls → r = rank) : Progresses cfg s := by
  obtain ⟨n, hidle⟩ := exists_idle hrun
  have hordered : Ordered rank s := by
    refine invariant_along (I := Ordered rank)
      (P := fun _ l => ∀ handler req r, l = .beginSweep handler req r → r = rank)
      (fun s l t hs hl h => step_ordered hrank hs h hl) ?_ ?_ hrun
    · exact start_ordered rank
    · refine Along.of_forall fun l hl _ => ?_
      rintro handler req r rfl
      exact hscan handler req r hl
  have hs : Draining rank n s := ⟨run_inv hrun, hordered, hidle⟩
  have hkeep : ∀ (s : System Json) (l : Label Json) (t : System Json), Draining rank n s →
      continues l = true → step cfg s l = some t →
        Draining rank n t ∧ totalWork n t < totalWork n s :=
    fun s l t hs hl h => draining_step hrank hs hl h
  have hgo : ∀ s : System Json, Draining rank n s → AtRest s ∨ GoesOn cfg s :=
    fun s hs => atRest_or_goesOn hs.inv hs.ordered
  refine ⟨⟨totalWork n s, fun ls t hls h => ?_⟩, fun ls t hls h => ?_, exists_drained hkeep hgo hs⟩
  · have hle := (length_le_of_decreasing hkeep hs hls h).2
    omega
  · exact hgo t (length_le_of_decreasing hkeep hs hls h).1

end Steps

section Sweeps
variable [DecidableEq Json] [EmptyCollection Json]

/-- Two tasks are claimed, and their leases lapse. -/
def twoLapsed (rank : TaskId → ℕ) : List (Label Json) :=
  let first : ClaimRequest := ⟨["text_generation"], "worker-1", some 1, 10⟩
  let second : ClaimRequest := ⟨["text_generation"], "worker-2", some 1, 20⟩
  [.submitTask "a" "text_generation" ∅ (some 60) (some 48) 0 1,
    .submitTask "b" "text_generation" ∅ (some 60) (some 48) 0 2,
    .beginSweep 0 first rank, .beginSelect 0 "token-1" rank, .selectRow 0, .commitClaim 0,
    .beginSweep 1 second rank, .beginSelect 1 "token-2" rank, .selectRow 1, .commitClaim 1]

/-- Two sweeps for them. The first one has put its first row back. -/
def twoSweeps (rank rank' : TaskId → ℕ) : List (Label Json) :=
  let third : ClaimRequest := ⟨["text_generation"], "worker-1", none, minutes 2⟩
  let fourth : ClaimRequest := ⟨["text_generation"], "worker-2", none, minutes 2 + 1⟩
  twoLapsed rank ++ [.beginSweep 0 third rank, .beginSweep 1 fourth rank', .sweepRow 0]

/-- Sweeps that visit the rows in opposite orders can wait for each other, and then neither of
the two requests ever goes on. -/
theorem opposite_sweeps_deadlock (cfg : Settings) :
    ∃ (ls : List (Label Json)) (s : System Json), exec (step cfg) start ls = some s ∧
      ¬AtRest s ∧ ¬GoesOn cfg s := by
  let rank : TaskId → ℕ := fun id => if id = "b" then 1 else 0
  let rank' : TaskId → ℕ := fun id => if id = "a" then 1 else 0
  refine ⟨twoSweeps rank rank' ++ [.sweepRow 1], _, rfl, ?_, ?_⟩
  · intro hrest
    cases hrest.handlers 0
  · rintro ⟨l, t, hl, h⟩
    cases l with
    | commitOutcome i | commitRegister i | commitHeartbeat i | sweepRow i | beginSelect i
    | selectRow i | commitClaim i => rcases i with _ | _ | i <;> cases h
    | _ => cases hl

/-- If all sweeps visit the rows in one order, concurrent requests never wait for each other
in a circle, and from every state they reach they come to their end. Without this order a run
gets stuck. -/
theorem requests_progress (cfg : Settings) :
    (∀ rank : TaskId → ℕ, Function.Injective rank →
      ∀ (ls : List (Label Json)) (s : System Json), exec (step cfg) start ls = some s →
      (∀ handler req r, .beginSweep handler req r ∈ ls → r = rank) → Progresses cfg s) ∧
    ∃ (ls : List (Label Json)) (s : System Json), exec (step cfg) start ls = some s ∧
      ¬AtRest s ∧ ¬GoesOn cfg s :=
  ⟨fun _ hrank _ _ hrun hscan => progresses_of_ordered hrank hrun hscan,
    opposite_sweeps_deadlock cfg⟩

end Sweeps

section Examples

/-- An order of the ids. -/
def idRank (id : TaskId) : ℕ := Encodable.encode (id.toList.map Char.toNat)

theorem idRank_injective : Function.Injective idRank := by
  intro a b h
  have hcodes := Encodable.encode_injective h
  have hchars := List.map_injective_iff.2 (fun x y hxy => Char.toNat_inj.1 hxy) hcodes
  exact String.toList_inj.1 hchars

/-- The second sweep waits for the first one. -/
theorem requests_progress_twoSweeps :
    ∃ s : System (List ℕ), exec (step {}) start (twoSweeps idRank idRank) = some s ∧
      step {} s (.sweepRow 1) = none ∧ Progresses {} s := by
  refine ⟨_, rfl, rfl, (requests_progress {}).1 idRank idRank_injective
    (twoSweeps idRank idRank) _ rfl ?_⟩
  intro handler req r hr
  simp only [twoSweeps, twoLapsed, List.cons_append, List.nil_append, List.mem_cons, reduceCtorEq,
    Label.beginSweep.injEq, List.not_mem_nil, false_or, or_false] at hr
  rcases hr with ⟨-, -, rfl⟩ | ⟨-, -, rfl⟩ | ⟨-, -, rfl⟩ | ⟨-, -, rfl⟩ <;> rfl

end Examples

end TaskQueue.RequestProgress
