import TaskQueue.ReadCommittedSteps

/-!
# What holds under every interleaving

The history of a row and its uncommitted events lead to the phase its versions show,
claims and sweeps are lawful where they happen, a token claims at most once, and what
a handler checked when it loaded a row was true of the row then.
-/

namespace TaskQueue.ReadCommittedInvariant
open KeyedTables TaskService WorkerService ClaimLifecycle ReadCommittedRequests
open ReadCommittedSteps StepRuns

variable {Json : Type}

/-- The new version of a locked row comes from the committed one by a lawful claim, with
or without the sweep before it. -/
structure LockInv (history : List RowEvent) (lock : Lock Json) : Prop where
  rowPhase : phase lock.row = after .absent (history ++ lock.events)
  nonempty : lock.events ≠ []
  lawful : LawfulFrom Lapsed (after .absent history) lock.events
  claiming : ∀ e ∈ lock.events, e.isClaiming

structure SlotInv (tokens : List String) (slot : Slot Json) : Prop where
  rowPhase : phase slot.row = after .absent slot.history
  lock : ∀ lock, slot.lock = some lock → LockInv slot.history lock
  nodup : (tokensOf slot.events).Nodup
  drawn : ∀ token ∈ tokensOf slot.events, ∃ k ∈ tokens, token = some k

theorem SlotInv.mono {tokens tokens' : List String} {slot : Slot Json}
    (h : SlotInv tokens slot) (hs : tokens ⊆ tokens') : SlotInv tokens' slot := by
  refine ⟨h.rowPhase, h.lock, h.nodup, fun token ht => ?_⟩
  obtain ⟨k, hk, rfl⟩ := h.drawn token ht
  exact ⟨k, hs hk, rfl⟩

section SlotOps
variable {tokens : List String} {slot : Slot Json} {handler : ℕ}

theorem events_of_lock {lock : Lock Json} (h : slot.lock = some lock) :
    slot.events = slot.history ++ lock.events := by
  simp [Slot.events, h]

theorem events_of_unlocked (h : slot.lock = none) : slot.events = slot.history := by
  simp [Slot.events, h]

theorem events_write (f : Task Json → Task Json) (e : RowEvent) :
    (slot.write handler f e).events = slot.events ++ [e] := by
  cases h : slot.lock <;> simp [Slot.write, Slot.events, h]

theorem history_write (f : Task Json → Task Json) (e : RowEvent) :
    (slot.write handler f e).history = slot.history := by
  simp only [Slot.write]
  split <;> rfl

theorem row_write (f : Task Json → Task Json) (e : RowEvent) :
    (slot.write handler f e).row = slot.row := by
  simp only [Slot.write]
  split <;> rfl

theorem events_commitUpdate (h : slot.lock = none) (f : Task Json → Task Json) (e : RowEvent) :
    (slot.commitUpdate f e).events = slot.events ++ [e] := by
  simp [Slot.commitUpdate, Slot.events, h]

theorem events_publish : (slot.publish handler).events = slot.events := by
  cases h : slot.lock with
  | none => simp [Slot.publish, h]
  | some lock =>
    by_cases hh : lock.holder = handler <;> simp [Slot.publish, Slot.events, h, hh]

theorem release_cases (handler : ℕ) (slot : Slot Json) :
    slot.release handler = slot ∨ (slot.release handler).lock = none ∧
    (slot.release handler).row = slot.row ∧ (slot.release handler).history = slot.history := by
  simp only [Slot.release]
  split
  · exact .inr ⟨rfl, rfl, rfl⟩
  · exact .inl rfl

theorem events_release : (slot.release handler).events <+: slot.events := by
  rcases release_cases handler slot with h | ⟨hl, -, hh⟩
  · exact h.symm ▸ List.prefix_rfl
  · rw [events_of_unlocked hl, hh]
    exact List.prefix_append _ _

/-- The version a statement meets on a row that is free for it is the latest one. -/
theorem phase_visible (h : SlotInv tokens slot) (hf : slot.free handler) :
    phase (slot.visible handler) = after .absent slot.events := by
  cases hl : slot.lock with
  | none => simpa [Slot.visible, Slot.events, hl] using h.rowPhase
  | some lock =>
    have hh : lock.holder = handler := by simpa [Slot.free, hl] using hf
    simpa [Slot.visible, Slot.events, hl, hh] using (h.lock lock hl).rowPhase

private theorem tokensOf_nodup_append {es : List RowEvent} {e : RowEvent}
    (h : (tokensOf es).Nodup) (he : ∀ token, e.token? = some token → token ∉ tokensOf es) :
    (tokensOf (es ++ [e])).Nodup := by
  rw [tokensOf_append]
  cases ht : e.token? with
  | none => simpa [tokensOf, ht] using h
  | some token =>
    have hnot := he token ht
    simp only [tokensOf, List.filterMap_cons, ht, List.filterMap_nil] at hnot ⊢
    rw [List.nodup_append]
    refine ⟨h, List.nodup_singleton _, fun a ha b hb heq => ?_⟩
    have hb' := List.mem_singleton.1 hb
    exact hnot (hb' ▸ heq ▸ ha)

private theorem mem_tokensOf_append {es : List RowEvent} {e : RowEvent} {token : Option String}
    (h : token ∈ tokensOf (es ++ [e])) : token ∈ tokensOf es ∨ e.token? = some token := by
  rw [tokensOf_append, List.mem_append] at h
  rcases h with h | h
  · exact .inl h
  · refine .inr ?_
    cases ht : e.token? with
    | none => simp [tokensOf, ht] at h
    | some k => simpa [tokensOf, ht, eq_comm] using h

/-- A token seen at a load is not claimed with again. -/
theorem token_not_later {tokens : List String} {slot : Slot Json} (h : SlotInv tokens slot)
    {seen : ℕ} {token : Option String}
    (hu : (after .absent (slot.history.take seen)).Under token) :
    token ∉ tokensOf (slot.history.drop seen) := by
  intro hlater
  have hn := h.nodup
  rw [Slot.events, ← List.take_append_drop seen slot.history, tokensOf_append,
    tokensOf_append] at hn
  have hd := (List.nodup_append.1 (List.nodup_append.1 hn).1).2.2
  exact hd token (token_mem_of_under hu) token hlater rfl

/-- A statement of a claim on a row that is free for it. -/
theorem SlotInv.write (h : SlotInv tokens slot) (hf : slot.free handler)
    {f : Task Json → Task Json} {e : RowEvent}
    (hphase : phase (f (slot.visible handler)) = next (phase (slot.visible handler)) e)
    (hlawful : Lawful Lapsed (phase (slot.visible handler)) e) (hclaiming : e.isClaiming)
    (hfresh : ∀ token, e.token? = some token → token ∉ tokensOf slot.events)
    (hdrawn : ∀ token, e.token? = some token → ∃ k ∈ tokens, token = some k) :
    SlotInv tokens (slot.write handler f e) where
  rowPhase := by
    rw [row_write, history_write]
    exact h.rowPhase
  lock := by
    intro lock' hlock'
    rw [history_write]
    have hv := phase_visible h hf
    rw [hv] at hphase hlawful
    cases hl : slot.lock with
    | none =>
      rw [events_of_unlocked hl] at hphase hlawful
      have hvis : slot.visible handler = slot.row := by simp [Slot.visible, hl]
      simp only [Slot.write, hl, Option.some.injEq] at hlock'
      subst hlock'
      rw [hvis] at hphase
      exact ⟨by rw [hphase, after_append, after_cons, after_nil], by simp,
        lawfulFrom_singleton.2 hlawful, by simpa using hclaiming⟩
    | some lock =>
      obtain ⟨-, -, hlaw, hcl⟩ := h.lock lock hl
      rw [events_of_lock hl] at hphase hlawful
      have hvis : slot.visible handler = lock.row := by
        have hh : lock.holder = handler := by simpa [Slot.free, hl] using hf
        simp [Slot.visible, hl, hh]
      simp only [Slot.write, hl, Option.some.injEq] at hlock'
      subst hlock'
      rw [hvis] at hphase
      refine ⟨?_, by simp, ?_, ?_⟩
      · rw [← List.append_assoc, after_append, after_cons, after_nil]
        exact hphase
      · refine lawfulFrom_append.2 ⟨hlaw, lawfulFrom_singleton.2 ?_⟩
        rwa [after_append] at hlawful
      · intro x hx
        rcases List.mem_append.1 hx with hx | hx
        · exact hcl x hx
        · rw [List.mem_singleton.1 hx]
          exact hclaiming
  nodup := by
    rw [events_write]
    exact tokensOf_nodup_append h.nodup hfresh
  drawn := by
    intro token ht
    rw [events_write] at ht
    rcases mem_tokensOf_append ht with ht | ht
    · exact h.drawn token ht
    · exact hdrawn token ht

/-- A committed `UPDATE` that claims nothing. -/
theorem SlotInv.commitUpdate (h : SlotInv tokens slot) (hl : slot.lock = none)
    {f : Task Json → Task Json} {e : RowEvent}
    (hphase : phase (f slot.row) = next (phase slot.row) e) (htoken : e.token? = none) :
    SlotInv tokens (slot.commitUpdate f e) where
  rowPhase := by
    simp only [Slot.commitUpdate, after_append, after_cons, after_nil]
    rw [hphase, h.rowPhase]
  lock := by
    intro lock hlock
    rw [show (slot.commitUpdate f e).lock = slot.lock from rfl, hl] at hlock
    cases hlock
  nodup := by
    rw [events_commitUpdate hl]
    exact tokensOf_nodup_append h.nodup (by simp [htoken])
  drawn := by
    intro token ht
    rw [events_commitUpdate hl] at ht
    rcases mem_tokensOf_append ht with ht | ht
    · exact h.drawn token ht
    · rw [htoken] at ht
      cases ht

theorem SlotInv.publish (h : SlotInv tokens slot) : SlotInv tokens (slot.publish handler) where
  rowPhase := by
    cases hl : slot.lock with
    | none => simpa [Slot.publish, hl] using h.rowPhase
    | some lock =>
      by_cases hh : lock.holder = handler
      · simpa [Slot.publish, hl, hh] using (h.lock lock hl).rowPhase
      · simpa [Slot.publish, hl, hh] using h.rowPhase
  lock := by
    intro lock' hlock'
    cases hl : slot.lock with
    | none => simp [Slot.publish, hl] at hlock'
    | some lock =>
      by_cases hh : lock.holder = handler
      · simp [Slot.publish, hl, hh] at hlock'
      · simp only [Slot.publish, hl, hh, if_false] at hlock' ⊢
        exact h.lock lock' (hl ▸ hlock')
  nodup := by
    rw [events_publish]
    exact h.nodup
  drawn := by
    rw [events_publish]
    exact h.drawn

theorem SlotInv.release (h : SlotInv tokens slot) : SlotInv tokens (slot.release handler) := by
  rcases release_cases handler slot with he | ⟨hl, hr, hh⟩
  · rw [he]
    exact h
  · have hsub : (tokensOf (slot.release handler).events).Sublist (tokensOf slot.events) :=
      events_release.sublist.filterMap _
    refine ⟨by rw [hr, hh]; exact h.rowPhase, ?_, h.nodup.sublist hsub,
      fun token ht => h.drawn token (hsub.subset ht)⟩
    intro lock hlock
    rw [hl] at hlock
    cases hlock

end SlotOps

/-- What a handler knows of the rows it has loaded, and of the token it has drawn. -/
def HandlerInv (s : System Json) : Handler Json → Prop
  | .settling taskId claimToken _ task seen => task.status = .claimed ∧
      ∃ slot, s.tasks.get taskId = some slot ∧ seen ≤ slot.history.length ∧
        (after .absent (slot.history.take seen)).Under (some claimToken)
  | .beating req _ _ _ seenSessions seen =>
      (∃ slot, s.workers.get req.workerId = some slot ∧ seenSessions ≤ slot.sessions.length ∧
        (slot.sessions.take seenSessions).getLast? = some req.sessionId) ∧
      ∀ taskId, req.currentTaskId = some taskId → ∃ slot, s.tasks.get taskId = some slot ∧
        seen ≤ slot.history.length ∧
        (after .absent (slot.history.take seen)).Owned (some req.workerId) req.claimToken
  | .selecting _ claimToken _ => claimToken ∈ s.tokens ∧
      ∀ id slot, s.tasks.get id = some slot → some claimToken ∉ tokensOf slot.events
  | _ => True

/-- The token a handler has drawn and not used. -/
def unused : Handler Json → Option String
  | .selecting _ claimToken _ => some claimToken
  | _ => none

structure Inv (s : System Json) : Prop where
  slots : ∀ id slot, s.tasks.get id = some slot → SlotInv s.tokens slot
  workers : ∀ id slot, s.workers.get id = some slot →
    slot.sessions.getLast? = some slot.row.sessionId
  handlers : ∀ i, HandlerInv s (s.handlers i)
  unused : ∀ i j token, unused (s.handlers i) = some token →
    unused (s.handlers j) = some token → i = j

theorem start_inv : Inv (start : System Json) where
  slots := by
    intro id slot hg
    cases hg
  workers := by
    intro id slot hg
    cases hg
  handlers := fun _ => trivial
  unused := by
    intro i j token hi
    cases hi

/-- If the step is the commit of an outcome, the row is claimed under its token. -/
def outcomeFenced (s : System Json) : Label Json → Bool
  | .commitOutcome handler _ =>
    match s.handlers handler with
    | .settling taskId claimToken _ _ _ => (s.tasks.get taskId).any fun slot =>
        slot.row.status = .claimed && slot.row.claimToken = some claimToken
    | _ => true
  | _ => true

/-- Every event of every task was lawful where it happened. -/
def EventsLawful (s : System Json) : Prop :=
  ∀ id slot, s.tasks.get id = some slot → LawfulFrom Lapsed .absent slot.events

theorem start_lawful : EventsLawful (start : System Json) := by
  intro id slot hg
  cases hg

/-- An outcome that is fenced is lawful. -/
theorem lawful_of_fenced {s : System Json} {handler : ℕ} {now : Time} {taskId : TaskId}
    {claimToken : String} {outcome : Outcome Json} {task : Task Json} {seen : ℕ}
    {slot : Slot Json} (hh : s.handlers handler = .settling taskId claimToken outcome task seen)
    (hg : s.tasks.get taskId = some slot) (hf : outcomeFenced s (.commitOutcome handler now)) :
    Lawful Lapsed (phase slot.row) (.settled (some claimToken)) := by
  simp only [outcomeFenced, hh, hg, Option.any_some, Bool.and_eq_true, decide_eq_true_eq] at hf
  simp [phase, hf.1, hf.2, Lawful]

section Steps
variable [DecidableEq Json] {s t : System Json} {l : Label Json}

/-- A move of a slot keeps what has been committed on it. -/
theorem history_prefix {slot slot' : Slot Json} (hm : SlotMove s t l slot slot') :
    slot.history <+: slot'.history := by
  cases hm with
  | stay => exact List.prefix_rfl
  | settle hh hg hl => exact List.prefix_append _ _
  | renew hh hid hg hl => exact List.prefix_append _ _
  | sweep hf hl => exact (history_write _ _).symm ▸ List.prefix_rfl
  | claim hh ht hf hc => exact (history_write _ _).symm ▸ List.prefix_rfl
  | publish handler =>
    cases hl : slot.lock with
    | none => simp [Slot.publish, hl]
    | some lock => by_cases hh : lock.holder = handler <;> simp [Slot.publish, hl, hh]
  | release handler =>
    rcases release_cases handler slot with he | ⟨-, -, hh⟩
    · exact he.symm ▸ List.prefix_rfl
    · exact hh.symm ▸ List.prefix_rfl

/-- The tokens of a moved slot are the old ones, and the unused one of the handler if it
has claimed the row. -/
theorem tokens_moved {slot slot' : Slot Json} (hm : SlotMove s t l slot slot')
    {token : Option String} (ht : token ∈ tokensOf slot'.events) :
    token ∈ tokensOf slot.events ∨ ∃ i, unused (s.handlers i) = token ∧ token ≠ none ∧
      t.handlers i = .claimed := by
  cases hm with
  | stay => exact .inl ht
  | settle hh hg hl =>
    rw [events_commitUpdate hl, tokensOf_append] at ht
    exact .inl (by simpa [tokensOf, Event.token?] using ht)
  | renew hh hid hg hl =>
    rw [events_commitUpdate hl, tokensOf_append] at ht
    exact .inl (by simpa [tokensOf, Event.token?] using ht)
  | sweep hf hl =>
    rw [events_write, tokensOf_append] at ht
    exact .inl (by simpa [tokensOf, Event.token?] using ht)
  | @claim handler req claimToken todo slot hh hc hf hcl =>
    rw [events_write, tokensOf_append, List.mem_append] at ht
    rcases ht with ht | ht
    · exact .inl ht
    · have he : token = some claimToken := by
        simpa [tokensOf, Event.token?, ClaimRequest.event] using ht
      exact .inr ⟨handler, by rw [hh, he]; rfl, by simp [he], hc⟩
  | publish handler =>
    rw [events_publish] at ht
    exact .inl ht
  | release handler =>
    exact .inl ((events_release.sublist.filterMap _).subset ht)

omit [DecidableEq Json] in
theorem new_slotInv {slot : Slot Json} {tokens : List String} (hq : phase slot.row = .queued)
    (hh : slot.history = [.submitted]) (hl : slot.lock = none) : SlotInv tokens slot where
  rowPhase := by rw [hq, hh]; rfl
  lock := by
    intro lock hlock
    rw [hl] at hlock
    cases hlock
  nodup := by
    rw [events_of_unlocked hl, hh]
    exact List.nodup_nil
  drawn := by
    intro token ht
    rw [events_of_unlocked hl, hh] at ht
    cases ht

omit [DecidableEq Json] in
/-- What the checks of an outcome request found is known of the load. -/
theorem loaded_outcome (hinv : Inv s) {taskId : TaskId} {claimToken : String} {slot : Slot Json}
    (outcome : Outcome Json) (hg : s.tasks.get taskId = some slot)
    (hc : checkClaim taskId claimToken slot.row = .ok ()) :
    HandlerInv s (.settling taskId claimToken outcome slot.row slot.history.length) := by
  have hclaim := checkClaim_ok_iff.1 hc
  refine ⟨hclaim.1, slot, hg, le_rfl, ?_⟩
  rw [List.take_length, ← (hinv.slots taskId slot hg).rowPhase]
  exact under_phase_iff.2 hclaim

omit [DecidableEq Json] in
/-- What the checks of a heartbeat found is known of the loads. -/
theorem loaded_heartbeat (hinv : Inv s) {req : Heartbeat Json} {wslot : WorkerSlot Json}
    (now : Time) (hwg : s.workers.get req.workerId = some wslot)
    (hc : checkLoads req (some wslot.row)
      (fun taskId => (s.tasks.get taskId).map Slot.row) = .ok ()) (task : Option (Task Json)) :
    HandlerInv s (.beating req now wslot.row task (s.seenSessions req.workerId)
      (s.seenHistory req.currentTaskId)) := by
  obtain ⟨hw, ht⟩ := checkLoads_ok_iff.1 hc
  obtain ⟨worker, hfound, hsession, -, -⟩ := checkWorker_ok_iff.1 hw
  cases hfound
  refine ⟨⟨wslot, hwg, ?_, ?_⟩, fun taskId hid => ?_⟩
  · simp [System.seenSessions, hwg]
  · simp only [System.seenSessions, hwg, Option.map_some, Option.getD_some, List.take_length]
    rw [hinv.workers _ wslot hwg, hsession]
  · obtain ⟨task, hfound, hs, hb, hk⟩ := checkTask_ok_iff.1 (ht taskId hid)
    obtain ⟨slot, hg, rfl⟩ := Option.map_eq_some_iff.1 hfound
    have hseen : s.seenHistory req.currentTaskId = slot.history.length := by
      simp [System.seenHistory, hid, hg]
    refine ⟨slot, hg, hseen.le, ?_⟩
    rw [hseen, List.take_length, ← (hinv.slots taskId slot hg).rowPhase]
    exact owned_phase_iff.2 ⟨hs, hb, hk⟩

omit [DecidableEq Json] in
theorem mem_tokens_of_unused (hinv : Inv s) {i : ℕ} {token : String}
    (hi : unused (s.handlers i) = some token) : token ∈ s.tokens := by
  have hknown := hinv.handlers i
  cases hh : s.handlers i <;> rw [hh] at hi hknown <;> cases hi
  exact hknown.1

variable [EmptyCollection Json] {cfg : Settings}

/-- Every move of a slot keeps its invariant. -/
theorem move_slotInv (hinv : Inv s) (h : step cfg s l = some t) {id : TaskId}
    {slot slot' : Slot Json} (hg : s.tasks.get id = some slot) (hm : SlotMove s t l slot slot') :
    SlotInv t.tokens slot' := by
  have hslot : SlotInv t.tokens slot := (hinv.slots id slot hg).mono (step_tokens h)
  cases hm with
  | stay => exact hslot
  | @settle handler now taskId claimToken outcome task seen slot hh hg' hl =>
    have hloaded := hinv.handlers handler
    rw [hh] at hloaded
    exact hslot.commitUpdate hl (phase_flush_settleRow hloaded.1 _ _ _) rfl
  | renew hh hid hg' hl => exact hslot.commitUpdate hl (phase_flush_beatTask _ _ _) rfl
  | @sweep handler req slot hf hl =>
    obtain ⟨hp, hlapsed⟩ := phase_of_leaseLapsed hl
    refine hslot.write hf (phase_requeueRow _ _ _) ?_ rfl (by simp [Event.token?])
      (by simp [Event.token?])
    rw [hp]
    exact ⟨rfl, hlapsed⟩
  | @claim handler req claimToken todo slot hh ht hf hc =>
    have hi := hinv.handlers handler
    rw [hh] at hi
    refine hslot.write hf (phase_claimRow _ req claimToken) ?_ rfl ?_ ?_
    · rw [phase_of_claimable hc]
      exact trivial
    · intro token hk
      cases hk
      exact hi.2 id slot hg
    · intro token hk
      cases hk
      exact ⟨claimToken, step_tokens h hi.1, rfl⟩
  | publish handler => exact hslot.publish
  | release handler => exact hslot.release

theorem step_slots (hinv : Inv s) (h : step cfg s l = some t) (id : TaskId) (slot : Slot Json)
    (hg : t.tasks.get id = some slot) : SlotInv t.tokens slot := by
  cases hs : s.tasks.get id with
  | none =>
    obtain ⟨hq, hh, hl⟩ := step_new_slot h hs hg
    exact new_slotInv hq hh hl
  | some old =>
    obtain ⟨slot', hg', hm⟩ := step_slot h hs
    cases hg.symm.trans hg'
    exact move_slotInv hinv h hs hm

theorem step_workers (hinv : Inv s) (h : step cfg s l = some t) (id : String)
    (slot : WorkerSlot Json) (hg : t.workers.get id = some slot) :
    slot.sessions.getLast? = some slot.row.sessionId := by
  cases hs : s.workers.get id with
  | none =>
    rw [step_new_worker h hs hg]
    rfl
  | some old =>
    obtain ⟨slot', hg', hm⟩ := step_worker h hs
    cases hg.symm.trans hg'
    have hold := hinv.workers id old hs
    cases hm with
    | stay => exact hold
    | @register handler req now loaded _ hh hgs =>
      by_cases hsame : req.sessionId = loaded.sessionId
      · simpa [WorkerSlot.commitRegister, flushWorker, registerRow, flushed, hsame] using hold
      · simp [WorkerSlot.commitRegister, flushWorker, registerRow, flushed, hsame]
    | beat hh hgs => simpa [WorkerSlot.commitBeat, flushWorker, beatWorker] using hold

/-- A registration keeps the session ids that have been written. -/
theorem sessions_prefix (req : Registration Json) (now : Time) (loaded : Worker Json)
    (slot : WorkerSlot Json) : slot.sessions <+: (slot.commitRegister req now loaded).sessions := by
  simp only [WorkerSlot.commitRegister]
  split
  · exact List.prefix_rfl
  · exact List.prefix_append _ _

/-- A step keeps what is known of a load, and that a token is unused unless the step
claims with it. -/
theorem handlerInv_step (h : step cfg s l = some t) {hd : Handler Json} (hknown : HandlerInv s hd)
    (hother : ∀ i token, unused hd = some token → unused (s.handlers i) = some token →
      t.handlers i ≠ .claimed) : HandlerInv t hd := by
  cases hd with
  | settling taskId claimToken outcome task seen =>
    obtain ⟨hclaimed, slot, hg, hlen, hu⟩ := hknown
    obtain ⟨slot', hg', hm⟩ := step_slot h hg
    obtain ⟨es, hes⟩ := history_prefix hm
    refine ⟨hclaimed, slot', hg', ?_, ?_⟩
    · rw [← hes, List.length_append]
      omega
    · rw [← hes, List.take_append_of_le_length hlen]
      exact hu
  | beating req now worker task seenSessions seen =>
    obtain ⟨⟨wslot, hw, hwlen, hlast⟩, htask⟩ := hknown
    refine ⟨?_, fun taskId hid => ?_⟩
    · obtain ⟨wslot', hw', hm⟩ := step_worker h hw
      cases hm with
      | stay => exact ⟨wslot, hw', hwlen, hlast⟩
      | @register handler req now loaded _ hh hgs =>
        obtain ⟨written, hwritten⟩ := sessions_prefix req now loaded wslot
        refine ⟨_, hw', ?_, ?_⟩
        · rw [← hwritten, List.length_append]
          omega
        · rw [← hwritten, List.take_append_of_le_length hwlen]
          exact hlast
      | beat hh hgs => exact ⟨_, hw', hwlen, hlast⟩
    · obtain ⟨slot, hg, hlen, ho⟩ := htask taskId hid
      obtain ⟨slot', hg', hm⟩ := step_slot h hg
      obtain ⟨es, hes⟩ := history_prefix hm
      refine ⟨slot', hg', ?_, ?_⟩
      · rw [← hes, List.length_append]
        omega
      · rw [← hes, List.take_append_of_le_length hlen]
        exact ho
  | selecting req claimToken todo =>
    obtain ⟨hdrawn, hfresh⟩ := hknown
    refine ⟨step_tokens h hdrawn, fun id slot hg hmem => ?_⟩
    cases hs : s.tasks.get id with
    | none =>
      obtain ⟨-, hhist, hl⟩ := step_new_slot h hs hg
      rw [events_of_unlocked hl, hhist] at hmem
      cases hmem
    | some old =>
      obtain ⟨slot', hg', hm⟩ := step_slot h hs
      cases hg.symm.trans hg'
      rcases tokens_moved hm hmem with hold | ⟨i, hi, -, hc⟩
      · exact hfresh id old hs hold
      · exact hother i claimToken rfl hi hc
  | _ => trivial

/-- A token drawn in this step has claimed nothing. -/
theorem drawn_token (hinv : Inv s) (h : step cfg s l = some t) {claimToken : String}
    (req : ClaimRequest) (todo : List TaskId) (hf : claimToken ∉ s.tokens)
    (htok : t.tokens = claimToken :: s.tokens) :
    HandlerInv t (.selecting req claimToken todo) := by
  refine ⟨by simp [htok], fun id slot hg hmem => ?_⟩
  cases hs : s.tasks.get id with
  | none =>
    obtain ⟨-, hhist, hl⟩ := step_new_slot h hs hg
    rw [events_of_unlocked hl, hhist] at hmem
    cases hmem
  | some old =>
    obtain ⟨slot', hg', hm⟩ := step_slot h hs
    cases hg.symm.trans hg'
    rcases tokens_moved hm hmem with hold | ⟨i, hi, -, -⟩
    · obtain ⟨k, hk, he⟩ := (hinv.slots id old hs).drawn _ hold
      cases he
      exact hf hk
    · exact hf (mem_tokens_of_unused hinv hi)

theorem step_handlers (hinv : Inv s) (h : step cfg s l = some t) (i : ℕ) :
    HandlerInv t (t.handlers i) := by
  -- A handler that keeps its token has not claimed with it, and no other one has it.
  have hkeeps : ∀ {hd : Handler Json}, HandlerInv s hd → t.handlers i = hd →
      unused (s.handlers i) = unused hd → HandlerInv t hd := by
    intro hd hknown ht hs
    refine handlerInv_step h hknown fun j token hd' hj => ?_
    have hij := hinv.unused i j token (hs.trans hd') hj
    subst hij
    rw [ht]
    intro hclaimed
    rw [hclaimed] at hd'
    cases hd'
  by_cases hi : Label.handler l = some i
  · have hm := step_handler h hi
    have hknown := hinv.handlers i
    generalize hs : s.handlers i = hb at hm hknown
    generalize ht : t.handlers i = ha at hm
    cases hm with
    | stay => exact hkeeps hknown ht (congrArg unused hs)
    | idle => trivial
    | claimed => trivial
    | sweeping => trivial
    | registering => trivial
    | settling outcome hg hc =>
      exact hkeeps (loaded_outcome hinv outcome hg hc) ht (by rw [hs]; rfl)
    | beating now hw hc =>
      exact hkeeps (loaded_heartbeat hinv now hw hc _) ht (by rw [hs]; rfl)
    | selecting req todo hf htok => exact drawn_token hinv h req todo hf htok
    | skip req claimToken todo todo' =>
      exact @hkeeps (.selecting req claimToken todo') hknown ht (by rw [hs]; rfl)
  · have hs := step_handler_of_ne h hi
    rw [hs]
    exact hkeeps (hinv.handlers i) hs rfl

/-- An unused token was unused before, or the handler of the step has just drawn it. -/
theorem unused_before (h : step cfg s l = some t) {i : ℕ} {token : String}
    (hi : unused (t.handlers i) = some token) :
    unused (s.handlers i) = some token ∨ (Label.handler l = some i ∧ token ∉ s.tokens) := by
  by_cases hl : Label.handler l = some i
  · have hm := step_handler h hl
    generalize s.handlers i = hb at hm
    generalize t.handlers i = ha at hm hi
    cases hm with
    | stay => exact .inl hi
    | selecting req todo hf htok =>
      cases hi
      exact .inr ⟨hl, hf⟩
    | skip req claimToken todo todo' => exact .inl hi
    | _ => cases hi
  · rw [step_handler_of_ne h hl] at hi
    exact .inl hi

/-- Two handlers never hold the same unused token. -/
theorem step_unused (hinv : Inv s) (h : step cfg s l = some t) (i j : ℕ) (token : String)
    (hti : unused (t.handlers i) = some token) (htj : unused (t.handlers j) = some token) :
    i = j := by
  rcases unused_before h hti with hi | ⟨hi, hfi⟩ <;> rcases unused_before h htj with hj | ⟨hj, hfj⟩
  · exact hinv.unused i j token hi hj
  · exact absurd (mem_tokens_of_unused hinv hi) hfj
  · exact absurd (mem_tokens_of_unused hinv hj) hfi
  · exact Option.some.inj (hi.symm.trans hj)

theorem step_inv (s : System Json) (l : Label Json) (t : System Json) (hinv : Inv s)
    (h : step cfg s l = some t) : Inv t :=
  ⟨step_slots hinv h, step_workers hinv h, step_handlers hinv h, step_unused hinv h⟩

theorem run_inv {ls : List (Label Json)} (h : exec (step cfg) start ls = some t) : Inv t :=
  invariant step_inv start_inv h

/-- Sweeps and claims are lawful in any case, an outcome is lawful if it is fenced. -/
theorem step_lawful (s : System Json) (l : Label Json) (t : System Json) (hinv : Inv s)
    (hlaw : EventsLawful s) (hfenced : outcomeFenced s l) (h : step cfg s l = some t) :
    EventsLawful t := by
  intro id slot hg
  cases hs : s.tasks.get id with
  | none =>
    obtain ⟨-, hh, hl⟩ := step_new_slot h hs hg
    rw [events_of_unlocked hl, hh]
    exact ⟨trivial, trivial⟩
  | some old =>
    obtain ⟨slot', hg', hm⟩ := step_slot h hs
    cases hg.symm.trans hg'
    have hslot := hinv.slots id old hs
    have hold := hlaw id old hs
    cases hm with
    | stay => exact hold
    | settle hh hgs hl =>
      rw [events_commitUpdate hl]
      refine hold.concat ?_
      rw [events_of_unlocked hl, ← hslot.rowPhase]
      exact lawful_of_fenced hh hgs hfenced
    | renew hh hid hgs hl =>
      rw [events_commitUpdate hl]
      exact hold.concat trivial
    | sweep hf hl =>
      rw [events_write]
      refine hold.concat ?_
      obtain ⟨hp, hlapsed⟩ := phase_of_leaseLapsed hl
      rw [← phase_visible hslot hf, hp]
      exact ⟨rfl, hlapsed⟩
    | claim hh ht hf hc =>
      rw [events_write]
      refine hold.concat ?_
      rw [← phase_visible hslot hf, phase_of_claimable hc]
      exact trivial
    | publish handler =>
      rw [events_publish]
      exact hold
    | release handler =>
      obtain ⟨es, hes⟩ := @events_release _ old handler
      rw [← hes] at hold
      exact (lawfulFrom_append.1 hold).1

end Steps
end TaskQueue.ReadCommittedInvariant
