import TaskQueue.ReadCommittedInvariant

/-!
# Claims exclude each other

Runs of submissions and claims, interleaved statement by statement. Between two claims
of one task lies a sweep that read the lease of the earlier claim and found it lapsed,
so that each queued occurrence of a task is claimed at most once.
-/

namespace TaskQueue.ClaimExclusivity
open KeyedTables TaskService ClaimLifecycle ReadCommittedRequests ReadCommittedSteps
open ReadCommittedInvariant StepRuns

variable {Json : Type}

/-- The step belongs to a submission or to a claim. -/
def Label.isClaiming : Label Json → Bool
  | .submitTask .. => true
  | .beginSweep .. => true
  | .sweepRow .. => true
  | .beginSelect .. => true
  | .selectRow .. => true
  | .commitClaim .. => true
  | .abort .. => true
  | _ => false

/-- Nothing has happened to any task but its submission, claims and sweeps. -/
def EventsClaiming (s : System Json) : Prop :=
  ∀ id slot, s.tasks.get id = some slot → ∀ e ∈ slot.events, e.isClaiming

private theorem claiming_concat {es : List RowEvent} {e : RowEvent}
    (h : ∀ x ∈ es, x.isClaiming) (he : e.isClaiming) : ∀ x ∈ es ++ [e], x.isClaiming := by
  intro x hx
  rcases List.mem_append.1 hx with hx | hx
  · exact h x hx
  · rw [List.mem_singleton.1 hx]
    exact he

theorem outcomeFenced_of_claiming {s : System Json} {l : Label Json} (hl : Label.isClaiming l) :
    outcomeFenced s l := by
  cases l with
  | commitOutcome handler now => cases hl
  | _ => rfl

section Runs
variable [DecidableEq Json] [EmptyCollection Json] {cfg : Settings}

theorem step_claiming {s t : System Json} {l : Label Json} (hs : EventsClaiming s)
    (hl : Label.isClaiming l) (h : step cfg s l = some t) : EventsClaiming t := by
  intro id slot hg
  cases hold : s.tasks.get id with
  | none =>
    obtain ⟨-, hh, hlock⟩ := step_new_slot h hold hg
    rw [events_of_unlocked hlock, hh]
    simp [Event.isClaiming]
  | some old =>
    obtain ⟨slot', hg', hm⟩ := step_slot h hold
    cases hg.symm.trans hg'
    have hkept := hs id old hold
    cases hm with
    | stay => exact hkept
    | settle hh hgs hlock => cases hl
    | renew hh hid hgs hlock => cases hl
    | sweep hf hlapsed =>
      rw [events_write]
      exact claiming_concat hkept rfl
    | claim hh ht hf hc =>
      rw [events_write]
      exact claiming_concat hkept rfl
    | publish handler =>
      rw [events_publish]
      exact hkept
    | release handler => exact fun e he => hkept e (events_release.subset he)

/-- What a run of submissions and claims keeps. -/
structure ClaimInv (s : System Json) : Prop where
  inv : Inv s
  lawful : EventsLawful s
  claiming : EventsClaiming s

theorem run_claimInv {s t : System Json} {ls : List (Label Json)} (hs : ClaimInv s)
    (hls : ∀ l ∈ ls, Label.isClaiming l) (hrun : exec (step cfg) s ls = some t) :
    ClaimInv t := by
  induction ls generalizing s with
  | nil => cases hrun; exact hs
  | cons l ls ih =>
    obtain ⟨m, hm, hr⟩ := exec_cons_inv hrun
    have hl := hls l List.mem_cons_self
    have hstep : ClaimInv m := ⟨step_inv s l m hs.inv hm,
      step_lawful s l m hs.inv hs.lawful (outcomeFenced_of_claiming hl) hm,
      step_claiming hs.claiming hl hm⟩
    exact ih hstep (fun x hx => hls x (List.mem_cons_of_mem l hx)) hr

end Runs

/-- The claims of a task, those of open transactions included, exclude each other, and
the committed row is that of the last committed claim. -/
structure Exclusive (slot : Slot Json) : Prop where
  /-- Between two claims a sweep read the lease of the earlier one below its own clock. -/
  swept : ∀ pre w k lease mid w' k' lease' post,
    slot.events = pre ++ .claimed w k lease :: (mid ++ .claimed w' k' lease' :: post) →
    ∃ now, .reclaimed lease now ∈ mid ∧ Lapsed lease now
  /-- Two claims belong to different transactions and to different queued occurrences. -/
  distinct : ∀ pre w k lease mid w' k' lease' post,
    slot.events = pre ++ .claimed w k lease :: (mid ++ .claimed w' k' lease' :: post) →
    k ≠ k' ∧ occurrences pre < occurrences (pre ++ .claimed w k lease :: mid)
  /-- A claimed row carries the worker, the token and the lease with which the transaction of
  the last committed event, a claim, was run. -/
  last : slot.row.status = .claimed → ∃ pre w k lease,
    slot.history = pre ++ [.claimed w k lease] ∧ slot.row.claimedBy = w ∧
      slot.row.claimToken = k ∧ slot.row.leaseExpiresAt = lease

theorem exclusive_of_claimInv {s : System Json} (h : ClaimInv s) {id : TaskId}
    {slot : Slot Json} (hg : s.tasks.get id = some slot) : Exclusive slot := by
  have hslot := h.inv.slots id slot hg
  have hlaw := h.lawful id slot hg
  have hclaiming := h.claiming id slot hg
  have hswept : ∀ pre w k lease mid w' k' lease' post,
      slot.events = pre ++ .claimed w k lease :: (mid ++ .claimed w' k' lease' :: post) →
      ∃ now, .reclaimed lease now ∈ mid ∧ Lapsed lease now := by
    intro pre w k lease mid w' k' lease' post he
    rw [he] at hlaw hclaiming
    obtain ⟨-, -, hrest⟩ := lawfulFrom_append.1 hlaw
    refine reclaimed_before_next hrest fun e hmem => hclaiming e ?_
    simp [hmem]
  refine ⟨hswept, ?_, ?_⟩
  · intro pre w k lease mid w' k' lease' post he
    obtain ⟨now, hmem, -⟩ := hswept pre w k lease mid w' k' lease' post he
    refine ⟨?_, occurrences_lt hmem⟩
    have hn := hslot.nodup
    rw [he] at hn
    rintro rfl
    simp only [tokensOf, List.filterMap_append, List.filterMap_cons, Event.token?] at hn
    have hk := (List.nodup_cons.1 (List.nodup_append.1 hn).2.1).1
    exact hk (List.mem_append_right _ List.mem_cons_self)
  · intro hs
    have hphase : after (.absent : RowPhase) slot.history =
        .claimed slot.row.claimedBy slot.row.claimToken slot.row.leaseExpiresAt := by
      rw [← hslot.rowPhase]
      simp [phase, hs]
    have hne : slot.history ≠ [] := by
      intro hnil
      rw [hnil] at hphase
      cases hphase
    obtain ⟨pre, hpre⟩ := claimed_last hphase hne fun e he =>
      hclaiming e (List.mem_append_left _ he)
    exact ⟨pre, _, _, _, hpre, rfl, rfl, rfl⟩

variable [DecidableEq Json] [EmptyCollection Json]

/-- In every interleaving of submissions and claims the claims of each task exclude each
other. -/
theorem claims_exclusive (cfg : Settings) (ls : List (Label Json))
    (hls : ∀ l ∈ ls, Label.isClaiming l) (s : System Json)
    (hrun : exec (step cfg) start ls = some s) : ∀ slot ∈ s.tasks.rows, Exclusive slot := by
  have hstart : ClaimInv (start : System Json) :=
    ⟨start_inv, start_lawful, fun id slot hg => nomatch hg⟩
  have h := run_claimInv hstart hls hrun
  exact fun slot hmem => exclusive_of_claimInv h (Table.get_of_mem hmem)

/-- Two workers ask for the one queued task while the first one's claim is open, and once
more after its lease of one minute has lapsed. -/
def sharedTask : List (Label (List ℕ)) :=
  let first : ClaimRequest := ⟨["music_generation"], "worker-1", some 1, 10⟩
  let second : ClaimRequest := ⟨["music_generation"], "worker-2", none, 20⟩
  let third : ClaimRequest := ⟨["music_generation"], "worker-2", none, minutes 1 + 11⟩
  [.submitTask "a" "music_generation" [] none none 0 1,
    .beginSweep 0 first fun _ => 0, .beginSelect 0 "token-1" fun _ => 0, .selectRow 0,
    .beginSweep 1 second fun _ => 0, .beginSelect 1 "token-2" fun _ => 0, .selectRow 1,
    .selectRow 1, .commitClaim 1, .commitClaim 0,
    .beginSweep 1 third fun _ => 0, .sweepRow 1, .beginSelect 1 "token-3" fun _ => 0,
    .selectRow 1, .commitClaim 1]

theorem claims_exclusive_sharedTask :
    ∃ s, exec (step {}) start sharedTask = some s ∧
      s.tasks.rows.map (fun slot => tokensOf slot.history) = [[some "token-1", some "token-3"]] ∧
      ∀ slot ∈ s.tasks.rows, Exclusive slot :=
  ⟨_, rfl, by decide, claims_exclusive {} sharedTask (by decide) _ rfl⟩

end TaskQueue.ClaimExclusivity
