import TaskQueue.Authentication
import TaskQueue.StepRuns

/-!
# The cache of self-service worker keys under concurrent requests

Any number of requests check a worker key in one process while users create and revoke
keys and their profiles change. Each check takes its steps one by one: it reads the clock,
looks into the cache, drops the entry, asks the database, touches the row and fills the
cache, with anything in between.
-/

namespace TaskQueue.WorkerKeyCache
open KeyedTables StepRuns KeyConfiguration WorkerKeyService Authentication

/-- Where a call of `require_worker` stands. -/
inductive Phase
  | reading
  | missed
  | querying
  | touching (owner : KeyOwner)
  | storing (owner : KeyOwner)
  | returned (result : Except HttpError AuthUser)

/-- A call of `require_worker` for a key, and the time it has read. -/
structure Call where
  rawKey : String
  now : Time
  phase : Phase

structure System where
  clock : Time
  keys : KeyTable
  profiles : Profiles
  cache : KeyCache
  calls : ℕ → Option Call

/-- What happens next. The limit on the active keys of a user does not bind concurrent
requests, so that a key is created whenever the table takes the row. -/
inductive Label
  | tick (elapsed : ℕ)
  | createKey (id userId name token : String)
  | revokeKey (userId keyId : String)
  | setStatus (userId : String) (status : Option String)
  | enter (call : ℕ) (apiKey : Option String)
  | readCache (call : ℕ)
  | dropEntry (call : ℕ)
  | matchKey (call : ℕ) (answers : Bool)
  | touch (call : ℕ) (dbNow : Time) (answers : Bool)
  | store (call : ℕ)
  | leave (call : ℕ)

def System.setCall (s : System) (i : ℕ) (call : Call) : System :=
  { s with calls := Function.update s.calls i (some call) }

section Step
variable (sha256 : String → String) (cfg : AuthSettings)

/-- The call up to its reading of the clock. -/
def entered (s : System) (apiKey : Option String) : Call :=
  match apiKey.filter (· ≠ "") with
  | none =>
    ⟨"", s.clock,
      .returned (requireMachineKey sha256 cfg "worker" apiKey (workerKeyHashes cfg))⟩
  | some key =>
    match nameForKey sha256 key (workerKeyHashes cfg) with
    | some name => ⟨key, s.clock, .returned (.ok (machineUser "worker" name))⟩
    | none => ⟨key, s.clock, .reading⟩

def step (s : System) : Label → Option System
  | .tick elapsed => some { s with clock := s.clock + elapsed }
  | .createKey id userId name token =>
    match insertKey s.keys (newKey sha256 s.clock id userId name token) with
    | .ok keys => some { s with keys := keys }
    | .error _ => some s
  | .revokeKey userId keyId =>
    match WorkerKeyService.revokeKey s.clock s.keys userId keyId with
    | .ok (keys, _) => some { s with keys := keys }
    | .error _ => some s
  | .setStatus userId status =>
    some { s with profiles := Function.update s.profiles userId status }
  | .enter i apiKey =>
    if (s.calls i).isNone then some (s.setCall i (entered sha256 cfg s apiKey)) else none
  | .readCache i =>
    match s.calls i with
    | some ⟨key, now, .reading⟩ =>
      match cacheHit s.cache now (sha256 key) with
      | some owner => some (s.setCall i ⟨key, now, .returned (.ok (keyUser owner))⟩)
      | none => some (s.setCall i ⟨key, now, .missed⟩)
    | _ => none
  | .dropEntry i =>
    match s.calls i with
    | some ⟨key, now, .missed⟩ =>
      some ({ s with cache := Authentication.dropEntry s.cache (sha256 key) }.setCall i
        ⟨key, now, .querying⟩)
    | _ => none
  | .matchKey i answers =>
    match s.calls i with
    | some ⟨key, now, .querying⟩ =>
      if answers then
        match WorkerKeyService.matchKey s.profiles s.keys (sha256 key) with
        | none => some (s.setCall i ⟨key, now, .returned (.error invalidKey)⟩)
        | some row => some (s.setCall i ⟨key, now, .touching row.owner⟩)
      else some (s.setCall i ⟨key, now, .returned (.error keyCheckDown)⟩)
    | _ => none
  | .touch i dbNow answers =>
    match s.calls i with
    | some ⟨key, now, .touching owner⟩ =>
      if answers then
        some ({ s with keys := WorkerKeyService.touch dbNow s.keys owner.keyId }.setCall i
          ⟨key, now, .storing owner⟩)
      else some (s.setCall i ⟨key, now, .returned (.error keyCheckDown)⟩)
    | _ => none
  | .store i =>
    match s.calls i with
    | some ⟨key, now, .storing owner⟩ =>
      some ({ s with cache := storeEntry s.cache (sha256 key) owner now }.setCall i
        ⟨key, now, .returned (.ok (keyUser owner))⟩)
    | _ => none
  | .leave i =>
    match s.calls i with
    | some ⟨_, _, .returned _⟩ => some { s with calls := Function.update s.calls i none }
    | _ => none

end Step

/-- A process that has checked no key yet. -/
def start (clock : Time) (keys : KeyTable) (profiles : Profiles) : System where
  clock := clock
  keys := keys
  profiles := profiles
  cache := emptyCache
  calls := fun _ => none

/-- The key of a digest is not revoked and its owner, as the caller shows it, is approved. -/
def ActiveFor (s : System) (digest : String) (owner : KeyOwner) : Prop :=
  ∃ row ∈ s.keys.rows, row.keyHash = digest ∧ row.revokedAt = none ∧
    s.profiles row.userId = some "approved" ∧ row.owner = owner

/-- Some key of the digest is not revoked and its owner is approved. -/
def KeyActive (s : System) (digest : String) : Prop := ∃ owner, ActiveFor s digest owner

@[simp] theorem setCall_calls (s : System) (i j : ℕ) (call : Call) :
    (s.setCall i call).calls j = if j = i then some call else s.calls j := by
  simp [System.setCall, Function.update_apply]

@[simp] theorem setCall_clock (s : System) (i : ℕ) (call : Call) :
    (s.setCall i call).clock = s.clock := rfl

@[simp] theorem setCall_keys (s : System) (i : ℕ) (call : Call) :
    (s.setCall i call).keys = s.keys := rfl

@[simp] theorem setCall_profiles (s : System) (i : ℕ) (call : Call) :
    (s.setCall i call).profiles = s.profiles := rfl

@[simp] theorem setCall_cache (s : System) (i : ℕ) (call : Call) :
    (s.setCall i call).cache = s.cache := rfl

section Past
variable {sha256 : String → String} {cfg : AuthSettings} {Past Past' : (System → Prop) → Prop}

/-- What a call knows, where `Past` tells what has been seen so far. -/
def CallGood (sha256 : String → String) (Past : (System → Prop) → Prop) (call : Call) : Prop :=
  match call.phase with
  | .touching owner | .storing owner =>
    Past fun m => call.now ≤ m.clock ∧ ActiveFor m (sha256 call.rawKey) owner
  | .returned (.ok user) => user.ownerUserId ≠ none → ∃ owner, user = keyUser owner ∧
      Past fun m => call.now - seconds workerKeyCacheSeconds < m.clock ∧
        ActiveFor m (sha256 call.rawKey) owner
  | _ => True

/-- Every cache entry and every call goes back to a moment at which its key was active:
not before the clock reading from which its time counts. -/
structure Good (sha256 : String → String) (Past : (System → Prop) → Prop) (s : System) : Prop where
  cached : ∀ digest owner expiry, s.cache digest = some (owner, expiry) →
    Past fun m => expiry - seconds workerKeyCacheSeconds ≤ m.clock ∧ ActiveFor m digest owner
  clock : ∀ i call, s.calls i = some call → call.now ≤ s.clock
  called : ∀ i call, s.calls i = some call → CallGood sha256 Past call

/-- Whatever has been seen stays seen, and with it what follows from it. -/
def Remembers (Past Past' : (System → Prop) → Prop) : Prop :=
  ∀ Q R : System → Prop, (∀ m, Q m → R m) → Past Q → Past' R

theorem good_start (clock : Time) (keys : KeyTable) (profiles : Profiles) :
    Good sha256 Past (start clock keys profiles) := by
  constructor
  · intro digest owner expiry h
    cases h
  · intro i call h
    cases h
  · intro i call h
    cases h

theorem CallGood.mono (hpast : Remembers Past Past') {call : Call}
    (h : CallGood sha256 Past call) : CallGood sha256 Past' call := by
  obtain ⟨key, now, phase⟩ := call
  cases phase with
  | touching owner => exact hpast _ _ (fun _ => id) h
  | storing owner => exact hpast _ _ (fun _ => id) h
  | returned result =>
    cases result with
    | error e => trivial
    | ok user =>
      intro howner
      obtain ⟨owner, huser, hseen⟩ := h howner
      exact ⟨owner, huser, hpast _ _ (fun _ => id) hseen⟩
  | reading => trivial
  | missed => trivial
  | querying => trivial

theorem Good.mono (hpast : Remembers Past Past') {s : System} (h : Good sha256 Past s) :
    Good sha256 Past' s where
  cached digest owner expiry hentry :=
    hpast _ _ (fun _ => id) (h.cached digest owner expiry hentry)
  clock := h.clock
  called i call hcall := (h.called i call hcall).mono hpast

theorem Good.setCall {s : System} (h : Good sha256 Past s) {i : ℕ} {call : Call}
    (hnow : call.now ≤ s.clock) (hcall : CallGood sha256 Past call) :
    Good sha256 Past (s.setCall i call) where
  cached := h.cached
  clock j other hother := by
    rw [setCall_calls] at hother
    split at hother
    · cases hother
      exact hnow
    · exact h.clock j other hother
  called j other hother := by
    rw [setCall_calls] at hother
    split at hother
    · cases hother
      exact hcall
    · exact h.called j other hother

theorem Good.dropEntry {s : System} (h : Good sha256 Past s) (digest : String) :
    Good sha256 Past { s with cache := Authentication.dropEntry s.cache digest } where
  cached d owner expiry hentry := by
    simp only [Authentication.dropEntry, Function.update_apply] at hentry
    split at hentry
    · cases hentry
    · exact h.cached d owner expiry hentry
  clock := h.clock
  called := h.called

/-- The new entry counts from the clock reading of the call that matched. -/
theorem Good.storeEntry {s : System} (h : Good sha256 Past s) {digest : String}
    {owner : KeyOwner} {now : Time}
    (hseen : Past fun m => now ≤ m.clock ∧ ActiveFor m digest owner) :
    Good sha256 Past { s with cache := Authentication.storeEntry s.cache digest owner now } where
  cached d found expiry hentry := by
    simp only [Authentication.storeEntry, Function.update_apply] at hentry
    split at hentry
    · rename_i hd
      cases hentry
      rw [hd, Int.add_sub_cancel]
      exact hseen
    · exact h.cached d found expiry hentry
  clock := h.clock
  called := h.called

/-- A call that the environment keys decide, or that has only read the clock, claims
nothing about self-service keys. -/
theorem callGood_entered (s : System) (apiKey : Option String) :
    CallGood sha256 Past (entered sha256 cfg s apiKey) := by
  unfold entered
  split
  · cases hr : requireMachineKey sha256 cfg "worker" apiKey (workerKeyHashes cfg) with
    | error e => trivial
    | ok user => exact fun howner => absurd (requireMachineKey_owner hr) howner
  · split
    · exact fun howner => absurd rfl howner
    · trivial

theorem entered_now (s : System) (apiKey : Option String) :
    (entered sha256 cfg s apiKey).now = s.clock := by
  unfold entered
  split
  · rfl
  · split <;> rfl

theorem activeFor_of_match {s : System} {digest : String} {row : WorkerKey}
    (h : WorkerKeyService.matchKey s.profiles s.keys digest = some row) :
    ActiveFor s digest row.owner := by
  obtain ⟨hget, hhash, hactive⟩ := matchKey_spec h
  obtain ⟨hrevoked, happroved⟩ := active_iff.1 hactive
  exact ⟨row, Table.mem_of_get hget, hhash, hrevoked, happroved, rfl⟩

/-- A call that is still there when another has left. -/
theorem call_of_left {calls : ℕ → Option Call} {i j : ℕ} {call : Call}
    (h : Function.update calls i none j = some call) : calls j = some call := by
  rw [Function.update_apply] at h
  split at h
  · cases h
  · exact h

theorem good_step {s t : System} {l : Label} (hkeep : Remembers Past Past)
    (hseen : ∀ Q : System → Prop, Q s → Past Q) (h : Good sha256 Past s)
    (hstep : step sha256 cfg s l = some t) : Good sha256 Past t := by
  cases l with
  | tick elapsed =>
    cases hstep
    refine ⟨h.cached, fun i call hcall => ?_, h.called⟩
    exact Int.le_trans (h.clock i call hcall) (Int.le_add_of_nonneg_right (Int.natCast_nonneg _))
  | createKey id userId name token =>
    simp only [step] at hstep
    split at hstep <;> cases hstep
    · exact ⟨h.cached, h.clock, h.called⟩
    · exact h
  | revokeKey userId keyId =>
    simp only [step] at hstep
    split at hstep <;> cases hstep
    · exact ⟨h.cached, h.clock, h.called⟩
    · exact h
  | setStatus userId status =>
    cases hstep
    exact ⟨h.cached, h.clock, h.called⟩
  | enter i apiKey =>
    simp only [step] at hstep
    split at hstep <;> cases hstep
    exact h.setCall (Int.le_of_eq (entered_now s apiKey)) (callGood_entered s apiKey)
  | readCache i =>
    simp only [step] at hstep
    split at hstep
    · rename_i key now hcall
      have hnow : now ≤ s.clock := h.clock i _ hcall
      split at hstep <;> cases hstep
      · rename_i owner hhit
        obtain ⟨expiry, hentry, hlive⟩ := cacheHit_eq_some_iff.1 hhit
        refine h.setCall hnow fun _ => ⟨owner, rfl, ?_⟩
        refine hkeep _ _ (fun m hm => ⟨?_, hm.2⟩) (h.cached _ _ _ hentry)
        exact Int.lt_of_lt_of_le (Int.sub_lt_sub_right hlive _) hm.1
      · exact h.setCall hnow trivial
    · cases hstep
  | dropEntry i =>
    simp only [step] at hstep
    split at hstep <;> cases hstep
    rename_i key now hcall
    have hnow : now ≤ s.clock := h.clock i _ hcall
    exact (h.dropEntry _).setCall hnow trivial
  | matchKey i answers =>
    simp only [step] at hstep
    split at hstep
    · rename_i key now hcall
      have hnow : now ≤ s.clock := h.clock i _ hcall
      split at hstep
      · split at hstep <;> cases hstep
        · exact h.setCall hnow trivial
        · rename_i row hrow
          exact h.setCall hnow (hseen _ ⟨hnow, activeFor_of_match hrow⟩)
      · cases hstep
        exact h.setCall hnow trivial
    · cases hstep
  | touch i dbNow answers =>
    simp only [step] at hstep
    split at hstep
    · rename_i key now owner hcall
      have hnow : now ≤ s.clock := h.clock i _ hcall
      split at hstep <;> cases hstep
      · have htouched : Good sha256 Past
            { s with keys := WorkerKeyService.touch dbNow s.keys owner.keyId } :=
          ⟨h.cached, h.clock, h.called⟩
        have hmatched : Past fun m => now ≤ m.clock ∧ ActiveFor m (sha256 key) owner :=
          h.called i _ hcall
        exact htouched.setCall hnow hmatched
      · exact h.setCall hnow trivial
    · cases hstep
  | store i =>
    simp only [step] at hstep
    split at hstep <;> cases hstep
    rename_i key now owner hcall
    have hnow : now ≤ s.clock := h.clock i _ hcall
    have hmatched : Past fun m => now ≤ m.clock ∧ ActiveFor m (sha256 key) owner :=
      h.called i _ hcall
    refine (h.storeEntry hmatched).setCall hnow fun _ => ⟨owner, rfl, ?_⟩
    refine hkeep _ _ (fun m hm => ⟨?_, hm.2⟩) hmatched
    exact Int.lt_of_lt_of_le (Int.sub_lt_self _ (by decide)) hm.1
  | leave i =>
    simp only [step] at hstep
    split at hstep <;> cases hstep
    refine ⟨h.cached, fun j call hcall => ?_, fun j call hcall => ?_⟩
    · exact h.clock j call (call_of_left hcall)
    · exact h.called j call (call_of_left hcall)

end Past

/-- Every state of a process started afresh goes back to what the run has seen. -/
theorem good_of_run {sha256 : String → String} {cfg : AuthSettings} {clock : Time}
    {keys : KeyTable} {profiles : Profiles} {ls : List Label} {s : System}
    (hrun : exec (step sha256 cfg) (start clock keys profiles) ls = some s) :
    Good sha256 (fun Q => Sometime (step sha256 cfg) Q (start clock keys profiles) ls) s := by
  refine invariant_with_past
    (I := fun ks m => Good sha256
      (fun Q => Sometime (step sha256 cfg) Q (start clock keys profiles) ks) m)
    (good_start clock keys profiles) ?_ hrun
  intro ks m l n hm hgood hstep
  have hkept : Good sha256
      (fun Q => Sometime (step sha256 cfg) Q (start clock keys profiles) (ks ++ [l])) m :=
    hgood.mono fun Q R hQR hQ => (hQ.mono hQR).append [l]
  exact good_step (fun Q R hQR hQ => hQ.mono hQR)
    (fun Q hQ => (sometime_of_end hm hQ).append [l]) hkept hstep

section Call
variable {sha256 : String → String} {cfg : AuthSettings}

/-- The call that a label moves. -/
def callOf : Label → Option ℕ
  | .enter i _ | .readCache i | .dropEntry i | .matchKey i _ | .touch i _ _ | .store i
  | .leave i => some i
  | _ => none

/-- The steps a call takes by itself until it returns. -/
def ownStep (i : ℕ) : Label → Bool
  | .readCache j | .dropEntry j | .matchKey j _ | .touch j _ _ | .store j => j = i
  | _ => false

/-- The database answers the call whenever it is asked, and the call stays. -/
def undisturbed (i : ℕ) : Label → Bool
  | .matchKey j answers | .touch j _ answers => answers || j ≠ i
  | .leave j => j ≠ i
  | _ => true

/-- The call has not been turned down. -/
def OnTrack (call : Call) : Prop :=
  ∀ result, call.phase = .returned result → ∃ user, result = .ok user

/-- The call can go on to its end, and is then accepted. -/
def Completes (sha256 : String → String) (cfg : AuthSettings) (s : System) (i : ℕ) : Prop :=
  ∃ ks t call user, (∀ l ∈ ks, ownStep i l = true) ∧ exec (step sha256 cfg) s ks = some t ∧
    t.calls i = some call ∧ call.phase = .returned (.ok user)

/-- A step leaves the calls alone or moves the call of its label. -/
theorem step_calls {s t : System} {l : Label} (hstep : step sha256 cfg s l = some t) :
    t.calls = s.calls ∨
      ∃ i call, callOf l = some i ∧ t.calls = Function.update s.calls i call := by
  cases l with
  | tick _ | setStatus _ _ =>
    cases hstep
    exact .inl rfl
  | createKey _ _ _ _ | revokeKey _ _ =>
    simp only [step] at hstep
    split at hstep <;> cases hstep <;> exact .inl rfl
  | enter i _ | dropEntry i | store i | leave i =>
    simp only [step] at hstep
    split at hstep <;> cases hstep
    exact .inr ⟨i, _, rfl, rfl⟩
  | readCache i | touch i _ _ =>
    simp only [step] at hstep
    split at hstep
    · split at hstep <;> cases hstep <;> exact .inr ⟨i, _, rfl, rfl⟩
    · cases hstep
  | matchKey i _ =>
    simp only [step] at hstep
    split at hstep
    · split at hstep
      · split at hstep <;> cases hstep <;> exact .inr ⟨i, _, rfl, rfl⟩
      · cases hstep
        exact .inr ⟨i, _, rfl, rfl⟩
    · cases hstep

theorem calls_of_other {s t : System} {l : Label} {i : ℕ} (hl : callOf l ≠ some i)
    (hstep : step sha256 cfg s l = some t) : t.calls i = s.calls i := by
  rcases step_calls hstep with hsame | ⟨j, call, hj, hmoved⟩
  · rw [hsame]
  · have hne : i ≠ j := fun h => hl (h ▸ hj)
    rw [hmoved, Function.update_of_ne hne]

theorem step_readCache {s : System} {i : ℕ} {key : String} {now : Time}
    (h : s.calls i = some ⟨key, now, .reading⟩) :
    step sha256 cfg s (.readCache i) = some (s.setCall i
      (match cacheHit s.cache now (sha256 key) with
        | some owner => ⟨key, now, .returned (.ok (keyUser owner))⟩
        | none => ⟨key, now, .missed⟩)) := by
  simp only [step, h]
  split <;> rfl

theorem step_dropEntry {s : System} {i : ℕ} {key : String} {now : Time}
    (h : s.calls i = some ⟨key, now, .missed⟩) :
    step sha256 cfg s (.dropEntry i) =
      some ({ s with cache := dropEntry s.cache (sha256 key) }.setCall i
        ⟨key, now, .querying⟩) := by
  simp only [step, h]

theorem step_matchKey {s : System} {i : ℕ} {key : String} {now : Time}
    (h : s.calls i = some ⟨key, now, .querying⟩) (answers : Bool) :
    step sha256 cfg s (.matchKey i answers) = some (s.setCall i ⟨key, now,
      if answers then
        match matchKey s.profiles s.keys (sha256 key) with
        | none => .returned (.error invalidKey)
        | some row => .touching row.owner
      else .returned (.error keyCheckDown)⟩) := by
  simp only [step, h]
  split
  · split <;> rfl
  · rfl

theorem step_touch {s : System} {i : ℕ} {key : String} {now : Time} {owner : KeyOwner}
    (h : s.calls i = some ⟨key, now, .touching owner⟩) (dbNow : Time) :
    step sha256 cfg s (.touch i dbNow true) =
      some ({ s with keys := touch dbNow s.keys owner.keyId }.setCall i
        ⟨key, now, .storing owner⟩) := by
  simp only [step, h, if_true]

theorem step_store {s : System} {i : ℕ} {key : String} {now : Time} {owner : KeyOwner}
    (h : s.calls i = some ⟨key, now, .storing owner⟩) :
    step sha256 cfg s (.store i) =
      some ({ s with cache := storeEntry s.cache (sha256 key) owner now }.setCall i
        ⟨key, now, .returned (.ok (keyUser owner))⟩) := by
  simp only [step, h]

/-- An active key is found by the lookup. -/
theorem matchKey_of_active {s : System} {digest : String} (h : KeyActive s digest) :
    ∃ row, matchKey s.profiles s.keys digest = some row := by
  obtain ⟨owner, row, hrow, hhash, hrevoked, happroved, -⟩ := h
  rw [← Option.ne_none_iff_exists']
  intro hnone
  have hinactive := matchKey_eq_none_iff.1 hnone row hrow hhash
  rw [active_iff.2 ⟨hrevoked, happroved⟩] at hinactive
  cases hinactive

/-- While its key is active and the database answers it, a call is not turned down. -/
theorem onTrack_step {s t : System} {l : Label} {i : ℕ} {call : Call}
    (hactive : KeyActive s (sha256 call.rawKey)) (hl : undisturbed i l = true)
    (hcall : s.calls i = some call) (hok : OnTrack call)
    (hstep : step sha256 cfg s l = some t) :
    ∃ call', t.calls i = some call' ∧ call'.rawKey = call.rawKey ∧ OnTrack call' := by
  by_cases hother : callOf l = some i
  swap
  · exact ⟨call, (calls_of_other hother hstep).trans hcall, rfl, hok⟩
  obtain ⟨key, now, phase⟩ := call
  have hset : ∀ (m : System) (phase' : Phase), OnTrack ⟨key, now, phase'⟩ →
      t = m.setCall i ⟨key, now, phase'⟩ →
      ∃ call', t.calls i = some call' ∧ call'.rawKey = key ∧ OnTrack call' := by
    intro m phase' hphase ht
    exact ⟨_, by rw [ht, setCall_calls, if_pos rfl], rfl, hphase⟩
  have hmoving : ∀ phase' : Phase, (∀ result, phase' ≠ .returned result) →
      OnTrack ⟨key, now, phase'⟩ := fun phase' h result hr => absurd hr (h result)
  have haccepted : ∀ owner, OnTrack ⟨key, now, .returned (.ok (keyUser owner))⟩ := by
    intro owner result hr
    cases hr
    exact ⟨_, rfl⟩
  cases l with
  | tick elapsed => cases hother
  | setStatus userId status => cases hother
  | createKey id userId name token => cases hother
  | revokeKey userId keyId => cases hother
  | enter j apiKey =>
    cases hother
    simp [step, hcall] at hstep
  | readCache j =>
    cases hother
    cases phase with
    | reading =>
      rw [step_readCache hcall, Option.some.injEq] at hstep
      cases hhit : cacheHit s.cache now (sha256 key) with
      | some owner => exact hset s _ (haccepted owner) (by rw [← hstep, hhit])
      | none => exact hset s _ (hmoving .missed (by simp)) (by rw [← hstep, hhit])
    | _ => simp [step, hcall] at hstep
  | dropEntry j =>
    cases hother
    cases phase with
    | missed =>
      rw [step_dropEntry hcall, Option.some.injEq] at hstep
      exact hset _ _ (hmoving .querying (by simp)) hstep.symm
    | _ => simp [step, hcall] at hstep
  | matchKey j answers =>
    cases hother
    cases phase with
    | querying =>
      obtain ⟨row, hrow⟩ := matchKey_of_active hactive
      have hanswers : answers = true := by simpa [undisturbed] using hl
      rw [step_matchKey hcall, Option.some.injEq, if_pos hanswers, hrow] at hstep
      exact hset s _ (hmoving (.touching row.owner) (by simp)) hstep.symm
    | _ => simp [step, hcall] at hstep
  | touch j dbNow answers =>
    cases hother
    cases phase with
    | touching owner =>
      have hanswers : answers = true := by simpa [undisturbed] using hl
      rw [hanswers, step_touch hcall, Option.some.injEq] at hstep
      exact hset _ _ (hmoving (.storing owner) (by simp)) hstep.symm
    | _ => simp [step, hcall] at hstep
  | store j =>
    cases hother
    cases phase with
    | storing owner =>
      rw [step_store hcall, Option.some.injEq] at hstep
      exact hset _ _ (haccepted owner) hstep.symm
    | _ => simp [step, hcall] at hstep
  | leave j =>
    cases hother
    simp [undisturbed] at hl

theorem Completes.cons {s t : System} {l : Label} {i : ℕ} (hl : ownStep i l = true)
    (hstep : step sha256 cfg s l = some t) (h : Completes sha256 cfg t i) :
    Completes sha256 cfg s i := by
  obtain ⟨ks, u, call, user, hks, hrun, hcall, hphase⟩ := h
  refine ⟨l :: ks, u, call, user, ?_, by rwa [exec_cons_of_step hstep], hcall, hphase⟩
  intro k hk
  rcases List.mem_cons.1 hk with rfl | hk
  · exact hl
  · exact hks k hk

theorem completes_of_accepted {s : System} {i : ℕ} {call : Call} {user : AuthUser}
    (hcall : s.calls i = some call) (hphase : call.phase = .returned (.ok user)) :
    Completes sha256 cfg s i :=
  ⟨[], s, call, user, by simp, rfl, hcall, hphase⟩

theorem completes_of_storing {s : System} {i : ℕ} {key : String} {now : Time}
    {owner : KeyOwner} (hcall : s.calls i = some ⟨key, now, .storing owner⟩) :
    Completes sha256 cfg s i :=
  .cons (by simp [ownStep]) (step_store hcall)
    (completes_of_accepted (by rw [setCall_calls, if_pos rfl]) rfl)

theorem completes_of_touching {s : System} {i : ℕ} {key : String} {now : Time}
    {owner : KeyOwner} (hcall : s.calls i = some ⟨key, now, .touching owner⟩) :
    Completes sha256 cfg s i :=
  .cons (by simp [ownStep]) (step_touch hcall s.clock)
    (completes_of_storing (by rw [setCall_calls, if_pos rfl]))

theorem completes_of_querying {s : System} {i : ℕ} {key : String} {now : Time}
    (hactive : KeyActive s (sha256 key)) (hcall : s.calls i = some ⟨key, now, .querying⟩) :
    Completes sha256 cfg s i := by
  obtain ⟨row, hrow⟩ := matchKey_of_active hactive
  refine .cons (by simp [ownStep]) (step_matchKey hcall true) ?_
  rw [if_pos rfl, hrow]
  exact completes_of_touching (by rw [setCall_calls, if_pos rfl])

theorem completes_of_missed {s : System} {i : ℕ} {key : String} {now : Time}
    (hactive : KeyActive s (sha256 key)) (hcall : s.calls i = some ⟨key, now, .missed⟩) :
    Completes sha256 cfg s i :=
  .cons (by simp [ownStep]) (step_dropEntry hcall)
    (completes_of_querying hactive (by rw [setCall_calls, if_pos rfl]))

theorem completes_of_reading {s : System} {i : ℕ} {key : String} {now : Time}
    (hactive : KeyActive s (sha256 key)) (hcall : s.calls i = some ⟨key, now, .reading⟩) :
    Completes sha256 cfg s i := by
  refine .cons (by simp [ownStep]) (step_readCache hcall) ?_
  cases cacheHit s.cache now (sha256 key) with
  | some owner => exact completes_of_accepted (by rw [setCall_calls, if_pos rfl]) rfl
  | none => exact completes_of_missed hactive (by rw [setCall_calls, if_pos rfl])

/-- A call on its way whose key is active needs nothing but its own steps. -/
theorem completes_of_onTrack {s : System} {i : ℕ} {call : Call}
    (hactive : KeyActive s (sha256 call.rawKey)) (hcall : s.calls i = some call)
    (hok : OnTrack call) : Completes sha256 cfg s i := by
  obtain ⟨key, now, phase⟩ := call
  cases phase with
  | reading => exact completes_of_reading hactive hcall
  | missed => exact completes_of_missed hactive hcall
  | querying => exact completes_of_querying hactive hcall
  | touching owner => exact completes_of_touching hcall
  | storing owner => exact completes_of_storing hcall
  | returned result =>
    obtain ⟨user, rfl⟩ := hok result rfl
    exact completes_of_accepted hcall rfl

theorem onTrack_entered {s : System} {key : String} (hkey : key ≠ "") :
    (entered sha256 cfg s (some key)).rawKey = key ∧
      OnTrack (entered sha256 cfg s (some key)) := by
  have hsome : (some key).filter (· ≠ "") = some key := by simp [hkey]
  unfold entered
  rw [hsome]
  dsimp only
  split
  · refine ⟨rfl, fun result hr => ?_⟩
    cases hr
    exact ⟨_, rfl⟩
  · exact ⟨rfl, fun result hr => by cases hr⟩

/-- A call whose key is active from its entry on is accepted. -/
theorem accepted_of_active {s s' t : System} {i : ℕ} {key : String} {ls : List Label}
    (hkey : key ≠ "") (henter : step sha256 cfg s (.enter i (some key)) = some s')
    (hrun : exec (step sha256 cfg) s' ls = some t)
    (hactive : Throughout (step sha256 cfg) (fun m => KeyActive m (sha256 key)) s' ls)
    (hls : ∀ l ∈ ls, undisturbed i l = true) :
    ∃ call, t.calls i = some call ∧ OnTrack call ∧ Completes sha256 cfg t i := by
  have hstart : ∃ call, s'.calls i = some call ∧ call.rawKey = key ∧ OnTrack call := by
    simp only [step] at henter
    split at henter <;> cases henter
    exact ⟨_, by rw [setCall_calls, if_pos rfl], onTrack_entered hkey⟩
  have hsteps : Along (step sha256 cfg)
      (fun m l => KeyActive m (sha256 key) ∧ undisturbed i l = true) s' ls :=
    (hactive.along fun _ _ h => h).and (Along.of_forall fun l hl _ => hls l hl)
  have hend : ∃ call, t.calls i = some call ∧ call.rawKey = key ∧ OnTrack call := by
    refine invariant_along (I := fun m => ∃ call, m.calls i = some call ∧ call.rawKey = key ∧
      OnTrack call) ?_ hstart hsteps hrun
    rintro m l n ⟨call, hcall, rfl, hok⟩ ⟨hm, hl⟩ hstep
    exact onTrack_step hm hl hcall hok hstep
  obtain ⟨call, hcall, rfl, hok⟩ := hend
  exact ⟨call, hcall, hok, completes_of_onTrack (hactive.at_end hrun) hcall hok⟩

/-- A call that returns after the given steps of its own. -/
def ReturnsBy (sha256 : String → String) (cfg : AuthSettings) (s : System) (i : ℕ)
    (r : KeyState × Except HttpError AuthUser) : Prop :=
  ∃ ks t call, (∀ l ∈ ks, ownStep i l = true) ∧ exec (step sha256 cfg) s ks = some t ∧
    t.calls i = some call ∧ call.phase = .returned r.2 ∧ t.cache = r.1.cache ∧ t.keys = r.1.keys

theorem ReturnsBy.cons {s t : System} {l : Label} {i : ℕ}
    {r : KeyState × Except HttpError AuthUser} (hl : ownStep i l = true)
    (hstep : step sha256 cfg s l = some t) (h : ReturnsBy sha256 cfg t i r) :
    ReturnsBy sha256 cfg s i r := by
  obtain ⟨ks, u, call, hks, hrun, hend⟩ := h
  refine ⟨l :: ks, u, call, ?_, by rwa [exec_cons_of_step hstep], hend⟩
  intro k hk
  rcases List.mem_cons.1 hk with rfl | hk
  · exact hl
  · exact hks k hk

theorem returnsBy_of_returned {s : System} {i : ℕ} {key : String} {now : Time}
    {result : Except HttpError AuthUser}
    (hcall : s.calls i = some ⟨key, now, .returned result⟩) :
    ReturnsBy sha256 cfg s i (⟨s.cache, s.keys⟩, result) :=
  ⟨[], s, _, by simp, rfl, hcall, rfl, rfl, rfl⟩

/-- A call that meets no other one does what `require_worker` does as a whole. -/
theorem requireWorker_alone (s : System) (i : ℕ) (hfree : s.calls i = none)
    (apiKey : Option String) (dbNow : Time) (answers : Bool) :
    ∃ t, step sha256 cfg s (.enter i apiKey) = some t ∧
      ReturnsBy sha256 cfg t i (requireWorker sha256 cfg s.profiles s.clock dbNow answers
        ⟨s.cache, s.keys⟩ apiKey) := by
  refine ⟨s.setCall i (entered sha256 cfg s apiKey), by simp [step, hfree], ?_⟩
  have hin : ∀ (m : System) (call : Call), (m.setCall i call).calls i = some call :=
    fun m call => by rw [setCall_calls, if_pos rfl]
  unfold requireWorker entered
  cases apiKey.filter (· ≠ "") with
  | none => exact returnsBy_of_returned (hin _ _)
  | some key =>
    dsimp only
    cases nameForKey sha256 key (workerKeyHashes cfg) with
    | some name => exact returnsBy_of_returned (hin _ _)
    | none =>
      refine .cons (by simp [ownStep]) (step_readCache (hin _ _)) ?_
      simp only [setCall_cache, userWorkerKey]
      cases cacheHit s.cache s.clock (sha256 key) with
      | some owner => exact returnsBy_of_returned (hin _ _)
      | none =>
        refine .cons (by simp [ownStep]) (step_dropEntry (hin _ _)) ?_
        refine .cons (by simp [ownStep]) (step_matchKey (hin _ _) answers) ?_
        cases answers with
        | false => exact returnsBy_of_returned (hin _ _)
        | true =>
          simp only [if_true, setCall_profiles, setCall_keys, findActiveKey]
          cases matchKey s.profiles s.keys (sha256 key) with
          | none => exact returnsBy_of_returned (hin _ _)
          | some row =>
            refine .cons (by simp [ownStep]) (step_touch (hin _ _) dbNow) ?_
            refine .cons (by simp [ownStep]) (step_store (hin _ _)) ?_
            exact returnsBy_of_returned (hin _ _)

end Call

/-- A self-service key is accepted only if it was active less than a minute before the call
read the clock or later, and it is accepted whenever it is active during the call. -/
theorem keyChecks_current (sha256 : String → String) (cfg : AuthSettings) :
    (∀ (clock : Time) (keys : KeyTable) (profiles : Profiles) (ls : List Label) (s : System)
        (i : ℕ) (call : Call) (user : AuthUser),
      exec (step sha256 cfg) (start clock keys profiles) ls = some s →
      s.calls i = some call → call.phase = .returned (.ok user) → user.ownerUserId ≠ none →
      ∃ owner, user = keyUser owner ∧
        Sometime (step sha256 cfg)
          (fun m => call.now - seconds 60 < m.clock ∧ ActiveFor m (sha256 call.rawKey) owner)
          (start clock keys profiles) ls) ∧
    ∀ (s s' t : System) (i : ℕ) (key : String) (ls : List Label),
      key ≠ "" → step sha256 cfg s (.enter i (some key)) = some s' →
      exec (step sha256 cfg) s' ls = some t →
      Throughout (step sha256 cfg) (fun m => KeyActive m (sha256 key)) s' ls →
      (∀ l ∈ ls, undisturbed i l = true) →
      ∃ call, t.calls i = some call ∧ OnTrack call ∧ Completes sha256 cfg t i := by
  constructor
  · intro clock keys profiles ls s i call user hrun hcall hphase howner
    have hknown := (good_of_run hrun).called i call hcall
    unfold CallGood at hknown
    rw [hphase] at hknown
    exact hknown howner
  · intro s s' t i key ls hkey henter hrun hactive hls
    exact accepted_of_active hkey henter hrun hactive hls

/-- A key is created, used and revoked, and used again 59 seconds later. -/
def revokedInUse : List Label :=
  [.setStatus "user" (some "approved"), .createKey "id" "user" "Laptop" "token",
    .enter 1 (some "tqw_token"), .readCache 1, .dropEntry 1, .matchKey 1 true, .touch 1 0 true,
    .store 1, .revokeKey "user" "id", .tick 59000000, .enter 2 (some "tqw_token"), .readCache 2]

/-- The second use is accepted, and so is a first use of the key while it is active. -/
theorem keyChecks_current_revokedInUse :
    (∃ owner, Sometime (step id {})
      (fun m => seconds 59 - seconds 60 < m.clock ∧ ActiveFor m "tqw_token" owner)
      (start 0 Table.empty fun _ => none) revokedInUse) ∧
    ∃ t call, exec (step id {}) (start 0 Table.empty fun _ => none)
        (revokedInUse.take 3 ++ [.tick 5]) = some t ∧ t.calls 1 = some call ∧ OnTrack call := by
  constructor
  · obtain ⟨s, hs⟩ : ∃ s, exec (step id {}) (start 0 Table.empty fun _ => none) revokedInUse =
        some s := ⟨_, rfl⟩
    have hcall : s.calls 2 = some ⟨"tqw_token", seconds 59,
        .returned (.ok (keyUser ⟨"id", "user", "Laptop"⟩))⟩ := by
      cases hs
      rfl
    obtain ⟨owner, -, hseen⟩ := (keyChecks_current id {}).1 0 Table.empty (fun _ => none)
      revokedInUse s 2 _ (keyUser ⟨"id", "user", "Laptop"⟩) hs hcall rfl (by simp [keyUser])
    exact ⟨owner, hseen⟩
  · obtain ⟨s, hs⟩ : ∃ s, exec (step id {}) (start 0 Table.empty fun _ => none)
        (revokedInUse.take 2) = some s := ⟨_, rfl⟩
    obtain ⟨s', hs'⟩ : ∃ s', step id {} s (.enter 1 (some "tqw_token")) = some s' := by
      cases hs
      exact ⟨_, rfl⟩
    have hkey : ∀ clock, KeyActive { s' with clock := clock } "tqw_token" := by
      cases hs
      cases hs'
      exact fun _ => ⟨_, newKey id 0 "id" "user" "Laptop" "token", List.mem_singleton.2 rfl,
        rfl, rfl, rfl, rfl⟩
    obtain ⟨call, hcall, hok, -⟩ := (keyChecks_current id {}).2 s s' _ 1 "tqw_token" [.tick 5]
      (by decide) hs' rfl ⟨hkey s'.clock, hkey (s'.clock + 5)⟩ (by decide)
    refine ⟨_, call, ?_, hcall, hok⟩
    rw [show revokedInUse.take 3 ++ [.tick 5] =
      revokedInUse.take 2 ++ [.enter 1 (some "tqw_token"), .tick 5] from rfl, exec_append hs,
      exec_cons_of_step hs']
    rfl

end TaskQueue.WorkerKeyCache
