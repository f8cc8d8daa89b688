import TaskQueue.StepRuns
import TaskQueue.WorkerKeyService
import Mathlib.Data.List.Count
import Mathlib.Data.List.Range

/-!
# The limit on worker keys under concurrent requests

`create_key` counts the active keys of its user and then inserts a row, in two statements. The
source calls its limit a safety cap that is not race-proof. How far it can be passed depends on
how many such requests of one user are in progress at a time, and on nothing else.
-/

namespace TaskQueue.ConcurrentKeys
open KeyedTables WorkerKeyService StepRuns

/-- What a request is about to write. -/
inductive Work
  | creating (userId name : String)
  | revoking (keyId : String)
  deriving DecidableEq

/-- The request is a creation for the user that has passed its count. -/
def Work.creates (userId : String) : Work → Bool
  | .creating owner _ => owner = userId
  | .revoking _ => false

structure Call where
  id : ℕ
  work : Work
  deriving DecidableEq

structure System where
  keys : KeyTable
  calls : Table ℕ Call Call.id

inductive Label
  | count (call : ℕ) (userId name : String)
  | insert (call : ℕ) (now : Time) (id token : String)
  | loadKey (call : ℕ) (userId keyId : String)
  | commitRevoke (call : ℕ) (now : Time)
  | touch (keyId : String) (now : Time)
  | abort (call : ℕ)

/-- The request is over. -/
def System.leave (s : System) (call : ℕ) : System :=
  { s with calls := s.calls.filter fun c => c.id ≠ call }

def System.enter (s : System) (call : ℕ) (work : Work) : Option System :=
  if h : s.calls.get call = none then some { s with calls := s.calls.insertNew ⟨call, work⟩ h }
  else none

theorem revokeRow_id (now : Time) (key : WorkerKey) : (revokeRow now key).id = key.id := rfl

variable (sha256 : String → String)

def step (s : System) : Label → Option System
  /- `create_key` up to the check of its count. A refused request is over. -/
  | .count call userId name =>
    if maxActiveKeys ≤ activeKeys s.keys userId then some s
    else s.enter call (.creating userId name)
  /- The `INSERT` of `create_key`, which fails for a row that is there. -/
  | .insert call now id token =>
    match s.calls.get call with
    | some ⟨_, .creating userId name⟩ =>
      match insertKey s.keys (newKey sha256 now id userId name token) with
      | .ok keys => some { s.leave call with keys := keys }
      | .error _ => some (s.leave call)
    | _ => none
  /- `revoke_key` up to its commit. -/
  | .loadKey call userId keyId =>
    match s.keys.get keyId with
    | none => some s
    | some key =>
      if key.userId = userId ∧ key.revokedAt = none then s.enter call (.revoking keyId) else some s
  | .commitRevoke call now =>
    match s.calls.get call with
    | some ⟨_, .revoking keyId⟩ =>
      some { s.leave call with keys := s.keys.modify keyId (revokeRow now) (revokeRow_id now) }
    | _ => none
  /- The `UPDATE` of `find_active_key`. -/
  | .touch keyId now => some { s with keys := touch now s.keys keyId }
  /- The request dies or is rolled back. -/
  | .abort call => some (s.leave call)

/-- No keys and no request in progress. -/
def start : System := ⟨Table.empty, Table.empty⟩

/-- The creations for the user that have passed their count. -/
def creating (s : System) (userId : String) : ℕ :=
  s.calls.rows.countP fun call => call.work.creates userId

/-- The tables after a request that is over, whether it was accepted or not. -/
def keysAfter (keys : KeyTable) (r : Except WorkerKeyError (KeyTable × WorkerKey × String)) :
    KeyTable :=
  match r with
  | .ok (keys', _, _) => keys'
  | .error _ => keys

theorem leave_enter {s t : System} {call : ℕ} {work : Work} (h : s.enter call work = some t) :
    t.leave call = s := by
  unfold System.enter at h
  split_ifs at h with hfree
  cases h
  have hkept : s.calls.rows.filter (fun c => decide (c.id ≠ call)) = s.calls.rows :=
    List.filter_eq_self.2 fun c hc => decide_eq_true (Table.get_eq_none_iff.1 hfree c hc)
  simp only [System.leave, Table.filter, Table.insertNew, List.filter_append, hkept]
  simp

/-- When nothing comes between its two statements, a creation does what `create_key` does. -/
theorem create_alone {s : System} {call : ℕ} (hfree : s.calls.get call = none) (now : Time)
    (id token userId name : String) :
    ∃ ls, exec (step sha256) s ls = some { s with
      keys := keysAfter s.keys (createKey sha256 now id token s.keys userId name) } := by
  by_cases hfull : maxActiveKeys ≤ activeKeys s.keys userId
  · refine ⟨[.count call userId name], exec_cons_of_step ?_ []⟩
    simp only [step, if_pos hfull, createKey]
    rfl
  · let t : System := { s with
      calls := s.calls.insertNew ⟨call, .creating userId name⟩ hfree }
    have ht : s.enter call (.creating userId name) = some t := dif_pos hfree
    have hcount : step sha256 s (.count call userId name) = some t := by
      simp only [step, if_neg hfull, ht]
    have hcall : t.calls.get call = some ⟨call, .creating userId name⟩ := by
      simp only [t]
      rw [Table.get_insertNew, if_pos rfl]
    refine ⟨[.count call userId name, .insert call now id token], exec_two hcount ?_⟩
    simp only [step, hcall, leave_enter ht, createKey, if_neg hfull]
    have hkeys : t.keys = s.keys := rfl
    rw [hkeys]
    cases insertKey s.keys (newKey sha256 now id userId name token) with
    | error e => rfl
    | ok keys => rfl

section Counting
variable {s t : System} (userId : String)

theorem creating_enter {call : ℕ} {work : Work} (h : s.enter call work = some t) :
    t.keys = s.keys ∧
      creating t userId = creating s userId + (if work.creates userId then 1 else 0) := by
  unfold System.enter at h
  split_ifs at h
  cases h
  refine ⟨rfl, ?_⟩
  simp only [creating, Table.insertNew, List.countP_append, List.countP_singleton]

theorem creating_leave_le (call : ℕ) : creating (s.leave call) userId ≤ creating s userId :=
  (List.filter_sublist (l := s.calls.rows)).countP_le

/-- A creation that leaves is no longer counted. -/
theorem creating_leave {call : ℕ} {work : Work} (hg : s.calls.get call = some ⟨call, work⟩) :
    creating (s.leave call) userId + (if work.creates userId then 1 else 0) =
      creating s userId := by
  have hperm := (Table.perm_cons_filter hg).countP_eq fun c => c.work.creates userId
  rw [List.countP_cons] at hperm
  exact hperm.symm

theorem activeKeys_insertKey {keys keys' : KeyTable} {key : WorkerKey}
    (h : insertKey keys key = .ok keys') :
    activeKeys keys' userId = activeKeys keys userId +
      (if key.userId = userId ∧ key.revokedAt = none then 1 else 0) := by
  obtain ⟨hnew, rfl⟩ := insertKey_ok h
  simp only [activeKeys, Table.insertNew, List.countP_append, List.countP_singleton,
    Bool.and_eq_true, decide_eq_true_eq, Option.isNone_iff_eq_none]

/-- A rewriting that makes no key active makes no more of them active. -/
theorem activeKeys_modify_le {keys : KeyTable} {keyId : String} {f : WorkerKey → WorkerKey} {hf}
    (h : ∀ key, (f key).userId = key.userId ∧ ((f key).revokedAt = none → key.revokedAt = none)) :
    activeKeys (keys.modify keyId f hf) userId ≤ activeKeys keys userId := by
  simp only [activeKeys, Table.modify, Table.rows_mapRows, List.countP_map]
  refine List.countP_mono_left fun key _ hkey => ?_
  simp only [Function.comp_apply, Bool.and_eq_true, decide_eq_true_eq,
    Option.isNone_iff_eq_none] at hkey ⊢
  split at hkey
  · exact ⟨(h key).1.symm.trans hkey.1, (h key).2 hkey.2⟩
  · exact hkey

end Counting

section Bound
variable {sha256 : String → String} {s t : System} {l : Label} {userId : String}

/-- Each step leaves the active keys and the creations under way within the limit, if a creation
enters below it. -/
theorem step_within (hstep : step sha256 s l = some t) {n : ℕ}
    (hs : activeKeys s.keys userId + creating s userId ≤ maxActiveKeys - 1 + n)
    (ht : creating t userId ≤ n) :
    activeKeys t.keys userId + creating t userId ≤ maxActiveKeys - 1 + n := by
  have entered {call : ℕ} {work : Work} (h : s.enter call work = some t)
      (hw : work.creates userId = true → activeKeys s.keys userId < maxActiveKeys) :
      activeKeys t.keys userId + creating t userId ≤ maxActiveKeys - 1 + n := by
    obtain ⟨hkeys, hcount⟩ := creating_enter userId h
    rw [hkeys]
    by_cases hc : work.creates userId = true
    · have hbelow := hw hc
      omega
    · rw [if_neg hc] at hcount
      omega
  have left (call : ℕ) : activeKeys (s.leave call).keys userId + creating (s.leave call) userId ≤
      maxActiveKeys - 1 + n := by
    have hle : creating (s.leave call) userId ≤ creating s userId := creating_leave_le userId call
    have hsame : (s.leave call).keys = s.keys := rfl
    rw [hsame]
    omega
  cases l with
  | count call owner name =>
    simp only [step] at hstep
    split_ifs at hstep with hfull
    · cases hstep
      exact hs
    · refine entered hstep fun hc => ?_
      simp only [Work.creates, decide_eq_true_eq] at hc
      rw [← hc]
      exact not_le.1 hfull
  | insert call now id token =>
    simp only [step] at hstep
    split at hstep
    next c owner name hg =>
      have hid : c = call := Table.key_of_get hg
      subst hid
      have hcount := creating_leave userId hg
      split at hstep
      next keys hkeys =>
        cases hstep
        have hactive := activeKeys_insertKey userId hkeys
        simp only [newKey, and_true] at hactive
        simp only [Work.creates, decide_eq_true_eq] at hcount
        have hsame : creating { s.leave c with keys := keys } userId =
            creating (s.leave c) userId := rfl
        rw [hsame, hactive]
        omega
      next =>
        cases hstep
        exact left c
    next => cases hstep
  | loadKey call owner keyId =>
    simp only [step] at hstep
    cases hg : s.keys.get keyId with
    | none =>
      simp only [hg] at hstep
      cases hstep
      exact hs
    | some key =>
      simp only [hg] at hstep
      split_ifs at hstep with hload
      · exact entered hstep fun hc => absurd hc Bool.false_ne_true
      · cases hstep
        exact hs
  | commitRevoke call now =>
    simp only [step] at hstep
    split at hstep
    next c keyId hg =>
      cases hstep
      have hle : activeKeys (s.keys.modify keyId (revokeRow now) (revokeRow_id now)) userId ≤
          activeKeys s.keys userId :=
        activeKeys_modify_le userId fun key => ⟨rfl, fun h => absurd h (Option.some_ne_none now)⟩
      exact (Nat.add_le_add_right hle _).trans (left call)
    next => cases hstep
  | touch keyId now =>
    cases hstep
    have hle : activeKeys (touch now s.keys keyId) userId ≤ activeKeys s.keys userId := by
      refine activeKeys_modify_le userId fun key => ?_
      obtain ⟨used, hused⟩ := touchRow_eq now key
      rw [hused]
      exact ⟨rfl, id⟩
    exact (Nat.add_le_add_right hle _).trans hs
  | abort call =>
    cases hstep
    exact left call

/-- With at most `n` creations of a user under way at a time, the user has at most `n` keys above
one less than the limit. -/
theorem run_within {ls : List Label} {n : ℕ} (hrun : exec (step sha256) start ls = some t)
    (hfew : Throughout (step sha256) (fun s => creating s userId ≤ n) start ls) :
    activeKeys t.keys userId + creating t userId ≤ maxActiveKeys - 1 + n :=
  invariant_throughout (fun _ _ _ hs ht hstep => step_within hstep hs ht) (Nat.zero_le _) hfew hrun

end Bound

section Attained
variable (sha256 : String → String) (token : ℕ → String) (userId : String)

/-- The key of the creation with this number; its token serves as its id. -/
def keyOf (i : ℕ) : WorkerKey := newKey sha256 0 (token i) userId "key" (token i)

/-- The first keys have different hashes. -/
def Distinct (most : ℕ) : Prop :=
  ∀ i < most, ∀ j < most, sha256 (keyPrefix ++ token i) = sha256 (keyPrefix ++ token j) → i = j

variable {most : ℕ} (hdistinct : Distinct sha256 token most)

include hdistinct in
theorem token_inj {i j : ℕ} (hi : i < most) (hj : j < most) (h : token i = token j) : i = j :=
  hdistinct i hi j hj (congrArg (fun t => sha256 (keyPrefix ++ t)) h)

/-- Of the creations that have passed their count the first have inserted their key. -/
def midway (inserted counted : ℕ) : System where
  keys := ⟨(List.range (min inserted most)).map (keyOf sha256 token userId), by
    rw [List.map_map]
    refine List.Nodup.map_on (fun i hi j hj h => ?_) List.nodup_range
    rw [List.mem_range] at hi hj
    exact token_inj sha256 token hdistinct (by omega) (by omega) h⟩
  calls := ⟨(List.range' inserted (counted - inserted)).map fun i => ⟨i, .creating userId "key"⟩, by
    rw [List.map_map]
    simpa [Function.comp_def] using List.nodup_range'⟩

variable {sha256 token userId hdistinct} {m n k : ℕ}

theorem activeKeys_midway (hm : m ≤ most) :
    activeKeys (midway sha256 token userId hdistinct m n).keys userId = m := by
  have hall : ∀ i ∈ List.range m, ((fun key : WorkerKey => key.userId = userId &&
      key.revokedAt.isNone) ∘ keyOf sha256 token userId) i = true := by
    intro i _
    simp [keyOf, newKey]
  have hrows : (midway sha256 token userId hdistinct m n).keys.rows =
      (List.range m).map (keyOf sha256 token userId) := by
    simp only [midway, min_eq_left hm]
  rw [activeKeys, hrows, List.countP_map, List.countP_eq_length.2 hall, List.length_range]

theorem creating_midway : creating (midway sha256 token userId hdistinct m n) userId = n - m := by
  have hall : ∀ i ∈ List.range' m (n - m), ((fun call : Call => call.work.creates userId) ∘
      fun i => ⟨i, .creating userId "key"⟩) i = true := by
    intro i _
    simp [Work.creates]
  rw [creating, midway, List.countP_map, List.countP_eq_length.2 hall, List.length_range']

/-- Another creation passes its count. -/
theorem count_midway (hmn : m ≤ n) (hm : m < maxActiveKeys) (hmost : m ≤ most) :
    step sha256 (midway sha256 token userId hdistinct m n) (.count n userId "key") =
      some (midway sha256 token userId hdistinct m (n + 1)) := by
  have hnew : (midway sha256 token userId hdistinct m n).calls.get n = none := by
    rw [Table.get_eq_none_iff]
    simp only [midway, List.mem_map, List.mem_range'_1]
    rintro call ⟨i, hi, rfl⟩
    simp only
    omega
  have hrange : List.range' m (n + 1 - m) = List.range' m (n - m) ++ [n] := by
    rw [Nat.sub_add_comm hmn, List.range'_concat]
    simp [Nat.add_sub_cancel' hmn]
  simp only [step, activeKeys_midway hmost, if_neg (not_le.2 hm), System.enter, dif_pos hnew]
  simp only [midway, Table.insertNew, hrange, List.map_append, List.map_cons, List.map_nil]

/-- The first of the creations inserts its key. -/
theorem insert_midway (hmn : m < n) (hmost : m < most) :
    step sha256 (midway sha256 token userId hdistinct m n) (.insert m 0 (token m) (token m)) =
      some (midway sha256 token userId hdistinct (m + 1) n) := by
  have hcall : (midway sha256 token userId hdistinct m n).calls.get m =
      some ⟨m, .creating userId "key"⟩ := by
    rw [Table.get_eq_some_iff]
    refine ⟨List.mem_map.2 ⟨m, ?_, rfl⟩, rfl⟩
    rw [List.mem_range'_1]
    omega
  have hkeys : insertKey (midway sha256 token userId hdistinct m n).keys
      (newKey sha256 0 (token m) userId "key" (token m)) =
        .ok (midway sha256 token userId hdistinct (m + 1) n).keys := by
    have hid : (midway sha256 token userId hdistinct m n).keys.get
        (newKey sha256 0 (token m) userId "key" (token m)).id = none := by
      rw [Table.get_eq_none_iff]
      simp only [midway, List.mem_map, List.mem_range, min_eq_left hmost.le]
      rintro key ⟨i, hi, rfl⟩ heq
      exact hi.ne (token_inj sha256 token hdistinct (hi.trans hmost) hmost heq)
    have hhash : ¬((midway sha256 token userId hdistinct m n).keys.rows.any fun other =>
        other.keyHash = (newKey sha256 0 (token m) userId "key" (token m)).keyHash) = true := by
      simp only [midway, List.any_map, List.any_eq_true, List.mem_range, Function.comp_apply,
        decide_eq_true_eq, min_eq_left hmost.le]
      rintro ⟨i, hi, heq⟩
      exact hi.ne (hdistinct i (hi.trans hmost) m hmost heq)
    unfold insertKey
    rw [dif_pos hid, if_neg hhash]
    have hlonger : min (m + 1) most = m + 1 := min_eq_left hmost
    simp only [midway, Table.insertNew, min_eq_left hmost.le, hlonger, List.range_succ,
      List.map_append, List.map_cons, List.map_nil]
    rfl
  have hrange : (List.range' m (n - m)).filter (fun i => decide (i ≠ m)) =
      List.range' (m + 1) (n - (m + 1)) := by
    obtain ⟨d, rfl⟩ := Nat.exists_eq_add_of_lt hmn
    have hlength : m + d + 1 - m = d + 1 := by omega
    have hrest : m + d + 1 - (m + 1) = d := by omega
    rw [hlength, hrest, List.range'_succ, List.filter_cons_of_neg (by simp)]
    refine List.filter_eq_self.2 fun i hi => ?_
    rw [List.mem_range'_1] at hi
    exact decide_eq_true (by omega)
  simp only [step, hcall, hkeys]
  simp only [System.leave, midway, Table.filter, List.filter_map, Function.comp_def, hrange]

/-- The creations go on, never more than `k` at a time. -/
def Leads (sha256 : String → String) (userId : String) (k : ℕ) (s t : System) : Prop :=
  ∃ ls, exec (step sha256) s ls = some t ∧
    Throughout (step sha256) (fun s => creating s userId ≤ k) s ls

theorem Leads.refl {s : System} (hs : creating s userId ≤ k) : Leads sha256 userId k s s :=
  ⟨[], rfl, hs⟩

theorem Leads.cons {s t u : System} {l : Label} (hs : creating s userId ≤ k)
    (hstep : step sha256 s l = some t) (h : Leads sha256 userId k t u) :
    Leads sha256 userId k s u := by
  obtain ⟨ls, hrun, hfew⟩ := h
  exact ⟨l :: ls, by rwa [exec_cons_of_step hstep],
    (throughout_cons_of_step hstep ls).2 ⟨hs, hfew⟩⟩

/-- The last `j` of them insert their keys. -/
theorem inserts_lead {u : System} {j : ℕ} (hmost : n ≤ most) (hj : j ≤ k)
    (h : Leads sha256 userId k (midway sha256 token userId hdistinct n n) u) (hjn : j ≤ n) :
    Leads sha256 userId k (midway sha256 token userId hdistinct (n - j) n) u := by
  induction j with
  | zero => exact h
  | succ j ih =>
    have hnext : n - (j + 1) + 1 = n - j := by omega
    refine .cons ?_ (insert_midway (by omega) (by omega)) (hnext ▸ ih (by omega) (by omega))
    rw [creating_midway]
    omega

/-- `j` more of them pass their count. -/
theorem counts_lead {u : System} {j : ℕ} (hm : m < maxActiveKeys) (hmost : m ≤ most)
    (hj : j ≤ k) (h : Leads sha256 userId k (midway sha256 token userId hdistinct m (m + k)) u) :
    Leads sha256 userId k (midway sha256 token userId hdistinct m (m + k - j)) u := by
  induction j with
  | zero => exact h
  | succ j ih =>
    have hnext : m + k - (j + 1) + 1 = m + k - j := by omega
    refine .cons ?_ (count_midway (by omega) hm hmost) (hnext ▸ ih (by omega))
    rw [creating_midway]
    omega

/-- Creations one after the other. -/
theorem creations_lead {u : System} (hk : 0 < k) (hm : m ≤ maxActiveKeys) (hmost : m ≤ most)
    (h : Leads sha256 userId k (midway sha256 token userId hdistinct m m) u) :
    Leads sha256 userId k (midway sha256 token userId hdistinct 0 0) u := by
  induction m with
  | zero => exact h
  | succ m ih =>
    refine ih (by omega) (by omega) (.cons ?_ (count_midway le_rfl hm (by omega))
      (.cons ?_ (insert_midway (Nat.lt_succ_self m) hmost) h))
    · rw [creating_midway]
      omega
    · rw [creating_midway]
      omega

end Attained

/-- If a user never has more than `k` creations under way at a time, the user never has more than
`k` active keys above one less than the limit; and so many can come about, as long as their
hashes are different. -/
theorem active_keys_bounded (sha256 : String → String) (userId : String) (k : ℕ) :
    (∀ ls t, exec (step sha256) start ls = some t →
      Throughout (step sha256) (fun s => creating s userId ≤ k) start ls →
      activeKeys t.keys userId ≤ maxActiveKeys - 1 + k) ∧
    (0 < k → ∀ token, Distinct sha256 token (maxActiveKeys - 1 + k) →
      ∃ ls t, exec (step sha256) start ls = some t ∧
        Throughout (step sha256) (fun s => creating s userId ≤ k) start ls ∧
        activeKeys t.keys userId = maxActiveKeys - 1 + k) := by
  constructor
  · intro ls t hrun hfew
    have h := run_within hrun hfew
    omega
  · intro hk token hdistinct
    let full := midway sha256 token userId hdistinct (maxActiveKeys - 1 + k)
      (maxActiveKeys - 1 + k)
    have hfull : creating full userId ≤ k := by
      rw [creating_midway]
      omega
    have hinserts : Leads sha256 userId k (midway sha256 token userId hdistinct
        (maxActiveKeys - 1) (maxActiveKeys - 1 + k)) full := by
      have h := inserts_lead le_rfl (le_refl k) (Leads.refl hfull) (by omega)
      rwa [Nat.add_sub_cancel] at h
    have hcounts : Leads sha256 userId k (midway sha256 token userId hdistinct
        (maxActiveKeys - 1) (maxActiveKeys - 1)) full := by
      have h := counts_lead (by decide) (by omega) (le_refl k) hinserts
      rwa [Nat.add_sub_cancel] at h
    obtain ⟨ls, hrun, hfew⟩ := creations_lead hk (by decide) (by omega) hcounts
    exact ⟨ls, full, hrun, hfew, activeKeys_midway le_rfl⟩

/-- The texts of eleven keys behind their prefix, and their hashes. -/
def drawnKeys : List (String × String) :=
  [("first", "c4a2c8e4891c82961e2bf1410359edaec84d750ae700417df27edbe050043d04"),
    ("second", "75b60eb72395e189a0737bb6d2f7a23fcbb9da36e38164e40fdeda213c42b167"),
    ("third", "5073a15feb28b68082bc9453698e40ad19fb927c5414c0d580e9df62239aac66"),
    ("fourth", "fc1ba93ebca599fdfbdd32256eb9a511d703db75621ec40a162f06f70ceee7f8"),
    ("fifth", "ba21aade6905f5872be7d60d4a3171155c878553e8803fb0068714386eb85516"),
    ("sixth", "337e7e73b1c07c2d3be5c9609a8c79bde664948c4fa0586bd2e19621583a66ad"),
    ("seventh", "7f7a259fa5b0d5ec797568e831cb28be1352262d57853c2df16a24ccf3516635"),
    ("eighth", "a000e0bdb94b28406c8e3a6122deab01383e1513b217c9f3ef8661b848eb7059"),
    ("ninth", "ebf7eeb963a879b7f92ad4e244d5a1c9cdea6e52d90897e912ff37ce5dae2d94"),
    ("tenth", "fe72c68bb33840498ee6a180317c0d33caacfbee54be6b3a48a8b5df0483c9d2"),
    ("eleventh", "6c24a880c196afe6782a4c26a85955c1d93a3592f8d3ee61776f825db192cbcf")]

def drawnToken (i : ℕ) : String := (drawnKeys.map Prod.fst).getD i ""

/-- SHA-256 on these keys. -/
def drawnHash (key : String) : String :=
  match drawnKeys.find? fun entry => keyPrefix ++ entry.1 = key with
  | some entry => entry.2
  | none => ""

theorem distinct_drawn : Distinct drawnHash drawnToken 11 := by
  unfold Distinct
  decide +kernel

/-- Two creations at a time. -/
theorem active_keys_bounded_two :
    (∀ ls t, exec (step drawnHash) start ls = some t →
      Throughout (step drawnHash) (fun s => creating s "user-1" ≤ 2) start ls →
      activeKeys t.keys "user-1" ≤ 11) ∧
    ∃ ls t, exec (step drawnHash) start ls = some t ∧
      Throughout (step drawnHash) (fun s => creating s "user-1" ≤ 2) start ls ∧
      activeKeys t.keys "user-1" = 11 := by
  obtain ⟨hbound, hattained⟩ := active_keys_bounded drawnHash "user-1" 2
  exact ⟨hbound, hattained (by decide) drawnToken distinct_drawn⟩

end TaskQueue.ConcurrentKeys
