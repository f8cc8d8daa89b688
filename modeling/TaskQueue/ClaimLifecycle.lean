import Mathlib.Data.List.Count
import Mathlib.Data.List.Induction
import Mathlib.Data.List.Nodup

/-!
# The life of a leased unit of work

A unit of work is submitted, claimed under a token with a lease, taken back when the
lease has lapsed, claimed again, and settled in the end. Its history is the list of
these events. The phase reached is a total function of the history; whether each event
was lawful in the phase it met is a separate question, so that histories of a system
that breaks the rules still have a phase.

Holders, tokens, leases and times are arbitrary types; `lapsed lease now` says that a
lease has run out.
-/

namespace TaskQueue.ClaimLifecycle

universe u

variable {ω κ lam τ : Type u}

inductive Phase (ω κ lam : Type u)
  | absent
  | queued
  | claimed (holder : ω) (token : κ) (lease : lam)
  | settled

/-- `reclaimed seen now` is a sweep at `now` that read the lease `seen`. -/
inductive Event (ω κ lam τ : Type u)
  | submitted
  | claimed (holder : ω) (token : κ) (lease : lam)
  | reclaimed (seen : lam) (now : τ)
  | settled (token : κ)
  | renewed (lease : lam)

def Event.isRenewal : Event ω κ lam τ → Bool
  | .renewed _ => true
  | _ => false

def Event.isSettlement : Event ω κ lam τ → Bool
  | .settled _ => true
  | _ => false

/-- The event leaves the unit queued. -/
def Event.requeues : Event ω κ lam τ → Bool
  | .submitted => true
  | .reclaimed _ _ => true
  | _ => false

/-- The event belongs to the submission or to a claim with its sweep. -/
def Event.isClaiming : Event ω κ lam τ → Bool
  | .submitted => true
  | .claimed _ _ _ => true
  | .reclaimed _ _ => true
  | _ => false

def Event.token? : Event ω κ lam τ → Option κ
  | .claimed _ token _ => some token
  | _ => none

def next : Phase ω κ lam → Event ω κ lam τ → Phase ω κ lam
  | _, .submitted => .queued
  | _, .claimed holder token lease => .claimed holder token lease
  | _, .reclaimed _ _ => .queued
  | _, .settled _ => .settled
  | .claimed holder token _, .renewed lease => .claimed holder token lease
  | p, .renewed _ => p

/-- The phase a history leads to. -/
def after (p : Phase ω κ lam) (es : List (Event ω κ lam τ)) : Phase ω κ lam := es.foldl next p

@[simp] theorem after_nil (p : Phase ω κ lam) : after p ([] : List (Event ω κ lam τ)) = p := rfl

@[simp] theorem after_cons (p : Phase ω κ lam) (e : Event ω κ lam τ) (es) :
    after p (e :: es) = after (next p e) es := rfl

@[simp] theorem after_append (p : Phase ω κ lam) (es fs : List (Event ω κ lam τ)) :
    after p (es ++ fs) = after (after p es) fs := List.foldl_append

/-- The tokens of the claims in a history, in order. -/
def tokensOf (es : List (Event ω κ lam τ)) : List κ := es.filterMap Event.token?

@[simp] theorem tokensOf_append (es fs : List (Event ω κ lam τ)) :
    tokensOf (es ++ fs) = tokensOf es ++ tokensOf fs := List.filterMap_append

/-- How many queued occurrences a history has had. -/
def occurrences (es : List (Event ω κ lam τ)) : ℕ := es.countP Event.requeues

/-- The phase is a claim under this token. -/
def Phase.Under (token : κ) : Phase ω κ lam → Prop
  | .claimed _ k _ => k = token
  | _ => False

/-- The phase is a claim of this holder under this token. -/
def Phase.Owned (holder : ω) (token : κ) : Phase ω κ lam → Prop
  | .claimed w k _ => w = holder ∧ k = token
  | _ => False

theorem Phase.Owned.under {holder : ω} {token : κ} {p : Phase ω κ lam}
    (h : p.Owned holder token) : p.Under token := by
  cases p with
  | claimed w k lease => exact h.2
  | _ => exact h

/-- Renewals keep the holder and the token of a claim. -/
theorem owned_after_renewals {holder : ω} {token : κ} {p : Phase ω κ lam}
    {es : List (Event ω κ lam τ)} (h : p.Owned holder token) (hes : ∀ e ∈ es, e.isRenewal) :
    (after p es).Owned holder token := by
  induction es generalizing p with
  | nil => exact h
  | cons e es ih =>
    refine ih ?_ fun x hx => hes x (List.mem_cons_of_mem e hx)
    have he := hes e List.mem_cons_self
    cases e with
    | renewed lease =>
      cases p with
      | claimed w k l => exact h
      | _ => exact h.elim
    | _ => cases he

/-- A phase that is a claim under a token comes from a claim event with this token or
was such a phase at the start and has met renewals only. -/
theorem under_after {token : κ} {p : Phase ω κ lam} {es : List (Event ω κ lam τ)}
    (h : (after p es).Under token) :
    token ∈ tokensOf es ∨ (p.Under token ∧ ∀ e ∈ es, e.isRenewal) := by
  induction es using List.reverseRecOn with
  | nil => exact .inr ⟨h, nofun⟩
  | append_singleton es e ih =>
    rw [after_append, after_cons, after_nil] at h
    rw [tokensOf_append, List.mem_append]
    cases e with
    | claimed w k l =>
      cases (show k = token from h)
      exact .inl (.inr (by simp [tokensOf, Event.token?]))
    | renewed l =>
      have hu : (after p es).Under token := by
        cases hp : after p es with
        | claimed w k l' => rw [hp] at h; exact h
        | _ => rw [hp] at h; exact h.elim
      rcases ih hu with ht | ⟨hp, hes⟩
      · exact .inl (.inl ht)
      · refine .inr ⟨hp, fun x hx => ?_⟩
        rcases List.mem_append.1 hx with hx | hx
        · exact hes x hx
        · rw [List.mem_singleton.1 hx]
          rfl
    | _ => exact h.elim

theorem token_mem_of_under {token : κ} {es : List (Event ω κ lam τ)}
    (h : (after (.absent : Phase ω κ lam) es).Under token) : token ∈ tokensOf es := by
  rcases under_after h with ht | ⟨hp, -⟩
  · exact ht
  · exact hp.elim

/-- A claim seen at some point of a history is still the current one exactly when only
renewals have come since, provided its token is not claimed with again. -/
theorem owned_iff_renewals {holder : ω} {token : κ} {p : Phase ω κ lam}
    {es : List (Event ω κ lam τ)} (h : p.Owned holder token) (ht : token ∉ tokensOf es) :
    (after p es).Owned holder token ↔ ∀ e ∈ es, e.isRenewal := by
  constructor
  · intro hes
    rcases under_after hes.under with hk | ⟨-, hr⟩
    · exact absurd hk ht
    · exact hr
  · exact owned_after_renewals h

theorem under_iff_renewals {token : κ} {p : Phase ω κ lam} {es : List (Event ω κ lam τ)}
    (h : p.Under token) (ht : token ∉ tokensOf es) :
    (after p es).Under token ↔ ∀ e ∈ es, e.isRenewal := by
  constructor
  · intro hes
    rcases under_after hes with hk | ⟨-, hr⟩
    · exact absurd hk ht
    · exact hr
  · intro hes
    cases p with
    | claimed w k l =>
      cases (show k = token from h)
      exact (owned_after_renewals
        (show Phase.Owned w token (.claimed w token l) from ⟨rfl, rfl⟩) hes).under
    | _ => exact h.elim

section Lawful
variable (lapsed : lam → τ → Prop)

/-- The event is allowed in the phase it meets. Renewals are judged elsewhere. -/
def Lawful : Phase ω κ lam → Event ω κ lam τ → Prop
  | _, .renewed _ => True
  | .absent, .submitted => True
  | .queued, .claimed _ _ _ => True
  | .claimed _ _ lease, .reclaimed seen now => seen = lease ∧ lapsed seen now
  | .claimed _ token _, .settled k => k = token
  | _, _ => False

/-- Every event of the history is lawful where it happens. -/
def LawfulFrom : Phase ω κ lam → List (Event ω κ lam τ) → Prop
  | _, [] => True
  | p, e :: es => Lawful lapsed p e ∧ LawfulFrom (next p e) es

variable {lapsed}

theorem lawfulFrom_append {p : Phase ω κ lam} {es fs : List (Event ω κ lam τ)} :
    LawfulFrom lapsed p (es ++ fs) ↔
      LawfulFrom lapsed p es ∧ LawfulFrom lapsed (after p es) fs := by
  induction es generalizing p with
  | nil => simp [LawfulFrom]
  | cons e es ih => simp [LawfulFrom, ih, and_assoc]

theorem lawfulFrom_singleton {p : Phase ω κ lam} {e : Event ω κ lam τ} :
    LawfulFrom lapsed p [e] ↔ Lawful lapsed p e := by
  simp [LawfulFrom]

theorem LawfulFrom.concat {p : Phase ω κ lam} {es : List (Event ω κ lam τ)}
    {e : Event ω κ lam τ} (h : LawfulFrom lapsed p es) (he : Lawful lapsed (after p es) e) :
    LawfulFrom lapsed p (es ++ [e]) :=
  lawfulFrom_append.2 ⟨h, lawfulFrom_singleton.2 he⟩

/-- A settled unit meets nothing but renewals. -/
theorem renewals_of_settled {es : List (Event ω κ lam τ)}
    (h : LawfulFrom lapsed (.settled : Phase ω κ lam) es) : ∀ e ∈ es, e.isRenewal := by
  induction es with
  | nil => nofun
  | cons e es ih =>
    obtain ⟨he, hes⟩ := h
    cases e with
    | renewed l =>
      intro x hx
      rcases List.mem_cons.1 hx with rfl | hx
      · rfl
      · exact ih hes x hx
    | _ => exact he.elim

/-- A lawful history settles its unit at most once. -/
theorem settlements_le_one {p : Phase ω κ lam} {es : List (Event ω κ lam τ)}
    (h : LawfulFrom lapsed p es) : es.countP Event.isSettlement ≤ 1 := by
  induction es generalizing p with
  | nil => simp
  | cons e es ih =>
    obtain ⟨-, hes⟩ := h
    cases e with
    | settled k =>
      have hr := renewals_of_settled (show LawfulFrom lapsed .settled es from hes)
      have hz : es.countP Event.isSettlement = 0 := by
        rw [List.countP_eq_zero]
        intro x hx
        have hx' := hr x hx
        cases x <;> simp_all [Event.isRenewal, Event.isSettlement]
      have hc := List.countP_cons_of_pos (p := Event.isSettlement) (l := es)
        (show (Event.settled k : Event ω κ lam τ).isSettlement from rfl)
      omega
    | _ =>
      rw [List.countP_cons_of_neg (by simp [Event.isSettlement])]
      exact ih hes

/-- The token of a lawful settlement was claimed with since, or held at the start. -/
theorem token_of_settlement {p : Phase ω κ lam} {es : List (Event ω κ lam τ)} {token : κ}
    (h : LawfulFrom lapsed p es) (hs : .settled token ∈ es) :
    token ∈ tokensOf es ∨ p.Under token := by
  obtain ⟨pre, post, rfl⟩ := List.append_of_mem hs
  obtain ⟨-, hl, -⟩ := lawfulFrom_append.1 h
  have hu : (after p pre).Under token := by
    cases hp : after p pre with
    | claimed w k l =>
      rw [hp] at hl
      exact (show token = k from hl).symm
    | _ => rw [hp] at hl; exact hl.elim
  rcases under_after hu with ht | ⟨hp, -⟩
  · exact .inl (by simp [ht])
  · exact .inr hp

/-- A token that was claimed with before a reclaim never settles the unit after it. -/
theorem stale_never_settles {pre post : List (Event ω κ lam τ)} {seen : lam} {now : τ}
    {token : κ}
    (h : LawfulFrom lapsed (.absent : Phase ω κ lam) (pre ++ .reclaimed seen now :: post))
    (hnodup : (tokensOf (pre ++ .reclaimed seen now :: post)).Nodup) (ht : token ∈ tokensOf pre) :
    .settled token ∉ post := by
  intro hs
  obtain ⟨-, -, hpost⟩ := lawfulFrom_append.1 h
  rcases token_of_settlement hpost hs with hk | hu
  · rw [tokensOf_append, List.nodup_append] at hnodup
    exact hnodup.2.2 token ht token (by simpa [tokensOf, Event.token?] using hk) rfl
  · exact hu.elim

/-- From a claim, a lawful history without renewals reaches the next claim only through
a sweep that read this claim's lease and found it lapsed. -/
theorem reclaimed_before_next {w w' : ω} {k k' : κ} {l l' : lam}
    {mid post : List (Event ω κ lam τ)}
    (h : LawfulFrom lapsed (.claimed w k l) (mid ++ .claimed w' k' l' :: post))
    (hmid : ∀ e ∈ mid, e.isClaiming) :
    ∃ now, .reclaimed l now ∈ mid ∧ lapsed l now := by
  cases mid with
  | nil => exact h.1.elim
  | cons e mid =>
    obtain ⟨he, -⟩ := h
    have hc := hmid e List.mem_cons_self
    cases e with
    | reclaimed seen now =>
      obtain ⟨rfl, hl⟩ := he
      exact ⟨now, List.mem_cons_self, hl⟩
    | submitted => exact he.elim
    | claimed w'' k'' l'' => exact he.elim
    | settled k'' => cases hc
    | renewed l'' => cases hc

/-- A claim that has met more than renewals was settled under its token or taken back after
its lease had lapsed. -/
theorem settled_or_reclaimed {w : ω} {k : κ} {l : lam} {es : List (Event ω κ lam τ)}
    (h : LawfulFrom lapsed (.claimed w k l) es) (hne : ¬∀ e ∈ es, e.isRenewal) :
    .settled k ∈ es ∨ ∃ mid seen now post, es = mid ++ .reclaimed seen now :: post ∧
      (∀ e ∈ mid, e.isRenewal) ∧ lapsed seen now := by
  induction es generalizing l with
  | nil => exact absurd (by simp) hne
  | cons e es ih =>
    obtain ⟨he, hes⟩ := h
    cases e with
    | settled k' =>
      cases (show k' = k from he)
      exact .inl List.mem_cons_self
    | reclaimed seen now => exact .inr ⟨[], seen, now, es, rfl, by simp, he.2⟩
    | renewed l' =>
      have hrest : ¬∀ e ∈ es, e.isRenewal := by
        intro hall
        refine hne fun x hx => ?_
        rcases List.mem_cons.1 hx with rfl | hx
        · rfl
        · exact hall x hx
      rcases ih hes hrest with hs | ⟨mid, seen, now, post, rfl, hmid, hl⟩
      · exact .inl (List.mem_cons_of_mem _ hs)
      · refine .inr ⟨.renewed l' :: mid, seen, now, post, rfl, fun x hx => ?_, hl⟩
        rcases List.mem_cons.1 hx with rfl | hx
        · rfl
        · exact hmid x hx
    | _ => exact he.elim

theorem occurrences_lt {w : ω} {k : κ} {l : lam} {now : τ} {pre mid : List (Event ω κ lam τ)}
    (h : .reclaimed l now ∈ mid) :
    occurrences pre < occurrences (pre ++ .claimed w k l :: mid) := by
  have hpos : 0 < mid.countP Event.requeues := List.countP_pos_iff.2 ⟨_, h, rfl⟩
  rw [occurrences, occurrences, List.countP_append,
    List.countP_cons_of_neg (by simp [Event.requeues])]
  omega

/-- A unit that is claimed at the end of a history of submissions, claims and sweeps is
claimed by the last event of the history. -/
theorem claimed_last {p : Phase ω κ lam} {w : ω} {k : κ} {l : lam}
    {es : List (Event ω κ lam τ)} (h : after p es = .claimed w k l) (hne : es ≠ [])
    (hes : ∀ e ∈ es, e.isClaiming) : ∃ pre, es = pre ++ [.claimed w k l] := by
  induction es using List.reverseRecOn with
  | nil => exact absurd rfl hne
  | append_singleton pre e =>
    rw [after_append, after_cons, after_nil] at h
    have he := hes e (by simp)
    cases e with
    | claimed w' k' l' =>
      cases h
      exact ⟨pre, rfl⟩
    | submitted => cases h
    | reclaimed seen now => cases h
    | settled k' => cases he
    | renewed l' => cases he

end Lawful
end TaskQueue.ClaimLifecycle
