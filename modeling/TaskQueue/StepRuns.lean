import Mathlib.Data.List.Induction

/-!
# Runs of executable step functions

A system is a partial function from a state and a label to the next state. A run
executes a list of labels. The predicates below speak about a whole run: one about
each step it takes, the others about the states it passes through.
-/

namespace TaskQueue.StepRuns

universe u v

variable {State : Type u} {Label : Type v}

/-- Execute the labels in order; `none` as soon as one of them is not enabled. -/
def exec (step : State → Label → Option State) : State → List Label → Option State
  | s, [] => some s
  | s, l :: ls => match step s l with
    | none => none
    | some t => exec step t ls

/-- `P` holds at every step the run takes. -/
def Along (step : State → Label → Option State) (P : State → Label → Prop) :
    State → List Label → Prop
  | _, [] => True
  | s, l :: ls => match step s l with
    | none => True
    | some t => P s l ∧ Along step P t ls

/-- `Q` holds in every state the run passes through, the first one included. -/
def Throughout (step : State → Label → Option State) (Q : State → Prop) :
    State → List Label → Prop
  | s, [] => Q s
  | s, l :: ls => Q s ∧ match step s l with
    | none => True
    | some t => Throughout step Q t ls

/-- The run passes through a state in which `Q` holds. -/
def Sometime (step : State → Label → Option State) (Q : State → Prop) :
    State → List Label → Prop
  | s, [] => Q s
  | s, l :: ls => Q s ∨ match step s l with
    | none => False
    | some t => Sometime step Q t ls

variable {step : State → Label → Option State}

@[simp] theorem exec_nil (s : State) : exec step s [] = some s := rfl

theorem exec_cons_of_step {s t : State} {l : Label} (h : step s l = some t)
    (ls : List Label) : exec step s (l :: ls) = exec step t ls := by
  simp [exec, h]

theorem exec_two {s m t : State} {l k : Label} (hl : step s l = some m) (hk : step m k = some t) :
    exec step s [l, k] = some t := by
  rw [exec_cons_of_step hl, exec_cons_of_step hk, exec_nil]

/-- The first step of a nonempty run and the rest of it. -/
theorem exec_cons_inv {s u : State} {l : Label} {ls : List Label}
    (h : exec step s (l :: ls) = some u) :
    ∃ t, step s l = some t ∧ exec step t ls = some u := by
  cases hs : step s l with
  | none => simp [exec, hs] at h
  | some t => exact ⟨t, rfl, by simpa [exec, hs] using h⟩

theorem exec_append {s t : State} {ls ks : List Label}
    (h : exec step s ls = some t) : exec step s (ls ++ ks) = exec step t ks := by
  induction ls generalizing s with
  | nil => cases h; rfl
  | cons l ls ih =>
    obtain ⟨m, hm, hr⟩ := exec_cons_inv h
    rw [List.cons_append, exec_cons_of_step hm]
    exact ih hr

/-- A run over two lists of labels stops between them. -/
theorem exec_append_inv {s u : State} {ls ks : List Label}
    (h : exec step s (ls ++ ks) = some u) :
    ∃ t, exec step s ls = some t ∧ exec step t ks = some u := by
  induction ls generalizing s with
  | nil => exact ⟨s, rfl, h⟩
  | cons l ls ih =>
    obtain ⟨m, hm, hr⟩ := exec_cons_inv h
    obtain ⟨t, ht, hu⟩ := ih hr
    exact ⟨t, by rwa [exec_cons_of_step hm], hu⟩

theorem along_cons_of_step {P : State → Label → Prop} {s t : State} {l : Label}
    (h : step s l = some t) (ls : List Label) :
    Along step P s (l :: ls) ↔ P s l ∧ Along step P t ls := by
  simp [Along, h]

theorem throughout_cons_of_step {Q : State → Prop} {s t : State} {l : Label}
    (h : step s l = some t) (ls : List Label) :
    Throughout step Q s (l :: ls) ↔ Q s ∧ Throughout step Q t ls := by
  simp [Throughout, h]

theorem Throughout.head {Q : State → Prop} {s : State} {ls : List Label}
    (h : Throughout step Q s ls) : Q s := by
  cases ls with
  | nil => exact h
  | cons l ls => exact h.1

theorem Throughout.at_end {Q : State → Prop} {s t : State} {ls : List Label}
    (h : Throughout step Q s ls) (hrun : exec step s ls = some t) : Q t := by
  induction ls generalizing s with
  | nil => cases hrun; exact h
  | cons l ls ih =>
    obtain ⟨m, hm, hr⟩ := exec_cons_inv hrun
    exact ih ((throughout_cons_of_step hm ls).1 h).2 hr

/-- What every step keeps, provided it meets `P`, holds at the end of a run whose
steps all meet `P`. -/
theorem invariant_along {I : State → Prop} {P : State → Label → Prop}
    (hstep : ∀ s l t, I s → P s l → step s l = some t → I t)
    {s t : State} {ls : List Label} (hs : I s) (hP : Along step P s ls)
    (hrun : exec step s ls = some t) : I t := by
  induction ls generalizing s with
  | nil => cases hrun; exact hs
  | cons l ls ih =>
    obtain ⟨m, hm, hr⟩ := exec_cons_inv hrun
    obtain ⟨hl, hls⟩ := (along_cons_of_step hm ls).1 hP
    exact ih (hstep s l m hs hl hm) hls hr

/-- What every step keeps, provided it meets `P`, holds all along such a run. -/
theorem throughout_of_along {I : State → Prop} {P : State → Label → Prop}
    (hstep : ∀ s l t, I s → P s l → step s l = some t → I t)
    {s : State} {ls : List Label} (hs : I s) (hP : Along step P s ls) :
    Throughout step I s ls := by
  induction ls generalizing s with
  | nil => exact hs
  | cons l ls ih =>
    cases hm : step s l with
    | none => simp [Throughout, hm, hs]
    | some t =>
      obtain ⟨hl, hls⟩ := (along_cons_of_step hm ls).1 hP
      exact (throughout_cons_of_step hm ls).2 ⟨hs, ih (hstep s l t hs hl hm) hls⟩

theorem Throughout.mono {Q R : State → Prop} (hQR : ∀ s, Q s → R s) {s : State}
    {ls : List Label} (h : Throughout step Q s ls) : Throughout step R s ls := by
  induction ls generalizing s with
  | nil => exact hQR s h
  | cons l ls ih =>
    cases hm : step s l with
    | none => simp [Throughout, hm, hQR s h.head]
    | some t =>
      obtain ⟨hs, hls⟩ := (throughout_cons_of_step hm ls).1 h
      exact (throughout_cons_of_step hm ls).2 ⟨hQR s hs, ih hls⟩

theorem Throughout.and {Q R : State → Prop} {s : State} {ls : List Label}
    (hQ : Throughout step Q s ls) (hR : Throughout step R s ls) :
    Throughout step (fun s => Q s ∧ R s) s ls := by
  induction ls generalizing s with
  | nil => exact ⟨hQ, hR⟩
  | cons l ls ih =>
    cases hm : step s l with
    | none => simp [Throughout, hm, hQ.head, hR.head]
    | some t =>
      obtain ⟨hs, hls⟩ := (throughout_cons_of_step hm ls).1 hQ
      obtain ⟨hs', hls'⟩ := (throughout_cons_of_step hm ls).1 hR
      exact (throughout_cons_of_step hm ls).2 ⟨⟨hs, hs'⟩, ih hls hls'⟩

/-- What every step keeps holds at the end of every run. -/
theorem invariant {I : State → Prop} (hstep : ∀ s l t, I s → step s l = some t → I t)
    {s t : State} {ls : List Label} (hs : I s) (hrun : exec step s ls = some t) : I t := by
  induction ls generalizing s with
  | nil => cases hrun; exact hs
  | cons l ls ih =>
    obtain ⟨m, hm, hr⟩ := exec_cons_inv hrun
    exact ih (hstep s l m hs hm) hr

/-- What a step keeps if it leads to a state with `Q` holds at the end of a run through such
states. -/
theorem invariant_throughout {I Q : State → Prop}
    (hstep : ∀ s l t, I s → Q t → step s l = some t → I t) {s t : State} {ls : List Label}
    (hs : I s) (hQ : Throughout step Q s ls) (hrun : exec step s ls = some t) : I t := by
  induction ls generalizing s with
  | nil => cases hrun; exact hs
  | cons l ls ih =>
    obtain ⟨m, hm, hr⟩ := exec_cons_inv hrun
    have hrest := ((throughout_cons_of_step hm ls).1 hQ).2
    exact ih (hstep s l m hs hrest.head hm) hrest hr

/-- A step condition that follows from another under an invariant of the steps that meet it
follows along a run. -/
theorem Along.imp {I : State → Prop} {P Q : State → Label → Prop}
    (hstep : ∀ s l t, I s → P s l → step s l = some t → I t)
    (hPQ : ∀ s l t, I s → P s l → step s l = some t → Q s l)
    {s : State} (hs : I s) {ls : List Label} (h : Along step P s ls) : Along step Q s ls := by
  induction ls generalizing s with
  | nil => trivial
  | cons l ls ih =>
    cases hm : step s l with
    | none => simp [Along, hm]
    | some t =>
      obtain ⟨hl, hls⟩ := (along_cons_of_step hm ls).1 h
      exact (along_cons_of_step hm ls).2 ⟨hPQ s l t hs hl hm, ih (hstep s l t hs hl hm) hls⟩

/-- Two step conditions that agree under an invariant agree along every run. -/
theorem along_congr {I : State → Prop} {P Q : State → Label → Prop}
    (hstep : ∀ s l t, I s → step s l = some t → I t)
    (hPQ : ∀ s l t, I s → step s l = some t → (P s l ↔ Q s l))
    {s : State} (hs : I s) (ls : List Label) :
    Along step P s ls ↔ Along step Q s ls :=
  ⟨Along.imp (fun s l t hs _ => hstep s l t hs) (fun s l t hs hP hm => (hPQ s l t hs hm).1 hP) hs,
    Along.imp (fun s l t hs _ => hstep s l t hs) (fun s l t hs hQ hm => (hPQ s l t hs hm).2 hQ) hs⟩

/-- An invariant that a step keeps if it meets `P`, while no other step leads to a good state:
then a run stays good exactly when all its steps meet `P`. -/
theorem throughout_iff_along_of_invariant {I Q : State → Prop} {P : State → Label → Prop}
    (hgood : ∀ s, I s → Q s) (hkeep : ∀ s l t, I s → P s l → step s l = some t → I t)
    (hmeet : ∀ s l t, I s → step s l = some t → Q t → P s l)
    {s : State} (hs : I s) (ls : List Label) :
    Throughout step Q s ls ↔ Along step P s ls := by
  induction ls generalizing s with
  | nil => exact iff_of_true (hgood s hs) trivial
  | cons l ls ih =>
    cases hm : step s l with
    | none => simp [Throughout, Along, hm, hgood s hs]
    | some t =>
      rw [throughout_cons_of_step hm, along_cons_of_step hm]
      constructor
      · intro h
        obtain ⟨-, ht⟩ := h
        have hl := hmeet s l t hs hm ht.head
        exact ⟨hl, (ih (hkeep s l t hs hl hm)).1 ht⟩
      · intro h
        obtain ⟨hl, hls⟩ := h
        exact ⟨hgood s hs, (ih (hkeep s l t hs hl hm)).2 hls⟩

/-- If a step leads from a good state to a good state exactly when it meets `P`, a
run from a good state stays good exactly when all its steps meet `P`. -/
theorem throughout_iff_along {I : State → Prop} {P : State → Label → Prop}
    (hstep : ∀ s l t, I s → step s l = some t → (I t ↔ P s l))
    {s : State} (hs : I s) (ls : List Label) :
    Throughout step I s ls ↔ Along step P s ls :=
  throughout_iff_along_of_invariant (fun _ h => h) (fun s l t hs hl hm => (hstep s l t hs hm).2 hl)
    (fun s l t hs hm => (hstep s l t hs hm).1) hs ls

theorem Along.of_forall {P : State → Label → Prop} {s : State} {ls : List Label}
    (h : ∀ l ∈ ls, ∀ s, P s l) : Along step P s ls := by
  induction ls generalizing s with
  | nil => trivial
  | cons l ls ih =>
    cases hm : step s l with
    | none => simp [Along, hm]
    | some t =>
      exact (along_cons_of_step hm ls).2
        ⟨h l List.mem_cons_self s, ih fun k hk => h k (List.mem_cons_of_mem l hk)⟩

/-- What every step keeps holds all along every run. -/
theorem throughout_invariant {I : State → Prop}
    (hstep : ∀ s l t, I s → step s l = some t → I t) {s : State} (hs : I s) (ls : List Label) :
    Throughout step I s ls :=
  throughout_of_along (P := fun _ _ => True) (fun s l t hI _ => hstep s l t hI) hs
    (Along.of_forall fun _ _ _ => trivial)

theorem Along.and {P Q : State → Label → Prop} {s : State} {ls : List Label}
    (hP : Along step P s ls) (hQ : Along step Q s ls) :
    Along step (fun s l => P s l ∧ Q s l) s ls := by
  induction ls generalizing s with
  | nil => trivial
  | cons l ls ih =>
    cases hm : step s l with
    | none => simp [Along, hm]
    | some t =>
      obtain ⟨hPl, hPls⟩ := (along_cons_of_step hm ls).1 hP
      obtain ⟨hQl, hQls⟩ := (along_cons_of_step hm ls).1 hQ
      exact (along_cons_of_step hm ls).2 ⟨⟨hPl, hQl⟩, ih hPls hQls⟩

theorem Along.mono {P Q : State → Label → Prop} (hPQ : ∀ s l, P s l → Q s l) {s : State}
    {ls : List Label} (h : Along step P s ls) : Along step Q s ls := by
  induction ls generalizing s with
  | nil => trivial
  | cons l ls ih =>
    cases hm : step s l with
    | none => simp [Along, hm]
    | some t =>
      obtain ⟨hl, hls⟩ := (along_cons_of_step hm ls).1 h
      exact (along_cons_of_step hm ls).2 ⟨hPQ s l hl, ih hls⟩

theorem Throughout.along {Q : State → Prop} {P : State → Label → Prop}
    (hQP : ∀ s l, Q s → P s l) {s : State} {ls : List Label} (h : Throughout step Q s ls) :
    Along step P s ls := by
  induction ls generalizing s with
  | nil => trivial
  | cons l ls ih =>
    cases hm : step s l with
    | none => simp [Along, hm]
    | some t =>
      obtain ⟨hs, hls⟩ := (throughout_cons_of_step hm ls).1 h
      exact (along_cons_of_step hm ls).2 ⟨hQP s l hs, ih hls⟩

/-- The step condition of a run holds at each of its steps. -/
theorem Along.at_step {P : State → Label → Prop} {s m t : State} {l : Label}
    {ls ks : List Label} (h : Along step P s (ls ++ l :: ks))
    (hrun : exec step s ls = some m) (hl : step m l = some t) : P m l := by
  induction ls generalizing s with
  | nil => cases hrun; exact ((along_cons_of_step hl ks).1 h).1
  | cons k ls ih =>
    obtain ⟨n, hn, hr⟩ := exec_cons_inv hrun
    exact ih ((along_cons_of_step hn _).1 h).2 hr

/-- A run whose steps meet `P` splits into two such runs. -/
theorem Along.split {P : State → Label → Prop} {s m : State} {ls ks : List Label}
    (h : Along step P s (ls ++ ks)) (hrun : exec step s ls = some m) :
    Along step P s ls ∧ Along step P m ks := by
  induction ls generalizing s with
  | nil => cases hrun; exact ⟨trivial, h⟩
  | cons l ls ih =>
    obtain ⟨n, hn, hr⟩ := exec_cons_inv hrun
    obtain ⟨hl, hls⟩ := (along_cons_of_step hn _).1 h
    obtain ⟨h₁, h₂⟩ := ih hls hr
    exact ⟨(along_cons_of_step hn ls).2 ⟨hl, h₁⟩, h₂⟩

theorem sometime_cons_of_step {Q : State → Prop} {s t : State} {l : Label}
    (h : step s l = some t) (ls : List Label) :
    Sometime step Q s (l :: ls) ↔ Q s ∨ Sometime step Q t ls := by
  simp [Sometime, h]

/-- What held at some point of a run has held when the run goes on. -/
theorem Sometime.append {Q : State → Prop} {s : State} {ls : List Label}
    (h : Sometime step Q s ls) (ks : List Label) : Sometime step Q s (ls ++ ks) := by
  induction ls generalizing s with
  | nil =>
    cases ks with
    | nil => exact h
    | cons k ks => exact .inl h
  | cons l ls ih =>
    rw [List.cons_append]
    cases hm : step s l with
    | none => simpa [Sometime, hm] using h
    | some t =>
      rw [sometime_cons_of_step hm] at h ⊢
      exact h.imp_right ih

theorem sometime_of_end {Q : State → Prop} {s t : State} {ls : List Label}
    (hrun : exec step s ls = some t) (h : Q t) : Sometime step Q s ls := by
  induction ls generalizing s with
  | nil => cases hrun; exact h
  | cons l ls ih =>
    obtain ⟨m, hm, hr⟩ := exec_cons_inv hrun
    exact (sometime_cons_of_step hm ls).2 (.inr (ih hr))

theorem Sometime.mono {Q R : State → Prop} (hQR : ∀ s, Q s → R s) {s : State}
    {ls : List Label} (h : Sometime step Q s ls) : Sometime step R s ls := by
  induction ls generalizing s with
  | nil => exact hQR s h
  | cons l ls ih =>
    cases hm : step s l with
    | none => exact .inl (hQR s (by simpa [Sometime, hm] using h))
    | some t =>
      rw [sometime_cons_of_step hm] at h ⊢
      exact h.imp (hQR s) ih

/-- An invariant that may speak about the run so far. -/
theorem invariant_with_past {I : List Label → State → Prop} {s t : State} {ls : List Label}
    (hs : I [] s)
    (hstep : ∀ ks m l n, exec step s ks = some m → I ks m → step m l = some n → I (ks ++ [l]) n)
    (hrun : exec step s ls = some t) : I ls t := by
  induction ls using List.reverseRecOn generalizing t with
  | nil => cases hrun; exact hs
  | append_singleton ls l ih =>
    obtain ⟨m, hm, hl⟩ := exec_append_inv hrun
    obtain ⟨n, hn, hend⟩ := exec_cons_inv hl
    cases hend
    exact hstep ls m l t hm (ih hm) hn

section Draining
variable {I Done : State → Prop} {P : Label → Prop} {μ : State → ℕ}

/-- Steps that decrease a measure are few. -/
theorem length_le_of_decreasing
    (hkeep : ∀ s l t, I s → P l → step s l = some t → I t ∧ μ t < μ s) {s t : State}
    {ls : List Label} (hs : I s) (hP : ∀ l ∈ ls, P l) (hrun : exec step s ls = some t) :
    I t ∧ ls.length + μ t ≤ μ s := by
  induction ls generalizing s with
  | nil =>
    cases hrun
    exact ⟨hs, by simp⟩
  | cons l ls ih =>
    obtain ⟨m, hm, hr⟩ := exec_cons_inv hrun
    obtain ⟨hI, hlt⟩ := hkeep s l m hs (hP l List.mem_cons_self) hm
    obtain ⟨ht, hle⟩ := ih hI (fun k hk => hP k (List.mem_cons_of_mem l hk)) hr
    refine ⟨ht, ?_⟩
    rw [List.length_cons]
    omega

/-- If such a step is possible as long as nothing is done, a run of them gets it done. -/
theorem exists_drained (hkeep : ∀ s l t, I s → P l → step s l = some t → I t ∧ μ t < μ s)
    (hgo : ∀ s, I s → Done s ∨ ∃ l t, P l ∧ step s l = some t) {s : State} (hs : I s) :
    ∃ ls t, (∀ l ∈ ls, P l) ∧ exec step s ls = some t ∧ Done t := by
  generalize hn : μ s = n
  induction n using Nat.strongRecOn generalizing s with
  | ind n ih =>
    rcases hgo s hs with hdone | ⟨l, m, hl, hm⟩
    · exact ⟨[], s, by simp, rfl, hdone⟩
    · obtain ⟨hI, hlt⟩ := hkeep s l m hs hl hm
      obtain ⟨ls, t, hls, hrun, hdone⟩ := ih (μ m) (hn ▸ hlt) hI rfl
      refine ⟨l :: ls, t, ?_, by rwa [exec_cons_of_step hm], hdone⟩
      intro k hk
      rcases List.mem_cons.1 hk with rfl | hk
      · exact hl
      · exact hls k hk

end Draining

section Tallies

/-- The sum of what the steps of a run count. -/
def tally (step : State → Label → Option State) (count : State → Label → ℕ) :
    State → List Label → ℕ
  | _, [] => 0
  | s, l :: ls => match step s l with
    | none => 0
    | some t => count s l + tally step count t ls

theorem tally_cons_of_step {count : State → Label → ℕ} {s t : State} {l : Label}
    (h : step s l = some t) (ls : List Label) :
    tally step count s (l :: ls) = count s l + tally step count t ls := by
  simp [tally, h]

theorem tally_of_labels {p : Label → Bool} {s t : State} {ls : List Label}
    (hrun : exec step s ls = some t) :
    tally step (fun _ l => (p l).toNat) s ls = ls.countP p := by
  induction ls generalizing s with
  | nil => rfl
  | cons l ls ih =>
    obtain ⟨m, hm, hr⟩ := exec_cons_inv hrun
    rw [tally_cons_of_step hm, ih hr, List.countP_cons, Nat.add_comm]
    cases p l <;> rfl

/-- What the steps of a run spend was there at its start or was gained on the way. -/
theorem tally_le_of_potential {Q : State → Prop} {μ : State → ℕ} {spend gain : State → Label → ℕ}
    (hstep : ∀ s l t, Q s → Q t → step s l = some t → spend s l + μ t ≤ μ s + gain s l)
    {s t : State} {ls : List Label} (hQ : Throughout step Q s ls)
    (hrun : exec step s ls = some t) :
    tally step spend s ls + μ t ≤ μ s + tally step gain s ls := by
  induction ls generalizing s with
  | nil =>
    cases hrun
    simp [tally]
  | cons l ls ih =>
    obtain ⟨m, hm, hr⟩ := exec_cons_inv hrun
    obtain ⟨hs, hrest⟩ := (throughout_cons_of_step hm ls).1 hQ
    have hfirst := hstep s l m hs hrest.head hm
    have hlater := ih hrest hr
    rw [tally_cons_of_step hm, tally_cons_of_step hm]
    omega

/-- The part of a run before a property is lost. -/
theorem exists_longest {Q : State → Prop} {s t : State} {ls : List Label} (hs : Q s)
    (hrun : exec step s ls = some t) :
    ∃ pre post m, ls = pre ++ post ∧ exec step s pre = some m ∧ Throughout step Q s pre ∧
      ∀ l rest, post = l :: rest → ∃ n, step m l = some n ∧ ¬Q n := by
  induction ls generalizing s with
  | nil => exact ⟨[], [], s, rfl, rfl, hs, fun l rest h => nomatch h⟩
  | cons l ls ih =>
    obtain ⟨n, hn, hr⟩ := exec_cons_inv hrun
    by_cases hQ : Q n
    · obtain ⟨pre, post, m, rfl, hpre, hall, hend⟩ := ih hQ hr
      refine ⟨l :: pre, post, m, rfl, ?_, ?_, hend⟩
      · rwa [exec_cons_of_step hn]
      · exact (throughout_cons_of_step hn pre).2 ⟨hs, hall⟩
    · refine ⟨[], l :: ls, s, rfl, rfl, hs, ?_⟩
      rintro k rest ⟨⟩
      exact ⟨n, hn, hQ⟩

end Tallies

section Outputs
variable {Output : Type*}

/-- What the steps of a run put out, in order. -/
def gather (step : State → Label → Option State) (out : State → Label → List Output) :
    State → List Label → List Output
  | _, [] => []
  | s, l :: ls => match step s l with
    | none => []
    | some t => out s l ++ gather step out t ls

theorem gather_concat {out : State → Label → List Output} {s m t : State} {ls : List Label}
    {l : Label} (hrun : exec step s ls = some m) (hl : step m l = some t) :
    gather step out s (ls ++ [l]) = gather step out s ls ++ out m l := by
  induction ls generalizing s with
  | nil =>
    cases hrun
    simp [gather, hl]
  | cons k ls ih =>
    obtain ⟨n, hn, hr⟩ := exec_cons_inv hrun
    simp only [List.cons_append, gather, hn, ih hr, List.append_assoc]

end Outputs

section Stores
variable {Key Value : Type*} {I : State → Prop} (view : State → Key → Option Value)
  (adds : State → Label → Key → Value → Prop) (drops : Label → Value → Prop)

/-- If each step keeps what is stored unless it drops it, and stores nothing but what it adds,
then exactly that is stored after a run which some step has added and no later one dropped. -/
theorem stored_iff (hkeep : ∀ s l t, I s → step s l = some t → I t)
    (hstep : ∀ s l t, I s → step s l = some t → ∀ k v,
      view t k = some v ↔ view s k = some v ∧ ¬drops l v ∨ adds s l k v)
    {s t : State} {ls : List Label} (hs : I s) (hempty : ∀ k, view s k = none)
    (hrun : exec step s ls = some t) (k : Key) (v : Value) :
    view t k = some v ↔ ∃ pre l post m, ls = pre ++ l :: post ∧ exec step s pre = some m ∧
      adds m l k v ∧ ∀ l' ∈ post, ¬drops l' v := by
  induction ls using List.reverseRecOn generalizing t with
  | nil =>
    cases hrun
    simp [hempty]
  | append_singleton ls l ih =>
    obtain ⟨m, hm, hl⟩ := exec_append_inv hrun
    obtain ⟨n, hn, hend⟩ := exec_cons_inv hl
    cases hend
    rw [hstep m l t (invariant hkeep hs hm) hn k v, ih hm]
    constructor
    · rintro (⟨⟨pre, l', post, m', rfl, hpre, hadds, hpost⟩, hkept⟩ | hadds)
      · refine ⟨pre, l', post ++ [l], m', by simp, hpre, hadds, ?_⟩
        simpa [or_imp, forall_and] using ⟨hpost, hkept⟩
      · exact ⟨ls, l, [], m, rfl, hm, hadds, by simp⟩
    · rintro ⟨pre, l', post, m', hsplit, hpre, hadds, hpost⟩
      induction post using List.reverseRecOn with
      | nil =>
        obtain ⟨rfl, hl'⟩ := List.append_inj' hsplit rfl
        cases hl'
        cases hpre.symm.trans hm
        exact .inr hadds
      | append_singleton post x _ =>
        rw [← List.cons_append, ← List.append_assoc] at hsplit
        obtain ⟨rfl, hx⟩ := List.append_inj' hsplit rfl
        cases hx
        refine .inl ⟨⟨pre, l', post, m', rfl, hpre, hadds, ?_⟩, hpost l (by simp)⟩
        exact fun y hy => hpost y (List.mem_append_left _ hy)

end Stores

instance Along.decidable (P : State → Label → Prop) [∀ s l, Decidable (P s l)] :
    ∀ (s : State) (ls : List Label), Decidable (Along step P s ls)
  | _, [] => isTrue trivial
  | s, l :: ls => match h : step s l with
    | none => isTrue (by simp [Along, h])
    | some t =>
      have := Along.decidable P t ls
      decidable_of_iff (P s l ∧ Along step P t ls) (along_cons_of_step h ls).symm

end TaskQueue.StepRuns
