import Mathlib.Logic.Basic

/-!
# Triples for computations with state and exceptions

`Triple P m Q E`: started in a state with `P`, the computation returns a value in a state
with `Q`, or raises in a state with `E`. There is one rule for each way to build a
computation. `Keeps I m` is the case of a state property that holds all along, and
`Agree P m m'` says that two computations do the same from every state with `P`.
-/

namespace TaskQueue.StateExceptions

variable {ε σ α β : Type}

/-- The value or exception of a computation, with the state it ends in. -/
def runFrom (m : ExceptT ε (StateM σ) α) (s : σ) : Except ε α × σ := m.run s

section Run
variable {m : ExceptT ε (StateM σ) α} {s t : σ}

theorem runFrom_bind_ok {f : α → ExceptT ε (StateM σ) β} {a : α}
    (h : runFrom m s = (.ok a, t)) : runFrom (m >>= f) s = runFrom (f a) t := by
  change (match runFrom m s with | (a, t) => ExceptT.bindCont f a t) = _
  rw [h]
  rfl

theorem runFrom_bind_error {f : α → ExceptT ε (StateM σ) β} {e : ε}
    (h : runFrom m s = (.error e, t)) : runFrom (m >>= f) s = (.error e, t) := by
  change (match runFrom m s with | (a, t) => ExceptT.bindCont f a t) = _
  rw [h]
  rfl

theorem runFrom_tryCatch_ok {h : ε → ExceptT ε (StateM σ) α} {a : α}
    (hm : runFrom m s = (.ok a, t)) : runFrom (tryCatch m h) s = (.ok a, t) := by
  change (match runFrom m s with
    | (r, t) => (match r with
      | Except.ok a => (pure (Except.ok a) : StateM σ (Except ε α))
      | Except.error e => (h e).run) t) = _
  rw [hm]
  rfl

theorem runFrom_tryCatch_error {h : ε → ExceptT ε (StateM σ) α} {e : ε}
    (hm : runFrom m s = (.error e, t)) : runFrom (tryCatch m h) s = runFrom (h e) t := by
  change (match runFrom m s with
    | (r, t) => (match r with
      | Except.ok a => (pure (Except.ok a) : StateM σ (Except ε α))
      | Except.error e => (h e).run) t) = _
  rw [hm]
  rfl

/-- An exception of the `finally` block takes the place of what the body came to. -/
theorem runFrom_tryFinally {cleanup : ExceptT ε (StateM σ) Unit} {r : Except ε α}
    {c : Except ε Unit} {u : σ} (hm : runFrom m s = (r, t)) (hc : runFrom cleanup t = (c, u)) :
    runFrom (tryFinally m cleanup) s = (c.bind fun _ => r, u) := by
  change m s = (r, t) at hm
  change cleanup t = (c, u) at hc
  rcases r with e | a <;> rcases c with e' | _ <;>
    simp only [runFrom, tryFinally, tryFinally', Functor.map, ExceptT.run, ExceptT.map, ExceptT.mk,
      bind, StateT.bind, hm, pure, hc] <;> rfl

theorem runFrom_get (s : σ) : runFrom (get : ExceptT ε (StateM σ) σ) s = (.ok s, s) := rfl

end Run

structure Triple (P : σ → Prop) (m : ExceptT ε (StateM σ) α) (Q : α → σ → Prop)
    (E : ε → σ → Prop) : Prop where
  returns : ∀ s a t, P s → runFrom m s = (.ok a, t) → Q a t
  raises : ∀ s e t, P s → runFrom m s = (.error e, t) → E e t

namespace Triple

variable {P P' : σ → Prop} {Q Q' : α → σ → Prop} {R : β → σ → Prop} {E E' : ε → σ → Prop}
  {m : ExceptT ε (StateM σ) α}

theorem conseq (h : Triple P m Q E) (hP : ∀ s, P' s → P s) (hQ : ∀ a s, Q a s → Q' a s)
    (hE : ∀ e s, E e s → E' e s) : Triple P' m Q' E' where
  returns s a t hs hr := hQ a t (h.returns s a t (hP s hs) hr)
  raises s e t hs hr := hE e t (h.raises s e t (hP s hs) hr)

theorem pre (h : Triple P m Q E) (hP : ∀ s, P' s → P s) : Triple P' m Q E :=
  h.conseq hP (fun _ _ hq => hq) (fun _ _ he => he)

theorem post (h : Triple P m Q E) (hQ : ∀ a s, Q a s → Q' a s) : Triple P m Q' E :=
  h.conseq (fun _ hp => hp) hQ (fun _ _ he => he)

theorem exn (h : Triple P m Q E) (hE : ∀ e s, E e s → E' e s) : Triple P m Q E' :=
  h.conseq (fun _ hp => hp) (fun _ _ hq => hq) hE

theorem and (h : Triple P m Q E) (h' : Triple P' m Q' E') :
    Triple (fun s => P s ∧ P' s) m (fun a s => Q a s ∧ Q' a s) (fun e s => E e s ∧ E' e s) where
  returns s a t hs hr := ⟨h.returns s a t hs.1 hr, h'.returns s a t hs.2 hr⟩
  raises s e t hs hr := ⟨h.raises s e t hs.1 hr, h'.raises s e t hs.2 hr⟩

theorem of_false (h : ∀ s, ¬P s) : Triple P m Q E where
  returns s _ _ hs := absurd hs (h s)
  raises s _ _ hs := absurd hs (h s)

theorem of_pure {a : α} (h : ∀ s, P s → Q a s) :
    Triple P (pure a : ExceptT ε (StateM σ) α) Q E where
  returns s b t hs hr := by
    cases hr
    exact h s hs
  raises s e t hs hr := by cases hr

theorem of_throw {e : ε} (h : ∀ s, P s → E e s) :
    Triple P (throw e : ExceptT ε (StateM σ) α) Q E where
  returns s b t hs hr := by cases hr
  raises s e' t hs hr := by
    cases hr
    exact h s hs

theorem of_get {Q : σ → σ → Prop} (h : ∀ s, P s → Q s s) :
    Triple P (get : ExceptT ε (StateM σ) σ) Q E where
  returns s b t hs hr := by
    cases hr
    exact h s hs
  raises s e t hs hr := by cases hr

theorem of_modify {Q : Unit → σ → Prop} {f : σ → σ} (h : ∀ s, P s → Q () (f s)) :
    Triple P (modify f : ExceptT ε (StateM σ) Unit) Q E where
  returns s b t hs hr := by
    cases hr
    exact h s hs
  raises s e t hs hr := by cases hr

theorem of_set {Q : Unit → σ → Prop} {t : σ} (h : ∀ s, P s → Q () t) :
    Triple P (set t : ExceptT ε (StateM σ) Unit) Q E where
  returns s b u hs hr := by
    cases hr
    exact h s hs
  raises s e u hs hr := by cases hr

theorem bind {f : α → ExceptT ε (StateM σ) β} (hm : Triple P m Q E)
    (hf : ∀ a, Triple (Q a) (f a) R E) : Triple P (m >>= f) R E where
  returns s b u hs hr := by
    rcases h : runFrom m s with ⟨e | a, t⟩
    · rw [runFrom_bind_error h] at hr
      cases hr
    · rw [runFrom_bind_ok h] at hr
      exact (hf a).returns t b u (hm.returns s a t hs h) hr
  raises s e u hs hr := by
    rcases h : runFrom m s with ⟨e' | a, t⟩
    · rw [runFrom_bind_error h] at hr
      cases hr
      exact hm.raises s e u hs h
    · rw [runFrom_bind_ok h] at hr
      exact (hf a).raises t e u (hm.returns s a t hs h) hr

/-- What is read is the state the computation goes on from. -/
theorem get_bind {f : σ → ExceptT ε (StateM σ) β}
    (hf : ∀ s, P s → Triple (fun t => t = s) (f s) R E) : Triple P (get >>= f) R E :=
  bind (Q := fun s t => P s ∧ t = s) (of_get fun _ hs => ⟨hs, rfl⟩)
    fun s => ⟨fun t b u ht hr => (hf s ht.1).returns t b u ht.2 hr,
      fun t e u ht hr => (hf s ht.1).raises t e u ht.2 hr⟩

/-- What holds from each of the states holds from all of them. -/
theorem of_each (h : ∀ s, P s → Triple (fun t => t = s) m Q E) : Triple P m Q E where
  returns s a t hs hr := (h s hs).returns s a t rfl hr
  raises s e t hs hr := (h s hs).raises s e t rfl hr

theorem of_tryCatch {h : ε → ExceptT ε (StateM σ) α} (hm : Triple P m Q E')
    (hh : ∀ e, Triple (E' e) (h e) Q E) : Triple P (tryCatch m h) Q E where
  returns s a u hs hr := by
    rcases hrun : runFrom m s with ⟨e | b, t⟩
    · rw [runFrom_tryCatch_error hrun] at hr
      exact (hh e).returns t a u (hm.raises s e t hs hrun) hr
    · rw [runFrom_tryCatch_ok hrun] at hr
      cases hr
      exact hm.returns s a u hs hrun
  raises s e u hs hr := by
    rcases hrun : runFrom m s with ⟨e' | b, t⟩
    · rw [runFrom_tryCatch_error hrun] at hr
      exact (hh e').raises t e u (hm.raises s e' t hs hrun) hr
    · rw [runFrom_tryCatch_ok hrun] at hr
      cases hr

theorem of_tryFinally {cleanup : ExceptT ε (StateM σ) Unit} (hm : Triple P m Q' E')
    (hok : ∀ a, Triple (Q' a) cleanup (fun _ => Q a) E)
    (herror : ∀ e, Triple (E' e) cleanup (fun _ => E e) E) :
    Triple P (tryFinally m cleanup) Q E where
  returns s a v hs hr := by
    rcases hbody : runFrom m s with ⟨r, t⟩
    rcases hclean : runFrom cleanup t with ⟨e | ⟨⟩, u⟩
    · rw [runFrom_tryFinally hbody hclean] at hr
      cases hr
    · rw [runFrom_tryFinally hbody hclean] at hr
      cases hr
      exact (hok a).returns t () v (hm.returns s a t hs hbody) hclean
  raises s e v hs hr := by
    rcases hbody : runFrom m s with ⟨e' | a, t⟩
    · rcases hclean : runFrom cleanup t with ⟨e'' | ⟨⟩, u⟩
      · rw [runFrom_tryFinally hbody hclean] at hr
        cases hr
        exact (herror e').raises t e v (hm.raises s e' t hs hbody) hclean
      · rw [runFrom_tryFinally hbody hclean] at hr
        cases hr
        exact (herror e).returns t () v (hm.raises s e t hs hbody) hclean
    · rcases hclean : runFrom cleanup t with ⟨e'' | ⟨⟩, u⟩
      · rw [runFrom_tryFinally hbody hclean] at hr
        cases hr
        exact (hok a).raises t e v (hm.returns s a t hs hbody) hclean
      · rw [runFrom_tryFinally hbody hclean] at hr
        cases hr

/-- What holds whatever the state need not be said of the state. -/
theorem of_assumed {φ : Prop} (h : φ → Triple P m Q E) : Triple (fun s => P s ∧ φ) m Q E where
  returns s a t hs hr := (h hs.2).returns s a t hs.1 hr
  raises s e t hs hr := (h hs.2).raises s e t hs.1 hr

theorem of_ite {c : Prop} [Decidable c] {m' : ExceptT ε (StateM σ) α}
    (h : c → Triple P m Q E) (h' : ¬c → Triple P m' Q E) :
    Triple P (if c then m else m') Q E := by
  by_cases hc : c
  · rw [if_pos hc]
    exact h hc
  · rw [if_neg hc]
    exact h' hc

/-- A branch on what is read knows which way the test went. -/
theorem get_ite {c : σ → Prop} [DecidablePred c] {m' : ExceptT ε (StateM σ) α}
    (h : Triple (fun s => P s ∧ c s) m Q E) (h' : Triple (fun s => P s ∧ ¬c s) m' Q E) :
    Triple P (get >>= fun s => if c s then m else m') Q E := by
  apply get_bind
  intro s hs
  apply of_ite
  · intro hc
    exact h.pre fun t ht => ht ▸ ⟨hs, hc⟩
  · intro hc
    exact h'.pre fun t ht => ht ▸ ⟨hs, hc⟩

end Triple

/-- A triple about one start state speaks about the one run from it. -/
theorem Triple.state {I : σ → Prop} {m : ExceptT ε (StateM σ) α} {s : σ}
    (h : Triple (fun t => t = s) m (fun _ => I) (fun _ => I)) : I (runFrom m s).2 := by
  rcases hr : runFrom m s with ⟨e | a, t⟩
  · exact h.raises s e t rfl hr
  · exact h.returns s a t rfl hr

/-- The computation leaves `I` true, whether it returns or raises. -/
def Keeps (I : σ → Prop) (m : ExceptT ε (StateM σ) α) : Prop :=
  Triple I m (fun _ => I) (fun _ => I)

namespace Keeps

variable {I : σ → Prop} {m : ExceptT ε (StateM σ) α}

theorem state (h : Keeps I m) {s : σ} (hs : I s) : I (runFrom m s).2 :=
  Triple.state (h.pre fun _ ht => ht ▸ hs)

theorem of_pure (a : α) : Keeps I (pure a : ExceptT ε (StateM σ) α) :=
  Triple.of_pure fun _ hs => hs

theorem of_throw (e : ε) : Keeps I (throw e : ExceptT ε (StateM σ) α) :=
  Triple.of_throw fun _ hs => hs

theorem of_modify {f : σ → σ} (h : ∀ s, I s → I (f s)) :
    Keeps I (modify f : ExceptT ε (StateM σ) Unit) :=
  Triple.of_modify h

theorem bind {f : α → ExceptT ε (StateM σ) β} (hm : Keeps I m) (hf : ∀ a, Keeps I (f a)) :
    Keeps I (m >>= f) :=
  Triple.bind hm hf

theorem get_bind {f : σ → ExceptT ε (StateM σ) β} (hf : ∀ s, Keeps I (f s)) :
    Keeps I (get >>= f) :=
  Triple.get_bind fun s hs => (hf s).pre fun _ ht => ht ▸ hs

theorem bind_pure (hm : Keeps I m) (f : α → β) : Keeps I (m >>= fun a => pure (f a)) :=
  bind hm fun a => of_pure (f a)

theorem of_ite {c : Prop} [Decidable c] {m' : ExceptT ε (StateM σ) α} (h : Keeps I m)
    (h' : Keeps I m') : Keeps I (if c then m else m') :=
  Triple.of_ite (fun _ => h) fun _ => h'

end Keeps

/-- From every state with `P` the two computations do the same. -/
def Agree (P : σ → Prop) (m m' : ExceptT ε (StateM σ) α) : Prop :=
  ∀ s, P s → runFrom m s = runFrom m' s

namespace Agree

variable {P : σ → Prop} {Q : α → σ → Prop} {m m' : ExceptT ε (StateM σ) α}

theorem refl (m : ExceptT ε (StateM σ) α) : Agree P m m := fun _ _ => rfl

theorem bind {f f' : α → ExceptT ε (StateM σ) β} (hm : Triple P m Q (fun _ _ => True))
    (hf : ∀ a, Agree (Q a) (f a) (f' a)) : Agree P (m >>= f) (m >>= f') := by
  intro s hs
  rcases h : runFrom m s with ⟨e | a, t⟩
  · rw [runFrom_bind_error h, runFrom_bind_error h]
  · rw [runFrom_bind_ok h, runFrom_bind_ok h]
    exact hf a t (hm.returns s a t hs h)

theorem of_ite {c : Prop} [Decidable c] {k k' : ExceptT ε (StateM σ) α} (h : c → Agree P m m')
    (h' : ¬c → Agree P k k') : Agree P (if c then m else k) (if c then m' else k') := by
  by_cases hc : c
  · rw [if_pos hc, if_pos hc]
    exact h hc
  · rw [if_neg hc, if_neg hc]
    exact h' hc

end Agree
end TaskQueue.StateExceptions
