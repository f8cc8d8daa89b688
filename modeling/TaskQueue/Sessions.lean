import TaskQueue.StateExceptions

/-!
# Sessions on a database

A session works in one transaction at a time. A statement acts at once on what the
transaction sees. A change of a loaded object waits in the session until the commit
flushes it, and no statement before sees it (no autoflush). Only a commit changes what
is stored, and a session that is closed without one leaves it as it was.
-/

namespace TaskQueue.Sessions
open StateExceptions

variable {D M ε α β : Type}

/-- `stored` is what is committed, `visible` what the transaction sees. `refusals` tells
of the statements to come, commits included, whether the database refuses them; past its
end it refuses none. `outside` is what no transaction governs. -/
structure Session (D M : Type) where
  stored : D
  visible : D
  pending : List (D → Option D)
  refusals : List Bool
  outside : M

abbrev Program (ε D M α : Type) := ExceptT ε (StateM (Session D M)) α

/-- A new session. -/
def opened (d : D) (refusals : List Bool) (outside : M) : Session D M :=
  ⟨d, d, [], refusals, outside⟩

/-- Send a statement; the exception `refused` if the database refuses it. -/
def send (refused : ε) : Program ε D M Unit := do
  let s ← get
  set { s with refusals := s.refusals.tail }
  if s.refusals.head?.getD false then throw refused

/-- A statement that reads. -/
def load (refused : ε) (query : D → α) : Program ε D M α := do
  send refused
  let s ← get
  return query s.visible

/-- A statement that writes. -/
def execute (refused : ε) (statement : D → D × α) : Program ε D M α := do
  send refused
  let s ← get
  set { s with visible := (statement s.visible).1 }
  return (statement s.visible).2

/-- A change of an object, to be flushed. -/
def change (f : D → Option D) : Program ε D M Unit :=
  modify fun s => { s with pending := s.pending ++ [f] }

def rollback : Program ε D M Unit :=
  modify fun s => { s with visible := s.stored, pending := [] }

/-- The pending changes carried out in order; none if one of them breaks a constraint. -/
def flushed (pending : List (D → Option D)) (d : D) : Option D :=
  pending.foldlM (fun d f => f d) d

@[simp] theorem flushed_nil (d : D) : flushed [] d = some d := rfl

@[simp] theorem flushed_cons (f : D → Option D) (fs : List (D → Option D)) (d : D) :
    flushed (f :: fs) d = (f d).bind (flushed fs) :=
  List.foldlM_cons

theorem flushed_one (f : D → Option D) (d : D) : flushed ([] ++ [f]) d = f d := by
  rw [List.nil_append, flushed_cons]
  cases f d <;> rfl

def commit (refused : ε) : Program ε D M Unit := do
  send refused
  let s ← get
  match flushed s.pending s.visible with
  | none => throw refused
  | some d => set { s with stored := d, visible := d, pending := [] }

/-- Reading back what was just committed, a statement that brings no value along. -/
def refresh (query : D → α) : Program ε D M α := do
  let s ← get
  return query s.visible

def outside : Program ε D M M := do
  let s ← get
  return s.outside

def setOutside (o : M) : Program ε D M Unit := modify fun s => { s with outside := o }

/-- A computation that needs no session; its exceptions are raised in it. -/
def checked {δ : Type} (convert : δ → ε) (x : Except δ α) : Program ε D M α :=
  match x with
  | .error e => throw (convert e)
  | .ok a => pure a

/-- Raise another exception in place of each. -/
def rethrow (convert : ε → ε) (m : Program ε D M α) : Program ε D M α :=
  tryCatch m fun e => throw (convert e)

/-- The sessions of which all but the refusals to come is known. -/
def At (d v : D) (p : List (D → Option D)) (o : M) (s : Session D M) : Prop :=
  ∃ refusals, s = ⟨d, v, p, refusals, o⟩

/-- Between two transactions. -/
def Clean (d : D) (o : M) : Session D M → Prop := At d d [] o

theorem opened_clean (d : D) (refusals : List Bool) (o : M) : Clean d o (opened d refusals o) :=
  ⟨refusals, rfl⟩

/-- Started in such a session, the program returns a value in a session with `Q`, or raises
where the exception, the stored data and the outside meet `E`. -/
def Runs (d v : D) (p : List (D → Option D)) (o : M) (m : Program ε D M α)
    (Q : α → Session D M → Prop) (E : ε → D → M → Prop) : Prop :=
  Triple (At d v p o) m Q fun e s => E e s.stored s.outside

/-- A unit of work: started between two transactions, the program ends between two with
`Q`, or raises with `E`. -/
def Serves (d : D) (o : M) (m : Program ε D M α) (Q : α → D → M → Prop)
    (E : ε → D → M → Prop) : Prop :=
  Runs d d [] o m (fun a s => ∃ d' o', Q a d' o' ∧ Clean d' o' s) E

section Rules
variable {d v : D} {p : List (D → Option D)} {o : M} {Q : α → Session D M → Prop}
  {E : ε → D → M → Prop} {refused : ε}

theorem Runs.of_pure {a : α} (h : ∀ s, At d v p o s → Q a s) :
    Runs d v p o (pure a : Program ε D M α) Q E :=
  Triple.of_pure h

theorem Runs.of_throw {e : ε} (h : E e d o) : Runs d v p o (throw e : Program ε D M α) Q E :=
  Triple.of_throw fun _ hs => by
    obtain ⟨r, rfl⟩ := hs
    exact h

theorem Runs.of_ite {c : Prop} [Decidable c] {m m' : Program ε D M α}
    (h : c → Runs d v p o m Q E) (h' : ¬c → Runs d v p o m' Q E) :
    Runs d v p o (if c then m else m') Q E :=
  Triple.of_ite h h'

/-- A state is read and the program goes on from it. -/
theorem Runs.get_bind {f : Session D M → Program ε D M α}
    (h : ∀ r, Runs d v p o (f ⟨d, v, p, r, o⟩) Q E) : Runs d v p o (get >>= f) Q E :=
  Triple.get_bind fun s hs => by
    obtain ⟨r, rfl⟩ := hs
    exact (h r).pre fun t ht => ⟨r, ht⟩

theorem Runs.set_bind {d' v' : D} {p' : List (D → Option D)} {r : List Bool} {o' : M}
    {f : Unit → Program ε D M α} (h : Runs d' v' p' o' (f ()) Q E) :
    Runs d v p o (set (⟨d', v', p', r, o'⟩ : Session D M) >>= f) Q E :=
  Triple.bind (Q := fun _ => At d' v' p' o') (Triple.of_set fun _ _ => ⟨r, rfl⟩) fun _ => h

theorem Runs.modify_bind {d' v' : D} {p' : List (D → Option D)} {o' : M}
    {g : Session D M → Session D M} {f : Unit → Program ε D M α}
    (hg : ∀ r, g ⟨d, v, p, r, o⟩ = ⟨d', v', p', r, o'⟩) (h : Runs d' v' p' o' (f ()) Q E) :
    Runs d v p o (modify g >>= f) Q E :=
  Triple.bind (Q := fun _ => At d' v' p' o')
    (Triple.of_modify fun s hs => by
      obtain ⟨r, rfl⟩ := hs
      exact ⟨r, hg r⟩) fun _ => h

/-- What follows a program is started in the sessions that it leaves. -/
theorem Runs.bind {m : Program ε D M β} {f : β → Program ε D M α}
    {R : β → Session D M → Prop} (hm : Runs d v p o m R E)
    (hf : ∀ b, Triple (R b) (f b) Q fun e s => E e s.stored s.outside) :
    Runs d v p o (m >>= f) Q E :=
  Triple.bind hm hf

/-- A program's last step may be read as one with nothing after it. -/
theorem Runs.last {m : Program ε D M α} (h : Runs d v p o (m >>= pure) Q E) :
    Runs d v p o m Q E := by
  rwa [bind_pure] at h

theorem Runs.send_bind {f : Unit → Program ε D M α} (hrefused : E refused d o)
    (h : Runs d v p o (f ()) Q E) : Runs d v p o (send refused >>= f) Q E := by
  have hsend : Runs d v p o (send refused) (fun _ => At d v p o) E := by
    apply Runs.get_bind
    intro r
    apply Runs.set_bind
    apply Runs.of_ite
    · intro _
      exact Runs.of_throw hrefused
    · intro _
      exact Runs.of_pure fun _ hs => hs
  exact hsend.bind fun _ => h

theorem Runs.throw_bind {e : ε} {f : β → Program ε D M α} (h : E e d o) :
    Runs d v p o ((throw e : Program ε D M β) >>= f) Q E :=
  Runs.bind (R := fun _ _ => False) (Runs.of_throw h) fun _ => Triple.of_false fun _ hs => hs

theorem Runs.load_bind {query : D → β} {f : β → Program ε D M α} (hrefused : E refused d o)
    (h : Runs d v p o (f (query v)) Q E) : Runs d v p o (load refused query >>= f) Q E := by
  rw [load, bind_assoc]
  refine Runs.send_bind hrefused ?_
  rw [bind_assoc]
  refine Runs.get_bind fun r => ?_
  rwa [pure_bind]

theorem Runs.execute_bind {statement : D → D × β} {f : β → Program ε D M α}
    (hrefused : E refused d o) (h : Runs d (statement v).1 p o (f (statement v).2) Q E) :
    Runs d v p o (execute refused statement >>= f) Q E := by
  rw [execute, bind_assoc]
  refine Runs.send_bind hrefused ?_
  rw [bind_assoc]
  refine Runs.get_bind fun r => ?_
  rw [bind_assoc]
  refine Runs.set_bind ?_
  rwa [pure_bind]

theorem Runs.change_bind {g : D → Option D} {f : Unit → Program ε D M α}
    (h : Runs d v (p ++ [g]) o (f ()) Q E) : Runs d v p o (change g >>= f) Q E :=
  Runs.modify_bind (fun _ => rfl) h

theorem Runs.rollback_bind {f : Unit → Program ε D M α} (h : Runs d d [] o (f ()) Q E) :
    Runs d v p o (rollback >>= f) Q E :=
  Runs.modify_bind (fun _ => rfl) h

/-- A commit raises and stores nothing, or it stores what the pending changes make of what
the transaction sees. -/
theorem Runs.commit_bind {f : Unit → Program ε D M α} (hrefused : E refused d o)
    (h : ∀ d', flushed p v = some d' → Runs d' d' [] o (f ()) Q E) :
    Runs d v p o (commit refused >>= f) Q E := by
  rw [commit, bind_assoc]
  refine Runs.send_bind hrefused ?_
  rw [bind_assoc]
  refine Runs.get_bind fun r => ?_
  dsimp only
  cases hd : flushed p v with
  | none => exact Runs.throw_bind hrefused
  | some d' => exact Runs.set_bind (h d' hd)

theorem Runs.refresh_bind {query : D → β} {f : β → Program ε D M α}
    (h : Runs d v p o (f (query v)) Q E) : Runs d v p o (refresh query >>= f) Q E := by
  rw [refresh, bind_assoc]
  refine Runs.get_bind fun r => ?_
  rwa [pure_bind]

theorem Runs.outside_bind {f : M → Program ε D M α} (h : Runs d v p o (f o) Q E) :
    Runs d v p o (outside >>= f) Q E := by
  rw [outside, bind_assoc]
  refine Runs.get_bind fun r => ?_
  rwa [pure_bind]

theorem Runs.setOutside_bind {o' : M} {f : Unit → Program ε D M α}
    (h : Runs d v p o' (f ()) Q E) : Runs d v p o (setOutside o' >>= f) Q E :=
  Runs.modify_bind (fun _ => rfl) h

theorem Runs.checked_bind {δ : Type} {convert : δ → ε} {x : Except δ β}
    {f : β → Program ε D M α} (herror : ∀ e, x = .error e → E (convert e) d o)
    (hok : ∀ b, x = .ok b → Runs d v p o (f b) Q E) :
    Runs d v p o (checked convert x >>= f) Q E := by
  cases x with
  | error e => exact Runs.throw_bind (herror e rfl)
  | ok b =>
    rw [checked, pure_bind]
    exact hok b rfl

theorem Runs.of_rethrow {convert : ε → ε} {m : Program ε D M α}
    (h : Runs d v p o m Q fun e => E (convert e)) : Runs d v p o (rethrow convert m) Q E :=
  Triple.of_tryCatch h fun _ => Triple.of_throw fun _ hs => hs

end Rules

section Serves
variable {d : D} {o : M} {Q : α → D → M → Prop} {E : ε → D → M → Prop}

theorem Serves.mono {Q' : α → D → M → Prop} {E' : ε → D → M → Prop} {m : Program ε D M α}
    (h : Serves d o m Q E) (hQ : ∀ a d' o', Q a d' o' → Q' a d' o')
    (hE : ∀ e d' o', E e d' o' → E' e d' o') : Serves d o m Q' E' :=
  h.conseq (fun _ hs => hs)
    (fun a _ hq => by
      obtain ⟨d', o', hq, hs⟩ := hq
      exact ⟨d', o', hQ a d' o' hq, hs⟩)
    fun e _ he => hE e _ _ he

/-- Units of work one after the other. -/
theorem Serves.bind {m : Program ε D M β} {f : β → Program ε D M α} {R : β → D → M → Prop}
    (hm : Serves d o m R E) (hf : ∀ b d' o', R b d' o' → Serves d' o' (f b) Q E) :
    Serves d o (m >>= f) Q E :=
  Runs.bind hm fun b =>
    ⟨fun s a t hs hr => by
        obtain ⟨d', o', hR, hs⟩ := hs
        exact (hf b d' o' hR).returns s a t hs hr,
      fun s e t hs hr => by
        obtain ⟨d', o', hR, hs⟩ := hs
        exact (hf b d' o' hR).raises s e t hs hr⟩

theorem Serves.of_pure {a : α} (h : Q a d o) : Serves d o (pure a : Program ε D M α) Q E :=
  Runs.of_pure fun _ hs => ⟨d, o, h, hs⟩

theorem Serves.of_throw {e : ε} (h : E e d o) : Serves d o (throw e : Program ε D M α) Q E :=
  Runs.of_throw h

/-- What is read back behind a commit is what was committed. -/
theorem Serves.of_refresh {query : D → α} (h : Q (query d) d o) :
    Serves d o (refresh query) Q E :=
  Runs.last (Runs.refresh_bind (Serves.of_pure h))

theorem Serves.of_rethrow {convert : ε → ε} {m : Program ε D M α}
    (h : Serves d o m Q fun e => E (convert e)) : Serves d o (rethrow convert m) Q E :=
  Runs.of_rethrow h

/-- What a unit of work that returns in a new session leaves. -/
theorem Serves.ok {m : Program ε D M α} (h : Serves d o m Q E) {s t : Session D M} {a : α}
    (hs : Clean d o s) (hr : runFrom m s = (.ok a, t)) :
    Q a t.stored t.outside ∧ Clean t.stored t.outside t := by
  obtain ⟨d', o', hq, r, rfl⟩ := h.returns s a t hs hr
  exact ⟨hq, r, rfl⟩

theorem Serves.error {m : Program ε D M α} (h : Serves d o m Q E) {s t : Session D M} {e : ε}
    (hs : Clean d o s) (hr : runFrom m s = (.error e, t)) : E e t.stored t.outside :=
  h.raises s e t hs hr

/-- A unit of work that raises only with the data as they were has done nothing or all of it. -/
theorem Serves.stored {m : Program ε D M α} (h : Serves d o m Q fun _ d' _ => d' = d)
    {s : Session D M} (hs : Clean d o s) :
    (runFrom m s).2.stored = d ∨ ∃ a, Q a (runFrom m s).2.stored (runFrom m s).2.outside := by
  rcases hr : runFrom m s with ⟨e | a, t⟩
  · exact .inl (h.error hs hr)
  · exact .inr ⟨a, (h.ok hs hr).1⟩

end Serves

/-- The program raises, if it does, with the data stored as before. -/
abbrev Untouched (d : D) : ε → D → M → Prop := fun _ d' _ => d' = d

theorem checked_serves {δ : Type} (d : D) (o : M) (convert : δ → ε) (x : Except δ α) :
    Serves d o (checked convert x) (fun _ d' o' => d' = d ∧ o' = o) (Untouched d) :=
  Runs.last (Runs.checked_bind (fun _ _ => rfl) fun _ _ => Serves.of_pure ⟨rfl, rfl⟩)

end TaskQueue.Sessions
