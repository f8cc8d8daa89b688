import TaskQueue.Renders

/-!
# The life cycle of a render

forge2 is launched only after a measurement without a shortfall and on a ComfyUI that is
there; the supervisor is left idle; and a blank render, which forge2 reports by its exit
code, is what a restart is requested for and what the queue is told, unless an exception of
the clean-up hides it.
-/

namespace TaskQueue.RenderLifecycle
open Renders StateExceptions PythonStrings
open WorkerLoop (Json)

section Texts

theorem isCorrupt_eq_false {text : String} (h : text.toList.head? ≠ some 'c') :
    isCorrupt text = false :=
  startsWith_eq_false (by decide) h

theorem corruptText_isCorrupt (tail : List String) : isCorrupt (corruptText tail) = true := by
  rw [corruptText]
  cases hfind : (tail.reverse.map strip).find? isCorrupt with
  | none => decide
  | some line => exact List.find?_some hfind

end Texts

section Traces
variable {Image : Type} {b : Behaviour Image} {calls : List Call} {call : Call}

/-- What a call requires of those before it. -/
def Allowed (b : Behaviour Image) (before : List Call) : Call → Prop
  | .launch => lastMeasured before = some false ∧
      (b.supervisor.isSome → .ensureRunning true ∈ before)
  | .stop => b.supervisor = some true ∧ lastMeasured before = some true
  | _ => True

def Disciplined (b : Behaviour Image) (calls : List Call) : Prop :=
  ∀ before call after, calls = before ++ call :: after → Allowed b before call

theorem Disciplined.snoc (h : Disciplined b calls) (hcall : Allowed b calls call) :
    Disciplined b (calls ++ [call]) := by
  intro before last after heq
  rcases List.eq_nil_or_concat after with rfl | ⟨after, c, rfl⟩
  · obtain ⟨rfl, hlast⟩ := List.append_inj' heq rfl
    cases hlast
    exact hcall
  · rw [List.concat_eq_append, ← List.cons_append, ← List.append_assoc] at heq
    exact h before last after (List.append_inj' heq rfl).1

theorem lastMeasured_snoc (h : call.short = none) :
    lastMeasured (calls ++ [call]) = lastMeasured calls := by
  simp [lastMeasured, h]

theorem lastMeasured_measured (short : Bool) :
    lastMeasured (calls ++ [.memoryShortfall short]) = some short := by
  simp [lastMeasured, Call.short]

/-- What is known in the middle of a render: `blank` says whether forge2 has exited with the
code of a blank render, `restarted` whether a restart has been requested. -/
structure Mid (b : Behaviour Image) (busy : Bool) (blank restarted : Prop) (s : Render) :
    Prop where
  disciplined : Disciplined b s.calls
  blank : .exited 3 ∈ s.calls ↔ blank
  restarted : .requestRestart ∈ s.calls ↔ restarted
  idle : busy = false → s.busy = false

variable {busy : Bool} {blank restarted : Prop} {s : Render}

theorem Mid.congr {blank' restarted' : Prop} (h : Mid b busy blank restarted s)
    (hblank : blank ↔ blank') (hrestarted : restarted ↔ restarted') :
    Mid b busy blank' restarted' s :=
  ⟨h.disciplined, h.blank.trans hblank, h.restarted.trans hrestarted, h.idle⟩

theorem Mid.record (h : Mid b busy blank restarted s) (hallowed : Allowed b s.calls call)
    (hexit : call ≠ .exited 3) (hrequest : call ≠ .requestRestart) :
    Mid b busy blank restarted (s.calling call) where
  disciplined := h.disciplined.snoc hallowed
  blank := by simpa [Render.calling, hexit.symm] using h.blank
  restarted := by simpa [Render.calling, hrequest.symm] using h.restarted
  idle := h.idle

theorem Mid.neutral (h : Mid b busy blank restarted s) (hcall : call.neutral = true) :
    Mid b busy blank restarted (s.calling call) := by
  apply h.record
  · cases call <;> trivial
  · rintro rfl
    simp [Call.neutral] at hcall
  · rintro rfl
    simp [Call.neutral] at hcall

end Traces

section Rules
variable {Image α : Type} {b : Behaviour Image} {P R : Render → Prop} {Q : α → Render → Prop}
  {E : Raised → Render → Prop} {op : Operation} {call : Call} {m : M α}

theorem record_triple (h : ∀ s, P s → R (s.calling call)) :
    Triple P (record call) (fun _ => R) E :=
  Triple.of_modify h

theorem record_bind {m : M α} (h : ∀ s, P s → R (s.calling call)) (hm : Triple R m Q E) :
    Triple P (record call >>= fun _ => m) Q E :=
  Triple.bind (record_triple h) fun _ => hm

/-- An operation that fails does so with a plain text. -/
theorem perform_triple (hplain : b.Plain)
    (hfail : works b op = false → ∀ e s, isCorrupt e.text = false → P s → E e s) :
    Triple P (perform b op) (fun _ s => P s ∧ works b op = true) E := by
  rw [perform]
  cases hop : b.fails op with
  | none => exact Triple.of_pure fun s hs => ⟨hs, by rw [works, hop]; rfl⟩
  | some e =>
    have hfails : works b op = false := by rw [works, hop]; rfl
    exact Triple.of_throw fun s hs => hfail hfails e s (hplain op e hop) hs

theorem perform_bind (hplain : b.Plain)
    (hfail : works b op = false → ∀ e s, isCorrupt e.text = false → P s → E e s)
    (hm : works b op = true → Triple P m Q E) :
    Triple P (perform b op >>= fun _ => m) Q E :=
  Triple.bind (perform_triple hplain hfail) fun _ => Triple.of_assumed hm

/-- A `KeyError` names its key in quotes. -/
theorem item_bind {fields : Dict} {key : String}
    (hfail : has fields key = false → ∀ e s, isCorrupt e.text = false → P s → E e s)
    (hm : has fields key = true → Triple P m Q E) :
    Triple P (item fields key >>= fun _ => m) Q E := by
  rw [item]
  cases hkey : (Json.object fields).field key with
  | none =>
    have hfails : has fields key = false := by rw [has, hkey]; rfl
    have htext : isCorrupt ("'" ++ key ++ "'") = false := isCorrupt_eq_false (by simp)
    exact Triple.bind (Q := fun _ _ => False) (Triple.of_throw fun s hs =>
      hfail hfails ⟨.exception, _⟩ s htext hs) fun _ => Triple.of_false fun _ => id
  | some value =>
    have hhas : has fields key = true := by rw [has, hkey]; rfl
    exact Triple.bind (Triple.of_pure fun s hs => hs) fun _ => hm hhas

end Rules

section Running
variable {Image α : Type} {b : Behaviour Image} {busy : Bool} {e : Raised} {s : Render}
  {blank told : Prop}

/-- Only a blank render is told in the words of one. -/
structure Told (e : Raised) (told : Prop) : Prop where
  corrupt : told → e.kind = .runtimeError ∧ isCorrupt e.text = true
  plain : ¬told → isCorrupt e.text = false

/-- What lets forge2 be launched. -/
structure Cleared (b : Behaviour Image) (s : Render) : Prop where
  memory : lastMeasured s.calls = some false
  comfyui : b.supervisor.isSome → .ensureRunning true ∈ s.calls

/-- Before forge2 has exited. -/
def Quiet (b : Behaviour Image) (busy : Bool) (s : Render) : Prop := Mid b busy False False s

def Ready (b : Behaviour Image) (busy : Bool) (s : Render) : Prop := Quiet b busy s ∧ Cleared b s

def Returned (b : Behaviour Image) (busy : Bool) (blank : Prop) (s : Render) : Prop :=
  Mid b busy blank False s ∧ ¬blank

def Failed (b : Behaviour Image) (busy : Bool) (blank told : Prop) (e : Raised) (s : Render) :
    Prop :=
  Mid b busy blank False s ∧ Told e told

/-- An exception that has nothing to do with what forge2 has made. -/
def Refused (b : Behaviour Image) (busy : Bool) (e : Raised) (s : Render) : Prop :=
  Quiet b busy s ∧ isCorrupt e.text = false

/-- From a state that is cleared, the computation comes to a blank render if and only if
`blank`, and says so if and only if `told`. -/
def Generates (b : Behaviour Image) (m : M α) (blank told : Prop) : Prop :=
  ∀ busy, Triple (Ready b busy) m (fun _ => Returned b busy blank)
    (Failed b busy blank told)

theorem Quiet.returned (h : Quiet b busy s) (hblank : ¬blank) : Returned b busy blank s :=
  ⟨h.congr (by simp [hblank]) Iff.rfl, hblank⟩

theorem Quiet.failed (h : Quiet b busy s) (hblank : ¬blank) (htold : told → blank)
    (htext : isCorrupt e.text = false) : Failed b busy blank told e s :=
  ⟨h.congr (by simp [hblank]) Iff.rfl, fun ht => absurd (htold ht) hblank, fun _ => htext⟩

theorem Cleared.record {call : Call} (h : Cleared b s) (hcall : call.short = none) :
    Cleared b (s.calling call) where
  memory := (lastMeasured_snoc hcall).trans h.memory
  comfyui hb := List.mem_append_left _ (h.comfyui hb)

theorem waitForge2_spec (hplain : b.Plain) :
    Triple (Quiet b busy) (waitForge2 b)
      (fun _ s => Mid b busy (b.exitCode = 3) False s ∧ works b .wait = true)
      (fun e s => Refused b busy e s ∧ works b .wait = false) := by
  have hbody : Triple (Quiet b busy) (do perform b .wait; record (.exited b.exitCode))
      (fun _ s => Mid b busy (b.exitCode = 3) False s ∧ works b .wait = true)
      (fun e s => Refused b busy e s ∧ works b .wait = false) := by
    apply perform_bind hplain
    · intro hwait e s htext hs
      exact ⟨⟨hs, htext⟩, hwait⟩
    · intro hwait
      apply record_triple
      intro s hs
      refine ⟨?_, hwait⟩
      by_cases hcode : b.exitCode = 3
      · exact
          { disciplined := hs.disciplined.snoc trivial
            blank := by simp [Render.calling, hcode]
            restarted := by simpa [Render.calling] using hs.restarted
            idle := hs.idle }
      · exact (hs.neutral (by simp [Call.neutral, hcode])).congr (by simp [hcode]) Iff.rfl
  apply Triple.of_tryCatch hbody
  intro e
  apply perform_bind hplain
  · intro _ e' s htext hs
    exact ⟨⟨hs.1.1, htext⟩, hs.2⟩
  · intro _
    apply perform_bind hplain
    · intro _ e' s htext hs
      exact ⟨⟨hs.1.1, htext⟩, hs.2⟩
    · intro _
      exact Triple.of_throw fun s hs => hs

/-- What `_run_forge2` returns is what forge2 exited with. -/
theorem runForge2_spec (hplain : b.Plain) :
    Triple (Ready b busy) (runForge2 b)
      (fun r s => (Mid b busy (exitsCorrupt b = true) False s ∧ r.1 = b.exitCode) ∧
        (exitsCorrupt b = true ↔ b.exitCode = FORGE2_CORRUPT_EXIT_CODE))
      (Failed b busy (exitsCorrupt b = true) (exitsCorrupt b = true)) := by
  have hquiet : ∀ e s, exitsCorrupt b = false → isCorrupt e.text = false → Quiet b busy s →
      Failed b busy (exitsCorrupt b = true) (exitsCorrupt b = true) e s :=
    fun e s hexit htext hs => hs.failed (by simp [hexit]) id htext
  apply record_bind (R := Quiet b busy)
  · intro s hs
    exact hs.1.record ⟨hs.2.memory, hs.2.comfyui⟩ nofun nofun
  apply perform_bind hplain
  · intro hpopen e s htext hs
    exact hquiet e s (by simp [exitsCorrupt, hpopen]) htext hs
  intro hpopen
  apply perform_bind hplain
  · intro hreader e s htext hs
    exact hquiet e s (by simp [exitsCorrupt, hreader]) htext hs
  intro hreader
  apply Triple.bind ((waitForge2_spec hplain).exn fun e s he =>
    hquiet e s (by simp [exitsCorrupt, he.2]) he.1.2 he.1.1)
  intro _
  apply Triple.of_pure
  intro s hs
  have hexit : exitsCorrupt b = true ↔ b.exitCode = FORGE2_CORRUPT_EXIT_CODE := by
    simp [exitsCorrupt, hpopen, hreader, hs.2]
  exact ⟨⟨hs.1.congr hexit.symm Iff.rfl, rfl⟩, hexit⟩

/-- Exit 3 is a blank render, and any other exit but 0 an ordinary failure. -/
theorem raiseForForge2Failure_spec (tail : List String) :
    Triple (Mid b busy (b.exitCode = FORGE2_CORRUPT_EXIT_CODE) False)
      (raiseForForge2Failure b b.exitCode tail)
      (fun _ s => Quiet b busy s ∧ b.exitCode ≠ FORGE2_CORRUPT_EXIT_CODE)
      (Failed b busy (b.exitCode = FORGE2_CORRUPT_EXIT_CODE)
        (b.exitCode = FORGE2_CORRUPT_EXIT_CODE)) := by
  apply Triple.of_ite
  · intro hcode
    exact Triple.of_throw fun s hs =>
      ⟨hs, fun _ => ⟨rfl, corruptText_isCorrupt tail⟩, fun h => absurd hcode h⟩
  · intro hcode
    have hquiet : ∀ s, Mid b busy (b.exitCode = FORGE2_CORRUPT_EXIT_CODE) False s →
        Quiet b busy s := fun s hs => hs.congr (by simp [hcode]) Iff.rfl
    apply Triple.of_ite
    · intro _
      exact Triple.of_throw fun s hs =>
        (hquiet s hs).failed hcode id (isCorrupt_eq_false (by simp))
    · intro _
      exact Triple.of_pure fun s hs => ⟨hquiet s hs, hcode⟩

theorem generate_spec (hplain : b.Plain) {output : M α}
    (houtput : ∀ busy, Triple (Quiet b busy) output (fun _ => Quiet b busy)
      (Refused b busy)) :
    Generates b (generate b output) (exitsCorrupt b = true) (exitsCorrupt b = true) := by
  intro busy
  apply Triple.bind (runForge2_spec hplain)
  rintro ⟨returncode, tail⟩
  apply Triple.of_assumed
  intro hexit
  apply Triple.of_assumed
  rintro rfl
  rw [hexit]
  apply Triple.bind (raiseForForge2Failure_spec tail)
  intro _
  apply Triple.of_assumed
  intro hcode
  exact (houtput busy).conseq (fun _ hs => hs) (fun _ _ hs => hs.returned hcode)
    fun _ _ he => he.1.failed hcode id he.2

/-- An exception of the clean-up hides a blank render. -/
theorem cleanup_spec (hplain : b.Plain) {P : Render → Prop} {m : M α}
    (hm : Triple P m (fun _ => Returned b busy blank) (Failed b busy blank blank)) :
    Triple P (tryFinally m (perform b .cleanup)) (fun _ => Returned b busy blank)
      (Failed b busy blank (blank ∧ works b .cleanup = true)) := by
  apply Triple.of_tryFinally hm
  · intro _
    exact (perform_triple hplain fun _ e s htext hs =>
      ⟨hs.1, fun ht => absurd ht.1 hs.2, fun _ => htext⟩).post fun _ _ hs => hs.1
  · intro e
    refine (perform_triple hplain fun hfails e s htext hs =>
      ⟨hs.1, fun ht => ?_, fun _ => htext⟩).post fun _ s hs =>
        ⟨hs.1.1, fun ht => hs.1.2.corrupt ht.1, fun ht => hs.1.2.plain fun h => ht ⟨h, hs.2⟩⟩
    rw [hfails] at ht
    cases ht.2

theorem buildCommand_bind {P : Render → Prop} {Q : α → Render → Prop}
    {E : Raised → Render → Prop} {profile : Json} {m : M α}
    (hfail : supported profile = false → ∀ e s, isCorrupt e.text = false → P s → E e s)
    (hm : supported profile = true → Triple P m Q E) :
    Triple P (buildCommand b profile >>= fun _ => m) Q E := by
  rw [buildCommand]
  cases hprofile : supported profile with
  | true => exact Triple.bind (Triple.of_pure fun s hs => hs) fun _ => hm hprofile
  | false =>
    have htext : isCorrupt ("unsupported image profile: " ++ b.profileRepr) = false :=
      isCorrupt_eq_false (by simp)
    exact Triple.bind (Q := fun _ _ => False) (Triple.of_throw fun s hs =>
      hfail hprofile ⟨.exception, _⟩ s htext hs) fun _ => Triple.of_false fun _ => id

theorem runHeroCandidate_spec (hplain : b.Plain) {profile : Json} :
    Generates b (runHeroCandidate b profile)
      (supported profile = true ∧ makesDirectory b = true ∧ exitsCorrupt b = true)
      ((supported profile = true ∧ makesDirectory b = true ∧ exitsCorrupt b = true) ∧
        works b .cleanup = true) := by
  intro busy
  apply perform_bind hplain
  · intro hdir e s htext hs
    exact hs.1.failed (by simp [makesDirectory, hdir]) And.left htext
  intro hdir
  apply cleanup_spec hplain
  apply perform_bind hplain
  · intro hcard e s htext hs
    exact hs.1.failed (by simp [makesDirectory, hcard]) id htext
  intro hcard
  apply buildCommand_bind
  · intro hprofile e s htext hs
    exact hs.1.failed (by simp [hprofile]) id htext
  intro hprofile
  have hmakes : makesDirectory b = true := by simp [makesDirectory, hdir, hcard]
  simp only [hprofile, hmakes, true_and]
  apply generate_spec hplain
  intro busy
  apply perform_bind hplain
  · intro _ e s htext hs
    exact ⟨hs, htext⟩
  intro _
  apply perform_bind hplain
  · intro _ e s htext hs
    exact ⟨hs, htext⟩
  intro _
  exact Triple.of_pure fun _ hs => hs

theorem readOutput_spec (hplain : b.Plain) (busy : Bool) :
    Triple (Quiet b busy) (do perform b .readOutput; return b.image) (fun _ => Quiet b busy)
      (Refused b busy) := by
  apply perform_bind hplain
  · intro _ e s htext hs
    exact ⟨hs, htext⟩
  · intro _
    exact Triple.of_pure fun _ hs => hs

/-- A render from the workspace has no directory to clean up. -/
theorem runReal_local_spec (hplain : b.Plain) {profile : Json} :
    Generates b (runReal b profile false false)
      (supported profile = true ∧ exitsCorrupt b = true)
      (supported profile = true ∧ exitsCorrupt b = true) := by
  intro busy
  apply buildCommand_bind
  · intro hprofile e s htext hs
    exact hs.1.failed (by simp [hprofile]) id htext
  intro hprofile
  simp only [hprofile, true_and]
  exact Triple.of_tryFinally (generate_spec hplain (readOutput_spec hplain) busy)
    (fun _ => Triple.of_pure fun _ hs => hs) fun _ => Triple.of_pure fun _ hs => hs

theorem runReal_remote_spec (hplain : b.Plain) {profile : Json} :
    Generates b (runReal b profile true true)
      (makesDirectory b = true ∧ supported profile = true ∧ exitsCorrupt b = true)
      ((makesDirectory b = true ∧ supported profile = true ∧ exitsCorrupt b = true) ∧
        works b .cleanup = true) := by
  intro busy
  apply perform_bind hplain
  · intro hdir e s htext hs
    exact hs.1.failed (by simp [makesDirectory, hdir]) And.left htext
  intro hdir
  apply perform_bind hplain
  · intro hcard e s htext hs
    exact hs.1.failed (by simp [makesDirectory, hcard]) And.left htext
  intro hcard
  apply buildCommand_bind
  · intro hprofile e s htext hs
    exact hs.1.failed (by simp [hprofile]) And.left htext
  intro hprofile
  have hmakes : makesDirectory b = true := by simp [makesDirectory, hdir, hcard]
  simp only [hprofile, hmakes, true_and]
  exact cleanup_spec hplain (generate_spec hplain (readOutput_spec hplain) busy)

theorem runReal_spec (hplain : b.Plain) {profile : Json} {heroPath card : Bool} :
    Generates b (runReal b profile heroPath (heroPath && card))
      (((supported profile && (!heroPath || card && makesDirectory b)) = true) ∧
        exitsCorrupt b = true)
      ((((supported profile && (!heroPath || card && makesDirectory b)) = true) ∧
        exitsCorrupt b = true) ∧ (heroPath = true → works b .cleanup = true)) := by
  cases heroPath with
  | false => simpa using runReal_local_spec hplain
  | true =>
    cases card with
    | true =>
      have hspec := @runReal_remote_spec Image b hplain profile
      simpa [and_assoc, and_left_comm] using hspec
    | false =>
      intro busy
      have htext : isCorrupt "remote render requires both hero_path and character_card" = false :=
        isCorrupt_eq_false (by simp)
      exact Triple.of_throw fun s hs => hs.1.failed (by simp) And.left htext

/-- The payload of a render of `_render_real`. -/
theorem realPayload_spec (hplain : b.Plain) {payload : Dict} {heroPath : Bool} :
    Generates b
      (do
        let _ ← item payload "character_id"
        let _ ← item payload "task"
        runReal b (profileOf payload) heroPath (heroPath && hasValue payload "character_card"))
      (realReady b payload heroPath = true ∧ exitsCorrupt b = true)
      ((realReady b payload heroPath = true ∧ exitsCorrupt b = true) ∧
        (heroPath = true → works b .cleanup = true)) := by
  intro busy
  apply item_bind
  · intro hid e s htext hs
    exact hs.1.failed (by simp [realReady, hid]) And.left htext
  intro hid
  apply item_bind
  · intro htask e s htext hs
    exact hs.1.failed (by simp [realReady, htask]) And.left htext
  intro htask
  simp only [realReady, hid, htask, Bool.true_and]
  exact runReal_spec hplain busy

theorem heroPayload_spec (hplain : b.Plain) {payload : Dict} :
    Generates b
      (do
        let _ ← item payload "character_card"
        let _ ← item payload "seed"
        runHeroCandidate b (profileOf payload))
      (heroReady b payload = true ∧ exitsCorrupt b = true)
      ((heroReady b payload = true ∧ exitsCorrupt b = true) ∧ works b .cleanup = true) := by
  intro busy
  apply item_bind
  · intro hcard e s htext hs
    exact hs.1.failed (by simp [heroReady, hcard]) And.left htext
  intro hcard
  apply item_bind
  · intro hseed e s htext hs
    exact hs.1.failed (by simp [heroReady, hseed]) And.left htext
  intro hseed
  simp only [heroReady, hcard, hseed, Bool.true_and, Bool.and_eq_true, and_assoc]
  simpa only [and_assoc] using runHeroCandidate_spec hplain busy

/-- How a render ends: a restart is requested if there is a supervisor to ask and the
exception tells of a blank render. -/
def Ended (b : Behaviour Image) (busy : Bool) (blank told : Prop) (e : Raised) (s : Render) :
    Prop :=
  Mid b busy blank (b.supervisor.isSome ∧ told) s ∧ Told e told

theorem Quiet.ended (h : Quiet b busy s) (hblank : ¬blank) (htold : told → blank)
    (htext : isCorrupt e.text = false) : Ended b busy blank told e s :=
  ⟨h.congr (by simp [hblank]) (by simp [mt htold hblank]), (h.failed hblank htold htext).2⟩

theorem requestingRestart_spec {m : M α} (hm : Generates b m blank told) :
    Triple (Ready b busy) (requestingRestart b m)
      (fun _ => Returned b busy blank) (Ended b busy blank told) := by
  apply Triple.of_tryCatch (hm busy)
  intro e
  by_cases hblank : e.kind = .runtimeError ∧ b.supervisor.isSome ∧ isCorrupt e.text
  · rw [if_pos hblank]
    apply record_bind (R := Ended b busy blank told e)
    · intro s hs
      have htold : told := by
        by_contra h
        rw [hs.2.plain h] at hblank
        exact absurd hblank.2.2 nofun
      exact
        { left :=
            { disciplined := hs.1.disciplined.snoc trivial
              blank := by simpa [Render.calling] using hs.1.blank
              restarted := by simp [Render.calling, hblank.2.1, htold]
              idle := hs.1.idle }
          right := hs.2 }
    · exact Triple.of_throw fun s hs => hs
  · rw [if_neg hblank]
    apply Triple.of_throw
    intro s hs
    refine ⟨hs.1.congr Iff.rfl ⟨False.elim, fun ht => hblank ?_⟩, hs.2⟩
    obtain ⟨hkind, htext⟩ := hs.2.corrupt ht.2
    exact ⟨hkind, ht.1, htext⟩

section Lead
variable {P : Render → Prop} {E : Raised → Render → Prop}

theorem update_spec {task : Dict} {stage message : String}
    (hP : ∀ s, P s → P (s.calling (.update stage message)))
    (hfail : updates b task = false → ∀ e s, isCorrupt e.text = false → P s → E e s) :
    Triple P (update b task stage message) (fun _ s => P s ∧ updates b task = true) E := by
  have hrecord : updates b task = true →
      Triple P (record (.update stage message)) (fun _ s => P s ∧ updates b task = true) E :=
    fun hupdates => record_triple fun s hs => ⟨hP s hs, hupdates⟩
  apply Triple.of_ite
  · intro hheartbeat
    apply Triple.of_ite
    · intro hempty
      exact hrecord (by simp [updates, hempty])
    · intro htask
      apply item_bind
      · intro hid
        exact hfail (by simp [updates, hheartbeat, htask, hid])
      intro hid
      apply item_bind
      · intro htoken
        exact hfail (by simp [updates, hheartbeat, htask, htoken])
      intro htoken
      exact hrecord (by simp [updates, hid, htoken])
  · intro hheartbeat
    exact Triple.of_pure fun s hs => ⟨hs, by simp [updates, hheartbeat]⟩

/-- Between the gate and the launch. -/
def Admitted (b : Behaviour Image) (busy : Bool) (s : Render) : Prop :=
  Quiet b busy s ∧ lastMeasured s.calls = some false

theorem Admitted.neutral {call : Call} (h : Admitted b busy s) (hcall : call.neutral = true)
    (hshort : call.short = none) : Admitted b busy (s.calling call) :=
  ⟨h.1.neutral hcall, (lastMeasured_snoc hshort).trans h.2⟩

theorem Ready.neutral {call : Call} (h : Ready b busy s) (hcall : call.neutral = true)
    (hshort : call.short = none) : Ready b busy (s.calling call) :=
  ⟨h.1.neutral hcall, h.2.record hshort⟩

theorem ensureRunning_spec (hplain : b.Plain)
    (hfail : works b .ensureRunning = false → ∀ e s, isCorrupt e.text = false →
      Quiet b busy s → E e s) :
    Triple (Admitted b busy) (ensureRunning b)
      (fun _ s => Ready b busy s ∧ works b .ensureRunning = true) E := by
  apply record_bind (R := fun s => Admitted b busy s ∧
    .ensureRunning (works b .ensureRunning) ∈ s.calls)
  · intro s hs
    exact ⟨hs.neutral rfl rfl, by simp [Render.calling, works]⟩
  · apply (perform_triple hplain fun hfails e s htext hs => hfail hfails e s htext hs.1.1).post
    intro _ s hs
    obtain ⟨⟨hadmitted, hmem⟩, hreturns⟩ := hs
    rw [hreturns] at hmem
    exact ⟨⟨hadmitted.1, hadmitted.2, fun _ => hmem⟩, hreturns⟩

end Lead

/-- A measurement, and what it adds to the message. -/
theorem memoryShortfall_spec (hplain : b.Plain) {again : Bool} :
    Triple (Quiet b busy) (memoryShortfall b again)
      (fun found s => ((Quiet b busy s ∧ lastMeasured s.calls = some (b.shortfall again).isSome) ∧
        found = (b.shortfall again).map ("insufficient_memory: " ++ ·)) ∧
          works b (.memoryShortfall again) = true)
      (fun e s => Refused b busy e s ∧
        works b (.memoryShortfall again) = false) := by
  apply perform_bind hplain
  · intro hfails e s htext hs
    exact ⟨⟨hs, htext⟩, hfails⟩
  intro hmeasured
  apply record_bind (R := fun s => Quiet b busy s ∧
    lastMeasured s.calls = some (b.shortfall again).isSome)
  · intro s hs
    exact ⟨hs.neutral rfl, lastMeasured_measured _⟩
  · exact Triple.of_pure fun s hs => ⟨⟨hs, rfl⟩, hmeasured⟩

/-- A shortfall refuses the render in its own words. -/
theorem refuse_spec (short : Option String) :
    Triple (fun s => Quiet b busy s ∧ lastMeasured s.calls = some short.isSome)
      (refuse (short.map ("insufficient_memory: " ++ ·)))
      (fun _ s => Admitted b busy s ∧ short.isNone = true)
      (fun e s => Refused b busy e s ∧ short.isNone = false) := by
  cases short with
  | none => exact Triple.of_pure fun s hs => ⟨hs, rfl⟩
  | some rest =>
    exact Triple.of_throw fun s hs => ⟨⟨hs.1, isCorrupt_eq_false (by simp)⟩, rfl⟩

/-- The managed ComfyUI is stopped after a shortfall and before the second measurement. -/
theorem free_spec (hplain : b.Plain) (hmanaged : b.supervisor = some true) :
    Triple (fun s => Quiet b busy s ∧ lastMeasured s.calls = some true)
      (do
        perform b .log
        record .stop
        perform b .stop
        memoryShortfall b true)
      (fun found s => ((Quiet b busy s ∧ lastMeasured s.calls = some (b.shortfall true).isSome) ∧
        found = (b.shortfall true).map ("insufficient_memory: " ++ ·)) ∧
          frees b = true)
      (fun e s => Refused b busy e s ∧ frees b = false) := by
  rw [frees]
  apply perform_bind hplain
  · intro hlog e s htext hs
    exact ⟨⟨hs.1, htext⟩, by simp [hlog]⟩
  intro hlog
  apply record_bind (R := Quiet b busy)
  · intro s hs
    exact hs.1.record ⟨hmanaged, hs.2⟩ nofun nofun
  apply perform_bind hplain
  · intro hstop e s htext hs
    exact ⟨⟨hs, htext⟩, by simp [hstop]⟩
  intro hstop
  simp only [hlog, hstop, Bool.true_and]
  exact memoryShortfall_spec hplain

/-- The memory gate passes after a measurement without a shortfall. -/
theorem memoryGate_spec (hplain : b.Plain) :
    Triple (Quiet b busy) (memoryGate b) (fun _ s => Admitted b busy s ∧ admits b = true)
      (fun e s => Refused b busy e s ∧ admits b = false) := by
  apply Triple.bind ((memoryShortfall_spec hplain).exn fun e s he =>
    ⟨he.1, by simp [admits, he.2]⟩)
  intro found
  apply Triple.of_assumed
  intro hmeasured
  apply Triple.of_assumed
  rintro rfl
  cases hfirst : b.shortfall false with
  | none =>
    have hadmits : admits b = true := by simp [admits, hmeasured, hfirst]
    exact Triple.of_pure fun s hs => ⟨hs, hadmits⟩
  | some rest =>
    by_cases hmanaged : b.supervisor = some true
    · rw [Option.map_some, remeasure, if_pos hmanaged]
      apply Triple.bind ((free_spec hplain hmanaged).exn fun e s he =>
        ⟨he.1, by simp [admits, hfirst, he.2]⟩)
      intro found
      apply Triple.of_assumed
      intro hfreed
      apply Triple.of_assumed
      rintro rfl
      have hadmits : admits b = (b.shortfall true).isNone := by
        simp [admits, hfirst, hmeasured, hmanaged, hfreed]
      rw [hadmits]
      exact refuse_spec (b.shortfall true)
    · have hadmits : admits b = false := by simp [admits, hfirst, hmanaged]
      rw [hadmits, Option.map_some, remeasure, if_neg hmanaged]
      exact (refuse_spec (some rest)).post fun _ s hs => nomatch hs.2

/-- Up to the inner `try` statement. -/
theorem prepare_spec (hplain : b.Plain) {task : Dict} {stage message : String} {m : M α}
    (hm : Generates b m blank told) (htold : told → blank) :
    Triple (Admitted b busy)
      (do
        supervised b do
          update b task "starting_comfyui" "Making sure ComfyUI is running"
          ensureRunning b
        update b task stage message
        requestingRestart b m)
      (fun _ => Returned b busy (prepares b task = true ∧ blank))
      (Ended b busy (prepares b task = true ∧ blank) (prepares b task = true ∧ told)) := by
  have hrefused : prepares b task = false → ∀ e s, isCorrupt e.text = false → Quiet b busy s →
      Ended b busy (prepares b task = true ∧ blank) (prepares b task = true ∧ told) e s :=
    fun hprepares e s htext hs =>
      hs.ended (by simp [hprepares]) (fun ht => ⟨ht.1, htold ht.2⟩) htext
  apply Triple.bind (Q := fun _ s => Ready b busy s ∧
    (b.supervisor.isNone || works b .ensureRunning) = true)
  · apply Triple.of_ite
    · intro hsupervised
      have hsup : b.supervisor.isNone = false := by
        rwa [← Option.not_isSome, Bool.not_eq_false']
      apply Triple.bind (update_spec (fun s hs => Admitted.neutral hs rfl rfl)
        fun hupdate e s htext hs => hrefused (by simp [prepares, hupdate]) e s htext hs.1)
      intro _
      apply Triple.of_assumed
      intro hupdate
      rw [hsup, Bool.false_or]
      exact ensureRunning_spec hplain fun hensure e s htext hs =>
        hrefused (by simp [prepares, hensure, hsup]) e s htext hs
    · intro hunsupervised
      have hsup : b.supervisor.isNone = true := by simpa using hunsupervised
      exact Triple.of_pure fun s hs =>
        ⟨⟨hs.1, hs.2, fun h => absurd h hunsupervised⟩, by simp [hsup]⟩
  intro _
  apply Triple.of_assumed
  intro hensure
  apply Triple.bind (update_spec (fun s hs => Ready.neutral hs rfl rfl) fun hupdate e s htext hs =>
    hrefused (by simp [prepares, hupdate]) e s htext hs.1)
  intro _
  apply Triple.of_assumed
  intro hupdate
  have hprepares : prepares b task = true := by rw [prepares, hupdate, hensure]; rfl
  simp only [hprepares, true_and]
  exact requestingRestart_spec hm

/-- The flag is down after `mark_idle`. -/
theorem Mid.markIdle {restarted : Prop} (h : Mid b true blank restarted s) :
    Mid b busy blank restarted { s.calling .markIdle with busy := false } := by
  have hcalled : Mid b true blank restarted (s.calling .markIdle) := h.neutral rfl
  exact ⟨hcalled.disciplined, hcalled.blank, hcalled.restarted, fun _ => rfl⟩

theorem Admitted.markBusy (h : Admitted b busy s) :
    Admitted b true { s.calling .markBusy with busy := true } := by
  have hcalled : Admitted b busy (s.calling .markBusy) := h.neutral rfl rfl
  exact ⟨⟨hcalled.1.disciplined, hcalled.1.blank, hcalled.1.restarted, nofun⟩, hcalled.2⟩

/-- A render comes to a blank render if the memory gate and the preparations let it, and
with a supervisor it leaves the flag down. -/
theorem render_spec (hplain : b.Plain) {task : Dict} {stage message : String} {m : M α}
    (hm : Generates b m blank told) (htold : told → blank) :
    Triple (Quiet b busy) (render b task stage message m)
      (fun _ => Returned b busy (admits b = true ∧ prepares b task = true ∧ blank))
      (Ended b busy (admits b = true ∧ prepares b task = true ∧ blank)
        (admits b = true ∧ prepares b task = true ∧ told)) := by
  apply Triple.bind ((memoryGate_spec hplain).exn fun e s he =>
    he.1.1.ended (by simp [he.2]) (fun ht => ⟨ht.1, ht.2.1, htold ht.2.2⟩) he.1.2)
  intro _
  apply Triple.of_assumed
  intro hadmits
  simp only [hadmits, true_and]
  cases hsup : b.supervisor.isSome with
  | false =>
    have hskip : ∀ m : M Unit, supervised b m = pure () := fun m => by rw [supervised, hsup]; rfl
    rw [hskip markBusy, hskip markIdle, pure_bind]
    refine Triple.of_tryFinally (prepare_spec hplain hm htold) ?_ ?_
    · exact fun _ => Triple.of_pure fun s hs => hs
    · exact fun _ => Triple.of_pure fun s hs => hs
  | true =>
    have hcall : ∀ m : M Unit, supervised b m = m := fun m => by rw [supervised, hsup]; rfl
    rw [hcall markBusy, hcall markIdle]
    apply Triple.bind (Q := fun _ => Admitted b true) (Triple.of_modify fun s => Admitted.markBusy)
    intro _
    refine Triple.of_tryFinally (prepare_spec hplain hm htold) ?_ ?_
    · exact fun _ => Triple.of_modify fun s hs => ⟨hs.1.markIdle, hs.2⟩
    · exact fun _ => Triple.of_modify fun s hs => ⟨hs.1.markIdle, hs.2⟩

theorem renderReal_spec (hplain : b.Plain) {task payload : Dict} {heroPath : Bool} :
    Triple (Quiet b busy) (renderReal b task payload heroPath)
      (fun _ => Returned b busy (realBlank b task payload heroPath = true))
      (Ended b busy (realBlank b task payload heroPath = true)
        (realBlank b task payload heroPath = true ∧
          (heroPath = true → works b .cleanup = true))) := by
  have hspec : Triple (Quiet b busy) (renderReal b task payload heroPath) _ _ :=
    render_spec hplain (realPayload_spec hplain) And.left
  simpa only [realBlank, Bool.and_eq_true, and_assoc] using hspec

theorem renderHeroCandidateReal_spec (hplain : b.Plain) {task payload : Dict} :
    Triple (Quiet b busy) (renderHeroCandidateReal b task payload)
      (fun _ => Returned b busy (heroBlank b task payload = true))
      (Ended b busy (heroBlank b task payload = true)
        (heroBlank b task payload = true ∧ works b .cleanup = true)) := by
  have hspec : Triple (Quiet b busy) (renderHeroCandidateReal b task payload) _ _ :=
    render_spec hplain (heroPayload_spec hplain) And.left
  simpa only [heroBlank, Bool.and_eq_true, and_assoc] using hspec

end Running

section Outcome
variable {Image α : Type} {b : Behaviour Image} {busy : Bool} {blank told : Prop}

theorem quiet_start : Quiet b busy { busy, calls := [] } where
  disciplined before call after h := by simp at h
  blank := by simp
  restarted := by simp
  idle := id

/-- A corrupt text reaches `report_failure` if and only if the exception tells of a blank
render. -/
theorem reported_corrupt {e : Raised} (h : Told e told) :
    (∃ text, reported (α := α) (.error e) = some text ∧ isCorrupt text) ↔ told := by
  constructor
  · rintro ⟨text, htext, hcorrupt⟩
    by_contra htold
    rw [reported] at htext
    split at htext
    · cases htext
    · cases htext
      rw [h.plain htold] at hcorrupt
      cases hcorrupt
  · intro htold
    obtain ⟨hkind, hcorrupt⟩ := h.corrupt htold
    exact ⟨e.text, by rw [reported, hkind]; rfl, hcorrupt⟩

theorem lifecycle_iff_of_spec {m : M α} (htold : told → blank)
    (hm : Triple (Quiet b busy) m (fun _ => Returned b busy blank) (Ended b busy blank told)) :
    Lifecycle b busy (renderFrom busy m) ↔ ¬(blank ∧ ¬told) := by
  rcases hrun : renderFrom busy m with ⟨e | a, s⟩
  · obtain ⟨hmid, hsaid⟩ := hm.raises _ e s quiet_start hrun
    have hreports := reported_corrupt (α := α) hsaid
    constructor
    · intro hlife hblank
      exact hblank.2 (hreports.1 (hlife.reports.2 (hmid.blank.2 hblank.1)))
    · intro hclear
      have hboth : told ↔ blank := ⟨htold, fun h => by_contra fun ht => hclear ⟨h, ht⟩⟩
      exact
        { launches := fun before after h => hmid.disciplined before .launch after h
          stops := fun before after h => hmid.disciplined before .stop after h
          idle := hmid.idle
          restarts := by rw [hmid.restarted, hmid.blank, hboth]
          reports := by rw [hreports, hmid.blank, hboth] }
  · obtain ⟨hmid, hblank⟩ := hm.returns _ a s quiet_start hrun
    refine iff_of_true ?_ fun h => hblank h.1
    exact
      { launches := fun before after h => hmid.disciplined before .launch after h
        stops := fun before after h => hmid.disciplined before .stop after h
        idle := hmid.idle
        restarts := by simp [hmid.restarted, hmid.blank, hblank]
        reports := by simp [hmid.blank, hblank, reported] }

/-- Both render functions keep the life cycle, unless forge2 exits with the code of a blank
render and the temporary directory then cannot be cleaned up. -/
theorem lifecycle_iff {b : Behaviour Image} (hplain : b.Plain) (busy : Bool)
    (task payload : Dict) (heroPath : Bool) :
    (Lifecycle b busy (renderFrom busy (renderReal b task payload heroPath)) ↔
      ¬(realBlank b task payload heroPath ∧ heroPath ∧ works b .cleanup = false)) ∧
    (Lifecycle b busy (renderFrom busy (renderHeroCandidateReal b task payload)) ↔
      ¬(heroBlank b task payload ∧ works b .cleanup = false)) := by
  constructor
  · refine (lifecycle_iff_of_spec And.left (renderReal_spec hplain)).trans
      (not_congr (and_congr_right fun hblank => ?_))
    simp [hblank]
  · refine (lifecycle_iff_of_spec And.left (renderHeroCandidateReal_spec hplain)).trans
      (not_congr (and_congr_right fun hblank => ?_))
    simp [hblank]

/-- forge2 reports a blank render; something else keeps the directory busy. -/
def blankRender (cleanupFails : Bool) : Behaviour Unit where
  fails op := if op = .cleanup ∧ cleanupFails then
    some ⟨.exception, "[Errno 66] Directory not empty: '/tmp/ai-bharatiya-render-1'"⟩ else none
  stderr := ["corrupt_output: uniform image saved as result.png\n"]
  exitCode := 3
  image := ()

def blankTask : Dict := [("id", .string "task-1"), ("claim_token", .string "token-1")]

def blankPayload : Dict :=
  [("character_id", .string "gtee_dev"), ("task", .string "wave"), ("seed", .number "1"),
    ("character_card", .object [])]

theorem blankRender_plain (cleanupFails : Bool) : (blankRender cleanupFails).Plain := by
  intro op e h
  simp only [blankRender] at h
  split at h
  · cases h
    decide
  · cases h

/-- The exception of the clean-up hides that of the blank render: no restart is requested,
and the reported text does not say `corrupt_output`. -/
theorem lifecycle_broken : (blankRender true).Plain ∧
    ¬Lifecycle (blankRender true) false
      (renderFrom false (renderReal (blankRender true) blankTask blankPayload true)) ∧
    ¬Lifecycle (blankRender true) false
      (renderFrom false (renderHeroCandidateReal (blankRender true) blankTask blankPayload)) := by
  refine ⟨blankRender_plain true, fun h => ?_, fun h => ?_⟩
  · exact absurd (h.restarts.2 (by decide)) (by decide)
  · exact absurd (h.restarts.2 (by decide)) (by decide)

theorem lifecycle_iff_blankRender :
    Lifecycle (blankRender false) false
      (renderFrom false (renderReal (blankRender false) blankTask blankPayload true)) ∧
    Lifecycle (blankRender false) false
      (renderFrom false (renderHeroCandidateReal (blankRender false) blankTask blankPayload)) := by
  obtain ⟨hreal, hhero⟩ := lifecycle_iff (blankRender_plain false) false blankTask blankPayload true
  exact ⟨hreal.2 (by decide), hhero.2 (by decide)⟩

end Outcome

end TaskQueue.RenderLifecycle
