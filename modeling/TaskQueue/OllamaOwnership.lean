import TaskQueue.OllamaManager
import TaskQueue.StepRuns

/-!
# Which loads the Ollama manager answers for

The manager remembers one model name. It forgets a model of its own when a chat records
another one beside it and when an unload request does not free the memory; it holds on
to a name whose load has become someone else's when the model leaves memory and another
client brings it back. Both are stated exactly, step by step.
-/

namespace TaskQueue.OllamaOwnership
open OllamaManager StepRuns

variable {Json : Type}

/-- A chat of the manager loaded the model after `/api/ps` had shown it not loaded. -/
def Load.isOwn (load : Load) : Bool := load.byManager && load.shownAbsent

section Ownership
variable (canon : String → String) (cfg : Config)

/-- Every model of the manager's own that is in memory is recorded, under a name that
Ollama takes for it. -/
def OwnRecorded (s : System) : Prop :=
  ∀ n load, s.memory n = some load → Load.isOwn load →
    ∃ o, s.manager.owned = some o ∧ canon o = n

/-- The model that an unload request of this step names is gone from memory afterwards
if it was the manager's own. -/
def Frees (s : System) (name : Option String) (drops : Bool) : Prop :=
  ∀ o load, name = some o → s.memory (canon o) = some load → Load.isOwn load → drops

/-- A chat whose model `/api/ps` had shown absent leaves no other own model in memory, and an
unload request frees the own model it names. -/
def KeepsTrack (s : System) : Label Json → Prop
  | .chatPost _ _ evicts => ∀ c, s.chatting = some c → showsAbsent c.model s.shown →
      ∀ n load, n ≠ canon c.model → s.memory n = some load → Load.isOwn load → evicts n
  | .unload _ drops => Frees canon s (unload s.manager).2 drops
  | .maybeUnloadIdle _ drops => Frees canon s (maybeUnloadIdle cfg s.now s.manager).2 drops
  | _ => True

/-- No load of someone else is in memory under the recorded name. -/
def RecordedOwn (s : System) : Prop :=
  ∀ o load, s.manager.owned = some o → s.memory (canon o) = some load → load.byManager

/-- An unload request of this step names no model that someone else loaded. -/
def UnloadsOwn (s : System) (l : Label Json) : Prop :=
  ∀ o load, requested cfg s l = some o → s.memory (canon o) = some load → load.byManager

/-- A chat that records its model does not find it in memory through someone else, and
nobody else loads the recorded model while it is out of memory. -/
def KeepsOwn (s : System) : Label Json → Prop
  | .chatPost _ _ _ => ∀ c load, s.chatting = some c → c.ours →
      s.memory (canon c.model) = some load → load.byManager
  | .foreignLoad name _ => ∀ o, s.manager.owned = some o → canon o = name →
      s.memory name ≠ none
  | _ => True

/-- A chat in progress is to record its model exactly if `/api/ps` has shown it absent. -/
def Judged (s : System) : Prop :=
  ∀ c, s.chatting = some c → c.ours = showsAbsent c.model s.shown

variable {canon cfg}

theorem start_judged (now : Int) (loaded : String → Bool) : Judged (start now loaded) := by
  intro c hc
  cases hc

theorem step_judged {s t : System} {l : Label Json} (hs : Judged s)
    (h : step canon cfg s l = some t) : Judged t := by
  cases l with
  | chatPs payload reply =>
    simp only [step] at h
    split at h
    next hb =>
      cases h
      rintro c ⟨⟩
      exact (beginChat_ours hb).2
    next =>
      cases h
      exact hs
    next => cases h
  | chatPost reply loads evicts =>
    simp only [step] at h
    split at h
    next => cases h
    next =>
      cases h
      rintro c ⟨⟩
  | unload reply drops =>
    simp only [step] at h
    split_ifs at h
    cases h
    exact hs
  | maybeUnloadIdle reply drops =>
    simp only [step] at h
    split_ifs at h
    cases h
    exact hs
  | foreignLoad name evicts =>
    cases h
    exact hs
  | drop name =>
    cases h
    exact hs
  | tick seconds =>
    cases h
    exact hs

theorem loadInto_eq_some {name n : String} {load load' : Load} {evicts : String → Bool}
    {memory : String → Option Load} (h : loadInto name load evicts memory n = some load') :
    memory n = some load' ∧ (n ≠ name → evicts n = false) ∨
      n = name ∧ memory n = none ∧ load' = load := by
  unfold loadInto at h
  split_ifs at h with hn he
  · cases hm : memory n with
    | none => exact .inr ⟨hn, rfl, by simpa [hm] using h.symm⟩
    | some old => exact .inl ⟨by simpa [hm] using h, fun hne => absurd hn hne⟩
  · exact .inl ⟨h, fun _ => by simpa using he⟩

theorem evict_eq_some {name n : String} {load : Load} {evicts : String → Bool}
    {memory : String → Option Load} (h : evict name evicts memory n = some load) :
    memory n = some load ∧ (n ≠ name → evicts n = false) := by
  unfold evict at h
  split_ifs at h with he
  exact ⟨h, fun hn => by simpa [hn] using he⟩

theorem dropFrom_eq_some {name n : String} {load : Load} {memory : String → Option Load} :
    dropFrom name memory n = some load ↔ n ≠ name ∧ memory n = some load := by
  unfold dropFrom
  split_ifs with hn <;> simp [hn]

/-- What an unload request leaves in memory was there before. -/
theorem dropRequested_eq_some {s : System} {name : Option String} {drops : Bool} {n : String}
    {load : Load} (h : dropRequested canon s name drops n = some load) :
    s.memory n = some load := by
  unfold dropRequested at h
  cases name with
  | none => exact h
  | some o =>
    dsimp only at h
    split_ifs at h
    · exact (dropFrom_eq_some.1 h).2
    · exact h

/-- After the post of a chat a model is in memory because it was before and stayed, or
because the chat loaded it. -/
theorem memory_chatPost {c : Chatting} {absent loads : Bool} {evicts : String → Bool}
    {memory : String → Option Load} {n : String} {load : Load}
    (h : (if loads then loadInto (canon c.model) ⟨true, absent⟩ evicts memory
      else evict (canon c.model) evicts memory) n = some load) :
    memory n = some load ∧ (n ≠ canon c.model → evicts n = false) ∨
      n = canon c.model ∧ load = ⟨true, absent⟩ := by
  split_ifs at h
  · rcases loadInto_eq_some h with hm | ⟨hn, -, hl⟩
    · exact .inl hm
    · exact .inr ⟨hn, hl⟩
  · exact .inl (evict_eq_some h)

theorem stays_chatPost {c : Chatting} {absent : Bool} {evicts : String → Bool}
    {memory : String → Option Load} {n : String} {load : Load} (loads : Bool)
    (hm : memory n = some load) (he : n ≠ canon c.model → evicts n = false) :
    (if loads then loadInto (canon c.model) ⟨true, absent⟩ evicts memory
      else evict (canon c.model) evicts memory) n = some load := by
  by_cases hn : n = canon c.model
  · cases loads <;> simp [loadInto, evict, hn, hn ▸ hm]
  · cases loads <;> simp [loadInto, evict, hn, he hn, hm]

/-- Only the end of a chat and an unload request can lose track of an own model. -/
theorem chatPost_ownRecorded {s : System} {c : Chatting} {loads : Bool}
    {evicts : String → Bool} {memory : String → Option Load} (hs : OwnRecorded canon s)
    (hjudged : c.ours = showsAbsent c.model s.shown)
    (hmem : memory = if loads then
        loadInto (canon c.model) ⟨true, showsAbsent c.model s.shown⟩ evicts s.memory
      else evict (canon c.model) evicts s.memory) :
    OwnRecorded canon
        { s with manager := finishChat c s.now s.manager, memory := memory, chatting := none } ↔
      (showsAbsent c.model s.shown → ∀ n load, n ≠ canon c.model → s.memory n = some load →
        Load.isOwn load → evicts n) := by
  subst hmem
  rw [← hjudged]
  constructor
  · intro ht hours n load hn hm hown
    cases he : evicts n with
    | true => rfl
    | false =>
      obtain ⟨o, ho, hc⟩ := ht n load (stays_chatPost loads hm fun _ => he) hown
      simp only [finishChat, hours, if_true, Option.some.injEq] at ho
      subst ho
      exact absurd hc.symm hn
  · intro hcond n load hm hown
    cases hours : c.ours with
    | true =>
      refine ⟨c.model, by simp [finishChat, hours], ?_⟩
      rcases memory_chatPost hm with ⟨hold, hstay⟩ | ⟨hn, -⟩
      · by_contra hne
        have hev := hcond hours n load (Ne.symm hne) hold hown
        rw [hstay (Ne.symm hne)] at hev
        cases hev
      · exact hn.symm
    | false =>
      rcases memory_chatPost hm with ⟨hold, -⟩ | ⟨-, hl⟩
      · obtain ⟨o, ho, hc⟩ := hs n load hold hown
        exact ⟨o, by simpa [finishChat, hours] using ho, hc⟩
      · rw [hl, hours] at hown
        cases hown

theorem unload_ownRecorded {s : System} {drops : Bool} (hs : OwnRecorded canon s) :
    OwnRecorded canon
        { s with
          manager := (unload s.manager).1
          memory := dropRequested canon s (unload s.manager).2 drops } ↔
      Frees canon s (unload s.manager).2 drops := by
  constructor
  · intro ht o load ho hm hown
    cases drops with
    | true => rfl
    | false =>
      have hstays : dropRequested canon s (unload s.manager).2 false (canon o) = some load := by
        rw [ho]
        exact hm
      obtain ⟨o', ho', -⟩ := ht (canon o) load hstays hown
      cases ho'
  · intro hfrees n load hm hown
    obtain ⟨o, ho, rfl⟩ := hs n load (dropRequested_eq_some hm) hown
    have hd := hfrees o load ho (dropRequested_eq_some hm) hown
    simp [dropRequested, OllamaManager.unload, ho, hd, dropFrom] at hm

/-- A step keeps track of every own model exactly if it meets `KeepsTrack`. -/
theorem step_ownRecorded (s : System) (l : Label Json) (t : System) (hjudged : Judged s)
    (hs : OwnRecorded canon s) (h : step canon cfg s l = some t) :
    OwnRecorded canon t ↔ KeepsTrack canon cfg s l := by
  cases l with
  | chatPs payload reply =>
    refine iff_of_true ?_ trivial
    simp only [step] at h
    split at h <;> cases h <;> exact hs
  | chatPost reply loads evicts =>
    simp only [step] at h
    split at h
    · cases h
    · rename_i c hc
      cases h
      rw [chatPost_ownRecorded hs (hjudged c hc) rfl]
      simp [KeepsTrack, hc]
  | unload reply drops =>
    simp only [step] at h
    split_ifs at h
    cases h
    exact unload_ownRecorded hs
  | maybeUnloadIdle reply drops =>
    simp only [step] at h
    split_ifs at h
    cases h
    by_cases hi : idle cfg s.now s.manager
    · simp only [KeepsTrack, maybeUnloadIdle, hi, if_true]
      exact unload_ownRecorded hs
    · simp only [KeepsTrack, maybeUnloadIdle, hi]
      exact iff_of_true hs (by simp [Frees])
  | foreignLoad name evicts =>
    cases h
    refine iff_of_true (fun n load hm hown => ?_) trivial
    rcases loadInto_eq_some hm with ⟨hold, -⟩ | ⟨-, -, hl⟩
    · exact hs n load hold hown
    · rw [hl] at hown
      cases hown
  | drop name =>
    cases h
    exact iff_of_true (fun n load hm hown => hs n load (dropFrom_eq_some.1 hm).2 hown) trivial
  | tick seconds =>
    cases h
    exact iff_of_true hs trivial

theorem start_ownRecorded (now : Int) (loaded : String → Bool) :
    OwnRecorded canon (start now loaded) := by
  intro n load hm hown
  simp only [start] at hm
  split_ifs at hm
  cases hm
  cases hown

/-- No model of the manager's own is forgotten in a run exactly if no chat whose model had been
shown absent leaves another own one in memory and every unload request frees its model. -/
theorem own_recorded_iff (canon : String → String) (cfg : Config) (now : Int)
    (loaded : String → Bool) (ls : List (Label Json)) :
    Throughout (step canon cfg) (OwnRecorded canon) (start now loaded) ls ↔
      Along (step canon cfg) (KeepsTrack canon cfg) (start now loaded) ls :=
  throughout_iff_along_of_invariant (I := fun s => Judged s ∧ OwnRecorded canon s)
    (fun _ hs => hs.2)
    (fun s l t hs hl h => ⟨step_judged hs.1 h, (step_ownRecorded s l t hs.1 hs.2 h).2 hl⟩)
    (fun s l t hs h => (step_ownRecorded s l t hs.1 hs.2 h).1)
    ⟨start_judged now loaded, start_ownRecorded now loaded⟩ ls

/-- Two chats that name different models; Ollama holds both at once. -/
def twoModels : List (Label (List ℕ)) :=
  [.chatPs ⟨some "qwen3:14b", some [], false, none, none⟩ (.models []),
    .chatPost (.answered "hello" none) true fun _ => false,
    .chatPs ⟨some "llama3:8b", some [], false, none, none⟩
      (.models [⟨some "qwen3:14b", some "qwen3:14b"⟩]),
    .chatPost (.answered "hello" none) true fun _ => false]

theorem own_model_forgotten :
    ¬∀ (canon : String → String) (cfg : Config) (now : Int) (loaded : String → Bool)
      (ls : List (Label (List ℕ))),
      Throughout (step canon cfg) (OwnRecorded canon) (start now loaded) ls := by
  intro h
  have hall := h norm ⟨"qwen3:14b", 300⟩ 0 (fun _ => false) twoModels
  have hrec := hall.at_end rfl
  obtain ⟨o, ho, hc⟩ := hrec "qwen3:14b" ⟨true, true⟩ (by decide) rfl
  cases ho
  exact absurd hc (by decide)

theorem chatPost_recordedOwn {s : System} {c : Chatting} {loads : Bool}
    {evicts : String → Bool} {memory : String → Option Load} (hs : RecordedOwn canon s)
    (hmem : memory = if loads then
        loadInto (canon c.model) ⟨true, showsAbsent c.model s.shown⟩ evicts s.memory
      else evict (canon c.model) evicts s.memory) :
    RecordedOwn canon
        { s with manager := finishChat c s.now s.manager, memory := memory, chatting := none } ↔
      ∀ load, c.ours → s.memory (canon c.model) = some load → load.byManager := by
  subst hmem
  constructor
  · intro ht load hours hm
    refine ht c.model load (by simp [finishChat, hours]) ?_
    exact stays_chatPost loads hm fun hn => absurd rfl hn
  · intro hcond o load ho hm
    have ho' : (if c.ours then some c.model else s.manager.owned) = some o := ho
    rcases memory_chatPost hm with ⟨hold, -⟩ | ⟨-, hl⟩
    · split_ifs at ho' with hours
      · cases ho'
        exact hcond load hours hold
      · exact hs o load ho' hold
    · rw [hl]

theorem foreignLoad_recordedOwn {s : System} {name : String} {evicts : String → Bool}
    (hs : RecordedOwn canon s) :
    RecordedOwn canon { s with memory := loadInto name ⟨false, false⟩ evicts s.memory } ↔
      ∀ o, s.manager.owned = some o → canon o = name → s.memory name ≠ none := by
  constructor
  · rintro ht o ho rfl hnone
    have hm := ht o ⟨false, false⟩ ho (by simp [loadInto, hnone])
    cases hm
  · intro hcond o load ho hm
    rcases loadInto_eq_some hm with ⟨hold, -⟩ | ⟨hn, hnone, -⟩
    · exact hs o load ho hold
    · exact absurd (hn ▸ hnone) (hcond o ho hn)

/-- A step keeps the recorded name free of other people's loads exactly if it meets
`KeepsOwn`. -/
theorem step_recordedOwn (s : System) (l : Label Json) (t : System)
    (hs : RecordedOwn canon s) (h : step canon cfg s l = some t) :
    RecordedOwn canon t ↔ KeepsOwn canon s l := by
  cases l with
  | chatPs payload reply =>
    refine iff_of_true ?_ trivial
    simp only [step] at h
    split at h <;> cases h <;> exact hs
  | chatPost reply loads evicts =>
    simp only [step] at h
    split at h
    · cases h
    · rename_i c hc
      cases h
      rw [chatPost_recordedOwn hs rfl]
      constructor
      · intro hcond c' load hc' hours hm
        cases hc.symm.trans hc'
        exact hcond load hours hm
      · exact fun hcond load => hcond c load hc
  | unload reply drops =>
    simp only [step] at h
    split_ifs at h
    cases h
    refine iff_of_true (fun o load ho => ?_) trivial
    cases ho
  | maybeUnloadIdle reply drops =>
    simp only [step] at h
    split_ifs at h
    cases h
    refine iff_of_true (fun o load ho hm => ?_) trivial
    by_cases hi : idle cfg s.now s.manager
    · simp [maybeUnloadIdle, hi, OllamaManager.unload] at ho
    · simp only [maybeUnloadIdle, hi] at ho hm
      exact hs o load ho hm
  | foreignLoad name evicts =>
    cases h
    exact foreignLoad_recordedOwn hs
  | drop name =>
    cases h
    exact iff_of_true (fun o load ho hm => hs o load ho (dropFrom_eq_some.1 hm).2) trivial
  | tick seconds =>
    cases h
    exact iff_of_true hs trivial

/-- An unload request names the recorded model. -/
theorem owned_of_requested {s : System} {l : Label Json} {o : String}
    (h : requested cfg s l = some o) : s.manager.owned = some o := by
  cases l with
  | unload reply drops => exact h
  | maybeUnloadIdle reply drops =>
    simp only [requested, maybeUnloadIdle] at h
    split_ifs at h
    exact h
  | _ => cases h

theorem unloadsOwn_of_recordedOwn {s : System} (l : Label Json) (hs : RecordedOwn canon s) :
    UnloadsOwn canon cfg s l :=
  fun o load ho hm => hs o load (owned_of_requested ho) hm

theorem start_recordedOwn (now : Int) (loaded : String → Bool) :
    RecordedOwn canon (start now loaded) := by
  intro o load ho
  cases ho

/-- The recorded model is never somebody else's load in a run exactly if every chat that
records its model finds it in memory through the manager only, if at all, and nobody
else loads the recorded model meanwhile. In such a run no unload request names a model
that somebody else loaded. -/
theorem recorded_own_iff (canon : String → String) (cfg : Config) (now : Int)
    (loaded : String → Bool) (ls : List (Label Json)) :
    (Throughout (step canon cfg) (RecordedOwn canon) (start now loaded) ls ↔
      Along (step canon cfg) (KeepsOwn canon) (start now loaded) ls) ∧
    (Along (step canon cfg) (KeepsOwn canon) (start now loaded) ls →
      Along (step canon cfg) (UnloadsOwn canon cfg) (start now loaded) ls) := by
  have hiff := throughout_iff_along (@step_recordedOwn Json canon cfg)
    (start_recordedOwn now loaded) ls
  refine ⟨hiff, fun halong => ?_⟩
  refine Throughout.along ?_ (hiff.2 halong)
  exact fun s l hs => unloadsOwn_of_recordedOwn l hs

/-- The model of a chat runs out of memory and the user loads it for himself. -/
def reloadedByUser : List (Label (List ℕ)) :=
  [.chatPs ⟨none, some [], false, none, none⟩ (.models []),
    .chatPost (.answered "hello" none) true fun _ => false,
    .drop "qwen3:14b", .foreignLoad "qwen3:14b" fun _ => false]

theorem foreign_model_unloaded :
    ¬∀ (canon : String → String) (cfg : Config) (now : Int) (loaded : String → Bool)
      (ls : List (Label (List ℕ))),
      Along (step canon cfg) (UnloadsOwn canon cfg) (start now loaded) ls := by
  intro h
  have hall := h norm ⟨"qwen3:14b", 300⟩ 0 (fun _ => false)
    (reloadedByUser ++ [.unload (.answered 200) true])
  have hunload := hall.at_step rfl rfl
  have hby := hunload "qwen3:14b" ⟨false, false⟩ rfl rfl
  cases hby

end Ownership
end TaskQueue.OllamaOwnership
