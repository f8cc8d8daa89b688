import TaskQueue.HeroCache
import TaskQueue.StepRuns
import Mathlib.Logic.Function.Basic
import Mathlib.Tactic.SplitIfs

/-!
# Workers that share a hero cache

Any number of workers resolve heroes in one cache directory, step by step in any order. A
step that is due may raise instead, and the write of a file may stop anywhere. Only the
rename brings a file under its final name.
-/

namespace TaskQueue.HeroDownloads
open PythonStrings HeroCache StepRuns

/-- What a resolution fetches, and the name under which it is kept. -/
structure Hero where
  url : String
  name : String

/-- A download that has come to the end of its stream. -/
structure Download where
  url : String
  response : Response
  chunks : List Bytes

/-- Where a worker is in `_resolve_remote_hero`; `measuring` is between the extension of the
content by a chunk and the check of its length. -/
inductive Phase (Doc : Type)
  | idle
  | called (payload : Payload Doc)
  | looking (hero : Hero)
  | requesting (hero : Hero)
  | receiving (hero : Hero) (response : Response) (chunks : List Bytes)
  | measuring (hero : Hero) (response : Response) (chunks : List Bytes) (chunk : Bytes)
  | verifying (hero : Hero) (chunks : List Bytes)
  | makingDir (hero : Hero) (content : Bytes)
  | naming (hero : Hero) (content : Bytes)
  | writing (hero : Hero) (temporary : String) (content : Bytes)
  | replacing (hero : Hero) (temporary : String) (content : Bytes)
  | cleaning (hero : Hero) (temporary : String) (error : Option HeroError)
  | returned (name : Option String)
  | failed (error : HeroError)

/-- The steps of a resolution. -/
inductive Action (Doc : Type)
  | call (payload : Payload Doc)
  | check
  | look
  | respond (response : Response)
  | receive (chunk : Bytes)
  | measure
  | endStream
  | verify
  | makeDir
  | drawName (uuid : String)
  | writePart (length : ℕ)
  | finishWrite
  | replace
  | cleanUp
  | raise

/-- The directory and the workers. `drawn` are the names drawn for temporary files, `stored`
says that the worker's resolution has put a file under a final name. -/
structure Cache (ι Doc : Type) where
  files : String → Option Bytes
  drawn : List String
  downloads : List Download
  workers : ι → Phase Doc
  stored : ι → Bool

variable {ι Doc : Type} [DecidableEq ι]

def Cache.move (s : Cache ι Doc) (i : ι) (phase : Phase Doc) : Cache ι Doc :=
  { s with workers := Function.update s.workers i phase }

def Cache.write (s : Cache ι Doc) (name : String) (content : Option Bytes) : Cache ι Doc :=
  { s with files := Function.update s.files name content }

def atRest : Phase Doc → Bool
  | .idle | .returned _ | .failed _ => true
  | _ => false

/-- Where an exception leads: past the `try` statement only the cleanup is left. -/
def afterRaise : Phase Doc → Option (Phase Doc)
  | .called _ | .looking _ | .requesting _ | .receiving .. | .measuring .. | .verifying ..
  | .makingDir .. | .naming .. => some (.failed .raised)
  | .writing hero temporary _ | .replacing hero temporary _ =>
    some (.cleaning hero temporary (some .raised))
  | .idle | .cleaning .. | .returned _ | .failed _ => none

section Step
variable (lib : Libraries) (hosts : Hosts) (docs : Docs Doc)

def act (s : Cache ι Doc) (i : ι) : Action Doc → Option (Cache ι Doc)
  | .call payload =>
    if atRest (s.workers i) then
      some ({ s with stored := Function.update s.stored i false }.move i (.called payload))
    else none
  | .check =>
    match s.workers i with
    | .called payload =>
      match remoteHero lib hosts docs payload with
      | .error e => some (s.move i (.failed e))
      | .ok none => some (s.move i (.returned none))
      | .ok (some url) => some (s.move i (.looking ⟨url, heroCacheName docs lib payload⟩))
    | _ => none
  | .look =>
    match s.workers i with
    | .looking hero =>
      if (s.files hero.name).any (· ≠ []) then some (s.move i (.returned (some hero.name)))
      else some (s.move i (.requesting hero))
    | _ => none
  | .respond response =>
    match s.workers i with
    | .requesting hero =>
      match checkResponse response with
      | .error e => some (s.move i (.failed e))
      | .ok () => some (s.move i (.receiving hero response []))
    | _ => none
  | .receive chunk =>
    match s.workers i with
    | .receiving hero response chunks => some (s.move i (.measuring hero response chunks chunk))
    | _ => none
  | .measure =>
    match s.workers i with
    | .measuring hero response chunks chunk =>
      if (chunks ++ [chunk]).flatten.length > maxHeroBytes then some (s.move i (.failed tooBig))
      else some (s.move i (.receiving hero response (chunks ++ [chunk])))
    | _ => none
  | .endStream =>
    match s.workers i with
    | .receiving hero response chunks =>
      some ({ s with downloads := ⟨hero.url, response, chunks⟩ :: s.downloads }.move i
        (.verifying hero chunks))
    | _ => none
  | .verify =>
    match s.workers i with
    | .verifying hero chunks =>
      match checkContent lib chunks.flatten with
      | .error e => some (s.move i (.failed e))
      | .ok () => some (s.move i (.makingDir hero chunks.flatten))
    | _ => none
  | .makeDir =>
    match s.workers i with
    | .makingDir hero content => some (s.move i (.naming hero content))
    | _ => none
  | .drawName uuid =>
    match s.workers i with
    | .naming hero content =>
      -- no uuid is drawn twice, so that the name is a new one
      if temporaryName hero.name uuid ∈ s.drawn then none
      else some ({ s with drawn := temporaryName hero.name uuid :: s.drawn }.move i
        (.writing hero (temporaryName hero.name uuid) content))
    | _ => none
  | .writePart length =>
    match s.workers i with
    | .writing _ temporary content => some (s.write temporary (some (content.take length)))
    | _ => none
  | .finishWrite =>
    match s.workers i with
    | .writing hero temporary content =>
      some ((s.write temporary (some content)).move i (.replacing hero temporary content))
    | _ => none
  | .replace =>
    match s.workers i with
    | .replacing hero temporary _ =>
      some (({ s with stored := Function.update s.stored i true }.write hero.name
        (s.files temporary)).write temporary none |>.move i (.cleaning hero temporary none))
    | _ => none
  | .cleanUp =>
    match s.workers i with
    | .cleaning hero temporary error =>
      some ((s.write temporary none).move i
        (match error with
          | none => .returned (some hero.name)
          | some e => .failed e))
    | _ => none
  | .raise => (afterRaise (s.workers i)).map (s.move i)

/-- A step of one of the workers. -/
def step (s : Cache ι Doc) (l : ι × Action Doc) : Option (Cache ι Doc) :=
  act lib hosts docs s l.1 l.2

/-- An empty directory. -/
def start : Cache ι Doc where
  files := fun _ => none
  drawn := []
  downloads := []
  workers := fun _ => .idle
  stored := fun _ => false

end Step

def isFinal (name : String) : Bool := endsWith name ".png"

def isTemporary (name : String) : Bool := endsWith name ".tmp"

/-- The name of the temporary file of a resolution that is under way. -/
def temporaryOf : Phase Doc → Option String
  | .writing _ temporary _ | .replacing _ temporary _ | .cleaning _ temporary _ => some temporary
  | _ => none

/-- The length of the content that a download holds. -/
def held : Phase Doc → ℕ
  | .receiving _ _ chunks | .verifying _ chunks => chunks.flatten.length
  | .measuring _ _ chunks chunk => (chunks ++ [chunk]).flatten.length
  | _ => 0

/-- The length of the chunk that has not been measured yet. -/
def unmeasured : Phase Doc → ℕ
  | .measuring _ _ _ chunk => chunk.length
  | _ => 0

section Properties
variable (lib : Libraries) (hosts : Hosts)

/-- An https URL on one of the allowed hosts. -/
def FromAllowedHost (url : String) : Prop :=
  ∃ parts allowed, lib.urlsplit url = some parts ∧ parts.scheme = "https" ∧
    allowedHeroHosts lib hosts = .ok allowed ∧ lib.lower (parts.hostname.getD "") ∈ allowed

/-- The content of a successful download, of admitted size and format. -/
structure Validated (downloads : List Download) (content : Bytes) : Prop where
  source : ∃ download ∈ downloads, FromAllowedHost lib hosts download.url ∧
    200 ≤ download.response.status ∧ download.response.status < 300 ∧
    content = download.chunks.flatten
  nonempty : content ≠ []
  size : content.length ≤ maxHeroBytes
  image : ∃ format ∈ heroImageFormats, lib.imageFormat content = some format

/-- Final files hold validated heroes, a temporary file belongs to one resolution under way, a
resolution that has failed has stored nothing, and no download holds more than the limit and
one chunk. -/
structure Sound (s : Cache ι Doc) : Prop where
  finals : ∀ name content, isFinal name = true → s.files name = some content →
    Validated lib hosts s.downloads content
  temporaries : ∀ name, isTemporary name = true → s.files name ≠ none →
    ∃! i, temporaryOf (s.workers i) = some name
  failures : ∀ i e, s.workers i = .failed e → s.stored i = false
  limit : ∀ i, held (s.workers i) ≤ maxHeroBytes + unmeasured (s.workers i)

variable (docs : Docs Doc)

/-- A step leaves the final files alone, or its resolution counts from then on as one that
has stored a file. -/
def Accounted (s : Cache ι Doc) (l : ι × Action Doc) : Prop :=
  ∀ t, step lib hosts docs s l = some t →
    ((∀ name, isFinal name = true → t.files name = s.files name) ∨ t.stored l.1 = true) ∧
      ∀ i, s.stored i = true → t.stored i = true ∨ ∃ payload, l = (i, .call payload)

/-- The resolution fetches from an allowed host, and has stored nothing yet. -/
structure Fetching (hero : Hero) (stored : Bool) : Prop where
  url : FromAllowedHost lib hosts hero.url
  name : isFinal hero.name = true
  stored : stored = false

/-- It has a validated content, and has stored nothing yet. -/
structure Fetched (downloads : List Download) (hero : Hero) (content : Bytes) (stored : Bool) :
    Prop where
  name : isFinal hero.name = true
  content : Validated lib hosts downloads content
  stored : stored = false

/-- What a worker knows in each phase of a resolution. -/
def PhaseOk (s : Cache ι Doc) (stored : Bool) : Phase Doc → Prop
  | .idle | .returned _ => True
  | .called _ | .failed _ => stored = false
  | .looking hero | .requesting hero => Fetching lib hosts hero stored
  | .receiving hero response chunks | .measuring hero response chunks _ =>
    Fetching lib hosts hero stored ∧ (200 ≤ response.status ∧ response.status < 300) ∧
      chunks.flatten.length ≤ maxHeroBytes
  | .verifying hero chunks =>
    Fetching lib hosts hero stored ∧ (∃ response, ⟨hero.url, response, chunks⟩ ∈ s.downloads ∧
      200 ≤ response.status ∧ response.status < 300) ∧ chunks.flatten.length ≤ maxHeroBytes
  | .makingDir hero content | .naming hero content =>
    Fetched lib hosts s.downloads hero content stored
  | .writing hero temporary content =>
    Fetched lib hosts s.downloads hero content stored ∧ isTemporary temporary = true ∧
      temporary ∈ s.drawn
  | .replacing hero temporary content =>
    (Fetched lib hosts s.downloads hero content stored ∧ isTemporary temporary = true ∧
      temporary ∈ s.drawn) ∧ s.files temporary = some content
  | .cleaning _ temporary error =>
    (isTemporary temporary = true ∧ temporary ∈ s.drawn) ∧ (error ≠ none → stored = false)

structure Invariant (s : Cache ι Doc) : Prop where
  finals : ∀ name content, isFinal name = true → s.files name = some content →
    Validated lib hosts s.downloads content
  temporaries : ∀ name, isTemporary name = true → s.files name ≠ none →
    ∃ i, temporaryOf (s.workers i) = some name
  phases : ∀ i, PhaseOk lib hosts s (s.stored i) (s.workers i)
  distinct : ∀ i j name, temporaryOf (s.workers i) = some name →
    temporaryOf (s.workers j) = some name → i = j

end Properties

section Invariance
variable {lib : Libraries} {hosts : Hosts} {docs : Docs Doc} {s t : Cache ι Doc} {i : ι}

theorem fromAllowedHost_of_check {url : String} (h : checkHeroUrl lib hosts url = .ok ()) :
    FromAllowedHost lib hosts url := by
  unfold checkHeroUrl at h
  cases hparts : lib.urlsplit url with
  | none => simp [hparts] at h
  | some parts =>
    simp only [hparts] at h
    split_ifs at h with hscheme
    cases hallowed : allowedHeroHosts lib hosts with
    | error e => simp [hallowed] at h
    | ok allowed =>
      simp only [hallowed] at h
      split_ifs at h with hmem
      exact ⟨parts, allowed, hparts, not_not.1 hscheme, hallowed, hmem⟩

theorem checkResponse_ok {response : Response} (h : checkResponse response = .ok ()) :
    200 ≤ response.status ∧ response.status < 300 := by
  unfold checkResponse at h
  split_ifs at h with hstatus
  exact hstatus

theorem isFinal_heroCacheName (payload : Payload Doc) :
    isFinal (heroCacheName docs lib payload) = true :=
  endsWith_append_self _ _

theorem isTemporary_temporaryName (name uuid : String) :
    isTemporary (temporaryName name uuid) = true :=
  endsWith_append_self _ _

/-- No temporary file has a final name. -/
theorem not_isFinal {name : String} (h : isTemporary name = true) : isFinal name = false := by
  rw [Bool.eq_false_iff]
  intro hfinal
  obtain ⟨front, rfl⟩ := exists_of_endsWith h
  obtain ⟨front', hfront⟩ := exists_of_endsWith hfinal
  have hlast := congrArg (fun s : String => s.toList.getLast?) hfront
  simp [List.getLast?_append] at hlast

theorem Validated.mono {downloads later : List Download} {content : Bytes}
    (h : Validated lib hosts downloads content) (hlater : ∀ d ∈ downloads, d ∈ later) :
    Validated lib hosts later content := by
  obtain ⟨download, hmem, hsource⟩ := h.source
  exact ⟨⟨download, hlater download hmem, hsource⟩, h.nonempty, h.size, h.image⟩

theorem Fetched.mono {downloads later : List Download} {hero : Hero} {content : Bytes}
    {stored : Bool} (h : Fetched lib hosts downloads hero content stored)
    (hlater : ∀ d ∈ downloads, d ∈ later) : Fetched lib hosts later hero content stored :=
  ⟨h.name, h.content.mono hlater, h.stored⟩

omit [DecidableEq ι] in
/-- What a worker knows stays true while its temporary file is left alone. -/
theorem PhaseOk.mono {stored : Bool} {phase : Phase Doc} (h : PhaseOk lib hosts s stored phase)
    (hdownloads : ∀ d ∈ s.downloads, d ∈ t.downloads) (hdrawn : ∀ n ∈ s.drawn, n ∈ t.drawn)
    (hfiles : ∀ name, temporaryOf phase = some name → t.files name = s.files name) :
    PhaseOk lib hosts t stored phase := by
  cases phase with
  | idle | returned | called | failed | looking | requesting | receiving | measuring => exact h
  | verifying hero chunks =>
    obtain ⟨hfetching, ⟨response, hmem, hstatus⟩, hsize⟩ := h
    exact ⟨hfetching, ⟨response, hdownloads _ hmem, hstatus⟩, hsize⟩
  | makingDir hero content | naming hero content => exact Fetched.mono h hdownloads
  | writing hero temporary content =>
    obtain ⟨hfetched, htemporary, hmem⟩ := h
    exact ⟨hfetched.mono hdownloads, htemporary, hdrawn _ hmem⟩
  | replacing hero temporary content =>
    obtain ⟨⟨hfetched, htemporary, hmem⟩, hfile⟩ := h
    exact ⟨⟨hfetched.mono hdownloads, htemporary, hdrawn _ hmem⟩, (hfiles _ rfl).trans hfile⟩
  | cleaning hero temporary error =>
    obtain ⟨⟨htemporary, hmem⟩, hstored⟩ := h
    exact ⟨⟨htemporary, hdrawn _ hmem⟩, hstored⟩

omit [DecidableEq ι] in
/-- The name of a temporary file that a worker uses has been drawn. -/
theorem PhaseOk.temporary {stored : Bool} {phase : Phase Doc} {name : String}
    (h : PhaseOk lib hosts s stored phase) (hname : temporaryOf phase = some name) :
    isTemporary name = true ∧ name ∈ s.drawn := by
  cases phase <;> simp only [temporaryOf, reduceCtorEq, Option.some.injEq] at hname
  · exact hname ▸ h.2
  · exact hname ▸ h.1.2
  · exact hname ▸ h.1

/-- The step of one worker, seen by the others: their phases and temporary files are left
alone, and its own temporary file is the one it had, or bears a new name. -/
structure Frame (s t : Cache ι Doc) (i : ι) : Prop where
  workers : ∀ j, j ≠ i → t.workers j = s.workers j
  stored : ∀ j, j ≠ i → t.stored j = s.stored j
  downloads : ∀ d ∈ s.downloads, d ∈ t.downloads
  drawn : ∀ name ∈ s.drawn, name ∈ t.drawn
  files : ∀ j name, j ≠ i → temporaryOf (s.workers j) = some name → t.files name = s.files name
  own : ∀ name, temporaryOf (t.workers i) = some name →
    temporaryOf (s.workers i) = some name ∨ name ∉ s.drawn
  temporaries : ∀ name, isTemporary name = true → t.files name ≠ none →
    temporaryOf (t.workers i) = some name ∨
      s.files name ≠ none ∧ temporaryOf (s.workers i) ≠ some name

omit [DecidableEq ι] in
theorem Invariant.frame (h : Invariant lib hosts s) (hframe : Frame s t i)
    (hphase : PhaseOk lib hosts t (t.stored i) (t.workers i))
    (hfinals : ∀ name content, isFinal name = true → t.files name = some content →
      Validated lib hosts t.downloads content) : Invariant lib hosts t where
  finals := hfinals
  temporaries name hname hfile := by
    rcases hframe.temporaries name hname hfile with hown | ⟨hbefore, hother⟩
    · exact ⟨i, hown⟩
    · obtain ⟨j, hj⟩ := h.temporaries name hname hbefore
      have hne : j ≠ i := fun hji => hother (hji ▸ hj)
      exact ⟨j, (hframe.workers j hne).symm ▸ hj⟩
  phases j := by
    by_cases hji : j = i
    · exact hji ▸ hphase
    · rw [hframe.workers j hji, hframe.stored j hji]
      exact (h.phases j).mono hframe.downloads hframe.drawn fun name => hframe.files j name hji
  distinct j k name hj hk := by
    -- a name that the worker has kept or drawn is nobody else's
    have hothers : ∀ k, k ≠ i → temporaryOf (t.workers i) = some name →
        temporaryOf (t.workers k) ≠ some name := by
      intro k hki hi hk
      rw [hframe.workers k hki] at hk
      rcases hframe.own name hi with hkept | hnew
      · exact hki (h.distinct k i name hk hkept)
      · exact hnew ((h.phases k).temporary hk).2
    by_cases hji : j = i
    · by_contra hjk
      exact hothers k (fun hki => hjk (hji.trans hki.symm)) (hji ▸ hj) hk
    · by_cases hki : k = i
      · exact absurd hj (hothers j hji (hki ▸ hk))
      · rw [hframe.workers j hji] at hj
        rw [hframe.workers k hki] at hk
        exact h.distinct j k name hj hk

omit [DecidableEq ι] in
/-- A step that leaves the directory alone. -/
theorem Invariant.quiet (h : Invariant lib hosts s)
    (hworkers : ∀ j, j ≠ i → t.workers j = s.workers j)
    (hstored : ∀ j, j ≠ i → t.stored j = s.stored j)
    (hdownloads : ∀ d ∈ s.downloads, d ∈ t.downloads) (hdrawn : ∀ n ∈ s.drawn, n ∈ t.drawn)
    (hfiles : t.files = s.files)
    (hown : ∀ name, temporaryOf (t.workers i) = some name →
      temporaryOf (s.workers i) = some name ∨ name ∉ s.drawn)
    (hkept : ∀ name, temporaryOf (s.workers i) = some name →
      temporaryOf (t.workers i) = some name)
    (hphase : PhaseOk lib hosts t (t.stored i) (t.workers i)) : Invariant lib hosts t := by
  have hframe : Frame s t i :=
    { workers := hworkers
      stored := hstored
      downloads := hdownloads
      drawn := hdrawn
      files := fun j name _ _ => by rw [hfiles]
      own := hown
      temporaries := fun name _ hfile => by
        by_cases hname : temporaryOf (s.workers i) = some name
        · exact .inl (hkept name hname)
        · exact .inr ⟨hfiles ▸ hfile, hname⟩ }
  refine h.frame hframe hphase ?_
  intro name content hname hcontent
  exact (h.finals name content hname (hfiles ▸ hcontent)).mono hdownloads

omit [DecidableEq ι] in
/-- A step that changes the worker's own temporary file, and final files to validated
contents. -/
theorem Invariant.rewrite {temporary : String} (h : Invariant lib hosts s)
    (hworkers : ∀ j, j ≠ i → t.workers j = s.workers j)
    (hstored : ∀ j, j ≠ i → t.stored j = s.stored j)
    (hdownloads : t.downloads = s.downloads) (hdrawn : t.drawn = s.drawn)
    (htemporary : temporaryOf (s.workers i) = some temporary)
    (hafter : temporaryOf (t.workers i) = some temporary ∨
      temporaryOf (t.workers i) = none ∧ t.files temporary = none)
    (hfiles : ∀ name, isFinal name = false → name ≠ temporary → t.files name = s.files name)
    (hfinals : ∀ name content, isFinal name = true → t.files name = some content →
      s.files name = some content ∨ Validated lib hosts s.downloads content)
    (hphase : PhaseOk lib hosts t (t.stored i) (t.workers i)) : Invariant lib hosts t := by
  have hframe : Frame s t i :=
    { workers := hworkers
      stored := hstored
      downloads := fun d hd => hdownloads ▸ hd
      drawn := fun name hname => hdrawn ▸ hname
      files := fun j name hji hj => by
        have hname := ((h.phases j).temporary hj).1
        have hne : name ≠ temporary := by
          rintro rfl
          exact hji (h.distinct j i name hj htemporary)
        exact hfiles name (not_isFinal hname) hne
      own := fun name hname => by
        rcases hafter with hsame | ⟨hnone, -⟩
        · exact .inl (by rw [htemporary, ← hsame, hname])
        · rw [hnone] at hname
          cases hname
      temporaries := fun name hname hfile => by
        by_cases hne : name = temporary
        · subst hne
          rcases hafter with hsame | ⟨-, hgone⟩
          · exact .inl hsame
          · exact absurd hgone hfile
        · refine .inr ⟨hfiles name (not_isFinal hname) hne ▸ hfile, ?_⟩
          rw [htemporary]
          exact fun heq => hne (Option.some.inj heq).symm }
  refine h.frame hframe hphase ?_
  intro name content hname hcontent
  rw [hdownloads]
  rcases hfinals name content hname hcontent with hold | hvalid
  · exact h.finals name content hname hold
  · exact hvalid

@[simp] theorem Cache.move_self (phase : Phase Doc) : (s.move i phase).workers i = phase :=
  Function.update_self ..

@[simp] theorem Cache.move_other {j : ι} (h : j ≠ i) (phase : Phase Doc) :
    (s.move i phase).workers j = s.workers j :=
  Function.update_of_ne h ..

/-- A worker goes on to a phase with the same temporary file. -/
theorem Invariant.move {phase : Phase Doc} (h : Invariant lib hosts s)
    (htemporary : temporaryOf phase = temporaryOf (s.workers i))
    (hphase : PhaseOk lib hosts s (s.stored i) phase) : Invariant lib hosts (s.move i phase) := by
  refine h.quiet (i := i) (fun j hji => Cache.move_other hji phase) (fun j _ => rfl)
    (fun d hd => hd) (fun n hn => hn) rfl ?_ ?_ ?_
  · intro name hname
    rw [Cache.move_self, htemporary] at hname
    exact .inl hname
  · intro name hname
    rw [Cache.move_self, htemporary]
    exact hname
  · rw [Cache.move_self]
    exact hphase.mono (fun d hd => hd) (fun n hn => hn) (fun name _ => rfl)

omit [DecidableEq ι] in
theorem temporaryOf_afterRaise {phase later : Phase Doc} (h : afterRaise phase = some later) :
    temporaryOf later = temporaryOf phase := by
  cases phase <;> cases h <;> rfl

omit [DecidableEq ι] in
/-- An exception strikes before anything has been stored. -/
theorem PhaseOk.afterRaise {stored : Bool} {phase later : Phase Doc}
    (h : PhaseOk lib hosts s stored phase) (hlater : afterRaise phase = some later) :
    PhaseOk lib hosts s stored later := by
  cases phase with
  | idle | cleaning | returned | failed => cases hlater
  | called payload => cases hlater; exact h
  | looking hero | requesting hero => cases hlater; exact h.stored
  | receiving | measuring | verifying => cases hlater; exact h.1.stored
  | makingDir | naming => cases hlater; exact h.stored
  | writing hero temporary content =>
    cases hlater
    exact ⟨h.2, fun _ => h.1.stored⟩
  | replacing hero temporary content =>
    cases hlater
    exact ⟨h.1.2, fun _ => h.1.1.stored⟩

/-- What the checks before a download establish. -/
theorem fetching_of_check {payload : Payload Doc} {url : String} {stored : Bool}
    (h : remoteHero lib hosts docs payload = .ok (some url)) (hstored : stored = false) :
    Fetching lib hosts ⟨url, heroCacheName docs lib payload⟩ stored :=
  ⟨fromAllowedHost_of_check (remoteHero_eq_some h).2, isFinal_heroCacheName payload, hstored⟩

omit [DecidableEq ι] in
/-- What the checks after a download establish. -/
theorem fetched_of_check {hero : Hero} {chunks : List Bytes} {stored : Bool}
    (h : PhaseOk lib hosts s stored (.verifying hero chunks))
    (hcheck : checkContent lib chunks.flatten = .ok ()) :
    Fetched lib hosts s.downloads hero chunks.flatten stored := by
  obtain ⟨hfetching, ⟨response, hmem, hstatus⟩, hsize⟩ := h
  obtain ⟨hnonempty, himage⟩ := checkContent_ok_iff.1 hcheck
  have hsource : ∃ download ∈ s.downloads, FromAllowedHost lib hosts download.url ∧
      200 ≤ download.response.status ∧ download.response.status < 300 ∧
      chunks.flatten = download.chunks.flatten :=
    ⟨_, hmem, hfetching.url, hstatus.1, hstatus.2, rfl⟩
  exact ⟨hfetching.name, ⟨hsource, hnonempty, hsize, himage⟩, hfetching.stored⟩

theorem invariant_call {payload : Payload Doc} (h : Invariant lib hosts s)
    (hstep : act lib hosts docs s i (.call payload) = some t) : Invariant lib hosts t := by
  simp only [act] at hstep
  split at hstep
  · next hrest =>
    cases hstep
    have hnone : temporaryOf (s.workers i) = none := by
      cases hw : s.workers i <;> rw [hw] at hrest <;> first | rfl | cases hrest
    refine h.quiet (i := i) (fun j hji => Function.update_of_ne hji ..)
      (fun j hji => Function.update_of_ne hji ..) (fun d hd => hd) (fun n hn => hn) rfl ?_ ?_ ?_
    · intro name hname
      rw [Cache.move_self] at hname
      cases hname
    · intro name hname
      rw [hnone] at hname
      cases hname
    · rw [Cache.move_self]
      exact Function.update_self ..
  · cases hstep

theorem invariant_endStream (h : Invariant lib hosts s)
    (hstep : act lib hosts docs s i .endStream = some t) : Invariant lib hosts t := by
  simp only [act] at hstep
  split at hstep
  · next hero response chunks hw =>
    cases hstep
    have hphase := h.phases i
    rw [hw] at hphase
    obtain ⟨hfetching, hstatus, hsize⟩ := hphase
    refine h.quiet (i := i) (fun j hji => Function.update_of_ne hji ..) (fun j _ => rfl)
      (fun d hd => List.mem_cons_of_mem _ hd) (fun n hn => hn) rfl ?_ ?_ ?_
    · intro name hname
      rw [Cache.move_self] at hname
      cases hname
    · intro name hname
      rw [hw] at hname
      cases hname
    · rw [Cache.move_self]
      exact ⟨hfetching, ⟨response, List.mem_cons_self, hstatus⟩, hsize⟩
  · cases hstep

theorem invariant_drawName {uuid : String} (h : Invariant lib hosts s)
    (hstep : act lib hosts docs s i (.drawName uuid) = some t) : Invariant lib hosts t := by
  simp only [act] at hstep
  split at hstep
  · next hero content hw =>
    split at hstep
    · cases hstep
    · next hnew =>
      cases hstep
      have hphase := h.phases i
      rw [hw] at hphase
      refine h.quiet (i := i) (fun j hji => Function.update_of_ne hji ..) (fun j _ => rfl)
        (fun d hd => hd) (fun n hn => List.mem_cons_of_mem _ hn) rfl ?_ ?_ ?_
      · intro name hname
        rw [Cache.move_self] at hname
        cases hname
        exact .inr hnew
      · intro name hname
        rw [hw] at hname
        cases hname
      · rw [Cache.move_self]
        exact ⟨hphase, isTemporary_temporaryName _ _, List.mem_cons_self⟩
  · cases hstep

/-- The writes into a temporary file. -/
theorem Invariant.write {hero : Hero} {temporary : String} {content part : Bytes}
    {phase : Phase Doc} (h : Invariant lib hosts s)
    (hw : s.workers i = .writing hero temporary content)
    (htemporary : temporaryOf phase = some temporary)
    (hphase : PhaseOk lib hosts (s.write temporary (some part)) (s.stored i) phase) :
    Invariant lib hosts ((s.write temporary (some part)).move i phase) := by
  have hold : temporaryOf (s.workers i) = some temporary := by rw [hw]; rfl
  have hname := ((h.phases i).temporary hold).1
  refine h.rewrite (i := i) (fun j hji => Function.update_of_ne hji ..) (fun j _ => rfl) rfl rfl
    hold (.inl ?_) ?_ ?_ ?_
  · rw [Cache.move_self, htemporary]
  · intro name _ hne
    exact Function.update_of_ne hne ..
  · intro name final hfinal hfile
    have hne : name ≠ temporary := by
      rintro rfl
      simp [not_isFinal hname] at hfinal
    exact .inl ((Function.update_of_ne hne ..).symm.trans hfile)
  · rw [Cache.move_self]
    exact hphase.mono (fun d hd => hd) (fun n hn => hn) (fun name _ => rfl)

theorem invariant_replace (h : Invariant lib hosts s)
    (hstep : act lib hosts docs s i .replace = some t) : Invariant lib hosts t := by
  simp only [act] at hstep
  split at hstep
  · next hero temporary content hw =>
    cases hstep
    have hphase := h.phases i
    rw [hw] at hphase
    obtain ⟨⟨hfetched, htemporary, hdrawn⟩, hfile⟩ := hphase
    have hnamed : temporaryOf (s.workers i) = some temporary := by rw [hw]; rfl
    refine h.rewrite (fun j hji => Function.update_of_ne hji ..)
      (fun j hji => Function.update_of_ne hji ..) rfl rfl hnamed (.inl ?_) ?_ ?_ ?_
    · rw [Cache.move_self]
      rfl
    · intro name hfinal hne
      have hother : name ≠ hero.name := by
        rintro rfl
        simp [hfetched.name] at hfinal
      exact (Function.update_of_ne hne ..).trans (Function.update_of_ne hother ..)
    · intro name final hfinal hrenamed
      have hne : name ≠ temporary := by
        rintro rfl
        simp [not_isFinal htemporary] at hfinal
      replace hrenamed := (Function.update_of_ne hne ..).symm.trans hrenamed
      by_cases hown : name = hero.name
      · subst hown
        replace hrenamed := (Function.update_self ..).symm.trans hrenamed
        rw [hfile] at hrenamed
        cases hrenamed
        exact .inr hfetched.content
      · exact .inl ((Function.update_of_ne hown ..).symm.trans hrenamed)
    · rw [Cache.move_self]
      exact ⟨⟨htemporary, hdrawn⟩, fun hnone => absurd rfl hnone⟩
  · cases hstep

theorem invariant_cleanUp (h : Invariant lib hosts s)
    (hstep : act lib hosts docs s i .cleanUp = some t) : Invariant lib hosts t := by
  simp only [act] at hstep
  split at hstep
  · next hero temporary error hw =>
    cases hstep
    have hphase := h.phases i
    rw [hw] at hphase
    obtain ⟨⟨htemporary, -⟩, hstored⟩ := hphase
    have hnamed : temporaryOf (s.workers i) = some temporary := by rw [hw]; rfl
    refine h.rewrite (fun j hji => Function.update_of_ne hji ..)
      (fun j _ => rfl) rfl rfl hnamed (.inr ⟨?_, Function.update_self ..⟩) ?_ ?_ ?_
    · rw [Cache.move_self]
      cases error <;> rfl
    · intro name _ hne
      exact Function.update_of_ne hne ..
    · intro name final hfinal hfile
      have hne : name ≠ temporary := by
        rintro rfl
        simp [not_isFinal htemporary] at hfinal
      exact .inl ((Function.update_of_ne hne ..).symm.trans hfile)
    · rw [Cache.move_self]
      cases error with
      | none => trivial
      | some e => exact hstored nofun
  · cases hstep

theorem invariant_act {action : Action Doc} (h : Invariant lib hosts s)
    (hstep : act lib hosts docs s i action = some t) : Invariant lib hosts t := by
  have hphase := h.phases i
  cases action with
  | call payload => exact invariant_call h hstep
  | endStream => exact invariant_endStream h hstep
  | drawName uuid => exact invariant_drawName h hstep
  | replace => exact invariant_replace h hstep
  | cleanUp => exact invariant_cleanUp h hstep
  | raise =>
    obtain ⟨later, hlater, rfl⟩ := Option.map_eq_some_iff.1 hstep
    exact h.move (temporaryOf_afterRaise hlater) (hphase.afterRaise hlater)
  | check =>
    simp only [act] at hstep
    split at hstep
    · next payload hw =>
      rw [hw] at hphase
      split at hstep
      · cases hstep
        exact h.move (by rw [hw]; rfl) hphase
      · cases hstep
        exact h.move (by rw [hw]; rfl) trivial
      · next url hcheck =>
        cases hstep
        exact h.move (by rw [hw]; rfl) (fetching_of_check hcheck hphase)
    · cases hstep
  | look =>
    simp only [act] at hstep
    split at hstep
    · next hero hw =>
      rw [hw] at hphase
      split at hstep
      · cases hstep
        exact h.move (by rw [hw]; rfl) trivial
      · cases hstep
        exact h.move (by rw [hw]; rfl) hphase
    · cases hstep
  | respond response =>
    simp only [act] at hstep
    split at hstep
    · next hero hw =>
      rw [hw] at hphase
      split at hstep
      · cases hstep
        exact h.move (by rw [hw]; rfl) hphase.stored
      · next hcheck =>
        cases hstep
        exact h.move (by rw [hw]; rfl) ⟨hphase, checkResponse_ok hcheck, Nat.zero_le _⟩
    · cases hstep
  | receive chunk =>
    simp only [act] at hstep
    split at hstep
    · next hero response chunks hw =>
      rw [hw] at hphase
      cases hstep
      exact h.move (by rw [hw]; rfl) hphase
    · cases hstep
  | measure =>
    simp only [act] at hstep
    split at hstep
    · next hero response chunks chunk hw =>
      rw [hw] at hphase
      split at hstep
      · cases hstep
        exact h.move (by rw [hw]; rfl) hphase.1.stored
      · next hsize =>
        cases hstep
        exact h.move (by rw [hw]; rfl) ⟨hphase.1, hphase.2.1, not_lt.1 hsize⟩
    · cases hstep
  | verify =>
    simp only [act] at hstep
    split at hstep
    · next hero chunks hw =>
      rw [hw] at hphase
      split at hstep
      · cases hstep
        exact h.move (by rw [hw]; rfl) hphase.1.stored
      · next hcheck =>
        cases hstep
        exact h.move (by rw [hw]; rfl) (fetched_of_check hphase hcheck)
    · cases hstep
  | makeDir =>
    simp only [act] at hstep
    split at hstep
    · next hero content hw =>
      rw [hw] at hphase
      cases hstep
      exact h.move (by rw [hw]; rfl) hphase
    · cases hstep
  | writePart length =>
    simp only [act] at hstep
    split at hstep
    · next hero temporary content hw =>
      rw [hw] at hphase
      cases hstep
      have hsame : s.write temporary (some (content.take length)) =
          (s.write temporary (some (content.take length))).move i
            (.writing hero temporary content) := by
        rw [Cache.move, Cache.write, ← hw, Function.update_eq_self]
      rw [hsame]
      exact h.write hw rfl hphase
    · cases hstep
  | finishWrite =>
    simp only [act] at hstep
    split at hstep
    · next hero temporary content hw =>
      rw [hw] at hphase
      cases hstep
      exact h.write hw rfl ⟨hphase, Function.update_self ..⟩
    · cases hstep

omit [DecidableEq ι] in
theorem invariant_start : Invariant lib hosts (start : Cache ι Doc) where
  finals _ _ _ hfile := nomatch hfile
  temporaries _ _ hfile := absurd rfl hfile
  phases _ := trivial
  distinct _ _ _ hi _ := nomatch hi

omit [DecidableEq ι] in
theorem PhaseOk.held_le {stored : Bool} {phase : Phase Doc}
    (h : PhaseOk lib hosts s stored phase) : held phase ≤ maxHeroBytes + unmeasured phase := by
  cases phase with
  | receiving hero response chunks | verifying hero chunks => exact h.2.2
  | measuring hero response chunks chunk =>
    have hchunks := h.2.2
    have hlength : (chunks ++ [chunk]).flatten.length =
        chunks.flatten.length + chunk.length := by simp
    simp only [held, unmeasured, hlength]
    omega
  | _ => exact Nat.zero_le _

omit [DecidableEq ι] in
theorem Invariant.sound (h : Invariant lib hosts s) : Sound lib hosts s where
  finals := h.finals
  temporaries name hname hfile := by
    obtain ⟨i, hi⟩ := h.temporaries name hname hfile
    exact ⟨i, hi, fun j hj => h.distinct j i name hj hi⟩
  failures i e hfailed := by
    have hphase := h.phases i
    rw [hfailed] at hphase
    exact hphase
  limit i := (h.phases i).held_le

omit [DecidableEq ι] in
theorem Cache.write_final {temporary name : String} {content : Option Bytes}
    (h : isTemporary temporary = true) (hname : isFinal name = true) :
    (s.write temporary content).files name = s.files name := by
  have hne : name ≠ temporary := by
    rintro rfl
    simp [not_isFinal h] at hname
  exact Function.update_of_ne hne ..

/-- Only a rename touches final files, and only a new call forgets it. -/
theorem accounted_of_invariant {l : ι × Action Doc} (h : Invariant lib hosts s) :
    Accounted lib hosts docs s l := by
  intro t hstep
  obtain ⟨i, action⟩ := l
  simp only [step] at hstep
  cases action with
  | call payload =>
    simp only [act] at hstep
    split at hstep
    · cases hstep
      refine ⟨.inl fun name _ => rfl, fun j hj => ?_⟩
      by_cases hji : j = i
      · exact .inr ⟨payload, by rw [hji]⟩
      · exact .inl ((Function.update_of_ne hji ..).trans hj)
    · cases hstep
  | replace =>
    simp only [act] at hstep
    split at hstep
    · cases hstep
      refine ⟨.inr (Function.update_self ..), fun j hj => .inl ?_⟩
      by_cases hji : j = i
      · exact hji ▸ Function.update_self ..
      · exact (Function.update_of_ne hji ..).trans hj
    · cases hstep
  | raise =>
    obtain ⟨later, -, rfl⟩ := Option.map_eq_some_iff.1 hstep
    exact ⟨.inl fun name _ => rfl, fun j hj => .inl hj⟩
  | writePart | finishWrite | cleanUp =>
    have hphase := h.phases i
    simp only [act] at hstep
    split at hstep
    · next hw =>
      cases hstep
      rw [hw] at hphase
      have htemporary := (hphase.temporary rfl).1
      exact ⟨.inl fun name hname => Cache.write_final htemporary hname, fun j hj => .inl hj⟩
    · cases hstep
  | check | look | respond | receive | measure | endStream | verify | makeDir | drawName =>
    simp only [act] at hstep
    split at hstep <;> (try split at hstep) <;> cases hstep <;>
      exact ⟨.inl fun name _ => rfl, fun j hj => .inl hj⟩

end Invariance

/-- In every run of the workers only validated heroes are in the cache, and what a step
changes there is on its resolution's account. -/
theorem cache_sound {ι Doc : Type} [DecidableEq ι] (lib : Libraries) (hosts : Hosts)
    (docs : Docs Doc) (steps : List (ι × Action Doc)) :
    Throughout (step lib hosts docs) (Sound lib hosts) start steps ∧
      Along (step lib hosts docs) (Accounted lib hosts docs) start steps := by
  have hrun : Throughout (step lib hosts docs) (Invariant lib hosts)
      (start : Cache ι Doc) steps :=
    throughout_invariant (fun s l t hs hstep => invariant_act hs hstep) invariant_start steps
  constructor
  · exact hrun.mono fun s hs => hs.sound
  · refine hrun.along ?_
    intro s l hs
    exact accounted_of_invariant hs

end TaskQueue.HeroDownloads
