import TaskQueue.JavaScriptValues

/-!
# The outline of markup

What is left of markup without its text and its attribute values: the tags and the names of
their attributes. It is read off by the tokenizer of HTML, without its modes for scripts and
with comments and declarations read up to the next `>`. Markup is built from the texts of
templates and the values put into them: as long as the values stand in text or between
double quotes and contain neither `<` nor `"`, the outline comes from the templates alone.
-/

namespace TaskQueue.Html
open JavaScript

inductive State
  | data
  | tagOpen
  | endTagOpen
  | tagName
  | beforeAttributeName
  | attributeName
  | afterAttributeName
  | beforeAttributeValue
  | doubleQuoted
  | singleQuoted
  | unquoted
  | afterAttributeValue
  | selfClosing
  | declaration
  deriving DecidableEq

/-- What the outline consists of. -/
inductive Mark
  | startTag
  | endTag
  | tagUnit (c : CodeUnit)
  | attribute
  | attributeUnit (c : CodeUnit)
  | selfClosing
  | close
  deriving DecidableEq

section Units

def quote : CodeUnit := 0x22
def ampersand : CodeUnit := 0x26
def apostrophe : CodeUnit := 0x27
def slash : CodeUnit := 0x2f
def lessThan : CodeUnit := 0x3c
def equalsSign : CodeUnit := 0x3d
def greaterThan : CodeUnit := 0x3e

def isSpace (c : CodeUnit) : Bool := c == 9 || c == 10 || c == 12 || c == 13 || c == 32

def isUpper (c : CodeUnit) : Bool := 0x41 ≤ c && c ≤ 0x5a

def isLetter (c : CodeUnit) : Bool := isUpper c || (0x61 ≤ c && c ≤ 0x7a)

def lower (c : CodeUnit) : CodeUnit := if isUpper c then c + 32 else c

end Units

section Tokenizer

def dataStep (c : CodeUnit) : State := if c = lessThan then .tagOpen else .data

def tagOpenStep (c : CodeUnit) : State × List Mark :=
  if c = slash then (.endTagOpen, [])
  else if c = 0x21 ∨ c = 0x3f then (.declaration, [])
  else if isLetter c then (.tagName, [.startTag, .tagUnit (lower c)])
  else (dataStep c, [])

def endTagOpenStep (c : CodeUnit) : State × List Mark :=
  if isLetter c then (.tagName, [.endTag, .tagUnit (lower c)])
  else if c = greaterThan then (.data, [])
  else (.declaration, [])

/-- What ends a tag or goes on to its next attribute; `other` for the rest. -/
def inTag (c : CodeUnit) (space : State) (other : State × List Mark) : State × List Mark :=
  if isSpace c then (space, [])
  else if c = slash then (.selfClosing, [])
  else if c = greaterThan then (.data, [.close])
  else other

/-- An attribute name begins, also with an equals sign. -/
def beforeNameStep (c : CodeUnit) : State × List Mark :=
  inTag c .beforeAttributeName (.attributeName, [.attribute, .attributeUnit (lower c)])

def nameStep (c : CodeUnit) : State × List Mark :=
  inTag c .afterAttributeName
    (if c = equalsSign then (.beforeAttributeValue, [])
      else (.attributeName, [.attributeUnit (lower c)]))

def afterNameStep (c : CodeUnit) : State × List Mark :=
  inTag c .afterAttributeName
    (if c = equalsSign then (.beforeAttributeValue, [])
      else (.attributeName, [.attribute, .attributeUnit (lower c)]))

def beforeValueStep (c : CodeUnit) : State × List Mark :=
  if isSpace c then (.beforeAttributeValue, [])
  else if c = quote then (.doubleQuoted, [])
  else if c = apostrophe then (.singleQuoted, [])
  else if c = greaterThan then (.data, [.close])
  else (.unquoted, [])

def step (s : State) (c : CodeUnit) : State × List Mark :=
  match s with
  | .data => (dataStep c, [])
  | .tagOpen => tagOpenStep c
  | .endTagOpen => endTagOpenStep c
  | .tagName => inTag c .beforeAttributeName (.tagName, [.tagUnit (lower c)])
  | .beforeAttributeName => beforeNameStep c
  | .attributeName => nameStep c
  | .afterAttributeName => afterNameStep c
  | .beforeAttributeValue => beforeValueStep c
  | .doubleQuoted => (if c = quote then .afterAttributeValue else .doubleQuoted, [])
  | .singleQuoted => (if c = apostrophe then .afterAttributeValue else .singleQuoted, [])
  | .unquoted =>
    if isSpace c then (.beforeAttributeName, [])
    else if c = greaterThan then (.data, [.close])
    else (.unquoted, [])
  | .afterAttributeValue => beforeNameStep c
  | .selfClosing => if c = greaterThan then (.data, [.selfClosing, .close]) else beforeNameStep c
  | .declaration => (if c = greaterThan then .data else .declaration, [])

def scan (s : State) : JsString → State × List Mark
  | [] => (s, [])
  | c :: cs => ((scan (step s c).1 cs).1, (step s c).2 ++ (scan (step s c).1 cs).2)

/-- The tags of markup with the names of their attributes. -/
def outline (markup : JsString) : List Mark := (scan .data markup).2

theorem scan_append (s : State) (x y : JsString) :
    scan s (x ++ y) = ((scan (scan s x).1 y).1, (scan s x).2 ++ (scan (scan s x).1 y).2) := by
  induction x generalizing s with
  | nil => rfl
  | cons c x ih => simp [scan, ih, List.append_assoc]

/-- Text can stand here. -/
def State.holdsText : State → Bool
  | .data | .doubleQuoted => true
  | _ => false

/-- Text that neither opens a tag nor ends a value in double quotes. -/
structure Inert (text : JsString) : Prop where
  lessThan : lessThan ∉ text
  quote : quote ∉ text

theorem scan_inert {s : State} (hs : s.holdsText = true) {text : JsString} (h : Inert text) :
    scan s text = (s, []) := by
  induction text with
  | nil => rfl
  | cons c text ih =>
    have htail : Inert text :=
      ⟨fun hmem => h.lessThan (.tail c hmem), fun hmem => h.quote (.tail c hmem)⟩
    have hstep : step s c = (s, []) := by
      cases s with
      | data =>
        have hc : c ≠ Html.lessThan := fun heq => h.lessThan (heq ▸ .head text)
        simp [step, dataStep, hc]
      | doubleQuoted =>
        have hc : c ≠ Html.quote := fun heq => h.quote (heq ▸ .head text)
        simp [step, hc]
      | _ => cases hs
    simp [scan, hstep, ih htail]

end Tokenizer

/-- A part of a template literal: its own text, or a value put into it. -/
inductive Piece
  | text (s : String)
  | value (s : JsString)

abbrev Markup := List Piece

/-- The template without its values. -/
abbrev Template := List (Option String)

def Piece.units : Piece → JsString
  | .text s => JavaScript.units s
  | .value s => s

def Piece.part : Piece → Option String
  | .text s => some s
  | .value _ => none

namespace Markup

/-- The string that the template literal evaluates to. -/
def string (markup : Markup) : JsString := markup.flatMap Piece.units

def template (markup : Markup) : Template := markup.map Piece.part

/-- Every value put into the markup has `P`. -/
def Filled (P : JsString → Prop) (markup : Markup) : Prop := ∀ s, .value s ∈ markup → P s

section Simp
variable {P : JsString → Prop} {markup markup' : Markup}

@[simp] theorem template_nil : template [] = [] := rfl

@[simp] theorem template_text (s : String) :
    template (.text s :: markup) = some s :: markup.template := rfl

@[simp] theorem template_value (s : JsString) :
    template (.value s :: markup) = none :: markup.template := rfl

@[simp] theorem template_append :
    template (markup ++ markup') = markup.template ++ markup'.template := List.map_append

@[simp] theorem filled_nil : Filled P [] := nofun

@[simp] theorem filled_text (s : String) : Filled P (.text s :: markup) ↔ markup.Filled P := by
  simp [Filled]

@[simp] theorem filled_value (s : JsString) :
    Filled P (.value s :: markup) ↔ P s ∧ markup.Filled P := by
  simp [Filled, or_imp, forall_and]

@[simp] theorem filled_append :
    Filled P (markup ++ markup') ↔ markup.Filled P ∧ markup'.Filled P := by
  simp [Filled, or_imp, forall_and]

end Simp

theorem Filled.mono {P Q : JsString → Prop} {markup : Markup} (h : markup.Filled P)
    (hPQ : ∀ s, P s → Q s) : markup.Filled Q := fun s hs => hPQ s (h s hs)

/-- `xs.map(f).join('')` for an `f` that may throw. -/
def joined {ε α : Type} (f : α → Except ε Markup) : List α → Except ε Markup
  | [] => .ok []
  | x :: xs => do
    let first ← f x
    let rest ← joined f xs
    return first ++ rest

section Joined
variable {ε α β : Type} {f : α → Except ε Markup} {g : β → Except ε Markup}

theorem joined_cons_inv {x : α} {xs : List α} {markup : Markup}
    (h : joined f (x :: xs) = .ok markup) :
    ∃ first rest, f x = .ok first ∧ joined f xs = .ok rest ∧ markup = first ++ rest := by
  rw [joined] at h
  cases hx : f x with
  | error e => rw [hx] at h; cases h
  | ok first =>
    cases hxs : joined f xs with
    | error e => rw [hx, hxs] at h; cases h
    | ok rest =>
      rw [hx, hxs] at h
      cases h
      exact ⟨first, rest, rfl, rfl, rfl⟩

theorem joined_ok_iff (xs : List α) :
    (∃ markup, joined f xs = .ok markup) ↔ ∀ x ∈ xs, ∃ markup, f x = .ok markup := by
  induction xs with
  | nil => exact ⟨fun _ => nofun, fun _ => ⟨[], rfl⟩⟩
  | cons x xs ih =>
    rw [List.forall_mem_cons, ← ih]
    constructor
    · rintro ⟨markup, h⟩
      obtain ⟨first, rest, hfirst, hrest, -⟩ := joined_cons_inv h
      exact ⟨⟨first, hfirst⟩, ⟨rest, hrest⟩⟩
    · rintro ⟨⟨first, hfirst⟩, ⟨rest, hrest⟩⟩
      exact ⟨first ++ rest, by rw [joined, hfirst, hrest]; rfl⟩

/-- What holds of every part of the list and survives joining holds of the whole. -/
theorem joined_induction {Q : Markup → Prop} (hnil : Q [])
    (happend : ∀ markup markup', Q markup → Q markup' → Q (markup ++ markup')) {xs : List α}
    (hf : ∀ x ∈ xs, ∀ markup, f x = .ok markup → Q markup) {markup : Markup}
    (h : joined f xs = .ok markup) : Q markup := by
  induction xs generalizing markup with
  | nil =>
    cases h
    exact hnil
  | cons x xs ih =>
    obtain ⟨first, rest, hfirst, hrest, rfl⟩ := joined_cons_inv h
    exact happend first rest (hf x (.head xs) first hfirst)
      (ih (fun y hy => hf y (.tail x hy)) hrest)

theorem joined_filled {P : JsString → Prop} {xs : List α}
    (hf : ∀ x markup, f x = .ok markup → markup.Filled P) {markup : Markup}
    (h : joined f xs = .ok markup) : markup.Filled P :=
  joined_induction filled_nil (fun _ _ hm hm' => filled_append.2 ⟨hm, hm'⟩) (fun x _ => hf x) h

/-- Lists whose elements have the same templates in pairs have the same template. -/
theorem joined_template {xs : List α} {ys : List β} {markup markup' : Markup}
    (hpairs : List.Forall₂ (fun x y => ∀ m m', f x = .ok m → g y = .ok m' →
      m.template = m'.template) xs ys)
    (h : joined f xs = .ok markup) (h' : joined g ys = .ok markup') :
    markup.template = markup'.template := by
  induction hpairs generalizing markup markup' with
  | nil =>
    cases h
    cases h'
    rfl
  | cons hpair _ ih =>
    obtain ⟨first, rest, hfirst, hrest, rfl⟩ := joined_cons_inv h
    obtain ⟨first', rest', hfirst', hrest', rfl⟩ := joined_cons_inv h'
    have hhead : first.template = first'.template := hpair first first' hfirst hfirst'
    have htail : rest.template = rest'.template := ih hrest hrest'
    rw [template_append, template_append, hhead, htail]

end Joined
end Markup

/-- Scan a template, whose values may stand where text can. -/
def scanTemplate (s : State) : Template → Option (State × List Mark)
  | [] => some (s, [])
  | none :: parts => if s.holdsText then scanTemplate s parts else none
  | some text :: parts =>
    (scanTemplate (scan s (units text)).1 parts).map fun r =>
      (r.1, (scan s (units text)).2 ++ r.2)

section Templates
variable {markup markup' : Markup}

/-- The template tells how the markup is scanned. -/
theorem scan_string {s : State} {r : State × List Mark} (hfilled : markup.Filled Inert)
    (h : scanTemplate s markup.template = some r) : scan s markup.string = r := by
  induction markup generalizing s r with
  | nil => simpa [Markup.template, scanTemplate, Markup.string, scan] using h
  | cons piece markup ih =>
    have htail : Markup.Filled Inert markup := fun v hv => hfilled v (.tail piece hv)
    have hstring : Markup.string (piece :: markup) = piece.units ++ Markup.string markup := rfl
    rw [hstring, scan_append]
    cases piece with
    | text t =>
      obtain ⟨r', hr', rfl⟩ := Option.map_eq_some_iff.1 h
      rw [Piece.units, ih htail hr']
    | value v =>
      have hs : s.holdsText = true := by
        by_contra hs
        simp [Markup.template, Piece.part, scanTemplate, hs] at h
      have hscan : scan s v = (s, []) := scan_inert hs (hfilled v (.head _))
      have hrest : scanTemplate s (Markup.template markup) = some r := by
        simpa [Markup.template, Piece.part, scanTemplate, hs] using h
      rw [Piece.units, hscan, ih htail hrest]
      rfl

/-- A scan of the template leads from `s` to `t`. -/
def Scans (s : State) (markup : Markup) (t : State) : Prop :=
  ∃ marks, scanTemplate s markup.template = some (t, marks)

theorem Scans.nil (s : State) : Scans s [] s := ⟨[], rfl⟩

/-- The characters of a literal are at hand where the string itself is slow to take apart. -/
theorem Scans.text {s t u : State} {l : List Char} (hscan : (scan s (l.flatMap utf16)).1 = u)
    (h : Scans u markup t) : Scans s (.text (String.ofList l) :: markup) t := by
  obtain ⟨marks, hmarks⟩ := h
  have hunits : units (String.ofList l) = l.flatMap utf16 := by rw [units, String.toList_ofList]
  refine ⟨(scan s (l.flatMap utf16)).2 ++ marks, ?_⟩
  rw [Markup.template_text, scanTemplate, hunits, hscan, hmarks]
  rfl

theorem Scans.value {s t : State} {v : JsString} (hs : s.holdsText = true)
    (h : Scans s markup t) : Scans s (.value v :: markup) t := by
  obtain ⟨marks, hmarks⟩ := h
  refine ⟨marks, ?_⟩
  rw [Markup.template_value, scanTemplate, if_pos hs, hmarks]

theorem Scans.append {s t u : State} (h : Scans s markup t) (h' : Scans t markup' u) :
    Scans s (markup ++ markup') u := by
  induction markup generalizing s with
  | nil =>
    obtain ⟨marks, hmarks⟩ := h
    cases hmarks
    exact h'
  | cons piece markup ih =>
    obtain ⟨marks, hmarks⟩ := h
    cases piece with
    | text text =>
      obtain ⟨r, hr, hrt⟩ := Option.map_eq_some_iff.1 hmarks
      cases hrt
      obtain ⟨marks', hmarks'⟩ := ih ⟨r.2, hr⟩
      refine ⟨(scan s (units text)).2 ++ marks', ?_⟩
      rw [List.cons_append, Markup.template_text, scanTemplate, hmarks']
      rfl
    | value v =>
      by_cases hs : s.holdsText = true
      · rw [Markup.template_value, scanTemplate, if_pos hs] at hmarks
        exact .value hs (ih ⟨marks, hmarks⟩)
      · rw [Markup.template_value, scanTemplate, if_neg hs] at hmarks
        cases hmarks

/-- Markup that begins and ends between tags. -/
abbrev Whole (markup : Markup) : Prop := Scans .data markup .data

theorem joined_whole {ε α : Type} {f : α → Except ε Markup} {xs : List α}
    (hf : ∀ x markup, f x = .ok markup → Whole markup) (h : Markup.joined f xs = .ok markup) :
    Whole markup :=
  Markup.joined_induction (Scans.nil _) (fun _ _ => Scans.append) (fun x _ => hf x) h

/-- The outline of whole markup comes from its template. -/
theorem outline_congr (hwhole : Whole markup) (htemplate : markup.template = markup'.template)
    (hfilled : markup.Filled Inert) (hfilled' : markup'.Filled Inert) :
    outline markup.string = outline markup'.string := by
  obtain ⟨marks, hmarks⟩ := hwhole
  have h : scan .data markup.string = (.data, marks) := scan_string hfilled hmarks
  have h' : scan .data markup'.string = (.data, marks) :=
    scan_string hfilled' (htemplate ▸ hmarks)
  rw [outline, outline, h, h']

end Templates
end TaskQueue.Html
