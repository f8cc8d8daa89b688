import Mathlib.Data.List.DropRight

/-!
# Strings and parsed JSON in JavaScript

A string is the list of its UTF-16 code units. Of a number only what rendering asks of it
is kept: whether it is falsy, and its text. An object has the own properties that
`JSON.parse` gives it, no two of one name.
-/

namespace TaskQueue.JavaScript

abbrev CodeUnit := UInt16
abbrev JsString := List CodeUnit

/-- The code units of a character. -/
def utf16 (c : Char) : JsString :=
  if c.toNat < 0x10000 then [.ofNat c.toNat]
  else [.ofNat (0xd7c0 + c.toNat / 0x400), .ofNat (0xdc00 + c.toNat % 0x400)]

def units (s : String) : JsString := s.toList.flatMap utf16

example : units "–😀" = [0x2013, 0xd83d, 0xde00] := by decide

/-- What `trim` removes: white space and line terminators. -/
def isSpace (c : CodeUnit) : Bool :=
  (9 ≤ c && c ≤ 13) || c == 32 || c == 0xa0 || c == 0x1680 || (0x2000 ≤ c && c ≤ 0x200a) ||
    c == 0x2028 || c == 0x2029 || c == 0x202f || c == 0x205f || c == 0x3000 || c == 0xfeff

/-- `s.trim()`. -/
def trim (s : JsString) : JsString := (s.dropWhile isSpace).rdropWhile isSpace

/-- `s.replaceAll(old, new)` for single code units. -/
def replaceAll (s : JsString) (old new : CodeUnit) : JsString :=
  s.map fun c => if c = old then new else c

/-- What iterating over a string gives: its code points, and surrogates without a partner. -/
def codePoints : JsString → List JsString
  | [] => []
  | [c] => [[c]]
  | c :: d :: s =>
    if 0xd800 ≤ c ∧ c < 0xdc00 ∧ 0xdc00 ≤ d ∧ d < 0xe000 then [c, d] :: codePoints s
    else [c] :: codePoints (d :: s)

/-- The exceptions of the dashboard. Nothing reads the texts of those that the engine makes. -/
inductive JsError
  | typeError
  | syntaxError
  | error (message : JsString)
  deriving DecidableEq

structure Number where
  falsy : Bool
  text : JsString
  deriving DecidableEq

/-- What `JSON.parse` returns. -/
inductive Json
  | null
  | bool (b : Bool)
  | number (n : Number)
  | string (s : JsString)
  | array (values : List Json)
  | object (fields : List (JsString × Json))

namespace Json

/-- The own properties of an object. -/
abbrev Fields := List (JsString × Json)

def truthy : Json → Bool
  | null => false
  | bool b => b
  | number n => !n.falsy
  | string s => !s.isEmpty
  | array _ | object _ => true

/-- A property `toString` of parsed JSON is no function, and hides the inherited one. -/
def hidesToString (fields : Fields) : Bool := fields.any fun field => field.1 = units "toString"

mutual

/-- `String(value)`. An array is joined, where an element `null` is left empty; of an object
that hides `toString` only `valueOf` is left, which gives no primitive value. -/
def toText : Json → Except JsError JsString
  | null => .ok (units "null")
  | bool b => .ok (units (if b then "true" else "false"))
  | number n => .ok n.text
  | string s => .ok s
  | array values => do return (units ",").intercalate (← texts values)
  | object fields =>
    if hidesToString fields then .error .typeError else .ok (units "[object Object]")

def texts : List Json → Except JsError (List JsString)
  | [] => .ok []
  | value :: values => do
    let text ← toText value
    let rest ← texts values
    return (match value with | null => [] | _ => text) :: rest

end

/-- `String(value ?? '')`. -/
def display : Json → Except JsError JsString
  | null => .ok []
  | value => value.toText

/-- `[...value]`. -/
def iterate : Json → Except JsError (List Json)
  | array values => .ok values
  | string s => .ok ((codePoints s).map string)
  | _ => .error .typeError

/-- `[...(value || [])]`; an absent property is `none`. -/
def spread : Option Json → Except JsError (List Json)
  | none => .ok []
  | some value => if value.truthy then value.iterate else .ok []

/-- The values that have a text. -/
inductive Printable : Json → Prop
  | null : Printable null
  | bool (b : Bool) : Printable (bool b)
  | number (n : Number) : Printable (number n)
  | string (s : JsString) : Printable (string s)
  | array {values : List Json} (h : ∀ value ∈ values, Printable value) : Printable (array values)
  | object {fields : Fields} (h : hidesToString fields = false) : Printable (object fields)

/-- The values whose elements, spread into a list, can be printed. -/
inductive Listable : Option Json → Prop
  | absent : Listable none
  | falsy {value : Json} (h : value.truthy = false) : Listable (some value)
  | string (s : JsString) : Listable (some (string s))
  | array {values : List Json} (h : ∀ value ∈ values, Printable value) :
    Listable (some (array values))

mutual

theorem toText_ok_iff : ∀ value : Json, (∃ text, value.toText = .ok text) ↔ Printable value
  | null => ⟨fun _ => .null, fun _ => ⟨_, rfl⟩⟩
  | bool b => ⟨fun _ => .bool b, fun _ => ⟨_, rfl⟩⟩
  | number n => ⟨fun _ => .number n, fun _ => ⟨_, rfl⟩⟩
  | string s => ⟨fun _ => .string s, fun _ => ⟨_, rfl⟩⟩
  | array values => by
    have htexts := texts_ok_iff values
    rw [toText]
    constructor
    · rintro ⟨text, htext⟩
      cases hrun : texts values with
      | error e => rw [hrun] at htext; cases htext
      | ok ts => exact .array (htexts.1 ⟨ts, hrun⟩)
    · intro h
      cases h with
      | array hvalues =>
        obtain ⟨ts, hts⟩ := htexts.2 hvalues
        exact ⟨_, by rw [hts]; rfl⟩
  | object fields => by
    rw [toText]
    cases hhides : hidesToString fields with
    | true =>
      refine iff_of_false (fun ⟨_, h⟩ => nomatch h) fun h => ?_
      cases h with
      | object hfields => exact absurd hfields (by rw [hhides]; decide)
    | false => exact ⟨fun _ => .object hhides, fun _ => ⟨_, rfl⟩⟩

theorem texts_ok_iff : ∀ values : List Json,
    (∃ ts, texts values = .ok ts) ↔ ∀ value ∈ values, Printable value
  | [] => ⟨fun _ => nofun, fun _ => ⟨[], rfl⟩⟩
  | value :: values => by
    have hvalue := toText_ok_iff value
    have hvalues := texts_ok_iff values
    rw [texts, List.forall_mem_cons, ← hvalue, ← hvalues]
    constructor
    · rintro ⟨ts, hts⟩
      cases htext : value.toText with
      | error e => rw [htext] at hts; cases hts
      | ok text =>
        cases hrest : texts values with
        | error e => rw [htext, hrest] at hts; cases hts
        | ok rest => exact ⟨⟨text, rfl⟩, ⟨rest, rfl⟩⟩
    · rintro ⟨⟨text, htext⟩, ⟨rest, hrest⟩⟩
      exact ⟨_, by rw [htext, hrest]; rfl⟩

end

theorem display_ok_iff (value : Json) : (∃ text, value.display = .ok text) ↔ Printable value := by
  cases value with
  | null => exact ⟨fun _ => .null, fun _ => ⟨[], rfl⟩⟩
  | bool _ | number _ | string _ | array _ | object _ => exact toText_ok_iff _

/-- A list is spread and printed exactly if it is `Listable`. -/
theorem spread_ok_iff (value : Option Json) :
    (∃ values, spread value = .ok values ∧ ∀ v ∈ values, Printable v) ↔ Listable value := by
  match value with
  | none => exact ⟨fun _ => .absent, fun _ => ⟨[], rfl, nofun⟩⟩
  | some value =>
    rw [spread]
    by_cases htruthy : value.truthy = true
    · rw [if_pos htruthy]
      cases value with
      | null => cases htruthy
      | string s =>
        refine ⟨fun _ => .string s, fun _ => ⟨_, rfl, ?_⟩⟩
        intro v hv
        obtain ⟨point, -, rfl⟩ := List.mem_map.1 hv
        exact .string point
      | array values =>
        constructor
        · rintro ⟨vs, hvs, hprintable⟩
          cases hvs
          exact .array hprintable
        · intro h
          cases h with
          | falsy hfalsy => cases hfalsy
          | array hvalues => exact ⟨values, rfl, hvalues⟩
      | bool _ | number _ | object _ =>
        refine iff_of_false (fun ⟨_, h, _⟩ => nomatch h) fun h => ?_
        cases h with
        | falsy hfalsy => rw [htruthy] at hfalsy; cases hfalsy
    · rw [if_neg htruthy]
      exact ⟨fun _ => .falsy (Bool.eq_false_iff.2 htruthy), fun _ => ⟨[], rfl, nofun⟩⟩

end Json
end TaskQueue.JavaScript
