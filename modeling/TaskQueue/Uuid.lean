import TaskQueue.PythonStrings
import Mathlib.Tactic.FinCases
import Mathlib.Tactic.IntervalCases

/-!
# Texts that denote a uuid

An id reaches the services as text. `uuid.UUID` decides whether it looks like a uuid, and
the database then reads the same text with a grammar of its own.
-/

namespace TaskQueue.Uuid
open PythonStrings

/-- `uuid.UUID(text)`: the value, or none for a `ValueError`. -/
def uuidOf (text : String) : Option ℕ :=
  let hex := trim (fun c => c = '{' || c = '}') (remove "uuid:" (remove "urn:" text))
  let hex := String.ofList (hex.toList.filter (· ≠ '-'))
  if hex.toList.length = 32 then intBase16 hex else none

def isHex (c : Char) : Bool := (hexDigit c).isSome

/-- Groups of four digits, each but the last with an optional hyphen behind it, and then
the closing text. -/
def digitGroups (closing : List Char) : ℕ → List Char → Option (List Char)
  | 0, s => if s = closing then some [] else none
  | n + 1, a :: b :: c :: d :: s =>
    if isHex a && isHex b && isHex c && isHex d then
      (digitGroups closing n (if n ≠ 0 ∧ s.head? = some '-' then s.tail else s)).map
        ([a, b, c, d].map Char.toLower ++ ·)
    else none
  | _ + 1, _ => none

/-- The text by which the database shows a uuid. -/
def canonicalText (digits : List Char) : String :=
  String.ofList (digits.take 8 ++ '-' :: (digits.drop 8).take 4 ++ '-' :: (digits.drop 12).take 4 ++
    '-' :: (digits.drop 16).take 4 ++ '-' :: digits.drop 20)

/-- The input function of the database's uuid type: the row id that the text denotes, or
none for a `DataError`. -/
def pgUuid (text : String) : Option String :=
  (match text.toList with
    | '{' :: s => digitGroups ['}'] 8 s
    | s => digitGroups [] 8 s).map canonicalText

example : pgUuid "{A0EEBC99-9C0B4EF8-BB6D6BB9-BD380A11}" =
    some "a0eebc99-9c0b-4ef8-bb6d-6bb9bd380a11" := by decide +kernel

example : uuidOf "urn:uuid:a0eebc99-9c0b-4ef8-bb6d-6bb9bd380a11" =
    uuidOf "a0eebc999c0b4ef8bb6d6bb9bd380a11" := by decide +kernel

/-- The characters that `isHex` accepts. -/
def hexDigits : List Char :=
  ['0', '1', '2', '3', '4', '5', '6', '7', '8', '9', 'a', 'b', 'c', 'd', 'e', 'f', 'A', 'B', 'C',
    'D', 'E', 'F']

theorem mem_hexDigits {c : Char} (h : isHex c = true) : c ∈ hexDigits := by
  have hcode : (48 ≤ c.toNat ∧ c.toNat ≤ 57) ∨ (97 ≤ c.toNat ∧ c.toNat ≤ 102) ∨
      (65 ≤ c.toNat ∧ c.toNat ≤ 70) := by
    unfold isHex hexDigit at h
    split_ifs at h with hdigit hlower hupper
    · simp only [Char.isDigit, Bool.and_eq_true, decide_eq_true_eq, ge_iff_le,
        UInt32.le_iff_toNat_le] at hdigit
      exact .inl hdigit
    · simp only [Char.le_def, UInt32.le_iff_toNat_le] at hlower
      exact .inr (.inl hlower)
    · simp only [Char.le_def, UInt32.le_iff_toNat_le] at hupper
      exact .inr (.inr hupper)
    · cases h
  rw [← Char.ofNat_toNat c]
  rcases hcode with ⟨hlow, hhigh⟩ | ⟨hlow, hhigh⟩ | ⟨hlow, hhigh⟩ <;>
    interval_cases c.toNat <;> decide

/-- What `int` and `uuid.UUID` do with a hexadecimal digit. -/
theorem hexDigits_plain : ∀ c ∈ hexDigits, toAscii c = c ∧ isIntSpace c = false ∧
    (hexDigit c).isSome = true ∧ c ≠ '+' ∧ c ≠ 'x' ∧ c ≠ 'X' ∧ c ≠ '_' ∧ c ≠ '-' ∧ c ≠ ':' ∧
    c ≠ '{' ∧ c ≠ '}' := by
  -- one digit at a time: all at once is too deep for the kernel
  intro c hc
  fin_cases hc <;> decide +kernel

theorem hexNumber_isSome {s : List Char} (h : ∀ c ∈ s, c ∈ hexDigits) :
    ∀ (gap : Bool) (value : ℕ), (gap = true → s ≠ []) → (hexNumber gap value s).isSome = true := by
  induction s with
  | nil =>
    intro gap value hgap
    cases gap with
    | true => exact absurd rfl (hgap rfl)
    | false => rfl
  | cons c s ih =>
    intro gap value _
    obtain ⟨-, -, hdigit, -, -, -, hunderscore, -⟩ := hexDigits_plain c (h c List.mem_cons_self)
    obtain ⟨d, hd⟩ := Option.isSome_iff_exists.1 hdigit
    rw [hexNumber, if_neg hunderscore, hd]
    exact ih (fun c hc => h c (List.mem_cons_of_mem _ hc)) false _ nofun

/-- `int` reads every text of hexadecimal digits. -/
theorem intBase16_isSome {s : String} (hne : s.toList ≠ []) (h : ∀ c ∈ s.toList, c ∈ hexDigits) :
    (intBase16 s).isSome = true := by
  have hplain := fun c hc => hexDigits_plain c (h c hc)
  have hdrop : s.toList.dropWhile isIntSpace = s.toList := by
    rw [List.dropWhile_eq_self_iff]
    intro hpos
    simp [(hplain _ (List.getElem_mem hpos)).2.1]
  have hrdrop : s.toList.rdropWhile isIntSpace = s.toList := by
    rw [List.rdropWhile_eq_self_iff]
    intro hnil
    simp [(hplain _ (List.getLast_mem hnil)).2.1]
  have hmap : s.toList.map toAscii = s.toList :=
    (List.map_congr_left fun c hc => (hplain c hc).1).trans (List.map_id _)
  have hplus : s.toList.head? ≠ some '+' := by
    intro hhead
    exact (hplain '+' (List.mem_of_mem_head? hhead)).2.2.2.1 rfl
  unfold intBase16
  rw [hdrop, hrdrop, hmap]
  dsimp only
  rw [if_neg hplus]
  split
  · next rest heq => exact absurd rfl (hplain 'x' (heq ▸ by simp)).2.2.2.2.1
  · next rest heq => exact absurd rfl (hplain 'X' (heq ▸ by simp)).2.2.2.2.2.1
  · exact hexNumber_isSome h true 0 fun _ => hne

/-- The digits and hyphens in front of the closing text. -/
theorem digitGroups_body {closing s digits : List Char} {n : ℕ}
    (h : digitGroups closing n s = some digits) : ∃ body, s = body ++ closing ∧
      (∀ c ∈ body, c ∈ hexDigits ∨ c = '-') ∧ (body.filter (· ≠ '-')).length = 4 * n := by
  induction n generalizing s digits with
  | zero =>
    rw [digitGroups] at h
    split_ifs at h with hclosing
    exact ⟨[], hclosing, nofun, rfl⟩
  | succ n ih =>
    match s, h with
    | a :: b :: c :: d :: s, h =>
      rw [digitGroups] at h
      by_cases hhex : (isHex a && isHex b && isHex c && isHex d) = true
      · rw [if_pos hhex] at h
        obtain ⟨rest, hrest, -⟩ := Option.map_eq_some_iff.1 h
        obtain ⟨body, hbody, hchars, hlength⟩ := ih hrest
        simp only [Bool.and_eq_true] at hhex
        obtain ⟨⟨⟨ha, hb⟩, hc⟩, hd⟩ := hhex
        have hgroup : ∀ x ∈ [a, b, c, d], x ∈ hexDigits := by
          simp [mem_hexDigits ha, mem_hexDigits hb, mem_hexDigits hc, mem_hexDigits hd]
        have hfour : ([a, b, c, d].filter (· ≠ '-')).length = 4 := by
          rw [List.filter_eq_self.2]
          · rfl
          · exact fun x hx => decide_eq_true (hexDigits_plain x (hgroup x hx)).2.2.2.2.2.2.2.1
        obtain ⟨gap, hgap, hs⟩ : ∃ gap, (gap = [] ∨ gap = ['-']) ∧ s = gap ++ (body ++ closing) := by
          rw [← hbody]
          split_ifs with hhyphen
          · refine ⟨['-'], .inr rfl, ?_⟩
            obtain ⟨-, hhead⟩ := hhyphen
            cases s with
            | nil => cases hhead
            | cons x s => cases hhead; rfl
          · exact ⟨[], .inl rfl, rfl⟩
        refine ⟨[a, b, c, d] ++ gap ++ body, by simp [hs], ?_, ?_⟩
        · intro x hx
          rcases List.mem_append.1 hx with hx | hx
          · rcases List.mem_append.1 hx with hx | hx
            · exact .inl (hgroup x hx)
            · rcases hgap with rfl | rfl
              · cases hx
              · exact .inr (List.mem_singleton.1 hx)
          · exact hchars x hx
        · have hnone : (gap.filter (· ≠ '-')).length = 0 := by
            rcases hgap with rfl | rfl <;> rfl
          rw [List.filter_append, List.filter_append, List.length_append, List.length_append,
            hfour, hnone, hlength]
          omega
      · rw [if_neg hhex] at h
        cases h

/-- Braces and hyphens around and among 32 hexadecimal digits. -/
theorem uuidOf_isSome {front body tail : List Char} (hfront : front = [] ∨ front = ['{'])
    (htail : tail = [] ∨ tail = ['}']) (hchars : ∀ c ∈ body, c ∈ hexDigits ∨ c = '-')
    (hlength : (body.filter (· ≠ '-')).length = 32) :
    (uuidOf (String.ofList (front ++ (body ++ tail)))).isSome = true := by
  have hplain : ∀ c ∈ body, c ≠ ':' ∧ c ≠ '{' ∧ c ≠ '}' := by
    intro c hc
    rcases hchars c hc with hhex | rfl
    · exact (hexDigits_plain c hhex).2.2.2.2.2.2.2.2
    · decide
  have hcolon : ':' ∉ (String.ofList (front ++ (body ++ tail))).toList := by
    have hbody : ':' ∉ body := fun hmem => (hplain _ hmem).1 rfl
    rcases hfront with rfl | rfl <;> rcases htail with rfl | rfl <;> simp [hbody]
  have htrim : trim (fun c => c = '{' || c = '}') (String.ofList (front ++ (body ++ tail))) =
      String.ofList body := by
    rw [String.ofList_append, String.ofList_append, trim_append_left, trim_append_right,
      trim_eq_self]
    · intro c hc
      rw [String.toList_ofList] at hc
      simp [(hplain c hc).2]
    · rcases htail with rfl | rfl <;> simp
    · rcases hfront with rfl | rfl <;> simp
  have hhex : ∀ c ∈ body.filter (· ≠ '-'), c ∈ hexDigits := by
    intro c hc
    obtain ⟨hmem, hhyphen⟩ := List.mem_filter.1 hc
    exact (hchars c hmem).resolve_right (of_decide_eq_true hhyphen)
  have hne : body.filter (· ≠ '-') ≠ [] := by
    intro hnil
    rw [hnil] at hlength
    cases hlength
  unfold uuidOf
  rw [remove_eq_self (c := ':') (by decide) hcolon, remove_eq_self (c := ':') (by decide) hcolon,
    htrim]
  dsimp only
  rw [String.toList_ofList, String.toList_ofList, if_pos hlength]
  exact intBase16_isSome (by simpa using hne) (by simpa using hhex)

/-- The database reads no text that `uuid.UUID` refuses. -/
theorem uuidOf_of_pgUuid {text id : String} (h : pgUuid text = some id) : uuidOf text ≠ none := by
  obtain ⟨digits, hdigits, -⟩ := Option.map_eq_some_iff.1 h
  rw [← Option.isSome_iff_ne_none, ← String.ofList_toList (s := text)]
  split at hdigits
  · next s htext =>
    obtain ⟨body, rfl, hchars, hlength⟩ := digitGroups_body hdigits
    rw [htext]
    have hsome := uuidOf_isSome (.inr rfl) (.inr rfl) hchars hlength
    exact hsome
  · next s htext =>
    obtain ⟨body, hbody, hchars, hlength⟩ := digitGroups_body hdigits
    rw [hbody]
    have hsome := uuidOf_isSome (.inl rfl) (.inl rfl) hchars hlength
    exact hsome

end TaskQueue.Uuid
