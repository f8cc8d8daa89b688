import Mathlib.Data.List.DropRight
import Mathlib.Data.List.TakeWhile
import Mathlib.Tactic.SplitIfs

/-!
# Python's string methods

The methods that the source calls on text, for arguments of one character where the
source passes no longer ones.
-/

namespace TaskQueue.PythonStrings

/-- `c.isspace()`: the characters that `strip` removes. -/
def isSpace (c : Char) : Bool :=
  let n := c.toNat
  (9 ≤ n && n ≤ 13) || (28 ≤ n && n ≤ 32) || n == 0x85 || n == 0xa0 || n == 0x1680 ||
    (0x2000 ≤ n && n ≤ 0x200a) || n == 0x2028 || n == 0x2029 || n == 0x202f || n == 0x205f ||
    n == 0x3000

/-- Drop the characters that pass the test from both ends. -/
def trim (p : Char → Bool) (s : String) : String :=
  String.ofList ((s.toList.dropWhile p).rdropWhile p)

/-- `s.strip()`. -/
def strip (s : String) : String := trim isSpace s

/-- `s.rstrip(chars)`. -/
def rstrip (p : Char → Bool) (s : String) : String := String.ofList (s.toList.rdropWhile p)

/-- `s.startswith(start)`. -/
def startsWith (s start : String) : Bool := start.toList.isPrefixOf s.toList

/-- `s.endswith(suffix)`. -/
def endsWith (s suffix : String) : Bool := suffix.toList.isSuffixOf s.toList

/-- `s.removesuffix(suffix)`. -/
def removeSuffix (s suffix : String) : String :=
  if endsWith s suffix then
    String.ofList (s.toList.take (s.toList.length - suffix.toList.length))
  else s

/-- `s.split(sep)`. -/
def split (s : String) (sep : Char) : List String := (s.toList.splitOn sep).map String.ofList

/-- `s.partition(sep)` without the separator. -/
def partition (s : String) (sep : Char) : String × String :=
  (String.ofList (s.toList.takeWhile (· ≠ sep)),
    String.ofList ((s.toList.dropWhile (· ≠ sep)).drop 1))

/-- `s.lower()` of text whose letters are those of ASCII. -/
def lower (s : String) : String := String.ofList (s.toList.map Char.toLower)

/-- `s.replace(old, "")`, with the characters of the last match still to skip. -/
def removeFrom (old : List Char) : ℕ → List Char → List Char
  | _, [] => []
  | skip + 1, _ :: s => removeFrom old skip s
  | 0, c :: s =>
    if old.isPrefixOf (c :: s) then removeFrom old (old.length - 1) s
    else c :: removeFrom old 0 s

/-- `s.replace(old, "")` for text that is not empty. -/
def remove (old : String) (s : String) : String := String.ofList (removeFrom old.toList 0 s.toList)

/-- The zeros of the blocks of ten decimal digits. -/
def decimalZeros : List ℕ :=
  [0x30, 0x660, 0x6f0, 0x7c0, 0x966, 0x9e6, 0xa66, 0xae6, 0xb66, 0xbe6, 0xc66, 0xce6, 0xd66,
   0xde6, 0xe50, 0xed0, 0xf20, 0x1040, 0x1090, 0x17e0, 0x1810, 0x1946, 0x19d0, 0x1a80,
   0x1a90, 0x1b50, 0x1bb0, 0x1c40, 0x1c50, 0xa620, 0xa8d0, 0xa900, 0xa9d0, 0xa9f0, 0xaa50,
   0xabf0, 0xff10, 0x104a0, 0x10d30, 0x11066, 0x110f0, 0x11136, 0x111d0, 0x112f0, 0x11450,
   0x114d0, 0x11650, 0x116c0, 0x11730, 0x118e0, 0x11950, 0x11c50, 0x11d50, 0x11da0, 0x16a60,
   0x16ac0, 0x16b50, 0x1d7ce, 0x1d7d8, 0x1d7e2, 0x1d7ec, 0x1d7f6, 0x1e140, 0x1e2f0, 0x1e950,
   0x1fbf0]

/-- `unicodedata.decimal(c)`. -/
def decimal (c : Char) : Option ℕ :=
  (decimalZeros.find? fun first => first ≤ c.toNat && c.toNat < first + 10).map (c.toNat - ·)

/-- The characters that `int` skips at both ends. -/
def isIntSpace (c : Char) : Bool := isSpace c && !(28 ≤ c.toNat && c.toNat ≤ 31)

/-- The decimal digits of other scripts count as those of ASCII. -/
def toAscii (c : Char) : Char :=
  match decimal c with
  | none => c
  | some d => Char.ofNat ('0'.toNat + d)

/-- The value of a hexadecimal digit of ASCII. -/
def hexDigit (c : Char) : Option ℕ :=
  if c.isDigit then some (c.toNat - '0'.toNat)
  else if 'a' ≤ c ∧ c ≤ 'f' then some (c.toNat - 'a'.toNat + 10)
  else if 'A' ≤ c ∧ c ≤ 'F' then some (c.toNat - 'A'.toNat + 10)
  else none

/-- Hexadecimal digits with single underscores between them; `gap` where the next
character must be a digit. -/
def hexNumber (gap : Bool) (value : ℕ) : List Char → Option ℕ
  | [] => if gap then none else some value
  | c :: s =>
    if c = '_' then if gap then none else hexNumber true value s
    else match hexDigit c with
      | none => none
      | some d => hexNumber false (16 * value + d) s

/-- `int(s, 16)` of text without hyphens. -/
def intBase16 (s : String) : Option ℕ :=
  let digits := ((s.toList.dropWhile isIntSpace).rdropWhile isIntSpace).map toAscii
  let digits := if digits.head? = some '+' then digits.tail else digits
  match digits with
  | '0' :: 'x' :: s | '0' :: 'X' :: s => hexNumber true 0 (if s.head? = some '_' then s.tail else s)
  | s => hexNumber true 0 s

theorem rdropWhile_append {α : Type} (p : α → Bool) (l m : List α) :
    (l ++ m).rdropWhile p = if m.rdropWhile p = [] then l.rdropWhile p else l ++ m.rdropWhile p := by
  simp only [List.rdropWhile, List.reverse_append, List.dropWhile_append, List.isEmpty_iff,
    List.reverse_eq_nil_iff]
  split <;> simp

/-- Stripping stops at the last text that is not stripped away whole. -/
theorem rstrip_append (p : Char → Bool) (s t : String) :
    rstrip p (s ++ t) = if rstrip p t = "" then rstrip p s else s ++ rstrip p t := by
  have hempty : rstrip p t = "" ↔ t.toList.rdropWhile p = [] := by simp [rstrip]
  have hlist : rstrip p (s ++ t) = String.ofList (if t.toList.rdropWhile p = [] then
      s.toList.rdropWhile p else s.toList ++ t.toList.rdropWhile p) := by
    rw [rstrip, String.toList_append, rdropWhile_append]
  rw [hlist]
  by_cases h : t.toList.rdropWhile p = []
  · rw [if_pos h, if_pos (hempty.2 h), rstrip]
  · rw [if_neg h, if_neg (fun he => h (hempty.1 he))]
    exact String.toList_injective (by simp [rstrip])

theorem rstrip_rstrip (p : Char → Bool) (s : String) : rstrip p (rstrip p s) = rstrip p s := by
  simp [rstrip, List.rdropWhile_idempotent]

/-- Texts that differ in their first character. -/
theorem startsWith_eq_false {s start : String} (h : start ≠ "")
    (hhead : s.toList.head? ≠ start.toList.head?) : startsWith s start = false := by
  rw [startsWith, Bool.eq_false_iff, ne_eq, List.isPrefixOf_iff_prefix]
  rintro ⟨rest, hrest⟩
  apply hhead
  rw [← hrest, List.head?_append_of_ne_nil]
  simpa using h

theorem endsWith_iff {s suffix : String} :
    endsWith s suffix = true ↔ suffix.toList <:+ s.toList :=
  List.isSuffixOf_iff_suffix

theorem endsWith_append_self (s suffix : String) : endsWith (s ++ suffix) suffix = true :=
  endsWith_iff.2 ⟨s.toList, String.toList_append.symm⟩

theorem endsWith_append {s suffix : String} (more : String) (h : endsWith s suffix = true) :
    endsWith (more ++ s) suffix = true := by
  rw [endsWith_iff, String.toList_append]
  exact List.suffix_append_of_suffix (endsWith_iff.1 h)

theorem exists_of_endsWith {s suffix : String} (h : endsWith s suffix = true) :
    ∃ front, s = front ++ suffix := by
  obtain ⟨front, hfront⟩ := endsWith_iff.1 h
  exact ⟨String.ofList front, String.toList_injective (by simp [hfront])⟩

theorem removeSuffix_append (s suffix : String) : removeSuffix (s ++ suffix) suffix = s := by
  rw [removeSuffix, if_pos (endsWith_append_self s suffix)]
  simp

theorem trim_append_left {p : Char → Bool} {front : String} (h : ∀ c ∈ front.toList, p c = true)
    (s : String) : trim p (front ++ s) = trim p s := by
  rw [trim, trim, String.toList_append, List.dropWhile_append_of_pos h]

theorem trim_append_right {p : Char → Bool} {tail : String} (h : ∀ c ∈ tail.toList, p c = true)
    (s : String) : trim p (s ++ tail) = trim p s := by
  have htail : tail.toList.rdropWhile p = [] := List.rdropWhile_eq_nil_iff.2 h
  rw [trim, trim, String.toList_append, List.dropWhile_append]
  split_ifs with hempty
  · rw [List.isEmpty_iff.1 hempty, List.dropWhile_eq_nil_iff.2 h]
  · rw [rdropWhile_append, if_pos htail]

/-- What `trim` drops. -/
theorem exists_trim (p : Char → Bool) (s : String) : ∃ front tail : String,
    s = front ++ (trim p s ++ tail) ∧ (∀ c ∈ front.toList, p c = true) ∧
      ∀ c ∈ tail.toList, p c = true := by
  refine ⟨String.ofList (s.toList.takeWhile p),
    String.ofList ((s.toList.dropWhile p).rtakeWhile p), ?_, ?_, ?_⟩
  · apply String.toList_injective
    simp [trim, List.rdropWhile_append_rtakeWhile]
  · intro c hc
    exact List.mem_takeWhile_imp (by simpa using hc)
  · intro c hc
    exact List.mem_rtakeWhile_imp (by simpa using hc)

theorem trim_trim (p : Char → Bool) (s : String) : trim p (trim p s) = trim p s := by
  obtain ⟨front, tail, hs, hfront, htail⟩ := exists_trim p s
  calc trim p (trim p s) = trim p (front ++ (trim p s ++ tail)) := by
        rw [trim_append_left hfront, trim_append_right htail]
    _ = trim p s := by rw [← hs]

theorem partition_of_notMem {s : String} {sep : Char} (h : sep ∉ s.toList) :
    partition s sep = (s, "") := by
  have hall : ∀ c ∈ s.toList, decide (c ≠ sep) = true := by
    intro c hc
    exact decide_eq_true fun heq => h (heq ▸ hc)
  have htake : s.toList.takeWhile (· ≠ sep) = s.toList := List.takeWhile_eq_self_iff.2 hall
  have hdrop : s.toList.dropWhile (· ≠ sep) = [] := List.dropWhile_eq_nil_iff.2 hall
  rw [partition, htake, hdrop]
  simp

/-- A separator in the first text is the one that counts. -/
theorem partition_append_of_mem {s : String} {sep : Char} (h : sep ∈ s.toList) (t : String) :
    partition (s ++ t) sep = ((partition s sep).1, (partition s sep).2 ++ t) := by
  have htake : (s.toList.takeWhile (· ≠ sep)).length ≠ s.toList.length := by
    intro hlength
    have heq := (List.takeWhile_prefix _).eq_of_length hlength
    simpa using List.takeWhile_eq_self_iff.1 heq sep h
  have hdrop : s.toList.dropWhile (· ≠ sep) ≠ [] := by
    intro hnil
    simpa using List.dropWhile_eq_nil_iff.1 hnil sep h
  have hlength : 1 ≤ (s.toList.dropWhile (· ≠ sep)).length := List.length_pos_iff.2 hdrop
  rw [partition, partition, String.toList_append, List.takeWhile_append, if_neg htake,
    List.dropWhile_append, if_neg (by simpa using hdrop), List.drop_append_of_le_length hlength]
  simp

theorem partition_append_of_notMem {s : String} {sep : Char} (h : sep ∉ s.toList) (t : String) :
    partition (s ++ t) sep = (s ++ (partition t sep).1, (partition t sep).2) := by
  have hall : ∀ c ∈ s.toList, decide (c ≠ sep) = true := by
    intro c hc
    exact decide_eq_true fun heq => h (heq ▸ hc)
  rw [partition, partition, String.toList_append, List.takeWhile_append_of_pos hall,
    List.dropWhile_append_of_pos hall]
  simp

/-- The two parts of a stripped text, stripped, are those of the text itself. -/
theorem trim_partition_trim {p : Char → Bool} {sep : Char} (hsep : p sep = false) (s : String) :
    trim p (partition (trim p s) sep).1 = trim p (partition s sep).1 ∧
      trim p (partition (trim p s) sep).2 = trim p (partition s sep).2 := by
  obtain ⟨front, tail, hs, hfront, htail⟩ := exists_trim p s
  have hnotMem : ∀ {l : List Char}, (∀ c ∈ l, p c = true) → sep ∉ l := by
    intro l hl hmem
    rw [hl sep hmem] at hsep
    cases hsep
  have hinner : partition s sep = (front ++ (partition (trim p s ++ tail) sep).1,
      (partition (trim p s ++ tail) sep).2) := by
    conv_lhs => rw [hs]
    exact partition_append_of_notMem (hnotMem hfront) _
  rw [hinner, trim_append_left hfront]
  by_cases hmem : sep ∈ (trim p s).toList
  · rw [partition_append_of_mem hmem, trim_append_right htail]
    exact ⟨rfl, rfl⟩
  · rw [partition_append_of_notMem hmem, partition_of_notMem hmem,
      partition_of_notMem (hnotMem htail), trim_append_right htail]
    exact ⟨rfl, rfl⟩

theorem trim_eq_self {p : Char → Bool} {s : String} (h : ∀ c ∈ s.toList, p c = false) :
    trim p s = s := by
  have hdrop : s.toList.dropWhile p = s.toList := by
    rw [List.dropWhile_eq_self_iff]
    intro hpos
    simp [h _ (List.getElem_mem hpos)]
  have hrdrop : s.toList.rdropWhile p = s.toList := by
    rw [List.rdropWhile_eq_self_iff]
    intro hne
    simp [h _ (List.getLast_mem hne)]
  rw [trim, hdrop, hrdrop, String.ofList_toList]

/-- A text without one of the characters of another does not contain the other. -/
theorem remove_eq_self {old s : String} {c : Char} (hold : c ∈ old.toList) (hs : c ∉ s.toList) :
    remove old s = s := by
  have hfrom : ∀ l : List Char, c ∉ l → removeFrom old.toList 0 l = l := by
    intro l
    induction l with
    | nil => exact fun _ => rfl
    | cons a l ih =>
      intro hl
      have hprefix : ¬old.toList.isPrefixOf (a :: l) = true := by
        rw [List.isPrefixOf_iff_prefix]
        exact fun hpre => hl (hpre.subset hold)
      rw [removeFrom, if_neg hprefix, ih fun hmem => hl (List.mem_cons_of_mem _ hmem)]
  rw [remove, hfrom _ hs, String.ofList_toList]

end TaskQueue.PythonStrings
