import Mathlib.Data.List.Nodup
import Mathlib.Data.List.Perm.Basic

/-!
# Tables with a primary key

A table is a list of rows no two of which have the same key. The order of the list
is the order in which a scan meets the rows and has no other meaning.
-/

namespace TaskQueue.KeyedTables

universe u v

/-- Rows with pairwise different keys. -/
structure Table (κ : Type u) (ρ : Type v) (key : ρ → κ) where
  rows : List ρ
  nodup : (rows.map key).Nodup

namespace Table

variable {κ : Type u} {ρ : Type v} {key : ρ → κ}

def empty : Table κ ρ key := ⟨[], List.nodup_nil⟩

/-- Rewrite every row, keeping its key. -/
def mapRows (t : Table κ ρ key) (f : ρ → ρ) (hf : ∀ r, key (f r) = key r) : Table κ ρ key where
  rows := t.rows.map f
  nodup := by
    have h : key ∘ f = key := funext hf
    rw [List.map_map, h]
    exact t.nodup

@[simp] theorem rows_mapRows (t : Table κ ρ key) (f : ρ → ρ) (hf) :
    (t.mapRows f hf).rows = t.rows.map f := rfl

theorem keys_mapRows (t : Table κ ρ key) (f : ρ → ρ) (hf) :
    (t.mapRows f hf).rows.map key = t.rows.map key := by
  rw [rows_mapRows, List.map_map]
  exact List.map_congr_left fun r _ => hf r

theorem forall_mapRows {t : Table κ ρ key} {f : ρ → ρ} {hf} {P : ρ → Prop}
    (h : ∀ r ∈ t.rows, P (f r)) : ∀ r ∈ (t.mapRows f hf).rows, P r := by
  intro r hr
  obtain ⟨x, hx, rfl⟩ := List.mem_map.1 hr
  exact h x hx

/-- Delete the rows that fail the test. -/
def filter (t : Table κ ρ key) (p : ρ → Bool) : Table κ ρ key where
  rows := t.rows.filter p
  nodup := t.nodup.sublist (List.filter_sublist.map key)

theorem filter_eq_self {t : Table κ ρ key} {p : ρ → Bool} (h : ∀ r ∈ t.rows, p r = true) :
    t.filter p = t := by
  obtain ⟨rows, nodup⟩ := t
  simp only [filter, mk.injEq]
  exact List.filter_eq_self.2 h

/-- Any other order of the same rows. -/
def reorder (t : Table κ ρ key) (rows : List ρ) (h : t.rows.Perm rows) : Table κ ρ key where
  rows := rows
  nodup := (h.map key).nodup_iff.1 t.nodup

variable [DecidableEq κ]

/-- The row with a given key. -/
def get (t : Table κ ρ key) (k : κ) : Option ρ := t.rows.find? fun r => decide (key r = k)

/-- Rewrite the row with a given key, keeping its key. -/
def modify (t : Table κ ρ key) (k : κ) (f : ρ → ρ) (hf : ∀ r, key (f r) = key r) :
    Table κ ρ key :=
  t.mapRows (fun r => if key r = k then f r else r) fun r => by split <;> simp [hf]

theorem get_eq_none_iff {t : Table κ ρ key} {k : κ} :
    t.get k = none ↔ ∀ r ∈ t.rows, key r ≠ k := by
  simp [get, List.find?_eq_none]

/-- Add a row whose key is not in the table. -/
def insertNew (t : Table κ ρ key) (r : ρ) (h : t.get (key r) = none) : Table κ ρ key where
  rows := t.rows ++ [r]
  nodup := by
    rw [List.map_append, List.nodup_append]
    refine ⟨t.nodup, by simp, ?_⟩
    intro a ha b hb
    obtain ⟨x, hx, rfl⟩ := List.mem_map.1 ha
    simp only [List.map_cons, List.map_nil, List.mem_singleton] at hb
    exact hb ▸ get_eq_none_iff.1 h x hx

@[simp] theorem get_empty (k : κ) : (empty : Table κ ρ key).get k = none := rfl

theorem get_eq_some_iff {t : Table κ ρ key} {k : κ} {r : ρ} :
    t.get k = some r ↔ r ∈ t.rows ∧ key r = k := by
  constructor
  · intro h
    exact ⟨List.mem_of_find?_eq_some h, by simpa using List.find?_some h⟩
  · intro h
    obtain ⟨hr, hkey⟩ := h
    cases hg : t.get k with
    | none => exact absurd hkey (get_eq_none_iff.1 hg r hr)
    | some x =>
      have hx : x ∈ t.rows := List.mem_of_find?_eq_some hg
      have hk : key x = k := by simpa using List.find?_some hg
      have hsame : x = r := List.inj_on_of_nodup_map t.nodup hx hr (hk.trans hkey.symm)
      rw [hsame]

theorem mem_of_get {t : Table κ ρ key} {k : κ} {r : ρ} (h : t.get k = some r) : r ∈ t.rows :=
  (get_eq_some_iff.1 h).1

theorem key_of_get {t : Table κ ρ key} {k : κ} {r : ρ} (h : t.get k = some r) : key r = k :=
  (get_eq_some_iff.1 h).2

theorem get_of_mem {t : Table κ ρ key} {r : ρ} (h : r ∈ t.rows) : t.get (key r) = some r :=
  get_eq_some_iff.2 ⟨h, rfl⟩

theorem isSome_get_iff {t : Table κ ρ key} {k : κ} : (t.get k).isSome ↔ k ∈ t.rows.map key := by
  rw [Option.isSome_iff_exists, List.mem_map]
  exact exists_congr fun r => get_eq_some_iff

/-- Two tables that hold the same rows answer every lookup alike. -/
theorem get_congr {t u : Table κ ρ key} (h : ∀ r, r ∈ t.rows ↔ r ∈ u.rows) (k : κ) :
    t.get k = u.get k := by
  apply Option.ext
  intro r
  rw [get_eq_some_iff, get_eq_some_iff, h r]

@[simp] theorem get_mapRows (t : Table κ ρ key) (f : ρ → ρ) (hf) (k : κ) :
    (t.mapRows f hf).get k = (t.get k).map f := by
  simp only [get, mapRows, List.find?_map, Function.comp_def, hf]

theorem get_modify (t : Table κ ρ key) (k : κ) (f : ρ → ρ) (hf) (j : κ) :
    (t.modify k f hf).get j = if j = k then (t.get j).map f else t.get j := by
  rw [modify, get_mapRows]
  cases hg : t.get j with
  | none => simp
  | some r =>
    have hk := key_of_get hg
    by_cases hj : j = k <;> simp [hk, hj]

@[simp] theorem get_modify_self (t : Table κ ρ key) (k : κ) (f : ρ → ρ) (hf) :
    (t.modify k f hf).get k = (t.get k).map f := by
  rw [get_modify, if_pos rfl]

theorem get_modify_of_ne (t : Table κ ρ key) {k j : κ} (f : ρ → ρ) (hf) (h : j ≠ k) :
    (t.modify k f hf).get j = t.get j := by
  rw [get_modify, if_neg h]

/-- A row of the rewritten table is an untouched row or the rewritten one. -/
theorem mem_modify {t : Table κ ρ key} {k : κ} {f : ρ → ρ} {hf} {r : ρ}
    (h : r ∈ (t.modify k f hf).rows) :
    (r ∈ t.rows ∧ key r ≠ k) ∨ ∃ x, t.get k = some x ∧ r = f x := by
  obtain ⟨x, hx, rfl⟩ := List.mem_map.1 h
  by_cases hk : key x = k
  · exact .inr ⟨x, get_eq_some_iff.2 ⟨hx, hk⟩, by simp [hk]⟩
  · exact .inl (by simpa [hk] using hx)

/-- Only the row with the key is rewritten. -/
theorem modify_congr {t : Table κ ρ key} {k : κ} {f g : ρ → ρ} {hf} {hg}
    (h : ∀ r, t.get k = some r → f r = g r) : t.modify k f hf = t.modify k g hg := by
  have hrows : t.rows.map (fun r => if key r = k then f r else r) =
      t.rows.map fun r => if key r = k then g r else r := by
    apply List.map_congr_left
    intro r hr
    by_cases hk : key r = k
    · rw [if_pos hk, if_pos hk, h r (get_eq_some_iff.2 ⟨hr, hk⟩)]
    · rw [if_neg hk, if_neg hk]
  simp only [modify, mapRows, hrows]

/-- What holds of every row and is kept by the rewriting holds of every new row. -/
theorem forall_modify {t : Table κ ρ key} {k : κ} {f : ρ → ρ} {hf} {P : ρ → Prop}
    (h : ∀ r ∈ t.rows, P r) (hk : ∀ r, t.get k = some r → P (f r)) :
    ∀ r ∈ (t.modify k f hf).rows, P r := by
  intro r hr
  rcases mem_modify hr with ⟨hr, -⟩ | ⟨x, hx, rfl⟩
  · exact h r hr
  · exact hk x hx

theorem get_insertNew (t : Table κ ρ key) (r : ρ) (h : t.get (key r) = none) (k : κ) :
    (t.insertNew r h).get k = if k = key r then some r else t.get k := by
  by_cases hk : k = key r
  · subst hk
    rw [if_pos rfl]
    exact get_of_mem (by simp [insertNew])
  · rw [if_neg hk]
    apply Option.ext
    intro x
    rw [get_eq_some_iff, get_eq_some_iff]
    simp only [insertNew, List.mem_append, List.mem_singleton]
    constructor
    · intro h
      obtain ⟨hx | hx, hxk⟩ := h
      · exact ⟨hx, hxk⟩
      · rw [hx] at hxk
        exact absurd hxk.symm hk
    · intro h
      exact ⟨.inl h.1, h.2⟩

theorem get_filter (t : Table κ ρ key) (p : ρ → Bool) (k : κ) :
    (t.filter p).get k = (t.get k).filter p := by
  apply Option.ext
  intro r
  rw [get_eq_some_iff, Option.filter_eq_some_iff, get_eq_some_iff]
  simp only [filter, List.mem_filter]
  constructor
  · intro h
    exact ⟨⟨h.1.1, h.2⟩, h.1.2⟩
  · intro h
    exact ⟨⟨h.1.1, h.2⟩, h.1.2⟩

/-- A row and the rows with other keys are the whole table. -/
theorem perm_cons_filter {t : Table κ ρ key} {k : κ} {r : ρ} (h : t.get k = some r) :
    t.rows.Perm (r :: (t.filter fun x => key x ≠ k).rows) := by
  have hk := key_of_get h
  have hnot : r ∉ (t.filter fun x => key x ≠ k).rows := by simp [filter, hk]
  refine (List.perm_ext_iff_of_nodup (List.Nodup.of_map key t.nodup) ?_).2 fun x => ?_
  · exact List.nodup_cons.2 ⟨hnot, List.Nodup.of_map key (t.filter _).nodup⟩
  · simp only [filter, List.mem_cons, List.mem_filter, ne_eq, decide_not, Bool.not_eq_true',
      decide_eq_false_iff_not]
    constructor
    · intro hx
      by_cases hxk : key x = k
      · exact .inl (List.inj_on_of_nodup_map t.nodup hx (mem_of_get h) (hxk.trans hk.symm))
      · exact .inr ⟨hx, hxk⟩
    · rintro (rfl | ⟨hx, -⟩)
      · exact mem_of_get h
      · exact hx

@[simp] theorem get_reorder (t : Table κ ρ key) (rows : List ρ) (h : t.rows.Perm rows) (k : κ) :
    (t.reorder rows h).get k = t.get k :=
  get_congr (fun _ => h.symm.mem_iff) k

end Table
end TaskQueue.KeyedTables
