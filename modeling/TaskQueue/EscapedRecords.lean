import TaskQueue.DashboardMarkup

/-!
# Records do not put markup into the dashboard

Whatever the texts of the records, the values in the templates of `renderWorkers` and
`renderTasks` are escaped, and the outline of the tables is that of the templates.
-/

namespace TaskQueue.Dashboard
open JavaScript Html

/-- What `escapeHtml` makes of the five characters. -/
def entities : List String := ["&amp;", "&lt;", "&gt;", "&quot;", "&#39;"]

/-- Text without `<`, `>` and quotes, with `&` only where an entity starts. -/
structure Escaped (s : JsString) : Prop where
  plain : ∀ c ∈ s, c ∉ [lessThan, greaterThan, quote, apostrophe]
  entity : ∀ rest, ampersand :: rest <:+ s → ∃ e ∈ entities, units e <+: ampersand :: rest

section Escaping

theorem Escaped.inert {s : JsString} (h : Escaped s) : Inert s where
  lessThan hmem := h.plain _ hmem (by decide)
  quote hmem := h.plain _ hmem (by decide)

theorem escaped_of_plain {s : JsString}
    (h : ∀ c ∈ s, c ∉ [ampersand, lessThan, greaterThan, quote, apostrophe]) : Escaped s where
  plain c hc := fun hmem => h c hc (.tail _ hmem)
  entity rest hrest := absurd (.head _) (h ampersand (hrest.subset (.head rest)))

theorem Escaped.append {s t : JsString} (hs : Escaped s) (ht : Escaped t) : Escaped (s ++ t) where
  plain c hc := (List.mem_append.1 hc).elim (hs.plain c) (ht.plain c)
  entity rest hrest := by
    obtain ⟨before, hbefore⟩ := hrest
    rcases List.append_eq_append_iff.1 hbefore with ⟨as, hs', hrest⟩ | ⟨bs, -, ht'⟩
    · cases as with
      | nil => exact ht.entity rest (hrest ▸ List.suffix_refl _)
      | cons a as =>
        -- the entity starts in the first text, and is all there
        obtain ⟨rfl, rfl⟩ := List.cons_eq_cons.1 hrest
        obtain ⟨e, he, hprefix⟩ := hs.entity as ⟨before, hs'.symm⟩
        exact ⟨e, he, hprefix.trans (List.prefix_append _ t)⟩
    · exact ht.entity rest ⟨bs, ht'.symm⟩

/-- An entity is escaped. -/
theorem escaped_entity {e : String} (he : e ∈ entities) : Escaped (units e) := by
  have hunits : ∀ e ∈ entities,
      ((units e).all fun c => c ∉ [lessThan, greaterThan, quote, apostrophe]) = true ∧
        (units e).head? = some ampersand ∧ ampersand ∉ (units e).tail := by decide
  obtain ⟨hplain, hhead, htail⟩ := hunits e he
  refine ⟨fun c hc => of_decide_eq_true (List.all_eq_true.1 hplain c hc), fun rest hrest => ?_⟩
  obtain ⟨c, body, hbody⟩ : ∃ c body, units e = c :: body := by
    cases hunit : units e with
    | nil => rw [hunit] at hhead; cases hhead
    | cons c body => exact ⟨c, body, rfl⟩
  rw [hbody] at hrest htail
  rcases List.suffix_cons_iff.1 hrest with heq | hsuffix
  · have hall : units e = ampersand :: rest := hbody.trans heq.symm
    exact ⟨e, he, hall ▸ List.prefix_rfl⟩
  · exact absurd (hsuffix.subset (.head rest)) htail

theorem escaped_escapeUnit (c : CodeUnit) : Escaped (escapeUnit c) := by
  rw [escapeUnit]
  split_ifs with hamp hlt hgt hquote hapos
  · exact escaped_entity (by decide)
  · exact escaped_entity (by decide)
  · exact escaped_entity (by decide)
  · exact escaped_entity (by decide)
  · exact escaped_entity (by decide)
  · apply escaped_of_plain
    intro d hd
    rw [List.mem_singleton.1 hd]
    simp [hamp, hlt, hgt, hquote, hapos]

@[simp] theorem escaped_escapeHtml (value : JsString) : Escaped (escapeHtml value) := by
  induction value with
  | nil => exact escaped_of_plain nofun
  | cons c value ih => exact (escaped_escapeUnit c).append ih

theorem plain_of_digit {c : Char} (hc : c.isDigit = true ∨ c = '-') : ∀ d ∈ utf16 c,
    d ∉ [ampersand, lessThan, greaterThan, quote, apostrophe] := by
  have hunits : ∀ n < 58, 45 ≤ n →
      UInt16.ofNat n ∉ [ampersand, lessThan, greaterThan, quote, apostrophe] := by decide
  have hrange : c.toNat < 58 ∧ 45 ≤ c.toNat := by
    rcases hc with hc | rfl
    · have hdigit : 48 ≤ c.toNat ∧ c.toNat ≤ 57 := Char.isDigit_iff_toNat.1 hc
      omega
    · decide
  intro d hd
  rw [utf16, if_pos (by omega)] at hd
  rw [List.mem_singleton.1 hd]
  exact hunits c.toNat hrange.1 hrange.2

theorem digit_of_mem_toString {n : Int} {c : Char} (hc : c ∈ (toString n).toList) :
    c.isDigit = true ∨ c = '-' := by
  have hdigit : ∀ m : ℕ, c ∈ m.repr.toList → c.isDigit = true := fun m hm =>
    Nat.isDigit_of_mem_toDigits (by decide) (by decide) (Nat.toList_repr ▸ hm)
  rw [Int.toString_eq_repr, Int.repr_eq_if] at hc
  split at hc
  · exact .inl (hdigit _ hc)
  · rw [String.toList_append, List.mem_append] at hc
    rcases hc with hc | hc
    · exact .inr (by simpa using hc)
    · exact .inl (hdigit _ hc)

@[simp] theorem escaped_decimal (n : Int) : Escaped (decimal n) := by
  apply escaped_of_plain
  intro d hd
  obtain ⟨c, hc, hdc⟩ := List.mem_flatMap.1 hd
  exact plain_of_digit (digit_of_mem_toString hc) d hdc

example : escapeHtml (units "<b>") = units "&lt;b&gt;" := by decide

end Escaping

/-- The branches that the template of a worker takes: the two identifiers and the number of
capabilities. -/
structure WorkerBranches where
  id : Bool
  currentTask : Bool
  capabilities : Option ℕ
  deriving DecidableEq

def workerBranches (worker : WorkerRecord) : WorkerBranches where
  id := truthy (some worker.id)
  currentTask := truthy worker.currentTaskId
  capabilities := (capabilityValues worker).toOption.map List.length

structure TaskBranches where
  id : Bool
  claimedBy : Bool
  hasProgress : Bool
  message : Bool
  deriving DecidableEq

def taskBranches (task : TaskRecord) : TaskBranches where
  id := truthy (some task.id)
  claimedBy := truthy task.claimedBy
  hasProgress := hasProgress task
  message := truthy (progressText task)

section Parts

theorem identifier_filled (value : Option JsString) (label : String) :
    (identifier value label).Filled Escaped := by
  rw [identifier]
  split <;> simp

theorem identifier_whole (value : Option JsString) (label : String) :
    Whole (identifier value label) := by
  rw [identifier]
  split
  · exact .text (u := .doubleQuoted) (by decide +kernel) <| .value rfl <|
      .text (u := .doubleQuoted) (by decide +kernel) <| .value rfl <|
      .text (u := .doubleQuoted) (by decide +kernel) <| .value rfl <|
      .text (u := .data) (by decide +kernel) <| .value rfl <|
      .text (by decide +kernel) (.nil _)
  · exact .text (by decide +kernel) (.nil _)

theorem identifier_template {value value' : Option JsString} (h : truthy value = truthy value')
    (label : String) :
    Markup.template (identifier value label) = Markup.template (identifier value' label) := by
  rw [identifier, identifier, h]
  split <;> rfl

theorem statusBadge_filled (badge : Badge) : (statusBadge badge).Filled Escaped := by
  simp [statusBadge]

theorem statusBadge_whole (badge : Badge) : Whole (statusBadge badge) :=
  .text (u := .doubleQuoted) (by decide +kernel) <| .value rfl <|
    .text (u := .data) (by decide +kernel) <| .text (u := .data) (by decide +kernel) <|
    .text (u := .data) (by decide +kernel) <| .value rfl <| .text (by decide +kernel) (.nil _)

theorem statusBadge_template (badge badge' : Badge) :
    Markup.template (statusBadge badge) = Markup.template (statusBadge badge') := rfl

theorem capability_inv {value : Json} {markup : Markup} (h : capability value = .ok markup) :
    ∃ text, markup = [.text "<span class=\"capability\">", .value (escapeHtml text),
      .text "</span>"] := by
  rw [capability] at h
  cases htext : value.display with
  | error e => rw [htext] at h; cases h
  | ok text =>
    rw [htext] at h
    cases h
    exact ⟨text, rfl⟩

theorem capability_filled {value : Json} {markup : Markup} (h : capability value = .ok markup) :
    markup.Filled Escaped := by
  obtain ⟨text, rfl⟩ := capability_inv h
  simp

theorem capability_whole {value : Json} {markup : Markup} (h : capability value = .ok markup) :
    Whole markup := by
  obtain ⟨text, rfl⟩ := capability_inv h
  exact .text (u := .data) (by decide +kernel) <| .value rfl <| .text (by decide +kernel) (.nil _)

theorem capability_template {value value' : Json} {markup markup' : Markup}
    (h : capability value = .ok markup) (h' : capability value' = .ok markup') :
    markup.template = markup'.template := by
  obtain ⟨text, rfl⟩ := capability_inv h
  obtain ⟨text', rfl⟩ := capability_inv h'
  rfl

/-- The list of capabilities, or the text that there are none. -/
theorem capabilities_inv {worker : WorkerRecord} {markup : Markup}
    (h : capabilities worker = .ok markup) : ∃ values, capabilityValues worker = .ok values ∧
      (values = [] ∧ markup = [.text "<span class=\"secondary-line\">None reported</span>"] ∨
        values ≠ [] ∧ ∃ items, Markup.joined capability values = .ok items ∧
          markup = [.text "<div class=\"capability-list\" translate=\"no\">"] ++ items ++
            [.text "</div>"]) := by
  rw [capabilities] at h
  cases hvalues : capabilityValues worker with
  | error e => rw [hvalues] at h; cases h
  | ok values =>
    rw [hvalues] at h
    refine ⟨values, rfl, ?_⟩
    cases values with
    | nil =>
      cases h
      exact .inl ⟨rfl, rfl⟩
    | cons value values =>
      refine .inr ⟨nofun, ?_⟩
      cases hitems : Markup.joined capability (value :: values) with
      | error e =>
        change (Markup.joined capability (value :: values) >>= _) = _ at h
        rw [hitems] at h
        cases h
      | ok items =>
        change (Markup.joined capability (value :: values) >>= _) = _ at h
        rw [hitems] at h
        cases h
        exact ⟨items, rfl, rfl⟩

theorem capabilities_filled {worker : WorkerRecord} {markup : Markup}
    (h : capabilities worker = .ok markup) : markup.Filled Escaped := by
  obtain ⟨values, -, ⟨-, rfl⟩ | ⟨-, items, hitems, rfl⟩⟩ := capabilities_inv h
  · simp
  · have hfilled : items.Filled Escaped :=
      Markup.joined_filled (fun _ _ => capability_filled) hitems
    simp [hfilled]

theorem capabilities_whole {worker : WorkerRecord} {markup : Markup}
    (h : capabilities worker = .ok markup) : Whole markup := by
  obtain ⟨values, -, ⟨-, rfl⟩ | ⟨-, items, hitems, rfl⟩⟩ := capabilities_inv h
  · exact .text (by decide +kernel) (.nil _)
  · have hwhole : Whole items := joined_whole (fun _ _ => capability_whole) hitems
    exact (Scans.text (u := .data) (by decide +kernel) hwhole).append
      (.text (by decide +kernel) (.nil _))

/-- As many capabilities have the same template. -/
theorem capabilities_template {worker worker' : WorkerRecord} {markup markup' : Markup}
    (hbranches : (workerBranches worker).capabilities = (workerBranches worker').capabilities)
    (h : capabilities worker = .ok markup) (h' : capabilities worker' = .ok markup') :
    markup.template = markup'.template := by
  obtain ⟨values, hvalues, hcases⟩ := capabilities_inv h
  obtain ⟨values', hvalues', hcases'⟩ := capabilities_inv h'
  have hlength : values.length = values'.length := by
    rw [workerBranches, workerBranches, hvalues, hvalues'] at hbranches
    exact Option.some.inj hbranches
  rcases hcases with ⟨rfl, rfl⟩ | ⟨hne, items, hitems, rfl⟩
  · rcases hcases' with ⟨-, rfl⟩ | ⟨hne', -⟩
    · rfl
    · exact absurd (List.length_eq_zero_iff.1 hlength.symm) hne'
  · rcases hcases' with ⟨rfl, -⟩ | ⟨-, items', hitems', rfl⟩
    · exact absurd (List.length_eq_zero_iff.1 hlength) hne
    · have hpairs : List.Forall₂ (fun x y => ∀ m m', capability x = .ok m →
          capability y = .ok m' → m.template = m'.template) values values' :=
        List.forall₂_iff_zip.2 ⟨hlength, fun _ m m' hm hm' => capability_template hm hm'⟩
      have htemplate := Markup.joined_template hpairs hitems hitems'
      simp [htemplate]

theorem claimant_filled (task : TaskRecord) : (claimant task).Filled Escaped := by
  rw [claimant]
  split <;> simp

theorem claimant_whole (task : TaskRecord) : Whole (claimant task) := by
  rw [claimant]
  split
  · exact .text (u := .data) (by decide +kernel) <| .value rfl <|
      .text (by decide +kernel) (.nil _)
  · exact .text (by decide +kernel) (.nil _)

theorem claimant_template {task task' : TaskRecord}
    (h : truthy task.claimedBy = truthy task'.claimedBy) :
    Markup.template (claimant task) = Markup.template (claimant task') := by
  rw [claimant, claimant, h]
  split <;> rfl

theorem progressMessage_filled (message : Option JsString) :
    (progressMessage message).Filled Escaped := by
  rw [progressMessage]
  split <;> simp

theorem progressMessage_whole (message : Option JsString) : Whole (progressMessage message) := by
  rw [progressMessage]
  split
  · exact .text (u := .data) (by decide +kernel) <| .value rfl <|
      .text (by decide +kernel) (.nil _)
  · exact Scans.nil _

theorem progressMessage_template {message message' : Option JsString}
    (h : truthy message = truthy message') :
    Markup.template (progressMessage message) = Markup.template (progressMessage message') := by
  rw [progressMessage, progressMessage, h]
  split <;> rfl

variable (browser : Browser)

theorem progress_filled (task : TaskRecord) : (progress browser task).Filled Escaped := by
  have hmessage := progressMessage_filled (progressText task)
  rw [progress]
  split <;> simp [hmessage]

theorem progress_whole (task : TaskRecord) : Whole (progress browser task) := by
  have hmessage := progressMessage_whole (progressText task)
  rw [progress]
  split
  · refine (Scans.append (t := .data) ?_ hmessage).append (.text (by decide +kernel) (.nil _))
    exact .text (u := .data) (by decide +kernel) <| .value rfl <|
      .text (u := .data) (by decide +kernel) <| .value rfl <|
      .text (u := .doubleQuoted) (by decide +kernel) <| .value rfl <|
      .text (u := .doubleQuoted) (by decide +kernel) <| .value rfl <|
      .text (u := .doubleQuoted) (by decide +kernel) <| .value rfl <|
      .text (u := .data) (by decide +kernel) <| .value rfl <|
      .text (by decide +kernel) (.nil _)
  · exact .text (u := .data) (by decide +kernel) <| .value rfl <|
      .text (u := .data) (by decide +kernel) hmessage

theorem progress_template {task task' : TaskRecord}
    (h : taskBranches task = taskBranches task') :
    Markup.template (progress browser task) = Markup.template (progress browser task') := by
  have hprogress : hasProgress task = hasProgress task' := congrArg TaskBranches.hasProgress h
  have hmessage := progressMessage_template (congrArg TaskBranches.message h)
  rw [progress, progress, hprogress]
  split <;> simp [hmessage]

end Parts

/-- Rows put nothing but escaped text into their templates, which are up to the branches. -/
structure Inserts {R B : Type} (branches : R → B) (row : Int → R → Except JsError Markup) :
    Prop where
  filled : ∀ {now r m}, row now r = .ok m → m.Filled Escaped
  whole : ∀ {now r m}, row now r = .ok m → Whole m
  template : ∀ {now now' r r' m m'}, branches r = branches r' → row now r = .ok m →
    row now' r' = .ok m' → m.template = m'.template

section Rows
variable (browser : Browser)

theorem workerRow_inv {now : Int} {worker : WorkerRecord} {markup : Markup}
    (h : workerRow browser now worker = .ok markup) :
    ∃ items, capabilities worker = .ok items ∧ markup = workerCells browser now worker items := by
  rw [workerRow] at h
  cases hitems : capabilities worker with
  | error e => rw [hitems] at h; cases h
  | ok items =>
    rw [hitems] at h
    cases h
    exact ⟨items, rfl, rfl⟩

theorem workerRow_inserts : Inserts workerBranches (workerRow browser) where
  filled := by
    intro now worker markup h
    obtain ⟨items, hitems, rfl⟩ := workerRow_inv browser h
    simp [workerCells, identifier_filled, statusBadge_filled, capabilities_filled hitems]
  whole := by
    intro now worker markup h
    obtain ⟨items, hitems, rfl⟩ := workerRow_inv browser h
    simp only [workerCells, List.cons_append, List.nil_append, List.append_assoc]
    exact .text (u := .data) (by decide +kernel) <| .text (u := .data) (by decide +kernel) <|
      .value rfl <| .text (u := .data) (by decide +kernel) <| (identifier_whole _ _).append <|
      .text (u := .data) (by decide +kernel) <| .value rfl <|
      .text (u := .data) (by decide +kernel) <| (statusBadge_whole _).append <|
      .text (u := .data) (by decide +kernel) <| (capabilities_whole hitems).append <|
      .text (u := .data) (by decide +kernel) <| (identifier_whole _ _).append <|
      .text (u := .doubleQuoted) (by decide +kernel) <| .value rfl <|
      .text (u := .data) (by decide +kernel) <| .value rfl <|
      .text (by decide +kernel) (.nil _)
  template := by
    intro now now' worker worker' markup markup' hbranches h h'
    obtain ⟨items, hitems, rfl⟩ := workerRow_inv browser h
    obtain ⟨items', hitems', rfl⟩ := workerRow_inv browser h'
    have hid := identifier_template (congrArg WorkerBranches.id hbranches) "Worker ID"
    have htask := identifier_template (congrArg WorkerBranches.currentTask hbranches)
      "Current task ID"
    have hcapabilities := capabilities_template
      (congrArg WorkerBranches.capabilities hbranches) hitems hitems'
    have hstate := statusBadge_template (workerState worker) (workerState worker')
    simp [workerCells, hid, htask, hcapabilities, hstate]

theorem taskRow_inserts :
    Inserts taskBranches fun now task => .ok (taskRow browser now task) where
  filled := by
    intro now task markup h
    cases h
    simp [taskRow, identifier_filled, statusBadge_filled, claimant_filled, progress_filled]
  whole := by
    intro now task markup h
    cases h
    simp only [taskRow, List.cons_append, List.nil_append, List.append_assoc]
    exact .text (u := .data) (by decide +kernel) <| .text (u := .data) (by decide +kernel) <|
      .value rfl <| .text (u := .data) (by decide +kernel) <| (identifier_whole _ _).append <|
      .text (u := .data) (by decide +kernel) <| (statusBadge_whole _).append <|
      .text (u := .data) (by decide +kernel) <| (claimant_whole task).append <|
      .text (u := .data) (by decide +kernel) <| (progress_whole browser task).append <|
      .text (u := .doubleQuoted) (by decide +kernel) <| .value rfl <|
      .text (u := .data) (by decide +kernel) <| .value rfl <|
      .text (by decide +kernel) (.nil _)
  template := by
    intro now now' task task' markup markup' hbranches h h'
    cases h
    cases h'
    have hid := identifier_template (congrArg TaskBranches.id hbranches) "Task ID"
    have hclaimant := claimant_template (congrArg TaskBranches.claimedBy hbranches)
    have hprogress := progress_template browser hbranches
    have hstate := statusBadge_template (taskStatus browser task.status)
      (taskStatus browser task'.status)
    simp [taskRow, hid, hclaimant, hprogress, hstate]

end Rows

section Tables
variable {R B : Type} {branches : R → B} {row : Int → R → Except JsError Markup}
  {noRecords head markup markup' : Markup} {clock clock' : ℕ → Int}
  {records records' : List R}

/-- The table of records, or the panel without any. -/
theorem table_inv (h : table noRecords head row clock records = .ok markup) :
    records = [] ∧ markup = noRecords ∨ records ≠ [] ∧ ∃ rows,
      Markup.joined (fun x => row (clock x.2) x.1) records.zipIdx = .ok rows ∧
        markup = head ++ rows ++ [.text "</tbody>\n      </table>\n    </div>"] := by
  cases records with
  | nil =>
    cases h
    exact .inl ⟨rfl, rfl⟩
  | cons r records =>
    refine .inr ⟨nofun, ?_⟩
    change (Markup.joined (fun x => row (clock x.2) x.1) (r :: records).zipIdx >>= _) = _ at h
    cases hrows : Markup.joined (fun x => row (clock x.2) x.1) (r :: records).zipIdx with
    | error e => rw [hrows] at h; cases h
    | ok rows =>
      rw [hrows] at h
      cases h
      exact ⟨rows, rfl, rfl⟩

theorem table_filled (hrow : Inserts branches row) (hnone : noRecords.Filled Escaped)
    (hhead : head.Filled Escaped)
    (h : table noRecords head row clock records = .ok markup) : markup.Filled Escaped := by
  rcases table_inv h with ⟨-, rfl⟩ | ⟨-, rows, hrows, rfl⟩
  · exact hnone
  · have hfilled : rows.Filled Escaped :=
      Markup.joined_filled (fun _ _ => hrow.filled) hrows
    simp [hhead, hfilled]

theorem table_whole (hrow : Inserts branches row) (hnone : Whole noRecords)
    (hhead : Whole head)
    (h : table noRecords head row clock records = .ok markup) : Whole markup := by
  rcases table_inv h with ⟨-, rfl⟩ | ⟨-, rows, hrows, rfl⟩
  · exact hnone
  · have hwhole : Whole rows := joined_whole (fun _ _ => hrow.whole) hrows
    exact (hhead.append hwhole).append (.text (by decide +kernel) (.nil _))

theorem table_template (hrow : Inserts branches row)
    (hbranches : records.map branches = records'.map branches)
    (h : table noRecords head row clock records = .ok markup)
    (h' : table noRecords head row clock' records' = .ok markup') :
    markup.template = markup'.template := by
  have hlength : records.length = records'.length := by
    simpa using congrArg List.length hbranches
  rcases table_inv h with ⟨rfl, rfl⟩ | ⟨hne, rows, hrows, rfl⟩
  · rcases table_inv h' with ⟨-, rfl⟩ | ⟨hne', -⟩
    · rfl
    · exact absurd (List.length_eq_zero_iff.1 hlength.symm) hne'
  · rcases table_inv h' with ⟨rfl, -⟩ | ⟨-, rows', hrows', rfl⟩
    · exact absurd (List.length_eq_zero_iff.1 hlength) hne
    · have hpairs : List.Forall₂ (fun x y => ∀ m m', row (clock x.2) x.1 = .ok m →
          row (clock' y.2) y.1 = .ok m' → m.template = m'.template)
          records.zipIdx records'.zipIdx := by
        have hzip : records.zipIdx.map (branches ∘ Prod.fst) =
            records'.zipIdx.map (branches ∘ Prod.fst) := by
          rw [← List.map_map, ← List.map_map, List.zipIdx_map_fst, List.zipIdx_map_fst, hbranches]
        rw [← List.forall₂_eq_eq_eq, List.forall₂_map_left_iff, List.forall₂_map_right_iff] at hzip
        exact hzip.imp fun x y hxy m m' hm hm' => hrow.template hxy hm hm'
      have htemplate := Markup.joined_template hpairs hrows hrows'
      simp [htemplate]

end Tables

/-- A renderer that puts nothing but escaped text from the records into its templates: records
on the same branches give the same templates, and tables with the same outline. -/
structure InjectionFree {R B : Type} (branches : R → B)
    (render : (ℕ → Int) → List R → Except JsError Markup) : Prop where
  escaped : ∀ clock records markup, render clock records = .ok markup → markup.Filled Escaped
  outline : ∀ clock clock' records records' markup markup',
    records.map branches = records'.map branches → render clock records = .ok markup →
    render clock' records' = .ok markup' →
    markup.template = markup'.template ∧ outline markup.string = outline markup'.string

theorem table_injectionFree {R B : Type} {branches : R → B}
    {row : Int → R → Except JsError Markup} {noRecords head : Markup}
    (hrow : Inserts branches row) (hnone : noRecords.Filled Escaped) (hwhole : Whole noRecords)
    (hfilled : head.Filled Escaped) (hhead : Whole head) :
    InjectionFree branches (table noRecords head row) where
  escaped clock records markup h := table_filled hrow hnone hfilled h
  outline clock clock' records records' markup markup' hbranches h h' := by
    have hinert := (table_filled hrow hnone hfilled h).mono fun _ => Escaped.inert
    have hinert' := (table_filled hrow hnone hfilled h').mono fun _ => Escaped.inert
    have htemplate := table_template hrow hbranches h h'
    exact ⟨htemplate, outline_congr (table_whole hrow hwhole hhead h) htemplate hinert hinert'⟩

section Constants
-- the texts are unified with lists of characters
set_option maxRecDepth 4096

theorem noWorkers_whole : Whole noWorkers :=
  .text (u := .data) (by decide +kernel) <| .text (u := .doubleQuoted) (by decide +kernel) <|
    .text (u := .data) (by decide +kernel) <| .text (u := .data) (by decide +kernel) <|
    .text (u := .data) (by decide +kernel) <| .text (by decide +kernel) (.nil _)

theorem noTasks_whole : Whole noTasks :=
  .text (u := .data) (by decide +kernel) <| .text (u := .doubleQuoted) (by decide +kernel) <|
    .text (u := .data) (by decide +kernel) <| .text (u := .data) (by decide +kernel) <|
    .text (u := .data) (by decide +kernel) <| .text (by decide +kernel) (.nil _)

/-- Nothing in the records can change the markup of the dashboard. -/
theorem renderers_injectionFree (browser : Browser) :
    InjectionFree workerBranches (workersMarkup browser) ∧
      InjectionFree taskBranches (tasksMarkup browser) := by
  constructor
  · refine table_injectionFree (workerRow_inserts browser) (by simp [noWorkers]) noWorkers_whole
      (by simp) ?_
    exact .text (u := .beforeAttributeName) (by decide +kernel) <|
      .text (u := .data) (by decide +kernel) <| .text (u := .data) (by decide +kernel) <|
      .text (u := .data) (by decide +kernel) <| .text (u := .data) (by decide +kernel) <|
      .text (by decide +kernel) (.nil _)
  · refine table_injectionFree (taskRow_inserts browser) (by simp [noTasks]) noTasks_whole
      (by simp) ?_
    exact .text (u := .beforeAttributeName) (by decide +kernel) <|
      .text (u := .data) (by decide +kernel) <| .text (u := .data) (by decide +kernel) <|
      .text (u := .data) (by decide +kernel) <| .text (u := .data) (by decide +kernel) <|
      .text (by decide +kernel) (.nil _)

end Constants
end TaskQueue.Dashboard
