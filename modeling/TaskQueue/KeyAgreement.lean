import TaskQueue.KeyConfiguration
import Mathlib.Data.Char

/-!
# The validator and the key dictionaries

Three loops of `app/config.py` read the same comma lists: two of them check the entries, the
third one builds the dictionaries. What the first two let through, the third one reads as
they did.
-/

namespace TaskQueue.KeyAgreement
open KeyedTables PythonStrings KeyConfiguration

/-- The comma entries that are not blank, as they are written. -/
def pieces (configured : String) : List String :=
  (split configured ',').filter fun piece => strip piece ≠ ""

/-- 64 hexadecimal digits. -/
def HexDigest (text : String) : Prop :=
  text.toList.length = 64 ∧ text.toList.all isHexDigit = true

/-- 64 hexadecimal digits in lower case. -/
def Digest (text : String) : Prop :=
  text.toList.length = 64 ∧ text.toList.all isLowerHexDigit = true

/-- A name that is neither empty nor surrounded by blanks. -/
def Trimmed (name : String) : Prop := name ≠ "" ∧ strip name = name

/-- The Demo Reel hash as the validator stores it. -/
def normalised (configured : AuthSettings) : String :=
  lower (strip configured.demoReelProducerApiKeyHash)

/-- An entry lacks a name or a digest. -/
def Malformed (configured : String) : Prop :=
  ∃ piece ∈ pieces configured, entryName piece = "" ∨ ¬HexDigest (entryText piece)

/-- The Demo Reel hash has another name, or the Demo Reel identity another digest. -/
def Conflicting (configured : AuthSettings) : Prop :=
  configured.demoReelProducerApiKeyHash ≠ "" ∧ ∃ piece ∈ pieces configured.serviceApiKeys,
    (entryDigest piece = normalised configured ∧ entryName piece ≠ demoReelProducerIdentity) ∨
      (entryName piece = demoReelProducerIdentity ∧ entryDigest piece ≠ normalised configured)

/-- The dictionaries of a configuration hold what its lists and the Demo Reel hash say. -/
structure Agrees (configured cfg : AuthSettings) : Prop where
  workerKeys : ∀ d, d ∈ (workerKeyHashes cfg).rows.map Prod.fst ↔
    ∃ piece ∈ pieces configured.workerApiKeys, entryDigest piece = d
  serviceKeys : ∀ d, d ∈ (serviceKeyHashes cfg).rows.map Prod.fst ↔
    (∃ piece ∈ pieces configured.serviceApiKeys, entryDigest piece = d) ∨
      configured.demoReelProducerApiKeyHash ≠ "" ∧ d = normalised configured
  wellFormed : ∀ row ∈ (workerKeyHashes cfg).rows ++ (serviceKeyHashes cfg).rows,
    Digest row.1 ∧ Trimmed row.2
  demoReel : configured.demoReelProducerApiKeyHash ≠ "" → ∀ d,
    (d, demoReelProducerIdentity) ∈ (serviceKeyHashes cfg).rows ↔ d = normalised configured

/-- The hexadecimal digits, by their codes. -/
theorem isLowerHexDigit_iff {c : Char} : isLowerHexDigit c = true ↔
    (48 ≤ c.toNat ∧ c.toNat ≤ 57) ∨ (97 ≤ c.toNat ∧ c.toNat ≤ 102) := by
  simp only [isLowerHexDigit, Char.isDigit, Bool.or_eq_true, Bool.and_eq_true, decide_eq_true_eq,
    ge_iff_le, Char.le_def, UInt32.le_iff_toNat_le]
  rfl

theorem isHexDigit_iff {c : Char} : isHexDigit c = true ↔
    isLowerHexDigit c = true ∨ (65 ≤ c.toNat ∧ c.toNat ≤ 70) := by
  simp only [isHexDigit, Bool.or_eq_true, Bool.and_eq_true, decide_eq_true_eq, Char.le_def,
    UInt32.le_iff_toNat_le]
  rfl

theorem toNat_toLower (c : Char) :
    c.toLower.toNat = if 65 ≤ c.toNat ∧ c.toNat ≤ 90 then c.toNat + 32 else c.toNat := by
  have hupper : (c.val ≥ 'A'.val ∧ c.val ≤ 'Z'.val) ↔ 65 ≤ c.toNat ∧ c.toNat ≤ 90 := by
    simp only [ge_iff_le, UInt32.le_iff_toNat_le]
    rfl
  unfold Char.toLower
  split
  · next h =>
    rw [if_pos (hupper.1 h)]
    have hval := (hupper.1 h).2
    change (c.val + ('a'.val - 'A'.val)).toNat = c.val.toNat + 32
    rw [UInt32.toNat_add]
    have hnat : c.val.toNat ≤ 90 := hval
    have hstep : ('a'.val - 'A'.val).toNat = 32 := rfl
    omega
  · next h => rw [if_neg fun hc => h (hupper.2 hc)]

theorem isLowerHexDigit_toLower {c : Char} (h : isHexDigit c = true) :
    isLowerHexDigit c.toLower = true := by
  rw [isHexDigit_iff, isLowerHexDigit_iff] at h
  rw [isLowerHexDigit_iff, toNat_toLower]
  split <;> omega

theorem toLower_of_isLowerHexDigit {c : Char} (h : isLowerHexDigit c = true) :
    c.toLower = c := by
  rw [isLowerHexDigit_iff] at h
  apply Char.toNat_inj.1
  rw [toNat_toLower, if_neg (by omega)]

theorem HexDigest.lower {text : String} (h : HexDigest text) : Digest (lower text) := by
  obtain ⟨hlength, hall⟩ := h
  refine ⟨by simpa [PythonStrings.lower] using hlength, ?_⟩
  rw [PythonStrings.lower, String.toList_ofList, List.all_map]
  rw [List.all_eq_true] at hall ⊢
  exact fun c hc => isLowerHexDigit_toLower (hall c hc)

theorem Digest.lower_eq {text : String} (h : Digest text) : lower text = text := by
  have hmap : text.toList.map Char.toLower = text.toList.map id :=
    List.map_congr_left fun c hc => toLower_of_isLowerHexDigit (List.all_eq_true.1 h.2 c hc)
  rw [lower, hmap, List.map_id, String.ofList_toList]

theorem Digest.ne_empty {text : String} (h : Digest text) : text ≠ "" := by
  rintro rfl
  exact absurd h.1 (by decide)

theorem trimmed_strip {text : String} (h : strip text ≠ "") : Trimmed (strip text) :=
  ⟨h, trim_trim isSpace text⟩

theorem trimmed_demoReel : Trimmed demoReelProducerIdentity := ⟨by decide, by decide⟩

section Entries
variable {configured : String}

theorem entries_eq : entries configured = (pieces configured).map strip := by
  rw [entries, pieces, List.filter_map]
  rfl

theorem entryName_strip (piece : String) : entryName (strip piece) = entryName piece :=
  (trim_partition_trim rfl piece).1

theorem entryText_strip (piece : String) : entryText (strip piece) = entryText piece :=
  (trim_partition_trim rfl piece).2

theorem entryDigest_strip (piece : String) : entryDigest (strip piece) = entryDigest piece :=
  congrArg lower (entryText_strip piece)

/-- The loops that strip an entry first read it as it is written. -/
theorem forall_entries_iff {P : String → Prop} (hP : ∀ piece, P (strip piece) ↔ P piece) :
    (∀ entry ∈ entries configured, P entry) ↔ ∀ piece ∈ pieces configured, P piece := by
  simp only [entries_eq, List.forall_mem_map, hP]

theorem wellFormed_iff {entry : String} :
    wellFormed entry = true ↔ entryName entry ≠ "" ∧ HexDigest (entryText entry) := by
  simp [wellFormed, HexDigest, and_assoc]

theorem not_malformed_iff : ¬Malformed configured ↔
    ∀ piece ∈ pieces configured, entryName piece ≠ "" ∧ HexDigest (entryText piece) := by
  simp [Malformed, not_or]

theorem checkEntries_ok_iff {settingName : String} :
    checkEntries settingName configured = .ok () ↔ ¬Malformed configured := by
  have hall : (entries configured).all wellFormed = true ↔ ¬Malformed configured := by
    rw [List.all_eq_true, not_malformed_iff, forall_entries_iff]
    · simp only [wellFormed_iff]
    · intro piece
      rw [wellFormed_iff, wellFormed_iff, entryName_strip, entryText_strip]
  rw [← hall, checkEntries]
  split_ifs with h <;> simp [h]

/-- Every binding of a dictionary is an entry of its list. -/
theorem exists_piece_of_get {d : String} {row : String × String}
    (h : (namedKeyHashes configured).get d = some row) :
    ∃ piece ∈ pieces configured, entryDigest piece = row.1 ∧ entryName piece = row.2 := by
  have hfold : ∀ (l : List String) (hashes : KeyHashes),
      (l.foldl (fun hashes entry => assign hashes (entryDigest entry) (entryName entry))
        hashes).get d = some row →
      hashes.get d = some row ∨
        ∃ entry ∈ l, entryDigest entry = row.1 ∧ entryName entry = row.2 := by
    intro l
    induction l with
    | nil => exact fun hashes h => .inl h
    | cons entry l ih =>
      intro hashes h
      rcases ih _ h with hassign | ⟨other, hmem, hother⟩
      · rw [get_assign] at hassign
        split_ifs at hassign with hd
        · have hrow : (entryDigest entry, entryName entry) = row := Option.some.inj hassign
          exact .inr ⟨entry, List.mem_cons_self, by rw [← hrow], by rw [← hrow]⟩
        · exact .inl hassign
      · exact .inr ⟨other, List.mem_cons_of_mem _ hmem, hother⟩
  rw [namedKeyHashes] at h
  rcases hfold _ _ h with hempty | ⟨entry, hmem, hdigest, hname⟩
  · rw [Table.get_empty] at hempty
    cases hempty
  · rw [entries_eq] at hmem
    obtain ⟨piece, hpiece, rfl⟩ := List.mem_map.1 hmem
    exact ⟨piece, hpiece, entryDigest_strip piece ▸ hdigest, entryName_strip piece ▸ hname⟩

theorem mem_configuredDigests {d : String} :
    d ∈ configuredDigests configured ↔ ∃ piece ∈ pieces configured, entryDigest piece = d := by
  rw [configuredDigests, entries_eq, List.map_map, List.mem_map]
  simp only [Function.comp_apply, entryDigest_strip]

end Entries

theorem mem_keys_iff {hashes : KeyHashes} {d : String} :
    d ∈ hashes.rows.map Prod.fst ↔ hashes.get d ≠ none := by
  rw [ne_eq, Table.get_eq_none_iff]
  simp

theorem mem_rows_iff {hashes : KeyHashes} {d name : String} :
    (d, name) ∈ hashes.rows ↔ hashes.get d = some (d, name) :=
  ⟨fun h => Table.get_of_mem h, fun h => Table.mem_of_get h⟩

section Validation
variable {configured cfg : AuthSettings}

theorem forM_eq_ok_iff {f : String → Except String Unit} {l : List String} :
    l.forM f = .ok () ↔ ∀ entry ∈ l, f entry = .ok () := by
  induction l with
  | nil => simp [pure, Except.pure]
  | cons entry l ih =>
    cases h : f entry with
    | error e => simp [h, bind, Except.bind]
    | ok u => simpa [h, bind, Except.bind] using ih

theorem checkDemoReelEntry_ok_iff {demoReelHash entry : String} :
    checkDemoReelEntry demoReelHash entry = .ok () ↔
      ¬((entryDigest entry = demoReelHash ∧ entryName entry ≠ demoReelProducerIdentity) ∨
        (entryName entry = demoReelProducerIdentity ∧ entryDigest entry ≠ demoReelHash)) := by
  rw [not_or, checkDemoReelEntry]
  split_ifs with hname hdigest
  · exact iff_of_false nofun fun h => h.1 hname
  · exact iff_of_false nofun fun h => h.2 hdigest
  · exact iff_of_true rfl ⟨hname, hdigest⟩

/-- What the checks on the Demo Reel hash let through. -/
theorem checkDemoReel_ok {hash : String} (h : checkDemoReel configured = .ok hash) :
    hash = normalised configured ∧
      (configured.demoReelProducerApiKeyHash ≠ "" → Digest (normalised configured)) ∧
      ¬Conflicting configured := by
  have hnormalised : lower (strip configured.demoReelProducerApiKeyHash) =
      normalised configured := rfl
  simp only [checkDemoReel, hnormalised, bind, Except.bind, pure, Except.pure, throw, throwThe,
    MonadExceptOf.throw] at h
  split at h
  · cases h
  · next hchecked =>
    have hdigest : configured.demoReelProducerApiKeyHash ≠ "" → Digest (normalised configured) :=
      fun hset => by_contra fun hnot => hchecked ⟨hset, hnot⟩
    split at h
    · cases hentries : (entries configured.serviceApiKeys).forM
          (checkDemoReelEntry (normalised configured)) with
      | error e => simp [hentries] at h
      | ok u =>
        rw [hentries] at h
        refine ⟨(Except.ok.inj h).symm, hdigest, ?_⟩
        have hall := forM_eq_ok_iff.1 hentries
        simp only [checkDemoReelEntry_ok_iff] at hall
        rw [forall_entries_iff] at hall
        · rintro ⟨-, piece, hpiece, hconflict⟩
          exact hall piece hpiece hconflict
        · intro piece
          rw [entryName_strip, entryDigest_strip]
    · next hempty =>
      refine ⟨(Except.ok.inj h).symm, hdigest, ?_⟩
      rintro ⟨hset, -⟩
      exact hempty (hdigest hset).ne_empty

theorem validate_ok (h : validateAuthConfiguration configured = .ok cfg) :
    ¬Malformed configured.serviceApiKeys ∧ ¬Malformed configured.workerApiKeys ∧
      checkDemoReel configured = .ok cfg.demoReelProducerApiKeyHash ∧
      cfg = { configured with demoReelProducerApiKeyHash := cfg.demoReelProducerApiKeyHash } := by
  unfold validateAuthConfiguration at h
  cases hservice : checkEntries "SERVICE_API_KEYS" configured.serviceApiKeys with
  | error e => simp [hservice, bind, Except.bind] at h
  | ok u =>
    cases hworker : checkEntries "WORKER_API_KEYS" configured.workerApiKeys with
    | error e => simp [hservice, hworker, bind, Except.bind] at h
    | ok u' =>
      cases hdemo : checkDemoReel configured with
      | error e => simp [hservice, hworker, hdemo, bind, Except.bind] at h
      | ok hash =>
        simp only [hservice, hworker, hdemo, bind, Except.bind] at h
        split at h
        · cases h
        · cases h
          exact ⟨checkEntries_ok_iff.1 hservice, checkEntries_ok_iff.1 hworker, rfl, rfl⟩

/-- The values of a list without malformed entries. -/
theorem wellFormed_of_get {list d : String} {row : String × String} (h : ¬Malformed list)
    (hget : (namedKeyHashes list).get d = some row) : Digest row.1 ∧ Trimmed row.2 := by
  obtain ⟨piece, hpiece, hdigest, hname⟩ := exists_piece_of_get hget
  obtain ⟨hnonempty, htext⟩ := not_malformed_iff.1 h piece hpiece
  exact ⟨hdigest ▸ htext.lower, hname ▸ trimmed_strip hnonempty⟩

/-- The dictionary of the producers with the Demo Reel hash of an accepted configuration. -/
theorem serviceKeyHashes_eq (hdigest : configured.demoReelProducerApiKeyHash ≠ "" →
    Digest (normalised configured)) :
    serviceKeyHashes { configured with demoReelProducerApiKeyHash := normalised configured } =
      if configured.demoReelProducerApiKeyHash ≠ "" then
        assign (namedKeyHashes configured.serviceApiKeys) (normalised configured)
          demoReelProducerIdentity
      else namedKeyHashes configured.serviceApiKeys := by
  by_cases hset : configured.demoReelProducerApiKeyHash = ""
  · have hempty : normalised configured = "" := by
      rw [normalised, hset]
      rfl
    rw [serviceKeyHashes, if_neg (not_not.2 hempty), if_neg (not_not.2 hset)]
  · have hhash := hdigest hset
    rw [serviceKeyHashes, if_pos hhash.ne_empty, if_pos hset, hhash.lower_eq]

theorem mem_namedKeys_iff {list d : String} : (namedKeyHashes list).get d ≠ none ↔
    ∃ piece ∈ pieces list, entryDigest piece = d := by
  rw [ne_eq, get_namedKeyHashes_eq_none_iff, not_not, mem_configuredDigests]

theorem agrees_of_ok (h : validateAuthConfiguration configured = .ok cfg) :
    Agrees configured cfg := by
  obtain ⟨hservice, hworker, hdemo, hcfg⟩ := validate_ok h
  obtain ⟨hhash, hdigest, hconsistent⟩ := checkDemoReel_ok hdemo
  rw [hhash] at hcfg
  have hkeys := serviceKeyHashes_eq hdigest
  rw [← hcfg] at hkeys
  have hworkers : workerKeyHashes cfg = namedKeyHashes configured.workerApiKeys := by
    rw [hcfg, workerKeyHashes]
  refine ⟨?workerKeys, ?serviceKeys, ?wellFormed, ?demoReel⟩
  case workerKeys =>
    intro d
    rw [mem_keys_iff, hworkers, mem_namedKeys_iff]
  case serviceKeys =>
    intro d
    rw [mem_keys_iff, hkeys]
    by_cases hset : configured.demoReelProducerApiKeyHash = ""
    · rw [if_neg (not_not.2 hset), mem_namedKeys_iff]
      simp [hset]
    · rw [if_pos hset, ne_eq, get_assign_eq_none_iff, ← mem_namedKeys_iff]
      by_cases hd : d = normalised configured <;> simp [hd, hset]
  case wellFormed =>
    rintro ⟨d, name⟩ hrow
    rcases List.mem_append.1 hrow with hrow | hrow
    · rw [mem_rows_iff, hworkers] at hrow
      exact wellFormed_of_get hworker hrow
    · rw [mem_rows_iff, hkeys] at hrow
      split at hrow
      · next hset =>
        rw [get_assign] at hrow
        split at hrow
        · obtain ⟨hd, hname⟩ := Prod.mk.inj (Option.some.inj hrow)
          rw [← hd, ← hname]
          exact ⟨hdigest hset, trimmed_demoReel⟩
        · exact wellFormed_of_get hservice hrow
      · exact wellFormed_of_get hservice hrow
  case demoReel =>
    intro hset d
    rw [mem_rows_iff, hkeys, if_pos hset, get_assign]
    by_cases hd : d = normalised configured
    · simp [hd]
    · rw [if_neg hd]
      refine iff_of_false ?_ hd
      intro hget
      obtain ⟨piece, hpiece, hpieceDigest, hname⟩ := exists_piece_of_get hget
      refine hconsistent ⟨hset, piece, hpiece, .inr ⟨hname, ?_⟩⟩
      rw [hpieceDigest]
      exact hd

end Validation

/-- What the validator accepts the dictionaries read as it did, and what is malformed or
inconsistent it does not accept. -/
theorem validation_agrees (configured : AuthSettings) :
    (∀ cfg, validateAuthConfiguration configured = .ok cfg → Agrees configured cfg) ∧
      (Malformed configured.serviceApiKeys ∨ Malformed configured.workerApiKeys ∨
        Conflicting configured →
          ∃ message, validateAuthConfiguration configured = .error message) := by
  refine ⟨fun cfg h => agrees_of_ok h, fun hwrong => ?_⟩
  cases hvalidate : validateAuthConfiguration configured with
  | error message => exact ⟨message, rfl⟩
  | ok cfg =>
    obtain ⟨hservice, hworker, hdemo, -⟩ := validate_ok hvalidate
    rcases hwrong with hmalformed | hmalformed | hconflicting
    · exact absurd hmalformed hservice
    · exact absurd hmalformed hworker
    · exact absurd hconflicting (checkDemoReel_ok hdemo).2.2

/-- Sixty-four times the same digit. -/
def digits (c : Char) : String := String.ofList (List.replicate 64 c)

/-- A list with blanks, an empty entry and upper case, and the Demo Reel hash, as it may be
written and as it is stored. -/
def demoReelBox (hash : String) : AuthSettings where
  workerApiKeys := "box:" ++ digits 'C' ++ ", ,\tlaptop : " ++ digits '7'
  demoReelProducerApiKeyHash := hash

theorem validation_agrees_demoReel :
    Agrees (demoReelBox (" " ++ digits 'A')) (demoReelBox (digits 'a')) ∧
      ∃ message, validateAuthConfiguration { workerApiKeys := " laptop : plaintext-key" } =
        .error message := by
  constructor
  · exact (validation_agrees _).1 _ (by decide +kernel)
  · exact (validation_agrees _).2 (.inr (.inl ⟨" laptop : plaintext-key", by decide,
      .inr fun h => absurd h.1 (by decide)⟩))

end TaskQueue.KeyAgreement
