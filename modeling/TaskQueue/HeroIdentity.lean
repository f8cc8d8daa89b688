import TaskQueue.HeroCache
import TaskQueue.SeparatedLists

/-!
# What a cached hero stands for

`_hero_cache_path` hashes the identity and the version of a hero with a colon between them.
Both are free text, so that the place of the colon is not determined, and different values
may be written with the same text.
-/

namespace TaskQueue.HeroIdentity
open HeroCache SeparatedLists

variable {Doc : Type} (docs : Docs Doc)

/-- The payload names a remote hero that may be fetched. -/
def Accepted (lib : Libraries) (hosts : Hosts) (payload : Payload Doc) : Prop :=
  ∃ url, remoteHero lib hosts docs payload = .ok (some url)

/-- The same identity, and the same version or none for both. -/
def SameHero (p q : Payload Doc) : Prop :=
  identity docs p = identity docs q ∧ p.heroVersion = q.heroVersion

def identityText (p : Payload Doc) : String := (identity docs p).str docs

def versionText (p : Payload Doc) : String := (version docs p).str docs

/-- The identity of `p` is that of `q` continued behind a colon, and the version of `q` makes
up for the rest. -/
def Continues (p q : Payload Doc) : Prop :=
  ∃ rest, identityText docs p = identityText docs q ++ ":" ++ rest ∧
    versionText docs q = rest ++ ":" ++ versionText docs p

/-- Different values of the same texts: a number and its digits, no version and the version
`unknown`. -/
def Homonyms (p q : Payload Doc) : Prop :=
  (identityText docs p = identityText docs q ∧ versionText docs p = versionText docs q) ∧
    (identity docs p ≠ identity docs q ∨ p.heroVersion ≠ q.heroVersion)

/-- The two payloads name different heroes in the same way. -/
def Confused (p q : Payload Doc) : Prop :=
  Continues docs p q ∨ Continues docs q p ∨ Homonyms docs p q

variable {docs} {p q : Payload Doc}

theorem continues_iff : Continues docs p q ↔ ∃ rest : List Char,
    (identityText docs p).toList = (identityText docs q).toList ++ ':' :: rest ∧
      (versionText docs q).toList = rest ++ ':' :: (versionText docs p).toList := by
  constructor
  · rintro ⟨rest, hidentity, hversion⟩
    exact ⟨rest.toList, by simp [hidentity], by simp [hversion]⟩
  · rintro ⟨rest, hidentity, hversion⟩
    exact ⟨String.ofList rest, String.toList_injective (by simp [hidentity]),
      String.toList_injective (by simp [hversion])⟩

theorem Continues.not_sameHero (h : Continues docs p q) : ¬SameHero docs p q := by
  obtain ⟨rest, hidentity, -⟩ := continues_iff.1 h
  intro hsame
  have hlength := congrArg List.length hidentity
  rw [identityText, identityText, hsame.1, List.length_append, List.length_cons] at hlength
  omega

/-- The hashed texts are equal where both parts are, or one identity goes on in the version
of the other. -/
theorem heroKey_eq_iff : heroKey docs p = heroKey docs q ↔
    (identityText docs p = identityText docs q ∧ versionText docs p = versionText docs q) ∨
      Continues docs p q ∨ Continues docs q p := by
  have hkey : ∀ r : Payload Doc, (heroKey docs r).toList =
      (identityText docs r).toList ++ ':' :: (versionText docs r).toList := by
    intro r
    simp [heroKey, identityText, versionText]
  rw [← String.toList_inj, hkey p, hkey q, append_cons_eq_iff, continues_iff, continues_iff,
    String.toList_inj, String.toList_inj]

theorem heroCacheName_eq_iff {lib : Libraries} (hsha256 : Function.Injective lib.sha256) :
    heroCacheName docs lib p = heroCacheName docs lib q ↔ heroKey docs p = heroKey docs q := by
  rw [heroCacheName, heroCacheName, String.append_left_inj]
  exact hsha256.eq_iff

/-- Without collisions of the hash a cached file stands for one hero exactly as far as the
payloads do not name different heroes in the same way. -/
theorem cacheName_identifies_iff {lib : Libraries} (hsha256 : Function.Injective lib.sha256)
    (p q : Payload Doc) :
    (heroCacheName docs lib p = heroCacheName docs lib q → SameHero docs p q) ↔
      ¬Confused docs p q := by
  rw [heroCacheName_eq_iff hsha256, heroKey_eq_iff]
  constructor
  · rintro h (hpq | hqp | hhomonyms)
    · exact hpq.not_sameHero (h (.inr (.inl hpq)))
    · exact hqp.not_sameHero ((h (.inr (.inr hqp))).imp Eq.symm Eq.symm)
    · obtain ⟨htexts, hdifferent⟩ := hhomonyms
      obtain ⟨hidentity, hversion⟩ := h (.inl htexts)
      exact hdifferent.elim (fun hne => hne hidentity) fun hne => hne hversion
  · rintro h (htexts | hpq | hqp)
    · by_contra hdifferent
      exact h (.inr (.inr ⟨htexts, not_and_or.1 hdifferent⟩))
    · exact absurd (.inl hpq) h
    · exact absurd (.inr (.inl hqp)) h

/-- The other documents are positive numbers and, written as zero, the empty object. -/
def numbers : Docs ℕ where
  truthy n := n ≠ 0
  str n := if n = 0 then "{}" else toString n
  isDict n := n = 0

/-- The digests of the texts that name the heroes below. -/
def digests : List (String × String) :=
  [("sha256:abc:1", "182e98de1f211f446132d7b7b5a82b79d3ebb877aa5f98745d7028d465852693"),
    ("sha256:abc:2", "4c5daad1e8e553ed228338baed8e1fa9d3317f5fef55cf055f89cd17ba22160a"),
    ("sha256:a:b:1", "b0201166533bc9703f4e86383364ae373ff47b1df1060c099da3ff960186631f"),
    ("sha256:a:unknown", "b4848056247afe2e4b3d470dc81b1c1db2fd5be530e1ad182f4118475e21ccaa")]

/-- SHA-256 on these texts; any other text has one of its own. -/
def sha256 (text : String) : String :=
  match digests.find? (·.1 = text) with
  | some entry => entry.2
  | none => "digest of " ++ text

theorem sha256_injective : Function.Injective sha256 := by
  have hdigests : ∀ p ∈ digests, ∀ q ∈ digests, p.2 = q.2 → p.1 = q.1 := by decide
  have hdigit : ∀ p ∈ digests, p.2.toList[1]? ≠ some 'i' := by decide
  have hother : ∀ p ∈ digests, ∀ text, p.2 ≠ "digest of " ++ text := by
    intro p hp text heq
    refine hdigit p hp ?_
    rw [heq, String.toList_append]
    rfl
  intro s t heq
  unfold sha256 at heq
  cases hs : digests.find? (·.1 = s) with
  | none =>
    cases ht : digests.find? (·.1 = t) with
    | none =>
      rw [hs, ht] at heq
      exact String.append_right_inj _ |>.1 heq
    | some q =>
      rw [hs, ht] at heq
      exact absurd heq.symm (hother q (List.mem_of_find?_eq_some ht) s)
  | some p =>
    have hp := List.find?_some hs
    cases ht : digests.find? (·.1 = t) with
    | none =>
      rw [hs, ht] at heq
      exact absurd heq (hother p (List.mem_of_find?_eq_some hs) t)
    | some q =>
      have hq := List.find?_some ht
      rw [hs, ht] at heq
      have hsame := hdigests p (List.mem_of_find?_eq_some hs) q (List.mem_of_find?_eq_some ht) heq
      simp only [decide_eq_true_eq] at hp hq
      rw [← hp, ← hq, hsame]

/-- Libraries for which every URL is one of `cdn.example.com`. -/
def cdnLibraries : Libraries where
  urlsplit _ := some ⟨"https", some "cdn.example.com"⟩
  lower := id
  sha256 := sha256
  imageFormat _ := none

theorem cdnLibraries_sha256 : Function.Injective cdnLibraries.sha256 := sha256_injective

def cdnHosts : Hosts where
  heroAllowedHosts := "cdn.example.com"

/-- A locked hero on the CDN. -/
def cdnHero (assetId : String) (version : Value ℕ) : Payload ℕ where
  heroImageUrl := .text "https://cdn.example.com/hero.png"
  characterCard := .doc 0
  heroAssetId := .text assetId
  heroVersion := version

theorem cacheName_identifies_iff_twoVersions :
    ¬Confused numbers (cdnHero "sha256:abc" (.doc 1)) (cdnHero "sha256:abc" (.doc 2)) :=
  (cacheName_identifies_iff cdnLibraries_sha256 _ _).1 fun h => absurd h (by decide)

theorem accepted_cdnHero (assetId : String) (version : Value ℕ) :
    Accepted numbers cdnLibraries cdnHosts (cdnHero assetId version) :=
  ⟨_, rfl⟩

/-- The asset `sha256:a` in version `b:1` and the asset `sha256:a:b` in version `1`, and an
asset without a version and in version `unknown`. -/
theorem cacheName_confuses :
    ∃ p q r s : Payload ℕ, (∀ payload ∈ [p, q, r, s],
        Accepted numbers cdnLibraries cdnHosts payload) ∧
      (heroCacheName numbers cdnLibraries p = heroCacheName numbers cdnLibraries q ∧
        identity numbers p ≠ identity numbers q) ∧
      (heroCacheName numbers cdnLibraries r = heroCacheName numbers cdnLibraries s ∧
        r.heroVersion ≠ s.heroVersion) := by
  refine ⟨cdnHero "sha256:a" (.text "b:1"), cdnHero "sha256:a:b" (.text "1"),
    cdnHero "sha256:a" .null, cdnHero "sha256:a" (.text "unknown"), ?_, ⟨?_, ?_⟩, ?_, ?_⟩
  · simp [accepted_cdnHero]
  all_goals decide

end TaskQueue.HeroIdentity
