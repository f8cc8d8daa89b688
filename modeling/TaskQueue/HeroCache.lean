import TaskQueue.PythonStrings
import Mathlib.Tactic.SplitIfs

/-!
# The cache of remote heroes

`_resolve_remote_hero` of `workers/image_worker.py` with what it calls: the name in the
cache directory, the check of the URL, the response and the downloaded bytes. What
`urllib.parse`, `hashlib` and Pillow say is an argument.
-/

namespace TaskQueue.HeroCache
open PythonStrings

abbrev Bytes := List UInt8

/-- A JSON value of a payload; an absent key reads as null. -/
inductive Value (Doc : Type)
  | null
  | text (s : String)
  | doc (d : Doc)
  deriving DecidableEq

/-- `bool`, `str` and `isinstance(…, dict)` of the other documents. -/
structure Docs (Doc : Type) where
  truthy : Doc → Bool
  str : Doc → String
  isDict : Doc → Bool

/-- The fields of a task payload that name the hero. -/
structure Payload (Doc : Type) where
  heroImageUrl : Value Doc := .null
  characterCard : Value Doc := .null
  heroAssetId : Value Doc := .null
  heroVersion : Value Doc := .null

/-- `urlsplit(url)`. -/
structure SplitUrl where
  scheme : String
  hostname : Option String

/-- The libraries: `urlsplit`, none for its `ValueError`; `str.lower`; the hex digest of
SHA-256; the format of an image that Pillow opens and verifies. -/
structure Libraries where
  urlsplit : String → Option SplitUrl
  lower : String → String
  sha256 : String → String
  imageFormat : Bytes → Option String

/-- `SUPABASE_URL` and `HERO_ALLOWED_HOSTS`. -/
structure Hosts where
  supabaseUrl : Option String := none
  heroAllowedHosts : String := ""

/-- The exceptions of the module itself, and those of its libraries. -/
inductive HeroError
  | valueError (message : String)
  | raised
  deriving DecidableEq

/-- `MAX_HERO_BYTES`. -/
def maxHeroBytes : ℕ := 20 * 1024 * 1024

/-- `_HERO_IMAGE_FORMATS`. -/
def heroImageFormats : List String := ["PNG", "JPEG", "WEBP"]

section Payloads
variable {Doc : Type} (docs : Docs Doc)

def Value.truthy : Value Doc → Bool
  | .null => false
  | .text s => s ≠ ""
  | .doc d => docs.truthy d

def Value.str : Value Doc → String
  | .null => "None"
  | .text s => s
  | .doc d => docs.str d

def Value.isDict : Value Doc → Bool
  | .doc d => docs.isDict d
  | _ => false

def Value.isNone : Value Doc → Bool
  | .null => true
  | _ => false

/-- `v or w`. -/
def Value.orElse (v w : Value Doc) : Value Doc := if v.truthy docs then v else w

/-- `payload.get("hero_asset_id") or payload["hero_image_url"]`. -/
def identity (payload : Payload Doc) : Value Doc :=
  payload.heroAssetId.orElse docs payload.heroImageUrl

/-- `payload.get("hero_version") or "unknown"`. -/
def version (payload : Payload Doc) : Value Doc :=
  payload.heroVersion.orElse docs (.text "unknown")

/-- The text that `_hero_cache_path` hashes. -/
def heroKey (payload : Payload Doc) : String :=
  (identity docs payload).str docs ++ ":" ++ (version docs payload).str docs

/-- The name of `_hero_cache_path` in `HERO_CACHE_DIR`. -/
def heroCacheName (lib : Libraries) (payload : Payload Doc) : String :=
  lib.sha256 (heroKey docs payload) ++ ".png"

end Payloads

section Urls
variable (lib : Libraries) (hosts : Hosts)

/-- `_allowed_hero_hosts`. -/
def allowedHeroHosts : Except HeroError (List String) :=
  let listed := ((split hosts.heroAllowedHosts ',').filter (strip · ≠ "")).map
    fun host => lib.lower (strip host)
  match hosts.supabaseUrl.filter (· ≠ "") with
  | none => .ok listed
  | some url =>
    match lib.urlsplit url with
    | none => .error .raised
    | some parts =>
      match parts.hostname.filter (· ≠ "") with
      | none => .ok listed
      | some host => .ok (lib.lower host :: listed)

/-- `repr` of text without quotes and backslashes. -/
def quoted (s : String) : String := "'" ++ s ++ "'"

/-- `_check_hero_url`. -/
def checkHeroUrl (url : String) : Except HeroError Unit :=
  match lib.urlsplit url with
  | none => .error .raised
  | some parts =>
    if parts.scheme ≠ "https" then
      .error (.valueError
        ("remote hero image must be fetched over https, got " ++ quoted parts.scheme))
    else
      let host := lib.lower (parts.hostname.getD "")
      match allowedHeroHosts lib hosts with
      | .error e => .error e
      | .ok allowed =>
        if host ∈ allowed then .ok ()
        else .error (.valueError
          ("remote hero host " ++ quoted host ++ " is not an allowed hero host " ++
            "(the worker's SUPABASE_URL host or HERO_ALLOWED_HOSTS)"))

/-- The checks of `_resolve_remote_hero`: the URL, or none without a remote hero. A URL that
is no text does not come through `urlsplit`. -/
def remoteHero {Doc : Type} (docs : Docs Doc) (payload : Payload Doc) :
    Except HeroError (Option String) :=
  if !payload.heroImageUrl.truthy docs && payload.characterCard.isNone then .ok none
  else if !payload.heroImageUrl.truthy docs || !payload.characterCard.isDict docs then
    .error (.valueError "remote character requires hero_image_url and character_card")
  else
    match payload.heroImageUrl with
    | .text url => (checkHeroUrl lib hosts url).map fun _ => some url
    | _ => .error .raised

end Urls

section Download

structure Response where
  status : ℕ
  contentLength : Option String

def tooBig : HeroError := .valueError s!"remote hero image exceeds {maxHeroBytes} bytes"

/-- The digits that `isdigit` knows and `int` does not, as first and last of a block. -/
def digitsOnly : List (ℕ × ℕ) :=
  [(0xb2, 0xb3), (0xb9, 0xb9), (0x1369, 0x1371), (0x19da, 0x19da), (0x2070, 0x2070),
   (0x2074, 0x2079), (0x2080, 0x2089), (0x2460, 0x2468), (0x2474, 0x247c), (0x2488, 0x2490),
   (0x24ea, 0x24ea), (0x24f5, 0x24fd), (0x24ff, 0x24ff), (0x2776, 0x277e), (0x2780, 0x2788),
   (0x278a, 0x2792), (0x10a40, 0x10a43), (0x10e60, 0x10e68), (0x11052, 0x1105a),
   (0x1f100, 0x1f10a)]

def isDigit (c : Char) : Bool :=
  (decimal c).isSome || digitsOnly.any fun block => block.1 ≤ c.toNat && c.toNat ≤ block.2

/-- `int(s)` of text that `isdigit` accepts; more than 4300 digits are refused as well. -/
def intOfDigits (s : String) : Option ℕ :=
  if s.toList.length > 4300 then none
  else s.toList.foldl (fun value c => value.bind fun n => (decimal c).map (10 * n + ·)) (some 0)

/-- The checks of `_download_hero` before the first chunk. -/
def checkResponse (response : Response) : Except HeroError Unit :=
  if ¬(200 ≤ response.status ∧ response.status < 300) then .error .raised
  else
    match response.contentLength.filter fun s => s ≠ "" ∧ s.toList.all isDigit with
    | none => .ok ()
    | some declared =>
      match intOfDigits declared with
      | none => .error .raised
      | some n => if n > maxHeroBytes then .error tooBig else .ok ()

/-- The checks of `_download_hero` after the last chunk. -/
def checkContent (lib : Libraries) (content : Bytes) : Except HeroError Unit :=
  if content = [] then .error (.valueError "remote hero image is empty")
  else
    match lib.imageFormat content with
    | none => .error (.valueError "remote hero image is not a PNG, JPEG or WebP image")
    | some format =>
      if format ∈ heroImageFormats then .ok ()
      else .error (.valueError
        ("remote hero image is not a PNG, JPEG or WebP image (got " ++ format ++ ")"))

end Download

/-- The name of the file that is renamed into the cache. -/
def temporaryName (name uuid : String) : String := "." ++ name ++ "." ++ uuid ++ ".tmp"

theorem remoteHero_eq_some {Doc : Type} {lib : Libraries} {hosts : Hosts} {docs : Docs Doc}
    {payload : Payload Doc} {url : String} (h : remoteHero lib hosts docs payload = .ok (some url)) :
    payload.heroImageUrl = .text url ∧ checkHeroUrl lib hosts url = .ok () := by
  unfold remoteHero at h
  split_ifs at h
  · simp at h
  · cases hurl : payload.heroImageUrl with
    | null | doc d => simp [hurl] at h
    | text text =>
      cases hcheck : checkHeroUrl lib hosts text with
      | error e => simp [hurl, hcheck, Except.map] at h
      | ok u =>
        obtain rfl : text = url := by simpa [hurl, hcheck, Except.map] using h
        exact ⟨rfl, hcheck⟩

theorem checkContent_ok_iff {lib : Libraries} {content : Bytes} :
    checkContent lib content = .ok () ↔
      content ≠ [] ∧ ∃ format ∈ heroImageFormats, lib.imageFormat content = some format := by
  unfold checkContent
  by_cases hempty : content = []
  · simp [hempty]
  · cases hformat : lib.imageFormat content with
    | none => simp [hempty]
    | some format => by_cases hknown : format ∈ heroImageFormats <;> simp [hempty, hknown]

end TaskQueue.HeroCache
