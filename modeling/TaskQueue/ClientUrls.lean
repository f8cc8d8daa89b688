import TaskQueue.PythonStrings
import TaskQueue.SeparatedLists

/-!
# The address of the API

`TaskQueueClient._api_url` of `clients/python_client.py` compares the end of the whole text.
It cannot tell where the authority ends, and an authority that spells one of the suffixes
is taken for a path.
-/

namespace TaskQueue.ClientUrls
open PythonStrings SeparatedLists

/-- `rstrip("/")`. -/
def rstripSlash (s : String) : String := rstrip (· = '/') s

/-- `_api_url`. -/
def apiUrl (baseUrl : String) : String :=
  let normalized := rstripSlash baseUrl
  if endsWith normalized "/api" || endsWith normalized "/api/queue" then normalized
  else if endsWith normalized "/queue" then removeSuffix normalized "/queue" ++ "/api/queue"
  else normalized ++ "/api"

/-- The `api_url` that `__init__` sets. -/
def clientApiUrl (baseUrl : String) : String := apiUrl (rstripSlash baseUrl)

/-- A text of the form `scheme://authority` with a path behind it. -/
structure BaseUrl where
  scheme : String
  authority : String
  path : String
  authority_plain : '/' ∉ authority.toList
  path_rooted : path = "" ∨ path.toList.head? = some '/'

def BaseUrl.origin (u : BaseUrl) : String := u.scheme ++ "://" ++ u.authority

def BaseUrl.text (u : BaseUrl) : String := u.origin ++ u.path

/-- The path without its trailing slashes. -/
def BaseUrl.trimmed (u : BaseUrl) : String := rstripSlash u.path

def ApiPath (path : String) : Prop :=
  endsWith path "/api" = true ∨ endsWith path "/api/queue" = true

/-- The address is on the server of the base URL, its path is one of the API, and resolving
it again changes nothing. -/
def KeepsServer (u : BaseUrl) (address : String) : Prop :=
  (∃ path, address = u.origin ++ path ∧ (path = "" ∨ path.toList.head? = some '/') ∧
    ApiPath path) ∧ clientApiUrl address = address

/-- The authority, or what there is in its place, is taken for a path. -/
def Swallowed (u : BaseUrl) : Prop :=
  (u.trimmed = "" ∧ (u.authority = "" ∨ u.authority = "api" ∨ u.authority = "queue")) ∨
    (u.trimmed = "/queue" ∧ u.authority = "api")

instance (u : BaseUrl) : Decidable (Swallowed u) := by
  unfold Swallowed
  infer_instance

/-- A last character that is no slash keeps the text from being stripped. -/
theorem rstripSlash_eq_self {s : String} (h : s.toList.getLast? ≠ some '/') :
    rstripSlash s = s := by
  rw [rstripSlash, rstrip, List.rdropWhile_eq_self_iff.2, String.ofList_toList]
  intro hne hlast
  rw [List.getLast?_eq_some_getLast hne] at h
  simp_all

theorem getLast?_of_endsWith {s suffix : String} {c : Char} (h : endsWith s suffix = true)
    (hc : suffix.toList.getLast? = some c) : s.toList.getLast? = some c := by
  obtain ⟨front, rfl⟩ := exists_of_endsWith h
  rw [String.toList_append, List.getLast?_append, hc]
  rfl

/-- `__init__` and `_api_url` both strip the slashes. -/
theorem clientApiUrl_eq {baseUrl normalized : String} (h : rstripSlash baseUrl = normalized) :
    clientApiUrl baseUrl =
      if endsWith normalized "/api" || endsWith normalized "/api/queue" then normalized
      else if endsWith normalized "/queue" then removeSuffix normalized "/queue" ++ "/api/queue"
      else normalized ++ "/api" := by
  have htwice : rstripSlash (rstripSlash baseUrl) = normalized := by
    rw [rstripSlash, rstripSlash, rstrip_rstrip]
    exact h
  rw [clientApiUrl, apiUrl, htwice]

/-- An address of the API is its own address. -/
theorem clientApiUrl_of_apiPath {address : String} (h : ApiPath address) :
    clientApiUrl address = address := by
  have hlast : address.toList.getLast? ≠ some '/' := by
    rcases h with h | h
    · rw [getLast?_of_endsWith (c := 'i') h (by decide)]
      decide
    · rw [getLast?_of_endsWith (c := 'e') h (by decide)]
      decide
  have hends : (endsWith address "/api" || endsWith address "/api/queue") = true := by
    rw [Bool.or_eq_true]
    exact h
  rw [clientApiUrl_eq (rstripSlash_eq_self hlast), if_pos hends]

variable {u : BaseUrl}

theorem origin_toList : u.origin.toList =
    (u.scheme.toList ++ [':', '/']) ++ '/' :: u.authority.toList := by
  simp [BaseUrl.origin, String.toList_append]

/-- Without a path only the authority itself can spell a suffix. -/
theorem endsWith_origin_iff {w : String} (hw : '/' ∉ w.toList) :
    endsWith u.origin ("/" ++ w) = true ↔ u.authority = w := by
  rw [endsWith_iff, origin_toList, String.toList_append]
  exact (cons_suffix_last_iff hw u.authority_plain).trans
    ⟨fun h => String.toList_injective h.symm, fun h => h ▸ rfl⟩

theorem trimmed_cons (h : u.trimmed ≠ "") : ∃ rest, u.trimmed.toList = '/' :: rest := by
  have hprefix : u.trimmed.toList <+: u.path.toList := by
    simpa [BaseUrl.trimmed, rstripSlash, rstrip] using List.rdropWhile_prefix _ u.path.toList
  obtain ⟨rest, hrest⟩ := hprefix
  cases htrimmed : u.trimmed.toList with
  | nil => exact absurd (String.toList_injective (by simp [htrimmed])) h
  | cons c l =>
    rw [htrimmed] at hrest
    rcases u.path_rooted with hpath | hpath
    · simp [hpath] at hrest
    · rw [← hrest] at hpath
      simp only [List.cons_append, List.head?_cons, Option.some.injEq] at hpath
      exact ⟨l, by rw [hpath]⟩

/-- With a path a suffix of one segment lies in the path. -/
theorem endsWith_path_iff {w : String} (hw : '/' ∉ w.toList) (h : u.trimmed ≠ "") :
    endsWith (u.origin ++ u.trimmed) ("/" ++ w) = true ↔
      endsWith u.trimmed ("/" ++ w) = true := by
  obtain ⟨rest, hrest⟩ := trimmed_cons h
  rw [endsWith_iff, endsWith_iff, String.toList_append, String.toList_append, hrest]
  exact cons_suffix_append_cons_iff hw

/-- A suffix of two segments may take the authority for the first. -/
theorem endsWith_apiQueue_iff (h : u.trimmed ≠ "") :
    endsWith (u.origin ++ u.trimmed) "/api/queue" = true ↔
      endsWith u.trimmed "/api/queue" = true ∨ (u.trimmed = "/queue" ∧ u.authority = "api") := by
  obtain ⟨rest, hrest⟩ := trimmed_cons h
  have hqueue : u.trimmed = "/queue" ↔ "queue".toList = rest := by
    rw [← String.toList_inj, hrest]
    simp [eq_comm]
  have happi : "/api".toList <:+ u.origin.toList ↔ u.authority = "api" := by
    rw [← endsWith_iff]
    exact endsWith_origin_iff (w := "api") (by decide)
  have hcut : ∀ v : List Char, v ≠ [] → ("/api/queue".toList = v ++ u.trimmed.toList ↔
      "/api".toList = v ∧ u.trimmed = "/queue") := by
    intro v hv
    obtain ⟨c, v, rfl⟩ := List.exists_cons_of_ne_nil hv
    have hsplit : "/api/queue".toList = "/api".toList ++ '/' :: "queue".toList := by decide
    rw [hsplit, hrest, hqueue, append_cons_eq_iff]
    constructor
    · rintro (hparts | ⟨w, hw, -⟩ | ⟨w, -, hw⟩)
      · exact hparts
      · have hcons : '/' :: "api".toList = c :: (v ++ '/' :: w) := hw
        have hmem : '/' ∈ "api".toList := by
          rw [(List.cons.inj hcons).2]
          simp
        exact absurd hmem (by decide)
      · have hmem : '/' ∈ "queue".toList := by
          rw [hw]
          simp
        exact absurd hmem (by decide)
    · exact .inl
  rw [endsWith_iff, endsWith_iff, String.toList_append, suffix_append_iff]
  refine or_congr_right ?_
  constructor
  · rintro ⟨v, hv, hsuffix, hjoin⟩
    obtain ⟨rfl, hpath⟩ := (hcut v hv).1 hjoin
    exact ⟨hpath, happi.1 hsuffix⟩
  · rintro ⟨hpath, hauthority⟩
    exact ⟨_, by decide, happi.2 hauthority, (hcut _ (by decide)).2 ⟨rfl, hpath⟩⟩

theorem rstripSlash_text : rstripSlash u.text =
    if u.trimmed = "" then rstripSlash u.origin else u.origin ++ u.trimmed :=
  rstrip_append _ u.origin u.path

theorem rstripSlash_origin (h : u.authority ≠ "") : rstripSlash u.origin = u.origin := by
  have hne : u.authority.toList ≠ [] := by simpa using h
  have hlast : u.origin.toList.getLast? = some (u.authority.toList.getLast hne) := by
    rw [origin_toList, List.getLast?_append, List.getLast?_cons, List.getLast?_eq_some_getLast hne]
    rfl
  refine rstripSlash_eq_self fun hslash => u.authority_plain ?_
  rw [hlast, Option.some.injEq] at hslash
  exact hslash ▸ List.getLast_mem hne

theorem rstripSlash_origin_of_nothing (h : u.authority = "") :
    rstripSlash u.origin = u.scheme ++ ":" := by
  have horigin : u.origin = (u.scheme ++ ":") ++ "//" := by
    rw [BaseUrl.origin, h]
    exact String.toList_injective (by simp)
  have hslashes : rstrip (· = '/') "//" = "" := by decide
  rw [rstripSlash, horigin, rstrip_append, if_pos hslashes]
  exact rstripSlash_eq_self (by simp)

theorem ApiPath.append {path : String} (more : String) (h : ApiPath path) : ApiPath (more ++ path) :=
  h.imp (endsWith_append more) (endsWith_append more)

/-- On the right server everything hangs on the path. -/
theorem keepsServer_origin_append_iff {path : String} : KeepsServer u (u.origin ++ path) ↔
    (path = "" ∨ path.toList.head? = some '/') ∧ ApiPath path := by
  constructor
  · rintro ⟨⟨path', hpath, hrooted, hends⟩, -⟩
    obtain rfl : path = path' := (String.append_right_inj u.origin).1 hpath
    exact ⟨hrooted, hends⟩
  · rintro ⟨hrooted, hends⟩
    exact ⟨⟨path, rfl, hrooted, hends⟩, clientApiUrl_of_apiPath (hends.append u.origin)⟩

theorem apiPath_api (front : String) : ApiPath (front ++ "/api") :=
  .inl (endsWith_append_self front "/api")

theorem apiPath_apiQueue (front : String) : ApiPath (front ++ "/api/queue") :=
  .inr (endsWith_append_self front "/api/queue")

/-- A path that starts with a slash goes on doing so with another end. -/
theorem rooted_append {front w w' : String} (hw' : w'.toList.head? = some '/')
    (h : (front ++ w).toList.head? = some '/') : (front ++ w').toList.head? = some '/' := by
  rw [String.toList_append] at h ⊢
  cases hfront : front.toList with
  | nil => simpa [hfront] using hw'
  | cons c l => simpa [hfront] using h

/-- With a path the server is lost only to the authority `api`. -/
theorem keepsServer_of_path (h : u.trimmed ≠ "") : KeepsServer u (clientApiUrl u.text) ↔
    ¬(u.trimmed = "/queue" ∧ u.authority = "api") := by
  have hnormalized : rstripSlash u.text = u.origin ++ u.trimmed := by
    rw [rstripSlash_text, if_neg h]
  have hrooted : u.trimmed.toList.head? = some '/' := by
    obtain ⟨rest, hrest⟩ := trimmed_cons h
    rw [hrest]
    rfl
  have happi : endsWith (u.origin ++ u.trimmed) "/api" = endsWith u.trimmed "/api" :=
    Bool.eq_iff_iff.2 (endsWith_path_iff (w := "api") (by decide) h)
  have hqueue : endsWith (u.origin ++ u.trimmed) "/queue" = endsWith u.trimmed "/queue" :=
    Bool.eq_iff_iff.2 (endsWith_path_iff (w := "queue") (by decide) h)
  rw [clientApiUrl_eq hnormalized, happi, hqueue]
  by_cases hpath : ApiPath u.trimmed
  · have hnot : u.trimmed ≠ "/queue" := by
      rintro heq
      rw [heq] at hpath
      revert hpath
      unfold ApiPath
      decide
    have hends : (endsWith u.trimmed "/api" ||
        endsWith (u.origin ++ u.trimmed) "/api/queue") = true := by
      rw [Bool.or_eq_true, endsWith_apiQueue_iff h]
      exact hpath.imp_right .inl
    rw [if_pos hends, keepsServer_origin_append_iff]
    exact iff_of_true ⟨.inr hrooted, hpath⟩ fun hswallowed => hnot hswallowed.1
  · by_cases hswallowed : u.trimmed = "/queue" ∧ u.authority = "api"
    · have hends : (endsWith u.trimmed "/api" ||
          endsWith (u.origin ++ u.trimmed) "/api/queue") = true := by
        rw [Bool.or_eq_true, endsWith_apiQueue_iff h]
        exact .inr (.inr hswallowed)
      rw [if_pos hends, keepsServer_origin_append_iff]
      exact iff_of_false (fun hkeeps => hpath hkeeps.2) (not_not.2 hswallowed)
    · have hends : ¬(endsWith u.trimmed "/api" ||
          endsWith (u.origin ++ u.trimmed) "/api/queue") = true := by
        rw [Bool.or_eq_true, endsWith_apiQueue_iff h]
        rintro (hapi | hapi | hboth)
        · exact hpath (.inl hapi)
        · exact hpath (.inr hapi)
        · exact hswallowed hboth
      rw [if_neg hends]
      refine iff_of_true ?_ hswallowed
      by_cases hq : endsWith u.trimmed "/queue" = true
      · obtain ⟨front, hfront⟩ := exists_of_endsWith hq
        rw [if_pos hq, hfront, ← String.append_assoc, removeSuffix_append, String.append_assoc,
          keepsServer_origin_append_iff]
        exact ⟨.inr (rooted_append (by decide) (hfront ▸ hrooted)), apiPath_apiQueue front⟩
      · rw [if_neg hq, String.append_assoc, keepsServer_origin_append_iff]
        have hempty : (u.trimmed ++ "").toList.head? = some '/' := by simpa using hrooted
        exact ⟨.inr (rooted_append (by decide) hempty), apiPath_api u.trimmed⟩

theorem endsWith_origin_apiQueue : endsWith u.origin "/api/queue" = false := by
  rw [Bool.eq_false_iff]
  intro h
  obtain ⟨front, hfront⟩ := endsWith_iff.1 h
  have hcut : (front ++ "/api".toList) ++ '/' :: "queue".toList =
      (u.scheme.toList ++ [':', '/']) ++ '/' :: u.authority.toList := by
    rw [← origin_toList, ← hfront, List.append_assoc]
    rfl
  have hbefore := congrArg List.getLast? ((last_unique (by decide) u.authority_plain).1 hcut).1
  -- what is in front of the segment `api` would end with a letter and with a slash
  simp [List.getLast?_append] at hbefore

theorem not_keepsServer_queue (h : u.authority = "queue") :
    ¬KeepsServer u (removeSuffix u.origin "/queue" ++ "/api/queue") := by
  have horigin : u.origin = (u.scheme ++ ":/") ++ "/queue" := by
    rw [BaseUrl.origin, h, String.append_assoc, String.append_assoc]
    rfl
  rintro ⟨⟨path, hpath, -⟩, -⟩
  rw [horigin, removeSuffix_append] at hpath
  simp only [String.append_assoc, String.append_right_inj] at hpath
  have hlist := congrArg String.toList hpath
  simp at hlist

/-- Without a path it is lost to an authority that spells a suffix. -/
theorem keepsServer_of_authority (h : u.trimmed = "") (hauthority : u.authority ≠ "") :
    KeepsServer u (clientApiUrl u.text) ↔ ¬(u.authority = "api" ∨ u.authority = "queue") := by
  have hnormalized : rstripSlash u.text = u.origin := by
    rw [rstripSlash_text, if_pos h, rstripSlash_origin hauthority]
  have happi : endsWith u.origin "/api" = true ↔ u.authority = "api" :=
    endsWith_origin_iff (w := "api") (by decide)
  have hqueue : endsWith u.origin "/queue" = true ↔ u.authority = "queue" :=
    endsWith_origin_iff (w := "queue") (by decide)
  rw [clientApiUrl_eq hnormalized, endsWith_origin_apiQueue, Bool.or_false]
  by_cases hisApi : u.authority = "api"
  · rw [if_pos (happi.2 hisApi)]
    have hnone : KeepsServer u (u.origin ++ "") ↔ _ := keepsServer_origin_append_iff
    rw [String.append_empty] at hnone
    refine iff_of_false (fun hkeeps => ?_) (not_not.2 (.inl hisApi))
    have hends : ApiPath "" := (hnone.1 hkeeps).2
    revert hends
    unfold ApiPath
    decide
  · rw [if_neg (happi.not.2 hisApi)]
    by_cases hisQueue : u.authority = "queue"
    · rw [if_pos (hqueue.2 hisQueue)]
      refine iff_of_false (fun hkeeps => ?_) (not_not.2 (.inr hisQueue))
      exact not_keepsServer_queue hisQueue hkeeps
    · rw [if_neg (hqueue.not.2 hisQueue), keepsServer_origin_append_iff]
      refine iff_of_true ⟨.inr (by decide), ?_⟩ (not_or.2 ⟨hisApi, hisQueue⟩)
      exact .inl (by decide)

/-- Where there is neither, even the slashes of the scheme are stripped. -/
theorem not_keepsServer_of_nothing (h : u.trimmed = "") (hauthority : u.authority = "") :
    ¬KeepsServer u (clientApiUrl u.text) := by
  have hnormalized : rstripSlash u.text = u.scheme ++ ":" := by
    rw [rstripSlash_text, if_pos h, rstripSlash_origin_of_nothing hauthority]
  have hends : ∀ w : String, w.toList.getLast? ≠ none → w.toList.getLast? ≠ some ':' →
      endsWith (u.scheme ++ ":") w = false := by
    intro w hsome hcolon
    rw [Bool.eq_false_iff]
    intro hw
    obtain ⟨c, hc⟩ := Option.ne_none_iff_exists'.1 hsome
    have hlast := getLast?_of_endsWith hw hc
    rw [String.toList_append, List.getLast?_append] at hlast
    rw [hc] at hcolon
    exact hcolon hlast.symm
  rw [clientApiUrl_eq hnormalized, hends "/api" (by decide) (by decide),
    hends "/api/queue" (by decide) (by decide), hends "/queue" (by decide) (by decide)]
  rintro ⟨⟨path, hpath, -⟩, -⟩
  rw [BaseUrl.origin] at hpath
  simp only [Bool.or_false, Bool.false_eq_true, if_false, String.append_assoc,
    String.append_right_inj] at hpath
  have hlist := congrArg String.toList hpath
  simp at hlist

/-- The address of the API stays on the server of the base URL exactly if no authority is
taken for a path. -/
theorem keepsServer_iff (u : BaseUrl) :
    KeepsServer u (clientApiUrl u.text) ↔ ¬Swallowed u := by
  by_cases h : u.trimmed = ""
  · by_cases hauthority : u.authority = ""
    · refine iff_of_false (not_keepsServer_of_nothing h hauthority) (not_not.2 ?_)
      exact .inl ⟨h, .inl hauthority⟩
    · rw [keepsServer_of_authority h hauthority]
      simp [Swallowed, h, hauthority]
  · rw [keepsServer_of_path h]
    simp [Swallowed, h]

/-- A service on a host of its own. -/
def queueHost : BaseUrl where
  scheme := "http"
  authority := "queue"
  path := ""
  authority_plain := by decide
  path_rooted := .inl rfl

/-- The key of `http://queue` goes to the host `api`. -/
theorem server_lost :
    clientApiUrl queueHost.text = "http://api/queue" ∧
      ¬KeepsServer queueHost (clientApiUrl queueHost.text) :=
  ⟨by decide +kernel, not_keepsServer_queue rfl⟩

end TaskQueue.ClientUrls
