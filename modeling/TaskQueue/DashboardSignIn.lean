import TaskQueue.DashboardRefresh

/-!
# The sign-in of the dashboard

`initializeAuth`, `verifyAdminSession` and `signOutEverywhere` of `app/admin_ui/admin.js` with the
elements that they write, and the browser around them: the session that the auth client keeps
from one page load to the next, and the login page of the parent site, which forwards a
signed-in browser back. The page shows the dashboard to nobody whom the API has not let in, and
the two pages do not bounce the browser between them.
-/

namespace TaskQueue.DashboardSignIn
open JavaScript Dashboard StepRuns

/-- A session as the auth client stores it. -/
structure Session where
  accessToken : String
  nonempty : accessToken ≠ ""
  deriving DecidableEq

/-- The elements around the dashboard, as the page is loaded by default. -/
structure Gate where
  authShellHidden : Bool := false
  skipLinkHidden : Bool := true
  accountHidden : Bool := true
  accountEmail : JsString := []
  authMessage : JsString := units "Checking your session…"
  isError : Bool := false
  authActionsHidden : Bool := true

/-- The `await` at which `initializeAuth` stands; `over` once it has returned. -/
inductive Waiting
  | config
  | session
  | me
  | localSignOut
  | over
  deriving DecidableEq

/-- `LOGIN_URL`, which names the dashboard as the page to go on to, or `/login`. -/
inductive Destination
  | loginAndBack
  | login
  deriving DecidableEq

/-- The answer to `auth/config`: `enabled` is none where the body is no JSON, or null. -/
inductive ConfigReply
  | networkFailure
  | answer (status : ℕ) (enabled : Option Bool)

inductive MeBody
  | unreadable
  | null
  | user (email : JsString)
  deriving DecidableEq

inductive MeReply
  | networkFailure
  | answer (status : ℕ) (body : MeBody)

/-- How the local sign-out ends. It may return without having removed the session. -/
inductive SignOut
  | raised
  | kept
  | removed

/-- What `initializeAuth` hears. `createsClient` says that the auth client is there and can be
made; a session is none inside if there is none, and none outside if `getSession` fails. -/
inductive Heard
  | config (reply : ConfigReply) (createsClient : Bool)
  | session (found : Option (Option Session))
  | me (reply : MeReply)
  | localSignOut (outcome : SignOut)

/-- The page. `heard` is what it has been told since it was loaded, `signedOut` says that the
auth client has told it the end of the session. -/
structure Tab where
  waiting : Waiting := .config
  page : Page := {}
  gate : Gate := {}
  accessToken : Option String := none
  hasClient : Bool := false
  listening : Bool := false
  leaving : Option Destination := none
  heard : List Heard := []
  signedOut : Bool := false

namespace Tab
variable (tab : Tab)

def goToLogin : Tab := { tab with leaving := some .loginAndBack }

/-- `showMessage` with `resetDashboard`. -/
def showMessage (message : String) (actions : Bool := true) : Tab :=
  { tab with
    accessToken := none
    page := Dashboard.showMessage tab.page
    gate := { tab.gate with
      skipLinkHidden := true
      accountHidden := true
      authShellHidden := false
      authMessage := units message
      isError := actions
      authActionsHidden := !actions } }

/-- `showDashboard`, for the email of the user if there is one. -/
def showDashboard (user : Option JsString) : Tab :=
  { tab with
    page := Dashboard.showDashboard tab.page
    gate := { tab.gate with
      authShellHidden := true
      skipLinkHidden := false
      accountHidden := user.isNone
      accountEmail := user.getD tab.gate.accountEmail } }

/-- `initializeAuth` returns early, or its handler has shown a message. -/
def finish : Tab := { tab with waiting := .over }

/-- `verifyAdminSession` has returned, and `initializeAuth` registers its listener, which is
taken not to fail. -/
def listen : Tab := { tab with waiting := .over, listening := true }

/-- The handler of `initializeAuth`. -/
def fail : Tab :=
  (tab.showMessage "Sign-in could not be initialized. Please reload in a moment." false).finish

/-- The handler of `verifyAdminSession`. -/
def unavailable : Tab :=
  (tab.showMessage "The identity service is unavailable. Please reload in a moment.").listen

/-- `initializeAuth` from the answer to `auth/config` on. -/
def hearConfig (createsClient : Bool) : ConfigReply → Tab
  | .networkFailure => tab.fail
  | .answer status enabled =>
    if !isOk status then tab.fail
    else match enabled with
      | none => tab.fail
      | some false => (tab.showDashboard none).finish
      | some true =>
        if createsClient then { tab with hasClient := true, waiting := .session } else tab.fail

/-- `verifyAdminSession` up to its `fetch`. -/
def hearSession : Option (Option Session) → Tab
  | none => tab.fail
  | some none => tab.goToLogin.listen
  | some (some session) => { tab with accessToken := some session.accessToken, waiting := .me }

/-- `verifyAdminSession` from the answer to `auth/me` on. -/
def hearMe : MeReply → Tab
  | .networkFailure => tab.unavailable
  | .answer status body =>
    if status = 403 then
      (tab.showMessage "This account does not have Task Queue admin access.").listen
    else if status = 401 then { tab with waiting := .localSignOut }
    else if !isOk status then
      (tab.showMessage
        "Your access could not be checked right now. Please reload in a moment.").listen
    else match body with
      | .unreadable => tab.unavailable
      | .null => (tab.showDashboard none).listen
      | .user email => (tab.showDashboard (some email)).listen

/-- `verifyAdminSession` from the end of the local sign-out on. -/
def hearSignOut : SignOut → Tab
  | .raised => tab.unavailable
  | .kept | .removed => tab.goToLogin.listen

def told (heard : Heard) : Tab := { tab with heard := tab.heard ++ [heard] }

/-- The page hears what it waits for. -/
def hear (heard : Heard) : Option Tab :=
  match heard with
  | .config reply createsClient =>
    if tab.waiting = .config then some ((tab.told heard).hearConfig createsClient reply) else none
  | .session found =>
    if tab.waiting = .session then some ((tab.told heard).hearSession found) else none
  | .me reply => if tab.waiting = .me then some ((tab.told heard).hearMe reply) else none
  | .localSignOut outcome =>
    if tab.waiting = .localSignOut then some ((tab.told heard).hearSignOut outcome) else none

/-- The listener, for `TOKEN_REFRESHED`. -/
def tokenRefreshed (session : Session) : Tab :=
  if tab.listening then { tab with accessToken := some session.accessToken } else tab

/-- The listener, for `SIGNED_OUT`. -/
def sessionEnded : Tab :=
  if tab.listening then { tab.goToLogin with signedOut := true } else tab

end Tab

/-- The page that the browser shows. At the login page, whether that knows the way back. -/
inductive Place
  | dashboard (tab : Tab)
  | login (back : Bool)

/-- A browser with the session that its auth client stores. -/
structure Visit where
  session : Option Session
  place : Place

/-- What happens to the browser. `sessionEnds` and `signIn` may come from other tabs as well,
`openDashboard` also loads the page anew. -/
inductive Label
  | hear (heard : Heard)
  | page (event : Event)
  | tokenRefreshed (session : Session)
  | sessionEnds
  | signOutEverywhere (removed : Bool)
  | unload
  | forward
  | signIn (session : Session)
  | openDashboard

/-- What is left of the session when the page hears something. -/
def sessionAfter (session : Option Session) : Heard → Option Session
  | .localSignOut .removed => none
  | _ => session

/-- `getSession` finds the stored session, if it does not fail. -/
def fits (session : Option Session) : Heard → Bool
  | .session (some found) => found = session
  | _ => true

/-- The events that do not come from the sign-in itself. -/
def pageStep (js : Browser) (page : Page) : Event → Option Page
  | .showMessage | .showDashboard => none
  | event => Dashboard.step js page event

section Steps
variable (js : Browser) (v : Visit)

/-- A step of the page. -/
def tabStep (tab : Tab) : Label → Option Visit
  | .hear heard =>
    if fits v.session heard then
      (tab.hear heard).map fun tab => ⟨sessionAfter v.session heard, .dashboard tab⟩
    else none
  | .page event => (pageStep js tab.page event).map fun page =>
      ⟨v.session, .dashboard { tab with page := page }⟩
  | .tokenRefreshed session =>
    if v.session.isSome then some ⟨some session, .dashboard (tab.tokenRefreshed session)⟩
    else none
  | .sessionEnds => some ⟨none, .dashboard tab.sessionEnded⟩
  -- either button, if it can be seen
  | .signOutEverywhere removed =>
    if (!tab.gate.accountHidden || !tab.gate.authActionsHidden) && (tab.hasClient || !removed) then
      some ⟨if removed then none else v.session,
        .dashboard { tab with leaving := some .login }⟩
    else none
  | .unload => tab.leaving.map fun destination =>
      ⟨v.session, .login (destination = .loginAndBack)⟩
  | .signIn session => some ⟨some session, .dashboard tab⟩
  | .openDashboard => some ⟨v.session, .dashboard {}⟩
  | .forward => none

/-- A step at the login page. -/
def loginStep (back : Bool) : Label → Option Visit
  | .sessionEnds => some ⟨none, .login back⟩
  | .forward => if back && v.session.isSome then some ⟨v.session, .dashboard {}⟩ else none
  | .signIn session => some ⟨some session, .login back⟩
  | .openDashboard => some ⟨v.session, .dashboard {}⟩
  | _ => none

def step (l : Label) : Option Visit :=
  match v.place with
  | .dashboard tab => tabStep js v tab l
  | .login back => loginStep v back l

end Steps

/-- The dashboard is opened. -/
def start (session : Option Session) : Visit := ⟨session, .dashboard {}⟩

/-- The API has let the browser in, or asks nobody to sign in. -/
def Heard.allows : Heard → Bool
  | .config (.answer status (some false)) _ => isOk status
  | .me (.answer status body) => isOk status && body ≠ .unreadable
  | _ => false

/-- There is no session, or the API has rejected it. -/
def Heard.rejects : Heard → Bool
  | .session (some none) => true
  | .me (.answer status _) => status = 401
  | _ => false

/-- How many answers `initializeAuth` still waits for at most. -/
def Waiting.rank : Waiting → ℕ
  | .config => 4
  | .session => 3
  | .me => 2
  | .localSignOut => 1
  | .over => 0

/-- What the page shows and does agrees with what it has been told. -/
structure Gated (tab : Tab) : Prop where
  /-- The dashboard is shown exactly to those whom the API lets in. -/
  shown : tab.page.mainHidden = false ↔ tab.heard.any Heard.allows = true
  shell : tab.gate.authShellHidden = !tab.page.mainHidden ∧
    tab.gate.skipLinkHidden = tab.page.mainHidden
  /-- As long as it is hidden, nothing has been asked of the queue. -/
  silent : tab.page.mainHidden = true → tab.page.workersLoad = .none ∧
    tab.page.tasksLoad = .none ∧ tab.page.workers.data = none ∧ tab.page.tasks.data = none
  starting : tab.waiting ≠ .over → tab.page.mainHidden = true ∧ tab.leaving = none ∧
    tab.gate = {} ∧ tab.listening = false
  /-- In the end there is the dashboard, or the page is left, or a message says why not. -/
  settled : tab.waiting = .over → tab.page.mainHidden = false ∨ tab.leaving ≠ none ∨
    tab.gate.authMessage ≠ units "Checking your session…"
  rejected : tab.waiting = .localSignOut → tab.heard.any Heard.rejects = true
  login : tab.leaving = some .loginAndBack →
    tab.heard.any Heard.rejects = true ∨ tab.signedOut = true
  few : tab.heard.length + tab.waiting.rank ≤ 4

section Pages
variable {js : Browser} {page page' : Page}

theorem resume_mainHidden (now : Int) (page : Page) :
    (resume js now page).mainHidden = page.mainHidden := by
  unfold resume
  split
  · split
    · rfl
    · rfl
    · simp only [finishRefresh, setConnectionState, updateAttention, updateMetrics]
      split_ifs <;> rfl
    · rfl
  · rfl

theorem refresh_mainHidden (page : Page) : (refresh page).mainHidden = page.mainHidden := by
  unfold refresh
  split <;> rfl

theorem showDashboard_mainHidden (page : Page) : (showDashboard page).mainHidden = false := by
  unfold showDashboard
  split
  · rfl
  · exact refresh_mainHidden _

/-- No event shows or hides the dashboard. -/
theorem pageStep_mainHidden {event : Event} (h : pageStep js page event = some page') :
    page'.mainHidden = page.mainHidden := by
  cases event with
  | refresh =>
    cases h
    exact refresh_mainHidden page
  | workersReply reply =>
    simp only [pageStep, Dashboard.step] at h
    split_ifs at h with hpending
    cases h
    exact resume_mainHidden _ _
  | tasksReply reply =>
    simp only [pageStep, Dashboard.step] at h
    split_ifs at h with hpending
    cases h
    exact resume_mainHidden _ _
  | showMessage => cases h
  | showDashboard => cases h

/-- Nothing happens to a hidden dashboard that has asked for nothing. -/
theorem pageStep_hidden {event : Event} (h : pageStep js page event = some page')
    (hhidden : page.mainHidden = true) (hworkers : page.workersLoad = .none)
    (htasks : page.tasksLoad = .none) : page' = page := by
  cases event with
  | refresh =>
    cases h
    simp [refresh, hhidden]
  | workersReply reply =>
    simp only [pageStep, Dashboard.step, hworkers, reduceCtorEq, if_false] at h
  | tasksReply reply =>
    simp only [pageStep, Dashboard.step, htasks, reduceCtorEq, if_false] at h
  | showMessage => cases h
  | showDashboard => cases h

end Pages

section Hearing
variable {tab tab' : Tab}

/-- The page as it is until `initializeAuth` has decided. -/
structure Starting (tab : Tab) : Prop where
  hidden : tab.page.mainHidden = true
  silent : tab.page.workersLoad = .none ∧ tab.page.tasksLoad = .none ∧
    tab.page.workers.data = none ∧ tab.page.tasks.data = none
  staying : tab.leaving = none
  gate : tab.gate = {}
  deaf : tab.listening = false

theorem Gated.isStarting (h : Gated tab) (hw : tab.waiting ≠ .over) : Starting tab := by
  obtain ⟨hhidden, hstaying, hgate, hdeaf⟩ := h.starting hw
  exact ⟨hhidden, h.silent hhidden, hstaying, hgate, hdeaf⟩

theorem Gated.not_allowed (h : Gated tab) (hw : tab.waiting ≠ .over) :
    tab.heard.any Heard.allows = false := by
  rw [Bool.eq_false_iff]
  intro hallowed
  have hshown := h.shown.2 hallowed
  rw [(h.starting hw).1] at hshown
  cases hshown

/-- The page goes on to wait. -/
theorem Starting.waits (h : Starting tab) (hno : tab.heard.any Heard.allows = false)
    {waiting : Waiting} (hw : waiting ≠ .over) (hfew : tab.heard.length + waiting.rank ≤ 4)
    (hrejected : waiting = .localSignOut → tab.heard.any Heard.rejects = true)
    (accessToken : Option String) (hasClient : Bool) :
    Gated { tab with waiting := waiting, accessToken := accessToken, hasClient := hasClient } where
  shown := by simp [h.hidden, hno]
  shell := by simp [h.hidden, h.gate]
  silent _ := h.silent
  starting _ := ⟨h.hidden, h.staying, h.gate, h.deaf⟩
  settled hover := absurd hover hw
  rejected := hrejected
  login hleaving := by cases h.staying.symm.trans hleaving
  few := hfew

/-- The page shows a message. -/
theorem Starting.message (h : Starting tab) (hno : tab.heard.any Heard.allows = false)
    (hfew : tab.heard.length ≤ 4) {message : String}
    (hmessage : units message ≠ units "Checking your session…") (actions listening : Bool) :
    Gated { tab.showMessage message actions with waiting := .over, listening := listening } where
  shown := by simp [Tab.showMessage, Dashboard.showMessage, hno]
  shell := by simp [Tab.showMessage, Dashboard.showMessage]
  silent _ := ⟨h.silent.1, h.silent.2.1, rfl, rfl⟩
  starting hover := absurd rfl hover
  settled _ := .inr (.inr hmessage)
  rejected hwaiting := by cases hwaiting
  login hleaving := by cases h.staying.symm.trans hleaving
  few := hfew

/-- The page shows the dashboard. -/
theorem Starting.dashboard (h : Starting tab) (hyes : tab.heard.any Heard.allows = true)
    (hfew : tab.heard.length ≤ 4) (user : Option JsString) (listening : Bool) :
    Gated { tab.showDashboard user with waiting := .over, listening := listening } where
  shown := by simp [Tab.showDashboard, showDashboard_mainHidden, hyes]
  shell := by simp [Tab.showDashboard, showDashboard_mainHidden]
  silent hhidden := by
    have hshown := showDashboard_mainHidden tab.page
    cases hshown.symm.trans hhidden
  starting hover := absurd rfl hover
  settled _ := .inl (showDashboard_mainHidden tab.page)
  rejected hwaiting := by cases hwaiting
  login hleaving := by cases h.staying.symm.trans hleaving
  few := hfew

/-- The page goes to the login page. -/
theorem Starting.login (h : Starting tab) (hno : tab.heard.any Heard.allows = false)
    (hfew : tab.heard.length ≤ 4) (hrejected : tab.heard.any Heard.rejects = true) :
    Gated tab.goToLogin.listen where
  shown := by simp [Tab.goToLogin, Tab.listen, h.hidden, hno]
  shell := by simp [Tab.goToLogin, Tab.listen, h.hidden, h.gate]
  silent _ := h.silent
  starting hover := absurd rfl hover
  settled _ := .inr (.inl (Option.some_ne_none _))
  rejected hwaiting := by cases hwaiting
  login _ := .inl hrejected
  few := hfew

theorem Gated.told (hs : Gated tab) (hw : tab.waiting ≠ .over) (heard : Heard) :
    Starting (tab.told heard) ∧
      (tab.told heard).heard.any Heard.allows = heard.allows ∧
      (tab.told heard).heard.any Heard.rejects = (tab.heard.any Heard.rejects || heard.rejects) ∧
      (tab.told heard).heard.length + tab.waiting.rank ≤ 5 := by
  obtain ⟨hhidden, hsilent, hstaying, hgate, hdeaf⟩ := hs.isStarting hw
  have hfew := hs.few
  refine ⟨⟨hhidden, hsilent, hstaying, hgate, hdeaf⟩, ?_, ?_, ?_⟩
  · simp [Tab.told, hs.not_allowed hw]
  · simp [Tab.told]
  · simp only [Tab.told, List.length_append, List.length_singleton]
    omega

theorem gated_fail (h : Starting tab) (hno : tab.heard.any Heard.allows = false)
    (hfew : tab.heard.length ≤ 4) : Gated tab.fail :=
  h.message hno hfew (by decide) false tab.listening

theorem gated_unavailable (h : Starting tab) (hno : tab.heard.any Heard.allows = false)
    (hfew : tab.heard.length ≤ 4) : Gated tab.unavailable :=
  h.message hno hfew (by decide) true true

theorem hearConfig_gated {reply : ConfigReply} {createsClient : Bool} (h : Starting tab)
    (hallows : tab.heard.any Heard.allows = Heard.allows (.config reply createsClient))
    (hfew : tab.heard.length ≤ 1) : Gated (tab.hearConfig createsClient reply) := by
  cases reply with
  | networkFailure => exact gated_fail h hallows (by omega)
  | answer status enabled =>
    cases hok : isOk status with
    | false =>
      have hno : Heard.allows (.config (.answer status enabled) createsClient) = false := by
        cases enabled with
        | none => rfl
        | some enabled => cases enabled <;> simp [Heard.allows, hok]
      simp only [Tab.hearConfig, hok, Bool.not_false, if_true]
      exact gated_fail h (hallows.trans hno) (by omega)
    | true =>
      simp only [Tab.hearConfig, hok, Bool.not_true, Bool.false_eq_true, if_false]
      cases enabled with
      | none => exact gated_fail h hallows (by omega)
      | some enabled =>
        cases enabled with
        | false => exact h.dashboard (hallows.trans hok) (by omega) none tab.listening
        | true =>
          cases createsClient with
          | false => exact gated_fail h hallows (by omega)
          | true =>
            refine h.waits hallows (by decide) ?_ (fun hw => by cases hw) tab.accessToken true
            simp only [Waiting.rank]
            omega

theorem hearSession_gated {found : Option (Option Session)} (h : Starting tab)
    (hno : tab.heard.any Heard.allows = false)
    (hrejects : Heard.rejects (.session found) = true → tab.heard.any Heard.rejects = true)
    (hfew : tab.heard.length ≤ 2) : Gated (tab.hearSession found) := by
  match found with
  | none => exact gated_fail h hno (by omega)
  | some none => exact h.login hno (by omega) (hrejects rfl)
  | some (some session) =>
    refine h.waits hno (by decide) ?_ (fun hw => by cases hw) (some session.accessToken)
      tab.hasClient
    simp only [Waiting.rank]
    omega

theorem hearMe_gated {reply : MeReply} (h : Starting tab)
    (hallows : tab.heard.any Heard.allows = Heard.allows (.me reply))
    (hrejects : Heard.rejects (.me reply) = true → tab.heard.any Heard.rejects = true)
    (hfew : tab.heard.length ≤ 3) : Gated (tab.hearMe reply) := by
  cases reply with
  | networkFailure => exact gated_unavailable h hallows (by omega)
  | answer status body =>
    simp only [Heard.allows] at hallows
    simp only [Tab.hearMe]
    split_ifs with hforbidden hunauthorized hok
    · refine h.message ?_ (by omega) (by decide) true true
      rw [hallows, hforbidden]
      rfl
    · refine h.waits ?_ (by decide) ?_ ?_ tab.accessToken tab.hasClient
      · rw [hallows, hunauthorized]
        rfl
      · simp only [Waiting.rank]
        omega
      · exact fun _ => hrejects (by simp [Heard.rejects, hunauthorized])
    · refine h.message ?_ (by omega) (by decide) true true
      rw [Bool.not_eq_true'] at hok
      rw [hallows, hok, Bool.false_and]
    · rw [Bool.not_eq_true', Bool.not_eq_false] at hok
      rw [hok, Bool.true_and] at hallows
      cases body with
      | unreadable => exact gated_unavailable h hallows (by omega)
      | null => exact h.dashboard hallows (by omega) none true
      | user email => exact h.dashboard hallows (by omega) (some email) true

theorem hearSignOut_gated {outcome : SignOut} (h : Starting tab)
    (hno : tab.heard.any Heard.allows = false) (hrejects : tab.heard.any Heard.rejects = true)
    (hfew : tab.heard.length ≤ 4) : Gated (tab.hearSignOut outcome) := by
  cases outcome with
  | raised => exact gated_unavailable h hno hfew
  | kept => exact h.login hno hfew hrejects
  | removed => exact h.login hno hfew hrejects

/-- Whatever the page hears keeps it gated. -/
theorem hear_gated {heard : Heard} (hs : Gated tab) (h : tab.hear heard = some tab') :
    Gated tab' := by
  cases heard with
  | config reply createsClient =>
    simp only [Tab.hear, Option.ite_none_right_eq_some, Option.some.injEq] at h
    obtain ⟨hw, rfl⟩ := h
    obtain ⟨hstarting, hallows, -, hfew⟩ := hs.told (by simp [hw]) (.config reply createsClient)
    simp only [hw, Waiting.rank] at hfew
    exact hearConfig_gated hstarting hallows (by omega)
  | session found =>
    simp only [Tab.hear, Option.ite_none_right_eq_some, Option.some.injEq] at h
    obtain ⟨hw, rfl⟩ := h
    obtain ⟨hstarting, hallows, hrejects, hfew⟩ := hs.told (by simp [hw]) (.session found)
    simp only [hw, Waiting.rank] at hfew
    refine hearSession_gated hstarting hallows ?_ (by omega)
    intro hfound
    rw [hrejects, hfound, Bool.or_true]
  | me reply =>
    simp only [Tab.hear, Option.ite_none_right_eq_some, Option.some.injEq] at h
    obtain ⟨hw, rfl⟩ := h
    obtain ⟨hstarting, hallows, hrejects, hfew⟩ := hs.told (by simp [hw]) (.me reply)
    simp only [hw, Waiting.rank] at hfew
    refine hearMe_gated hstarting hallows ?_ (by omega)
    intro hreply
    rw [hrejects, hreply, Bool.or_true]
  | localSignOut outcome =>
    simp only [Tab.hear, Option.ite_none_right_eq_some, Option.some.injEq] at h
    obtain ⟨hw, rfl⟩ := h
    obtain ⟨hstarting, hallows, hrejects, hfew⟩ := hs.told (by simp [hw]) (.localSignOut outcome)
    simp only [hw, Waiting.rank] at hfew
    refine hearSignOut_gated hstarting hallows ?_ (by omega)
    rw [hrejects, hs.rejected hw, Bool.true_or]

end Hearing

section Staying
variable {js : Browser} {tab : Tab}

/-- A page that has just been loaded. -/
theorem gated_loaded : Gated {} where
  shown := by decide
  shell := by decide
  silent _ := by decide
  starting _ := ⟨rfl, rfl, rfl, rfl⟩
  settled hover := by cases hover
  rejected hwaiting := by cases hwaiting
  login hleaving := by cases hleaving
  few := by decide

theorem page_gated {event : Event} {page : Page} (hs : Gated tab)
    (h : pageStep js tab.page event = some page) : Gated { tab with page := page } := by
  have hsame := pageStep_mainHidden h
  have hquiet : tab.page.mainHidden = true → page = tab.page := fun hhidden =>
    pageStep_hidden h hhidden (hs.silent hhidden).1 (hs.silent hhidden).2.1
  exact {
    shown := by simpa only [hsame] using hs.shown
    shell := by simpa only [hsame] using hs.shell
    silent := by
      intro hhidden
      have hhidden' := hsame.symm.trans hhidden
      simpa only [hquiet hhidden'] using hs.silent hhidden'
    starting := by simpa only [hsame] using hs.starting
    settled := by simpa only [hsame] using hs.settled
    rejected := hs.rejected
    login := hs.login
    few := hs.few }

theorem tokenRefreshed_gated (hs : Gated tab) (session : Session) :
    Gated (tab.tokenRefreshed session) := by
  unfold Tab.tokenRefreshed
  split_ifs with hlistening
  · exact ⟨hs.shown, hs.shell, hs.silent, hs.starting, hs.settled, hs.rejected, hs.login, hs.few⟩
  · exact hs

theorem sessionEnded_gated (hs : Gated tab) : Gated tab.sessionEnded := by
  unfold Tab.sessionEnded
  split_ifs with hlistening
  · have hover : tab.waiting = .over := by
      by_contra hw
      rw [(hs.starting hw).2.2.2] at hlistening
      cases hlistening
    exact {
      shown := hs.shown
      shell := hs.shell
      silent := hs.silent
      starting := fun hw => absurd hover hw
      settled := fun _ => .inr (.inl (Option.some_ne_none _))
      rejected := hs.rejected
      login := fun _ => .inr rfl
      few := hs.few }
  · exact hs

/-- There is no button to sign out as long as `initializeAuth` has not decided. -/
theorem signOutEverywhere_gated (hs : Gated tab)
    (hseen : (!tab.gate.accountHidden || !tab.gate.authActionsHidden) = true) :
    Gated { tab with leaving := some .login } where
  shown := hs.shown
  shell := hs.shell
  silent := hs.silent
  starting hw := by
    rw [(hs.starting hw).2.2.1] at hseen
    cases hseen
  settled _ := .inr (.inl (Option.some_ne_none _))
  rejected := hs.rejected
  login hleaving := by cases hleaving
  few := hs.few

end Staying

/-- What one step of the browser can be. -/
inductive VisitMove (js : Browser) (v : Visit) : Label → Visit → Prop
  | hear {tab tab' news} (place : v.place = .dashboard tab)
      (stored : fits v.session news = true) (heard : tab.hear news = some tab') :
      VisitMove js v (.hear news) ⟨sessionAfter v.session news, .dashboard tab'⟩
  | page {tab event page} (place : v.place = .dashboard tab)
      (moved : pageStep js tab.page event = some page) :
      VisitMove js v (.page event) ⟨v.session, .dashboard { tab with page := page }⟩
  | tokenRefreshed {tab session} (place : v.place = .dashboard tab)
      (signedIn : v.session.isSome = true) :
      VisitMove js v (.tokenRefreshed session)
        ⟨some session, .dashboard (tab.tokenRefreshed session)⟩
  | sessionEnds {tab} (place : v.place = .dashboard tab) :
      VisitMove js v .sessionEnds ⟨none, .dashboard tab.sessionEnded⟩
  | sessionEndsElsewhere {back} (place : v.place = .login back) :
      VisitMove js v .sessionEnds ⟨none, .login back⟩
  | signOutEverywhere {tab removed} (place : v.place = .dashboard tab)
      (button : (!tab.gate.accountHidden || !tab.gate.authActionsHidden) = true)
      (client : (tab.hasClient || !removed) = true) :
      VisitMove js v (.signOutEverywhere removed)
        ⟨if removed then none else v.session, .dashboard { tab with leaving := some .login }⟩
  | unload {tab destination} (place : v.place = .dashboard tab)
      (leaving : tab.leaving = some destination) :
      VisitMove js v .unload ⟨v.session, .login (destination = .loginAndBack)⟩
  | forward (place : v.place = .login true) (signedIn : v.session.isSome = true) :
      VisitMove js v .forward ⟨v.session, .dashboard {}⟩
  | signIn {session} : VisitMove js v (.signIn session) ⟨some session, v.place⟩
  | openDashboard : VisitMove js v .openDashboard ⟨v.session, .dashboard {}⟩

section Moves
variable {js : Browser} {v v' : Visit} {l : Label}

theorem tabStep_move {tab : Tab} (hplace : v.place = .dashboard tab)
    (h : tabStep js v tab l = some v') : VisitMove js v l v' := by
  cases l with
  | hear heard =>
    simp only [tabStep, Option.ite_none_right_eq_some, Option.map_eq_some_iff] at h
    obtain ⟨hfits, tab', htab, rfl⟩ := h
    exact .hear hplace hfits htab
  | page event =>
    simp only [tabStep, Option.map_eq_some_iff] at h
    obtain ⟨page, hpage, rfl⟩ := h
    exact .page hplace hpage
  | tokenRefreshed session =>
    simp only [tabStep, Option.ite_none_right_eq_some, Option.some.injEq] at h
    obtain ⟨hsession, rfl⟩ := h
    exact .tokenRefreshed hplace hsession
  | sessionEnds =>
    cases h
    exact .sessionEnds hplace
  | signOutEverywhere removed =>
    simp only [tabStep, Option.ite_none_right_eq_some, Option.some.injEq] at h
    obtain ⟨hallowed, rfl⟩ := h
    obtain ⟨hbutton, hclient⟩ := Bool.and_eq_true_iff.1 hallowed
    exact .signOutEverywhere hplace hbutton hclient
  | unload =>
    simp only [tabStep, Option.map_eq_some_iff] at h
    obtain ⟨destination, hleaving, rfl⟩ := h
    exact .unload hplace hleaving
  | signIn session =>
    cases h
    exact hplace ▸ .signIn
  | openDashboard =>
    cases h
    exact .openDashboard
  | forward => cases h

theorem loginStep_move {back : Bool} (hplace : v.place = .login back)
    (h : loginStep v back l = some v') : VisitMove js v l v' := by
  cases l with
  | sessionEnds =>
    cases h
    exact .sessionEndsElsewhere hplace
  | forward =>
    simp only [loginStep, Option.ite_none_right_eq_some, Option.some.injEq] at h
    obtain ⟨hallowed, rfl⟩ := h
    obtain ⟨rfl, hsession⟩ := Bool.and_eq_true_iff.1 hallowed
    exact .forward hplace hsession
  | signIn session =>
    cases h
    exact hplace ▸ .signIn
  | openDashboard =>
    cases h
    exact .openDashboard
  | hear heard => cases h
  | page event => cases h
  | tokenRefreshed session => cases h
  | signOutEverywhere removed => cases h
  | unload => cases h

theorem step_move (h : step js v l = some v') : VisitMove js v l v' := by
  unfold step at h
  split at h
  · next tab hplace => exact tabStep_move hplace h
  · next back hplace => exact loginStep_move hplace h

end Moves

/-- The page, while the browser shows it, is gated. -/
def Guarded (v : Visit) : Prop := ∀ tab, v.place = .dashboard tab → Gated tab

section Visits
variable {js : Browser} {v v' : Visit} {l : Label}

theorem guarded_dashboard {session : Option Session} {tab : Tab} (h : Gated tab) :
    Guarded ⟨session, .dashboard tab⟩ := by
  rintro _ ⟨⟩
  exact h

theorem guarded_login (session : Option Session) (back : Bool) :
    Guarded ⟨session, .login back⟩ := by
  rintro _ ⟨⟩

theorem step_guarded (hs : Guarded v) (h : step js v l = some v') : Guarded v' := by
  cases step_move h with
  | hear hplace hfits hheard => exact guarded_dashboard (hear_gated (hs _ hplace) hheard)
  | page hplace hpage => exact guarded_dashboard (page_gated (hs _ hplace) hpage)
  | tokenRefreshed hplace hsession =>
    exact guarded_dashboard (tokenRefreshed_gated (hs _ hplace) _)
  | sessionEnds hplace => exact guarded_dashboard (sessionEnded_gated (hs _ hplace))
  | sessionEndsElsewhere hplace => exact guarded_login _ _
  | signOutEverywhere hplace hbutton hclient =>
    exact guarded_dashboard (signOutEverywhere_gated (hs _ hplace) hbutton)
  | unload hplace hleaving => exact guarded_login _ _
  | forward hplace hsession => exact guarded_dashboard gated_loaded
  | signIn => exact hs
  | openDashboard => exact guarded_dashboard gated_loaded

end Visits

/-- The login page sends the browser on. -/
def Label.forwards : Label → Bool
  | .forward => true
  | _ => false

/-- Somebody signs in, or the page leaves with a rejected session still stored. -/
def Label.opens : Label → Bool
  | .signIn _ | .hear (.localSignOut .kept) => true
  | _ => false

/-- The browser is on its way to the login page and back. -/
def Visit.bounces (v : Visit) : Bool :=
  v.session.isSome &&
    match v.place with
    | .dashboard tab => tab.leaving = some .loginAndBack
    | .login back => back

section Bouncing
variable {js : Browser} {v v' : Visit} {l : Label} {tab tab' : Tab}

/-- The page is left at the end of `verifyAdminSession` only, without a session or with a
rejected one. -/
theorem hear_leaving {heard : Heard} (h : tab.hear heard = some tab') :
    tab'.leaving = tab.leaving ∨ heard = .session (some none) ∨
      heard = .localSignOut .removed ∨ heard = .localSignOut .kept := by
  cases heard with
  | config reply createsClient =>
    simp only [Tab.hear, Option.ite_none_right_eq_some, Option.some.injEq] at h
    obtain ⟨-, rfl⟩ := h
    left
    cases reply with
    | networkFailure => rfl
    | answer status enabled =>
      cases hok : isOk status with
      | false =>
        simp only [Tab.hearConfig, hok, Bool.not_false, if_true]
        rfl
      | true =>
        simp only [Tab.hearConfig, hok, Bool.not_true, Bool.false_eq_true, if_false]
        cases enabled with
        | none => rfl
        | some enabled => cases enabled <;> cases createsClient <;> rfl
  | session found =>
    simp only [Tab.hear, Option.ite_none_right_eq_some, Option.some.injEq] at h
    obtain ⟨-, rfl⟩ := h
    cases found with
    | none => exact .inl rfl
    | some found =>
      cases found with
      | none => exact .inr (.inl rfl)
      | some session => exact .inl rfl
  | me reply =>
    simp only [Tab.hear, Option.ite_none_right_eq_some, Option.some.injEq] at h
    obtain ⟨-, rfl⟩ := h
    left
    cases reply with
    | networkFailure => rfl
    | answer status body =>
      simp only [Tab.hearMe]
      split_ifs
      · rfl
      · rfl
      · rfl
      · cases body <;> rfl
  | localSignOut outcome =>
    simp only [Tab.hear, Option.ite_none_right_eq_some, Option.some.injEq] at h
    obtain ⟨-, rfl⟩ := h
    cases outcome with
    | raised => exact .inl rfl
    | kept => exact .inr (.inr (.inr rfl))
    | removed => exact .inr (.inr (.inl rfl))

theorem bounces_of_no_session {place : Place} : Visit.bounces ⟨none, place⟩ = false := rfl

theorem hear_bounces {heard : Heard} (hplace : v.place = .dashboard tab)
    (hfits : fits v.session heard = true) (h : tab.hear heard = some tab') :
    (Visit.bounces ⟨sessionAfter v.session heard, .dashboard tab'⟩).toNat ≤
      v.bounces.toNat + (Label.opens (.hear heard)).toNat := by
  rcases hear_leaving h with hleaving | rfl | rfl | rfl
  · cases hafter : sessionAfter v.session heard with
    | none => simp [bounces_of_no_session]
    | some session =>
      -- nothing but a local sign-out changes the session
      have hsession : v.session = some session := by
        unfold sessionAfter at hafter
        split at hafter
        · cases hafter
        · exact hafter
      simp [Visit.bounces, hplace, hsession, hleaving]
  · simp only [fits, decide_eq_true_eq] at hfits
    simp [sessionAfter, ← hfits, bounces_of_no_session]
  · simp [sessionAfter, bounces_of_no_session]
  · exact (Bool.toNat_le _).trans (Nat.le_add_left 1 _)

/-- Being sent on uses up a bounce, which only a sign-in or a session that is kept opens. -/
theorem step_bounces (h : step js v l = some v') :
    l.forwards.toNat + v'.bounces.toNat ≤ v.bounces.toNat + l.opens.toNat := by
  cases step_move h with
  | hear hplace hfits hheard =>
    simpa [Label.forwards] using hear_bounces hplace hfits hheard
  | page hplace hpage => simp [Label.forwards, Label.opens, Visit.bounces, hplace]
  | @tokenRefreshed tab session hplace hsession =>
    have hleaving : (tab.tokenRefreshed session).leaving = tab.leaving := by
      unfold Tab.tokenRefreshed
      split_ifs <;> rfl
    simp [Label.forwards, Label.opens, Visit.bounces, hplace, hsession, hleaving]
  | sessionEnds hplace => simp [Label.forwards, bounces_of_no_session]
  | sessionEndsElsewhere hplace => simp [Label.forwards, bounces_of_no_session]
  | signOutEverywhere hplace hbutton hclient => simp [Label.forwards, Visit.bounces]
  | unload hplace hleaving =>
    simp [Label.forwards, Label.opens, Visit.bounces, hplace, hleaving]
  | forward hplace hsession => simp [Label.forwards, Visit.bounces, hplace, hsession]
  | @signIn session =>
    have hone := Bool.toNat_le (Visit.bounces ⟨some session, v.place⟩)
    simp only [Label.forwards, Label.opens, Bool.toNat_false, Bool.toNat_true]
    omega
  | openDashboard => simp [Label.forwards, Visit.bounces]

end Bouncing

/-- In every run of the browser the page is gated: it shows the dashboard exactly to those whom
the API has let in since it was loaded, asks nothing of the queue before, comes to an end with
`initializeAuth` after at most four answers, and goes to the login page and back without a
session, with a rejected one or after a sign-out only. The browser is sent back at most as often
as somebody signs in, or as a rejected session stays stored. -/
theorem sign_in_gated (js : Browser) (session : Option Session) (ls : List Label) :
    Throughout (step js) Guarded (start session) ls ∧
    ∀ v, exec (step js) (start session) ls = some v →
      ls.countP Label.forwards ≤ ls.countP Label.opens := by
  have hstart : Guarded (start session) := guarded_dashboard gated_loaded
  have hguarded : Throughout (step js) Guarded (start session) ls :=
    throughout_invariant (fun _ _ _ hs h => step_guarded hs h) hstart ls
  refine ⟨hguarded, ?_⟩
  intro v hrun
  have hbound := tally_le_of_potential (μ := fun v => v.bounces.toNat)
    (fun v l v' _ _ h => step_bounces h) hguarded hrun
  have hnone : (start session).bounces = false := by simp [start, Visit.bounces]
  rw [tally_of_labels hrun, tally_of_labels hrun, hnone, Bool.toNat_false, Nat.zero_add] at hbound
  exact le_of_add_le_left hbound

def expired : Session := ⟨"expired", by decide⟩

def fresh : Session := ⟨"fresh", by decide⟩

/-- The API rejects the stored session, the local sign-out does not remove it, and the login page
sends the browser back. -/
def rejectedOnce : List Label :=
  [.hear (.config (.answer 200 (some true)) true), .hear (.session (some (some expired))),
    .hear (.me (.answer 401 .null)), .hear (.localSignOut .kept), .unload, .forward]

/-- Then it is removed, and somebody signs in whom the API lets in. -/
def letInThen : List Label :=
  [.hear (.config (.answer 200 (some true)) true), .hear (.session (some (some expired))),
    .hear (.me (.answer 401 .null)), .hear (.localSignOut .removed), .unload, .signIn fresh,
    .forward, .hear (.config (.answer 200 (some true)) true),
    .hear (.session (some (some fresh))),
    .hear (.me (.answer 200 (.user (units "a@example.org"))))]

theorem sign_in_gated_rejectedOnce :
    Throughout (step plainBrowser) Guarded (start (some expired)) (rejectedOnce ++ letInThen) ∧
    (∃ tab, exec (step plainBrowser) (start (some expired)) (rejectedOnce ++ letInThen) =
      some ⟨some fresh, .dashboard tab⟩ ∧ tab.page.mainHidden = false) ∧
    (rejectedOnce ++ letInThen).countP Label.forwards ≤
      (rejectedOnce ++ letInThen).countP Label.opens := by
  obtain ⟨hguarded, hbound⟩ :=
    sign_in_gated plainBrowser (some expired) (rejectedOnce ++ letInThen)
  exact ⟨hguarded, ⟨_, rfl, rfl⟩, hbound _ rfl⟩

end TaskQueue.DashboardSignIn
