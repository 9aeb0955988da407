/-
# The pages and what they keep of a session

The page of the user and the page of the admin share a storage: the session, the account and a
stack of notifications.  Every script of a page reads the account while it is loaded, and nothing
works on a page whose scripts have failed.

| event | storage |
| --- | --- |
| a page is loaded | the page of the user asks for the account of the session, and keeps it |
| `doLogin` | keeps session and account of an answer with an account |
| `verifyFactor` | keeps session and account of any answer |
| `logout` | is cleared |
| a page of the admin is entered | a notification, if the account is no admin's |

`JSON.stringify` makes nothing of an account that is missing, and `setItem` keeps the word
`undefined`, which `JSON.parse` refuses.  So the answer to a wrong second factor is kept as an
account that cannot be read, and from then on no page can be loaded.

The check for `Storage`, the cookies of the device and where a page goes after a login are left
out.  `pushed` and `shown` are logs of the model.
-/

import CloudOs.Client.Launcher
import CloudOs.Lib.Runs
import CloudOs.Lib.Texts

namespace CloudOs

open Texts

namespace Pages

/-- What a property of an answer can be. -/
inductive Js (α : Type)
  | undefined | null
  | value (a : α)
  deriving DecidableEq, Repr

/-- What the pages read of an account.  The object that `Api` makes of an error has no name. -/
structure Fields where
  name : Option String := none
  admin : Bool := false

variable {δ : Type}

/-- An account, with the apps for the launcher. -/
abbrev Stored (δ : Type) : Type := Launcher.StoredAccount δ Fields

/-- The answer to a login; the object that `Api` makes of an error has neither property. -/
structure AuthResponse (δ : Type) where
  sessionId : Js String := .undefined
  account : Js (Stored δ) := .undefined

/-- `CloudOsStorage`, item by item.  An item that `JSON.stringify` has written is what was made a
text of. -/
structure CloudOsStorage (δ : Type) where
  cloudos_session : Option String := none
  cloudos_account : Option (Js (Stored δ)) := none
  notifications : Option (List String) := none

inductive App
  | index | admin
  deriving DecidableEq, Repr

/-- What the browser shows: nothing of the cloudstead, a page whose scripts have failed, or one that
runs, perhaps with the modal of the second factor open. -/
inductive Page
  | closed | dead
  | running (app : App) (modal : Bool)
  deriving DecidableEq, Repr

structure Browser (δ : Type) where
  storage : CloudOsStorage δ := {}
  page : Page := .closed
  pushed : List String := []
  shown : List String := []

inductive PageError
  | syntaxError | typeError
  deriving DecidableEq, Repr

/-! ### `CloudOs` -/

/-- What `setItem` keeps of a session id. -/
def sessionText : Js String → String
  | .undefined => "undefined"
  | .null => "null"
  | .value sessionId => sessionId

def json_safe_parse {α : Type} : Option (Js α) → Except PageError (Option α)
  | none => .ok none
  | some .undefined => .error .syntaxError
  | some .null => .ok none
  | some (.value a) => .ok (some a)

/-- `CloudOs.account`. -/
def account (storage : CloudOsStorage δ) : Except PageError (Option (Stored δ)) := do
  let cs_acct ← json_safe_parse storage.cloudos_account
  (Launcher.account cs_acct).mapError fun _ => .typeError

def set_account (account : Js (Stored δ)) (s : Browser δ) : Browser δ :=
  { s with storage := { s.storage with cloudos_account := some account } }

/-- `CloudOs.login`. -/
def login (auth_response : AuthResponse δ) (s : Browser δ) : Browser δ :=
  set_account auth_response.account
    { s with
      storage := { s.storage with cloudos_session := some (sessionText auth_response.sessionId) } }

/-- `CloudOs.logout`. -/
def logout (s : Browser δ) : Browser δ := { s with storage := {} }

namespace NotificationStack

def getStack (storage : CloudOsStorage δ) : List String := storage.notifications.getD []

def refresh (stack : List String) (s : Browser δ) : Browser δ :=
  { s with storage := { s.storage with notifications := some stack } }

def push (messageKey : String) (s : Browser δ) : Browser δ :=
  { refresh (getStack s.storage ++ [messageKey]) s with pushed := s.pushed ++ [messageKey] }

/-- `pop`, and the message that is shown for it. -/
def pop (s : Browser δ) : Browser δ :=
  { refresh (getStack s.storage).dropLast s with
    shown := s.shown ++ (getStack s.storage).getLast?.toList }

end NotificationStack

/-! ### The pages -/

/-- What the server answers to `account_for_token`. -/
abbrev AccountForToken (δ : Type) : Type := String → Js (Stored δ)

/-- `App.ApplicationRoute.setupController` of the page of the user. -/
def setupController (accountForToken : AccountForToken δ) (s : Browser δ) : Browser δ :=
  let s := NotificationStack.pop s
  match s.storage.cloudos_session with
  | none => s
  | some token =>
    if token = "" then s
    else
      match accountForToken token with
      | .value found => set_account (.value found) s
      | _ => logout s

/-- A page is loaded: its controllers read the account, and its first route is entered. -/
def load (accountForToken : AccountForToken δ) (app : App) (s : Browser δ) : Browser δ :=
  match account s.storage with
  | .error _ => { s with page := .dead }
  | .ok _ =>
    let s := { s with page := .running app false }
    match app with
    | .index => setupController accountForToken s
    | .admin => s

/-- `doLogin`.  The page of the admin has no modal for the second factor. -/
def doLogin (app : App) (username password : String) (response : Option (AuthResponse δ))
    (s : Browser δ) : Browser δ :=
  if isBlank username || isBlank password then s
  else
    match response with
    | none => s
    | some auth_response =>
      match auth_response.account, auth_response.sessionId with
      | .value _, _ => login auth_response s
      | _, .value sessionId =>
        if sessionId ≠ "" ∧ app = .index then { s with page := .running .index true } else s
      | _, _ => s

/-- `validateTwoFactorVerificationCode` finds nothing wrong: seven digits. -/
def isCode (code : String) : Bool := code.toList.length == 7 && code.toList.all (·.isDigit)

/-- `verifyFactor` and `_validateLoginResponse`, which compares with a text that no answer has. -/
def verifyFactor (code : String) (response : Option (AuthResponse δ))
    (accountForToken : AccountForToken δ) (s : Browser δ) : Browser δ :=
  if !isCode code then s
  else
    match response with
    | none => s
    | some response =>
      if response.sessionId ≠ .value "undefined" then load accountForToken .index (login response s)
      else s

/-- `CloudOSProtectedRoute.beforeModel` of the page of the admin. -/
def enter (accountForToken : AccountForToken δ) (s : Browser δ) : Browser δ :=
  match account s.storage with
  | .error _ => s
  | .ok found =>
    if s.storage.cloudos_session.getD "" = "" then s
    else if found.any (!·.rest.admin) then
      load accountForToken .index (NotificationStack.push "not_authorized" s)
    else s

/-- What happens next, with the answers of the server. -/
inductive Event (δ : Type)
  | load (app : App) (accountForToken : AccountForToken δ)
  | doLogin (username password : String) (response : Option (AuthResponse δ))
  | verifyFactor (code : String) (response : Option (AuthResponse δ))
      (accountForToken : AccountForToken δ)
  | logout (accountForToken : AccountForToken δ)
  | enter (accountForToken : AccountForToken δ)
  | refreshInstalledApps (accountForToken : AccountForToken δ)

/-- One event.  What a page does takes a page that runs; `get_token` has a text for the session that
is not there. -/
def step (s : Browser δ) (e : Event δ) : Browser δ :=
  match e, s.page with
  | .load app accountForToken, _ => load accountForToken app s
  | .doLogin username password response, .running app _ => doLogin app username password response s
  | .verifyFactor code response accountForToken, .running .index true =>
    verifyFactor code response accountForToken s
  | .logout accountForToken, .running _ _ => load accountForToken .index (logout s)
  | .enter accountForToken, .running .admin _ => enter accountForToken s
  | .refreshInstalledApps accountForToken, .running .admin _ =>
    set_account (accountForToken (s.storage.cloudos_session.getD "null")) s
  | _, _ => s

/-! ### A page that cannot be loaded -/

/-- The launcher can show the apps of the account. -/
def Launchable (a : Stored δ) : Prop := (Launcher.account (some a)).isOk = true

/-- The stored account can be read. -/
def Readable (s : Browser δ) : Prop := (account s.storage).isOk = true

/-- The accounts in an answer of `account_for_token` can be launched. -/
def SendsLaunchable (accountForToken : AccountForToken δ) : Prop :=
  ∀ token a, accountForToken token = .value a → Launchable a

/-- The accounts in the answers can be launched, and `refreshInstalledApps` gets an answer. -/
def Event.IsLaunchable : Event δ → Prop
  | .load _ accountForToken => SendsLaunchable accountForToken
  | .doLogin _ _ response => ∀ r ∈ response, ∀ a, r.account = .value a → Launchable a
  | .verifyFactor _ response accountForToken => SendsLaunchable accountForToken ∧
      ∀ r ∈ response, ∀ a, r.account = .value a → Launchable a
  | .logout accountForToken => SendsLaunchable accountForToken
  | .enter accountForToken => SendsLaunchable accountForToken
  | .refreshInstalledApps accountForToken =>
    SendsLaunchable accountForToken ∧ ∀ token, accountForToken token ≠ .undefined

/-- A second factor is sent, and the answer has no account. -/
def RefusesFactor (s : Browser δ) : Event δ → Prop
  | .verifyFactor code (some response) _ => s.page = .running .index true ∧ isCode code = true ∧
      response.sessionId ≠ .value "undefined" ∧ response.account = .undefined
  | _ => False

/-- The account can be read and the page has not failed. -/
structure Alive (s : Browser δ) : Prop where
  readable : Readable s
  page : s.page ≠ .dead

/-- The account cannot be read and the page has failed. -/
structure Dead (s : Browser δ) : Prop where
  unreadable : ¬ Readable s
  page : s.page = .dead

variable {s : Browser δ}

theorem readable_iff : Readable s ↔ match s.storage.cloudos_account with
    | some .undefined => False
    | some (.value a) => Launchable a
    | _ => True := by
  rw [Readable, account]
  rcases s.storage.cloudos_account with _ | _ | _ | a
  · exact iff_of_true rfl trivial
  · exact iff_of_false Bool.false_ne_true id
  · exact iff_of_true rfl trivial
  · simp only [Launchable, json_safe_parse]
    change ((Launcher.account (some a)).mapError _).isOk = true ↔ _
    cases Launcher.account (some a) <;> exact Iff.rfl

/-- Reading the account takes the account alone. -/
theorem Readable.congr {t : Browser δ} (h : Readable s)
    (heq : t.storage.cloudos_account = s.storage.cloudos_account) : Readable t := by
  rw [readable_iff, heq]
  exact readable_iff.1 h

theorem readable_set_account {found : Stored δ} (h : Launchable found) :
    Readable (set_account (.value found) s) := readable_iff.2 h

theorem load_of_readable (h : Readable s) (accountForToken : AccountForToken δ) (app : App) :
    load accountForToken app s = match app with
      | .index => setupController accountForToken { s with page := .running .index false }
      | .admin => { s with page := .running .admin false } := by
  rw [load]
  cases hread : account s.storage with
  | error e => exact absurd h (by rw [Readable, hread]; exact Bool.false_ne_true)
  | ok found => cases app <;> rfl

theorem load_of_not_readable (h : ¬ Readable s) (accountForToken : AccountForToken δ) (app : App) :
    load accountForToken app s = { s with page := .dead } := by
  rw [load]
  cases hread : account s.storage with
  | error e => rfl
  | ok found => exact absurd (by rw [Readable, hread]; rfl) h

/-- What the first route of the page of the user leaves of the storage: the account of the session
as the server has it, nothing, or what was there. -/
theorem setupController_cases (accountForToken : AccountForToken δ) (s : Browser δ) :
    setupController accountForToken s = NotificationStack.pop s ∨
      setupController accountForToken s = logout (NotificationStack.pop s) ∨
      ∃ token found, s.storage.cloudos_session = some token ∧
        accountForToken token = .value found ∧
        setupController accountForToken s =
          set_account (.value found) (NotificationStack.pop s) := by
  have hsession : (NotificationStack.pop s).storage.cloudos_session = s.storage.cloudos_session :=
    rfl
  simp only [setupController, hsession]
  cases s.storage.cloudos_session with
  | none => exact Or.inl rfl
  | some token =>
    dsimp only
    split_ifs with hempty
    · exact Or.inl rfl
    · cases hanswer : accountForToken token with
      | undefined => exact Or.inr (Or.inl rfl)
      | null => exact Or.inr (Or.inl rfl)
      | value found => exact Or.inr (Or.inr ⟨token, found, rfl, hanswer, rfl⟩)

theorem alive_setupController (hs : Alive s) {accountForToken : AccountForToken δ}
    (hsends : SendsLaunchable accountForToken) : Alive (setupController accountForToken s) := by
  rcases setupController_cases accountForToken s with heq | heq | ⟨token, found, -, hanswer, heq⟩
  · rw [heq]
    exact ⟨hs.readable.congr rfl, hs.page⟩
  · rw [heq]
    exact ⟨readable_iff.2 trivial, hs.page⟩
  · rw [heq]
    exact ⟨readable_set_account (hsends token found hanswer), hs.page⟩

/-- A page is loaded when the account can be read. -/
theorem alive_load (h : Readable s) {accountForToken : AccountForToken δ}
    (hsends : SendsLaunchable accountForToken) (app : App) :
    Alive (load accountForToken app s) := by
  have hruns : Alive { s with page := .running app false } :=
    ⟨h.congr rfl, fun hdead => Page.noConfusion hdead⟩
  rw [load_of_readable h]
  cases app with
  | index => exact alive_setupController hruns hsends
  | admin => exact hruns

/-- No page is loaded when it cannot. -/
theorem dead_load (h : ¬ Readable s) (accountForToken : AccountForToken δ) (app : App) :
    Dead (load accountForToken app s) := by
  rw [load_of_not_readable h]
  exact ⟨fun hreads => h (hreads.congr rfl), rfl⟩

theorem alive_login (hs : Alive s) {found : Stored δ} (h : Launchable found)
    {auth_response : AuthResponse δ} (hfound : auth_response.account = .value found) :
    Alive (login auth_response s) := by
  rw [login, hfound]
  exact ⟨readable_set_account h, hs.page⟩

theorem alive_doLogin (hs : Alive s) {app : App} {username password : String}
    {response : Option (AuthResponse δ)}
    (hlaunch : ∀ r ∈ response, ∀ a, r.account = .value a → Launchable a) :
    Alive (doLogin app username password response s) := by
  unfold doLogin
  split_ifs
  · exact hs
  cases response with
  | none => exact hs
  | some r =>
    dsimp only
    split
    · next found hfound => exact alive_login hs (hlaunch r rfl found hfound) hfound
    · split_ifs
      · exact ⟨hs.readable.congr rfl, fun hdead => Page.noConfusion hdead⟩
      · exact hs
    · exact hs

/-- The answer to a second factor is kept: with an account that can be launched the page is loaded
again, without one it is not. -/
theorem verifyFactor_of_isCode {code : String} (hcode : isCode code = true)
    {response : AuthResponse δ} (hsession : response.sessionId ≠ .value "undefined")
    (accountForToken : AccountForToken δ) (s : Browser δ) :
    verifyFactor code (some response) accountForToken s =
      load accountForToken .index (login response s) := by
  unfold verifyFactor
  rw [hcode]
  exact if_pos hsession

theorem alive_verifyFactor (hs : Alive s) {code : String} {response : Option (AuthResponse δ)}
    {accountForToken : AccountForToken δ} (hsends : SendsLaunchable accountForToken)
    (hlaunch : ∀ r ∈ response, ∀ a, r.account = .value a → Launchable a)
    (haccount : ∀ r ∈ response, isCode code = true → r.sessionId ≠ .value "undefined" →
      r.account ≠ .undefined) :
    Alive (verifyFactor code response accountForToken s) := by
  unfold verifyFactor
  cases hcode : isCode code with
  | false => exact hs
  | true =>
    cases response with
    | none => exact hs
    | some r =>
      dsimp only
      split_ifs with _ hsession
      · exact hs
      · refine alive_load (readable_iff.2 ?_) hsends .index
        rw [login]
        cases hfound : r.account with
        | undefined => exact absurd hfound (haccount r rfl hcode hsession)
        | null => trivial
        | value found => exact hlaunch r rfl found hfound
      · exact hs

theorem alive_enter (hs : Alive s) {accountForToken : AccountForToken δ}
    (hsends : SendsLaunchable accountForToken) : Alive (enter accountForToken s) := by
  rw [enter]
  cases account s.storage with
  | error e => exact hs
  | ok found =>
    dsimp only
    split_ifs
    · exact hs
    · have hreads : Readable (NotificationStack.push "not_authorized" s) := hs.readable.congr rfl
      exact alive_load hreads hsends .index
    · exact hs

/-- **What keeps the pages alive**: every event but a second factor that is refused. -/
theorem alive_step (hs : Alive s) {e : Event δ} (hlaunch : e.IsLaunchable)
    (hrefuses : ¬ RefusesFactor s e) : Alive (step s e) := by
  unfold step
  split
  · exact alive_load hs.readable hlaunch _
  · exact alive_doLogin hs hlaunch
  · next code response accountForToken _ _ hpage =>
    refine alive_verifyFactor hs hlaunch.1 hlaunch.2 ?_
    rintro r hr hcode hsession haccount
    obtain rfl := Option.mem_def.1 hr
    exact hrefuses ⟨hpage, hcode, hsession, haccount⟩
  · exact alive_load (readable_iff.2 trivial) hlaunch .index
  · exact alive_enter hs hlaunch
  · next _ accountForToken _ _ =>
    refine ⟨readable_iff.2 ?_, hs.page⟩
    cases hanswer : accountForToken (s.storage.cloudos_session.getD "null") with
    | undefined => exact hlaunch.2 _ hanswer
    | null => trivial
    | value found => exact hlaunch.1 _ found hanswer
  · exact hs

/-- A second factor that is refused leaves an account that cannot be read. -/
theorem dead_of_refusesFactor {e : Event δ} (h : RefusesFactor s e) : Dead (step s e) := by
  unfold RefusesFactor at h
  split at h
  · next code response accountForToken =>
    obtain ⟨hpage, hcode, hsession, haccount⟩ := h
    have hstep : step s (.verifyFactor code (some response) accountForToken) =
        load accountForToken .index (login response s) := by
      simp only [step, hpage]
      exact verifyFactor_of_isCode hcode hsession accountForToken s
    rw [hstep]
    refine dead_load (fun hreads => ?_) accountForToken .index
    rw [readable_iff, login, haccount] at hreads
    exact hreads
  · exact h.elim

/-- Nothing works on a page that has failed, and no other page can be loaded. -/
theorem dead_step (hs : Dead s) (e : Event δ) : Dead (step s e) := by
  unfold step
  rw [hs.page]
  split
  · exact dead_load hs.unreadable _ _
  all_goals first | exact hs | contradiction

/-- **A wrong second factor locks the pages for good.**  From a page that runs and an account that
can be read, with accounts that can be launched, a run ends with a page that has failed, and with an
account that cannot be read, exactly when it sends a second factor somewhere that is refused. -/
theorem dead_iff (hs : Alive s) (es : List (Event δ)) (hlaunch : ∀ e ∈ es, e.IsLaunchable) :
    Dead (Runs.run step s es) ↔ Runs.Somewhere step RefusesFactor s es :=
  Runs.run_iff_somewhere (fun _ _ => dead_of_refusesFactor) (fun _ e hdead => dead_step hdead e)
    (fun _ _ halive => alive_step halive) (fun _ hdead halive => halive.page hdead.page) hs hlaunch

/-! ### Notifications -/

/-- No notification waits, and each was shown. -/
structure Told (s : Browser δ) : Prop where
  waiting : NotificationStack.getStack s.storage = []
  shown : s.shown = s.pushed

theorem Told.congr {t : Browser δ} (hs : Told s)
    (hstack : t.storage.notifications = s.storage.notifications) (hpushed : t.pushed = s.pushed)
    (hshown : t.shown = s.shown) : Told t := by
  refine ⟨?_, ?_⟩
  · rw [NotificationStack.getStack, hstack]
    exact hs.waiting
  · rw [hshown, hpushed]
    exact hs.shown

theorem told_pop (hs : Told s) : Told (NotificationStack.pop s) := by
  refine ⟨?_, ?_⟩
  · change (NotificationStack.getStack s.storage).dropLast = []
    rw [hs.waiting]
    rfl
  · change s.shown ++ (NotificationStack.getStack s.storage).getLast?.toList = s.pushed
    rw [hs.waiting, hs.shown]
    exact List.append_nil _

/-- What was pushed last is shown next. -/
theorem told_pop_push (hs : Told s) (messageKey : String) :
    Told (NotificationStack.pop (NotificationStack.push messageKey s)) := by
  have hstack : NotificationStack.getStack (NotificationStack.push messageKey s).storage =
      [messageKey] := by
    change NotificationStack.getStack s.storage ++ [messageKey] = _
    rw [hs.waiting]
    rfl
  refine ⟨?_, ?_⟩
  · change (NotificationStack.getStack (NotificationStack.push messageKey s).storage).dropLast = []
    rw [hstack]
    rfl
  · change s.shown ++
      (NotificationStack.getStack (NotificationStack.push messageKey s).storage).getLast?.toList =
        s.pushed ++ [messageKey]
    rw [hstack, hs.shown]
    rfl

/-- The page of the user pops what waits, before anything else. -/
theorem told_setupController (h : Told (NotificationStack.pop s))
    (accountForToken : AccountForToken δ) : Told (setupController accountForToken s) := by
  rcases setupController_cases accountForToken s with heq | heq | ⟨_, _, -, -, heq⟩
  · rw [heq]
    exact h
  · rw [heq]
    exact ⟨rfl, h.shown⟩
  · rw [heq]
    exact h.congr rfl rfl rfl

theorem told_load (hs : Told s) (accountForToken : AccountForToken δ) (app : App) :
    Told (load accountForToken app s) := by
  have hruns : Told { s with page := .running app false } := hs.congr rfl rfl rfl
  unfold load
  split
  · exact hs.congr rfl rfl rfl
  · cases app with
    | index => exact told_setupController (told_pop hruns) accountForToken
    | admin => exact hruns

/-- An account that is no admin's was read, so that the page of the user can be loaded. -/
theorem told_enter (hs : Told s) (accountForToken : AccountForToken δ) :
    Told (enter accountForToken s) := by
  rw [enter]
  cases hread : account s.storage with
  | error e => exact hs
  | ok found =>
    dsimp only
    split_ifs
    · exact hs
    · have hreads : Readable (NotificationStack.push "not_authorized" s) := by
        have hreads : Readable s := by rw [Readable, hread]; rfl
        exact hreads.congr rfl
      have hpop := told_pop_push hs "not_authorized"
      rw [load_of_readable hreads]
      refine told_setupController ?_ accountForToken
      exact hpop.congr rfl rfl rfl
    · exact hs

theorem told_login (hs : Told s) (auth_response : AuthResponse δ) :
    Told (login auth_response s) := hs.congr rfl rfl rfl

theorem told_doLogin (hs : Told s) (app : App) (username password : String)
    (response : Option (AuthResponse δ)) : Told (doLogin app username password response s) := by
  unfold doLogin
  split_ifs
  · exact hs
  cases response with
  | none => exact hs
  | some r =>
    dsimp only
    split
    · exact told_login hs r
    · split_ifs
      · exact hs.congr rfl rfl rfl
      · exact hs
    · exact hs

theorem told_verifyFactor (hs : Told s) (code : String) (response : Option (AuthResponse δ))
    (accountForToken : AccountForToken δ) :
    Told (verifyFactor code response accountForToken s) := by
  unfold verifyFactor
  split_ifs
  · exact hs
  cases response with
  | none => exact hs
  | some r =>
    dsimp only
    split_ifs
    · exact told_load (told_login hs r) accountForToken .index
    · exact hs

theorem told_step (hs : Told s) (e : Event δ) : Told (step s e) := by
  unfold step
  split
  · exact told_load hs _ _
  · exact told_doLogin hs _ _ _ _
  · exact told_verifyFactor hs _ _ _
  · have hcleared : Told (logout s) := ⟨rfl, hs.shown⟩
    exact told_load hcleared _ _
  · exact told_enter hs _
  · exact hs.congr rfl rfl rfl
  · exact hs

/-- **Every notification is shown once.**  After every run of a new browser the notifications that
were shown are those that were pushed, in their order, and none waits. -/
theorem shown_eq_pushed (es : List (Event δ)) :
    (Runs.run step ({} : Browser δ) es).shown = (Runs.run step ({} : Browser δ) es).pushed ∧
      NotificationStack.getStack (Runs.run step ({} : Browser δ) es).storage = [] := by
  have htold : Told (Runs.run step ({} : Browser δ) es) :=
    Runs.run_preserves (I := Told) (fun _ e hs => told_step hs e) ⟨rfl, rfl⟩ es
  exact ⟨htold.shown, htold.waiting⟩

/-! ### Whose account it is -/

/-- What the server promises of its sessions: each is of one account, whose name is that of the
account in the answer. -/
def OwnsAnswers (owner : String → Option String) (accountForToken : AccountForToken δ) : Prop :=
  ∀ token a, accountForToken token = .value a → a.rest.name = none ∨ a.rest.name = owner token

/-- An answer with an account has the id of a session of that account. -/
def OwnsLogin (owner : String → Option String) (response : Option (AuthResponse δ)) : Prop :=
  ∀ r ∈ response, ∀ a, r.account = .value a →
    ∃ sessionId, r.sessionId = .value sessionId ∧ a.rest.name = owner sessionId

/-- The answers are those of a server that keeps its promise. -/
def Event.IsOwned (owner : String → Option String) : Event δ → Prop
  | .load _ accountForToken => OwnsAnswers owner accountForToken
  | .doLogin _ _ response => OwnsLogin owner response
  | .verifyFactor _ response accountForToken =>
    OwnsLogin owner response ∧ OwnsAnswers owner accountForToken
  | .logout accountForToken => OwnsAnswers owner accountForToken
  | .enter accountForToken => OwnsAnswers owner accountForToken
  | .refreshInstalledApps accountForToken => OwnsAnswers owner accountForToken

/-- The stored account is that of the stored session, or has no name. -/
def Owned (owner : String → Option String) (s : Browser δ) : Prop :=
  ∀ token a, s.storage.cloudos_session = some token →
    s.storage.cloudos_account = some (.value a) → a.rest.name = none ∨ a.rest.name = owner token

variable {owner : String → Option String}

theorem Owned.congr {t : Browser δ} (hs : Owned owner s)
    (hsession : t.storage.cloudos_session = s.storage.cloudos_session)
    (haccount : t.storage.cloudos_account = s.storage.cloudos_account) : Owned owner t := by
  intro token a htoken hfound
  exact hs token a (hsession.symm.trans htoken) (haccount.symm.trans hfound)

theorem owned_logout : Owned owner (logout s) := fun _ _ hsession _ => nomatch hsession

/-- An answer for the session that is stored. -/
theorem owned_set_account {answer : Js (Stored δ)} (hanswer : ∀ token a,
    s.storage.cloudos_session = some token → answer = .value a →
      a.rest.name = none ∨ a.rest.name = owner token) : Owned owner (set_account answer s) :=
  fun token a hsession hfound => hanswer token a hsession (Option.some.inj hfound)

theorem owned_login {auth_response : AuthResponse δ}
    (howns : OwnsLogin owner (some auth_response)) : Owned owner (login auth_response s) := by
  intro token a hsession hfound
  obtain ⟨sessionId, hid, hname⟩ := howns auth_response rfl a (Option.some.inj hfound)
  have htoken : sessionText auth_response.sessionId = token := Option.some.inj hsession
  rw [hid] at htoken
  obtain rfl : sessionId = token := htoken
  exact Or.inr hname

theorem owned_setupController (hs : Owned owner s) {accountForToken : AccountForToken δ}
    (howns : OwnsAnswers owner accountForToken) :
    Owned owner (setupController accountForToken s) := by
  rcases setupController_cases accountForToken s with
    heq | heq | ⟨token, found, hsession, hanswer, heq⟩
  · rw [heq]
    exact hs.congr rfl rfl
  · rw [heq]
    exact owned_logout
  · rw [heq]
    refine owned_set_account fun token' a hsession' hfound => ?_
    obtain rfl := Option.some.inj (hsession.symm.trans hsession')
    exact howns _ a (hanswer.trans hfound)

theorem owned_load (hs : Owned owner s) {accountForToken : AccountForToken δ}
    (howns : OwnsAnswers owner accountForToken) (app : App) :
    Owned owner (load accountForToken app s) := by
  have hruns : Owned owner { s with page := .running app false } := hs.congr rfl rfl
  unfold load
  split
  · exact hs.congr rfl rfl
  · cases app with
    | index => exact owned_setupController hruns howns
    | admin => exact hruns

theorem owned_doLogin (hs : Owned owner s) (app : App) (username password : String)
    {response : Option (AuthResponse δ)} (howns : OwnsLogin owner response) :
    Owned owner (doLogin app username password response s) := by
  unfold doLogin
  split_ifs
  · exact hs
  cases response with
  | none => exact hs
  | some r =>
    dsimp only
    split
    · exact owned_login howns
    · split_ifs
      · exact hs.congr rfl rfl
      · exact hs
    · exact hs

theorem owned_verifyFactor (hs : Owned owner s) (code : String)
    {response : Option (AuthResponse δ)} (hlogin : OwnsLogin owner response)
    {accountForToken : AccountForToken δ} (howns : OwnsAnswers owner accountForToken) :
    Owned owner (verifyFactor code response accountForToken s) := by
  unfold verifyFactor
  split_ifs
  · exact hs
  cases response with
  | none => exact hs
  | some r =>
    dsimp only
    split_ifs
    · exact owned_load (owned_login hlogin) howns .index
    · exact hs

theorem owned_enter (hs : Owned owner s) {accountForToken : AccountForToken δ}
    (howns : OwnsAnswers owner accountForToken) : Owned owner (enter accountForToken s) := by
  unfold enter
  split
  · exact hs
  · split_ifs
    · exact hs
    · have hpushed : Owned owner (NotificationStack.push "not_authorized" s) := hs.congr rfl rfl
      exact owned_load hpushed howns .index
    · exact hs

theorem owned_step (hs : Owned owner s) {e : Event δ} (howns : e.IsOwned owner) :
    Owned owner (step s e) := by
  unfold step
  split
  · exact owned_load hs howns _
  · exact owned_doLogin hs _ _ _ howns
  · exact owned_verifyFactor hs _ howns.1 howns.2
  · exact owned_load owned_logout howns _
  · exact owned_enter hs howns
  · refine owned_set_account fun token a hsession hanswer => howns token a ?_
    rw [hsession] at hanswer
    exact hanswer
  · exact hs

/-- **The pages show the account of their session.**  While the server gives a session to one
account only, the account that a new browser keeps after a run is that of the session it keeps, or
the object of an error. -/
theorem account_of_session {es : List (Event δ)} (howns : ∀ e ∈ es, e.IsOwned owner) :
    Owned owner (Runs.run step ({} : Browser δ) es) :=
  Runs.run_invariant (I := Owned owner) (fun _ _ hs howns => owned_step hs howns)
    (fun _ _ hsession _ => nomatch hsession) (Runs.meets_of_mem _ howns)

/-! ### A run with a wrong second factor -/

/-- The answer that asks for a second factor. -/
def twoFactor : AuthResponse Unit where
  sessionId := .value "2-factor"

/-- The admin's account, without apps. -/
def root : Stored Unit := ⟨none, ⟨some "root", true⟩⟩

/-- A login that asks for a second factor, a wrong one, and the page of the admin. -/
def lockedOut : List (Event Unit) :=
  [.load .index fun _ => .null, .doLogin "root" "secret12" (some twoFactor),
    .verifyFactor "1234567" (some {}) fun _ => .null, .load .admin fun _ => .null,
    .load .index fun _ => .value root]

theorem dead_lockedOut : Dead (Runs.run step ({} : Browser Unit) lockedOut) := by
  have halive : Alive ({} : Browser Unit) := ⟨rfl, fun h => Page.noConfusion h⟩
  have hroot : Launchable root := rfl
  refine (dead_iff halive lockedOut ?_).2 (Or.inr (Or.inr (Or.inl ?_)))
  · intro e he
    simp only [lockedOut, List.mem_cons, List.not_mem_nil, or_false] at he
    rcases he with rfl | rfl | rfl | rfl | rfl
    · exact fun _ _ h => nomatch h
    · rintro r hr a ha
      obtain rfl := Option.mem_some_iff.1 hr
      exact nomatch ha
    · refine ⟨(fun _ _ h => nomatch h), ?_⟩
      rintro r hr a ha
      obtain rfl := Option.mem_some_iff.1 hr
      exact nomatch ha
    · exact fun _ _ h => nomatch h
    · rintro _ a ha
      obtain rfl := Js.value.inj ha
      exact hroot
  · exact ⟨by decide +kernel, by decide +kernel, by decide +kernel, rfl⟩

theorem account_of_session_root : Owned (fun _ => some "root") (Runs.run step ({} : Browser Unit)
    [.load .index fun _ => .null,
      .doLogin "root" "secret12" (some { sessionId := .value "s", account := .value root })]) := by
  refine account_of_session fun e he => ?_
  simp only [List.mem_cons, List.not_mem_nil, or_false] at he
  rcases he with rfl | rfl
  · exact fun _ _ h => nomatch h
  · rintro r hr a ha
    obtain rfl := Option.mem_some_iff.1 hr
    obtain rfl := Js.value.inj ha
    exact ⟨"s", rfl, rfl⟩

end Pages

end CloudOs
