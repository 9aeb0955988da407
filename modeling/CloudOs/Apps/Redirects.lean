/-
# Redirects without an end

`followRedirects` is meant to give up on an app that keeps redirecting: `null`, and `loadApp` then
leads to the main page of the app.

| the responses, from the first one on | what `followRedirects` does |
| --- | --- |
| one of the first `MAX_REDIRECTS + 1` is no redirect | it returns the first such response |
| they all are redirects | it throws, after `MAX_REDIRECTS + 1` requests |

The loop sets the response to `null` and asks it for its redirect, so `null` is never returned,
and `loadApp` throws at each of its calls.  So both do what they are meant to exactly when no
call meets a chain that is too long (`redirects_graceful_iff`).
-/

import CloudOs.Service.InstalledAppLoader

namespace CloudOs

open Prog InstalledAppLoader

namespace Redirects

variable {env : LoaderEnv} {apiKey : String} {account : CloudOsAccount} {app : LoadedApp}

/-! ### One chain -/

/-- The response and the `n` after it, each to the redirect of the one before, are redirects. -/
def IsChain (env : LoaderEnv) : ℕ → BufferedResponse → LoaderState → Prop
  | 0, response, _ => response.redirectUri.isSome
  | n + 1, response, s => ∃ location, response.redirectUri = some location ∧
      IsChain env n (answer env (redirect response location) s)
        (answered env (redirect response location) s)

/-- More redirects than `followRedirects` follows. -/
def TooLong (env : LoaderEnv) (response : BufferedResponse) (s : LoaderState) : Prop :=
  IsChain env MAX_REDIRECTS response s

/-- The redirects lead from a response to the first one that is no redirect, and leave a state. -/
inductive Leads (env : LoaderEnv) :
    BufferedResponse → LoaderState → BufferedResponse → LoaderState → Prop
  | stop {response : BufferedResponse} {s : LoaderState} (h : response.redirectUri = none) :
      Leads env response s response s
  | step {response final : BufferedResponse} {s t : LoaderState} {location : String}
      (h : response.redirectUri = some location)
      (hnext : Leads env (answer env (redirect response location) s)
        (answered env (redirect response location) s) final t) :
      Leads env response s final t

/-- **The loop**, with `n` redirects to go: it makes at most `n + 1` requests, and either throws
or returns the first response that is no redirect. -/
theorem followFrom_ends (n : ℕ) (response : BufferedResponse) (s : LoaderState) :
    Ends (followFrom env n response) s fun r t =>
      t.requests.length ≤ s.requests.length + (n + 1) ∧
      ((IsChain env n response s ∧ r = .error .nullPointer) ∨
        (¬ IsChain env n response s ∧
          ∃ final, r = .ok (some final) ∧ Leads env response s final t)) := by
  induction n generalizing response s with
  | zero =>
    unfold followFrom
    cases h : response.redirectUri with
    | none =>
      refine ⟨Nat.le_add_right _ _, Or.inr ⟨?_, response, rfl, .stop h⟩⟩
      rw [IsChain, h]
      exact Bool.false_ne_true
    | some location =>
      simp only [ends_bind, ends_proxyResponse, ends_throw, IsChain, h, Option.isSome_some, true_and,
        not_true_eq_false, false_and, or_false, and_true]
      simp [answered]
  | succ n ih =>
    unfold followFrom
    cases h : response.redirectUri with
    | none =>
      refine ⟨Nat.le_add_right _ _, Or.inr ⟨?_, response, rfl, .stop h⟩⟩
      rintro ⟨location, hlocation, -⟩
      exact absurd (h.symm.trans hlocation) (Option.some_ne_none location).symm
    | some location =>
      have hchain : IsChain env (n + 1) response s ↔
          IsChain env n (answer env (redirect response location) s)
            (answered env (redirect response location) s) := by
        rw [IsChain, h]
        simp
      rw [hchain, ends_bind, ends_proxyResponse]
      refine (ih _ (answered env (redirect response location) s)).mono fun r t hend => ?_
      obtain ⟨hrequests, hend⟩ := hend
      have hone : (answered env (redirect response location) s).requests.length
          = s.requests.length + 1 := by simp [answered]
      refine ⟨by omega, ?_⟩
      rcases hend with hthrows | ⟨hnot, final, rfl, hleads⟩
      · exact Or.inl hthrows
      · exact Or.inr ⟨hnot, final, rfl, .step h hleads⟩

/-- `followRedirects` on a response. -/
theorem followRedirects_ends (response : BufferedResponse) (s : LoaderState) :
    Ends (followRedirects env (some response)) s fun r t =>
      t.requests.length ≤ s.requests.length + (MAX_REDIRECTS + 1) ∧
      ((TooLong env response s ∧ r = .error .nullPointer) ∨
        (¬ TooLong env response s ∧
          ∃ final, r = .ok (some final) ∧ Leads env response s final t)) :=
  followFrom_ends MAX_REDIRECTS response s

/-- What `followRedirects` is meant to do: a bounded number of requests, and the first response
that is no redirect, or `null` when the chain is too long. -/
def FollowsGracefully (env : LoaderEnv) (response : Option BufferedResponse) (s : LoaderState) :
    Prop :=
  Ends (followRedirects env response) s fun r t =>
    t.requests.length ≤ s.requests.length + (MAX_REDIRECTS + 1) ∧
    ∃ result, r = .ok result ∧ match response with
      | none => result = none
      | some first => (∃ final, result = some final ∧ Leads env first s final t) ∨
          (result = none ∧ TooLong env first s)

/-- It does unless the chain is too long. -/
theorem followsGracefully_iff (response : Option BufferedResponse) (s : LoaderState) :
    FollowsGracefully env response s ↔ ∀ first, response = some first → ¬ TooLong env first s := by
  cases response with
  | none =>
    exact iff_of_true ⟨Nat.le_add_right _ _, none, rfl, rfl⟩ fun first h =>
      absurd h (Option.some_ne_none first).symm
  | some first =>
    refine ends_iff ((followRedirects_ends first s).mono fun r t hend => ?_)
    obtain ⟨hrequests, ⟨hlong, rfl⟩ | ⟨hnot, final, rfl, hleads⟩⟩ := hend
    · refine iff_of_false ?_ fun h => h first rfl hlong
      rintro ⟨-, result, hresult, -⟩
      exact of_error_eq_ok hresult
    · refine iff_of_true ⟨hrequests, _, rfl, Or.inl ⟨final, rfl, hleads⟩⟩ fun first' h => ?_
      rwa [← Option.some.inj h]

/-! ### The calls of `loadApp` -/

/-- The redirects lead to a page, and are not too many. -/
def Resolves (env : LoaderEnv) (response : BufferedResponse) (s : LoaderState)
    (page : BufferedResponse) (t : LoaderState) : Prop :=
  ¬ TooLong env response s ∧ Leads env response s page t

/-- `afterLogin` follows the redirects of the response. -/
def FollowsAfterLogin (app : LoadedApp) (response : BufferedResponse) : Prop :=
  response.is3xx = true ∧ ∃ appAuth, app.authentication = some appAuth ∧
    (patternMatches appAuth.registration_redirect response.location = true ∨
      patternMatches appAuth.login_redirect response.location = true)

/-- The login of a page is answered with a response that `afterLogin` looks at. -/
inductive LogsIn (env : LoaderEnv) (account : CloudOsAccount) (app : LoadedApp)
    (page : BufferedResponse) (s : LoaderState) : BufferedResponse → LoaderState → Prop
  | first {request : HttpRequestBean} (hrequest : app.buildLoginRequest account page = some request)
      (hgood : (!(answer env request s).isSuccess ||
        isLoginOrErrorPage app (answer env request s)) = false) :
      LogsIn env account app page s (answer env request s) (answered env request s)
  | again {request : HttpRequestBean} (hrequest : app.buildLoginRequest account page = some request)
      (hbad : (!(answer env request s).isSuccess ||
        isLoginOrErrorPage app (answer env request s)) = true)
      (hcookies : s.cookieJar.length ≠ (answered env request s).cookieJar.length)
      (hgood : (!(answer env request (answered env request s)).isSuccess ||
        app.isLoginPage (answer env request (answered env request s)).document) = false) :
      LogsIn env account app page s (answer env request (answered env request s))
        (answered env request (answered env request s))

/-- `loadFresh` calls `followRedirects` with this response in this state. -/
inductive CallsFresh (env : LoaderEnv) (account : CloudOsAccount) (app : LoadedApp)
    (s : LoaderState) : BufferedResponse → LoaderState → Prop
  | home : CallsFresh env account app s (answer env (home app) (after (useJar []) s))
      (answered env (home app) (after (useJar []) s))
  | login {page response : BufferedResponse} {t u : LoaderState}
      (hresolves : Resolves env (answer env (home app) (after (useJar []) s))
        (answered env (home app) (after (useJar []) s)) page t)
      (hpage : isLoginOrErrorPage app page = true) (hlogin : LogsIn env account app page t response u)
      (hfollows : FollowsAfterLogin app response) : CallsFresh env account app s response u

/-- The state in which `loadApp` looks for a transition. -/
def started (env : LoaderEnv) (account : CloudOsAccount) (app : LoadedApp) (s : LoaderState) :
    LoaderState :=
  after (useJar []) (after (registerUser env account app) s)

/-- What the search for a transition ends with, and the state after it. -/
def found (env : LoaderEnv) (account : CloudOsAccount) (app : LoadedApp) (s : LoaderState) :
    Except LoadExn (Option AuthTransition) × LoaderState :=
  exec (redisGet env (getAuthKey account app)) (started env account app s)

/-- **The calls of `loadApp`**: it calls `followRedirects` with this response in this state. -/
inductive Calls (env : LoaderEnv) (account : CloudOsAccount) (app : LoadedApp) (s : LoaderState) :
    BufferedResponse → LoaderState → Prop
  | verify {auth : AuthTransition} {t : LoaderState} (hhttp : getHttpAuth app = none)
      (hfound : found env account app s = (.ok (some auth), t)) :
      Calls env account app s (answer env (home app) (after (useJar auth.cookies) t))
        (answered env (home app) (after (useJar auth.cookies) t))
  | verified {auth : AuthTransition} {page response : BufferedResponse} {t u v w : LoaderState}
      (hhttp : getHttpAuth app = none)
      (hfound : found env account app s = (.ok (some auth), t))
      (hresolves : Resolves env (answer env (home app) (after (useJar auth.cookies) t))
        (answered env (home app) (after (useJar auth.cookies) t)) page u)
      (hpage : (page.isSuccess && !isLoginOrErrorPage app page) = false)
      (hforget : exec (forget env account app auth) u = (.ok ⟨⟩, v))
      (hcalls : CallsFresh env account app v response w) : Calls env account app s response w
  | fresh {x : Except LoadExn (Option AuthTransition)} {response : BufferedResponse}
      {t w : LoaderState} (hhttp : getHttpAuth app = none)
      (hfound : found env account app s = (x, t)) (hnone : ∀ auth, x ≠ .ok (some auth))
      (hcalls : CallsFresh env account app t response w) : Calls env account app s response w

/-! ### Where `loadApp` throws -/

/-- The path of the app has a host. -/
def HasHost (app : LoadedApp) : Prop :=
  (URIUtil.getHost (URIUtil.toUri (withSlash app.path))).isSome

/-- The method throws on a `null` when `P` holds, and otherwise does not, if the path of the app
has a host. -/
def Breaks (app : LoadedApp) (P : Prop) (m : Loader AppRedirect) (s : LoaderState) : Prop :=
  Ends m s fun r _ => (P → r = .error .nullPointer) ∧
    (HasHost app → ¬ P → r ≠ .error .nullPointer)

/-- The method uses no `null`. -/
def NoNull {α : Type} (m : Loader α) : Prop :=
  ∀ s, Ends m s fun r _ => r ≠ .error .nullPointer

theorem NoNull.of_ok {α : Type} {m : Loader α} (h : ∀ s, Ends m s fun r _ => ∃ a, r = .ok a) :
    NoNull m := by
  refine fun s => (h s).mono fun r t hr => ?_
  obtain ⟨a, rfl⟩ := hr
  exact fun h => of_error_eq_ok h.symm

protected theorem NoNull.bind {α β : Type} {m : Loader α} {f : α → Loader β} (h : NoNull m)
    (hf : ∀ a, NoNull (f a)) : NoNull (m >>= f) := by
  intro s
  rw [ends_bind]
  refine (h s).mono fun r t hr => ?_
  cases r with
  | ok a => exact hf a t
  | error e => exact fun he => hr (congrArg Except.error (Except.error.inj he))

theorem noNull_authorize (auth : AuthTransition) : NoNull (authorize env apiKey account app auth) := by
  unfold authorize
  cases getHttpAuth app with
  | none => exact .of_ok fun s => ⟨_, rfl⟩
  | some http_auth =>
    cases http_auth with
    | basic => exact .of_ok fun s => ⟨_, rfl⟩
    | other name => exact fun s h => LoadExn.noConfusion (Except.error.inj h)

theorem noNull_relay (uuid : String) (h : HasHost app) :
    NoNull (relay env (withSlash app.path) uuid) := by
  obtain ⟨host, hhost⟩ := Option.isSome_iff_exists.1 h
  unfold relay
  rw [hhost]
  exact .of_ok fun s => ⟨_, rfl⟩

/-- The redirect to the app uses no `null`, if the path of the app has a host. -/
theorem noNull_sendToApp (location : Option String) (h : HasHost app) :
    NoNull (sendToApp env apiKey account app location) := by
  refine (NoNull.of_ok fun s => ⟨_, rfl⟩).bind fun uuid => ?_
  refine (noNull_authorize _).bind fun auth => (NoNull.of_ok fun s => ⟨_, rfl⟩).bind fun s => ?_
  refine (NoNull.of_ok fun s => ⟨_, rfl⟩).bind fun r => ?_
  cases r with
  | error e => exact .of_ok fun s => ⟨_, rfl⟩
  | ok u => exact noNull_relay _ h

namespace Breaks

variable {P Q : Prop} {m : Loader AppRedirect} {s : LoaderState}

theorem congr (h : Breaks app P m s) (hPQ : P ↔ Q) : Breaks app Q m s := by rwa [← propext hPQ]

theorem of_noNull (h : HasHost app → NoNull m) (hP : ¬ P) : Breaks app P m s :=
  ⟨fun hp => absurd hp hP, fun hhost _ => h hhost s⟩

theorem sendToApp {location : Option String} (hP : ¬ P) :
    Breaks app P (InstalledAppLoader.sendToApp env apiKey account app location) s :=
  of_noNull (noNull_sendToApp location) hP

/-- **A call of `followRedirects`** breaks when the chain is too long, and otherwise where the
method breaks after it. -/
theorem followRedirects {response : BufferedResponse}
    {f : Option BufferedResponse → Loader AppRedirect} {R : Prop}
    (hlong : TooLong env response s → R)
    (hf : ∀ page t, Resolves env response s page t → Breaks app R (f (some page)) t) :
    Breaks app R (InstalledAppLoader.followRedirects env (some response) >>= f) s := by
  unfold Breaks
  rw [ends_bind]
  refine (followRedirects_ends response s).mono fun r t hend => ?_
  obtain ⟨-, ⟨htoo, rfl⟩ | ⟨hnot, page, rfl, hleads⟩⟩ := hend
  · exact ⟨fun _ => rfl, fun _ hR => absurd (hlong htoo) hR⟩
  · exact hf page t ⟨hnot, hleads⟩

end Breaks

theorem isSome_of_patternMatches {pattern : Option (String → Bool)} {location : Option String}
    (h : patternMatches pattern location = true) : pattern.isSome = true := by
  cases pattern with
  | none => exact absurd h Bool.false_ne_true
  | some pattern => rfl

/-- What `afterLogin` needs to follow the redirects. -/
theorem followsAfterLogin_iff {response : BufferedResponse} {appAuth : AppAuthConfig}
    (happ : app.authentication = some appAuth) :
    FollowsAfterLogin app response ↔ response.is3xx = true ∧
      (patternMatches appAuth.registration_redirect response.location = true ∨
        patternMatches appAuth.login_redirect response.location = true) := by
  rw [FollowsAfterLogin, happ]
  simp

theorem afterLogin_breaks (response : BufferedResponse) (s : LoaderState) :
    Breaks app (FollowsAfterLogin app response ∧ TooLong env response s)
      (afterLogin env apiKey account app response) s := by
  unfold afterLogin
  cases happ : app.authentication with
  | none =>
    refine .sendToApp ?_
    rintro ⟨⟨-, appAuth, h, -⟩, -⟩
    exact absurd (happ.symm.trans h) (Option.some_ne_none appAuth).symm
  | some appAuth =>
    have hbreaks : ∀ {f : Option BufferedResponse → Loader AppRedirect},
        FollowsAfterLogin app response →
        (∀ page, HasHost app → NoNull (f (some page))) →
        Breaks app (FollowsAfterLogin app response ∧ TooLong env response s)
          (InstalledAppLoader.followRedirects env (some response) >>= f) s := by
      intro f hfollows hf
      refine .followRedirects (fun hlong => ⟨hfollows, hlong⟩) fun page t hresolves => ?_
      exact .of_noNull (hf page) fun h => hresolves.1 h.2
    dsimp only
    split_ifs with hnames hregister hlogin
    · rw [Bool.and_eq_true] at hnames
      refine hbreaks ((followsAfterLogin_iff happ).2 ⟨hnames.2, Or.inl hregister⟩) fun page hhost => ?_
      dsimp only
      split_ifs
      · exact (NoNull.of_ok fun s => ⟨_, rfl⟩).bind fun _ => noNull_sendToApp _ hhost
      · exact noNull_sendToApp _ hhost
    · rw [Bool.and_eq_true] at hnames
      refine hbreaks ((followsAfterLogin_iff happ).2 ⟨hnames.2, Or.inr hlogin⟩) fun page hhost => ?_
      dsimp only
      split_ifs
      · exact noNull_sendToApp _ hhost
      · exact noNull_sendToApp _ hhost
    · refine .sendToApp fun h => ?_
      exact ((followsAfterLogin_iff happ).1 h.1).2.elim hregister hlogin
    · refine .sendToApp fun h => hnames ?_
      obtain ⟨h3xx, hregister | hlogin⟩ := (followsAfterLogin_iff happ).1 h.1
      · simp [h3xx, isSome_of_patternMatches hregister]
      · simp [h3xx, isSome_of_patternMatches hlogin]

/-- A login is answered once, or twice. -/
theorem logsIn_iff {page response : BufferedResponse} {request : HttpRequestBean}
    {s t : LoaderState} (hrequest : app.buildLoginRequest account page = some request) :
    LogsIn env account app page s response t ↔
      ((!(answer env request s).isSuccess || isLoginOrErrorPage app (answer env request s)) = false ∧
        response = answer env request s ∧ t = answered env request s) ∨
      ((!(answer env request s).isSuccess || isLoginOrErrorPage app (answer env request s)) = true ∧
        s.cookieJar.length ≠ (answered env request s).cookieJar.length ∧
        (!(answer env request (answered env request s)).isSuccess ||
          app.isLoginPage (answer env request (answered env request s)).document) = false ∧
        response = answer env request (answered env request s) ∧
        t = answered env request (answered env request s)) := by
  constructor
  · intro h
    cases h with
    | first h hgood =>
      obtain rfl := Option.some.inj (hrequest.symm.trans h)
      exact Or.inl ⟨hgood, rfl, rfl⟩
    | again h hbad hcookies hgood =>
      obtain rfl := Option.some.inj (hrequest.symm.trans h)
      exact Or.inr ⟨hbad, hcookies, hgood, rfl, rfl⟩
  · rintro (⟨hgood, rfl, rfl⟩ | ⟨hbad, hcookies, hgood, rfl, rfl⟩)
    · exact .first hrequest hgood
    · exact .again hrequest hbad hcookies hgood

/-- The calls after the login of a page. -/
theorem attemptLogin_breaks (page : BufferedResponse) (s : LoaderState) :
    Breaks app (∃ response t, LogsIn env account app page s response t ∧
        FollowsAfterLogin app response ∧ TooLong env response t)
      (attemptLogin env apiKey account app page) s := by
  unfold attemptLogin
  unfold Breaks
  simp only [ends_bind, ends_get]
  cases hrequest : app.buildLoginRequest account page with
  | none =>
    refine Breaks.sendToApp ?_
    rintro ⟨response, t, h, -⟩
    cases h with
    | first h => exact absurd (hrequest.symm.trans h) (Option.some_ne_none _).symm
    | again h => exact absurd (hrequest.symm.trans h) (Option.some_ne_none _).symm
  | some request =>
    simp only [logsIn_iff hrequest, ends_bind, ends_proxyResponse]
    split_ifs with hbad
    · simp only [ends_bind, ends_get]
      by_cases hcookies : s.cookieJar.length ≠ (answered env request s).cookieJar.length
      · rw [if_pos hcookies, ends_bind, ends_proxyResponse]
        dsimp only
        split_ifs with hagain
        · refine Breaks.sendToApp ?_
          rintro ⟨response, t, ⟨hgood, -⟩ | ⟨-, -, hgood, -⟩, -⟩
          · exact Bool.noConfusion (hbad.symm.trans hgood)
          · exact Bool.noConfusion (hagain.symm.trans hgood)
        · rw [Bool.not_eq_true] at hagain
          refine (afterLogin_breaks _ _).congr ⟨fun h => ⟨_, _, Or.inr ⟨hbad, hcookies, hagain, rfl, rfl⟩, h⟩, ?_⟩
          rintro ⟨response, t, ⟨hgood, -⟩ | ⟨-, -, -, rfl, rfl⟩, h⟩
          · exact Bool.noConfusion (hbad.symm.trans hgood)
          · exact h
      · rw [if_neg hcookies]
        refine Breaks.sendToApp ?_
        rintro ⟨response, t, ⟨hgood, -⟩ | ⟨-, hnew, -⟩, -⟩
        · exact Bool.noConfusion (hbad.symm.trans hgood)
        · exact hcookies hnew
    · rw [Bool.not_eq_true] at hbad
      refine (afterLogin_breaks _ _).congr ⟨fun h => ⟨_, _, Or.inl ⟨hbad, rfl, rfl⟩, h⟩, ?_⟩
      rintro ⟨response, t, ⟨-, rfl, rfl⟩ | ⟨hgood, -⟩, h⟩
      · exact h
      · exact Bool.noConfusion (hbad.symm.trans hgood)

/-- A loaded page is looked at: what comes before it is the chain of the home page. -/
theorem Breaks.loadHome {P : Prop} {jar : CookieJar} {f : BufferedResponse → Loader AppRedirect}
    {s : LoaderState}
    (hlong : TooLong env (answer env (home app) (after (useJar jar) s))
      (answered env (home app) (after (useJar jar) s)) → P)
    (hf : ∀ page t, Resolves env (answer env (home app) (after (useJar jar) s))
      (answered env (home app) (after (useJar jar) s)) page t → Breaks app P (f page) t) :
    Breaks app P (do
      useJar jar
      let response ← proxyResponse env (home app)
      let response ← deref (← InstalledAppLoader.followRedirects env (some response))
      f response) s := by
  refine (?_ : Breaks app P (InstalledAppLoader.followRedirects env (some (answer env (home app)
    (after (useJar jar) s))) >>= fun response => deref response >>= f)
      (answered env (home app) (after (useJar jar) s)))
  exact .followRedirects hlong fun page t hresolves => hf page t hresolves

/-- The redirects of a response lead to one page. -/
theorem Leads.unique {response page page' : BufferedResponse} {s t t' : LoaderState}
    (h : Leads env response s page t) (h' : Leads env response s page' t') :
    page = page' ∧ t = t' := by
  induction h with
  | stop hnone =>
    cases h' with
    | stop => exact ⟨rfl, rfl⟩
    | step hsome => exact absurd (hnone.symm.trans hsome) (Option.some_ne_none _).symm
  | step hsome _ ih =>
    cases h' with
    | stop hnone => exact absurd (hnone.symm.trans hsome) (Option.some_ne_none _).symm
    | step hsome' hnext' =>
      obtain rfl := Option.some.inj (hsome.symm.trans hsome')
      exact ih hnext'

/-- The calls of `loadFresh`. -/
theorem loadFresh_breaks (s : LoaderState) :
    Breaks app (∃ response t, CallsFresh env account app s response t ∧ TooLong env response t)
      (loadFresh env apiKey account app) s := by
  refine Breaks.loadHome (fun hlong => ⟨_, _, .home, hlong⟩) fun page t hresolves => ?_
  have hcalls : (∃ response u, CallsFresh env account app s response u ∧ TooLong env response u) ↔
      isLoginOrErrorPage app page = true ∧ ∃ response u, LogsIn env account app page t response u ∧
        FollowsAfterLogin app response ∧ TooLong env response u := by
    constructor
    · rintro ⟨response, u, h, hlong⟩
      cases h with
      | home => exact absurd hlong hresolves.1
      | login hresolves' hpage hlogin hfollows =>
        obtain ⟨rfl, rfl⟩ := hresolves.2.unique hresolves'.2
        exact ⟨hpage, response, u, hlogin, hfollows, hlong⟩
    · rintro ⟨hpage, response, u, hlogin, hfollows, hlong⟩
      exact ⟨response, u, .login hresolves hpage hlogin hfollows, hlong⟩
  rw [hcalls]
  split_ifs with hpage
  · rw [Bool.not_eq_true'] at hpage
    exact .sendToApp fun h => Bool.noConfusion (hpage.symm.trans h.1)
  · rw [Bool.not_eq_true', Bool.not_eq_false] at hpage
    exact (attemptLogin_breaks page t).congr (and_iff_right hpage).symm

theorem noNull_redisDel (key : String) : NoNull (redisDel env key) := by
  refine NoNull.bind (fun s => ?_) fun _ => .of_ok fun s => ⟨_, rfl⟩
  simp only [InstalledAppLoader.call, ends_bind, ends_get, ends_modify]
  split_ifs
  · exact fun h => LoadExn.noConfusion (Except.error.inj h)
  · exact fun h => of_error_eq_ok h.symm

/-- The calls of `verify`, and those of `loadFresh` after it. -/
theorem verify_breaks (auth : AuthTransition) (s : LoaderState) :
    Breaks app
      (TooLong env (answer env (home app) (after (useJar auth.cookies) s))
          (answered env (home app) (after (useJar auth.cookies) s)) ∨
        ∃ page u v, Resolves env (answer env (home app) (after (useJar auth.cookies) s))
            (answered env (home app) (after (useJar auth.cookies) s)) page u ∧
          (page.isSuccess && !isLoginOrErrorPage app page) = false ∧
          exec (forget env account app auth) u = (.ok ⟨⟩, v) ∧
          ∃ response w, CallsFresh env account app v response w ∧ TooLong env response w)
      (verify env apiKey account app auth) s := by
  refine Breaks.loadHome Or.inl fun page t hresolves => ?_
  split_ifs with hpage
  · refine .sendToApp ?_
    rintro (hlong | ⟨page', u, v, hresolves', hbad, -⟩)
    · exact hresolves.1 hlong
    · obtain ⟨rfl, rfl⟩ := hresolves.2.unique hresolves'.2
      exact Bool.noConfusion (hpage.symm.trans hbad)
  · rw [Bool.not_eq_true] at hpage
    have hforget : NoNull (forget env account app auth) :=
      (noNull_redisDel _).bind fun _ => noNull_redisDel _
    unfold Breaks
    rw [ends_bind]
    refine ((ends_exec _ t).and (hforget t)).mono fun r v hend => ?_
    obtain ⟨hexec, hnull⟩ := hend
    cases r with
    | error e =>
      refine ⟨?_, fun _ _ h => hnull (congrArg Except.error (Except.error.inj h))⟩
      rintro (hlong | ⟨page', u, v', hresolves', -, hok, -⟩)
      · exact absurd hlong hresolves.1
      · obtain ⟨rfl, rfl⟩ := hresolves.2.unique hresolves'.2
        exact of_error_eq_ok (Prod.mk.inj (hexec.symm.trans hok)).1
    | ok x =>
      refine Breaks.congr (loadFresh_breaks v) ⟨?_, ?_⟩
      · exact fun h => Or.inr ⟨page, t, v, hresolves, hpage, hexec, h⟩
      · rintro (hlong | ⟨page', u, v', hresolves', -, hok, h⟩)
        · exact absurd hlong hresolves.1
        · obtain ⟨rfl, rfl⟩ := hresolves.2.unique hresolves'.2
          obtain rfl := (Prod.mk.inj (hexec.symm.trans hok)).2
          exact h

/-- What fails when an account is registered is logged. -/
theorem registerUser_ends (s : LoaderState) : Ends (registerUser env account app) s fun r t =>
    r = .ok ⟨⟩ ∧ t = after (registerUser env account app) s := by
  refine ⟨?_, rfl⟩
  unfold registerUser
  split_ifs <;> rfl

/-- **Where `loadApp` throws on a `null`**: at its calls of `followRedirects` that meet a chain
that is too long. -/
theorem loadApp_breaks (s : LoaderState) :
    Breaks app (∃ response t, Calls env account app s response t ∧ TooLong env response t)
      (loadApp env apiKey account app) s := by
  unfold loadApp Breaks
  rw [ends_bind]
  refine (registerUser_ends s).mono fun r u hend => ?_
  obtain ⟨rfl, rfl⟩ := hend
  refine (show Breaks app _ (ite _ _ _) (started env account app s) from ?_)
  cases hhttp : getHttpAuth app with
  | some http_auth =>
    refine Breaks.sendToApp ?_
    rintro ⟨response, t, h, -⟩
    have hnone : getHttpAuth app = none := by cases h <;> assumption
    exact absurd (hhttp.symm.trans hnone) (Option.some_ne_none http_auth)
  | none =>
    rw [Option.isSome_none, if_neg Bool.false_ne_true]
    unfold Breaks
    rw [ends_bind, ends_attempt]
    refine (ends_exec _ _).mono fun x t hfound => ?_
    replace hfound : found env account app s = (x, t) := hfound
    have hfresh : (∀ auth, x ≠ .ok (some auth)) → Breaks app
        (∃ response t, Calls env account app s response t ∧ TooLong env response t)
        (loadFresh env apiKey account app) t := by
      intro hnone
      refine (loadFresh_breaks t).congr ⟨?_, ?_⟩
      · rintro ⟨response, u, hcalls, hlong⟩
        exact ⟨response, u, .fresh hhttp hfound hnone hcalls, hlong⟩
      · rintro ⟨response, u, hcalls, hlong⟩
        cases hcalls with
        | verify _ hfound' => exact absurd (Prod.mk.inj (hfound.symm.trans hfound')).1 (hnone _)
        | verified _ hfound' => exact absurd (Prod.mk.inj (hfound.symm.trans hfound')).1 (hnone _)
        | fresh _ hfound' _ hcalls =>
          obtain rfl := (Prod.mk.inj (hfound.symm.trans hfound')).2
          exact ⟨response, u, hcalls, hlong⟩
    rcases x with e | _ | auth
    · exact hfresh fun auth h => of_error_eq_ok h
    · exact hfresh fun auth h => absurd (Except.ok.inj h) (Option.some_ne_none auth).symm
    · refine (verify_breaks auth t).congr ⟨?_, ?_⟩
      · rintro (hlong | ⟨page, u, v, hresolves, hpage, hforget, response, w, hcalls, hlong⟩)
        · exact ⟨_, _, .verify hhttp hfound, hlong⟩
        · exact ⟨response, w, .verified hhttp hfound hresolves hpage hforget hcalls, hlong⟩
      · rintro ⟨response, u, hcalls, hlong⟩
        cases hcalls with
        | verify _ hfound' =>
          obtain ⟨hauth, rfl⟩ := Prod.mk.inj (hfound.symm.trans hfound')
          obtain rfl := Option.some.inj (Except.ok.inj hauth)
          exact Or.inl hlong
        | verified _ hfound' hresolves hpage hforget hcalls =>
          obtain ⟨hauth, rfl⟩ := Prod.mk.inj (hfound.symm.trans hfound')
          obtain rfl := Option.some.inj (Except.ok.inj hauth)
          exact Or.inr ⟨_, _, _, hresolves, hpage, hforget, response, u, hcalls, hlong⟩
        | fresh _ hfound' hnone =>
          exact absurd (Prod.mk.inj (hfound.symm.trans hfound')).1.symm (hnone auth)

/-- The calls are all there are: nothing else is used without a check for `null`. -/
theorem loadApp_null_iff (hhost : HasHost app) (s : LoaderState) :
    Ends (loadApp env apiKey account app) s fun r _ => r = .error .nullPointer ↔
      ∃ response t, Calls env account app s response t ∧ TooLong env response t := by
  refine (loadApp_breaks s).mono fun r t hend => ⟨fun hr => ?_, hend.1⟩
  by_contra hnot
  exact hend.2 hhost hnot hr

/-- `loadApp` ends with the redirect to the main page of the app. -/
def SentToMainPage (env : LoaderEnv) (apiKey : String) (account : CloudOsAccount) (app : LoadedApp)
    (r : Except LoadExn AppRedirect) (t : LoaderState) : Prop :=
  ∃ s response, r = .ok response ∧ exec (sendToApp env apiKey account app none) s = (r, t)

/-- What `loadApp` is meant to do with a chain that is too long, at each of its calls. -/
def LoadsGracefully (env : LoaderEnv) (apiKey : String) (account : CloudOsAccount) (app : LoadedApp)
    (s : LoaderState) : Prop :=
  ∀ response t, Calls env account app s response t → TooLong env response t →
    Ends (loadApp env apiKey account app) s (SentToMainPage env apiKey account app)

theorem loadsGracefully_iff (s : LoaderState) : LoadsGracefully env apiKey account app s ↔
    ∀ response t, Calls env account app s response t → ¬ TooLong env response t := by
  constructor
  · intro h response t hcalls hlong
    have hnull := (@loadApp_breaks env apiKey account app s).1 ⟨response, t, hcalls, hlong⟩
    obtain ⟨-, answer, hok, -⟩ := h response t hcalls hlong
    exact of_error_eq_ok (hnull.symm.trans hok)
  · exact fun h response t hcalls hlong => absurd hlong (h response t hcalls)

/-- **Bounded, and graceful when nothing is too long.**  `followRedirects` returns the first
response that is no redirect, or `null`, after a bounded number of requests, exactly when the
chain is not too long; and `loadApp` leads to the main page at each call that meets a chain that
is too long exactly when no call meets one. -/
theorem redirects_graceful_iff (env : LoaderEnv) (apiKey : String) (account : CloudOsAccount)
    (app : LoadedApp) :
    (∀ response s, FollowsGracefully env response s ↔
      ∀ first, response = some first → ¬ TooLong env first s) ∧
    ∀ s, LoadsGracefully env apiKey account app s ↔
      ∀ response t, Calls env account app s response t → ¬ TooLong env response t :=
  ⟨followsGracefully_iff, loadsGracefully_iff⟩

/-- A redirect to itself. -/
def loop : BufferedResponse where
  requestUri := "http://127.0.0.1:3000/"
  isSuccess := false
  is3xx := true
  redirectUri := some "http://127.0.0.1:3000/"
  location := some "http://127.0.0.1:3000/"
  document := ""

/-- A server with an app that always answers the same. -/
def answering (response : BufferedResponse) : LoaderEnv where
  hostname := "cloud.example.com"
  publicUriBase := "https://cloud.example.com"
  proxyResponse := fun _ _ jar => (response, jar)
  fails := fun _ => false
  results := fun _ => true
  randomUUID := fun _ => "uuid"
  addCookie := fun jar cookie => cookie :: jar
  urlEncode := id
  encodeBase64String := id

def blog : LoadedApp where
  name := "blog"
  path := "http://127.0.0.1:3000/"
  authentication := none
  registersUsers := false
  isLoginPage := fun _ => false
  isErrorPage := fun _ => false
  isRegistrationPage := fun _ => false
  buildLoginRequest := fun _ _ => none
  buildRegistrationRequest := fun _ _ => { uri := "http://127.0.0.1:3000/register" }

theorem isChain_loop (n : ℕ) (s : LoaderState) : IsChain (answering loop) n loop s := by
  induction n generalizing s with
  | zero => rfl
  | succ n ih => exact ⟨_, rfl, ih _⟩

/-- **A loop of redirects.**  `followRedirects` throws, and so does `loadApp`, which is to open the
main page of the app. -/
theorem redirects_throw : ¬ FollowsGracefully (answering loop) (some loop) {} ∧
    ¬ LoadsGracefully (answering loop) "key" ⟨"alice", "secret", false⟩ blog {} := by
  refine ⟨fun h => ?_, fun h => ?_⟩
  · exact (followsGracefully_iff _ _).1 h loop rfl (isChain_loop _ _)
  · refine (loadsGracefully_iff _).1 h loop _ (.fresh rfl rfl ?_ .home) (isChain_loop _ _)
    exact fun auth hauth => absurd (Except.ok.inj hauth) (Option.some_ne_none auth).symm

end Redirects

end CloudOs
