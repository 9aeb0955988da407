/-
# `AppAdapter`

An app is opened in two steps, and between them the browser holds nothing but a UUID.

| request | what it does |
| --- | --- |
| `load/{app}` | logs in to the app for the account of a session, stores what the app answers as an `AuthTransition` under a new UUID and under the account and the app, and redirects to the relay |
| `auth/{uuid}` | gives the stored cookies to the browser, for all paths, and redirects to the app |
| `filter/{app}/{uri}` | passes a request on to the app, and filters its page |

Loads of other accounts and apps, relays, and keys that redis lets expire come in between.  A relay
gives what the load has stored that its UUID comes from, or nothing (`relay_of_load`); and what is
stored has the credentials of the load that stored it (`carries_of_stored`).
-/

import CloudOs.Apps.Redirects
import CloudOs.Lib.Runs

namespace CloudOs

open Prog InstalledAppLoader

/-- The answer to a request; a redirect can set cookies. -/
inductive AdapterResponse
  | forbidden
  | notFound
  | serverError
  | temporaryRedirect (uri : String) (setCookies : CookieJar)

/-- What comes to the server: a load, with what the session and the name of the app stand for, a
relay, or a key that redis lets expire. -/
inductive AdapterEvent
  | load (apiKey : String) (account : Option CloudOsAccount)
      (app : Except LoadExn (Option LoadedApp))
  | relay (uuid : String)
  | expire (key : String)

namespace AppAdapter

variable (env : LoaderEnv)

/-- `loadApp`, for what `sessionDAO.find` and `findAppRuntime` give. -/
def load (apiKey : String) (account : Option CloudOsAccount)
    (app : Except LoadExn (Option LoadedApp)) : Loader AdapterResponse :=
  match account, app with
  | none, _ => return .forbidden
  | some _, .error _ => return .serverError
  | some _, .ok none => return .notFound
  | some account, .ok (some app) => do
    match ← attempt (loadApp env apiKey account app) with
    | .error _ => return .serverError
    | .ok .serverError => return .serverError
    | .ok (.temporaryRedirect uri) => return .temporaryRedirect uri []

/-- `setPath("/")`: all cookies get sent. -/
def atRoot (cookie : HttpCookieBean) : HttpCookieBean := { cookie with path := some "/" }

/-- `authRelay`; `parsesNull` says whether `JsonUtil.fromJson` gives `null` for `null`, or throws. -/
def authRelay (parsesNull : Bool) (uuid : String) : Loader AdapterResponse := do
  match ← attempt (redisGet env uuid) with
  | .ok (some auth) => return .temporaryRedirect auth.redirectUri (auth.cookies.map atRoot)
  | .ok none =>
    if parsesNull then throw .nullPointer
    else
      redisDel env uuid
      return .temporaryRedirect env.publicUriBase []
  | .error _ =>
    redisDel env uuid
    return .temporaryRedirect env.publicUriBase []

/-- The server after an event. -/
def step (parsesNull : Bool) (s : LoaderState) : AdapterEvent → LoaderState
  | .load apiKey account app => after (load env apiKey account app) s
  | .relay uuid => after (authRelay env parsesNull uuid) s
  | .expire key => { s with redis := Function.update s.redis key none }

/-! ### What is added to redis -/

/-- From the call `n` on, redis gets nothing but what `P` allows. -/
def Adds (n : ℕ) (P : String → AuthTransition → Prop) (s t : LoaderState) : Prop :=
  n ≤ s.calls → s.calls ≤ t.calls ∧
    ∀ key auth, t.redis key = some auth → s.redis key = some auth ∨ P key auth

section Adds

variable {n : ℕ} {P : String → AuthTransition → Prop}

instance addsRefl : Std.Refl (Adds n P) := ⟨fun _ _ => ⟨le_rfl, fun _ _ h => Or.inl h⟩⟩

instance addsTrans : IsTrans LoaderState (Adds n P) := by
  refine ⟨fun s t u hst htu hn => ?_⟩
  obtain ⟨hle, hadds⟩ := hst hn
  obtain ⟨hle', hadds'⟩ := htu (hn.trans hle)
  refine ⟨hle.trans hle', fun key auth hauth => ?_⟩
  exact (hadds' key auth hauth).elim (hadds key auth) Or.inr

variable {env}

theorem adds_call : Respects (Adds n P) (InstalledAppLoader.call env) := by
  intro s
  simp only [InstalledAppLoader.call, ends_bind, ends_get, ends_modify]
  split_ifs
  all_goals exact fun _ => ⟨Nat.le_succ _, fun _ _ h => Or.inl h⟩

theorem adds_redisGet (key : String) : Respects (Adds n P) (redisGet env key) :=
  adds_call.bind fun _ => Respects.get.bind fun _ => Respects.pure _

theorem adds_redisDel (key : String) : Respects (Adds n P) (redisDel env key) := by
  refine adds_call.bind fun _ => Respects.modify fun s _ => ⟨le_rfl, fun k auth h => Or.inl ?_⟩
  dsimp only at h
  rw [Function.update_apply] at h
  split_ifs at h
  exact h

theorem adds_redisSet {key : String} {auth : AuthTransition} (hP : P key auth) :
    Respects (Adds n P) (redisSet env key auth) := by
  refine adds_call.bind fun _ => Respects.modify fun s _ => ⟨le_rfl, fun k auth' h => ?_⟩
  dsimp only at h
  rw [Function.update_apply] at h
  split_ifs at h with hk
  · rw [Option.or_eq_some_iff] at h
    rcases h with h | ⟨-, h⟩
    · exact Or.inl (hk ▸ h)
    · obtain rfl := Option.some.inj h
      exact Or.inr (hk ▸ hP)
  · exact Or.inl h

theorem adds_storeTransition {key : String} {auth : AuthTransition} (huuid : P auth.uuid auth)
    (hkey : P key auth) : Respects (Adds n P) (storeTransition env key auth) :=
  (adds_redisDel _).bind fun _ => (adds_redisSet huuid).bind fun _ =>
    (adds_redisDel _).bind fun _ => adds_redisSet hkey

theorem adds_proxyResponse (request : HttpRequestBean) :
    Respects (Adds n P) (proxyResponse env request) := fun _ _ =>
  ⟨le_rfl, fun _ _ h => Or.inl h⟩

theorem adds_followFrom (left : ℕ) (response : BufferedResponse) :
    Respects (Adds n P) (followFrom env left response) := by
  induction left generalizing response with
  | zero =>
    unfold followFrom
    split
    · exact Respects.pure _
    · exact (adds_proxyResponse _).bind fun _ => Respects.throw _
  | succ left ih =>
    unfold followFrom
    split
    · exact Respects.pure _
    · exact (adds_proxyResponse _).bind fun response => ih response

theorem adds_followRedirects (response : Option BufferedResponse) :
    Respects (Adds n P) (followRedirects env response) := by
  cases response with
  | none => exact Respects.pure _
  | some response => exact adds_followFrom _ _

theorem adds_deref {α : Type} (a : Option α) : Respects (Adds n P) (deref a) := by
  cases a with
  | none => exact Respects.throw _
  | some a => exact Respects.pure _

theorem adds_useJar (jar : CookieJar) : Respects (Adds n P) (useJar jar) :=
  fun _ _ => ⟨le_rfl, fun _ _ h => Or.inl h⟩

theorem adds_request (script : UserScript) : Respects (Adds n P) (request env script) :=
  Respects.get.bind fun _ => Respects.bind (fun _ _ => ⟨le_rfl, fun _ _ h => Or.inl h⟩) fun _ =>
    adds_call.bind fun _ => Respects.pure _

theorem adds_registerUser (account : CloudOsAccount) (app : LoadedApp) :
    Respects (Adds n P) (registerUser env account app) := by
  unfold registerUser
  split_ifs
  · refine Respects.bind (Respects.attempt ?_) fun _ => Respects.pure _
    refine (adds_request _).bind fun exists_ => ?_
    split_ifs
    · exact (adds_request _).bind fun _ => Respects.pure _
    · exact Respects.pure _
  · exact Respects.pure _

end Adds

/-! ### What a load stores -/

section Load

variable {env} {apiKey : String} {account : CloudOsAccount} {app : LoadedApp} {n : ℕ}

/-- A transition carries the credentials of the account where the app has HTTP authentication, and
none where it has not. -/
def Carries (env : LoaderEnv) (apiKey : String) (account : CloudOsAccount) (app : LoadedApp)
    (auth : AuthTransition) : Prop :=
  match getHttpAuth app with
  | none => auth.sessionId = none ∧ auth.authHeaderValue = none
  | some _ => auth.sessionId = some apiKey ∧ auth.authHeaderValue = some (env.urlEncode
      ("Basic " ++ env.encodeBase64String (account.name ++ ":" ++ account.password)))

/-- A load for the account stores the transition under the key, from the call `n` on. -/
structure Stored (env : LoaderEnv) (apiKey : String) (account : CloudOsAccount) (app : LoadedApp)
    (n : ℕ) (key : String) (auth : AuthTransition) : Prop where
  carries : Carries env apiKey account app auth
  fresh : ∃ k, n ≤ k ∧ auth.uuid = env.randomUUID k
  key : key = auth.uuid ∨ key = getAuthKey account app

/-- The redirect to the relay of a transition that is stored. -/
def Redirects (env : LoaderEnv) (apiKey : String) (account : CloudOsAccount) (app : LoadedApp)
    (n : ℕ) (uri : String) (t : LoaderState) : Prop :=
  ∃ auth base, Stored env apiKey account app n auth.uuid auth ∧
    uri = withSlash base ++ "__cloudos__/api/app/auth/" ++ auth.uuid ∧
    t.redis auth.uuid = some auth ∧ ∃ k < t.calls, auth.uuid = env.randomUUID k

/-- The method stores what a load stores, and redirects to the relay of it when it redirects. -/
def Sends (env : LoaderEnv) (apiKey : String) (account : CloudOsAccount) (app : LoadedApp)
    (m : Loader AppRedirect) : Prop :=
  ∀ n s, n ≤ s.calls → Ends m s fun r t => Adds n (Stored env apiKey account app n) s t ∧
    ∀ uri, r = .ok (.temporaryRedirect uri) → Redirects env apiKey account app n uri t

theorem Sends.bind {α : Type} {m : Loader α} {f : α → Loader AppRedirect}
    (hm : ∀ n P, Respects (Adds n P) m) (hf : ∀ a, Sends env apiKey account app (f a)) :
    Sends env apiKey account app (m >>= f) := by
  intro n s hn
  rw [ends_bind]
  refine (hm n (Stored env apiKey account app n) s).mono fun r t hadds => ?_
  cases r with
  | error e => exact ⟨hadds, fun uri h => of_error_eq_ok h⟩
  | ok a =>
    refine (hf a n t (hn.trans (hadds hn).1)).mono fun r u hu => ?_
    exact ⟨trans_of (Adds n _) hadds hu.1, hu.2⟩

/-- The credentials are put into the transition. -/
theorem authorize_ends (auth : AuthTransition) (hauth : auth.sessionId = none)
    (hheader : auth.authHeaderValue = none) (s : LoaderState) :
    Ends (authorize env apiKey account app auth) s fun r t =>
      t.calls = s.calls ∧ t.redis = s.redis ∧ ∀ auth', r = .ok auth' →
        auth'.uuid = auth.uuid ∧ Carries env apiKey account app auth' := by
  unfold authorize Carries
  cases getHttpAuth app with
  | none =>
    refine ⟨rfl, rfl, fun auth' h => ?_⟩
    obtain rfl := Except.ok.inj h
    exact ⟨rfl, hauth, hheader⟩
  | some http_auth =>
    cases http_auth with
    | basic =>
      refine ⟨rfl, rfl, fun auth' h => ?_⟩
      obtain rfl := Except.ok.inj h
      exact ⟨rfl, rfl, rfl⟩
    | other name => exact ⟨rfl, rfl, fun auth' h => of_error_eq_ok h⟩

theorem redisDel_ends (key : String) (s : LoaderState) : Ends (redisDel env key) s fun r t =>
    (∃ e, r = .error e) ∨ (r = .ok ⟨⟩ ∧ t.redis = Function.update s.redis key none) := by
  simp only [redisDel, InstalledAppLoader.call, ends_bind, ends_get, ends_modify]
  split_ifs
  · exact Or.inl ⟨_, rfl⟩
  · exact Or.inr ⟨trivial, rfl⟩

theorem redisSet_ends (key : String) (auth : AuthTransition) (s : LoaderState) :
    Ends (redisSet env key auth) s fun r t => (∃ e, r = .error e) ∨
      (r = .ok ⟨⟩ ∧ t.redis = Function.update s.redis key ((s.redis key).or (some auth))) := by
  simp only [redisSet, InstalledAppLoader.call, ends_bind, ends_get, ends_modify]
  split_ifs
  · exact Or.inl ⟨_, rfl⟩
  · exact Or.inr ⟨trivial, rfl⟩

/-- A key that is deleted and set. -/
theorem replace_ends (key : String) (auth : AuthTransition) (s : LoaderState) :
    Ends (redisDel env key >>= fun _ => redisSet env key auth) s fun r t =>
      r = .ok ⟨⟩ → t.redis = Function.update s.redis key (some auth) := by
  rw [ends_bind]
  refine (redisDel_ends key s).mono fun r t ht => ?_
  rcases ht with ⟨e, rfl⟩ | ⟨rfl, ht⟩
  · exact fun h => of_error_eq_ok h
  · refine (redisSet_ends key auth t).mono fun r u hu => ?_
    rcases hu with ⟨e, rfl⟩ | ⟨rfl, hu⟩
    · exact fun h => of_error_eq_ok h
    · rw [hu, ht, Function.update_self, Option.none_or, Function.update_idem]
      exact fun _ => rfl

theorem storeTransition_ends (key : String) (auth : AuthTransition) (s : LoaderState) :
    Ends (storeTransition env key auth) s fun r t => r = .ok ⟨⟩ → t.redis auth.uuid = some auth := by
  have hsplit : storeTransition env key auth =
      (redisDel env auth.uuid >>= fun _ => redisSet env auth.uuid auth) >>= fun _ =>
        redisDel env key >>= fun _ => redisSet env key auth := (bind_assoc _ _ _).symm
  rw [hsplit, ends_bind]
  refine (replace_ends auth.uuid auth s).mono fun r t ht => ?_
  cases r with
  | error e => exact fun h => of_error_eq_ok h
  | ok _ =>
    refine (replace_ends key auth t).mono fun r u hu hr => ?_
    rw [hu hr, ht rfl, Function.update_apply]
    split_ifs
    · rfl
    · exact Function.update_self _ _ _

theorem relay_ends (path uuid : String) (s : LoaderState) :
    Ends (relay env path uuid) s fun r t => t = s ∧ ∀ uri, r = .ok (.temporaryRedirect uri) →
      ∃ base, uri = withSlash base ++ "__cloudos__/api/app/auth/" ++ uuid := by
  unfold relay
  cases URIUtil.getHost (URIUtil.toUri path) with
  | none => exact ⟨rfl, fun uri h => of_error_eq_ok h⟩
  | some host =>
    refine ⟨rfl, fun uri h => ?_⟩
    exact ⟨_, (AppRedirect.temporaryRedirect.inj (Except.ok.inj h)).symm⟩

/-- **The end of every load**: a new transition is stored, and the redirect leads to its relay. -/
theorem sends_sendToApp (location : Option String) :
    Sends env apiKey account app (sendToApp env apiKey account app location) := by
  intro n s hn
  unfold sendToApp
  simp only [randomUUID, ends_bind, ends_get, ends_modify, ends_pure]
  refine (authorize_ends _ rfl rfl _).mono fun r t ht => ?_
  obtain ⟨hcalls, hredis, hauth⟩ := ht
  have hcalls : s.calls < t.calls := hcalls ▸ Nat.lt_succ_self _
  have hsame : Adds n (Stored env apiKey account app n) s t := fun _ =>
    ⟨hcalls.le, fun key auth h => Or.inl (hredis ▸ h)⟩
  cases r with
  | error e => exact ⟨hsame, fun uri h => of_error_eq_ok h⟩
  | ok auth =>
    obtain ⟨huuid, hcarries⟩ := hauth auth rfl
    have hfresh : ∃ k, n ≤ k ∧ auth.uuid = env.randomUUID k := ⟨s.calls, hn, huuid⟩
    dsimp only
    simp only [ends_attempt]
    generalize hwith : ({ auth with cookies := t.cookieJar } : AuthTransition) = auth'
    have hstored : ∀ key, key = auth'.uuid ∨ key = getAuthKey account app →
        Stored env apiKey account app n key auth' := fun key hkey => by
      subst hwith
      exact ⟨hcarries, hfresh, hkey⟩
    have hadds : Respects (Adds n _) (storeTransition env (getAuthKey account app) auth') :=
      adds_storeTransition (hstored _ (Or.inl rfl)) (hstored _ (Or.inr rfl))
    refine ((hadds t).and (storeTransition_ends _ auth' t)).mono fun r u hu => ?_
    have hboth : Adds n (Stored env apiKey account app n) s u := trans_of (Adds n _) hsame hu.1
    cases r with
    | error e => exact ⟨hboth, fun uri h => AppRedirect.noConfusion (Except.ok.inj h)⟩
    | ok _ =>
      have hsame : auth.uuid = auth'.uuid := by rw [← hwith]
      dsimp only
      rw [hsame]
      refine (relay_ends (withSlash app.path) auth'.uuid u).mono fun r v hv => ?_
      obtain ⟨rfl, hrelay⟩ := hv
      refine ⟨hboth, fun uri hr => ?_⟩
      obtain ⟨base, rfl⟩ := hrelay uri hr
      refine ⟨auth', base, hstored _ (Or.inl rfl), rfl, hu.2 rfl, s.calls, ?_, ?_⟩
      · exact hcalls.trans_le (hu.1 (hn.trans hcalls.le)).1
      · exact hsame.symm.trans huuid

/-! ### Every way through a load -/

theorem sends_afterLogin (response : BufferedResponse) :
    Sends env apiKey account app (afterLogin env apiKey account app response) := by
  unfold afterLogin
  split
  · exact sends_sendToApp _
  · split_ifs
    · refine Sends.bind (fun n P => adds_followRedirects _) fun resolved => ?_
      split
      · exact sends_sendToApp _
      · split_ifs
        · exact Sends.bind (fun n P => (adds_proxyResponse _).bind fun _ => Respects.pure _)
            fun _ => sends_sendToApp _
        · exact sends_sendToApp _
    · refine Sends.bind (fun n P => adds_followRedirects _) fun resolved => ?_
      split
      · exact sends_sendToApp _
      · split_ifs
        · exact sends_sendToApp _
        · exact sends_sendToApp _
    · exact sends_sendToApp _
    · exact sends_sendToApp _

theorem sends_attemptLogin (response : BufferedResponse) :
    Sends env apiKey account app (attemptLogin env apiKey account app response) := by
  unfold attemptLogin
  refine Sends.bind (fun n P => Respects.get) fun before => ?_
  split
  · exact sends_sendToApp _
  · refine Sends.bind (fun n P => adds_proxyResponse _) fun response => ?_
    split_ifs
    · refine Sends.bind (fun n P => Respects.get) fun now => ?_
      split_ifs
      · refine Sends.bind (fun n P => adds_proxyResponse _) fun again => ?_
        split_ifs
        · exact sends_sendToApp _
        · exact sends_afterLogin _
      · exact sends_sendToApp _
    · exact sends_afterLogin _

theorem sends_loadFresh : Sends env apiKey account app (loadFresh env apiKey account app) := by
  refine Sends.bind (fun n P => adds_useJar _) fun _ => Sends.bind (fun n P => adds_proxyResponse _)
    fun response => Sends.bind (fun n P => adds_followRedirects _) fun page =>
      Sends.bind (fun n P => adds_deref _) fun page => ?_
  split_ifs
  · exact sends_sendToApp _
  · exact sends_attemptLogin _

theorem sends_verify (auth : AuthTransition) :
    Sends env apiKey account app (verify env apiKey account app auth) := by
  refine Sends.bind (fun n P => adds_useJar _) fun _ => Sends.bind (fun n P => adds_proxyResponse _)
    fun response => Sends.bind (fun n P => adds_followRedirects _) fun page =>
      Sends.bind (fun n P => adds_deref _) fun page => ?_
  split_ifs
  · exact sends_sendToApp _
  · exact Sends.bind (fun n P => (adds_redisDel _).bind fun _ => adds_redisDel _)
      fun _ => sends_loadFresh

theorem sends_loadApp : Sends env apiKey account app (loadApp env apiKey account app) := by
  refine Sends.bind (fun n P => adds_registerUser account app) fun _ =>
    Sends.bind (fun n P => adds_useJar _) fun _ => ?_
  split_ifs
  · exact sends_sendToApp _
  · refine Sends.bind (fun n P => Respects.attempt (adds_redisGet _)) fun found => ?_
    split
    · exact sends_verify _
    · exact sends_loadFresh

end Load

/-! ### Events -/

section Events

variable {env} {n : ℕ}

/-- A load for an account and an app stores the transition under the key, from the call `n` on. -/
def MadeBy (env : LoaderEnv) (n : ℕ) (e : AdapterEvent) (key : String) (auth : AuthTransition) :
    Prop :=
  ∃ apiKey account app, e = .load apiKey (some account) (.ok (some app)) ∧
    Stored env apiKey account app n key auth

theorem adds_authRelay {P : String → AuthTransition → Prop} (parsesNull : Bool) (uuid : String) :
    Respects (Adds n P) (authRelay env parsesNull uuid) := by
  refine (Respects.attempt (adds_redisGet uuid)).bind fun found => ?_
  split
  · exact Respects.pure _
  · split_ifs
    · exact Respects.throw _
    · exact (adds_redisDel uuid).bind fun _ => Respects.pure _
  · exact (adds_redisDel uuid).bind fun _ => Respects.pure _

theorem load_ends (env : LoaderEnv) (apiKey : String) (account : CloudOsAccount) (app : LoadedApp)
    {s : LoaderState} (hn : n ≤ s.calls) : Ends (load env apiKey (some account) (.ok (some app))) s fun r t =>
      Adds n (Stored env apiKey account app n) s t ∧
      ∀ uri cookies, r = .ok (.temporaryRedirect uri cookies) →
        cookies = [] ∧ Redirects env apiKey account app n uri t := by
  unfold load
  rw [ends_bind, ends_attempt]
  refine (sends_loadApp n s hn).mono fun r t ht => ?_
  obtain ⟨hadds, hredirects⟩ := ht
  rcases r with e | uri | _
  · exact ⟨hadds, fun uri cookies h => AdapterResponse.noConfusion (Except.ok.inj h)⟩
  · refine ⟨hadds, fun uri' cookies h => ?_⟩
    obtain ⟨rfl, rfl⟩ := AdapterResponse.temporaryRedirect.inj (Except.ok.inj h)
    exact ⟨rfl, hredirects uri rfl⟩
  · exact ⟨hadds, fun uri cookies h => AdapterResponse.noConfusion (Except.ok.inj h)⟩

/-- **One event** adds to redis what a load stores, and nothing else. -/
theorem step_adds (parsesNull : Bool) (s : LoaderState) (e : AdapterEvent) :
    Adds n (MadeBy env n e) s (step env parsesNull s e) := by
  intro hn
  cases e with
  | load apiKey account app =>
    have hnothing : ∀ response : AdapterResponse, Adds n
        (MadeBy env n (.load apiKey account app)) s (after (pure response : Loader _) s) :=
      fun response => refl_of (Adds n _) s
    rcases account with _ | account
    · exact hnothing _ hn
    · rcases app with x | _ | app
      · exact hnothing _ hn
      · exact hnothing _ hn
      · have hload := (load_ends env apiKey account app hn).1 hn
        refine ⟨hload.1, fun key auth h => (hload.2 key auth h).imp_right fun hstored => ?_⟩
        exact ⟨apiKey, account, app, rfl, hstored⟩
  | relay uuid => exact adds_authRelay parsesNull uuid s hn
  | expire key =>
    refine ⟨le_rfl, fun k auth h => Or.inl ?_⟩
    rw [step] at h
    dsimp only at h
    rw [Function.update_apply] at h
    split_ifs at h
    exact h

/-- UUIDs are distinct, and have no colon. -/
structure HasFreshUUIDs (env : LoaderEnv) : Prop where
  distinct : Function.Injective env.randomUUID
  colon : ∀ k, ':' ∉ (env.randomUUID k).toList

theorem HasFreshUUIDs.ne_getAuthKey (h : HasFreshUUIDs env) (k : ℕ) (account : CloudOsAccount)
    (app : LoadedApp) : env.randomUUID k ≠ getAuthKey account app := by
  intro heq
  have hcolon := h.colon k
  rw [heq, getAuthKey, String.toList_append, String.toList_append] at hcolon
  exact hcolon (List.mem_append_left _ (List.mem_append_right _ List.mem_cons_self))

/-- The UUID of a call that has been made stands for one transition. -/
def StandsFor (env : LoaderEnv) (k : ℕ) (auth : AuthTransition) (s : LoaderState) : Prop :=
  k < s.calls ∧ ∀ auth', s.redis (env.randomUUID k) = some auth' → auth' = auth

theorem standsFor_step (hfresh : HasFreshUUIDs env) (parsesNull : Bool) {k : ℕ}
    {auth : AuthTransition} {s : LoaderState} (e : AdapterEvent) (hs : StandsFor env k auth s) :
    StandsFor env k auth (step env parsesNull s e) := by
  obtain ⟨hcalls, hadds⟩ := step_adds (n := s.calls) parsesNull s e le_rfl
  refine ⟨hs.1.trans_le hcalls, fun auth' h => ?_⟩
  rcases hadds _ _ h with h | ⟨apiKey, account, app, -, hstored⟩
  · exact hs.2 auth' h
  · obtain ⟨j, hj, huuid⟩ := hstored.fresh
    rcases hstored.key with hkey | hkey
    · exact absurd (hfresh.distinct (hkey.trans huuid)) (hs.1.trans_le hj).ne
    · exact absurd hkey (hfresh.ne_getAuthKey k account app)

theorem standsFor_run (hfresh : HasFreshUUIDs env) (parsesNull : Bool) {k : ℕ}
    {auth : AuthTransition} {s : LoaderState} (events : List AdapterEvent)
    (hs : StandsFor env k auth s) : StandsFor env k auth (Runs.run (step env parsesNull) s events) :=
  Runs.run_invariant (C := fun _ _ => True) (fun _ e hI _ => standsFor_step hfresh parsesNull e hI)
    hs (Runs.meets_of_forall (fun _ _ => trivial) s events)

theorem redisGet_ends (key : String) (s : LoaderState) : Ends (redisGet env key) s fun r _ =>
    (env.fails s.calls = true ∧ ∃ e, r = .error e) ∨
      (env.fails s.calls = false ∧ r = .ok (s.redis key)) := by
  simp only [redisGet, InstalledAppLoader.call, ends_bind, ends_get, ends_modify]
  split_ifs with hfails
  · exact Or.inl ⟨hfails, _, rfl⟩
  · exact Or.inr ⟨Bool.eq_false_iff.2 hfails, rfl⟩

/-- A UUID that is deleted leads to the server itself. -/
theorem redirect_base (uuid : String) (s : LoaderState) : Ends (do
      redisDel env uuid
      return .temporaryRedirect env.publicUriBase [] : Loader AdapterResponse) s fun r _ =>
    ∀ uri cookies, r = .ok (.temporaryRedirect uri cookies) →
      uri = env.publicUriBase ∧ cookies = [] := by
  rw [ends_bind]
  refine (redisDel_ends uuid s).mono fun r t ht => ?_
  rcases ht with ⟨e, rfl⟩ | ⟨rfl, -⟩
  · exact fun uri cookies h => of_error_eq_ok h
  · intro uri cookies h
    obtain ⟨rfl, rfl⟩ := AdapterResponse.temporaryRedirect.inj (Except.ok.inj h)
    exact ⟨rfl, rfl⟩

/-- What a relay answers: what is stored under its UUID, or, when nothing is or redis fails, a redirect
to the server itself, if it answers at all. -/
theorem authRelay_ends (parsesNull : Bool) (uuid : String) (s : LoaderState) :
    Ends (authRelay env parsesNull uuid) s fun r _ =>
      (∀ auth, s.redis uuid = some auth → env.fails s.calls = false →
        r = .ok (.temporaryRedirect auth.redirectUri (auth.cookies.map atRoot))) ∧
      (s.redis uuid = none ∨ env.fails s.calls = true →
        ∀ uri cookies, r = .ok (.temporaryRedirect uri cookies) →
          uri = env.publicUriBase ∧ cookies = []) := by
  unfold authRelay
  rw [ends_bind, ends_attempt]
  refine (redisGet_ends uuid s).mono fun r t ht => ?_
  rcases ht with ⟨hfails, e, rfl⟩ | ⟨hworks, rfl⟩
  · refine (redirect_base uuid t).mono fun r u hu => ⟨fun auth _ hworks => ?_, fun _ => hu⟩
    exact Bool.noConfusion (hfails.symm.trans hworks)
  · cases hfound : s.redis uuid with
    | some auth =>
      refine ⟨fun auth' h _ => ?_, fun h => ?_⟩
      · obtain rfl := Option.some.inj h
        rfl
      · rcases h with h | h
        · exact absurd h (Option.some_ne_none auth)
        · exact Bool.noConfusion (hworks.symm.trans h)
    | none =>
      dsimp only
      split_ifs
      · exact ⟨fun _ h => h.elim, fun _ uri cookies h => of_error_eq_ok h⟩
      · exact (redirect_base uuid t).mono fun r u hu => ⟨fun _ h => h.elim, fun _ => hu⟩

/-- A relay that sets cookies gives what is stored under the UUID. -/
theorem authRelay_gives (parsesNull : Bool) (uuid : String) (s : LoaderState) :
    Ends (authRelay env parsesNull uuid) s fun r _ =>
      ∀ uri cookies, r = .ok (.temporaryRedirect uri cookies) → cookies ≠ [] →
        ∃ auth, s.redis uuid = some auth ∧ uri = auth.redirectUri ∧
          cookies = auth.cookies.map atRoot := by
  refine (authRelay_ends parsesNull uuid s).mono fun r t ht uri cookies hr hne => ?_
  obtain ⟨hstored, hbase⟩ := ht
  cases hfound : s.redis uuid with
  | none => exact absurd (hbase (Or.inl hfound) uri cookies hr).2 hne
  | some auth =>
    by_cases hfails : env.fails s.calls = true
    · exact absurd (hbase (Or.inr hfails) uri cookies hr).2 hne
    · have hgives := hstored auth hfound (Bool.eq_false_iff.2 hfails)
      obtain ⟨rfl, rfl⟩ :=
        AdapterResponse.temporaryRedirect.inj (Except.ok.inj (hgives.symm.trans hr))
      exact ⟨auth, rfl, rfl, rfl⟩

/-- How a relay of the UUID is answered in the state `s`, when the UUID stands for the transition: it
gives the redirect and the cookies of the transition, for all paths, while that is stored and redis
works, and otherwise nothing. -/
structure Relays (env : LoaderEnv) (parsesNull : Bool) (auth : AuthTransition) (s : LoaderState) :
    Prop where
  stored : s.redis auth.uuid = some auth ∨ s.redis auth.uuid = none
  gives : s.redis auth.uuid = some auth → env.fails s.calls = false →
    Ends (authRelay env parsesNull auth.uuid) s fun r _ =>
      r = .ok (.temporaryRedirect auth.redirectUri (auth.cookies.map atRoot))
  nothing : s.redis auth.uuid = none ∨ env.fails s.calls = true →
    Ends (authRelay env parsesNull auth.uuid) s fun r _ =>
      ∀ uri cookies, r = .ok (.temporaryRedirect uri cookies) →
        uri = env.publicUriBase ∧ cookies = []

/-- **From the load to the relay.**  A load that redirects leads to the relay of a new UUID.  Whatever
is loaded, relayed and expires after it, that UUID is answered with what the load has stored, or it
is not known any more; right after the load it is known. -/
theorem relay_of_load (hfresh : HasFreshUUIDs env) (parsesNull : Bool) {apiKey : String}
    {account : CloudOsAccount} {app : LoadedApp} {s : LoaderState} {uri : String} {cookies : CookieJar}
    (hload : (exec (load env apiKey (some account) (.ok (some app))) s).1
      = .ok (.temporaryRedirect uri cookies)) :
    cookies = [] ∧ ∃ auth base, Carries env apiKey account app auth ∧
      uri = withSlash base ++ "__cloudos__/api/app/auth/" ++ auth.uuid ∧
      (step env parsesNull s (.load apiKey (some account) (.ok (some app)))).redis auth.uuid
        = some auth ∧
      ∀ events, Relays env parsesNull auth (Runs.run (step env parsesNull) s
        (.load apiKey (some account) (.ok (some app)) :: events)) := by
  obtain ⟨-, hredirects⟩ := load_ends env apiKey account app (le_refl s.calls)
  obtain ⟨hcookies, auth, base, hstored, huri, hredis, k, hk, huuid⟩ :=
    hredirects uri cookies hload
  refine ⟨hcookies, auth, base, hstored.carries, huri, hredis, fun events => ?_⟩
  have hstart : StandsFor env k auth
      (step env parsesNull s (.load apiKey (some account) (.ok (some app)))) := by
    refine ⟨hk, fun auth' h => ?_⟩
    rw [← huuid] at h
    exact Option.some.inj (h.symm.trans hredis)
  have hrun := (standsFor_run hfresh parsesNull events hstart).2
  rw [← huuid] at hrun
  have hrelay := @authRelay_ends env parsesNull auth.uuid (Runs.run (step env parsesNull) s
    (.load apiKey (some account) (.ok (some app)) :: events))
  refine ⟨?_, fun hauth hworks => hrelay.mono fun r _ hr => hr.1 auth hauth hworks,
    fun hgone => hrelay.mono fun r _ hr => hr.2 hgone⟩
  cases hfound : (Runs.run (step env parsesNull) s
      (.load apiKey (some account) (.ok (some app)) :: events)).redis auth.uuid with
  | none => exact Or.inr rfl
  | some auth' => exact Or.inl (congrArg some (hrun auth' hfound))

/-- A page that is no redirect. -/
def page : BufferedResponse where
  requestUri := "http://127.0.0.1:3000/"
  isSuccess := true
  is3xx := false
  redirectUri := none
  location := none
  document := "<html>"

/-- The UUIDs are one longer each time. -/
def countingEnv : LoaderEnv := { Redirects.answering page with
  randomUUID := fun k => String.ofList (List.replicate k 'a') }

theorem hasFreshUUIDs_countingEnv : HasFreshUUIDs countingEnv where
  distinct j k h := by
    have hlength := congrArg String.length h
    simpa [countingEnv] using hlength
  colon k h := by
    rw [countingEnv, String.toList_ofList] at h
    exact absurd (List.eq_of_mem_replicate h) (by decide)

/-- Alice opens the blog. -/
theorem relay_of_load_blog :
    ([] : CookieJar) = [] ∧ ∃ auth base,
      Carries countingEnv "key" ⟨"alice", "secret", false⟩ Redirects.blog auth ∧
      "http://127.0.0.1:3000/__cloudos__/api/app/auth/a"
        = withSlash base ++ "__cloudos__/api/app/auth/" ++ auth.uuid ∧
      (step countingEnv true {} (.load "key" (some ⟨"alice", "secret", false⟩)
        (.ok (some Redirects.blog)))).redis auth.uuid = some auth ∧
      ∀ events, Relays countingEnv true auth (Runs.run (step countingEnv true) {}
        (.load "key" (some ⟨"alice", "secret", false⟩) (.ok (some Redirects.blog)) :: events)) :=
  relay_of_load hasFreshUUIDs_countingEnv true rfl

/-- The event is a load, and has stored the transition under the key. -/
structure Stores (env : LoaderEnv) (parsesNull : Bool) (s : LoaderState) (e : AdapterEvent)
    (key : String) (auth : AuthTransition) : Prop where
  made : MadeBy env s.calls e key auth
  absent : s.redis key ≠ some auth
  stored : (step env parsesNull s e).redis key = some auth

/-- What a run has put into redis was stored by one of its loads, and has been there since. -/
theorem exists_stores (parsesNull : Bool) {s : LoaderState} {key : String} {auth : AuthTransition}
    (habsent : s.redis key ≠ some auth) {events : List AdapterEvent}
    (hstored : (Runs.run (step env parsesNull) s events).redis key = some auth) :
    ∃ before e after, events = before ++ e :: after ∧
      Stores env parsesNull (Runs.run (step env parsesNull) s before) e key auth := by
  obtain ⟨before, e, after, hevents, hnot, hsince⟩ :=
    (Runs.always_or_cause (P := fun s : LoaderState => s.redis key = some auth) hstored).resolve_left
      fun halways => habsent (halways [] List.nil_prefix)
  refine ⟨before, e, after, hevents, ?_, hnot, hsince [] List.nil_prefix⟩
  have hadds := (step_adds parsesNull (Runs.run (step env parsesNull) s before) e : Adds
    (Runs.run (step env parsesNull) s before).calls (MadeBy env _ e) _ _) le_rfl
  exact (hadds.2 key auth (hsince [] List.nil_prefix)).resolve_left hnot

/-- **Nobody gets what was not loaded.**  When redis is empty at first, a relay that sets cookies
gives those of a transition that a load of the run has stored under its key, and that is still there:
with the credentials of the load's account where the app has HTTP authentication, and with none where
it has not. -/
theorem carries_of_stored (parsesNull : Bool) {s : LoaderState} (hempty : ∀ key, s.redis key = none)
    (events : List AdapterEvent) (uuid : String) : Ends (authRelay env parsesNull uuid)
      (Runs.run (step env parsesNull) s events) fun r _ =>
        ∀ uri cookies, r = .ok (.temporaryRedirect uri cookies) → cookies ≠ [] →
          ∃ before apiKey account app after auth,
            events = before ++ .load apiKey (some account) (.ok (some app)) :: after ∧
            Stores env parsesNull (Runs.run (step env parsesNull) s before)
              (.load apiKey (some account) (.ok (some app))) uuid auth ∧
            Carries env apiKey account app auth ∧
            (Runs.run (step env parsesNull) s events).redis uuid = some auth ∧
            uri = auth.redirectUri ∧ cookies = auth.cookies.map atRoot := by
  refine (authRelay_gives parsesNull uuid _).mono fun r t ht uri cookies hr hne => ?_
  obtain ⟨auth, hauth, huri, hcookies⟩ := ht uri cookies hr hne
  have habsent : s.redis uuid ≠ some auth := fun h =>
    absurd ((hempty uuid).symm.trans h) (Option.some_ne_none auth).symm
  obtain ⟨before, e, after, hevents, hstores⟩ := exists_stores parsesNull habsent hauth
  obtain ⟨apiKey, account, app, rfl, hstored⟩ := hstores.made
  exact ⟨before, apiKey, account, app, after, auth, hevents, hstores, hstored.carries, hauth, huri,
    hcookies⟩

/-- Alice opens the blog, and its relay is used. -/
theorem carries_of_stored_blog : Ends (authRelay countingEnv true "a")
    (Runs.run (step countingEnv true) {} [.load "key" (some ⟨"alice", "secret", false⟩)
      (.ok (some Redirects.blog))]) fun r _ =>
        ∀ uri cookies, r = .ok (.temporaryRedirect uri cookies) → cookies ≠ [] →
          ∃ before apiKey account app after auth,
            [AdapterEvent.load "key" (some ⟨"alice", "secret", false⟩) (.ok (some Redirects.blog))]
              = before ++ .load apiKey (some account) (.ok (some app)) :: after ∧
            Stores countingEnv true (Runs.run (step countingEnv true) {} before)
              (.load apiKey (some account) (.ok (some app))) "a" auth ∧
            Carries countingEnv apiKey account app auth ∧
            (Runs.run (step countingEnv true) {} [.load "key" (some ⟨"alice", "secret", false⟩)
              (.ok (some Redirects.blog))]).redis "a" = some auth ∧
            uri = auth.redirectUri ∧ cookies = auth.cookies.map atRoot :=
  carries_of_stored true (fun _ => rfl) _ "a"

end Events

end AppAdapter

end CloudOs
