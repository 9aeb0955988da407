/-
# Loading an installed app

`loadApp` looks at an app on behalf of an account and redirects the browser to it:

| step | requests to the app |
| --- | --- |
| a stored `AuthTransition` is verified | its home page, and its redirects |
| the home page is loaded without cookies | its home page, and its redirects |
| a login page is answered | the login, and once more with the new cookies |
| the redirect after the login is looked at | the redirects of the registration or the login |

Every step that comes to nothing ends in `sendToApp`.  `followRedirects` follows up to
`MAX_REDIRECTS` redirects; the one after them sets the response to `null`, and the condition of
the loop reads it.

The app is a function: what it answers to a request depends on the requests before it and on the
cookies in the jar.
-/

import CloudOs.Lib.Prog
import CloudOs.Model.URIUtil

namespace CloudOs

/-- `BufferedResponse`, as its getters give it. -/
structure BufferedResponse where
  requestUri : String
  isSuccess : Bool
  is3xx : Bool
  redirectUri : Option String
  location : Option String
  document : String

/-- `HttpRequestBean<String>`. -/
structure HttpRequestBean where
  method : String := "GET"
  uri : String
  data : Option String := none

/-- `HttpCookieBean`, as far as it is set here. -/
structure HttpCookieBean where
  name : String
  value : Option String
  secure : Bool := false
  path : Option String := none

abbrev CookieJar := List HttpCookieBean

/-- `CloudOsAccount`. -/
structure CloudOsAccount where
  name : String
  password : String
  admin : Bool

/-- `HttpAuthType`. -/
inductive HttpAuthType
  | basic
  | other (name : String)
  deriving DecidableEq

/-- `AppAuthConfig`: the patterns are what they match. -/
structure AppAuthConfig where
  home_path : String
  http_auth : Option HttpAuthType := none
  registration_redirect : Option (String → Bool) := none
  login_redirect : Option (String → Bool) := none

/-- `AppRuntime`, as `loadApp` reads it. -/
structure LoadedApp where
  name : String
  /-- `getDetails().getPath(publicUriBase)`. -/
  path : String
  authentication : Option AppAuthConfig
  /-- There are both scripts: one that looks for a user and one that creates it. -/
  registersUsers : Bool
  isLoginPage : String → Bool
  isErrorPage : String → Bool
  isRegistrationPage : String → Bool
  buildLoginRequest : CloudOsAccount → BufferedResponse → Option HttpRequestBean
  buildRegistrationRequest : CloudOsAccount → BufferedResponse → HttpRequestBean

/-- `AuthTransition`. -/
structure AuthTransition where
  uuid : String
  sessionId : Option String := none
  authHeaderValue : Option String := none
  redirectUri : String
  cookies : CookieJar := []

/-- The answer of `loadApp`. -/
inductive AppRedirect
  | temporaryRedirect (uri : String)
  | serverError
  deriving DecidableEq

/-- What leaves `loadApp` instead of an answer. -/
inductive LoadExn
  | nullPointer
  | illegalArgument
  | failed
  deriving DecidableEq

/-- A message to the scripts of an app. -/
structure UserScript where
  app : String
  type : String
  args : List String

/-- What `loadApp` works on: the requests that the app has had, the jar in use, the transitions in
redis, the messages to rooty, and the number of calls to redis, rooty and `randomUUID`. -/
structure LoaderState where
  requests : List HttpRequestBean := []
  cookieJar : CookieJar := []
  redis : String → Option AuthTransition := fun _ => none
  scripts : List UserScript := []
  calls : ℕ := 0

/-- What stands around `loadApp`. -/
structure LoaderEnv where
  hostname : String
  publicUriBase : String
  /-- `proxyResponse`: what the app answers to a request after others, and the jar with it. -/
  proxyResponse : List HttpRequestBean → HttpRequestBean → CookieJar → BufferedResponse × CookieJar
  /-- The calls to redis and to rooty that fail. -/
  fails : ℕ → Bool
  /-- What a script answers. -/
  results : ℕ → Bool
  randomUUID : ℕ → String
  addCookie : CookieJar → HttpCookieBean → CookieJar
  urlEncode : String → String
  encodeBase64String : String → String

/-- A method of the loader. -/
abbrev Loader := Prog LoaderState LoadExn

namespace InstalledAppLoader

open Prog URIUtil

def MAX_REDIRECTS : ℕ := 10

variable (env : LoaderEnv)

/-! ### Requests to the app -/

/-- The answer to a request. -/
def answer (request : HttpRequestBean) (s : LoaderState) : BufferedResponse :=
  (env.proxyResponse s.requests request s.cookieJar).1

/-- The state after a request has been answered. -/
def answered (request : HttpRequestBean) (s : LoaderState) : LoaderState :=
  { s with
    requests := s.requests ++ [request]
    cookieJar := (env.proxyResponse s.requests request s.cookieJar).2 }

def proxyResponse (request : HttpRequestBean) : Loader BufferedResponse := fun s =>
  (.ok (answer env request s), answered env request s)

@[simp] theorem ends_proxyResponse (request : HttpRequestBean) (s : LoaderState)
    (Q : Except LoadExn BufferedResponse → LoaderState → Prop) :
    Ends (proxyResponse env request) s Q ↔ Q (.ok (answer env request s)) (answered env request s) :=
  Iff.rfl

/-- A location begins with `http://` or `https://`. -/
def IsUrl (location : String) : Prop :=
  "http://".toList <+: location.toList ∨ "https://".toList <+: location.toList

instance : DecidablePred IsUrl := fun _ => inferInstanceAs (Decidable (_ ∨ _))

/-- The URL of a redirect: a `Location` that is no URL is put behind the host of the request. -/
def redirectTo (requestUri location : String) : String :=
  if IsUrl location then location
  else if ['/'] <+: location.toList then
    text (getScheme (toUri requestUri)) ++ "://" ++ text (getHost (toUri requestUri)) ++ location
  else
    text (getScheme (toUri requestUri)) ++ "://" ++ text (getHost (toUri requestUri)) ++ "/" ++
      dirname (getPath (toUri requestUri)) ++ "/" ++ location

/-- The request for a redirect of a response. -/
def redirect (response : BufferedResponse) (location : String) : HttpRequestBean :=
  { uri := redirectTo response.requestUri location }

/-- The loop of `followRedirects`, with `left` redirects to go up to `MAX_REDIRECTS`. -/
def followFrom : ℕ → BufferedResponse → Loader (Option BufferedResponse)
  | left, response =>
    match response.redirectUri with
    | none => return some response
    | some location => do
      let response ← proxyResponse env (redirect response location)
      match left with
      | 0 => throw .nullPointer -- `response = null`, whose redirect the loop asks for
      | left + 1 => followFrom left response

def followRedirects : Option BufferedResponse → Loader (Option BufferedResponse)
  | none => return none
  | some response => followFrom env MAX_REDIRECTS response

/-- A value that is used without a check for `null`. -/
def deref {α : Type} : Option α → Loader α
  | none => throw .nullPointer
  | some a => return a

/-! ### Redis and rooty -/

def call : Loader PUnit := do
  let n := (← get).calls
  modify fun s => { s with calls := n + 1 }
  if env.fails n then throw .failed

def redisGet (key : String) : Loader (Option AuthTransition) := do
  call env
  return (← get).redis key

def redisDel (key : String) : Loader PUnit := do
  call env
  modify fun s => { s with redis := Function.update s.redis key none }

/-- `redis.set` with `NX`: what is there stays. -/
def redisSet (key : String) (auth : AuthTransition) : Loader PUnit := do
  call env
  modify fun s => { s with redis := Function.update s.redis key ((s.redis key).or (some auth)) }

def randomUUID : Loader String := do
  let n := (← get).calls
  modify fun s => { s with calls := n + 1 }
  return env.randomUUID n

/-- `rooty.request`, and its result as a truth value. -/
def request (script : UserScript) : Loader Bool := do
  let n := (← get).calls
  modify fun s => { s with scripts := s.scripts ++ [script] }
  call env
  return env.results n

def userExists (account : CloudOsAccount) (app : LoadedApp) : Loader Bool :=
  request env ⟨app.name, "user_exists", [account.name, account.password]⟩

def createUser (account : CloudOsAccount) (app : LoadedApp) : Loader Bool :=
  request env ⟨app.name, "user_create", [account.name, account.password, toString account.admin]⟩

/-- The account is registered with the app; what fails is logged. -/
def registerUser (account : CloudOsAccount) (app : LoadedApp) : Loader PUnit := do
  if app.registersUsers then
    discard <| attempt do
      if !(← userExists env account app) then
        discard <| createUser env account app

/-! ### The redirect to the app -/

def getAppHome (app : LoadedApp) : String :=
  match app.authentication with
  | none => app.path
  | some appAuth => app.path ++ appAuth.home_path

def getAuthKey (account : CloudOsAccount) (app : LoadedApp) : String :=
  account.name ++ "::" ++ String.ofList (Uri.cut '?' app.path.toList).1

/-- `AppProxyContext.getLocation`: the home page, unless a location has been set. -/
def getLocation (app : LoadedApp) (location : Option String) : String :=
  match location with
  | none => getAppHome app
  | some location => if location.toList = [] then getAppHome app else location

def getHttpAuth (app : LoadedApp) : Option HttpAuthType := app.authentication.bind (·.http_auth)

def getAuthHeaderValue (account : CloudOsAccount) : HttpAuthType → Loader String
  | .basic =>
    return env.urlEncode ("Basic " ++ env.encodeBase64String (account.name ++ ":" ++ account.password))
  | .other _ => throw .illegalArgument

def addCookie (cookie : HttpCookieBean) : Loader PUnit :=
  modify fun s => { s with cookieJar := env.addCookie s.cookieJar cookie }

/-- The transition gets the credentials of an app with HTTP authentication. -/
def authorize (apiKey : String) (account : CloudOsAccount) (app : LoadedApp) (auth : AuthTransition) :
    Loader AuthTransition :=
  match getHttpAuth app with
  | none => return auth
  | some http_auth => do
    let value ← getAuthHeaderValue env account http_auth
    addCookie env { name := "__cloudos_http_auth", value := some value, secure := true, path := "/" }
    addCookie env
      { name := "__cloudos_http_session", value := some apiKey, secure := true, path := "/" }
    return { auth with authHeaderValue := some value, sessionId := some apiKey }

def storeTransition (authKey : String) (auth : AuthTransition) : Loader PUnit := do
  redisDel env auth.uuid
  redisSet env auth.uuid auth
  redisDel env authKey
  redisSet env authKey auth

def withSlash (path : String) : String := if ['/'] <:+ path.toList then path else path ++ "/"

/-- The redirect to the relay of the transition. -/
def relay (appPath authTransitionUuid : String) : Loader AppRedirect := do
  let host ← deref (getHost (toUri appPath))
  let path :=
    if String.ofList host = env.hostname then
      text (getScheme (toUri env.publicUriBase)) ++ "://" ++ env.hostname
    else appPath
  return .temporaryRedirect (withSlash path ++ "__cloudos__/api/app/auth/" ++ authTransitionUuid)

/-- **`sendToApp`**, with the location of the context.  Without one it leads to the main page of
the app. -/
def sendToApp (apiKey : String) (account : CloudOsAccount) (app : LoadedApp)
    (location : Option String) : Loader AppRedirect := do
  let location := getLocation app location
  let uuid ← randomUUID env
  let auth ← authorize env apiKey account app
    { uuid, redirectUri := if IsUrl location then location else withSlash app.path ++ location }
  let auth := { auth with cookies := (← get).cookieJar }
  match ← attempt (storeTransition env (getAuthKey account app) auth) with
  | .error _ => return .serverError
  | .ok _ => relay env (withSlash app.path) auth.uuid

/-! ### Looking at the app -/

section

variable (apiKey : String) (account : CloudOsAccount) (app : LoadedApp)

/-- The request for the home page. -/
def home (app : LoadedApp) : HttpRequestBean := { uri := getAppHome app }

def useJar (jar : CookieJar) : Loader PUnit := modify fun s => { s with cookieJar := jar }

def isLoginOrErrorPage (app : LoadedApp) (response : BufferedResponse) : Bool :=
  app.isLoginPage response.document || app.isErrorPage response.document

/-- `matches`: there are a pattern and a location, and the pattern matches the path of it. -/
def patternMatches (pattern : Option (String → Bool)) (location : Option String) : Bool :=
  pattern.any fun pattern => location.any fun location => pattern (getPath (toUri location))

/-- The redirect after a login is followed when it is one that the app names. -/
def afterLogin (response : BufferedResponse) : Loader AppRedirect :=
  match app.authentication with
  | none => sendToApp env apiKey account app response.location
  | some appAuth =>
    if (appAuth.registration_redirect.isSome || appAuth.login_redirect.isSome) && response.is3xx then
      if patternMatches appAuth.registration_redirect response.location then do
        match ← followRedirects env (some response) with
        | none => sendToApp env apiKey account app none
        | some resolved =>
          if resolved.isSuccess && app.isRegistrationPage resolved.document &&
              !app.isErrorPage resolved.document then
            discard <| proxyResponse env (app.buildRegistrationRequest account resolved)
            sendToApp env apiKey account app none
          else sendToApp env apiKey account app response.location
      else if patternMatches appAuth.login_redirect response.location then do
        match ← followRedirects env (some response) with
        | none => sendToApp env apiKey account app none
        | some resolved =>
          if resolved.isSuccess && !app.isLoginPage resolved.document then
            sendToApp env apiKey account app (some resolved.requestUri)
          else sendToApp env apiKey account app response.location
      else sendToApp env apiKey account app response.location
    else sendToApp env apiKey account app response.location

/-- The login of a login page, which is tried again when it brings new cookies. -/
def attemptLogin (response : BufferedResponse) : Loader AppRedirect := do
  let numCookies := (← get).cookieJar.length
  match app.buildLoginRequest account response with
  | none => sendToApp env apiKey account app none
  | some authRequest =>
    let response ← proxyResponse env authRequest
    if !response.isSuccess || isLoginOrErrorPage app response then
      if numCookies ≠ (← get).cookieJar.length then
        let response ← proxyResponse env authRequest
        if !response.isSuccess || app.isLoginPage response.document then
          sendToApp env apiKey account app none
        else afterLogin env apiKey account app response
      else sendToApp env apiKey account app none
    else afterLogin env apiKey account app response

/-- The home page is loaded with a fresh jar. -/
def loadFresh : Loader AppRedirect := do
  useJar []
  let response ← proxyResponse env (home app)
  let response ← deref (← followRedirects env (some response))
  if !isLoginOrErrorPage app response then sendToApp env apiKey account app none
  else attemptLogin env apiKey account app response

/-- A transition that does not work is removed. -/
def forget (authTransition : AuthTransition) : Loader PUnit := do
  redisDel env authTransition.uuid
  redisDel env (getAuthKey account app)

/-- A stored transition is verified with its cookies. -/
def verify (authTransition : AuthTransition) : Loader AppRedirect := do
  useJar authTransition.cookies
  let response ← proxyResponse env (home app)
  let response ← deref (← followRedirects env (some response))
  if response.isSuccess && !isLoginOrErrorPage app response then sendToApp env apiKey account app none
  else
    forget env account app authTransition
    loadFresh env apiKey account app

def loadApp : Loader AppRedirect := do
  registerUser env account app
  useJar []
  if (getHttpAuth app).isSome then sendToApp env apiKey account app none
  else
    match ← attempt (redisGet env (getAuthKey account app)) with
    | .ok (some authTransition) => verify env apiKey account app authTransition
    | _ => loadFresh env apiKey account app

end

end InstalledAppLoader

end CloudOs
