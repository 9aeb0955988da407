/-
# The pages of an app, filtered

`filter` passes a request of the browser on to an app and puts the page that the app answers through
the filters of its manifest.

| part of the request to the app | where it comes from |
| --- | --- |
| host | `127.0.0.1` |
| port | the ports databag of the version that the manifest names |
| path | the local mount of the manifest, and what stands in the path of the request |
| query | the request |

The path of the request is put behind the local mount as it is, and it never changes the host or the
port (`filter_ends`).  A page has been through all filters, or through none.
-/

import CloudOs.Apps.RunningApp
import CloudOs.Resources.AppAdapter

namespace CloudOs

open Prog Uri URIUtil

/-- `AppFilterConfig`: what its filters do to a page, and whether the variables in scope, when they can
be made, let it be filtered. -/
structure PageFilters where
  filters : List (String → Except Exn String)
  hasFilters : Except Exn Bool

/-- What stands around a request that is filtered. -/
structure FilterEnv where
  /-- `manifest.hasFilters` and `getFilterConfig`. -/
  getFilterConfig : AppManifest → String → Option PageFilters
  proxyResponse : HttpRequestBean → BufferedResponse
  encodeParams : List (String × String) → String

/-- The answer: what the app has answered, with this document. -/
inductive FilterResponse
  | notFound
  | proxied (request : HttpRequestBean) (document : String)

namespace AppAdapter

variable (env : FilterEnv)

/-- The filters are applied in order. -/
def applyAll (filters : List (String → Except Exn String)) (document : String) : Except Exn String :=
  filters.foldlM (fun document filter => filter document) document

/-- The document that is answered; a filter that fails leaves the one of the app. -/
def filtered (config : Option PageFilters) (document : String) : Except Exn String :=
  match config with
  | none => return document
  | some config => do
    if ← config.hasFilters then
      return (applyAll config.filters document).toOption.getD document
    else return document

/-- `filter`; `queryParams` is the query of the request, with its question mark. -/
def filter (r : AppRepository) (appName uri queryParams method : String)
    (formData : List (String × String)) : Except Exn FilterResponse :=
  match AppDAO.findInstalledByName r appName with
  | none => return .notFound
  | some app =>
    match getPortsDatabag r app.manifest with
    | none => return .notFound
    | some ports => do
      let appUri := "http://127.0.0.1:" ++ toString ports.primary ++ app.manifest.normalizedLocalMount
      let request : HttpRequestBean :=
        { method
          uri := appUri ++ uri ++ queryParams
          data := if method = "POST" then some (env.encodeParams formData) else none }
      let document ← filtered (env.getFilterConfig app.manifest uri)
        (env.proxyResponse request).document
      return .proxied request document

variable {env}

/-! ### Where requests go -/

def localhost : List Char := "127.0.0.1".toList

/-- The host and the port of an app. -/
def appAuthority (ports : PortsDatabag) : List Char :=
  localhost ++ ':' :: (toString ports.primary).toList

theorem isDigit_port {n : ℕ} {c : Char} (hc : c ∈ (toString n).toList) : isDigit c = true := by
  rw [Nat.toString_eq_repr, Nat.toList_repr] at hc
  have hdigit := Nat.isDigit_of_mem_toDigits (by decide) (by decide) hc
  simpa [isDigit, Char.isDigit, Char.le_def] using hdigit

/-- The authority ends at the next slash, and names no user. -/
theorem plain_of_mem_appAuthority {ports : PortsDatabag} {c : Char} (hc : c ∈ appAuthority ports) :
    endsAuthority c = false ∧ c ≠ '@' := by
  rw [appAuthority, List.mem_append, List.mem_cons] at hc
  rcases hc with hc | rfl | hc
  · have hplain : localhost.all (fun c => !endsAuthority c && c != '@') = true := by decide
    have hc := List.all_eq_true.1 hplain c hc
    rwa [Bool.and_eq_true, Bool.not_eq_eq_eq_not, Bool.not_true, bne_iff_ne] at hc
  · decide
  · have hdigit := isDigit_port hc
    refine ⟨Bool.eq_false_iff.2 fun hends => ?_, ?_⟩
    · simp only [endsAuthority, Bool.or_eq_true, beq_iff_eq] at hends
      rcases hends with (rfl | rfl) | rfl
      all_goals exact absurd hdigit (by decide)
    · rintro rfl
      exact absurd hdigit (by decide)

theorem hostOf_appAuthority (ports : PortsDatabag) : hostOf (appAuthority ports) = some localhost := by
  have huser : afterUserInfo (appAuthority ports) = appAuthority ports := by
    have hnone : (cut '@' (appAuthority ports)).2 = none := by
      rw [cut, List.dropWhile_eq_nil_iff.2 fun c hc => by
        simpa using (plain_of_mem_appAuthority hc).2]
      rfl
    rw [afterUserInfo, hnone, Option.getD_none]
  have hhost : (cut ':' (appAuthority ports)).1 = localhost := by
    have hcolon : localhost.all (fun c => decide (c ≠ ':')) = true := by decide
    rw [List.all_eq_true] at hcolon
    rw [cut, appAuthority, List.takeWhile_append_of_pos hcolon,
      List.takeWhile_cons_of_neg (by decide), List.append_nil]
  have hport : (toString ports.primary).toList.all isDigit = true :=
    List.all_eq_true.2 fun c hc => isDigit_port hc
  have hhead : (appAuthority ports).head? ≠ some '[' := by
    rw [appAuthority]
    exact fun h => absurd (Option.some.inj h) (by decide)
  simp only [hostOf, huser, if_neg hhead, hhost]
  rw [appAuthority, List.drop_left, List.tail_cons, hport]
  rfl

/-- **Where a request goes**: a path of the request changes neither the host nor the port. -/
theorem authority_appUri (ports : PortsDatabag) {mount : String} {path : List Char}
    (hmount : mount.toList = '/' :: path) (uri queryParams : String) :
    (toUri ("http://127.0.0.1:" ++ toString ports.primary ++ mount ++ uri ++ queryParams)).authority
      = some (appAuthority ports) := by
  have htext : ("http://127.0.0.1:" ++ toString ports.primary ++ mount ++ uri ++ queryParams).toList
      = "http".toList ++ ':' :: '/' :: '/' ::
        (appAuthority ports ++ '/' :: (path ++ uri.toList ++ queryParams.toList)) := by
    simp only [String.toList_append, hmount, appAuthority, List.append_assoc, List.cons_append]
    rfl
  rw [toUri, htext]
  refine authority_of_begins (by decide) (fun c hc => ?_) fun c hc => (plain_of_mem_appAuthority hc).1
  have hscheme : c ∈ ['h', 't', 't', 'p'] := hc
  simp only [List.mem_cons, List.not_mem_nil, or_false] at hscheme
  rcases hscheme with rfl | rfl | rfl | rfl
  all_goals decide

/-! ### What is answered -/

/-- A page has been through all filters, or through none. -/
theorem filtered_eq_ok {config : Option PageFilters} {page document : String}
    (h : filtered config page = .ok document) : document = page ∨ ∃ c, config = some c ∧
      c.hasFilters = .ok true ∧ applyAll c.filters page = .ok document := by
  cases config with
  | none => exact Or.inl (Except.ok.inj h).symm
  | some c =>
    obtain ⟨active, hactive, h⟩ := exists_of_bind_eq_ok h
    cases active with
    | false => exact Or.inl (Except.ok.inj h).symm
    | true =>
      rw [if_pos rfl] at h
      obtain rfl := Except.ok.inj h
      cases hall : applyAll c.filters page with
      | error e => exact Or.inl rfl
      | ok document => exact Or.inr ⟨c, rfl, hactive, hall⟩

/-- A request that is passed on to an app, and what is answered. -/
structure PassedOn (env : FilterEnv) (r : AppRepository) (appName uri : String)
    (request : HttpRequestBean) (document : String) (app : CloudOsApp) (ports : PortsDatabag) :
    Prop where
  installed : AppDAO.findInstalledByName r appName = some app
  databag : getPortsDatabag r app.manifest = some ports
  authority : (toUri request.uri).authority = some (appAuthority ports)
  host : getHost (toUri request.uri) = some localhost
  page : document = (env.proxyResponse request).document ∨
    ∃ config, env.getFilterConfig app.manifest uri = some config ∧ config.hasFilters = .ok true ∧
      applyAll config.filters (env.proxyResponse request).document = .ok document

/-- **What `filter` passes on**: whatever the path and the query of the request are, it goes to the port
of the active version on the server itself; and the page that is answered is the one of the app,
or has been through all filters. -/
theorem filter_passesOn {r : AppRepository} {appName uri queryParams method : String}
    {formData : List (String × String)} {request : HttpRequestBean} {document : String}
    (hmounts : ∀ app, AppDAO.findInstalledByName r appName = some app →
      ['/'] <+: app.manifest.normalizedLocalMount.toList)
    (h : filter env r appName uri queryParams method formData = .ok (.proxied request document)) :
    ∃ app ports, PassedOn env r appName uri request document app ports := by
  unfold filter at h
  cases happ : AppDAO.findInstalledByName r appName with
  | none =>
    rw [happ] at h
    exact FilterResponse.noConfusion (Except.ok.inj h)
  | some app =>
    rw [happ] at h
    dsimp only at h
    cases hports : getPortsDatabag r app.manifest with
    | none =>
      rw [hports] at h
      exact FilterResponse.noConfusion (Except.ok.inj h)
    | some ports =>
      rw [hports] at h
      obtain ⟨page, hpage, h⟩ := exists_of_bind_eq_ok h
      obtain ⟨rfl, rfl⟩ := FilterResponse.proxied.inj (Except.ok.inj h)
      obtain ⟨path, hpath⟩ := hmounts app happ
      have hauthority := authority_appUri ports hpath.symm uri queryParams
      refine ⟨app, ports, happ, hports, hauthority, ?_, filtered_eq_ok hpage⟩
      rw [getHost, hauthority]
      exact hostOf_appAuthority ports

/-- The app answers a page, which gets a footer. -/
def withFooter : FilterEnv where
  getFilterConfig := fun _ _ => some ⟨[fun document => .ok (document ++ "<footer>")], .ok true⟩
  proxyResponse := fun _ => page
  encodeParams := fun _ => ""

/-- The path of the request looks like a host. -/
theorem filter_passesOn_blog : ∃ app ports, PassedOn withFooter Apps.runningBlog.repository "blog"
    "@evil.com/" { uri := "http://127.0.0.1:9090/blog/@evil.com/?q=1" } "<html><footer>" app ports := by
  have hfiltered : filter withFooter Apps.runningBlog.repository "blog" "@evil.com/" "?q=1" "GET" []
      = .ok (.proxied { uri := "http://127.0.0.1:9090/blog/@evil.com/?q=1" } "<html><footer>") := by
    rfl
  refine filter_passesOn (fun app happ => ?_) hfiltered
  obtain rfl := Option.some.inj happ
  exact ⟨_, rfl⟩

end AppAdapter

end CloudOs
