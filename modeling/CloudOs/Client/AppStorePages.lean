/-
# The pages of the app store

The admin's page of the app store shows a list that grows by a page of nine with every click on
"More Apps".  `App.CloudOsApp.all` is the list; it is cleared by a search and when the page is
entered, and otherwise only appended to.

| event | the list | the page number | the filter that is sent |
| --- | --- | --- | --- |
| the route is entered | cleared | 1 | none |
| enter is hit in the search field | cleared | 1 | the text of the field |
| "More Apps" | appended to | one more | the text of the field |

The text of the field and the search whose results are shown are not the same thing: the text
changes as the user types, and it stays when the route is entered again.  As long as they agree
whenever a page is loaded, the list is the beginning of the results of one search, and the link to
more apps is there while results are missing (`pages_shown`).

A fetch that fails, or finds nothing, leaves the list without a total, and with it the link.

`asked` is a log of the model: the filter of the last search.
-/

import CloudOs.Resources.AppStoreResource

namespace CloudOs

/-- `DefaultPagination`, as far as the page changes it. -/
structure Paging where
  pageNumber : ℕ := 1
  filter : String := ""
  deriving DecidableEq, Repr

def Paging.pageSize : ℕ := 9

/-- What the page cannot change: the versions and the sessions of the server, and the app store with
the results of every search. -/
structure AppStoreEnv (V : Type) where
  parse : String → Except Exn V
  env : AppEnv
  sessions : String → Option Account
  store : String → List StoreListing

/-- What a fetch finds: the repository of the server, the session of the browser, and an app store
that may fail. -/
structure Fetch where
  repository : AppRepository
  apiKey : String
  fails : Option Exn := none

/-- The page of the app store: the list and the total of `App.CloudOsApp`, and the controller. -/
structure AppStorePage where
  all : List StoreListing := []
  totalCount : Option ℕ := some 0
  currentPage : ℕ := 1
  search : String := ""
  asked : String := ""

namespace AppStorePage

open AppStoreResource Paging

variable {V : Type} [LinearOrder V] (e : AppStoreEnv V)

/-- The search of the app store: a page of the results. -/
def searchAppStore (query : Paging) : List StoreListing :=
  ((e.store query.filter).drop ((query.pageNumber - 1) * pageSize)).take pageSize

/-- `Api.find_apps`: the results of the page and their total; an error has neither. -/
def find_apps (f : Fetch) (paging : Paging) : Option (List StoreListing × ℕ) :=
  match queryAppStore e.parse e.env f.repository e.sessions f.apiKey
      (f.fails.elim (.ok (searchAppStore e paging)) .error) with
  | .ok (.ok results) => some (results, (e.store paging.filter).length)
  | _ => none

/-- `_fetchApps`. -/
def fetchApps (s : AppStorePage) (f : Fetch) (paging : Paging) : AppStorePage :=
  match find_apps e f paging with
  | none => { s with totalCount := none }
  | some (apps, totalCount) => { s with all := s.all ++ apps, totalCount := some totalCount }

/-- `findPaginated`. -/
def findPaginated (s : AppStorePage) (f : Fetch) (paging : Paging) : AppStorePage :=
  fetchApps e { s with all := [], asked := paging.filter } f paging

/-- `morePagesAvailable`. -/
def morePagesAvailable (s : AppStorePage) : Bool :=
  s.totalCount.any (s.currentPage * pageSize < ·)

/-- What the user does, and what the fetches find that it leads to. -/
inductive Event
  | enter (f g : Fetch)
  | typeText (text : String)
  | search (f : Fetch)
  | loadNextPage (f : Fetch)

/-- One event.  `AppstoreRoute` fetches a second time when a later page was shown before; the link
of `loadNextPage` is there while `morePagesAvailable`. -/
def step (s : AppStorePage) : Event → AppStorePage
  | .enter f g =>
    let t := findPaginated e s f {}
    if 1 < t.currentPage then findPaginated e { t with currentPage := 1 } g {} else t
  | .typeText text => { s with search := text }
  | .search f => findPaginated e { s with currentPage := 1 } f { filter := s.search }
  | .loadNextPage f =>
    if s.morePagesAvailable then
      fetchApps e { s with currentPage := s.currentPage + 1 } f
        { pageNumber := s.currentPage + 1, filter := s.search }
    else s

/-- A further page is loaded for the search whose results are shown. -/
def SameSearch (s : AppStorePage) : Event → Prop
  | .loadNextPage _ => s.search = s.asked
  | _ => True

instance (s : AppStorePage) (event : Event) : Decidable (SameSearch s event) := by
  cases event <;> (unfold SameSearch; infer_instance)

/-! ### What is shown -/

/-- A listing without what the server has of the app. -/
def key (listing : StoreListing) : String × String := (listing.name, listing.version)

variable {e}

/-- A search answers with the listings of the store. -/
theorem key_queryAppStore {r : AppRepository} {apiKey : String}
    {search : Except Exn (List StoreListing)} {marked : List StoreListing}
    (h : queryAppStore e.parse e.env r e.sessions apiKey search = .ok (.ok marked)) :
    ∃ results, search = .ok results ∧ marked.map key = results.map key := by
  unfold queryAppStore at h
  split at h
  · cases h
  · cases h
  · cases h
  · next results _ _ =>
    obtain ⟨ms, hms, hok⟩ := Prog.exists_of_bind_eq_ok h
    obtain rfl : ms = marked := StoreResponse.ok.inj (Except.ok.inj hok)
    refine ⟨results, rfl, ?_⟩
    rw [← List.forall₂_eq_eq_eq, List.forall₂_map_left_iff, List.forall₂_map_right_iff]
    refine (mapM_ok_iff.1 hms).flip.imp fun m listing hupdate => ?_
    obtain ⟨_, _, hoffers⟩ := offers_of_update hupdate
    rw [key, key, hoffers.name, hoffers.version]

/-- A fetch that is answered brings the page of the results. -/
theorem find_apps_eq_some {f : Fetch} {paging : Paging} {apps : List StoreListing} {total : ℕ}
    (h : find_apps e f paging = some (apps, total)) :
    total = (e.store paging.filter).length ∧
      apps.map key = (searchAppStore e paging).map key := by
  unfold find_apps at h
  split at h
  · next results hquery =>
    obtain ⟨rfl, rfl⟩ := Prod.mk.inj (Option.some.inj h)
    obtain ⟨found, hfound, hkeys⟩ := key_queryAppStore hquery
    refine ⟨rfl, hkeys.trans ?_⟩
    cases hfails : f.fails with
    | none =>
      rw [hfails] at hfound
      rw [Except.ok.inj hfound]
    | some x =>
      rw [hfails] at hfound
      cases hfound
  · exact absurd h (Option.some_ne_none _).symm

/-- The list is the first `k` pages of the search that was asked. -/
def IsFirst (e : AppStoreEnv V) (s : AppStorePage) (k : ℕ) : Prop :=
  s.all.map key = ((e.store s.asked).take (k * pageSize)).map key

/-- The list is the beginning of the results; while there is a total, it is that of the search and
all pages up to the current one are shown. -/
structure Shows (e : AppStoreEnv V) (s : AppStorePage) : Prop where
  page : 1 ≤ s.currentPage
  first : ∃ k, IsFirst e s k
  total : ∀ total, s.totalCount = some total →
    total = (e.store s.asked).length ∧ IsFirst e s s.currentPage

@[simp] theorem currentPage_fetchApps (s : AppStorePage) (f : Fetch) (paging : Paging) :
    (fetchApps e s f paging).currentPage = s.currentPage := by
  unfold fetchApps
  split <;> rfl

/-- The next page of a search. -/
theorem shows_fetchApps {s : AppStorePage} {f : Fetch} {k : ℕ} (hfirst : IsFirst e s k)
    (hpage : s.currentPage = k + 1) :
    Shows e (fetchApps e s f { pageNumber := k + 1, filter := s.asked }) := by
  have hone : 1 ≤ s.currentPage := by omega
  unfold fetchApps
  cases hfetch : find_apps e f { pageNumber := k + 1, filter := s.asked } with
  | none => exact ⟨hone, ⟨k, hfirst⟩, fun total h => absurd h.symm (Option.some_ne_none total)⟩
  | some found =>
    obtain ⟨apps, totalCount⟩ := found
    obtain ⟨htotal, hkeys⟩ := find_apps_eq_some hfetch
    have hnext :
        IsFirst e { s with all := s.all ++ apps, totalCount := some totalCount } (k + 1) := by
      change (s.all ++ apps).map key = ((e.store s.asked).take ((k + 1) * pageSize)).map key
      rw [List.map_append, hfirst, hkeys, Nat.add_mul, Nat.one_mul, List.take_add, List.map_append]
      rfl
    refine ⟨hone, ⟨k + 1, hnext⟩, fun total h => ⟨?_, ?_⟩⟩
    · exact (Option.some.inj h).symm.trans htotal
    · change IsFirst e _ s.currentPage
      rw [hpage]
      exact hnext

/-- A search, from its first page on. -/
theorem shows_findPaginated (s : AppStorePage) (f : Fetch) (filter : String)
    (hpage : s.currentPage = 1) : Shows e (findPaginated e s f { filter := filter }) := by
  have hnone : IsFirst e { s with all := [], asked := filter } 0 := by
    rw [IsFirst, Nat.zero_mul]
    rfl
  exact shows_fetchApps hnone hpage

/-- The route is entered, from any page. -/
theorem shows_enter {s : AppStorePage} (hpage : 1 ≤ s.currentPage) (f g : Fetch) :
    Shows e (step e s (.enter f g)) := by
  rw [step]
  have hsame : (findPaginated e s f {}).currentPage = s.currentPage := currentPage_fetchApps _ _ _
  rw [hsame]
  split_ifs with hlater
  · exact shows_findPaginated _ g "" rfl
  · exact shows_findPaginated s f "" (by omega)

/-- **One event.** -/
theorem shows_step {s : AppStorePage} (h : Shows e s) {event : Event} (hsame : SameSearch s event) :
    Shows e (step e s event) := by
  cases event with
  | enter f g => exact shows_enter h.page f g
  | typeText text => exact ⟨h.page, h.first, h.total⟩
  | search f => exact shows_findPaginated _ f _ rfl
  | loadNextPage f =>
    rw [step]
    split_ifs with hmore
    · obtain ⟨total, htotal, -⟩ := Option.any_eq_true _ _ |>.1 hmore
      have hfirst : IsFirst e { s with currentPage := s.currentPage + 1 } s.currentPage :=
        (h.total total htotal).2
      have hasked : s.search = s.asked := hsame
      rw [hasked]
      exact shows_fetchApps hfirst rfl
    · exact h

/-- **What the page shows.**  From the time the route is entered, and as long as a further page is
loaded only for the search whose results are shown, the list is the beginning of the results of
that search; and the link to more apps is there exactly when the last fetch was answered and results
are missing. -/
theorem pages_shown (e : AppStoreEnv V) (f g : Fetch) (events : List Event)
    (hsame : Runs.Meets (step e) SameSearch (step e {} (.enter f g)) events) :
    ((Runs.run (step e) {} (.enter f g :: events)).all.map key <+:
      (e.store (Runs.run (step e) {} (.enter f g :: events)).asked).map key) ∧
    ((Runs.run (step e) {} (.enter f g :: events)).morePagesAvailable = true ↔
      (Runs.run (step e) {} (.enter f g :: events)).totalCount.isSome = true ∧
      (Runs.run (step e) {} (.enter f g :: events)).all.length <
        (e.store (Runs.run (step e) {} (.enter f g :: events)).asked).length) := by
  rw [Runs.run_cons]
  have hshows := Runs.run_invariant (I := Shows e) (fun _ _ h hsame => shows_step h hsame)
    (shows_enter (Nat.le_refl 1) f g) hsame
  generalize Runs.run (step e) (step e {} (.enter f g)) events = s at hshows ⊢
  obtain ⟨k, hfirst⟩ := hshows.first
  refine ⟨hfirst ▸ (List.take_prefix _ _).map key, ?_⟩
  cases htotal : s.totalCount with
  | none =>
    rw [morePagesAvailable, htotal]
    exact iff_of_false Bool.false_ne_true fun h => Bool.false_ne_true h.1
  | some total =>
    obtain ⟨htotals, hpages⟩ := hshows.total total htotal
    have hlength : s.all.length = min (s.currentPage * pageSize) total := by
      have := congrArg List.length hpages
      rwa [List.length_map, List.length_map, List.length_take, ← htotals] at this
    rw [morePagesAvailable, htotal, hlength, ← htotals, Option.any_some, decide_eq_true_eq]
    simp

/-! ### A store with twelve apps -/

/-- Twelve listings, of which a search with a text finds the last ten. -/
def twelve : AppStoreEnv String where
  parse := asText
  env := .mock
  sessions := fun apiKey => if apiKey = "key" then some (.new "root") else none
  store := fun filter =>
    ["a", "b", "c", "d", "e", "f", "g", "h", "i", "j", "k", "l"].map (⟨·, "1.0.0", none⟩) |>.drop
      (if filter = "" then 0 else 2)

/-- A fetch that is answered. -/
def answered : Fetch where
  repository := AppDAO.upgradedBlog
  apiKey := "key"

/-- A search, and a second page of it. -/
def searched : List Event := [.typeText "x", .search answered, .loadNextPage answered]

theorem pages_shown_searched :
    (Runs.run (step twelve) {} (.enter answered answered :: searched)).all.map key <+:
      (twelve.store "x").map key :=
  (pages_shown twelve answered answered searched (by decide +kernel)).1

/-- A text that is typed and not searched for: the second page is that of another search. -/
example : (Runs.run (step twelve) {} [.enter answered answered, .typeText "x",
      .loadNextPage answered]).all.map (·.name) =
    ["a", "b", "c", "d", "e", "f", "g", "h", "i", "l"] := by
  decide +kernel

end AppStorePage

end CloudOs
