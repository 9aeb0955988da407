/-
# First-time setup happens at most once

Requests to `/setup` are served at the same time; a schedule says which of them
takes its next phase.  At most one is meant to leave an admin account and to answer
with a session.

The guard looks for administrators in one phase and the account is created in the
next.  Two requests that are both past the guard create both of their accounts.
So setup happens once in the schedules in which no account is created while an
admin is stored.  The invariant is that of a token: a request holds an admin account
from its creation on, until it deletes it, and no two requests hold one.
-/

import CloudOs.Resources.SetupResource

namespace CloudOs

open Prog SetupResource

namespace Setup

variable {env : Env} {ι : Type} [DecidableEq ι]

/-- The server, and where each request stands. -/
structure State (env : Env) (ι : Type) where
  world : World env.ctx
  phase : ι → Phase

/-- Every request is at its start. -/
def State.start (w : World env.ctx) : State env ι := ⟨w, fun _ => .validate⟩

/-- An exception ends a request. -/
def land : Except Exn Phase → Phase
  | .ok p => p
  | .error e => .done (.error e)

/-- The request `i` takes its next phase. -/
def step (requests : ι → SetupRequest) (s : State env ι) (i : ι) : State env ι :=
  let end_ := exec (advance env (requests i) (s.phase i)) s.world
  ⟨end_.2, Function.update s.phase i (land end_.1)⟩

/-- The account of a request that answered with a session. -/
def opened : Phase → Option Account
  | .done (.ok (.ok (.setup _ account _))) => some account
  | _ => none

/-- The stored account of the name is an admin. -/
def AdminStored (dir : Directory env.ctx) (name : String) : Prop :=
  ∃ a, dir.findAccount name = some a ∧ a.isAdmin = true

/-- The request answered with a session, and its account is a stored admin. -/
def Succeeds (s : State env ι) (i : ι) : Prop :=
  ∃ account, opened (s.phase i) = some account ∧ AdminStored s.world.directory account.name

/-- **Setup happens at most once.** -/
def Once (s : State env ι) : Prop := ∀ i j, Succeeds s i → Succeeds s j → i = j

/-- An account is created only while no admin is stored, or under a name that the
directory refuses because it is taken. -/
def CreatesFirst (requests : ι → SetupRequest) (s : State env ι) (i : ι) : Prop :=
  match s.phase i with
  | .create _ => (∀ a ∈ s.world.directory.accounts.values, a.isAdmin = false) ∨
      ((s.world.directory.findAccount (requests i).name).isSome = true ∧ env.ldapaddReplaces = false)
  | _ => True

instance (requests : ι → SetupRequest) (s : State env ι) (i : ι) :
    Decidable (CreatesFirst requests s i) := by
  unfold CreatesFirst
  split <;> infer_instance

/-! ### One request -/

theorem run_replicate (requests : ι → SetupRequest) (i : ι) (n : ℕ) (s : State env ι) :
    Runs.run (step requests) s (List.replicate n i) =
      ⟨(exec (drive env (requests i) n (s.phase i)) s.world).2,
        Function.update s.phase i (land (exec (drive env (requests i) n (s.phase i)) s.world).1)⟩ := by
  induction n generalizing s with
  | zero =>
    have hsame : Function.update s.phase i (s.phase i) = s.phase := Function.update_eq_self i s.phase
    exact congrArg (State.mk s.world) hsame.symm
  | succ n ih =>
    rw [List.replicate_succ, Runs.run_cons, ih, drive, exec_bind]
    simp only [step, Function.update_self, Function.update_idem]
    rcases exec (advance env (requests i) (s.phase i)) s.world with ⟨e | q, t⟩
    · simp only [land, drive_done]
      rfl
    · rfl

/-- **A request that is served alone** is served as `setup` says. -/
theorem run_alone (requests : ι → SetupRequest) (s : State env ι) (i : ι)
    (hi : s.phase i = .validate) : Runs.run (step requests) s (List.replicate 6 i) =
      ⟨(exec (setup env (requests i)) s.world).2,
        Function.update s.phase i (.done (exec (setup env (requests i)) s.world).1)⟩ := by
  rw [run_replicate, hi, drive_setup, exec_bind]
  rcases exec (setup env (requests i)) s.world with ⟨_ | _, _⟩ <;> rfl

/-! ### What a phase holds -/

/-- The name of the admin account that a request has created and not deleted. -/
def held : Phase → Option String
  | .update _ account | .session _ account | .complete _ account _ => some account.name
  | .undo accountName => some accountName
  | .done (.ok (.ok (.setup _ account _))) => some account.name
  | _ => none

theorem held_of_opened {p : Phase} {account : Account} (h : opened p = some account) :
    held p = some account.name := by
  unfold opened at h
  split at h
  · obtain rfl := Option.some.inj h
    rfl
  · exact absurd h (by simp)

/-- An account that is about to be updated is an admin. -/
def Carries : Phase → Prop
  | .update _ account => account.isAdmin = true
  | _ => True

/-- What a phase does that creates no account. -/
structure Keeps (w t : World env.ctx) (p q : Phase) : Prop where
  held : held q = none ∨ held q = held p
  admin : ∀ n, Setup.held q = some n → AdminStored w.directory n → AdminStored t.directory n
  carries : Carries q
  idle : Setup.held p = none → t.directory = w.directory

section Phases

variable {w t : World env.ctx} {p q : Phase} {request : SetupRequest}

/-- A phase that leaves the accounts alone. -/
theorem keeps_of_directory (hheld : held q = none ∨ held q = held p) (hcarries : Carries q)
    (h : t.directory = w.directory) : Keeps w t p q :=
  ⟨hheld, fun _ _ hadmin => h ▸ hadmin, hcarries, fun _ => h⟩

theorem ne_some_of_none {n : String} {P : Prop} (hq : held q = none) (h : held q = some n) : P := by
  rw [hq] at h
  cases h

/-- A request that held an account lets go of it. -/
theorem keeps_of_released {n : String} (hp : held p = some n) (hq : held q = none)
    (hcarries : Carries q) : Keeps w t p q :=
  ⟨Or.inl hq, fun _ h => ne_some_of_none hq h, hcarries, fun h => ne_some_of_none h hp⟩

/-- A request keeps the account that it holds. -/
theorem keeps_of_held {n : String} (hp : held p = some n) (hq : held q = held p)
    (hadmin : AdminStored w.directory n → AdminStored t.directory n) (hcarries : Carries q) :
    Keeps w t p q := by
  refine ⟨Or.inr hq, fun m hm => ?_, hcarries, fun h => ne_some_of_none h hp⟩
  obtain rfl := Option.some.inj (hp.symm.trans (hq.symm.trans hm))
  exact hadmin

/-- Writing over a stored account without taking its admin flag away. -/
theorem AdminStored.putAccount {dir : Directory env.ctx} {n m : String} {e a : Account}
    (h : AdminStored dir n) (he : dir.findAccount m = some e) (hname : a.name = e.name)
    (hadmin : e.isAdmin = true → a.isAdmin = true) : AdminStored (dir.putAccount a) n := by
  obtain ⟨b, hb, hbadmin⟩ := h
  rw [AdminStored, Directory.findAccount, Directory.accountAt_putAccount]
  split_ifs with hdn
  · rw [hname, Directory.userDN_of_accountAt he] at hdn
    rw [Directory.findAccount_congr _ hdn, he] at hb
    obtain rfl := Option.some.inj hb
    exact ⟨a.stored, rfl, by simpa using hadmin hbadmin⟩
  · exact ⟨b, hb, hbadmin⟩

theorem update_keeps {k : String} {account : Account} (hcarries : Carries (.update k account)) :
    Ends (advance env request (.update k account)) w fun r t =>
      Keeps w t (.update k account) (land r) := by
  have haccount : account.isAdmin = true := hcarries
  simp only [advance, ends_bind, ends_attempt]
  refine (AccountDAO.update_ends account).mono fun r t ht => ?_
  have hadmin : AdminStored w.directory account.name → AdminStored t.directory account.name := by
    intro hn
    rcases ht with ⟨_, hs⟩ | ⟨e, he, ⟨_, a, ha, hs⟩ | ⟨a, _, ha, hs⟩⟩
    · exact hs.directory.symm ▸ hn
    · rw [hs.directory]
      exact hn.putAccount he ha.name fun hadmin => ha.isAdmin.trans hadmin
    · rw [hs.directory]
      refine hn.putAccount he ha.name fun hadmin => ?_
      rw [ha.takes.isAdmin, haccount, hadmin, ite_self]
  cases r with
  | error x => exact keeps_of_held rfl rfl hadmin trivial
  | ok a => exact keeps_of_held rfl rfl hadmin trivial

theorem respects_setTimezone (request : SetupRequest) :
    Respects World.Same (setTimezone env request) := by
  unfold setTimezone
  split
  · split
    · exact respects_writeRooty _
    · exact Respects.throw _
  · exact Respects.pure _

/-- Truncating the key file leaves the directory alone. -/
theorem directory_firstTimeSetupCompleted (w : World env.ctx) :
    Ends (SetupSettingsSource.firstTimeSetupCompleted env) w fun _ t =>
      t.directory = w.directory := by
  simp only [SetupSettingsSource.firstTimeSetupCompleted, ends_bind, ends_attempt, ends_call,
    ends_modify]
  split_ifs <;> exact World.called_directory w

/-- **A phase that creates no account** keeps what the request holds, or lets go of it. -/
theorem advance_keeps (hp : ∀ k, p ≠ .create k) (hcarries : Carries p) :
    Ends (advance env request p) w fun r t => Keeps w t p (land r) := by
  cases p with
  | validate =>
    simp only [advance, ends_bind, ends_reads]
    split
    · exact keeps_of_directory (Or.inl rfl) trivial rfl
    · exact keeps_of_directory (Or.inl rfl) trivial rfl
  | adminsExist k =>
    simp only [advance, ends_bind, ends_reads]
    split
    · split_ifs <;> exact keeps_of_directory (Or.inl rfl) trivial rfl
    · exact keeps_of_directory (Or.inl rfl) trivial rfl
  | create k => exact absurd rfl (hp k)
  | update k account => exact update_keeps hcarries
  | undo n =>
    simp only [advance, ends_bind]
    refine (AccountDAO.delete_ends n).mono fun r t _ => ?_
    cases r with
    | error x => exact keeps_of_released rfl rfl trivial
    | ok x => exact keeps_of_released rfl rfl trivial
  | session k account =>
    simp only [advance, ends_bind]
    refine (respects_setTimezone request w).mono fun r t hs => ?_
    cases r with
    | error x => exact keeps_of_directory (Or.inl rfl) trivial hs.directory
    | ok x =>
      simp only [ends_createSession, ends_pure]
      split_ifs
      · exact keeps_of_directory (Or.inl rfl) trivial hs.directory
      · exact keeps_of_directory (Or.inr rfl) trivial hs.directory
  | complete k account id =>
    simp only [advance, ends_bind]
    refine (directory_firstTimeSetupCompleted w).mono fun r t hs => ?_
    cases r with
    | error x => exact keeps_of_directory (Or.inl rfl) trivial hs
    | ok x =>
      simp only [ends_call]
      split_ifs
      · exact keeps_of_directory (Or.inl rfl) trivial hs
      · exact keeps_of_directory (Or.inr rfl) trivial hs
  | done result => exact keeps_of_directory (Or.inr rfl) trivial rfl

/-- **The phase that creates the account** holds no account afterwards, and then it has
changed nothing or added one; or it holds an admin that it has added. -/
theorem create_ends (k : String) : Ends (advance env request (.create k)) w fun r t =>
    Carries (land r) ∧ ((w.Same t ∧ held (land r) = none) ∨
      (((w.directory.findAccount request.name).isSome = true → env.ldapaddReplaces = true) ∧
        ∀ n, held (land r) = some n → AdminStored t.directory n)) := by
  simp only [advance, ends_bind, ends_attempt]
  refine (AccountDAO.create_ends _).mono fun r t ht => ?_
  rcases ht with ⟨⟨x, rfl⟩, hs⟩ | ⟨account, hmade, hadded, hresult⟩
  · exact ⟨trivial, Or.inl ⟨hs, rfl⟩⟩
  have hname : account.name = request.name := hmade.name
  have hadmin : account.isAdmin = true := by rw [hmade.isAdmin, Account.setAdmin_isAdmin]
  have hfree := hname ▸ hadded.free
  cases r with
  | error x => exact ⟨trivial, Or.inr ⟨hfree, fun _ h => ne_some_of_none rfl h⟩⟩
  | ok created =>
    obtain ⟨request', account'⟩ := created
    obtain rfl : account' = account := hresult _ rfl
    simp only [ends_bind, ends_draw, ends_pure, land]
    refine ⟨?_, Or.inr ⟨hfree, fun n hn => ?_⟩⟩
    · exact (activated_isAdmin _ _ _).trans hadmin
    · obtain rfl : account'.name = n := by simpa [held] using hn
      refine ⟨account'.stored, ?_, by simpa using hadmin⟩
      rw [World.called_directory, Directory.findAccount, hadded.accountAt,
        Directory.accountAt_putAccount, if_pos rfl]

end Phases

/-! ### Schedules -/

variable {requests : ι → SetupRequest}

/-- **At most one request holds an admin account**, which is stored. -/
structure OneHolds (s : State env ι) : Prop where
  admin : ∀ i n, held (s.phase i) = some n → AdminStored s.world.directory n
  unique : ∀ i j n m, held (s.phase i) = some n → held (s.phase j) = some m → i = j
  carries : ∀ i, Carries (s.phase i)

omit [DecidableEq ι] in
theorem once_of_oneHolds {s : State env ι} (h : OneHolds s) : Once s := by
  rintro i j ⟨a, ha, -⟩ ⟨b, hb, -⟩
  exact h.unique i j _ _ (held_of_opened ha) (held_of_opened hb)

/-- A request moves on, and what others hold stays. -/
theorem OneHolds.update {s : State env ι} (h : OneHolds s) {i : ι} {t : World env.ctx} {q : Phase}
    (hadmin : ∀ n, held q = some n → AdminStored t.directory n) (hcarries : Carries q)
    (hothers : ∀ j ≠ i, ∀ n, held (s.phase j) = some n →
      held q = none ∧ AdminStored t.directory n) :
    OneHolds (⟨t, Function.update s.phase i q⟩ : State env ι) := by
  constructor
  · intro j n hj
    simp only [Function.update_apply] at hj
    split_ifs at hj with hji
    · exact hadmin n hj
    · exact (hothers j hji n hj).2
  · intro j j' n m hj hj'
    simp only [Function.update_apply] at hj hj'
    split_ifs at hj hj' with hji hji' hji'
    · rw [hji, hji']
    · exact ne_some_of_none (hothers j' hji' m hj').1 hj
    · exact ne_some_of_none (hothers j hji n hj).1 hj'
    · exact h.unique j j' n m hj hj'
  · intro j
    simp only [Function.update_apply]
    split_ifs
    · exact hcarries
    · exact h.carries j

omit [DecidableEq ι] in
/-- No request holds an account while no admin is stored. -/
theorem OneHolds.idle {s : State env ι} (h : OneHolds s)
    (hnone : ∀ a ∈ s.world.directory.accounts.values, a.isAdmin = false) {j : ι} {n : String} :
    held (s.phase j) ≠ some n := by
  intro hj
  obtain ⟨a, ha, hadmin⟩ := h.admin j n hj
  rw [hnone a (s.world.directory.accounts.mem_values_of_lookup ha)] at hadmin
  exact Bool.noConfusion hadmin

theorem oneHolds_create {s : State env ι} {i : ι} {k : String} (h : OneHolds s)
    (hi : CreatesFirst requests s i) (hp : s.phase i = .create k) :
    OneHolds (step requests s i) := by
  have hends : Ends (advance env (requests i) (.create k)) s.world _ := create_ends k
  rw [← hp] at hends
  obtain ⟨hcarries, ⟨hs, hheld⟩ | ⟨hfree, hadmin⟩⟩ := hends
  · refine h.update (fun n hn => ne_some_of_none hheld hn) hcarries fun j _ n hj => ?_
    exact ⟨hheld, hs.directory.symm ▸ h.admin j n hj⟩
  · refine h.update hadmin hcarries fun j _ n hj => ?_
    rw [CreatesFirst, hp] at hi
    rcases hi with hnone | ⟨htaken, hrefuses⟩
    · exact absurd hj (h.idle hnone)
    · rw [hfree htaken] at hrefuses
      exact Bool.noConfusion hrefuses

/-- **One phase of one request.** -/
theorem oneHolds_step {s : State env ι} {i : ι} (h : OneHolds s) (hi : CreatesFirst requests s i) :
    OneHolds (step requests s i) := by
  by_cases hp : ∃ k, s.phase i = .create k
  · obtain ⟨k, hk⟩ := hp
    exact oneHolds_create h hi hk
  have hkeeps : Ends (advance env (requests i) (s.phase i)) s.world _ :=
    advance_keeps (fun k hk => hp ⟨k, hk⟩) (h.carries i)
  refine h.update (fun n hn => ?_) hkeeps.carries fun j hj n hjn => ?_
  · have hheld := hkeeps.held.resolve_left fun hnone => ne_some_of_none hnone hn
    exact hkeeps.admin n hn (h.admin i n (hheld ▸ hn))
  · -- another request holds an account, so that this one has none to hold
    have hidle : held (s.phase i) = none := by
      refine Option.eq_none_iff_forall_ne_some.2 fun m hm => hj ?_
      exact h.unique j i n m hjn hm
    exact ⟨hkeeps.held.elim id fun hheld => hheld.trans hidle,
      (hkeeps.idle hidle).symm ▸ h.admin j n hjn⟩

/-- **First-time setup happens at most once**, in every schedule in which no account is
created while an admin is stored. -/
theorem setup_once (env : Env) (requests : ι → SetupRequest) (w : World env.ctx)
    (schedule : List ι)
    (hfirst : Runs.Meets (step requests) (CreatesFirst requests) (State.start w) schedule) :
    Once (Runs.run (step requests) (State.start w) schedule) := by
  have hstart : OneHolds (State.start w : State env ι) := by
    constructor
    · exact fun _ _ h => ne_some_of_none rfl h
    · exact fun _ _ _ _ h => ne_some_of_none rfl h
    · exact fun _ => trivial
  have hone := Runs.run_invariant (I := OneHolds) (fun _ _ => oneHolds_step) hstart hfirst
  exact once_of_oneHolds hone

/-- A server that was never set up. -/
def fresh : World Env.mock.ctx where
  keyFile := .settings
    { secret := "key", email := "root@example.com", passwordHash := "pw", backupKey := "b" }

/-- Two requests with the right key and password, and two names. -/
def twoRequests (b : Bool) : SetupRequest where
  toAccount := (Account.new (if b then "root" else "boss")).setPassword (some "p")
  setupKey := "key"
  initialPassword := "pw"

/-- One after the other. -/
theorem setup_once_sequential : Once (Runs.run (step twoRequests) (State.start fresh)
    (List.replicate 6 true ++ List.replicate 6 false)) :=
  setup_once .mock twoRequests fresh _ (by decide +kernel)

omit [DecidableEq ι] in
theorem succeeds_of_eval {s : State env ι} {i : ι} {n : String}
    (hname : (opened (s.phase i)).map (·.name) = some n)
    (hadmin : (s.world.directory.findAccount n).map Account.isAdmin = some true) : Succeeds s i := by
  obtain ⟨account, hopened, rfl⟩ := Option.map_eq_some_iff.1 hname
  obtain ⟨a, ha⟩ := Option.map_eq_some_iff.1 hadmin
  exact ⟨account, hopened, a, ha⟩

/-- **Two administrators.**  Both requests pass the guard before one of them creates its
account, and both answer with a session. -/
theorem setup_twice : ¬ Once (Runs.run (step twoRequests) (State.start fresh)
    [true, false, true, false, true, false, true, false, true, false, true, false]) := by
  intro h
  refine absurd (h true false ?_ ?_) (by decide)
  · exact succeeds_of_eval (n := "root") (by decide +kernel) (by decide +kernel)
  · exact succeeds_of_eval (n := "boss") (by decide +kernel) (by decide +kernel)

end Setup

end CloudOs
