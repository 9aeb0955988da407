/-
# `ServiceKeyDAO` and `ServiceKeysResource`

A service key lets someone who supports the cloudstead log in to it.  The public key is a file in a
directory of rooty; it is written and deleted by rooty when it handles a message, and read by the
server.

| request | what it asks of the directory | message to rooty |
| --- | --- | --- |
| `findServiceKeys` | all files that look like a public key | |
| `findServiceKey` | the file of the name | |
| `generateKey` | no file of the name | `GENERATE` |
| `destroyKey` | a file of the name | `DESTROY` |

`ServiceKeyHandler` is code of rooty.  `keyName` and `baseKeyName` turn the name of a key into that
of its file and back, and `handle` is what a message does to the directory.  `request m n` is what
the server is answered to message number `n`, or nothing in time; a message that is not answered in
time is handled all the same.  The server serves one request after the other; rooty handles its
messages at any time in between.
-/

import CloudOs.Dao.GroupMembers
import CloudOs.Lib.Runs
import CloudOs.Model.Answers
import Mathlib.Data.List.AList

namespace CloudOs

open Prog

namespace ServiceKeyRequest

/-- `ServiceKeyRequest.Operation`. -/
inductive Operation
  | GENERATE | DESTROY
  deriving DecidableEq, Repr

/-- `ServiceKeyRequest.Recipient`. -/
inductive Recipient
  | VENDOR | CUSTOMER
  deriving DecidableEq, Repr

end ServiceKeyRequest

/-- `rooty.toots.service.ServiceKeyRequest`, as it is sent. -/
structure ServiceKeyRequest where
  name : Option String := none
  operation : Option ServiceKeyRequest.Operation := none
  recipient : Option ServiceKeyRequest.Recipient := none
  deriving DecidableEq, Repr

/-- What is read of a request that rooty has handled. -/
structure ServiceKeyStatus where
  isSuccess : Bool
  errorCount : ℕ := 0
  results : Option String := none
  deriving DecidableEq, Repr

/-- `cloudos.model.ServiceKey`. -/
structure ServiceKey where
  publicKey : String
  name : String
  deriving DecidableEq, Repr

/-- The directory of the public keys: the files and what is in them. -/
abbrev KeyFiles := AList fun _ : String => String

/-- What the server cannot change. -/
structure ServiceKeyEnv where
  sessions : String → Option Account
  KEYNAME_PREFIX : String
  KEYNAME_SUFFIX : String
  keyName : String → String
  baseKeyName : String → String
  unreadable : String → Bool
  request : ServiceKeyRequest → ℕ → Except Exn (Option ServiceKeyStatus)
  handle : ServiceKeyRequest → KeyFiles → KeyFiles

namespace ServiceKeyDAO

variable (env : ServiceKeyEnv)

def PUB_SUFFIX : String := ".pub"

/-- `KEY_FILTER`. -/
def accept (name : String) : Bool :=
  env.KEYNAME_PREFIX.toList.isPrefixOf name.toList &&
    (env.KEYNAME_SUFFIX ++ PUB_SUFFIX).toList.isSuffixOf name.toList

def toStringOrDie (file content : String) : Except Exn String :=
  if env.unreadable file then .error (.die "toStringOrDie") else .ok content

/-- The file of a public key. -/
def keyfile (name : String) : String := env.keyName name ++ PUB_SUFFIX

def findByName (files : KeyFiles) (name : String) : Except Exn (Option ServiceKey) :=
  match files.lookup (keyfile env name) with
  | none => .ok none
  | some content => do
    let publicKey ← toStringOrDie env (keyfile env name) content
    return some { publicKey := publicKey, name := name }

/-- The name of a file without its suffix. -/
def basename (file : String) : String :=
  String.ofList (file.toList.take (file.toList.length - PUB_SUFFIX.toList.length))

/-- The key that is read from a file. -/
def readKey (file content : String) : Except Exn ServiceKey := do
  let publicKey ← toStringOrDie env file content
  return { publicKey := publicKey, name := env.baseKeyName (basename file) }

def findAll (files : KeyFiles) : Except Exn (List ServiceKey) :=
  (files.entries.filter fun f => accept env f.1).mapM fun f => readKey env f.1 f.2

end ServiceKeyDAO

namespace ServiceKeysResource

open ServiceKeyRequest ServiceKeyDAO

/-- The body of an answer. -/
inductive KeyBody
  | empty
  | key (key : ServiceKey)
  | keys (keys : List ServiceKey)
  | vendorMessage (key : Option String)

/-- What the server and rooty share: the directory, the messages that rooty has not handled yet,
the oldest first, and all that were sent. -/
structure State where
  files : KeyFiles := ∅
  waiting : List ServiceKeyRequest := []
  sent : List ServiceKeyRequest := []

variable (env : ServiceKeyEnv)

/-- A message is sent. -/
def State.send (s : State) (message : ServiceKeyRequest) : State :=
  { s with waiting := s.waiting ++ [message], sent := s.sent ++ [message] }

/-- `rooty.request`. -/
def request (message : ServiceKeyRequest) : Prog State Exn (Option ServiceKeyStatus) := fun s =>
  (env.request message s.sent.length, s.send message)

/-- `serviceKeyDAO.findByName`. -/
def findByName (name : String) : Prog State Exn (Option ServiceKey) :=
  reads fun s => ServiceKeyDAO.findByName env s.files name

def findServiceKeys (apiKey : String) : Prog State Exn (Answer KeyBody) :=
  asAdmin env.sessions apiKey fun _ => do
    let keys ← reads fun s => findAll env s.files
    return .ok (.keys keys)

def findServiceKey (apiKey name : String) : Prog State Exn (Answer KeyBody) :=
  asAdmin env.sessions apiKey fun _ => do
    match ← findByName env name with
    | none => return .notFound name
    | some found => return .ok (.key found)

/-- The pattern `^\{?err\..+}`, where a dot stands for no end of a line: an error of rooty that is
passed on. -/
def isError (results : String) : Bool :=
  let cs := results.toList
  let rest := if cs.head? = some '{' then cs.tail else cs
  match rest with
  | 'e' :: 'r' :: 'r' :: '.' :: key =>
    key.length ≥ 2 && key.getLast? = some '}' &&
      key.all fun c => !(['\n', '\r', '\u0085', '\u2028', '\u2029'].contains c)
  | _ => false

/-- What `generateKey` makes of the answer of rooty.  Without an answer in time, the message that is
logged is read from a null. -/
def respond (recipient : Option Recipient) :
    Option ServiceKeyStatus → Except Exn (Answer KeyBody)
  | none => .error .nullPointer
  | some message =>
    if message.isSuccess && message.errorCount = 0 then
      if recipient = some .CUSTOMER then .ok (.ok (.vendorMessage message.results))
      else .ok (.ok .empty)
    else
      match message.results with
      | none => .error .nullPointer
      | some results =>
        if isError results then .ok (.invalid results) else .ok (.invalid "err.serviceKey.failed")

/-- The message that generates a key. -/
def generate (name : String) (recipient : Option Recipient) : ServiceKeyRequest where
  name := some name
  operation := some .GENERATE
  recipient := recipient

/-- The message that destroys a key. -/
def destroy (name : String) : ServiceKeyRequest where
  name := some name
  operation := some .DESTROY

def generateKey (apiKey name : String) (keyRequest : ServiceKeyRequest) :
    Prog State Exn (Answer KeyBody) :=
  asAdmin env.sessions apiKey fun _ =>
    if keyRequest.name ≠ some name then return .invalid ""
    else do
      match ← findByName env name with
      | some _ =>
        throw (.invalidEx "{err.serviceKey.exists}" (some "a key with that name already exists"))
      | none => do
        let message ← request env (generate name keyRequest.recipient)
        reads fun _ => respond keyRequest.recipient message

def destroyKey (apiKey name : String) : Prog State Exn (Answer KeyBody) :=
  asAdmin env.sessions apiKey fun _ => do
    match ← findByName env name with
    | none => return .notFound name
    | some _ =>
      match ← attempt (request env (destroy name)) with
      | .error _ => return .serverError
      | .ok _ => return .ok .empty

/-- What happens next: a request is served, or rooty handles a message. -/
inductive Action
  | findServiceKeys (apiKey : String)
  | findServiceKey (apiKey name : String)
  | generateKey (apiKey name : String) (keyRequest : ServiceKeyRequest)
  | destroyKey (apiKey name : String)
  | handle

/-- One action. -/
def step (s : State) : Action → State
  | .findServiceKeys apiKey => after (findServiceKeys env apiKey) s
  | .findServiceKey apiKey name => after (findServiceKey env apiKey name) s
  | .generateKey apiKey name keyRequest => after (generateKey env apiKey name keyRequest) s
  | .destroyKey apiKey name => after (destroyKey env apiKey name) s
  | .handle =>
    match s.waiting with
    | [] => s
    | message :: waiting => { s with files := env.handle message s.files, waiting := waiting }

/-! ### The directory -/

/-- What rooty's code does: the file of a key is named after the key, and a message is about the
file of its own key. -/
structure Lawful (env : ServiceKeyEnv) : Prop where
  keyName : ∀ n, env.keyName n = env.KEYNAME_PREFIX ++ n ++ env.KEYNAME_SUFFIX
  baseKeyName : ∀ n, env.baseKeyName (env.keyName n) = n
  handle : ∀ message files file, message.name.map (keyfile env) ≠ some file →
    (env.handle message files).lookup file = files.lookup file

/-- Every file that looks like a public key is that of a key. -/
def Tidy (files : KeyFiles) : Prop :=
  ∀ file content, files.lookup file = some content → accept env file = true →
    ∃ n, file = keyfile env n

variable {env}

/-- The name of a file, without its suffix. -/
theorem basename_keyfile (n : String) : basename (keyfile env n) = env.keyName n := by
  rw [basename, keyfile, String.toList_append, List.length_append, Nat.add_sub_cancel,
    List.take_left, String.ofList_toList]

theorem keyfile_injective (h : Lawful env) : Function.Injective (keyfile env) := by
  intro m n hmn
  have hbase := congrArg basename hmn
  rw [basename_keyfile, basename_keyfile] at hbase
  exact (h.baseKeyName m).symm.trans ((congrArg env.baseKeyName hbase).trans (h.baseKeyName n))

/-- The file of a key looks like a public key. -/
theorem accept_keyfile (h : Lawful env) (n : String) : accept env (keyfile env n) = true := by
  rw [accept, keyfile, h.keyName, Bool.and_eq_true, List.isPrefixOf_iff_prefix,
    List.isSuffixOf_iff_suffix]
  simp only [String.toList_append, List.append_assoc]
  exact ⟨List.prefix_append _ _, List.suffix_append_of_suffix (List.suffix_append _ _)⟩

/-- What is read of the file of a key. -/
theorem readKey_keyfile (h : Lawful env) {n content : String} {key : ServiceKey} :
    readKey env (keyfile env n) content = .ok key ↔
      env.unreadable (keyfile env n) = false ∧ key = ⟨content, n⟩ := by
  rw [readKey, basename_keyfile, h.baseKeyName, toStringOrDie]
  cases env.unreadable (keyfile env n) with
  | true => exact iff_of_false of_error_eq_ok fun h => Bool.noConfusion h.1
  | false => exact ⟨fun h => ⟨rfl, (Except.ok.inj h).symm⟩, fun h => congrArg Except.ok h.2.symm⟩

/-- A key is found when its file is there and can be read. -/
theorem findByName_eq_some {files : KeyFiles} {n : String} {key : ServiceKey} :
    ServiceKeyDAO.findByName env files n = .ok (some key) ↔
      files.lookup (keyfile env n) = some key.publicKey ∧
        env.unreadable (keyfile env n) = false ∧ key.name = n := by
  obtain ⟨publicKey, name⟩ := key
  rw [ServiceKeyDAO.findByName]
  cases files.lookup (keyfile env n) with
  | none =>
    refine iff_of_false (fun h => ?_) fun h => absurd h.1.symm (Option.some_ne_none publicKey)
    exact absurd (Except.ok.inj h).symm (Option.some_ne_none _)
  | some content =>
    simp only [toStringOrDie, Option.some.injEq]
    cases env.unreadable (keyfile env n) with
    | true => exact iff_of_false of_error_eq_ok fun h => Bool.noConfusion h.2.1
    | false =>
      constructor
      · intro h
        obtain ⟨rfl, rfl⟩ := ServiceKey.mk.inj (Option.some.inj (Except.ok.inj h))
        exact ⟨rfl, rfl, rfl⟩
      · rintro ⟨rfl, -, rfl⟩
        rfl

/-- What stands in the directory, file by file. -/
theorem mem_files {files : KeyFiles} {f : Sigma fun _ : String => String} :
    f ∈ files.entries ↔ files.lookup f.1 = some f.2 := AList.mem_lookup_iff.symm

/-- **The list and the lookup agree.**  In a directory where every file that looks like a public
key is that of a key, the keys that are listed are those that are found under their names, each of
them once. -/
theorem findAll_agrees (h : Lawful env) {files : KeyFiles} (ht : Tidy env files)
    {keys : List ServiceKey} (hall : findAll env files = .ok keys) :
    (∀ key, key ∈ keys ↔ ServiceKeyDAO.findByName env files key.name = .ok (some key)) ∧
      (keys.map ServiceKey.name).Nodup := by
  have hfile : ∀ f ∈ files.entries.filter fun f => accept env f.1, ∃ n, f.1 = keyfile env n := by
    intro f hf
    obtain ⟨hmem, haccept⟩ := List.mem_filter.1 hf
    exact ht f.1 f.2 (mem_files.1 hmem) haccept
  refine ⟨fun key => ?_, ?_⟩
  · rw [findByName_eq_some]
    constructor
    · intro hkey
      obtain ⟨⟨file, content⟩, hf, hread⟩ := mem_of_mapM_ok hall hkey
      obtain ⟨n, rfl⟩ := hfile _ hf
      obtain ⟨hreads, rfl⟩ := (readKey_keyfile h).1 hread
      exact ⟨mem_files.1 (List.mem_filter.1 hf).1, hreads, rfl⟩
    · rintro ⟨hlookup, hreads, -⟩
      have hf : ⟨keyfile env key.name, key.publicKey⟩ ∈
          files.entries.filter fun f => accept env f.1 :=
        List.mem_filter.2 ⟨mem_files.2 hlookup, accept_keyfile h key.name⟩
      obtain ⟨key', hkey', hread⟩ := exists_of_mapM_ok hall hf
      obtain ⟨-, rfl⟩ := (readKey_keyfile h).1 hread
      exact hkey'
  · -- the name of a key is that of its file, and no two files have one name
    have hnames : List.Forall₂ (fun f key => f.1 = keyfile env (ServiceKey.name key))
        (files.entries.filter fun f => accept env f.1) keys := by
      refine ((List.forall₂_and_left _ _).2 ⟨hfile, mapM_ok_iff.1 hall⟩).imp ?_
      rintro ⟨file, content⟩ key ⟨⟨n, rfl⟩, hread⟩
      obtain ⟨-, rfl⟩ := (readKey_keyfile h).1 hread
      rfl
    have hmap : (files.entries.filter fun f => accept env f.1).map Sigma.fst =
        (keys.map ServiceKey.name).map (keyfile env) := by
      rw [List.map_map, ← List.forall₂_eq_eq_eq, List.forall₂_map_left_iff,
        List.forall₂_map_right_iff]
      exact hnames
    have hnodup : ((files.entries.filter fun f => accept env f.1).map Sigma.fst).Nodup :=
      files.nodupKeys.sublist List.filter_sublist
    rw [hmap] at hnodup
    exact hnodup.of_map _

/-! ### Runs -/

/-- A message that an action of an admin asks for, where the directory allows it. -/
inductive Asks (env : ServiceKeyEnv) (s : State) : Action → ServiceKeyRequest → Prop
  | generates {apiKey name : String} {keyRequest : ServiceKeyRequest}
      (admin : IsAdminSession env.sessions apiKey) (named : keyRequest.name = some name)
      (free : s.files.lookup (keyfile env name) = none) :
      Asks env s (.generateKey apiKey name keyRequest) (generate name keyRequest.recipient)
  | destroys {apiKey name : String} (admin : IsAdminSession env.sessions apiKey)
      (found : (s.files.lookup (keyfile env name)).isSome = true) :
      Asks env s (.destroyKey apiKey name) (destroy name)

variable {s : State}

/-- Only a missing file is no key. -/
theorem findByName_eq_none {files : KeyFiles} {n : String} :
    ServiceKeyDAO.findByName env files n = .ok none ↔ files.lookup (keyfile env n) = none := by
  rw [ServiceKeyDAO.findByName]
  cases files.lookup (keyfile env n) with
  | none => exact iff_of_true rfl rfl
  | some content =>
    refine iff_of_false (fun h => ?_) (Option.some_ne_none content)
    obtain ⟨publicKey, -, h⟩ := exists_of_bind_eq_ok h
    exact absurd (Except.ok.inj h) (Option.some_ne_none _)

@[simp] theorem ends_request (message : ServiceKeyRequest)
    (Q : Except Exn (Option ServiceKeyStatus) → State → Prop) :
    Ends (request env message) s Q ↔
      Q (env.request message s.sent.length) (s.send message) := Iff.rfl

/-- **What `generateKey` leaves.** -/
theorem generateKey_leaves (apiKey name : String) (keyRequest : ServiceKeyRequest) :
    Ends (generateKey env apiKey name keyRequest) s fun _ t => t = s ∨ ∃ message,
      Asks env s (.generateKey apiKey name keyRequest) message ∧ t = s.send message := by
  refine ends_asAdmin (fun _ _ _ => Or.inl rfl) fun _ _ hadmin => ?_
  split_ifs with hname
  · exact Or.inl rfl
  rw [findByName, ends_bind, ends_reads]
  cases hfound : ServiceKeyDAO.findByName env s.files name with
  | error x => exact Or.inl rfl
  | ok found =>
    cases found with
    | some key => exact Or.inl rfl
    | none =>
      have hasks := Asks.generates hadmin (not_not.1 hname) (findByName_eq_none.1 hfound)
      dsimp only
      rw [ends_bind, ends_request]
      cases env.request (generate name keyRequest.recipient) s.sent.length with
      | error x => exact Or.inr ⟨_, hasks, rfl⟩
      | ok answer => exact Or.inr ⟨_, hasks, rfl⟩

/-- **What `destroyKey` leaves.** -/
theorem destroyKey_leaves (apiKey name : String) :
    Ends (destroyKey env apiKey name) s fun _ t => t = s ∨ ∃ message,
      Asks env s (.destroyKey apiKey name) message ∧ t = s.send message := by
  refine ends_asAdmin (fun _ _ _ => Or.inl rfl) fun _ _ hadmin => ?_
  rw [findByName, ends_bind, ends_reads]
  cases hfound : ServiceKeyDAO.findByName env s.files name with
  | error x => exact Or.inl rfl
  | ok found =>
    cases found with
    | none => exact Or.inl rfl
    | some key =>
      have hfile := (findByName_eq_some.1 hfound).1
      have hasks := Asks.destroys hadmin (Option.isSome_iff_exists.2 ⟨_, hfile⟩)
      dsimp only
      rw [ends_bind, ends_attempt, ends_request]
      cases env.request (destroy name) s.sent.length with
      | error x => exact Or.inr ⟨_, hasks, rfl⟩
      | ok answer => exact Or.inr ⟨_, hasks, rfl⟩

/-- **What an action does**: nothing, or it sends the message that it asks for, or rooty handles the
oldest message. -/
theorem step_cases (env : ServiceKeyEnv) (s : State) (a : Action) : step env s a = s ∨
    (∃ message, Asks env s a message ∧ step env s a = s.send message) ∨
    ∃ message waiting, a = .handle ∧ s.waiting = message :: waiting ∧
      step env s a = { s with files := env.handle message s.files, waiting := waiting } := by
  cases a with
  | findServiceKeys apiKey =>
    have hends : Ends (findServiceKeys env apiKey) s fun _ t => t = s :=
      ends_asAdmin (fun _ _ _ => rfl) fun _ _ _ => by
        rw [ends_bind, ends_reads]
        split <;> rfl
    exact Or.inl hends
  | findServiceKey apiKey name =>
    have hends : Ends (findServiceKey env apiKey name) s fun _ t => t = s :=
      ends_asAdmin (fun _ _ _ => rfl) fun _ _ _ => by
        rw [findByName, ends_bind, ends_reads]
        split
        · split <;> rfl
        · rfl
    exact Or.inl hends
  | generateKey apiKey name keyRequest =>
    have hends : Ends (generateKey env apiKey name keyRequest) s _ := generateKey_leaves _ _ _
    exact hends.imp id Or.inl
  | destroyKey apiKey name =>
    have hends : Ends (destroyKey env apiKey name) s _ := destroyKey_leaves _ _
    exact hends.imp id Or.inl
  | handle =>
    rw [step]
    cases hwaiting : s.waiting with
    | nil => exact Or.inl rfl
    | cons message waiting => exact Or.inr (Or.inr ⟨message, waiting, rfl, rfl, rfl⟩)

/-- Rooty keeps the directory tidy. -/
theorem tidy_step (h : Lawful env) (ht : Tidy env s.files) (a : Action) :
    Tidy env (step env s a).files := by
  rcases step_cases env s a with hstep | ⟨_, _, hstep⟩ | ⟨message, _, _, _, hstep⟩
  · rw [hstep]
    exact ht
  · rw [hstep]
    exact ht
  · rw [hstep]
    intro file content hfile haccept
    by_cases hname : message.name.map (keyfile env) = some file
    · obtain ⟨n, -, hn⟩ := Option.map_eq_some_iff.1 hname
      exact ⟨n, hn.symm⟩
    · exact ht file content ((h.handle message s.files file hname).symm.trans hfile) haccept

/-- **What is listed is what is found.**  After every run of requests and of messages that rooty
handles, the keys that are listed are those that are found under their names, each of them once. -/
theorem listed_iff_found (h : Lawful env) {s : State} (ht : Tidy env s.files) (as : List Action)
    {keys : List ServiceKey} (hall : findAll env (Runs.run (step env) s as).files = .ok keys) :
    (∀ key, key ∈ keys ↔
      ServiceKeyDAO.findByName env (Runs.run (step env) s as).files key.name = .ok (some key)) ∧
      (keys.map ServiceKey.name).Nodup :=
  findAll_agrees h (Runs.run_preserves (I := fun s : State => Tidy env s.files)
    (fun _ a ht => tidy_step h ht a) ht as) hall

/-- The key is there, and no message about it is waiting. -/
structure Settled (env : ServiceKeyEnv) (n key : String) (s : State) : Prop where
  file : s.files.lookup (keyfile env n) = some key
  waiting : ∀ message ∈ s.waiting, message.name ≠ some n

/-- An admin asks for the deletion of the key. -/
def Destroys (env : ServiceKeyEnv) (n : String) (a : Action) : Prop :=
  ∃ apiKey, IsAdminSession env.sessions apiKey ∧ a = .destroyKey apiKey n

theorem settled_step (h : Lawful env) {n key : String} (hs : Settled env n key s) {a : Action}
    (ha : ¬ Destroys env n a) : Settled env n key (step env s a) := by
  rcases step_cases env s a with
    hstep | ⟨message, hasks, hstep⟩ | ⟨message, waiting, _, hwaiting, hstep⟩
  · rw [hstep]
    exact hs
  · rw [hstep]
    refine ⟨hs.file, fun other hother => ?_⟩
    rcases List.mem_append.1 hother with hold | hnew
    · exact hs.waiting other hold
    · obtain rfl := List.mem_singleton.1 hnew
      cases hasks with
      | @generates apiKey name keyRequest admin named free =>
        intro hname
        obtain rfl := Option.some.inj hname
        exact absurd (free.symm.trans hs.file) (Option.some_ne_none key).symm
      | @destroys apiKey name admin found =>
        intro hname
        obtain rfl := Option.some.inj hname
        exact ha ⟨apiKey, admin, rfl⟩
  · rw [hstep]
    have hother := hs.waiting message (hwaiting ▸ List.mem_cons_self)
    refine ⟨(h.handle message s.files _ fun hfile => ?_).trans hs.file, fun m hm => ?_⟩
    · obtain ⟨m, hm, hsame⟩ := Option.map_eq_some_iff.1 hfile
      exact hother (hm.trans (congrArg some (keyfile_injective h hsame)))
    · exact hs.waiting m (hwaiting ▸ List.mem_cons_of_mem message hm)

/-- **A key is never overwritten.**  A key that is there while no message about it is waiting is
there, with the same content, after every run in which no admin asks for its deletion. -/
theorem key_kept (h : Lawful env) {n key : String} {s : State} (hs : Settled env n key s)
    (as : List Action) (has : ∀ a ∈ as, ¬ Destroys env n a) :
    (Runs.run (step env) s as).files.lookup (keyfile env n) = some key :=
  (Runs.run_invariant (I := Settled env n key) (C := fun _ a => ¬ Destroys env n a)
    (fun _ _ hs ha => settled_step h hs ha) hs (Runs.meets_of_mem s has)).file

/-- An action of the run asked for the message, in the state that it found. -/
def AskedIn (env : ServiceKeyEnv) (as : List Action) (message : ServiceKeyRequest) : Prop :=
  ∃ js a, js ++ [a] <+: as ∧ Asks env (Runs.run (step env) {} js) a message

/-- **Only admins have keys made and destroyed.**  Every message that rooty is sent in a run was
asked for by an admin, for the name in the path of the request; no key is asked for while its file
is there, and none is destroyed that is not there. -/
theorem sent_by_admins (env : ServiceKeyEnv) (as : List Action) :
    ∀ message ∈ (Runs.run (step env) {} as).sent, AskedIn env as message := by
  induction as using List.reverseRecOn with
  | nil => exact fun _ h => absurd h List.not_mem_nil
  | append_singleton as a ih =>
    have hlonger : ∀ message, AskedIn env as message → AskedIn env (as ++ [a]) message := by
      rintro message ⟨js, b, hprefix, hasks⟩
      exact ⟨js, b, hprefix.trans (List.prefix_append _ _), hasks⟩
    rw [Runs.run_append, Runs.run_cons, Runs.run_nil]
    rcases step_cases env (Runs.run (step env) {} as) a with
      hstep | ⟨message, hasks, hstep⟩ | ⟨_, _, _, _, hstep⟩
    · rw [hstep]
      exact fun message hmessage => hlonger message (ih message hmessage)
    · rw [hstep]
      intro other hother
      rcases List.mem_append.1 hother with hold | hnew
      · exact hlonger other (ih other hold)
      · obtain rfl := List.mem_singleton.1 hnew
        exact ⟨as, a, List.prefix_rfl, hasks⟩
    · rw [hstep]
      exact fun message hmessage => hlonger message (ih message hmessage)

/-! ### A directory with a key -/

/-- A handler that makes and deletes the file of a key. -/
def handleKey (keyName : String → String) (message : ServiceKeyRequest) (files : KeyFiles) :
    KeyFiles :=
  match message.operation, message.name with
  | some .GENERATE, some n => files.insert (keyName n ++ PUB_SUFFIX) ("ssh-rsa " ++ n)
  | some .DESTROY, some n => files.erase (keyName n ++ PUB_SUFFIX)
  | _, _ => files

/-- A rooty that makes every key it is asked for. -/
def mockEnv : ServiceKeyEnv where
  sessions := fun apiKey =>
    if apiKey = "root" then some ((Account.new "root").setAdmin true) else none
  KEYNAME_PREFIX := "key_"
  KEYNAME_SUFFIX := "_rsa"
  keyName := fun n => "key_" ++ n ++ "_rsa"
  baseKeyName := fun file => String.ofList ((file.toList.drop 4).take (file.toList.length - 8))
  unreadable := fun _ => false
  request := fun _ _ => .ok (some { isSuccess := true })
  handle := handleKey fun n => "key_" ++ n ++ "_rsa"

theorem lawful_mockEnv : Lawful mockEnv where
  keyName _ := rfl
  baseKeyName n := by
    simp [mockEnv, String.toList_append]
  handle message files file h := by
    change (handleKey _ message files).lookup file = _
    unfold handleKey
    split
    · next n hop hname =>
      refine AList.lookup_insert_ne fun hfile => h ?_
      rw [hname, hfile]
      rfl
    · next n hop hname =>
      refine AList.lookup_erase_ne fun hfile => h ?_
      rw [hname, hfile]
      rfl
    · rfl

/-- The key of the vendor. -/
def withVendor : State where
  files := (∅ : KeyFiles).insert "key_vendor_rsa.pub" "ssh-rsa vendor"

/-- The vendor's key is asked for again, and another key is made. -/
def making : List Action :=
  [.generateKey "root" "vendor" { name := some "vendor" }, .handle,
    .generateKey "root" "backup" { name := some "backup" }, .handle]

/-- The other key is destroyed then. -/
def busy : List Action := making ++ [.destroyKey "root" "backup", .handle]

theorem key_kept_vendor : (Runs.run (step mockEnv) withVendor busy).files.lookup
    (keyfile mockEnv "vendor") = some "ssh-rsa vendor" := by
  have hsettled : Settled mockEnv "vendor" "ssh-rsa vendor" withVendor :=
    ⟨AList.lookup_insert _, fun _ h => absurd h List.not_mem_nil⟩
  refine key_kept lawful_mockEnv hsettled busy ?_
  rintro a ha ⟨apiKey, -, rfl⟩
  simp [busy, making] at ha

/-- The key that is made in a run from nothing was asked for by an admin. -/
theorem sent_by_admins_vendor : AskedIn mockEnv
    [.generateKey "root" "vendor" { name := some "vendor" }, .handle] (generate "vendor" none) :=
  sent_by_admins mockEnv _ _ (by exact List.mem_singleton.2 rfl)

theorem tidy_withVendor : Tidy mockEnv withVendor.files := by
  intro file content hfile _
  refine ⟨"vendor", ?_⟩
  by_contra hne
  have hother : withVendor.files.lookup file = none := AList.lookup_insert_ne hne
  exact absurd (hfile.symm.trans hother) (Option.some_ne_none content)

def bothKeys : List ServiceKey := [⟨"ssh-rsa backup", "backup"⟩, ⟨"ssh-rsa vendor", "vendor"⟩]

/-- Both keys are listed, and found. -/
theorem listed_iff_found_vendor :
    (∀ key, key ∈ bothKeys ↔ ServiceKeyDAO.findByName mockEnv
      (Runs.run (step mockEnv) withVendor making).files key.name = .ok (some key)) ∧
      (bothKeys.map ServiceKey.name).Nodup :=
  listed_iff_found lawful_mockEnv tidy_withVendor making (by rfl)

end ServiceKeysResource

end CloudOs
