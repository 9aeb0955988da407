/-
# Mail domains and their events

Whoever delivers mail keeps the set of domains that the events say.  It is meant to be the set
of names in the table, after every request, whether the writes of the database go through or not.

`create` announces the domain before it saves the row, and `remove` announces the removal before
it deletes the row.  A repeated event does no harm; a row that is then not written does:

| request | out of step when |
| --- | --- |
| `create` of a name that is stored | never |
| `create` of a new name | it was announced, and the row is not saved |
| `remove` of a stored name | it was announced, and the row is not deleted |
-/

import CloudOs.Model.LdapContext
import CloudOs.Resources.EmailDomainsResource

namespace CloudOs

open Prog Replay EmailDomainsResource

namespace Mail

/-- What a listener makes of an event. -/
def hearDomain (domains : Finset String) : EmailDomainEvent → Finset String
  | .newEmailDomain name => insert name domains
  | .removeEmailDomain name => domains.erase name

/-- The events say which domains are stored. -/
def DomainsInStep (s : State) : Prop := replay hearDomain ∅ s.sent = s.domains.names

instance (s : State) : Decidable (DomainsInStep s) := inferInstanceAs (Decidable (_ = _))

/-- Once a domain is announced its row is written.

* A new domain that is announced is saved, and that is not undone.
* A stored domain whose removal is announced is deleted. -/
def WritesAnnounced (env : DomainsEnv) (s : State) : Request → Prop
  | .create apiKey domainName => IsAdminSession env.sessions apiKey →
      env.fails .rooty s.calls = false → env.toLowerCase domainName ∈ s.domains.names ∨
        SaveStays env (s.calls + 1) s.domains
  | .remove apiKey domainName => IsAdminSession env.sessions apiKey →
      env.toLowerCase domainName ∈ s.domains.names → env.fails .rooty s.calls = false →
        env.fails .rooty (s.calls + 1) = false ∧ env.fails .database (s.calls + 2) = false

instance (env : DomainsEnv) (s : State) : ∀ r, Decidable (WritesAnnounced env s r)
  | .create _ _ => inferInstanceAs (Decidable (_ → _ → _ ∨ _))
  | .remove _ _ => inferInstanceAs (Decidable (_ → _ → _ → _ ∧ _))

variable {env : DomainsEnv} {s : State}

/-- **One `create`.** -/
theorem create_inStep_iff (hs : DomainsInStep s) (apiKey domainName : String) :
    DomainsInStep (step env s (.create apiKey domainName)) ↔
      WritesAnnounced env s (.create apiKey domainName) := by
  refine Ends.after (P := fun t => DomainsInStep t ↔ _) (ends_asAdmin (fun hrefused _ _ => ?_)
    fun _ _ hcaller => ?_)
  · exact iff_of_true hs fun h => absurd h hrefused
  simp only [ends_bind, ends_write, WritesAnnounced, hcaller, true_implies]
  by_cases hfails : env.fails .rooty s.calls = true
  · rw [if_pos hfails]
    exact iff_of_true hs fun h => by rw [h] at hfails; exact Bool.noConfusion hfails
  rw [if_neg hfails]
  refine (daoCreate_ends (env.toLowerCase_toLowerCase domainName)).mono fun r t ht => ?_
  have hend : DomainsInStep t ↔
      (env.fails .rooty s.calls = false → env.toLowerCase domainName ∈ s.domains.names ∨
        SaveStays env (s.calls + 1) s.domains) := by
    obtain ⟨⟨events, hsent, hevents⟩, hnames⟩ := ht
    have hview : replay hearDomain ∅ t.sent
        = insert (env.toLowerCase domainName) s.domains.names := by
      rw [hsent, replay_append, replay_append, hs]
      -- the domain once more makes no difference
      refine replay_of_ignored fun m hm => ?_
      rw [hevents m hm]
      exact Finset.insert_eq_of_mem (Finset.mem_insert_self _ _)
    rw [DomainsInStep, hview, hnames]
    dsimp only
    simp only [Bool.eq_false_iff.2 hfails, true_implies]
    split_ifs with hstays
    · exact iff_of_true rfl (Or.inr hstays.2)
    · rw [not_and_or, not_not] at hstays
      rw [Finset.insert_eq_self]
      tauto
  cases r with
  | ok domain => exact hend
  | error e => exact hend

/-- **One `remove`.** -/
theorem remove_inStep_iff (hs : DomainsInStep s) (apiKey domainName : String) :
    DomainsInStep (step env s (.remove apiKey domainName)) ↔
      WritesAnnounced env s (.remove apiKey domainName) := by
  refine Ends.after (P := fun t => DomainsInStep t ↔ _) (ends_asAdmin (fun hrefused _ _ => ?_)
    fun _ _ hcaller => ?_)
  · exact iff_of_true hs fun h => absurd h hrefused
  simp only [ends_bind, ends_get, WritesAnnounced, hcaller, true_implies]
  cases hfound : s.domains.findByName (env.toLowerCase domainName) with
  | none =>
    exact iff_of_true hs fun h => absurd h (NamedTable.findByName_eq_none.1 hfound)
  | some row =>
    obtain ⟨hrow, hname⟩ := NamedTable.findByName_eq_some.1 hfound
    have hstored : env.toLowerCase domainName ∈ s.domains.names :=
      NamedTable.mem_names.2 ⟨row, hrow, hname⟩
    simp only [hstored, true_implies, ends_bind, ends_write]
    by_cases hfails : env.fails .rooty s.calls = true
    · rw [if_pos hfails]
      exact iff_of_true hs fun h => by rw [h] at hfails; exact Bool.noConfusion hfails
    rw [if_neg hfails]
    refine (daoDelete_ends (by exact hrow)).mono fun r t ht => ?_
    have hend : DomainsInStep t ↔ (env.fails .rooty s.calls = false →
        env.fails .rooty (s.calls + 1) = false ∧ env.fails .database (s.calls + 2) = false) := by
      obtain ⟨⟨events, hsent, hevents⟩, hnames⟩ := ht
      have hview : replay hearDomain ∅ t.sent
          = s.domains.names.erase (env.toLowerCase domainName) := by
        rw [hsent, replay_append, replay_append, hs]
        -- the removal once more makes no difference
        refine replay_of_ignored fun m hm => ?_
        rw [hevents m hm, hname, env.toLowerCase_toLowerCase]
        exact Finset.erase_idem
      rw [DomainsInStep, hview, hnames, hname]
      dsimp only
      simp only [Bool.eq_false_iff.2 hfails, true_implies]
      split_ifs with hgoes
      · exact iff_of_true rfl hgoes
      · refine iff_of_false (fun h => ?_) hgoes
        exact Finset.notMem_erase _ _ (h ▸ hstored)
    cases r with
    | ok u => exact hend
    | error e => exact hend

/-! ### Runs -/

/-- **Mail domains and their events stay in step** in the runs in which every announced write
goes through, and in no others. -/
theorem domains_inStep_iff (env : DomainsEnv) (requests : List Request) :
    (∀ before, before <+: requests → DomainsInStep (Runs.run (step env) {} before)) ↔
      Runs.Meets (step env) (WritesAnnounced env) {} requests := by
  have hempty : DomainsInStep {} := rfl
  refine Runs.forall_prefix_iff.trans ?_
  rw [and_iff_right hempty]
  refine Runs.meets_congr (I := DomainsInStep) (fun _ _ _ h => h) (fun s r hs => ?_) hempty
  cases r with
  | create apiKey domainName => exact create_inStep_iff hs apiKey domainName
  | remove apiKey domainName => exact remove_inStep_iff hs apiKey domainName

/-- A server whose database refuses every write. -/
def brokenDatabase : DomainsEnv where
  sessions := fun apiKey =>
    if apiKey = "admin" then some ((Account.new "root").setAdmin true) else none
  toLowerCase := asciiLowerCase
  toLowerCase_toLowerCase := asciiLowerCase_idem
  uuid := fun n => toString n
  rollsBack := false
  fails := fun sys _ => sys == .database

/-- **An announced domain that is not stored.** -/
theorem announced_not_stored :
    ¬ DomainsInStep (Runs.run (step brokenDatabase) {} [.create "admin" "Example.com"]) := by
  decide +kernel

end Mail

end CloudOs
