/-
# DNS records of the cloudstead

The zone is shared: the records under the hostname are the cloudstead's, the others are not.
A request is meant to add and remove records under the hostname only, so that whatever it adds
can be listed and removed through the same resource.

`listAllRecords` and `deleteRecords` set the subdomain of the match to the hostname.
`writeRecord` passes the record on as it came:

| request | leaves the records outside alone |
| --- | --- |
| `deleteRecords` | always |
| `writeRecord` of a record under the hostname | always |
| `writeRecord` of another record | when it is in the zone, or the manager refuses it |
-/

import CloudOs.Resources.DnsRecordsResource

namespace CloudOs

open Prog DnsRecordsResource

namespace Dns

/-- The name of the record lies under the hostname. -/
def Inside (env : DnsEnv) (record : DnsRecord) : Prop :=
  env.inSubdomain env.hostname record.fqdn = true

instance (env : DnsEnv) (record : DnsRecord) : Decidable (Inside env record) :=
  inferInstanceAs (Decidable (_ = _))

/-- No record outside was added or removed between the two states. -/
def OutsideUntouched (env : DnsEnv) (s t : State) : Prop :=
  ∀ record, ¬ Inside env record → (record ∈ t.zone ↔ record ∈ s.zone)

/-- An admin who lists the records gets this one, if the manager answers. -/
def IsListed (env : DnsEnv) (s : State) (record : DnsRecord) : Prop :=
  ∀ apiKey, IsAdminSession env.sessions apiKey → env.fails .list s.calls = none →
    ∃ records, (exec (listAllRecords env apiKey) s).1 = .ok (.ok records) ∧ record ∈ records

/-- An admin who deletes exactly this record is rid of it, if the manager answers. -/
def IsRemovable (env : DnsEnv) (s : State) (record : DnsRecord) : Prop :=
  ∀ apiKey, IsAdminSession env.sessions apiKey → env.fails .remove s.calls = none →
    record ∉ (after (deleteRecords env apiKey (.ofRecord record)) s).zone

/-- The requests that led from `s` to `t` stayed inside the cloudstead. -/
structure StayedInside (env : DnsEnv) (s t : State) : Prop where
  outsideUntouched : OutsideUntouched env s t
  isListed : ∀ record ∈ t.zone, record ∉ s.zone → IsListed env t record
  isRemovable : ∀ record ∈ t.zone, record ∉ s.zone → IsRemovable env t record

/-- A new record that the manager writes is under the hostname. -/
def WritesInside (env : DnsEnv) (s : State) : Request → Prop
  | .writeRecord apiKey record => IsAdminSession env.sessions apiKey →
      env.fails .write s.calls = none → record ∈ s.zone ∨ Inside env record
  | .deleteRecords _ _ => True

variable {env : DnsEnv} {s t : State} {record : DnsRecord}

/-- The match of a request, once the hostname is set, is about records inside only. -/
theorem inside_of_matching {m : DnsRecordMatch}
    (h : matching env { m with subdomain := some env.hostname } record = true) :
    Inside env record := by
  simp only [matching, Bool.and_eq_true] at h
  simpa [Inside] using h.2

/-! ### What one request leaves -/

/-- A request changes the zone when the caller is an admin and the manager carries its call out. -/
theorem zone_asAdmin {β : Type} {apiKey : String} {body : Prog State Failure β} {op : Operation}
    {zone : Finset DnsRecord} (hbody : Ends body s fun _ t =>
      t.zone = if env.fails op s.calls = none then zone else s.zone) :
    (after (asAdmin env.sessions apiKey fun _ => answering body) s).zone =
      if IsAdminSession env.sessions apiKey ∧ env.fails op s.calls = none then zone
      else s.zone := by
  refine Ends.after (P := fun t : State => t.zone = _) (ends_asAdmin (fun hrefused _ _ => ?_)
    fun _ _ hcaller => ?_)
  · exact (if_neg fun h => hrefused h.1).symm
  · simp only [hcaller, true_and]
    exact ends_answering (P := fun t : State => t.zone = _) hbody

/-- **`deleteRecords`** removes records inside that match, or nothing. -/
theorem zone_deleteRecords (apiKey : String) (m : DnsRecordMatch) :
    (step env s (.deleteRecords apiKey m)).zone =
      if IsAdminSession env.sessions apiKey ∧ env.fails .remove s.calls = none then
        s.zone.filter fun record =>
          ¬ matching env { m with subdomain := some env.hostname } record
      else s.zone :=
  zone_asAdmin (remove_leaves _)

/-- **`writeRecord`** adds the record as it came, or nothing. -/
theorem zone_writeRecord (apiKey : String) (record : DnsRecord) :
    (step env s (.writeRecord apiKey record)).zone =
      if IsAdminSession env.sessions apiKey ∧ env.fails .write s.calls = none then
        insert record s.zone
      else s.zone :=
  zone_asAdmin (write_leaves _)

/-! ### Records inside can be managed -/

/-- A record inside is listed. -/
theorem isListed_of_inside (hzone : record ∈ s.zone) (h : Inside env record) :
    IsListed env s record := by
  intro apiKey hcaller hlist
  refine ends_asAdmin (Q := fun r _ => ∃ records, r = .ok (.ok records) ∧ record ∈ records)
    (fun hrefused => absurd hcaller hrefused) fun _ _ _ => ?_
  simp only [answering, list, ends_bind, ends_attempt, DnsRecordsResource.ends_call, hlist,
    ends_get, ends_pure]
  refine ⟨_, rfl, Finset.mem_filter.2 ⟨hzone, ?_⟩⟩
  simpa [matching, Inside] using h

/-- A record inside is removed by its own match. -/
theorem isRemovable_of_inside (h : Inside env record) : IsRemovable env s record := by
  intro apiKey hcaller hremove hmem
  have hzone := @zone_deleteRecords env s apiKey (.ofRecord record)
  rw [if_pos ⟨hcaller, hremove⟩] at hzone
  have hmem' : record ∈ (step env s (.deleteRecords apiKey (.ofRecord record))).zone := hmem
  rw [hzone, Finset.mem_filter] at hmem'
  refine hmem'.2 ?_
  simpa [matching, DnsRecordMatch.ofRecord, Inside] using h

/-- Once a run has left what is outside alone, what it added is inside, and can be managed. -/
theorem stayedInside_iff : StayedInside env s t ↔ OutsideUntouched env s t := by
  refine ⟨fun h => h.outsideUntouched, fun h => ?_⟩
  have hinside : ∀ record ∈ t.zone, record ∉ s.zone → Inside env record := by
    intro record hnow hbefore
    by_contra houtside
    exact hbefore ((h record houtside).1 hnow)
  exact ⟨h, fun record hnow hbefore => isListed_of_inside hnow (hinside record hnow hbefore),
    fun record hnow hbefore => isRemovable_of_inside (hinside record hnow hbefore)⟩

/-! ### Runs -/

/-- **One request** leaves what is outside alone exactly when it writes inside. -/
theorem outsideUntouched_step_iff (r : Request) :
    OutsideUntouched env s (step env s r) ↔ WritesInside env s r := by
  cases r with
  | deleteRecords apiKey m =>
    refine iff_of_true (fun record houtside => ?_) trivial
    rw [zone_deleteRecords]
    split_ifs
    · rw [Finset.mem_filter]
      exact and_iff_left fun hmatch => houtside (inside_of_matching hmatch)
    · exact Iff.rfl
  | writeRecord apiKey written =>
    rw [OutsideUntouched, zone_writeRecord, WritesInside]
    by_cases hwrites : IsAdminSession env.sessions apiKey ∧ env.fails .write s.calls = none
    · rw [if_pos hwrites]
      simp only [hwrites.1, hwrites.2, true_implies]
      constructor
      · intro h
        by_contra hnew
        rw [not_or] at hnew
        exact hnew.1 ((h written hnew.2).1 (Finset.mem_insert_self _ _))
      · intro h record houtside
        rw [Finset.mem_insert]
        refine ⟨fun hmem => hmem.elim (fun heq => ?_) id, Or.inr⟩
        subst heq
        exact h.resolve_right houtside
    · rw [if_neg hwrites]
      exact iff_of_true (fun _ _ => Iff.rfl) fun hcaller hwrite =>
        absurd ⟨hcaller, hwrite⟩ hwrites

/-- What is outside is the same after a step exactly when it was before it and the step
leaves it alone. -/
theorem OutsideUntouched.step_iff (h : OutsideUntouched env s t) (r : Request) :
    OutsideUntouched env s (step env t r) ↔ WritesInside env t r := by
  rw [← outsideUntouched_step_iff]
  exact forall₂_congr fun record houtside => by rw [h record houtside]

/-- The zone outside is as it was at the start in every state of the runs that write inside,
and in no others. -/
theorem untouched_iff (env : DnsEnv) (s : State) (requests : List Request) :
    (∀ before, before <+: requests → OutsideUntouched env s (Runs.run (step env) s before)) ↔
      Runs.Meets (step env) (WritesInside env) s requests := by
  have hstart : OutsideUntouched env s s := fun _ _ => Iff.rfl
  refine Runs.forall_prefix_iff.trans ?_
  rw [and_iff_right hstart]
  exact Runs.meets_congr (I := OutsideUntouched env s) (fun _ _ _ h => h)
    (fun t r ht => ht.step_iff r) hstart

/-- **DNS changes stay inside the cloudstead** in the runs whose new records are under the
hostname, and in no others: whatever the zone holds, no part of the run touches anything outside,
and what it added can be listed and removed from then on. -/
theorem changes_stayInside_iff (env : DnsEnv) (s : State) (requests : List Request) :
    (∀ before later, before ++ later <+: requests →
      StayedInside env (Runs.run (step env) s before) (Runs.run (step env) s (before ++ later))) ↔
      Runs.Meets (step env) (WritesInside env) s requests := by
  simp only [stayedInside_iff]
  rw [← untouched_iff]
  constructor
  · intro h before hbefore
    exact h [] before hbefore
  · intro h before later hprefix record houtside
    have hlater := h (before ++ later) hprefix record houtside
    have hbefore := h before ((List.prefix_append before later).trans hprefix) record houtside
    exact hlater.trans hbefore.symm

/-- The labels of a name, from the last one on. -/
def labels (name : String) : List (List Char) := (name.toList.splitOn '.').reverse

/-- The cloudstead `box.example.com`, in a zone whose manager answers every call. -/
def sharedZone : DnsEnv where
  sessions := fun apiKey =>
    if apiKey = "admin" then some ((Account.new "root").setAdmin true) else none
  hostname := "box.example.com"
  inSubdomain := fun host name => (labels host).isPrefixOf (labels name)
  fails := fun _ _ => none

/-- Another name that ends in the hostname's text. -/
def otherRecord : DnsRecord := ⟨3600, .A, "mailbox.example.com", "10.0.0.1"⟩

/-- **A record that is added outside the cloudstead.** -/
theorem record_added_outside :
    ¬ ∀ before later, before ++ later <+: [.writeRecord "admin" otherRecord] →
      StayedInside sharedZone (Runs.run (step sharedZone) {} before)
        (Runs.run (step sharedZone) {} (before ++ later)) := by
  intro hall
  have h := hall [] [.writeRecord "admin" otherRecord] (List.prefix_refl _)
  have hadded : otherRecord ∈
      (Runs.run (step sharedZone) {} [.writeRecord "admin" otherRecord]).zone := by
    decide +kernel
  have houtside : ¬ Inside sharedZone otherRecord := by
    decide +kernel
  have hbefore := (h.outsideUntouched otherRecord houtside).1 hadded
  exact Finset.notMem_empty _ hbefore

end Dns

end CloudOs
