/-
# Answers of the admin resources

The resources for mail domains, certificates, DNS records and groups answer with a body of
their own, or with one of the refusals that they share.  Each of their methods begins with the
same check of the caller: a session that is known, of an admin.
-/

import CloudOs.Lib.Prog
import CloudOs.Model.Requests

namespace CloudOs

open Prog

/-- The answer of a resource whose bodies are `β`. -/
inductive Answer (β : Type)
  | ok (body : β)
  | notFound (resource : String)
  | forbidden
  | invalid (code : String)
  | apiFailure (status : ℕ)
  | serverError

/-- The request is answered OK. -/
def isOk {ε β : Type} : Except ε (Answer β) → Bool
  | .ok (.ok _) => true
  | _ => false

/-- The first lines of a method for admins; `sessions` is what `sessionDAO.find` answers. -/
def asAdmin {σ ε β : Type} (sessions : String → Option Account) (apiKey : String)
    (body : Account → Prog σ ε (Answer β)) : Prog σ ε (Answer β) :=
  match sessions apiKey with
  | none => pure (.notFound apiKey)
  | some admin => if !admin.isAdmin then pure .forbidden else body admin

/-- The session is an admin's. -/
def IsAdminSession (sessions : String → Option Account) (apiKey : String) : Prop :=
  (sessions apiKey).any (·.isAdmin) = true

instance (sessions : String → Option Account) (apiKey : String) :
    Decidable (IsAdminSession sessions apiKey) := inferInstanceAs (Decidable (_ = _))

variable {σ ε β : Type} {sessions : String → Option Account} {apiKey : String}
  {body : Account → Prog σ ε (Answer β)} {s : σ} {Q : Except ε (Answer β) → σ → Prop}

/-- **The rule of the check.**  Others than admins are refused and change nothing. -/
theorem ends_asAdmin
    (hrefused : ¬ IsAdminSession sessions apiKey → ∀ a, isOk (ε := ε) (.ok a) = false → Q (.ok a) s)
    (hbody : ∀ admin, sessions apiKey = some admin → IsAdminSession sessions apiKey →
      Ends (body admin) s Q) :
    Ends (asAdmin sessions apiKey body) s Q := by
  unfold asAdmin
  cases hsession : sessions apiKey with
  | none => exact hrefused (by simp [IsAdminSession, hsession]) _ rfl
  | some admin =>
    dsimp only
    split_ifs with hadmin
    · refine hrefused ?_ _ rfl
      simpa [IsAdminSession, hsession] using hadmin
    · refine hbody admin hsession ?_
      simpa [IsAdminSession, hsession] using hadmin

end CloudOs
