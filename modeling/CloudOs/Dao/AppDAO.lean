/-
# `AppDAO`: the installed apps

An installed app is the version that the metadata of its directory name, with the manifest that
stands in the version's directory.
-/

import CloudOs.Service.AppInstallTask

namespace CloudOs

/-- An app that is installed. -/
structure CloudOsApp where
  name : String
  metadata : AppMetadata
  manifest : AppManifest
  deriving DecidableEq, Repr

namespace AppDAO

/-- `loadApp`; a manifest that cannot be loaded is logged. -/
def loadApp (r : AppRepository) (app version : String) : Option CloudOsApp :=
  match AppManifest.load (r.version app version) with
  | .ok manifest => some ⟨app, (r app).metadata.fromJson, manifest⟩
  | .error _ => none

/-- `findInstalledByName`; an app without directory has no metadata. -/
def findInstalledByName (r : AppRepository) (name : String) : Option CloudOsApp :=
  (r.activeVersion name).bind (loadApp r name)

/-- `install`: the request of the task that installs the app. -/
def install (app : String) (version : Option String) (force : Bool) : AppInstallRequest where
  name := app
  version := version
  force := force

end AppDAO

namespace AppsResource

/-- `installApp`: the request of the task, when the caller is an admin; `latest` becomes `null`. -/
def installApp (sessions : String → Option Account) (apiKey app version : String)
    (force : Option Bool) : Except Response AppInstallRequest :=
  match sessions apiKey with
  | none => .error (.notFound apiKey)
  | some admin =>
    if !admin.isAdmin then .error .forbidden
    else .ok (AppDAO.install app (if version = "latest" then none else some version)
      (force.getD false))

end AppsResource

namespace AppAdapter

/-- The ports databag of the version that a manifest names. -/
def getPortsDatabag (r : AppRepository) (manifest : AppManifest) : Option PortsDatabag :=
  match r.databag manifest.scrubbedName manifest.version AppLayout.portsId with
  | some (.ports p) => some p
  | _ => none

/-- The URI that `filter` proxies an app to. -/
def appUri (r : AppRepository) (appName : String) : Option String := do
  let app ← AppDAO.findInstalledByName r appName
  let ports ← getPortsDatabag r app.manifest
  return "http://127.0.0.1:" ++ toString ports.primary ++ app.manifest.normalizedLocalMount

end AppAdapter

end CloudOs
