import NieSla.Lib.Runs
import NieSla.Util.Text

/-! The theme registry: uploaded themes with a flag each, the themes that ship with the Worker with
flags in a row of their own, and the calls that change them. -/
namespace NieSla.Themes

structure ApiError where
  status : Nat
  message : String
deriving DecidableEq

inductive Mode where
  | default
  | css
  | canvas
deriving DecidableEq

structure BuiltinTheme where
  id : String
  mode : Mode
  version : String
deriving DecidableEq

def version : String := "1.1.120"

def builtinClassicThemeId : String := "classic"
def builtinCanvasThemeId : String := "nodeget-nie-sla"

def builtinThemes : List BuiltinTheme :=
  [⟨builtinClassicThemeId, .default, version⟩, ⟨builtinCanvasThemeId, .canvas, version⟩]

def builtinTheme (id : String) : Option BuiltinTheme :=
  builtinThemes.find? fun theme => theme.id = trim id

/-- `String(value || '').trim().toLowerCase()` -/
def lowered (value : String) : String :=
  String.ofList ((trim value).toList.flatMap lowerChar)

def reservedThemeIds : List String := ["admin", "api", "classic", "extensions", "plugins", "themes"]

/-- `/^[a-z][a-z0-9-]{2,48}$/` -/
def isThemeId (id : String) : Bool :=
  match id.toList with
  | [] => false
  | first :: rest =>
      first.isLower && 2 ≤ rest.length && rest.length ≤ 48 &&
        rest.all fun c => c.isLower || c.isDigit || c = '-'

def cleanThemeId (value : String) : Except ApiError String :=
  let id := lowered value
  if !isThemeId id then .error ⟨400, "主题 ID 必须是 3-49 位小写字母、数字或连字符"⟩
  else if id ∈ reservedThemeIds then .error ⟨400, s!"主题 ID {id} 为系统保留名称"⟩
  else .ok id

/-- A record of an uploaded theme; `canvas` tells its mode. -/
structure StoredTheme where
  id : String
  name : String
  revision : String
  storageRoot : String
  files : List String
  canvas : Bool
  enabled : Bool
deriving DecidableEq

/-- What the calls here read of a manifest and of the files of its package. -/
structure Manifest where
  id : String
  name : String
  canvas : Bool
  files : List String

/-- The rows of the database; `none` is a row that is missing or empty. The built-in themes whose
state says that they are enabled. -/
structure Store where
  registry : Option (List StoredTheme) := none
  legacyRegistry : Option (List StoredTheme) := none
  builtinState : String → Bool := fun _ => false

/-- A theme as the calls return it. -/
structure Entry where
  id : String
  mode : Mode
  builtin : Bool
  enabled : Bool
  revision : String
deriving DecidableEq

def builtinEntry (theme : BuiltinTheme) (enabled : Bool) : Entry :=
  ⟨theme.id, theme.mode, true, enabled, "builtin-" ++ theme.version⟩

def StoredTheme.entry (theme : StoredTheme) : Entry :=
  ⟨theme.id, if theme.canvas then .canvas else .css, false, theme.enabled, theme.revision⟩

def saveRegistry (store : Store) (registry : List StoredTheme) : Store :=
  { store with registry := some registry }

def loadRegistry (store : Store) : List StoredTheme × Store :=
  match store.registry, store.legacyRegistry with
  | some registry, _ => (registry, store)
  | none, none => ([], store)
  | none, some legacyThemes =>
      (legacyThemes, if legacyThemes = [] then store else saveRegistry store legacyThemes)

/-- The loop over the built-in themes that gives each of them its flag. -/
def saveBuiltinState (store : Store) (enabled : BuiltinTheme → Bool) : Store :=
  { store with builtinState := fun id =>
      match builtinThemes.find? fun theme => theme.id = id with
      | some theme => enabled theme
      | none => store.builtinState id }

def builtinEntries (store : Store) : List Entry :=
  let uploadedEnabled := (loadRegistry store).1.any (·.enabled)
  let explicit := builtinThemes.filter fun theme => store.builtinState theme.id
  let activeId := if uploadedEnabled then "" else
    match explicit.getLast? with
    | some theme => theme.id
    | none => builtinClassicThemeId
  builtinThemes.map fun theme => builtinEntry theme (!uploadedEnabled && theme.id = activeId)

/-- What `getPublicTheme` serves; `none` is the original page. -/
def getPublicTheme (store : Store) : Option Entry :=
  let themes := (loadRegistry store).1
  match themes.find? fun theme => theme.enabled && (builtinTheme theme.id).isNone with
  | some theme => some theme.entry
  | none =>
      match (themes.find? fun theme => theme.enabled && (builtinTheme theme.id).isSome).bind
          fun theme => builtinTheme theme.id with
      | some successor => some (builtinEntry successor true)
      | none =>
          match (builtinEntries store).find? (·.enabled) with
          | some entry => if entry.mode = .default then none else some entry
          | none => none

/-- The loop of `retireSupersededBuiltinUploads` that moves an active selection to the successor. -/
def migrateSelection (store : Store) : List StoredTheme → Store
  | [] => store
  | item :: rest =>
      match item.enabled, builtinTheme item.id with
      | true, some successor =>
          migrateSelection (saveBuiltinState store fun theme => theme.id = successor.id) rest
      | _, _ => migrateSelection store rest

def retireSupersededBuiltinUploads (store : Store) : List StoredTheme × Store :=
  let (registry, store) := loadRegistry store
  let superseded := registry.filter fun item => (builtinTheme item.id).isSome
  if superseded = [] then (registry, store)
  else
    let remaining := registry.filter fun item => (builtinTheme item.id).isNone
    (remaining, saveRegistry (migrateSelection store superseded) remaining)

def listManagedThemes (store : Store) : List Entry × Store :=
  let (uploaded, store) := retireSupersededBuiltinUploads store
  (builtinEntries store ++ uploaded.map StoredTheme.entry, store)

def validateManifest (manifest : Manifest) : Except ApiError Manifest := do
  let id ← cleanThemeId manifest.id
  let name := cut 64 (trim manifest.name)
  if name = "" then throw ⟨400, "主题名称不能为空"⟩
  return { manifest with id, name }

/-- The upload of a package whose files reach the bucket; `localeCompare` orders the names. -/
def uploadTheme (localeCompare : String → String → Bool) (store : Store) (manifest : Manifest)
    (revision : String) : Except ApiError StoredTheme × Store :=
  match validateManifest manifest with
  | .error error => (.error error, store)
  | .ok theme =>
      if (builtinTheme theme.id).isSome then
        (.error ⟨400, s!"主题 ID {theme.id} 为内置官方主题保留，请修改 manifest.json 中的 id"⟩, store)
      else
        let (registry, store) := loadRegistry store
        let record : StoredTheme :=
          ⟨theme.id, theme.name, revision, "themes/v1", theme.files, theme.canvas, false⟩
        let next := (registry.filter (fun item => item.id != record.id) ++ [record]).mergeSort
          fun first second => localeCompare first.name second.name
        (.ok record, saveRegistry store next)

/-- What enabling a built-in theme does to the uploaded ones. -/
def disableUploads (store : Store) : Store :=
  let (registry, store) := loadRegistry store
  if registry.any (·.enabled) then
    saveRegistry store (registry.map fun item => { item with enabled := false })
  else store

/-- `requested` is the body's `enabled`; `none` when `parseBoolean` takes the fallback. -/
def updateTheme (store : Store) (id : String) (requested : Option Bool) : Except ApiError Entry × Store :=
  match builtinTheme (lowered id) with
  | some builtin =>
      let enabled := requested.getD false
      let store := saveBuiltinState store fun theme => if theme.id = builtin.id then enabled else false
      (.ok (builtinEntry builtin enabled), if enabled then disableUploads store else store)
  | none =>
      match cleanThemeId id with
      | .error error => (.error error, store)
      | .ok cleanId =>
          let (registry, store) := loadRegistry store
          match registry.find? fun item => item.id = cleanId with
          | none => (.error ⟨404, "主题不存在"⟩, store)
          | some current =>
              let enabled := requested.getD current.enabled
              let next := registry.map fun item =>
                { item with enabled :=
                    if item.id = cleanId then enabled else if enabled then false else item.enabled }
              let store := saveRegistry store next
              let store := if enabled then saveBuiltinState store fun _ => false else store
              (.ok ({ current with enabled } : StoredTheme).entry, store)

def deleteTheme (store : Store) (id : String) : Except ApiError String × Store :=
  if (builtinTheme (lowered id)).isSome then
    (.error ⟨400, "内置主题不能删除，可在主题列表中停用或切换"⟩, store)
  else
    match cleanThemeId id with
    | .error error => (.error error, store)
    | .ok cleanId =>
        let (registry, store) := loadRegistry store
        match registry.find? fun item => item.id = cleanId with
        | none => (.error ⟨404, "主题不存在"⟩, store)
        | some _ => (.ok cleanId, saveRegistry store (registry.filter fun item => item.id != cleanId))

end NieSla.Themes
