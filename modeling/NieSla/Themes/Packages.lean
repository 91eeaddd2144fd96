import NieSla.Themes.Declared

/-! A theme package: what an upload accepts, the record that it saves, and what is accepted of a record when
the registry is loaded. -/
namespace NieSla.Themes.Package

def expandedMaxBytes : Nat := 16 * 1024 * 1024
def fileMaxBytes : Nat := 4 * 1024 * 1024
def fileMaxCount : Nat := 300
def manifestMaxBytes : Nat := 64 * 1024
def pathMaxDepth : Nat := 8

def allowedExtensions : List String :=
  [".css", ".html", ".js", ".json", ".png", ".jpg", ".jpeg", ".gif", ".webp", ".svg", ".woff", ".woff2"]

/-- What `themeUrl` reads from a `URL`. -/
structure ThemeUrl where
  protocol : String
  username : String
  password : String
  href : String

/-- What the Worker takes from its platform: `Number` and `String`, `normalize('NFC')`, `new URL` and the
order of `localeCompare`. -/
structure Platform where
  conv : Conversions
  normalizeNFC : String → String
  parseUrl : String → Option ThemeUrl
  localeCompare : String → String → Bool

def refuse (bad : Prop) [Decidable bad] (error : ApiError) : Except ApiError Unit :=
  if bad then .error error else .ok ()

/-! Paths. -/

/-- `[\u0000-\u001f\u007f-\u009f]` -/
def isControl (c : Char) : Bool := c.toNat ≤ 0x1f || (0x7f ≤ c.toNat && c.toNat ≤ 0x9f)

/-- A part of a path: not empty, not `.` or `..`, not ending in a space or a dot. -/
def isPathPart (part : List Char) : Bool :=
  part ≠ [] && part ≠ ['.'] && part ≠ ['.', '.'] && part.getLast? ≠ some ' ' && part.getLast? ≠ some '.'

section Paths

variable (platform : Platform)

def isPackagePath (path : String) : Bool :=
  path ≠ "" && path = platform.normalizeNFC path && path.toList.head? ≠ some '/' &&
    !path.toList.contains (Char.ofNat 0x5c) && !path.toList.any isControl &&
    (path.toList.splitOn '/').length ≤ pathMaxDepth && (path.toList.splitOn '/').all isPathPart &&
    textLength path ≤ 180

def validatePackagePath (path : String) : Except ApiError String :=
  if isPackagePath platform path then .ok path else .error ⟨400, s!"主题路径无效：{path}"⟩

def cleanPackagePath (value : Option Json) : Except ApiError String :=
  validatePackagePath platform (textOrEmpty platform.conv value)

end Paths

/-- The part of a path from its last dot on. -/
def extensionOf (path : String) : String :=
  if path.toList.contains '.' then
    String.ofList ('.' :: (path.toList.reverse.takeWhile (· ≠ '.')).reverse)
  else ""

def isAllowedPackageFile (path : String) : Bool := lowerText (extensionOf path) ∈ allowedExtensions

def endsWith (ending path : String) : Bool := ending.toList.isSuffixOf path.toList

/-- `[...new Set(items)]` -/
def unique : List String → List String
  | [] => []
  | item :: rest => item :: (unique rest).filter (· ≠ item)

/-- The UTF-16 code units of a text. -/
def utf16 (text : String) : List Nat :=
  text.toList.flatMap fun c =>
    if c.toNat < 0x10000 then [c.toNat]
    else [0xd800 + (c.toNat - 0x10000) / 0x400, 0xdc00 + (c.toNat - 0x10000) % 0x400]

/-- `names.sort()` -/
def sortNames (names : List String) : List String :=
  names.insertionSort fun first second => utf16 first ≤ utf16 second

/-! The archive. -/

/-- The entries of the archive that `safeUnzipEntries` returns, with their sizes; an entry that ends in a
slash is a directory. -/
def safeUnzipEntries (platform : Platform) :
    (archiveNames : List String) → (fileCount totalBytes : Nat) → List (String × Nat) →
      Except String (List (String × Nat))
  | _, _, _, [] => .ok []
  | archiveNames, fileCount, totalBytes, (archivePath, size) :: rest =>
      let isDirectory := endsWith "/" archivePath
      let path := if isDirectory then String.ofList archivePath.toList.dropLast else archivePath
      if archivePath ∈ archiveNames then .error s!"ZIP 包含重复路径：{archivePath}"
      else if fileMaxCount < fileCount + 1 then .error s!"文件数不能超过 {fileMaxCount}"
      else if !isPackagePath platform path then .error s!"主题路径无效：{path}"
      else if isDirectory then
        safeUnzipEntries platform (archivePath :: archiveNames) (fileCount + 1) totalBytes rest
      else if expandedMaxBytes < totalBytes + size then .error "解压后不能超过 16 MB"
      else do
        let others ← safeUnzipEntries platform (archivePath :: archiveNames) (fileCount + 1)
          (totalBytes + size) rest
        -- the name of the prototype is no property of its own
        return if archivePath = "__proto__" then others else (archivePath, size) :: others

def validatePackageFile (platform : Platform) (path : String) (size : Nat) : Except ApiError Unit :=
  if !isPackagePath platform path then .error ⟨400, s!"主题路径无效：{path}"⟩
  else if size = 0 ∨ fileMaxBytes < size then .error ⟨400, s!"主题文件无效：{path}"⟩
  else if !isAllowedPackageFile path then .error ⟨400, s!"不允许的主题文件类型：{path}"⟩
  else .ok ()

/-- The files of a package, each checked, and the limit of what they hold together. -/
def validateFiles (platform : Platform) : Nat → List (String × Nat) → Except ApiError Unit
  | _, [] => .ok ()
  | actualExpandedBytes, (path, size) :: rest => do
      validatePackageFile platform path size
      if expandedMaxBytes < actualExpandedBytes + size then
        .error ⟨400, "主题解压后不能超过 16 MB"⟩
      else validateFiles platform (actualExpandedBytes + size) rest

/-! The manifest. -/

/-- A manifest; `none` for `styles`, `permissions` and `files` is anything but an array. -/
structure RawManifest where
  schema : Option Json := none
  id : Option Json := none
  name : Option Json := none
  version : Option Json := none
  description : Option Json := none
  author : Option Json := none
  type : Option Json := none
  repository : Option Json := none
  homepage : Option Json := none
  license : Option Json := none
  preview : Option Json := none
  mode : Option Json := none
  entry : Option Json := none
  height : Option Json := none
  styles : Option (List Json) := none
  permissions : Option (List Json) := none
  files : Option (List Json) := none
  settings : RawItems := .missing

/-- What distinguishes the two modes. -/
inductive Body where
  | canvas (entry : String) (permissions : List String) (height : ℚ)
  | css (styles : List String)

/-- The members of a record that loading leaves as they are. -/
abbrev Members := List (String × Json)

/-- A record of the registry. -/
structure Theme where
  id : String
  revision : String
  storageRoot : String
  files : List String
  body : Body
  settings : List Declaration
  members : Members

/-- `/^\d+\.\d+\.\d+(?:-[a-z0-9.-]+)?$/i` -/
def isSemVer (version : String) : Bool :=
  let core := (version.toList.takeWhile (· ≠ '-')).splitOn '.'
  let suffix := version.toList.dropWhile (· ≠ '-')
  core.length = 3 && core.all (fun part => part ≠ [] && part.all Char.isDigit) &&
    (suffix = [] || (2 ≤ suffix.length && suffix.all fun c => c.isAlphanum || c = '.' || c = '-'))

/-- `/^[A-Za-z0-9][A-Za-z0-9.+-]*$/` -/
def isLicense (license : String) : Bool :=
  license.toList.head?.any Char.isAlphanum &&
    license.toList.all fun c => c.isAlphanum || c = '.' || c = '+' || c = '-'

/-- `/\.(?:png|jpe?g|gif|webp|svg)$/i` -/
def isImageFile (path : String) : Bool :=
  lowerText (extensionOf path) ∈ [".png", ".jpg", ".jpeg", ".gif", ".webp", ".svg"]

section Manifest

variable (platform : Platform)

def themeUrl (value : Option Json) : Except ApiError String :=
  let raw := cut 500 (trim (textOrEmpty platform.conv value))
  if raw = "" then .ok ""
  else
    match platform.parseUrl raw with
    | some url =>
        if url.protocol ≠ "https:" ∨ url.username ≠ "" ∨ url.password ≠ "" then
          .error ⟨400, "主题主页与仓库地址必须使用 HTTPS"⟩
        else .ok url.href
    | none => .error ⟨400, "主题主页与仓库地址必须使用 HTTPS"⟩

def cleanPaths : List Json → Except ApiError (List String)
  | [] => .ok []
  | value :: rest => do
      let path ← cleanPackagePath platform (some value)
      let paths ← cleanPaths rest
      return path :: paths

/-- The files that the manifest lists are those of the package. -/
def checkDeclared (fileNames : List String) : Option (List Json) → Except ApiError Unit
  | none => .ok ()
  | some files => do
      let declared ← cleanPaths platform files
      if sortNames (unique (declared ++ ["manifest.json"])) ≠ fileNames then
        .error ⟨400, "files 清单必须与 ZIP 文件完全一致"⟩
      else .ok ()

def validateCanvas (value : RawManifest) (fileNames : List String) : Except ApiError Body := do
  let entry ← cleanPackagePath platform (if isTruthy value.entry then value.entry else some (.str "index.html"))
  refuse (!endsWith ".html" entry ∨ entry ∉ fileNames) ⟨400, "交互主题 entry 必须指向 ZIP 内的 HTML 文件"⟩
  let permissions := (value.permissions.getD []).map (textOf platform.conv)
  refuse (permissions.any (· ≠ "status:read") ∨ "status:read" ∉ permissions)
    ⟨400, "交互主题必须且只能声明 status:read 权限"⟩
  let requestedHeight := if isTruthy value.height then value.height.map (numberOf platform.conv)
    else some (.finite 900)
  return .canvas entry ["status:read"] (match requestedHeight with
    | some (.finite height) => max 400 (min 12000 height)
    | _ => 900)

def validateStyles (value : RawManifest) (fileNames : List String) : Except ApiError Body := do
  let styles ← cleanPaths platform (value.styles.getD [])
  refuse (styles = [] ∨ 4 < styles.length ∨ styles.any (fun path => !endsWith ".css" path || path ∉ fileNames))
    ⟨400, "CSS 主题必须声明 1 到 4 个有效 styles"⟩
  return .css (unique styles)

def validateBody (value : RawManifest) (fileNames : List String) : Except ApiError Body :=
  if value.mode = some (.str "canvas") then validateCanvas platform value fileNames
  else validateStyles platform value fileNames

def previewOf (value : RawManifest) : Except ApiError String :=
  if isTruthy value.preview then cleanPackagePath platform value.preview else .ok ""

/-- The texts of a manifest that a record keeps. -/
def validateTexts (value : RawManifest) (fileNames : List String) : Except ApiError Members := do
  let text (raw : Option Json) := trim (textOrEmpty platform.conv raw)
  refuse (trim (textOr platform.conv value.type "theme") ≠ "theme") ⟨400, "上传包类型必须是 theme"⟩
  refuse (cut 64 (text value.name) = "") ⟨400, "主题名称不能为空"⟩
  refuse (!isSemVer (text value.version)) ⟨400, "主题版本必须使用 SemVer"⟩
  let repository ← themeUrl platform value.repository
  let homepage ← themeUrl platform value.homepage
  let license := cut 32 (text value.license)
  refuse (license ≠ "" ∧ !isLicense license) ⟨400, "license 必须使用 SPDX 风格标识"⟩
  let preview ← previewOf platform value
  refuse (preview ≠ "" ∧ (preview ∉ fileNames ∨ !isImageFile preview)) ⟨400, "preview 必须指向包内图片"⟩
  return [("name", .str (cut 64 (text value.name))), ("version", .str (text value.version)),
    ("description", .str (cut 240 (text value.description))), ("author", .str (cut 64 (text value.author))),
    ("repository", .str repository), ("homepage", .str homepage), ("license", .str license),
    ("preview", .str preview)]

/-- The record without what the upload adds; `fileNames` are the sorted names of the files. -/
def validateManifest (value : RawManifest) (fileNames : List String) : Except ApiError Theme := do
  refuse (value.schema ≠ some (.str "nie-sla-theme-v1") ∧ value.schema ≠ some (.str "nstatus-extension-v1"))
    ⟨400, "manifest schema 必须是 nie-sla-theme-v1"⟩
  let id ← cleanThemeId (textOrEmpty platform.conv value.id)
  let members ← validateTexts platform value fileNames
  checkDeclared platform fileNames value.files
  let settings ← validateThemeSettings platform.conv value.settings
  let body ← validateBody platform value fileNames
  return ⟨id, "", "", fileNames, body, settings, members⟩

end Manifest

/-! The upload. -/

/-- The identifier of a revision: the 32 digits of a random UUID. -/
structure Revision where
  text : String
  digits : text.toList.length = 32 ∧ ∀ c ∈ text.toList, isHexDigit c = true

section Upload

variable (platform : Platform)

/-- The package is a list of entries with their sizes and the value of its `manifest.json`; `none` is a
manifest that is not an object of JSON. -/
def acceptPackage (archive : List (String × Nat)) (manifest : Option RawManifest) : Except ApiError Theme :=
  match safeUnzipEntries platform [] 0 0 archive with
  | .error message => .error ⟨400, s!"主题 ZIP 无效：{message}"⟩
  | .ok entries => do
      refuse ("manifest.json" ∉ entries.map Prod.fst) ⟨400, "ZIP 根目录必须包含 manifest.json"⟩
      validateFiles platform 0 entries
      refuse (entries.any fun entry => entry.1 = "manifest.json" && manifestMaxBytes < entry.2)
        ⟨400, "manifest.json 不能超过 64 KiB"⟩
      match manifest with
      | none => .error ⟨400, "manifest.json 必须是有效 UTF-8 JSON"⟩
      | some value => do
          let theme ← validateManifest platform value (sortNames (entries.map Prod.fst))
          refuse ((builtinTheme theme.id).isSome) ⟨400, s!"主题 ID {theme.id} 为内置官方主题保留，请修改 manifest.json 中的 id"⟩
          return theme

/-- The record that an upload saves. -/
def recordOf (theme : Theme) (packageSha256 : String) (revision : Revision) (uploadedAt : Int) : Theme :=
  { theme with
    revision := revision.text
    storageRoot := "themes/v1"
    members := theme.members ++ [("package_sha256", .str packageSha256), ("enabled", .bool false),
      ("uploaded_at", number uploadedAt)] }

def nameOf (theme : Theme) : String :=
  match theme.members.lookup "name" with
  | some (.str name) => name
  | _ => ""

/-- The registry that an upload saves. -/
def withRecord (registry : List Theme) (record : Theme) : List Theme :=
  (registry.filter (fun item => item.id ≠ record.id) ++ [record]).mergeSort fun first second =>
    platform.localeCompare (nameOf first) (nameOf second)

end Upload

/-! Loading. -/

/-- A record of the registry as it is parsed. -/
structure RawRecord where
  type : Option Json := none
  id : Option Json := none
  revision : Option Json := none
  storageRoot : Option Json := none
  mode : Option Json := none
  entry : Option Json := none
  height : Option Json := none
  styles : Option (List Json) := none
  permissions : Option (List Json) := none
  files : Option (List Json) := none
  settings : RawItems := .missing
  members : Members := []

/-- The JSON of a record, parsed. -/
def Theme.raw (theme : Theme) : RawRecord where
  type := some (.str "theme")
  id := some (.str theme.id)
  revision := some (.str theme.revision)
  storageRoot := some (.str theme.storageRoot)
  mode := some (.str (match theme.body with
    | .canvas .. => "canvas"
    | .css _ => "css"))
  entry := match theme.body with
    | .canvas entry .. => some (.str entry)
    | .css _ => none
  height := match theme.body with
    | .canvas _ _ height => some (number height)
    | .css _ => none
  permissions := match theme.body with
    | .canvas _ permissions _ => some (permissions.map .str)
    | .css _ => none
  styles := match theme.body with
    | .canvas .. => some []
    | .css styles => some (styles.map .str)
  files := some (theme.files.map .str)
  settings := .array (theme.settings.map Declaration.raw)
  members := theme.members

/-- `/^[A-Za-z0-9_-]{8,128}$/` -/
def isRevision (revision : String) : Bool :=
  8 ≤ revision.toList.length && revision.toList.length ≤ 128 &&
    revision.toList.all fun c => c.isAlphanum || c = '_' || c = '-'

section Load

variable (platform : Platform)

def loadCanvas (value : RawRecord) (files : List String) : Except ApiError Body := do
  let entry ← cleanPackagePath platform (if isTruthy value.entry then value.entry else some (.str "index.html"))
  refuse (!endsWith ".html" entry ∨ entry ∉ files) ⟨500, "invalid canvas entry"⟩
  let permissions := (value.permissions.getD []).map (textOf platform.conv)
  refuse (permissions ≠ ["status:read"]) ⟨500, "invalid permissions"⟩
  match value.height.map (numberOf platform.conv) with
  | some (.finite height) =>
      refuse (height < 400 ∨ 12000 < height) ⟨500, "invalid height"⟩
      return .canvas entry permissions height
  | _ => throw ⟨500, "invalid height"⟩

def loadStyles (value : RawRecord) (files : List String) : Except ApiError Body := do
  let styles ← cleanPaths platform (value.styles.getD [])
  refuse (styles = [] ∨ 4 < styles.length ∨ styles.any (fun path => !endsWith ".css" path || path ∉ files))
    ⟨500, "invalid styles"⟩
  return .css (unique styles)

def loadBody (value : RawRecord) (files : List String) : Except ApiError Body :=
  let mode := textOr platform.conv value.mode "css"
  if mode = "canvas" then loadCanvas platform value files
  else if mode = "css" then loadStyles platform value files
  else .error ⟨500, "invalid mode"⟩

def loadFiles (files : Option (List Json)) : Except ApiError (List String) := do
  let given := files.getD []
  refuse (given = [] ∨ fileMaxCount < given.length) ⟨500, "invalid files"⟩
  let cleaned ← cleanPaths platform given
  let names := unique cleaned
  refuse (names.length ≠ given.length ∨ names.any (fun path => !isAllowedPackageFile path))
    ⟨500, "invalid files"⟩
  return names

def storageRootOf (value : RawRecord) : String :=
  let root := trim (textOrEmpty platform.conv value.storageRoot)
  if root = "" then "extensions/v1" else root

/-- Every error that it throws, whatever its message, becomes the error of `parseRegistry`. -/
def validateStoredTheme (value : RawRecord) : Except ApiError Theme := do
  refuse (value.type ≠ some (.str "theme")) ⟨500, "invalid theme"⟩
  let id ← cleanThemeId (textOrEmpty platform.conv value.id)
  let revision := trim (textOrEmpty platform.conv value.revision)
  let storageRoot := storageRootOf platform value
  refuse (!isRevision revision) ⟨500, "invalid revision"⟩
  refuse (storageRoot ≠ "themes/v1" ∧ storageRoot ≠ "extensions/v1") ⟨500, "invalid storage root"⟩
  let files ← loadFiles platform value.files
  let settings ← validateThemeSettings platform.conv value.settings
  let body ← loadBody platform value files
  return ⟨id, revision, storageRoot, files, body, settings, value.members⟩

def parseAll : List RawRecord → Except ApiError (List Theme)
  | [] => .ok []
  | value :: rest => do
      let theme ← validateStoredTheme platform value
      let themes ← parseAll rest
      return theme :: themes

/-- `parseRegistry`, over the array that the registry holds. -/
def parseRegistry (registry : List RawRecord) : Except ApiError (List Theme) :=
  match parseAll platform registry with
  | .ok themes => .ok themes
  | .error _ => .error ⟨500, "主题注册表损坏，已拒绝自动覆盖"⟩

end Load

end NieSla.Themes.Package
