import NieSla.Themes.Registry
import NieSla.Util.Number

/-! The settings that a theme declares, and the values that are stored for them. -/
namespace NieSla.Themes

/-- A value of a request or a manifest. Arrays and objects are read by their text only. -/
inductive Json where
  | null
  | bool (value : Bool)
  | num (value : JsNumber)
  | str (value : String)
  | composite (text : String)
deriving DecidableEq

/-- `Number(text)` and `String(number)`. -/
structure Conversions where
  number : String → JsNumber
  text : JsNumber → String

/-- A value that a configuration stores. -/
inductive Value where
  | bool (value : Bool)
  | num (value : ℚ)
  | str (value : String)
deriving DecidableEq

def Value.json : Value → Json
  | .bool value => .bool value
  | .num value => .num (.finite value)
  | .str value => .str value

inductive Kind where
  | text (default : String)
  | textarea (default : String)
  | number (default : ℚ) (min max : Option ℚ)
  | boolean (default : Bool)
  | select (options : List String) (default : String)
  | color (default : String)
  | image (default : String)
deriving DecidableEq

structure Setting where
  key : String
  kind : Kind
deriving DecidableEq

def Kind.default : Kind → Value
  | .text default => .str default
  | .textarea default => .str default
  | .number default _ _ => .num default
  | .boolean default => .bool default
  | .select _ default => .str default
  | .color default => .str default
  | .image default => .str default

def lowerText (text : String) : String := String.ofList (text.toList.flatMap lowerChar)

def isHexDigit (c : Char) : Bool :=
  ['0', '1', '2', '3', '4', '5', '6', '7', '8', '9', 'a', 'b', 'c', 'd', 'e', 'f',
    'A', 'B', 'C', 'D', 'E', 'F'].contains c

/-- `/^#[0-9a-fA-F]{6}$/` -/
def isColor (text : String) : Bool :=
  match text.toList with
  | [] => false
  | first :: digits => first = '#' && digits.length = 6 && digits.all isHexDigit

/-- `/^(https:\/\/|\/|\.\.?\/)/i` -/
def isImageUrl (text : String) : Bool :=
  (text.toList.take 8).map Char.toLower = "https://".toList || text.toList.take 1 = ['/'] ||
    text.toList.take 2 = ['.', '/'] || text.toList.take 3 = ['.', '.', '/']

/-- `/^[a-z][a-z0-9_]{1,30}$/` -/
def isSettingKey (key : String) : Bool :=
  match key.toList with
  | [] => false
  | first :: rest =>
      first.isLower && 1 ≤ rest.length && rest.length ≤ 30 &&
        rest.all fun c => c.isLower || c.isDigit || c = '_'

section Coercion

variable (conv : Conversions)

/-- `String(raw)` -/
def textOf : Json → String
  | .null => "null"
  | .bool value => if value then "true" else "false"
  | .num value => conv.text value
  | .str value => value
  | .composite text => text

/-- `Number(raw)` -/
def numberOf : Json → JsNumber
  | .null => .finite 0
  | .bool value => .finite (if value then 1 else 0)
  | .num value => value
  | .str value => conv.number value
  | .composite text => conv.number text

/-- `String(raw || '')` -/
def textOrEmpty : Option Json → String
  | none | some .null | some (.bool false) | some (.num .nan) => ""
  | some (.num (.finite value)) => if value = 0 then "" else conv.text (.finite value)
  | some raw => textOf conv raw

/-- `raw ?? fallback`, as a text. -/
def textOrElse (raw : Option Json) (fallback : String) : String :=
  match raw with
  | none | some .null => fallback
  | some raw => textOf conv raw

def parseBoolean (raw : Option Json) (fallback : Bool) : Bool :=
  match raw with
  | none | some .null | some (.str "") => fallback
  | some (.bool value) => value
  | some raw =>
      let s := lowered (textOf conv raw)
      if s = "1" || s = "true" then true
      else if s = "0" || s = "false" then false
      else fallback

def checkNumber (key : String) (min max : Option ℚ) : JsNumber → Except ApiError Value
  | .finite n =>
      if n < min.getD (-10 ^ 12) ∨ max.getD (10 ^ 12) < n then .error ⟨400, s!"配置项 {key} 超出范围"⟩
      else .ok (.num n)
  | _ => .error ⟨400, s!"配置项 {key} 必须是数字"⟩

def coerceNumber (key : String) (default : ℚ) (min max : Option ℚ) (raw : Option Json) :
    Except ApiError Value :=
  match raw with
  | none | some .null | some (.str "") => .ok (.num default)
  | some raw => checkNumber key min max (numberOf conv raw)

def coerceText (key default : String) (raw : Option Json) : Except ApiError Value :=
  let v := textOrElse conv raw default
  if 2000 < textLength v then .error ⟨400, s!"配置项 {key} 过长"⟩ else .ok (.str v)

def coerceSettingValue (setting : Setting) (raw : Option Json) : Except ApiError Value :=
  match setting.kind with
  | .boolean default => .ok (.bool (parseBoolean conv raw default))
  | .number default min max => coerceNumber conv setting.key default min max raw
  | .select options default =>
      let v := trim (textOrElse conv raw default)
      if v ∉ options then .error ⟨400, s!"配置项 {setting.key} 选项无效"⟩ else .ok (.str v)
  | .color default =>
      let v := trim (textOrElse conv raw default)
      if !isColor v then .error ⟨400, s!"配置项 {setting.key} 颜色格式错误"⟩ else .ok (.str (lowerText v))
  | .image default =>
      let v := cut 600 (trim (textOrElse conv raw default))
      if v = "" then .ok (.str "")
      else if !isImageUrl v then .error ⟨400, s!"配置项 {setting.key} 图片地址无效"⟩
      else .ok (.str v)
  | .text default => coerceText conv setting.key default raw
  | .textarea default => coerceText conv setting.key default raw

def coerceAll (values : List (String × Json)) : List Setting → Except ApiError (List (String × Value))
  | [] => .ok []
  | setting :: rest => do
      let value ← coerceSettingValue conv setting (values.lookup setting.key)
      let others ← coerceAll values rest
      return (setting.key, value) :: others

def validateThemeConfigValues (settings : List Setting) (values : List (String × Json)) :
    Except ApiError (List (String × Value)) :=
  if settings = [] then .ok []
  else do
    let out ← coerceAll conv values settings
    match values.find? fun entry => entry.1 ∉ settings.map Setting.key with
    | some entry => .error ⟨400, s!"未知配置项：{entry.1}"⟩
    | none => return out

def themeSettingsDefaults (settings : List Setting) : List (String × Value) :=
  settings.map fun setting => (setting.key, setting.kind.default)

/-- `{ ...defaults, ...values }` -/
def spread (defaults values : List (String × Json)) : List (String × Json) :=
  (defaults.map fun entry => (entry.1, (values.lookup entry.1).getD entry.2)) ++
    values.filter fun entry => entry.1 ∉ defaults.map Prod.fst

def jsonOf (values : List (String × Value)) : List (String × Json) :=
  values.map fun entry => (entry.1, entry.2.json)

/-- The values that `getThemeConfig` returns; a configuration that is not stored is empty. -/
def getThemeConfig (settings : List Setting) (stored : List (String × Value)) :
    Except ApiError (List (String × Value)) :=
  validateThemeConfigValues conv settings (spread (jsonOf (themeSettingsDefaults settings)) (jsonOf stored))

/-- The config that `getPublicTheme` returns with the active theme. -/
def publicThemeConfig (settings : List Setting) (stored : List (String × Value)) :
    Except ApiError (List (String × Value)) :=
  match validateThemeConfigValues conv settings
      (spread (jsonOf (themeSettingsDefaults settings)) (jsonOf stored)) with
  | .ok merged => .ok merged
  | .error _ => validateThemeConfigValues conv settings (jsonOf (themeSettingsDefaults settings))

/-- What `updateThemeConfig` stores and returns for the values of a request. -/
def updateThemeConfig (settings : List Setting) (input : List (String × Json)) :
    Except ApiError (List (String × Value)) :=
  validateThemeConfigValues conv settings (spread (jsonOf (themeSettingsDefaults settings)) input)

end Coercion

/-! The settings of a manifest. -/

/-- An option of a select: an object with a value, or something else. -/
inductive RawOption where
  | invalid
  | object (value : Option Json)

structure RawFields where
  key : Option Json := none
  type : Option Json := none
  default : Option Json := none
  min : Option Json := none
  max : Option Json := none
  options : List RawOption := []

inductive RawSetting where
  | invalid
  | object (fields : RawFields)

inductive RawSettings where
  | missing
  | invalid
  | array (items : List RawSetting)

section Validation

variable (conv : Conversions)

def maxSettingsCount : Nat := 40

def allowedSettingTypes : List String := ["text", "textarea", "number", "boolean", "select", "color", "image"]

def validateOptions (idx : Nat) : Nat → List RawOption → Except ApiError (List String)
  | _, [] => .ok []
  | oi, .invalid :: _ => .error ⟨400, s!"settings[{idx}].options[{oi}] 格式错误"⟩
  | oi, .object value :: rest => do
      let v := trim (textOrElse conv value "")
      if v = "" then throw ⟨400, s!"settings[{idx}].options[{oi}].value 不能为空"⟩
      if 60 < textLength v then throw ⟨400, s!"settings[{idx}].options 选项过长"⟩
      let others ← validateOptions idx (oi + 1) rest
      return v :: others

def validateSelect (idx : Nat) (fields : RawFields) : Except ApiError Kind := do
  if fields.options = [] ∨ 20 < fields.options.length then
    throw ⟨400, s!"settings[{idx}].options 不能为空且不超过20"⟩
  let options ← validateOptions conv idx 0 fields.options
  let default := trim (textOrElse conv fields.default (options.headD ""))
  if default ∉ options then throw ⟨400, s!"settings[{idx}].default 必须在 options 内"⟩
  return .select options default

/-- A bound that is given must be a number. -/
def validateBound (idx : Nat) (name : String) : Option Json → Except ApiError (Option ℚ)
  | none => .ok none
  | some raw =>
      match numberOf conv raw with
      | .finite bound => .ok (some bound)
      | _ => .error ⟨400, s!"settings[{idx}].{name} 必须是数字"⟩

def validateNumber (idx : Nat) (fields : RawFields) : Except ApiError Kind :=
  let raw := match fields.default with
    | none | some .null => Json.num (.finite 0)
    | some raw => raw
  match numberOf conv raw with
  | .finite default => do
      let min ← validateBound conv idx "min" fields.min
      let max ← validateBound conv idx "max" fields.max
      match min, max with
      | some low, some high =>
          if high < low then .error ⟨400, s!"settings[{idx}] min 不能大于 max"⟩
          else .ok (.number default min max)
      | _, _ => .ok (.number default min max)
  | _ => .error ⟨400, s!"settings[{idx}].default 必须是数字"⟩

def validateColor (idx : Nat) (fields : RawFields) : Except ApiError Kind :=
  let default := trim (textOrElse conv fields.default "#2ea36d")
  if !isColor default then .error ⟨400, s!"settings[{idx}].default 颜色格式错误"⟩
  else .ok (.color (lowerText default))

def validateImage (idx : Nat) (fields : RawFields) : Except ApiError Kind :=
  let default := cut 600 (trim (textOrElse conv fields.default ""))
  if default ≠ "" && !isImageUrl default then .error ⟨400, s!"settings[{idx}].default 图片地址无效"⟩
  else .ok (.image default)

def textDefault (fields : RawFields) : String := cut 2000 (trim (textOrElse conv fields.default ""))

def validateKind (idx : Nat) (type : String) (fields : RawFields) : Except ApiError Kind :=
  if type ∉ allowedSettingTypes then .error ⟨400, s!"settings[{idx}].type 不支持"⟩
  else if type = "select" then validateSelect conv idx fields
  else if type = "boolean" then .ok (.boolean (parseBoolean conv fields.default false))
  else if type = "number" then validateNumber conv idx fields
  else if type = "color" then validateColor conv idx fields
  else if type = "image" then validateImage conv idx fields
  else if type = "text" then .ok (.text (textDefault conv fields))
  else .ok (.textarea (textDefault conv fields))

def validateItem (idx : Nat) (seen : List String) : RawSetting → Except ApiError Setting
  | .invalid => .error ⟨400, s!"settings[{idx}] 必须是对象"⟩
  | .object fields =>
      let key := trim (textOrEmpty conv fields.key)
      if !isSettingKey key then .error ⟨400, s!"settings[{idx}].key 格式错误"⟩
      else if key ∈ seen then .error ⟨400, s!"settings key 重复：{key}"⟩
      else do
        let kind ← validateKind conv idx (lowered (textOrEmpty conv fields.type)) fields
        return ⟨key, kind⟩

def validateItems : Nat → List String → List RawSetting → Except ApiError (List Setting)
  | _, _, [] => .ok []
  | idx, seen, item :: rest => do
      let setting ← validateItem conv idx seen item
      let others ← validateItems (idx + 1) (setting.key :: seen) rest
      return setting :: others

def validateThemeSettings : RawSettings → Except ApiError (List Setting)
  | .missing => .ok []
  | .invalid => .error ⟨400, "settings 必须是数组"⟩
  | .array items =>
      if maxSettingsCount < items.length then
        .error ⟨400, s!"settings 不能超过 {maxSettingsCount} 项"⟩
      else validateItems conv 0 [] items

end Validation

end NieSla.Themes
