import NieSla.Lib.JsonText
import NieSla.Lib.Runs
import NieSla.Lib.Trim

/-! The secrets of the alert channels: the tokens, the headers of the webhook as a text of JSON, and the
requests of the settings page that change them. The page is shown the headers with every value masked. -/
namespace NieSla.Alerts.Webhook

open JsonText

local instance lawfulText : LawfulBEq Text := inferInstance

def webhookHeaderMask : Text := units "***"

def webhookHeadersKey : Text := units "webhook_headers"

def channelSecretFields : List Text :=
  [units "bark_device_key", units "gotify_token", units "feishu_webhook", units "dingtalk_webhook",
    units "wecom_webhook", units "serverchan_sendkey"]

/-- White space and line terminators. -/
def isWhite (unit : Nat) : Bool :=
  [0x9, 0xA, 0xB, 0xC, 0xD, 0x20, 0xA0, 0x1680, 0x2028, 0x2029, 0x202F, 0x205F, 0x3000, 0xFEFF].contains unit ||
    (0x2000 ≤ unit && unit ≤ 0x200A)

/-- `text.trim()` -/
def trim (text : Text) : Text := Trim.trimBy isWhite text

/-- `[\r\n]` -/
def isLineBreak (unit : Nat) : Bool := unit = 13 || unit = 10

inductive Failure where
  | api (status : Nat) (message : String)
  | typeError
deriving DecidableEq

section Values

variable (numberText : Text → Text)

mutual

/-- `String(value ?? '')`; `numberText` is the text of the number that is written so. An object that has a
`toString` of its own has no text. -/
def textOf : Json → Option Text
  | .null => some []
  | .bool value => some (units (if value then "true" else "false"))
  | .number written => some (numberText written)
  | .string value => some value
  | .array items => (textsOf items).map (List.intercalate [44])
  | .object entries => if units "toString" ∈ keys entries then none else some (units "[object Object]")

def textsOf : List Json → Option (List Text)
  | [] => some []
  | item :: rest => do
      let text ← textOf item
      let texts ← textsOf rest
      return text :: texts

end

def textOrError (value : Json) : Except Failure Text :=
  match textOf numberText value with
  | some text => .ok text
  | none => .error .typeError

def lowerUnit (unit : Nat) : Nat := if 65 ≤ unit ∧ unit ≤ 90 then unit + 32 else unit

/-- `parseBoolean(value, false)` -/
def parseBoolean : Option Json → Except Failure Bool
  | none => .ok false
  | some .null => .ok false
  | some (.bool value) => .ok value
  | some value => do
      let text ← textOrError numberText value
      let s := (trim text).map lowerUnit
      return s = units "1" || s = units "true"

/-! The headers. -/

/-- `out[name] = value`; the prototype is no property. -/
def assign (name value : Text) (out : List (Text × Text)) : List (Text × Text) :=
  if name = units "__proto__" then out else put name value out

def cleanValue (value : Text) : Text := value.map fun unit => if isLineBreak unit then 32 else unit

/-- The loop of `parseWebhookHeaders`. -/
def cleanHeaders : List (Text × Json) → List (Text × Text) → Option (List (Text × Text))
  | [], out => some out
  | entry :: rest, out =>
      let name := trim entry.1
      if name = [] ∨ name.any isLineBreak then cleanHeaders rest out
      else
        match textOf numberText entry.2 with
        | none => none
        | some value => cleanHeaders rest (assign name (cleanValue value) out)

def parseWebhookHeaders (raw : Text) : List (Text × Text) :=
  match parse (if raw = [] then units "\x7b\x7d" else raw) with
  | some (.object entries) => (cleanHeaders numberText (entries.take 20) []).getD []
  | _ => []

def redactWebhookHeaders (raw : Text) : Text :=
  let names := keys (parseWebhookHeaders numberText raw)
  if names = [] then [] else stringify (ofMembers (names.map fun name => (name, webhookHeaderMask)))

/-- The loop of `mergeMaskedWebhookHeaders`. -/
def mergeEntry (previous merged : List (Text × Text)) (entry : Text × Text) : List (Text × Text) :=
  if entry.2 = webhookHeaderMask then
    match get? entry.1 previous with
    | some value => put entry.1 value merged
    | none => merged
  else put entry.1 entry.2 merged

def mergedHeaders (raw previousRaw : Text) : List (Text × Text) :=
  (parseWebhookHeaders numberText raw).foldl (mergeEntry (parseWebhookHeaders numberText previousRaw)) []

def mergeMaskedWebhookHeaders (raw previousRaw : Text) : Text :=
  stringify (mergedHeaders numberText raw previousRaw)

def isHeaderEntry (entry : Text × Json) : Bool :=
  trim entry.1 ≠ [] && match entry.2 with
    | .null | .array _ | .object _ => false
    | _ => true

def validateWebhookHeaders (raw : Text) : Except Failure Unit :=
  match parse raw with
  | none => .error (.api 400 "Webhook Headers 必须是合法的 JSON 对象")
  | some (.object entries) =>
      if 20 < entries.length then .error (.api 400 "Webhook Headers 最多 20 项")
      else if entries.all isHeaderEntry then .ok ()
      else .error (.api 400 "Webhook Headers 的键和值都必须是字符串")
  | some _ => .error (.api 400 "Webhook Headers 必须是 JSON 对象")

/-! A request. What it asks for is read first: a request that fails stores nothing. -/

abbrev Secrets := List (Text × Text)

inductive FieldChange where
  | leave
  | clear
  | store (value : Text)

def fieldChange (body : List (Text × Json)) (field : Text) : Except Failure FieldChange := do
  if ← parseBoolean numberText (get? (field ++ units "_clear") body) then return .clear
  match get? field body with
  | none => return .leave
  | some given => do
      let text ← textOrError numberText given
      return .store (trim text)

/-- The secrets, and whether they have changed. -/
def FieldChange.apply (field : Text) (state : Secrets × Bool) : FieldChange → Secrets × Bool
  | .leave => state
  | .clear => if field ∈ keys state.1 then (erase field state.1, true) else state
  | .store value =>
      if value = [] ∨ get? field state.1 = some value then state
      else (put field (value.take 1000) state.1, true)

def fieldChanges (body : List (Text × Json)) : List Text → Except Failure (List (Text × FieldChange))
  | [] => .ok []
  | field :: rest => do
      let change ← fieldChange numberText body field
      let changes ← fieldChanges body rest
      return (field, change) :: changes

inductive HeaderEdit where
  | leave
  | clear
  | send (raw : Text)
deriving DecidableEq

def headerEdit (body : List (Text × Json)) : Except Failure HeaderEdit :=
  match get? webhookHeadersKey body with
  | none => .ok .leave
  | some given => do
      let text ← textOrError numberText given
      let raw := trim text
      if raw = [] then return .clear
      else do
        validateWebhookHeaders raw
        return .send raw

def HeaderEdit.apply (state : Secrets × Bool) : HeaderEdit → Secrets × Bool
  | .leave => state
  | .clear =>
      if webhookHeadersKey ∈ keys state.1 then (erase webhookHeadersKey state.1, true) else state
  | .send raw =>
      let previous := get? webhookHeadersKey state.1
      let merged := mergeMaskedWebhookHeaders numberText raw (previous.getD [])
      if previous = some merged then state else (put webhookHeadersKey (merged.take 4000) state.1, true)

def updateChannelSecrets (body : List (Text × Json)) (secrets : Secrets) : Except Failure (Secrets × Bool) := do
  let changes ← fieldChanges numberText body channelSecretFields
  let edit ← headerEdit numberText body
  return edit.apply numberText (changes.foldl (fun state change => change.2.apply change.1 state) (secrets, false))

end Values

/-! The encrypted store. -/

/-- The encryption of the secrets. -/
structure Vault (σ : Type*) where
  encrypt : Text → σ
  decrypt : σ → Option Text
  decrypt_encrypt : ∀ text, decrypt (encrypt text) = some text

/-- The setting of the secrets; older versions stored the plain text. -/
inductive Stored (σ : Type*) where
  | sealed (payload : σ)
  | plain (text : Text)

section Store

variable {σ : Type*} (vault : Vault σ) (numberText : Text → Text)

def Stored.text : Stored σ → Option Text
  | .sealed payload => vault.decrypt payload
  | .plain text => some text

/-- The properties that are texts; no other property is ever stored. -/
def textsIn (entries : List (Text × Json)) : Secrets :=
  entries.filterMap fun entry => match entry.2 with
    | .string value => some (entry.1, value)
    | _ => none

def readChannelSecrets (stored : Option (Stored σ)) : Secrets :=
  match (stored.bind (Stored.text vault)).bind parse with
  | some (.object entries) => textsIn entries
  | _ => []

/-- A request of the settings page. -/
def request (stored : Option (Stored σ)) (body : List (Text × Json)) : Option (Stored σ) :=
  match updateChannelSecrets numberText body (readChannelSecrets vault stored) with
  | .ok (secrets, true) => some (.sealed (vault.encrypt (stringify secrets)))
  | _ => stored

end Store

end NieSla.Alerts.Webhook
