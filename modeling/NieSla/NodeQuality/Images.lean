import NieSla.NodeQuality.Report
import NieSla.Util.Number

/-! The images of a report: those that are uploaded for its tabs, matched by the ids of the tabs, and those
that the published addresses lead to. -/
namespace NieSla.NodeQuality
open Percent

/-! Uploads. -/

/-- What became of a tab: the address of its image, or the error. -/
abbrev Upload := String × Except String String

/-- The tabs with content that are rendered. -/
def candidates (tabs : List Tab) : List Tab :=
  tabs.filter fun tab => (tab.id = "network" || tab.id = "route") && tab.content.any fun text => text ≠ ""

/-- `[^a-zA-Z0-9_-]` in runs, each run as one dash. -/
def fileDashes (inRun : Bool) : List Char → List Char
  | [] => []
  | c :: rest =>
      if c.isAlphanum || c = '_' || c = '-' then c :: fileDashes false rest
      else if inRun then fileDashes true rest
      else '-' :: fileDashes true rest

def safeFilePart (value : String) : String :=
  let part := String.ofList ((trimDashes (fileDashes false (trimChars value.toList))).take 80)
  if part = "" then "report" else part

/-- An image host answers with the public address of the file it was sent. -/
structure ImageHost where
  address : (filename svg : String) → String

structure UploadOptions where
  agentId : String
  reportId : String

def filename (options : UploadOptions) (tabId : String) : String :=
  safeFilePart options.agentId ++ "-" ++ safeFilePart options.reportId ++ "-" ++ safeFilePart tabId ++ ".svg"

section Upload

variable (renderNodeQualitySvg : String → String) (host : ImageHost) (options : UploadOptions)

/-- The image of the content under an id. -/
def imageOf (tabId content : String) : String :=
  host.address (filename options tabId) (renderNodeQualitySvg content)

/-- `fails` holds the errors of the uploads that fail, by their place. -/
def uploadTabsLocally (fails : Nat → Option String) (tabs : List Tab) : List Upload :=
  tabs.mapIdx fun index tab => (tab.id,
    match fails index with
    | some message => .error message
    | none => .ok (imageOf renderNodeQualitySvg host options tab.id (tab.content.getD "")))

def maxBrokerContentChars : Nat := 60000

/-- The content of a tab as it is sent to the broker. -/
def Tab.sent (tab : Tab) : String := cut maxBrokerContentChars (tab.content.getD "")

end Upload

section Broker

variable (parseUrl : String → Option Url)

def validatePublicImageUrl (value : String) : Option String := do
  let url ← assertPublicHttpUrl parseUrl value
  if url.protocol ≠ "https:" ∨ url.username ≠ "" ∨ url.password ≠ "" ∨ url.port ≠ "" ∨
      2048 < textLength url.href then none
  else some url.href

/-- The images of the answer, or `none` for an id that was not sent, an id that is repeated, or an
address that is not safe. -/
def collectImages (allowedIds : List String) :
    List (String × String) → List (String × String) → Option (List (String × String))
  | images, [] => some images
  | images, (id, url) :: rest =>
      if id ∉ allowedIds ∨ (images.lookup id).isSome then none
      else do
        let image ← validatePublicImageUrl parseUrl url
        collectImages allowedIds (images ++ [(id, image)]) rest

/-- `answer` is the `images` of the broker, or the message for an answer that holds none. -/
def uploadTabsThroughBroker (answer : Except String (List (String × String))) (tabs : List Tab) :
    List Upload :=
  match answer with
  | .error message => tabs.map fun tab => (tab.id, .error message)
  | .ok items =>
      match collectImages parseUrl (tabs.map Tab.id) [] items with
      | none => tabs.map fun tab => (tab.id, .error "公益 NQ 图片服务返回了不安全的图片地址")
      | some images => tabs.map fun tab => (tab.id,
          match images.lookup tab.id with
          | some image => .ok image
          | none => .error "公益 NQ 图片服务未返回图片")

end Broker

/-- The image under an id: the last one that was uploaded under it. -/
def byId (results : List Upload) (id : String) : Option String :=
  results.reverse.findSome? fun result => if result.1 = id then result.2.toOption else none

/-- `uploadNodeQualityReportImages`: the tabs of the report with the images attached. -/
def attachImages (results : List Upload) (tabs : List Tab) : List Tab :=
  tabs.map fun tab =>
    match byId results tab.id with
    | some image =>
        { tab with kind := "image", image := some image,
                   content := some (cut 60000 (tab.content.getD "")) }
    | none => tab

theorem byId_eq_some {results : List Upload} {id image : String} (found : byId results id = some image) :
    (id, .ok image) ∈ results := by
  obtain ⟨⟨key, outcome⟩, member, here⟩ := List.exists_of_findSome?_eq_some found
  split at here
  · rename_i same
    cases outcome with
    | error message => cases here
    | ok url =>
        cases here
        cases same
        exact List.mem_reverse.mp member
  · cases here

theorem byId_of_agreed {results : List Upload} {id image : String} (uploaded : (id, .ok image) ∈ results)
    (agreed : ∀ other, (id, .ok other) ∈ results → other = image) : byId results id = some image := by
  cases found : byId results id with
  | some other => rw [agreed other (byId_eq_some found)]
  | none =>
      have missing := List.findSome?_eq_none_iff.mp found _ (List.mem_reverse.mpr uploaded)
      simp [Except.toOption] at missing

/-- An image that is collected comes from the answer. -/
theorem of_lookup_collectImages {parseUrl : String → Option Url} {allowedIds : List String}
    {items images result : List (String × String)} {id image : String}
    (collected : collectImages parseUrl allowedIds images items = some result)
    (found : result.lookup id = some image) :
    images.lookup id = some image ∨
      ∃ item ∈ items, item.1 = id ∧ validatePublicImageUrl parseUrl item.2 = some image := by
  induction items generalizing images with
  | nil =>
      cases collected
      exact .inl found
  | cons item rest ih =>
      obtain ⟨key, url⟩ := item
      simp only [collectImages] at collected
      split at collected
      · cases collected
      · obtain ⟨address, valid, collected⟩ := Option.bind_eq_some_iff.mp collected
        rcases ih collected with known | ⟨item, member, same⟩
        · rw [List.lookup_append, Option.or_eq_some_iff] at known
          rcases known with before | ⟨-, here⟩
          · exact .inl before
          · rw [List.lookup_cons] at here
            split at here
            · rename_i same
              cases here
              exact .inr ⟨(key, url), List.mem_cons_self, (beq_iff_eq.mp same).symm, valid⟩
            · cases here
        · exact .inr ⟨item, List.mem_cons_of_mem _ member, same⟩

/-! The image that a published address leads to. A server may answer each request as it likes. -/

abbrev Bytes := List UInt8

/-- What is read of a response: `""` for a header that is missing, `none` where a read of the body fails. The length is
the number that its header declares, or 0. -/
structure Response where
  status : Nat
  url : String
  location : String
  contentType : String
  contentLength : JsNumber
  body : List (Option Bytes)

def Response.isRedirect (response : Response) : Bool := [301, 302, 303, 307, 308].contains response.status

def Response.ok (response : Response) : Bool := 200 ≤ response.status && response.status ≤ 299

/-- The requests that were made, and the response that is returned; `none` where the call throws. -/
structure Fetched where
  requests : List Url
  response : Option Response

inductive Reply where
  | error (status : Nat) (text : String)
  | image (contentType : String) (bytes : Bytes)

/-- `value > bound` -/
def exceeds (value : JsNumber) (bound : Nat) : Bool :=
  match value with
  | .infinity => true
  | .finite value => (bound : ℚ) < value
  | _ => false

def maxRedirects : Nat := 4

def maxImageBytes : Nat := 8 * 1024 * 1024

/-- The loop of `readResponseBodyLimited`, after `total` bytes. -/
def readResponseBodyLimited (maxBytes : Nat) : Nat → List (Option Bytes) → Option Bytes
  | _, [] => some []
  | _, none :: _ => none
  | total, some value :: rest =>
      if maxBytes < total + value.length then none
      else (readResponseBodyLimited maxBytes (total + value.length) rest).map fun later => value ++ later

section Proxy

-- `new URL(value)` and `new URL(location, current).toString()`, or `none` where they throw; the answer to the
-- request of a number, or `none` where it fails
variable (parseUrl : String → Option Url) (resolve : String → Url → Option String)
  (answers : Nat → Url → Option Response)

def validatedPublicHttpsUrl (value : String) : Option Url :=
  (assertPublicHttpUrl parseUrl value).filter fun url =>
    url.protocol = "https:" && url.username = "" && url.password = ""

/-- Where a response sends the next request. -/
def redirectTarget (current : Url) (response : Response) : Option Url :=
  if response.location = "" then none
  else (resolve response.location current).bind (validatedPublicHttpsUrl parseUrl)

/-- The loop over the redirects: how many are left, the number of the request, and its address. -/
def followRedirects : Nat → Nat → Url → Fetched
  | left, number, current =>
      match answers number current with
      | none => ⟨[current], none⟩
      | some response =>
          if !response.isRedirect then ⟨[current], some response⟩
          else match left with
            | 0 => ⟨[current], none⟩
            | left + 1 =>
                match redirectTarget parseUrl resolve current response with
                | none => ⟨[current], none⟩
                | some next =>
                    let later := followRedirects left (number + 1) next
                    ⟨current :: later.requests, later.response⟩

def fetchPublicHttpsWithValidatedRedirects (url : String) : Fetched :=
  match validatedPublicHttpsUrl parseUrl url with
  | none => ⟨[], none⟩
  | some current => followRedirects parseUrl resolve answers maxRedirects 0 current

/-- What the proxy answers with, where its source has given a response. -/
def imageReply (imageSource : String) (upstream : Response) : Reply :=
  let unavailable := Reply.error 502 "Image upstream unavailable"
  let tooLarge := Reply.error 413 "Image upstream is too large"
  match assertPublicHttpUrl parseUrl (if upstream.url = "" then imageSource else upstream.url) with
  | none => unavailable
  | some finalUrl =>
      let contentType := String.ofList (upstream.contentType.toList.flatMap lowerChar)
      if finalUrl.protocol ≠ "https:" then unavailable
      else if !upstream.ok || !"image/".toList.isPrefixOf contentType.toList then unavailable
      else if exceeds upstream.contentLength maxImageBytes then tooLarge
      else match readResponseBodyLimited maxImageBytes 0 upstream.body with
        | none => tooLarge
        | some bytes => .image contentType bytes

/-- `GET /api/nq/:id/image/:tab` for a row that is an enabled target, beside what the cache answers. -/
def nodeQualityImage (target : Target) (tabId : String) : List Url × Reply :=
  match nodeQualityImageSource parseUrl target tabId with
  | none => ([], .error 404 "Not found")
  | some imageSource =>
      let fetched := fetchPublicHttpsWithValidatedRedirects parseUrl resolve answers imageSource
      (fetched.requests,
        match fetched.response with
        | none => .error 502 "Image upstream unavailable"
        | some upstream => imageReply parseUrl imageSource upstream)

end Proxy

/-! What a request may reach. -/

/-- An address under `https:` without credentials, whose host is public and spells no private address. -/
structure PublicHttps (url : Url) : Prop where
  protocol : url.protocol = "https:"
  username : url.username = ""
  password : url.password = ""
  host : Hosts.isPrivateHost url.hostname = false
  address : ∀ address, Hosts.readAddress url.hostname = some address → Hosts.isPrivateAddress address = false

section Requests

variable {parseUrl : String → Option Url} {resolve : String → Url → Option String}
  {answers : Nat → Url → Option Response} {value imageSource contentType : String} {url current : Url}
  {response : Response} {bytes : Bytes}

theorem assertPublicHttpUrl_eq_some (accepted : assertPublicHttpUrl parseUrl value = some url) :
    parseUrl (trim value) = some url ∧ Hosts.isPrivateHost url.hostname = false := by
  unfold assertPublicHttpUrl at accepted
  split at accepted
  · cases accepted
  · obtain ⟨parsed, given, rest⟩ := Option.bind_eq_some_iff.mp accepted
    split at rest
    · cases rest
    · split at rest
      · cases rest
      · split at rest
        · cases rest
        next host =>
          cases rest
          exact ⟨given, Bool.not_eq_true _ ▸ host⟩

theorem publicHttps_of_validated (valid : validatedPublicHttpsUrl parseUrl value = some url) : PublicHttps url := by
  obtain ⟨accepted, plain⟩ := Option.filter_eq_some_iff.mp valid
  obtain ⟨-, host⟩ := assertPublicHttpUrl_eq_some accepted
  simp only [Bool.and_eq_true, decide_eq_true_eq] at plain
  refine ⟨plain.1.1, plain.1.2, plain.2, host, fun address spelled => ?_⟩
  rw [← Hosts.isPrivateHost_of_read spelled]
  exact host

theorem head_followRedirects (left number : Nat) :
    (followRedirects parseUrl resolve answers left number current).requests.head? = some current := by
  unfold followRedirects
  split
  · rfl
  · split
    · rfl
    · split
      · rfl
      · split
        · rfl
        · rfl

/-- A redirect that leads from one request to the next one. -/
def Redirects (parseUrl : String → Option Url) (resolve : String → Url → Option String)
    (answers : Nat → Url → Option Response) (current next : Url) : Prop :=
  ∃ number response, answers number current = some response ∧ response.isRedirect = true ∧
    redirectTarget parseUrl resolve current response = some next

theorem publicHttps_of_redirectTarget (next : redirectTarget parseUrl resolve current response = some url) :
    PublicHttps url := by
  unfold redirectTarget at next
  split at next
  · cases next
  · obtain ⟨href, -, valid⟩ := Option.bind_eq_some_iff.mp next
    exact publicHttps_of_validated valid

/-- What a run of redirects has done when it ends: where it went, and whose answer it returns. -/
structure Followed (parseUrl : String → Option Url) (resolve : String → Url → Option String)
    (answers : Nat → Url → Option Response) (left number : Nat) (fetched : Fetched) : Prop where
  reaches : ∀ url ∈ fetched.requests, PublicHttps url
  count : fetched.requests.length ≤ left + 1
  chain : fetched.requests.IsChain (Redirects parseUrl resolve answers)
  answer : ∀ response, fetched.response = some response → ∃ index url, number + fetched.requests.length = index + 1 ∧
    fetched.requests.getLast? = some url ∧ answers index url = some response

theorem followed_single (first : PublicHttps current) (left number : Nat) {given : Option Response}
    (answered : ∀ response, given = some response → answers number current = some response) :
    Followed parseUrl resolve answers left number ⟨[current], given⟩ where
  reaches _ member := List.mem_singleton.mp member ▸ first
  count := Nat.le_add_left _ _
  chain := .singleton _
  answer response same := ⟨number, current, rfl, rfl, answered response same⟩

theorem followRedirects_spec (first : PublicHttps current) (left number : Nat) :
    Followed parseUrl resolve answers left number (followRedirects parseUrl resolve answers left number current) := by
  induction left generalizing number current with
  | zero =>
      unfold followRedirects
      split
      · exact followed_single first 0 number (by simp)
      next response answered =>
        split
        · exact followed_single first 0 number fun _ same => Option.some.inj same ▸ answered
        · exact followed_single first 0 number (by simp)
  | succ left ih =>
      unfold followRedirects
      split
      · exact followed_single first _ number (by simp)
      next response answered =>
        split
        · exact followed_single first _ number fun _ same => Option.some.inj same ▸ answered
        next redirect =>
          dsimp only
          split
          · exact followed_single first _ number (by simp)
          next next found =>
            have later := ih (publicHttps_of_redirectTarget found) (number + 1)
            have head : (followRedirects parseUrl resolve answers left (number + 1) next).requests.head? = some next :=
              head_followRedirects left (number + 1)
            generalize followRedirects parseUrl resolve answers left (number + 1) next = rest at later head
            obtain ⟨tail, spelled⟩ := List.head?_eq_some_iff.mp head
            refine ⟨fun url member => ?_, ?_, ?_, fun response same => ?_⟩
            · rcases List.mem_cons.mp member with rfl | among
              · exact first
              · exact later.reaches url among
            · exact Nat.succ_le_succ later.count
            · have chain := later.chain
              rw [spelled] at chain ⊢
              exact .cons_cons ⟨number, response, answered, by simpa using redirect, found⟩ chain
            · obtain ⟨index, url, count, last, given⟩ := later.answer response same
              refine ⟨index, url, ?_, ?_, given⟩
              · rw [List.length_cons]
                omega
              · rw [List.getLast?_cons, last]
                rfl

theorem followed_fetch (url : String) : Followed parseUrl resolve answers maxRedirects 0
    (fetchPublicHttpsWithValidatedRedirects parseUrl resolve answers url) := by
  unfold fetchPublicHttpsWithValidatedRedirects
  split
  · exact ⟨by simp, Nat.zero_le _, .nil, by simp⟩
  next valid => exact followRedirects_spec (publicHttps_of_validated valid) _ _

theorem parse_of_head_fetch {first : Url}
    (head : (fetchPublicHttpsWithValidatedRedirects parseUrl resolve answers value).requests.head? = some first) :
    parseUrl (trim value) = some first := by
  unfold fetchPublicHttpsWithValidatedRedirects at head
  split at head
  · cases head
  next current valid =>
    rw [head_followRedirects] at head
    cases head
    exact (assertPublicHttpUrl_eq_some (Option.filter_eq_some_iff.mp valid).1).1

theorem image_of_safeImage {tab : Tab} {image : String} (safe : tab.safeImage parseUrl = some image) :
    tab.image = some image := by
  unfold Tab.safeImage at safe
  split at safe
  · exact (Option.filter_eq_some_iff.mp safe).1
  · cases safe

theorem nodeQualityImageSource_eq_some {target : Target} {tabId : String}
    (found : nodeQualityImageSource parseUrl target tabId = some imageSource) :
    ∃ tab ∈ target.tabs, tab.id = tabId ∧ tab.image = some imageSource := by
  unfold nodeQualityImageSource at found
  split at found
  · cases found
  · obtain ⟨tab, here, safe⟩ := Option.bind_eq_some_iff.mp found
    have same : tab.id = tabId := by simpa using List.find?_some here
    exact ⟨tab, List.mem_of_find?_eq_some here, same, image_of_safeImage safe⟩

theorem readResponseBodyLimited_eq_some {maxBytes total : Nat} {chunks : List (Option Bytes)}
    (read : readResponseBodyLimited maxBytes total chunks = some bytes) (within : total ≤ maxBytes) :
    total + bytes.length ≤ maxBytes ∧ ∃ parts : List Bytes, chunks = parts.map some ∧ bytes = parts.flatten := by
  induction chunks generalizing total bytes with
  | nil =>
      cases read
      exact ⟨within, [], rfl, rfl⟩
  | cons chunk rest ih =>
      cases chunk with
      | none => cases read
      | some value =>
          unfold readResponseBodyLimited at read
          split at read
          · cases read
          next fits =>
            obtain ⟨later, found, rfl⟩ := Option.map_eq_some_iff.mp read
            obtain ⟨bound, parts, spelled, whole⟩ := ih found (Nat.le_of_not_lt fits)
            refine ⟨?_, value :: parts, ?_, ?_⟩
            · rw [List.length_append]
              omega
            · rw [spelled, List.map_cons]
            · rw [whole, List.flatten_cons]

/-- An image is the whole body of a response that names it an image. -/
theorem imageReply_eq_image (shown : imageReply parseUrl imageSource response = .image contentType bytes) :
    response.ok = true ∧ "image/".toList <+: contentType.toList ∧ bytes.length ≤ maxImageBytes ∧
      ∃ parts : List Bytes, response.body = parts.map some ∧ bytes = parts.flatten := by
  unfold imageReply at shown
  dsimp only at shown
  split at shown
  · cases shown
  · split at shown
    · cases shown
    · split at shown
      · cases shown
      next named =>
        split at shown
        · cases shown
        · split at shown
          · cases shown
          next read =>
            cases shown
            obtain ⟨bound, parts⟩ := readResponseBodyLimited_eq_some read (Nat.zero_le _)
            simp only [Bool.or_eq_true, Bool.not_eq_true', not_or, Bool.not_eq_false] at named
            exact ⟨named.1, List.isPrefixOf_iff_prefix.mp named.2, by omega, parts⟩

end Requests

end NieSla.NodeQuality
