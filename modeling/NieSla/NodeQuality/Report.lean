import NieSla.Hosts.Private
import NieSla.Lib.Percent
import NieSla.NodeQuality.Masking

/-! A stored NodeQuality report, what is published of its tabs, and the image that a published address
leads to. -/
namespace NieSla.NodeQuality
open Percent

/-- What the Worker reads from a `URL`. -/
structure Url where
  protocol : String
  username : String
  password : String
  hostname : String
  port : String
  pathname : String
  href : String

section Addresses

-- `new URL(value)`, or `none` where it throws
variable (parseUrl : String → Option Url)

def isSafeHttpUrl (value : String) : Bool :=
  (parseUrl value).any fun url => url.protocol = "http:" || url.protocol = "https:"

def assertPublicHttpUrl (value : String) : Option Url :=
  if trim value = "" then none
  else do
    let url ← parseUrl (trim value)
    if url.protocol ≠ "http:" ∧ url.protocol ≠ "https:" then none
    else if url.username ≠ "" ∨ url.password ≠ "" then none
    else if Hosts.isPrivateHost url.hostname then none
    else some url

/-- `[<>"']` -/
def isMarkup (c : Char) : Bool := [0x22, 0x27, 0x3c, 0x3e].contains c.toNat

def isSafeImageUrl (value : String) : Bool :=
  isSafeHttpUrl parseUrl value && (assertPublicHttpUrl parseUrl value).any fun url =>
    !value.toList.any isMarkup && textLength url.pathname < 1024

end Addresses

/-- A tab; an empty `content` or `image` counts as none. -/
structure Tab where
  id : String
  title : String
  kind : String
  content : Option String
  image : Option String

/-- The `id` of the target and the tabs of its `nq_report`. -/
structure Target where
  id : String
  tabs : List Tab

structure PublicTab where
  id : String
  title : String
  kind : String
  content : Option String
  image : Option String

def defaultTabTitle (id : String) : String :=
  if id = "basic" then "基本信息"
  else if id = "ip" then "IP质量"
  else if id = "network" then "网络质量"
  else if id = "route" then "回程路由"
  else id

def imageProxyBase (target : Target) : Option String :=
  if target.id = "" then none else some ("/api/nq/" ++ encodeURIComponent target.id ++ "/image")

section Public

variable (parseUrl : String → Option Url) (maskIps : Bool) (target : Target)

/-- The image of a tab, where it has one that is safe. -/
def Tab.safeImage (tab : Tab) : Option String :=
  if tab.kind = "image" then tab.image.filter fun image => isSafeImageUrl parseUrl image else none

def publicTab (tab : Tab) : PublicTab where
  id := tab.id
  title := if tab.title = "" then defaultTabTitle tab.id else tab.title
  kind := if tab.kind = "image" then "image" else "ansi"
  content := (tab.content.filter fun content => content ≠ "").map fun content =>
    reportTabContent content maskIps
  image := (tab.safeImage parseUrl).bind fun _ =>
    (imageProxyBase target).map fun base => base ++ "/" ++ encodeURIComponent tab.id

def PublicTab.isKept (tab : PublicTab) : Bool :=
  tab.id ≠ "" && (tab.content.any (fun content => content ≠ "") || tab.image.isSome)

/-- The `tabs` of `publicNodeQualityReport`. -/
def publicTabs : List PublicTab :=
  (target.tabs.map (publicTab parseUrl maskIps target)).filter PublicTab.isKept

def nodeQualityImageSource (tabId : String) : Option String :=
  if tabId = "" then none
  else (target.tabs.find? fun tab => tab.id = tabId).bind fun tab => tab.safeImage parseUrl

/-- A segment of the path of a request; one that is not well formed is taken as it is. -/
def pathParam (segment : String) : String := (decodeURIComponent segment).getD segment

@[simp] theorem pathParam_encodeURIComponent (text : String) : pathParam (encodeURIComponent text) = text := by
  rw [pathParam, decodeURIComponent_encodeURIComponent, Option.getD_some]

end Public

end NieSla.NodeQuality
