import NieSla.NodeQuality.Images

/-! Whether the images of a report belong to their tabs, where they are looked up and where they are
attached. -/
namespace NieSla.NodeQuality
open Percent

section Lookup

variable (parseUrl : String → Option Url) (maskIps : Bool) (target : Target)

/-- The image id in the address that is published for a tab leads to the image stored for the tab. -/
def LooksUpOwn : Prop :=
  ∀ tab ∈ target.tabs, (publicTab parseUrl maskIps target tab).isKept = true →
    ∀ url ∈ (publicTab parseUrl maskIps target tab).image, ∀ base ∈ imageProxyBase target,
      ∀ segment, url = base ++ "/" ++ segment →
        nodeQualityImageSource parseUrl target (pathParam segment) = tab.image

/-- The first tab of the id of a tab with an image is a tab with the same image. -/
def FirstHasImage : Prop :=
  target.id ≠ "" → ∀ tab ∈ target.tabs, tab.id ≠ "" → ∀ image ∈ tab.safeImage parseUrl,
    ∀ first ∈ target.tabs.find? fun other => other.id = tab.id, first.safeImage parseUrl = some image

variable {parseUrl} {maskIps} {target}

theorem find?_isSome_of_mem {tabs : List Tab} {tab : Tab} (member : tab ∈ tabs) :
    ∃ first, tabs.find? (fun other => other.id = tab.id) = some first :=
  Option.isSome_iff_exists.mp (List.find?_isSome.mpr ⟨tab, member, decide_eq_true rfl⟩)

theorem image_publicTab {tab : Tab} {base image : String} (based : imageProxyBase target = some base)
    (safe : tab.safeImage parseUrl = some image) :
    (publicTab parseUrl maskIps target tab).image = some (base ++ "/" ++ encodeURIComponent tab.id) := by
  simp only [publicTab, safe, based, Option.bind_some, Option.map_some]

theorem of_image_publicTab {tab : Tab} {url : String}
    (published : (publicTab parseUrl maskIps target tab).image = some url) :
    ∃ image base, tab.safeImage parseUrl = some image ∧ imageProxyBase target = some base ∧
      url = base ++ "/" ++ encodeURIComponent tab.id := by
  obtain ⟨image, safe, shown⟩ := Option.bind_eq_some_iff.mp published
  obtain ⟨base, based, rfl⟩ := Option.map_eq_some_iff.mp shown
  exact ⟨image, base, safe, based, rfl⟩

theorem looksUpOwn_iff : LooksUpOwn parseUrl maskIps target ↔ FirstHasImage parseUrl target := by
  constructor
  · intro own named tab member labelled image safe first found
    have based : imageProxyBase target = some ("/api/nq/" ++ encodeURIComponent target.id ++ "/image") :=
      if_neg named
    have shown : (publicTab parseUrl maskIps target tab).image =
        some ("/api/nq/" ++ encodeURIComponent target.id ++ "/image" ++ "/" ++ encodeURIComponent tab.id) :=
      image_publicTab based safe
    have kept : (publicTab parseUrl maskIps target tab).isKept = true := by
      simp only [PublicTab.isKept, shown, Option.isSome_some, Bool.or_true, Bool.and_true]
      exact decide_eq_true labelled
    have result := own tab member kept _ shown _ based _ rfl
    rw [pathParam_encodeURIComponent, nodeQualityImageSource, if_neg labelled, Option.mem_def.mp found,
      Option.bind_some, image_of_safeImage safe] at result
    exact result
  · intro first tab member kept url published base based segment same
    obtain ⟨image, shownBase, safe, shown, rfl⟩ := of_image_publicTab published
    cases based.symm.trans shown
    have segmentEq : encodeURIComponent tab.id = segment :=
      (String.append_right_inj _).mp same
    have labelled : tab.id ≠ "" := by
      simp only [PublicTab.isKept, publicTab, Bool.and_eq_true] at kept
      exact of_decide_eq_true kept.1
    have named : target.id ≠ "" := by
      intro empty
      rw [imageProxyBase, if_pos empty] at based
      cases based
    obtain ⟨found, here⟩ := find?_isSome_of_mem member
    rw [← segmentEq, pathParam_encodeURIComponent, nodeQualityImageSource, if_neg labelled, here,
      Option.bind_some, first named tab member labelled image safe found here, image_of_safeImage safe]

end Lookup

section Uploads

variable (renderNodeQualitySvg : String → String) (host broker : ImageHost) (options : UploadOptions)
  (tabs : List Tab)

/-- What is attached to a tab is the image of its own content. -/
def AttachesOwn (results : List Upload) (own : Tab → String) : Prop :=
  ∀ tab ∈ tabs, ∀ image ∈ byId results tab.id, image = own tab

def localImage (tab : Tab) : String :=
  imageOf renderNodeQualitySvg host options tab.id (tab.content.getD "")

def brokerImage (tab : Tab) : String :=
  imageOf renderNodeQualitySvg broker options tab.id tab.sent

/-- The uploads of the Worker itself, whichever of them fail. -/
def LocalAttachesOwn : Prop :=
  ∀ fails, AttachesOwn tabs
    (uploadTabsLocally renderNodeQualitySvg host options fails (candidates tabs))
    (localImage renderNodeQualitySvg host options)

/-- Each image of the answer is the image of the content that was sent under its id. -/
def Honest (parseUrl : String → Option Url) (answer : Except String (List (String × String))) : Prop :=
  ∀ items, answer = .ok items → ∀ item ∈ items, ∀ tab ∈ candidates tabs, tab.id = item.1 →
    ∀ image ∈ validatePublicImageUrl parseUrl item.2,
      image = brokerImage renderNodeQualitySvg broker options tab

/-- The uploads through the broker, whatever it leaves out. -/
def BrokerAttachesOwn (parseUrl : String → Option Url) : Prop :=
  ∀ answer, Honest renderNodeQualitySvg broker options tabs parseUrl answer → AttachesOwn tabs
    (uploadTabsThroughBroker parseUrl answer (candidates tabs))
    (brokerImage renderNodeQualitySvg broker options)

/-- A tab with the id of a rendered one renders alike. -/
def SharersRenderAlike (own : Tab → String) : Prop :=
  ∀ rendered ∈ candidates tabs, ∀ tab ∈ tabs, tab.id = rendered.id → own tab = own rendered

/-- The same, for the ids under which all the content that is sent renders alike. -/
def UnsentSharersRenderAlike (own : Tab → String) : Prop :=
  ∀ rendered ∈ candidates tabs,
    (∀ other ∈ candidates tabs, other.id = rendered.id → own other = own rendered) →
      ∀ tab ∈ tabs, tab.id = rendered.id → own tab = own rendered

variable {renderNodeQualitySvg} {host broker} {options} {tabs} {parseUrl : String → Option Url}

theorem of_mem_uploadTabsLocally {fails : Nat → Option String} {id image : String}
    (uploaded : (id, .ok image) ∈ uploadTabsLocally renderNodeQualitySvg host options fails tabs) :
    ∃ tab ∈ tabs, tab.id = id ∧ image = localImage renderNodeQualitySvg host options tab := by
  obtain ⟨index, within_, made⟩ := List.mem_mapIdx.mp uploaded
  refine ⟨tabs[index], List.getElem_mem within_, (Prod.mk.inj made).1, ?_⟩
  have outcome := (Prod.mk.inj made).2
  split at outcome
  · cases outcome
  · cases outcome
    rfl

theorem localAttachesOwn_iff : LocalAttachesOwn renderNodeQualitySvg host options tabs ↔
    SharersRenderAlike tabs (localImage renderNodeQualitySvg host options) := by
  constructor
  · intro own rendered member tab inside same
    obtain ⟨index, within_, rfl⟩ := List.mem_iff_getElem.mp member
    -- Every upload fails but the one of this tab.
    let fails := fun place => if place = index then none else some "failed"
    have uploaded : ((candidates tabs)[index].id,
        .ok (localImage renderNodeQualitySvg host options (candidates tabs)[index])) ∈
        uploadTabsLocally renderNodeQualitySvg host options fails (candidates tabs) := by
      refine List.mem_mapIdx.mpr ⟨index, within_, ?_⟩
      simp only [fails, if_true]
      rfl
    have found := byId_of_agreed uploaded ?_
    · rw [← same] at found
      exact (own fails tab inside _ found).symm
    · intro other again
      obtain ⟨place, placed, made⟩ := List.mem_mapIdx.mp again
      have outcome := (Prod.mk.inj made).2
      by_cases here : place = index
      · subst here
        simp only [fails, if_true] at outcome
        cases outcome
        rfl
      · simp only [fails, if_neg here] at outcome
        cases outcome
  · intro alike fails tab inside image attached
    obtain ⟨rendered, member, same, rfl⟩ := of_mem_uploadTabsLocally (byId_eq_some attached)
    exact (alike rendered member tab inside same.symm).symm

/-- What a tab gets from the broker is in its answer, under the id. -/
theorem of_mem_uploadTabsThroughBroker {answer : Except String (List (String × String))} {id image : String}
    (uploaded : (id, .ok image) ∈ uploadTabsThroughBroker parseUrl answer tabs) :
    (∃ tab ∈ tabs, tab.id = id) ∧ ∃ items, answer = .ok items ∧
      ∃ item ∈ items, item.1 = id ∧ validatePublicImageUrl parseUrl item.2 = some image := by
  unfold uploadTabsThroughBroker at uploaded
  split at uploaded
  · obtain ⟨tab, -, made⟩ := List.mem_map.mp uploaded
    cases (Prod.mk.inj made).2
  · rename_i items
    split at uploaded
    · obtain ⟨tab, -, made⟩ := List.mem_map.mp uploaded
      cases (Prod.mk.inj made).2
    · rename_i images collected
      obtain ⟨tab, member, made⟩ := List.mem_map.mp uploaded
      obtain ⟨rfl, outcome⟩ := Prod.mk.inj made
      split at outcome
      · rename_i found
        cases outcome
        refine ⟨⟨tab, member, rfl⟩, items, rfl, ?_⟩
        rcases of_lookup_collectImages collected found with none_ | inside
        · cases none_
        · exact inside
      · cases outcome

/-- An answer with one image attaches it. -/
theorem mem_uploadTabsThroughBroker {tab : Tab} {address image : String} (member : tab ∈ tabs)
    (valid : validatePublicImageUrl parseUrl address = some image) :
    (tab.id, .ok image) ∈ uploadTabsThroughBroker parseUrl (.ok [(tab.id, address)]) tabs := by
  have allowed : tab.id ∈ tabs.map Tab.id := List.mem_map_of_mem member
  have collected : collectImages parseUrl (tabs.map Tab.id) [] [(tab.id, address)] =
      some [(tab.id, image)] := by
    simp [collectImages, allowed, valid]
  simp only [uploadTabsThroughBroker, collected]
  exact List.mem_map.mpr ⟨tab, member, by simp⟩

theorem brokerAttachesOwn_iff
    (valid : ∀ file svg, validatePublicImageUrl parseUrl (broker.address file svg) =
      some (broker.address file svg)) :
    BrokerAttachesOwn renderNodeQualitySvg broker options tabs parseUrl ↔
      UnsentSharersRenderAlike tabs (brokerImage renderNodeQualitySvg broker options) := by
  constructor
  · intro own rendered member alike tab inside same
    let address := brokerImage renderNodeQualitySvg broker options rendered
    have public_ : validatePublicImageUrl parseUrl address = some address := valid _ _
    have honest : Honest renderNodeQualitySvg broker options tabs parseUrl (.ok [(rendered.id, address)]) := by
      intro items same item listed other sent sameId image validated
      cases same
      cases List.mem_singleton.mp listed
      rw [Option.mem_def, public_, Option.some.injEq] at validated
      rw [← validated, alike other sent sameId]
    have found := byId_of_agreed (mem_uploadTabsThroughBroker member public_) ?_
    · exact (own _ honest tab inside address (same ▸ found)).symm
    · intro other again
      obtain ⟨-, items, answered, item, listed, -, validated⟩ := of_mem_uploadTabsThroughBroker again
      cases answered
      cases List.mem_singleton.mp listed
      exact (Option.some.inj (public_.symm.trans validated)).symm
  · intro alike answer honest tab inside image attached
    obtain ⟨⟨rendered, member, same⟩, items, answered, item, listed, sameId, validated⟩ :=
      of_mem_uploadTabsThroughBroker (byId_eq_some attached)
    have shown : ∀ other ∈ candidates tabs, other.id = tab.id →
        image = brokerImage renderNodeQualitySvg broker options other := fun other sent sharing =>
      honest items answered item listed other sent (sharing.trans sameId.symm) image validated
    rw [alike rendered member (fun other sent sharing => ?_) tab inside same.symm]
    · exact shown rendered member same
    · rw [← shown other sent (sharing.trans same), ← shown rendered member same]

end Uploads

/-- The three ways in which an image comes to a tab. -/
structure ImagesBelong (parseUrl : String → Option Url) (renderNodeQualitySvg : String → String)
    (host broker : ImageHost) (options : UploadOptions) (maskIps : Bool) (target : Target) : Prop where
  lookedUp : LooksUpOwn parseUrl maskIps target
  uploaded : LocalAttachesOwn renderNodeQualitySvg host options target.tabs
  brokered : BrokerAttachesOwn renderNodeQualitySvg broker options target.tabs parseUrl

/-- No two tabs of one id compete: the first of an id has the image of the others, and the tabs that share
the id of a rendered tab render alike. -/
structure IdsAgree (parseUrl : String → Option Url) (renderNodeQualitySvg : String → String)
    (host broker : ImageHost) (options : UploadOptions) (target : Target) : Prop where
  first : FirstHasImage parseUrl target
  uploaded : SharersRenderAlike target.tabs (localImage renderNodeQualitySvg host options)
  brokered : UnsentSharersRenderAlike target.tabs (brokerImage renderNodeQualitySvg broker options)

/-- The images of a report belong to their tabs exactly when the tabs of each id agree. -/
theorem imagesBelong_iff (parseUrl : String → Option Url) (renderNodeQualitySvg : String → String)
    (host broker : ImageHost) (options : UploadOptions) (maskIps : Bool) (target : Target)
    (valid : ∀ file svg, validatePublicImageUrl parseUrl (broker.address file svg) =
      some (broker.address file svg)) :
    ImagesBelong parseUrl renderNodeQualitySvg host broker options maskIps target ↔
      IdsAgree parseUrl renderNodeQualitySvg host broker options target := by
  constructor
  · intro belong
    exact ⟨looksUpOwn_iff.mp belong.lookedUp, localAttachesOwn_iff.mp belong.uploaded,
      (brokerAttachesOwn_iff valid).mp belong.brokered⟩
  · intro agree
    exact ⟨looksUpOwn_iff.mpr agree.first, localAttachesOwn_iff.mpr agree.uploaded,
      (brokerAttachesOwn_iff valid).mpr agree.brokered⟩

/-! Reports of one host. -/

/-- An address of the image host, as it is parsed. -/
def parseImageUrl (value : String) : Option Url :=
  some ⟨"https:", "", "", "img.example.com", "", "/nq.png", value⟩

/-- A host that knows two files. -/
def twoImages : ImageHost := ⟨fun _ svg =>
  if svg = "route" then "https://img.example.com/route.svg" else "https://img.example.com/network.svg"⟩

theorem valid_twoImages (file svg : String) :
    validatePublicImageUrl parseImageUrl (twoImages.address file svg) = some (twoImages.address file svg) := by
  simp only [twoImages]
  split
  · decide +kernel
  · decide +kernel

def imageTab (id image : String) (content : Option String) : Tab := ⟨id, "", "image", content, some image⟩

def twoTabs : Target := ⟨"vps", [imageTab "network" "https://img.example.com/1.png" (some "network"),
  imageTab "route" "https://img.example.com/2.png" (some "route")]⟩

/-- Two tabs of the network. -/
def sharedId : Target := ⟨"vps", [imageTab "network" "https://img.example.com/1.png" none,
  imageTab "network" "https://img.example.com/2.png" none]⟩

theorem imagesBelong_twoTabs :
    ImagesBelong parseImageUrl id twoImages twoImages ⟨"vps", "report"⟩ true twoTabs := by
  refine (imagesBelong_iff parseImageUrl id twoImages twoImages ⟨"vps", "report"⟩ true twoTabs
    valid_twoImages).mpr ⟨?_, ?_, ?_⟩
  · unfold FirstHasImage
    decide +kernel
  · unfold SharersRenderAlike
    decide +kernel
  · unfold UnsentSharersRenderAlike
    decide +kernel

/-- The second tab of an id leads to the image of the first. -/
theorem second_tab_leads_to_first :
    ¬ ImagesBelong parseImageUrl id twoImages twoImages ⟨"vps", "report"⟩ true sharedId := by
  intro belong
  have first := looksUpOwn_iff.mp belong.lookedUp
  revert first
  unfold FirstHasImage
  decide +kernel

end NieSla.NodeQuality
