import NieSla.Themes.Packages
import NieSla.Themes.Reread

/-! An accepted package loads again: the record that an upload saves is accepted when the registry is
loaded, and so is every record that was loaded before. -/
namespace NieSla.Themes.Package

/-! What is made sure of. -/

structure SoundFiles (platform : Platform) (files : List String) : Prop where
  some_ : files ≠ []
  few : files.length ≤ fileMaxCount
  distinct : files.Nodup
  path : ∀ path ∈ files, isPackagePath platform path = true
  allowed : ∀ path ∈ files, isAllowedPackageFile path = true

def SoundBody (platform : Platform) (files : List String) : Body → Prop
  | .canvas entry permissions height =>
      isPackagePath platform entry = true ∧ endsWith ".html" entry = true ∧ entry ∈ files ∧
        permissions = ["status:read"] ∧ 400 ≤ height ∧ height ≤ 12000
  | .css styles => styles ≠ [] ∧ styles.length ≤ 4 ∧ styles.Nodup ∧
      ∀ path ∈ styles, isPackagePath platform path = true ∧ endsWith ".css" path = true ∧ path ∈ files

/-- A record of which every check holds. -/
structure SoundTheme (platform : Platform) (theme : Theme) : Prop where
  id : cleanThemeId theme.id = .ok theme.id
  revision : trim theme.revision = theme.revision ∧ isRevision theme.revision = true
  root : theme.storageRoot = "themes/v1" ∨ theme.storageRoot = "extensions/v1"
  files : SoundFiles platform theme.files
  settings : SoundSettings platform.conv theme.settings
  body : SoundBody platform theme.files theme.body

/-- What is read back of a record. -/
def rereadTheme (platform : Platform) (theme : Theme) : Theme :=
  { theme with settings := theme.settings.map (rereadDeclaration platform.conv) }

section Unique

theorem mem_unique {items : List String} {item : String} : item ∈ unique items ↔ item ∈ items := by
  induction items with
  | nil => exact Iff.rfl
  | cons head rest ih =>
      simp only [unique, List.mem_cons, List.mem_filter, ih, decide_eq_true_eq]
      by_cases same : item = head
      · simp [same]
      · simp [same]

theorem nodup_unique (items : List String) : (unique items).Nodup := by
  induction items with
  | nil => exact List.nodup_nil
  | cons head rest ih =>
      exact List.nodup_cons.mpr ⟨by simp, ih.filter _⟩

theorem unique_of_nodup {items : List String} (distinct : items.Nodup) : unique items = items := by
  induction items with
  | nil => rfl
  | cons head rest ih =>
      obtain ⟨fresh, distinct⟩ := List.nodup_cons.mp distinct
      rw [unique, ih distinct, List.filter_eq_self.mpr]
      intro item member
      exact decide_eq_true fun same => fresh (same ▸ member)

theorem length_unique_le (items : List String) : (unique items).length ≤ items.length := by
  induction items with
  | nil => exact le_rfl
  | cons head rest ih =>
      simp only [unique, List.length_cons]
      have fewer := List.length_filter_le (· ≠ head) (unique rest)
      omega

end Unique

theorem refuse_eq_ok {bad : Prop} [Decidable bad] {error : ApiError} {α : Type} {next : Unit → Except ApiError α}
    {result : α} : (refuse bad error >>= next) = .ok result ↔ ¬ bad ∧ next () = .ok result := by
  unfold refuse
  split
  · exact iff_of_false nofun fun both => both.1 ‹_›
  · exact (and_iff_right ‹_›).symm

section Paths

variable {platform : Platform}

theorem cleanPackagePath_eq_ok {value : Option Json} {path : String} :
    cleanPackagePath platform value = .ok path ↔
      path = textOrEmpty platform.conv value ∧ isPackagePath platform path = true := by
  unfold cleanPackagePath validatePackagePath
  split
  · rename_i valid
    constructor
    · intro same
      cases same
      exact ⟨rfl, valid⟩
    · rintro ⟨rfl, -⟩
      rfl
  · rename_i invalid
    refine ⟨nofun, ?_⟩
    rintro ⟨rfl, valid⟩
    exact absurd valid invalid

theorem cleanPaths_path {values : List Json} {paths : List String}
    (cleaned : cleanPaths platform values = .ok paths) :
    paths.length = values.length ∧ ∀ path ∈ paths, isPackagePath platform path = true := by
  induction values generalizing paths with
  | nil =>
      cases cleaned
      exact ⟨rfl, nofun⟩
  | cons value rest ih =>
      obtain ⟨path, first, cleaned⟩ := Fallible.bind_eq_ok.mp cleaned
      obtain ⟨others, tail, made⟩ := Fallible.bind_eq_ok.mp cleaned
      cases made
      obtain ⟨length, every⟩ := ih tail
      exact ⟨congrArg (· + 1) length, List.forall_mem_cons.mpr ⟨(cleanPackagePath_eq_ok.mp first).2, every⟩⟩

/-- Paths that are valid are read back. -/
theorem cleanPaths_str {paths : List String} (valid : ∀ path ∈ paths, isPackagePath platform path = true) :
    cleanPaths platform (paths.map .str) = .ok paths := by
  induction paths with
  | nil => rfl
  | cons path rest ih =>
      rw [List.forall_mem_cons] at valid
      refine Fallible.bind_eq_ok.mpr ⟨path, cleanPackagePath_eq_ok.mpr ⟨rfl, valid.1⟩, ?_⟩
      exact Fallible.bind_eq_ok.mpr ⟨rest, ih valid.2, rfl⟩

theorem ne_empty_of_isPackagePath {path : String} (valid : isPackagePath platform path = true) : path ≠ "" := by
  rintro rfl
  simp [isPackagePath] at valid

end Paths

/-! Loading. -/

section Loading

variable {platform : Platform} {value : RawRecord} {files : List String} {theme : Theme}

theorem soundFiles_of_loadFiles {given : Option (List Json)} (loaded : loadFiles platform given = .ok files) :
    SoundFiles platform files := by
  obtain ⟨count, loaded⟩ := refuse_eq_ok.mp loaded
  obtain ⟨cleaned, paths, loaded⟩ := Fallible.bind_eq_ok.mp loaded
  obtain ⟨checked, made⟩ := refuse_eq_ok.mp loaded
  cases made
  obtain ⟨length, valid⟩ := cleanPaths_path paths
  push Not at count checked
  have same : (unique cleaned).length = cleaned.length := by
    rw [length]
    exact checked.1
  refine ⟨?_, ?_, nodup_unique _, fun path member => valid path (mem_unique.mp member), ?_⟩
  · intro none_
    rw [none_, length] at same
    exact count.1 (List.length_eq_zero_iff.mp same.symm)
  · rw [same, length]
    exact count.2
  · simpa using checked.2

theorem loadFiles_str (sound : SoundFiles platform files) :
    loadFiles platform (some (files.map .str)) = .ok files := by
  refine refuse_eq_ok.mpr ⟨?_, Fallible.bind_eq_ok.mpr ⟨files, cleanPaths_str sound.path,
    refuse_eq_ok.mpr ⟨?_, congrArg Except.ok (unique_of_nodup sound.distinct)⟩⟩⟩
  · rw [Option.getD_some, List.map_eq_nil_iff, List.length_map, not_or]
    exact ⟨sound.some_, not_lt.mpr sound.few⟩
  · rw [Option.getD_some, unique_of_nodup sound.distinct, List.length_map, not_or]
    exact ⟨not_not.mpr rfl, by simpa using sound.allowed⟩

theorem soundBody_of_loadCanvas {body : Body} (loaded : loadCanvas platform value files = .ok body) :
    SoundBody platform files body := by
  obtain ⟨entry, cleaned, loaded⟩ := Fallible.bind_eq_ok.mp loaded
  obtain ⟨html, loaded⟩ := refuse_eq_ok.mp loaded
  obtain ⟨permissions, loaded⟩ := refuse_eq_ok.mp loaded
  split at loaded
  · rename_i height given
    obtain ⟨range, made⟩ := refuse_eq_ok.mp loaded
    cases made
    push Not at html permissions range
    exact ⟨(cleanPackagePath_eq_ok.mp cleaned).2, by simpa using html.1, html.2, permissions, range.1, range.2⟩
  · cases loaded

theorem loadCanvas_str {entry : String} {permissions : List String} {height : ℚ}
    (sound : SoundBody platform files (.canvas entry permissions height)) (theme : Theme)
    (body : theme.body = .canvas entry permissions height) :
    loadCanvas platform theme.raw files = .ok theme.body := by
  obtain ⟨path, html, inside, rfl, low, high⟩ := sound
  have written : isTruthy (some (.str entry)) = true := by
    simpa using ne_empty_of_isPackagePath path
  have range : ¬ (height < 400 ∨ 12000 < height) := not_or.mpr ⟨not_lt.mpr low, not_lt.mpr high⟩
  simp only [loadCanvas, Theme.raw, body, written, if_true]
  refine Fallible.bind_eq_ok.mpr ⟨entry, cleanPackagePath_eq_ok.mpr ⟨rfl, path⟩,
    refuse_eq_ok.mpr ⟨by simp [html, inside], refuse_eq_ok.mpr ⟨?_, refuse_eq_ok.mpr ⟨range, rfl⟩⟩⟩⟩
  exact not_not.mpr rfl

theorem soundBody_of_styles {styles : List String} (valid : ∀ path ∈ styles, isPackagePath platform path = true)
    (checked : ¬ (styles = [] ∨ 4 < styles.length ∨
      styles.any (fun path => !endsWith ".css" path || decide (path ∉ files)) = true)) :
    SoundBody platform files (.css (unique styles)) := by
  push Not at checked
  obtain ⟨some_, few, every⟩ := checked
  have css : ∀ path ∈ styles, endsWith ".css" path = true ∧ path ∈ files := by
    simpa using every
  refine ⟨fun none_ => some_ ?_, (length_unique_le styles).trans few, nodup_unique _, fun path member => ?_⟩
  · refine List.eq_nil_iff_forall_not_mem.mpr fun path member => ?_
    rw [← mem_unique, none_] at member
    exact List.not_mem_nil member
  · have member := mem_unique.mp member
    exact ⟨valid path member, css path member⟩

theorem soundBody_of_loadStyles {body : Body} (loaded : loadStyles platform value files = .ok body) :
    SoundBody platform files body := by
  obtain ⟨styles, cleaned, loaded⟩ := Fallible.bind_eq_ok.mp loaded
  obtain ⟨checked, made⟩ := refuse_eq_ok.mp loaded
  cases made
  exact soundBody_of_styles (cleanPaths_path cleaned).2 checked

theorem loadStyles_str {styles : List String} (sound : SoundBody platform files (.css styles)) (theme : Theme)
    (body : theme.body = .css styles) : loadStyles platform theme.raw files = .ok theme.body := by
  obtain ⟨some_, few, distinct, every⟩ := sound
  simp only [loadStyles, Theme.raw, body, Option.getD_some]
  refine Fallible.bind_eq_ok.mpr ⟨styles, cleanPaths_str fun path member => (every path member).1,
    refuse_eq_ok.mpr ⟨?_, congrArg (Except.ok ∘ Body.css) (unique_of_nodup distinct)⟩⟩
  rw [not_or, not_or]
  refine ⟨some_, not_lt.mpr few, ?_⟩
  simpa using fun path member => (every path member).2

theorem soundBody_of_loadBody {body : Body} (loaded : loadBody platform value files = .ok body) :
    SoundBody platform files body := by
  unfold loadBody at loaded
  dsimp only at loaded
  split at loaded
  · exact soundBody_of_loadCanvas loaded
  split at loaded
  · exact soundBody_of_loadStyles loaded
  · cases loaded

theorem loadBody_raw (sound : SoundBody platform files theme.body) :
    loadBody platform theme.raw files = .ok theme.body := by
  cases body : theme.body with
  | canvas entry permissions height =>
      have mode : textOr platform.conv theme.raw.mode "css" = "canvas" := by
        simp [Theme.raw, body, textOr_str]
      rw [← body, loadBody, mode]
      exact loadCanvas_str (body ▸ sound) theme body
  | css styles =>
      have mode : textOr platform.conv theme.raw.mode "css" = "css" := by
        simp [Theme.raw, body, textOr_str]
      rw [← body, loadBody, mode]
      exact loadStyles_str (body ▸ sound) theme body

theorem cleanThemeId_again {text id : String} (clean : cleanThemeId text = .ok id) : cleanThemeId id = .ok id := by
  obtain ⟨-, valid, reserved⟩ := cleanThemeId_eq_ok clean
  have all := allowed_of_isThemeId valid
  have lower : lowered id = id := by
    rw [lowered, trim_of_allowed all, flatMap_lowerChar all, String.ofList_toList]
  simp [cleanThemeId, lower, valid, reserved]

/-- A record that is accepted is sound. -/
theorem soundTheme_of_validateStoredTheme (loaded : validateStoredTheme platform value = .ok theme) :
    SoundTheme platform theme := by
  obtain ⟨-, loaded⟩ := refuse_eq_ok.mp loaded
  obtain ⟨id, clean, loaded⟩ := Fallible.bind_eq_ok.mp loaded
  obtain ⟨revision, loaded⟩ := refuse_eq_ok.mp loaded
  obtain ⟨root, loaded⟩ := refuse_eq_ok.mp loaded
  obtain ⟨files, listed, loaded⟩ := Fallible.bind_eq_ok.mp loaded
  obtain ⟨settings, declared, loaded⟩ := Fallible.bind_eq_ok.mp loaded
  obtain ⟨body, made, loaded⟩ := Fallible.bind_eq_ok.mp loaded
  cases loaded
  refine ⟨cleanThemeId_again clean, ⟨trim_trim _, by simpa using revision⟩, ?_, soundFiles_of_loadFiles listed,
    (validateThemeSettings_spec declared).1, soundBody_of_loadBody made⟩
  exact (Classical.not_and_iff_not_or_not.mp root).imp not_not.mp not_not.mp

/-- A sound record is accepted when it is read back. -/
theorem validateStoredTheme_raw (sound : SoundTheme platform theme) :
    validateStoredTheme platform theme.raw = .ok (rereadTheme platform theme) := by
  have revision : trim (textOrEmpty platform.conv theme.raw.revision) = theme.revision := sound.revision.1
  have root : storageRootOf platform theme.raw = theme.storageRoot := by
    have stored : textOrEmpty platform.conv theme.raw.storageRoot = theme.storageRoot := rfl
    rw [storageRootOf, stored]
    rcases sound.root with same | same
    all_goals
      rw [same]
      decide +kernel
  refine refuse_eq_ok.mpr ⟨not_not.mpr rfl, Fallible.bind_eq_ok.mpr ⟨theme.id, sound.id, ?_⟩⟩
  rw [revision, root]
  refine refuse_eq_ok.mpr ⟨by simp [sound.revision.2], refuse_eq_ok.mpr ⟨?_, ?_⟩⟩
  · rcases sound.root with same | same
    all_goals simp [same]
  · refine Fallible.bind_eq_ok.mpr ⟨theme.files, loadFiles_str sound.files, ?_⟩
    refine Fallible.bind_eq_ok.mpr ⟨_, validateThemeSettings_reread sound.settings, ?_⟩
    exact Fallible.bind_eq_ok.mpr ⟨theme.body, loadBody_raw sound.body, rfl⟩

end Loading

/-! The upload. -/

section Upload

variable {platform : Platform} {archive entries : List (String × Nat)} {manifest : RawManifest}
  {fileNames : List String} {theme : Theme}

theorem safeUnzipEntries_spec {archiveNames : List String} {fileCount totalBytes : Nat}
    (unzipped : safeUnzipEntries platform archiveNames fileCount totalBytes archive = .ok entries) :
    (entries = [] ∨ fileCount + entries.length ≤ fileMaxCount) ∧ (entries.map Prod.fst).Nodup ∧
      ∀ name ∈ entries.map Prod.fst, name ∉ archiveNames := by
  induction archive generalizing archiveNames fileCount totalBytes entries with
  | nil =>
      cases unzipped
      exact ⟨.inl rfl, List.nodup_nil, nofun⟩
  | cons entry rest ih =>
      obtain ⟨archivePath, size⟩ := entry
      unfold safeUnzipEntries at unzipped
      dsimp only at unzipped
      generalize (if endsWith "/" archivePath = true then String.ofList archivePath.toList.dropLast
        else archivePath) = path at unzipped
      split at unzipped
      · cases unzipped
      rename_i fresh
      split at unzipped
      · cases unzipped
      rename_i room
      split at unzipped
      · cases unzipped
      split at unzipped
      · obtain ⟨count, distinct, others⟩ := ih unzipped
        refine ⟨count.imp_right fun bound => ?_, distinct, fun name member => ?_⟩
        · omega
        · exact fun seen => others name member (List.mem_cons_of_mem _ seen)
      split at unzipped
      · cases unzipped
      obtain ⟨tail, unzippedTail, made⟩ := Fallible.bind_eq_ok.mp unzipped
      obtain ⟨count, distinct, others⟩ := ih unzippedTail
      split at made
      · cases made
        refine ⟨count.imp_right fun bound => ?_, distinct, fun name member => ?_⟩
        · omega
        · exact fun seen => others name member (List.mem_cons_of_mem _ seen)
      · cases made
        refine ⟨.inr ?_, List.nodup_cons.mpr ⟨fun again => ?_, distinct⟩, List.forall_mem_cons.mpr ⟨fresh, ?_⟩⟩
        · rw [List.length_cons]
          rcases count with rfl | bound
          · rw [List.length_nil]
            omega
          · omega
        · exact others archivePath again List.mem_cons_self
        · exact fun name member seen => others name member (List.mem_cons_of_mem _ seen)

theorem validateFiles_spec {actualExpandedBytes : Nat}
    (valid : validateFiles platform actualExpandedBytes entries = .ok ()) :
    ∀ path ∈ entries.map Prod.fst, isPackagePath platform path = true ∧ isAllowedPackageFile path = true := by
  induction entries generalizing actualExpandedBytes with
  | nil => nofun
  | cons entry rest ih =>
      obtain ⟨path, size⟩ := entry
      obtain ⟨⟨⟩, first, valid⟩ := Fallible.bind_eq_ok.mp valid
      split at valid
      · cases valid
      refine List.forall_mem_cons.mpr ⟨?_, ih valid⟩
      unfold validatePackageFile at first
      split at first
      · cases first
      rename_i package
      split at first
      · cases first
      split at first
      · cases first
      rename_i allowed
      exact ⟨by simpa using package, by simpa using allowed⟩

theorem soundBody_of_validateCanvas {body : Body} (valid : validateCanvas platform manifest fileNames = .ok body) :
    SoundBody platform fileNames body := by
  obtain ⟨entry, cleaned, valid⟩ := Fallible.bind_eq_ok.mp valid
  obtain ⟨html, valid⟩ := refuse_eq_ok.mp valid
  obtain ⟨-, made⟩ := refuse_eq_ok.mp valid
  cases made
  push Not at html
  refine ⟨(cleanPackagePath_eq_ok.mp cleaned).2, by simpa using html.1, html.2, rfl, ?_⟩
  split
  · exact ⟨le_max_left _ _, max_le (by norm_num) (min_le_left _ _)⟩
  · norm_num

theorem soundBody_of_validateBody {body : Body} (valid : validateBody platform manifest fileNames = .ok body) :
    SoundBody platform fileNames body := by
  unfold validateBody at valid
  split at valid
  · exact soundBody_of_validateCanvas valid
  · obtain ⟨styles, cleaned, valid⟩ := Fallible.bind_eq_ok.mp valid
    obtain ⟨checked, made⟩ := refuse_eq_ok.mp valid
    cases made
    exact soundBody_of_styles (cleanPaths_path cleaned).2 checked

theorem of_validateManifest (valid : validateManifest platform manifest fileNames = .ok theme) :
    cleanThemeId theme.id = .ok theme.id ∧ theme.files = fileNames ∧
      validateThemeSettings platform.conv manifest.settings = .ok theme.settings ∧
      SoundBody platform fileNames theme.body := by
  obtain ⟨-, valid⟩ := refuse_eq_ok.mp valid
  obtain ⟨id, clean, valid⟩ := Fallible.bind_eq_ok.mp valid
  obtain ⟨members, -, valid⟩ := Fallible.bind_eq_ok.mp valid
  obtain ⟨-, -, valid⟩ := Fallible.bind_eq_ok.mp valid
  obtain ⟨settings, declared, valid⟩ := Fallible.bind_eq_ok.mp valid
  obtain ⟨body, made, valid⟩ := Fallible.bind_eq_ok.mp valid
  cases valid
  exact ⟨cleanThemeId_again clean, rfl, declared, soundBody_of_validateBody made⟩

/-- What an upload accepts, with the settings of its manifest. -/
theorem of_acceptPackage (accepted : acceptPackage platform archive (some manifest) = .ok theme) :
    cleanThemeId theme.id = .ok theme.id ∧ SoundFiles platform theme.files ∧
      validateThemeSettings platform.conv manifest.settings = .ok theme.settings ∧
      SoundBody platform theme.files theme.body := by
  unfold acceptPackage at accepted
  split at accepted
  · cases accepted
  rename_i entries unzipped
  obtain ⟨named, accepted⟩ := refuse_eq_ok.mp accepted
  obtain ⟨⟨⟩, files, accepted⟩ := Fallible.bind_eq_ok.mp accepted
  obtain ⟨-, accepted⟩ := refuse_eq_ok.mp accepted
  obtain ⟨checked, valid, accepted⟩ := Fallible.bind_eq_ok.mp accepted
  obtain ⟨-, made⟩ := refuse_eq_ok.mp accepted
  cases made
  obtain ⟨id, same, declared, body⟩ := of_validateManifest valid
  obtain ⟨count, distinct, -⟩ := safeUnzipEntries_spec unzipped
  have every := validateFiles_spec files
  have sorted : (sortNames (entries.map Prod.fst)).Perm (entries.map Prod.fst) := List.perm_insertionSort _ _
  have some_ : entries.map Prod.fst ≠ [] := by
    intro nothing
    rw [nothing] at named
    exact named List.not_mem_nil
  rw [← same] at sorted body
  refine ⟨id, ⟨?_, ?_, sorted.nodup_iff.mpr distinct, ?_, ?_⟩, declared, body⟩
  · exact fun nothing => some_ (List.nil_perm.mp (nothing ▸ sorted))
  · rw [sorted.length_eq, List.length_map]
    rcases count with rfl | bound
    · exact Nat.zero_le _
    · omega
  · exact fun path member => (every path (sorted.mem_iff.mp member)).1
  · exact fun path member => (every path (sorted.mem_iff.mp member)).2

theorem revision_spec (revision : Revision) : trim revision.text = revision.text ∧ isRevision revision.text = true := by
  obtain ⟨length, digits⟩ := revision.digits
  have plain {c : Char} (digit : isHexDigit c = true) : isSpace c = false ∧ c.isAlphanum = true := by
    simp only [isHexDigit, List.contains_eq_mem, List.mem_cons, List.not_mem_nil, or_false,
      decide_eq_true_eq] at digit
    rcases digit with rfl | rfl | rfl | rfl | rfl | rfl | rfl | rfl | rfl | rfl | rfl | rfl | rfl | rfl | rfl |
      rfl | rfl | rfl | rfl | rfl | rfl | rfl <;> decide
  refine ⟨trim_of_no_space fun c member => (plain (digits c member)).1, ?_⟩
  simp only [isRevision, length, Bool.and_eq_true, List.all_eq_true]
  refine ⟨⟨by decide, by decide⟩, fun c member => ?_⟩
  rw [(plain (digits c member)).2]
  rfl

/-- The record of an accepted package is sound. -/
theorem soundTheme_recordOf (accepted : acceptPackage platform archive (some manifest) = .ok theme)
    (packageSha256 : String) (revision : Revision) (uploadedAt : Int) :
    SoundTheme platform (recordOf theme packageSha256 revision uploadedAt) := by
  obtain ⟨id, files, declared, body⟩ := of_acceptPackage accepted
  exact ⟨id, revision_spec revision, .inl rfl, files, (validateThemeSettings_spec declared).1, body⟩

end Upload

/-! The registry. -/

section Registry

variable {platform : Platform} {themes : List Theme}

theorem sound_of_parseRegistry {registry : List RawRecord} (parsed : parseRegistry platform registry = .ok themes) :
    ∀ theme ∈ themes, SoundTheme platform theme := by
  have all : parseAll platform registry = .ok themes := by
    unfold parseRegistry at parsed
    split at parsed
    · rename_i found
      cases parsed
      exact found
    · cases parsed
  clear parsed
  induction registry generalizing themes with
  | nil =>
      cases all
      nofun
  | cons value rest ih =>
      obtain ⟨theme, first, all⟩ := Fallible.bind_eq_ok.mp all
      obtain ⟨others, tail, made⟩ := Fallible.bind_eq_ok.mp all
      cases made
      exact List.forall_mem_cons.mpr ⟨soundTheme_of_validateStoredTheme first, ih tail⟩

theorem parseRegistry_raw (sound : ∀ theme ∈ themes, SoundTheme platform theme) :
    parseRegistry platform (themes.map Theme.raw) = .ok (themes.map (rereadTheme platform)) := by
  have all : parseAll platform (themes.map Theme.raw) = .ok (themes.map (rereadTheme platform)) := by
    induction themes with
    | nil => rfl
    | cons theme rest ih =>
        rw [List.forall_mem_cons] at sound
        refine Fallible.bind_eq_ok.mpr ⟨_, validateStoredTheme_raw sound.1, ?_⟩
        exact Fallible.bind_eq_ok.mpr ⟨_, ih sound.2, rfl⟩
  rw [parseRegistry, all]

theorem mem_withRecord {record theme : Theme} (member : theme ∈ withRecord platform themes record) :
    theme = record ∨ theme ∈ themes := by
  rw [withRecord, List.mem_mergeSort, List.mem_append, List.mem_singleton] at member
  exact member.symm.imp_right List.mem_of_mem_filter

end Registry

/-- The same record, with the same settings up to the white space around their texts. -/
structure SameTheme (stored loaded : Theme) : Prop where
  fields : { loaded with settings := stored.settings } = stored
  settings : List.Forall₂ Same stored.settings loaded.settings

/-- A record loads again as it was saved, and the registry with it stays readable. -/
structure LoadsAgain (platform : Platform) (record : Theme) : Prop where
  same : ∃ loaded, validateStoredTheme platform record.raw = .ok loaded ∧ SameTheme record loaded
  readable : ∀ registry themes, parseRegistry platform registry = .ok themes →
    ∃ loaded, parseRegistry platform ((withRecord platform themes record).map Theme.raw) = .ok loaded

theorem loadsAgain_of_sound {platform : Platform} {record : Theme} (sound : SoundTheme platform record) :
    LoadsAgain platform record ↔
      ∀ declaration ∈ record.settings, Same declaration (rereadDeclaration platform.conv declaration) := by
  constructor
  · rintro ⟨⟨loaded, accepted, same⟩, -⟩
    cases (validateStoredTheme_raw sound).symm.trans accepted
    exact List.forall₂_same.mp (List.forall₂_map_right_iff.mp same.settings)
  · intro same
    refine ⟨⟨_, validateStoredTheme_raw sound, rfl, ?_⟩, fun registry themes parsed => ?_⟩
    · exact List.forall₂_map_right_iff.mpr (List.forall₂_same.mpr same)
    · refine ⟨_, parseRegistry_raw fun theme member => ?_⟩
      rcases mem_withRecord member with rfl | before
      · exact sound
      · exact sound_of_parseRegistry parsed theme before

def plainPlatform : Platform where
  conv := wholeNumbers
  normalizeNFC := fun text => text
  parseUrl := fun _ => none
  localeCompare := fun first second => first ≤ second

def paperArchive : List (String × Nat) := [("manifest.json", 600), ("style.css", 900)]

/-- A select with one option, whose label is blank. -/
def paperItem (value : String) : RawItem :=
  .object { key := some (.str "paper"), type := some (.str "select"), options := [.object (some (.str value))] }
    { optionLabels := [some (.str " ")] }

def paperManifest (value : String) : RawManifest where
  schema := some (.str "nie-sla-theme-v1")
  id := some (.str "paper")
  name := some (.str "Paper")
  version := some (.str "1.0.0")
  styles := some [.str "style.css"]
  settings := .array [paperItem value]

def longValue : String := "a-value-that-is-longer-than-a-label-may-be"

theorem digits_replicate : (String.ofList (List.replicate 32 'a')).toList.length = 32 ∧
    ∀ c ∈ (String.ofList (List.replicate 32 'a')).toList, isHexDigit c = true := by
  rw [String.toList_ofList]
  refine ⟨List.length_replicate, fun c member => ?_⟩
  rw [List.eq_of_mem_replicate member]
  rfl

def someRevision : Revision := ⟨String.ofList (List.replicate 32 'a'), digits_replicate⟩

theorem accepted_paper {value : String}
    (ok : (acceptPackage plainPlatform paperArchive (some (paperManifest value))).toBool = true) :
    ∃ theme, acceptPackage plainPlatform paperArchive (some (paperManifest value)) = .ok theme := by
  cases accepted : acceptPackage plainPlatform paperArchive (some (paperManifest value)) with
  | ok theme => exact ⟨theme, rfl⟩
  | error error =>
      rw [accepted] at ok
      cases ok

theorem accepted_day :
    (acceptPackage plainPlatform paperArchive (some (paperManifest "day"))).toBool = true := by
  decide +kernel

theorem accepted_longValue :
    (acceptPackage plainPlatform paperArchive (some (paperManifest longValue))).toBool = true := by
  decide +kernel

end NieSla.Themes.Package
