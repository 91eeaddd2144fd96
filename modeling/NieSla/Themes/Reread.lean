import NieSla.Themes.Active
import NieSla.Themes.Declared

/-! The declarations of a package, read back from the registry: they are always accepted, and they are the
same exactly when no long value stands in the place of a blank label and no image default ends in white
space. -/
namespace NieSla.Themes.Package

section Declarations

variable (conv : Conversions)

def rereadSetting (setting : Setting) : Setting := ⟨setting.key, reread setting.kind⟩

/-- What is read back of a declaration. -/
def rereadDeclaration (declaration : Declaration) : Declaration :=
  declare conv (rereadSetting declaration.setting) (rawTexts declaration.texts)

def SameKind : Kind → Kind → Prop
  | .text stored, .text loaded => trim loaded = trim stored
  | .textarea stored, .textarea loaded => trim loaded = trim stored
  | stored, loaded => loaded = stored

/-- The same declaration, up to the white space around its texts. -/
structure Same (stored loaded : Declaration) : Prop where
  key : loaded.setting.key = stored.setting.key
  kind : SameKind stored.setting.kind loaded.setting.kind
  label : trim loaded.texts.label = trim stored.texts.label
  description : trim loaded.texts.description = trim stored.texts.description
  placeholder : trim (loaded.texts.placeholder.getD "") = trim (stored.texts.placeholder.getD "")
  optionLabels : loaded.texts.optionLabels.map trim = stored.texts.optionLabels.map trim

structure SoundSetting (setting : Setting) : Prop where
  key : isSettingKey setting.key = true
  kind : Sound setting.kind

/-- A declaration as `validateThemeSettings` makes it. -/
def SoundDeclaration (declaration : Declaration) : Prop :=
  ∃ setting texts, declaration = declare conv setting texts ∧ SoundSetting setting

/-- A value in the place of a blank label is not longer than a label. -/
def LabelsFit : List String → List (Option Json) → Prop
  | [], _ => True
  | value :: rest, labels =>
      (trim (textOrElse conv (labels.headD none) value) = "" → textLength value ≤ 40) ∧
        LabelsFit rest labels.tail

/-- What has to hold of the input for a declaration to stay the same. -/
def DeclarationFits (setting : Setting) (texts : RawTexts) : Prop :=
  match setting.kind with
  | .select options _ => LabelsFit conv options texts.optionLabels
  | .image default => trim default = default
  | _ => True

variable {conv} {setting : Setting} {texts : RawTexts}

theorem textLength_of_allowed {chars : List Char} (all : ∀ c ∈ chars, allowedChar c = true) :
    textLength (String.ofList chars) = chars.length := by
  have ones : chars.map codeUnits = chars.map fun _ => 1 := by
    refine List.map_congr_left fun c member => if_pos ?_
    obtain ⟨-, high, -⟩ := range_of_allowed (all c member)
    rw [UInt32.lt_iff_toNat_lt]
    exact high.trans_lt (by decide)
  rw [textLength, String.toList_ofList, ones]
  simp

theorem isSettingKey_spec {key : String} (format : isSettingKey key = true) :
    trim key = key ∧ key ≠ "" ∧ textLength key ≤ 40 := by
  unfold isSettingKey at format
  cases chars : key.toList with
  | nil => simp [chars] at format
  | cons first rest =>
      simp only [chars, Bool.and_eq_true, decide_eq_true_eq, List.all_eq_true, Bool.or_eq_true] at format
      obtain ⟨⟨⟨lower, -⟩, short⟩, every⟩ := format
      have all : ∀ c ∈ key.toList, allowedChar c = true := by
        rw [chars, List.forall_mem_cons]
        refine ⟨by simp [allowedChar, lower], fun c member => ?_⟩
        rcases every c member with (letter | digit) | line
        · simp [allowedChar, letter]
        · simp [allowedChar, digit]
        · simp [allowedChar, line]
      refine ⟨trim_of_allowed all, ?_, ?_⟩
      · rintro rfl
        cases chars
      · have length := textLength_of_allowed all
        rw [String.ofList_toList, chars, List.length_cons] at length
        omega

theorem lowered_typeName (kind : Kind) : lowered (typeName kind) = typeName kind := by
  have every : ∀ name ∈ allowedSettingTypes, lowered name = name := by decide +kernel
  apply every
  cases kind
  all_goals simp [typeName, allowedSettingTypes]

/-- A sound setting is read back. -/
theorem validateItem_reread {idx : Nat} {seen : List String} (sound : SoundSetting setting)
    (fresh : setting.key ∉ seen) :
    validateItem conv idx seen (.object (rawFields setting)) = .ok (rereadSetting setting) := by
  obtain ⟨plain, -, -⟩ := isSettingKey_spec sound.key
  have key : trim (textOrEmpty conv (rawFields setting).key) = setting.key := plain
  have type : lowered (textOrEmpty conv (rawFields setting).type) = typeName setting.kind :=
    lowered_typeName setting.kind
  have kind : validateKind conv idx (typeName setting.kind) (rawFields setting) = .ok (reread setting.kind) :=
    validateKind_reread sound.kind
  simp only [validateItem, key, type, kind, sound.key, Bool.not_true, Bool.false_eq_true, if_false, if_neg fresh]
  rfl

theorem validateItems_reread {idx : Nat} {seen : List String} {settings : List Setting}
    (sound : ∀ setting ∈ settings, SoundSetting setting) (distinct : (settings.map Setting.key).Nodup)
    (fresh : ∀ setting ∈ settings, setting.key ∉ seen) :
    validateItems conv idx seen (settings.map fun setting => .object (rawFields setting)) =
      .ok (settings.map rereadSetting) := by
  induction settings generalizing idx seen with
  | nil => rfl
  | cons setting rest ih =>
      rw [List.forall_mem_cons] at sound fresh
      rw [List.map_cons, List.nodup_cons] at distinct
      have first : validateItem conv idx seen (.object (rawFields setting)) = .ok (rereadSetting setting) :=
        validateItem_reread sound.1 fresh.1
      have fresh : ∀ other ∈ rest, other.key ∉ setting.key :: seen := by
        intro other member
        rw [List.mem_cons, not_or]
        refine ⟨fun same => distinct.1 ?_, fresh.2 other member⟩
        exact same ▸ List.mem_map_of_mem member
      have others : validateItems conv (idx + 1) (setting.key :: seen)
          (rest.map fun setting => .object (rawFields setting)) = .ok (rest.map rereadSetting) :=
        ih sound.2 distinct.2 fresh
      simp only [List.map_cons, validateItems, first]
      exact Fallible.bind_eq_ok.mpr ⟨_, rfl, Fallible.bind_eq_ok.mpr ⟨_, others, rfl⟩⟩

/-- What an accepted item says of its setting. -/
theorem of_validateItem {idx : Nat} {seen : List String} {item : RawSetting}
    (accepted : validateItem conv idx seen item = .ok setting) :
    SoundSetting setting ∧ ∃ fields, item = .object fields ∧
      validateKind conv idx (lowered (textOrEmpty conv fields.type)) fields = .ok setting.kind := by
  cases item with
  | invalid => cases accepted
  | object fields =>
      simp only [validateItem] at accepted
      split at accepted
      · cases accepted
      · rename_i format
        split at accepted
        · cases accepted
        · obtain ⟨kind, valid, made⟩ := Fallible.bind_eq_ok.mp accepted
          cases made
          refine ⟨⟨by simpa using format, (sound_of_validateKind valid).1⟩, fields, rfl, valid⟩

theorem of_validateItems {idx : Nat} {seen : List String} {items : List RawSetting} {settings : List Setting}
    (accepted : validateItems conv idx seen items = .ok settings) :
    List.Forall₂ (fun item setting => SoundSetting setting ∧ ∃ place fields, item = .object fields ∧
      validateKind conv place (lowered (textOrEmpty conv fields.type)) fields = .ok setting.kind) items settings := by
  induction items generalizing idx seen settings with
  | nil =>
      cases accepted
      exact .nil
  | cons item rest ih =>
      simp only [validateItems] at accepted
      obtain ⟨setting, first, accepted⟩ := Fallible.bind_eq_ok.mp accepted
      obtain ⟨others, tail, made⟩ := Fallible.bind_eq_ok.mp accepted
      cases made
      obtain ⟨sound, fields, same, valid⟩ := of_validateItem first
      exact .cons ⟨sound, idx, fields, same, valid⟩ (ih tail)

/-! What stays the same. -/

theorem labelsFit_iff {options : List String} (plain : ∀ value ∈ options, trim value = value ∧ value ≠ "")
    (labels : List (Option Json)) :
    (optionLabels conv options ((optionLabels conv options labels).map fun label => some (.str label))).map trim =
        (optionLabels conv options labels).map trim ↔ LabelsFit conv options labels := by
  induction options generalizing labels with
  | nil => exact iff_of_true rfl trivial
  | cons value rest ih =>
      rw [List.forall_mem_cons] at plain
      simp only [optionLabels, List.map_cons, List.headD_cons, List.tail_cons, List.cons.injEq, LabelsFit,
        ih plain.2, optionLabel_again_iff plain.1.1 plain.1.2]

theorem label_again (sound : SoundSetting setting) :
    trim (rereadDeclaration conv (declare conv setting texts)).texts.label =
      trim (declare conv setting texts).texts.label := by
  obtain ⟨plain, written, short⟩ := isSettingKey_spec sound.key
  obtain ⟨left, bound⟩ : trim (labelOf conv setting.key texts.label) ≠ "" ∧
      textLength (labelOf conv setting.key texts.label) ≤ 40 :=
    labelOf_fits (plain.symm ▸ written) short texts.label
  simp only [rereadDeclaration, declare, rereadSetting, rawTexts]
  rw [labelOf_again left bound, trim_trim]

theorem description_again : trim (rereadDeclaration conv (declare conv setting texts)).texts.description =
    trim (declare conv setting texts).texts.description := by
  simp only [rereadDeclaration, declare, rereadSetting, rawTexts]
  rw [descriptionOf_again, trim_trim]

theorem placeholder_again :
    trim ((rereadDeclaration conv (declare conv setting texts)).texts.placeholder.getD "") =
      trim ((declare conv setting texts).texts.placeholder.getD "") := by
  have again : trim ((placeholderOf conv ((placeholderOf conv texts.placeholder).map .str)).getD "") =
      trim ((placeholderOf conv texts.placeholder).getD "") := placeholderOf_again texts.placeholder
  simp only [rereadDeclaration, declare, rereadSetting, rawTexts]
  cases setting.kind with
  | text | textarea => exact again
  | number | boolean | select | color | image => rfl

theorem same_reread_iff (sound : SoundSetting setting) :
    Same (declare conv setting texts) (rereadDeclaration conv (declare conv setting texts)) ↔
      DeclarationFits conv setting texts := by
  have whole : Same (declare conv setting texts) (rereadDeclaration conv (declare conv setting texts)) ↔
      SameKind setting.kind (reread setting.kind) ∧
        (rereadDeclaration conv (declare conv setting texts)).texts.optionLabels.map trim =
          (declare conv setting texts).texts.optionLabels.map trim :=
    ⟨fun same => ⟨same.kind, same.optionLabels⟩, fun ⟨kind, labels⟩ =>
      ⟨rfl, kind, label_again sound, description_again, placeholder_again, labels⟩⟩
  rw [whole, DeclarationFits]
  simp only [rereadDeclaration, declare, rereadSetting, rawTexts]
  have kept := sound.kind
  cases kind : setting.kind with
  | text default => simp [SameKind, reread]
  | textarea default => simp [SameKind, reread]
  | number default min max => simp [SameKind, reread]
  | boolean default => simp [SameKind, reread]
  | color default => simp [SameKind, reread]
  | image default => simp [SameKind, reread]
  | select options default =>
      rw [kind] at kept
      simp only [SameKind, reread, true_and]
      exact labelsFit_iff (fun value member => ⟨(kept.2.2.1 value member).1, (kept.2.2.1 value member).2.1⟩) _

end Declarations

/-! All the settings of a package. -/

section Settings

/-- The settings of a package as `validateThemeSettings` makes them. -/
structure SoundSettings (conv : Conversions) (declarations : List Declaration) : Prop where
  few : declarations.length ≤ maxSettingsCount
  distinct : (declarations.map fun declaration => declaration.setting.key).Nodup
  sound : ∀ declaration ∈ declarations, SoundDeclaration conv declaration

/-- The values of the options and their labels, as they are given. -/
def OptionsFit (conv : Conversions) : List RawOption → List (Option Json) → Prop
  | [], _ => True
  | .invalid :: rest, labels => OptionsFit conv rest labels.tail
  | .object given :: rest, labels =>
      (trim (textOrElse conv (labels.headD none) (trim (textOrElse conv given ""))) = "" →
          textLength (trim (textOrElse conv given "")) ≤ 40) ∧
        OptionsFit conv rest labels.tail

/-- An option with a blank label has a value of at most 40 units, and the default of an image does not end
in white space after it is cut. -/
def ItemFits (conv : Conversions) : RawItem → Prop
  | .invalid => True
  | .object fields texts =>
      (lowered (textOrEmpty conv fields.type) = "select" → OptionsFit conv fields.options texts.optionLabels) ∧
        (lowered (textOrEmpty conv fields.type) = "image" →
          trim (cut 600 (trim (textOrElse conv fields.default ""))) =
            cut 600 (trim (textOrElse conv fields.default "")))

variable {conv : Conversions} {raw : RawItems} {declarations : List Declaration}

theorem optionsFit_iff {idx oi : Nat} {given : List RawOption} {options : List String}
    (valid : validateOptions conv idx oi given = .ok options) (labels : List (Option Json)) :
    OptionsFit conv given labels ↔ LabelsFit conv options labels := by
  have same := validateOptions_eq_ok.mp valid
  clear valid
  induction same generalizing labels with
  | nil => exact Iff.rfl
  | cons head _ ih =>
      obtain ⟨value, rfl, rfl, -, -⟩ := head
      simp only [OptionsFit, LabelsFit, ih]

theorem declarationFits_iff {idx : Nat} {fields : RawFields} {texts : RawTexts} {setting : Setting}
    (valid : validateKind conv idx (lowered (textOrEmpty conv fields.type)) fields = .ok setting.kind) :
    DeclarationFits conv setting texts ↔ ItemFits conv (.object fields texts) := by
  have name := (sound_of_validateKind valid).2
  unfold DeclarationFits ItemFits
  dsimp only
  rw [← name] at valid ⊢
  cases kind : setting.kind with
  | text | textarea | number | boolean | color => simp [typeName]
  | select options default =>
      rw [kind] at valid
      have select : validateKind conv idx "select" fields = validateSelect conv idx fields := by
        simp [validateKind, allowedSettingTypes]
      obtain ⟨-, -, values, accepted, -, same⟩ := validateSelect_eq_ok.mp (select.symm.trans valid)
      cases same
      simp [typeName, optionsFit_iff accepted]
  | image default =>
      rw [kind] at valid
      have image : validateKind conv idx "image" fields = validateImage conv idx fields := by
        simp [validateKind, allowedSettingTypes]
      have same := Kind.image.inj (sound_of_validateImage (image.symm.trans valid)).1
      rw [← same]
      simp [typeName]

/-- The declarations of accepted items. -/
def declareAll (conv : Conversions) (settings : List Setting) (items : List RawItem) : List Declaration :=
  List.zipWith (fun setting item => declare conv setting item.texts) settings items

theorem declareAll_spec {items : List RawItem} {settings : List Setting}
    (same : List.Forall₂ (fun item setting => SoundSetting setting ∧ ∃ place fields,
      RawItem.setting item = .object fields ∧
        validateKind conv place (lowered (textOrEmpty conv fields.type)) fields = .ok setting.kind)
      items settings) :
    (declareAll conv settings items).map (fun declaration => declaration.setting.key) =
        settings.map Setting.key ∧
      (∀ declaration ∈ declareAll conv settings items, SoundDeclaration conv declaration) ∧
      ((∀ declaration ∈ declareAll conv settings items, Same declaration (rereadDeclaration conv declaration)) ↔
        ∀ item ∈ items, ItemFits conv item) := by
  induction same with
  | nil => exact ⟨rfl, by simp [declareAll], by simp [declareAll]⟩
  | @cons item setting _ _ head _ ih =>
      obtain ⟨sound, place, fields, object, valid⟩ := head
      obtain ⟨keys, every, fits⟩ := ih
      cases item with
      | invalid => cases object
      | object given texts =>
          cases object
          simp only [declareAll, List.zipWith_cons_cons, List.map_cons, List.forall_mem_cons] at keys every fits ⊢
          refine ⟨by rw [keys]; rfl, ⟨⟨setting, texts, rfl, sound⟩, every⟩, ?_⟩
          exact and_congr ((same_reread_iff sound).trans (declarationFits_iff valid)) fits

/-- What is accepted is sound, and stays the same where the items fit. -/
theorem validateThemeSettings_spec (accepted : validateThemeSettings conv raw = .ok declarations) :
    SoundSettings conv declarations ∧
      ((∀ declaration ∈ declarations, Same declaration (rereadDeclaration conv declaration)) ↔
        ∀ item ∈ raw.items, ItemFits conv item) := by
  obtain ⟨settings, valid, made⟩ := Fallible.bind_eq_ok.mp accepted
  have made : declareAll conv settings raw.items = declarations := Except.ok.inj made
  rw [← made]
  have distinct := nodup_of_validateThemeSettings valid
  cases raw with
  | missing =>
      have nothing : declareAll conv settings RawItems.missing.items = [] := List.zipWith_nil_right
      rw [nothing]
      exact ⟨⟨Nat.zero_le _, List.nodup_nil, by simp⟩, by simp [RawItems.items]⟩
  | invalid => cases valid
  | array items =>
      simp only [RawItems.settings, Themes.validateThemeSettings] at valid
      split at valid
      · cases valid
      · rename_i few
        have same := of_validateItems valid
        rw [List.forall₂_map_left_iff] at same
        obtain ⟨keys, every, fits⟩ := declareAll_spec same
        have length := congrArg List.length keys
        rw [List.length_map, List.length_map, ← same.length_eq] at length
        rw [List.length_map, ← length] at few
        exact ⟨⟨not_lt.mp few, keys ▸ distinct, every⟩, fits⟩

theorem declareAll_raw : declareAll conv (declarations.map fun declaration => rereadSetting declaration.setting)
    (declarations.map Declaration.raw) = declarations.map (rereadDeclaration conv) := by
  rw [declareAll, List.zipWith_map, List.zipWith_self]
  rfl

/-- Sound settings are accepted when they are read back. -/
theorem validateThemeSettings_reread (sound : SoundSettings conv declarations) :
    validateThemeSettings conv (.array (declarations.map Declaration.raw)) =
      .ok (declarations.map (rereadDeclaration conv)) := by
  have every : ∀ setting ∈ declarations.map Declaration.setting, SoundSetting setting := by
    intro setting member
    obtain ⟨declaration, inside, rfl⟩ := List.mem_map.mp member
    obtain ⟨made, texts, rfl, kept⟩ := sound.sound declaration inside
    exact kept
  have distinct : ((declarations.map Declaration.setting).map Setting.key).Nodup := by
    rw [List.map_map]
    exact sound.distinct
  have valid : validateItems conv 0 [] ((declarations.map Declaration.setting).map
      fun setting => .object (rawFields setting)) =
      .ok ((declarations.map Declaration.setting).map rereadSetting) :=
    validateItems_reread every distinct fun _ _ => List.not_mem_nil
  rw [List.map_map, List.map_map] at valid
  have few : ¬ maxSettingsCount < (declarations.map fun declaration =>
      RawItem.setting declaration.raw).length := by
    rw [List.length_map]
    exact not_lt.mpr sound.few
  refine Fallible.bind_eq_ok.mpr ⟨declarations.map fun declaration => rereadSetting declaration.setting, ?_, ?_⟩
  · simp only [RawItems.settings, Themes.validateThemeSettings, List.map_map]
    exact (if_neg few).trans valid
  · exact congrArg Except.ok declareAll_raw

end Settings

end NieSla.Themes.Package
