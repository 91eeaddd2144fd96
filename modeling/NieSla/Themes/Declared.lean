import NieSla.Lib.Fallible
import NieSla.Themes.SettingsKept

/-! The settings that a package declares, with their texts, and what is read back of them from the
registry. -/
namespace NieSla.Themes.Package

/-- The texts of an item of `settings`; the labels of the options in their order. -/
structure RawTexts where
  label : Option Json := none
  description : Option Json := none
  placeholder : Option Json := none
  optionLabels : List (Option Json) := []

inductive RawItem where
  | invalid
  | object (fields : RawFields) (texts : RawTexts)

inductive RawItems where
  | missing
  | invalid
  | array (items : List RawItem)

structure Texts where
  label : String
  description : String
  placeholder : Option String
  optionLabels : List String

structure Declaration where
  setting : Setting
  texts : Texts

def RawItem.setting : RawItem → RawSetting
  | .invalid => .invalid
  | .object fields _ => .object fields

def RawItem.texts : RawItem → RawTexts
  | .invalid => {}
  | .object _ texts => texts

def RawItems.settings : RawItems → RawSettings
  | .missing => .missing
  | .invalid => .invalid
  | .array items => .array (items.map RawItem.setting)

def RawItems.items : RawItems → List RawItem
  | .array items => items
  | _ => []

section Texts

variable (conv : Conversions)

def isTruthy : Option Json → Bool
  | none | some .null | some (.num .nan) => false
  | some (.bool value) => value
  | some (.num (.finite value)) => value ≠ 0
  | some (.str text) => text ≠ ""
  | some _ => true

/-- `String(raw || fallback)` -/
def textOr (raw : Option Json) (fallback : String) : String :=
  if isTruthy raw then textOrEmpty conv raw else fallback

/-- `text.trim().slice(0, 40) || fallback` -/
def limited (text fallback : String) : String :=
  if cut 40 (trim text) = "" then fallback else cut 40 (trim text)

def labelOf (key : String) (raw : Option Json) : String := limited (textOr conv raw key) key

def descriptionOf (raw : Option Json) : String := cut 120 (trim (textOr conv raw ""))

def placeholderOf (raw : Option Json) : Option String :=
  if isTruthy raw then some (cut 80 (trim (textOr conv raw ""))) else none

def optionLabel (value : String) (raw : Option Json) : String := limited (textOrElse conv raw value) value

def optionLabels : List String → List (Option Json) → List String
  | [], _ => []
  | value :: rest, labels => optionLabel conv value (labels.headD none) :: optionLabels rest labels.tail

/-- An item of the result of `validateThemeSettings`. -/
def declare (setting : Setting) (texts : RawTexts) : Declaration where
  setting := setting
  texts :=
    { label := labelOf conv setting.key texts.label
      description := descriptionOf conv texts.description
      placeholder := match setting.kind with
        | .text _ | .textarea _ => placeholderOf conv texts.placeholder
        | _ => none
      optionLabels := match setting.kind with
        | .select options _ => optionLabels conv options texts.optionLabels
        | _ => [] }

/-- `validateThemeSettings`, with the texts, of which none is refused. -/
def validateThemeSettings (raw : RawItems) : Except ApiError (List Declaration) := do
  let settings ← Themes.validateThemeSettings conv raw.settings
  return List.zipWith (fun setting item => declare conv setting item.texts) settings raw.items

end Texts

/-! The JSON of a declaration. -/

def typeName : Kind → String
  | .text _ => "text"
  | .textarea _ => "textarea"
  | .number .. => "number"
  | .boolean _ => "boolean"
  | .select .. => "select"
  | .color _ => "color"
  | .image _ => "image"

def number (value : ℚ) : Json := .num (.finite value)

def rawFields (setting : Setting) : RawFields where
  key := some (.str setting.key)
  type := some (.str (typeName setting.kind))
  default := some setting.kind.default.json
  min := match setting.kind with
    | .number _ min _ => min.map number
    | _ => none
  max := match setting.kind with
    | .number _ _ max => max.map number
    | _ => none
  options := match setting.kind with
    | .select options _ => options.map fun value => .object (some (.str value))
    | _ => []

def rawTexts (texts : Texts) : RawTexts where
  label := some (.str texts.label)
  description := some (.str texts.description)
  placeholder := texts.placeholder.map .str
  optionLabels := texts.optionLabels.map fun label => some (.str label)

def Declaration.raw (declaration : Declaration) : RawItem :=
  .object (rawFields declaration.setting) (rawTexts declaration.texts)

/-! Texts that are trimmed and cut. -/

section Trim

theorem isSpace_of_trimChars {chars rest : List Char} {c : Char} (trimmed : trimChars chars = c :: rest) :
    isSpace c = false := by
  by_contra space
  have again := trimChars_trimChars chars
  rw [trimmed] at again
  have shorter : trimChars (c :: rest) = trimChars rest := by
    simp only [trimChars, List.dropWhile_cons, eq_true_of_ne_false space, if_true]
  have bound := length_trimChars_le rest
  rw [← shorter, again] at bound
  simp at bound

theorem trimChars_ne_nil {rest : List Char} {c : Char} (plain : isSpace c = false) :
    trimChars (c :: rest) ≠ [] := by
  simp only [trimChars, List.dropWhile_cons, plain, Bool.false_eq_true, if_false, ne_eq,
    List.reverse_eq_nil_iff, List.dropWhile_eq_nil_iff, List.mem_reverse, not_forall]
  exact ⟨c, List.mem_cons_self, by simp [plain]⟩

/-- A text that starts with what a trimmed one starts with is not blank. -/
theorem trim_cut_ne_empty {units : Nat} {text : String} (some_ : cut units (trim text) ≠ "") :
    trim (cut units (trim text)) ≠ "" := by
  intro blank
  have chars : trimChars (cutChars units (trimChars text.toList)) = [] := by
    simpa [trim, cut] using congrArg String.toList blank
  have leads := cutChars_prefix units (trimChars text.toList)
  cases found : cutChars units (trimChars text.toList) with
  | nil =>
      refine some_ ?_
      simp [cut, trim, found]
  | cons c rest =>
      rw [found] at leads chars
      obtain ⟨tail, whole⟩ := leads
      rw [List.cons_append] at whole
      exact trimChars_ne_nil (isSpace_of_trimChars whole.symm) chars

theorem textLength_trim_cut_le (units : Nat) (text : String) : textLength (trim (cut units text)) ≤ units :=
  (textLength_trim_le _).trans (textLength_cut units text)

/-- A trimmed text that is not longer than the limit is kept. -/
theorem cut_trim_of_le {units : Nat} {text : String} (short : textLength text ≤ units) :
    cut units (trim text) = trim text :=
  cut_of_textLength ((textLength_trim_le text).trans short)

theorem cut_trim_cut (units : Nat) (text : String) :
    cut units (trim (cut units text)) = trim (cut units text) :=
  cut_trim_of_le (textLength_cut units text)

end Trim

section Reread

variable {conv : Conversions}

@[simp] theorem isTruthy_str (text : String) : isTruthy (some (.str text)) = decide (text ≠ "") := rfl

theorem textOr_str (text fallback : String) :
    textOr conv (some (.str text)) fallback = if text = "" then fallback else text := by
  by_cases empty : text = ""
  · subst empty
    rfl
  · simp [textOr, isTruthy, empty, textOrEmpty, textOf]

theorem limited_of_blank {text : String} (blank : trim text = "") (fallback : String) :
    limited text fallback = fallback := by
  rw [limited, blank]
  exact if_pos rfl

theorem limited_of_fits {text : String} (some_ : trim text ≠ "") (short : textLength text ≤ 40)
    (fallback : String) : limited text fallback = trim text := by
  rw [limited, cut_trim_of_le short, if_neg some_]

theorem limited_fits {text : String} (some_ : trim text ≠ "") (fallback : String) :
    trim (limited text fallback) ≠ "" ∧ textLength (limited text fallback) ≤ 40 := by
  have left := cut_ne_empty (show 2 ≤ 40 by decide) some_
  rw [limited, if_neg left]
  exact ⟨trim_cut_ne_empty left, textLength_cut 40 _⟩

/-- The label of a setting is never blank, and not too long. -/
theorem labelOf_fits {key : String} (some_ : trim key ≠ "") (short : textLength key ≤ 40)
    (raw : Option Json) :
    trim (labelOf conv key raw) ≠ "" ∧ textLength (labelOf conv key raw) ≤ 40 := by
  by_cases blank : trim (textOr conv raw key) = ""
  · rw [labelOf, limited_of_blank blank]
    exact ⟨some_, short⟩
  · exact limited_fits blank key

theorem labelOf_again {key label : String} (some_ : trim label ≠ "") (short : textLength label ≤ 40) :
    labelOf conv key (some (.str label)) = trim label := by
  have written : label ≠ "" := by
    rintro rfl
    exact some_ rfl
  rw [labelOf, textOr_str, if_neg written, limited_of_fits some_ short]

theorem descriptionOf_again (raw : Option Json) :
    descriptionOf conv (some (.str (descriptionOf conv raw))) = trim (descriptionOf conv raw) := by
  have same (text : String) : (if text = "" then "" else text) = text := ite_eq_right_iff.mpr Eq.symm
  rw [descriptionOf, textOr_str, same, descriptionOf, cut_trim_cut]

theorem placeholderOf_of_falsy {raw : Option Json} (missing : isTruthy raw = false) :
    placeholderOf conv raw = none := by
  rw [placeholderOf, missing]
  rfl

theorem placeholderOf_of_truthy {raw : Option Json} (given : isTruthy raw = true) :
    placeholderOf conv raw = some (cut 80 (trim (textOr conv raw ""))) :=
  if_pos given

/-- A placeholder that is blank is left out when it is read back. -/
theorem placeholderOf_again (raw : Option Json) :
    trim ((placeholderOf conv ((placeholderOf conv raw).map .str)).getD "") =
      trim ((placeholderOf conv raw).getD "") := by
  cases given : isTruthy raw with
  | false =>
      rw [placeholderOf_of_falsy given, Option.map_none, placeholderOf_of_falsy rfl]
  | true =>
      rw [placeholderOf_of_truthy given, Option.map_some, Option.getD_some]
      by_cases empty : cut 80 (trim (textOr conv raw "")) = ""
      · have missing : isTruthy (some (.str "")) = false := by simp
        rw [empty, placeholderOf_of_falsy missing, Option.getD_none]
      · have written : isTruthy (some (.str (cut 80 (trim (textOr conv raw ""))))) = true := by
          simp [empty]
        rw [placeholderOf_of_truthy written, Option.getD_some, textOr_str, if_neg empty, cut_trim_cut,
          trim_trim]

/-- The label of an option is the same when it is read back, but for a long value in the place of a
blank label. -/
theorem optionLabel_again_iff {value : String} (plain : trim value = value) (some_ : value ≠ "")
    (raw : Option Json) :
    trim (optionLabel conv value (some (.str (optionLabel conv value raw)))) =
        trim (optionLabel conv value raw) ↔
      (trim (textOrElse conv raw value) = "" → textLength value ≤ 40) := by
  have stored (label : String) : optionLabel conv value (some (.str label)) = limited label value := rfl
  rw [stored]
  by_cases blank : trim (textOrElse conv raw value) = ""
  · have written : optionLabel conv value raw = value := limited_of_blank blank value
    simp only [written, blank, true_imp_iff]
    constructor
    · intro same
      rw [plain, limited, plain, if_neg (cut_ne_empty (by decide) some_)] at same
      rw [← same]
      exact textLength_trim_cut_le 40 value
    · intro short
      rw [limited_of_fits (by rwa [plain]) short, trim_trim]
  · obtain ⟨left, short⟩ := limited_fits blank value
    refine iff_of_true ?_ (fun nothing => absurd nothing blank)
    rw [optionLabel, limited_of_fits left short, trim_trim]

end Reread

/-! What is read back of a setting. -/

/-- A default that is read back is trimmed again. -/
def reread : Kind → Kind
  | .text default => .text (trim default)
  | .textarea default => .textarea (trim default)
  | .image default => .image (trim default)
  | kind => kind

/-- What `validateThemeSettings` makes sure of. -/
def Sound : Kind → Prop
  | .text default => textLength default ≤ 2000
  | .textarea default => textLength default ≤ 2000
  | .number _ min max => ∀ low ∈ min, ∀ high ∈ max, low ≤ high
  | .boolean _ => True
  | .select options default => options ≠ [] ∧ options.length ≤ 20 ∧
      (∀ value ∈ options, trim value = value ∧ value ≠ "" ∧ textLength value ≤ 60) ∧ default ∈ options
  | .color default => isColor default = true ∧ trim default = default ∧ lowerText default = default
  | .image default => textLength default ≤ 600 ∧ (trim default = "" ∨ isImageUrl (trim default) = true)

section Image

theorem rdropWhile_cons {c : Char} (plain : isSpace c = false) (rest : List Char) :
    (c :: rest).rdropWhile isSpace = c :: rest.rdropWhile isSpace := by
  simp only [List.rdropWhile, List.reverse_cons, List.dropWhile_append]
  split
  · rename_i nothing
    have none_ : rest.reverse.dropWhile isSpace = [] := List.isEmpty_iff.mp nothing
    simp [none_, plain]
  · simp

/-- Trimming leaves the start of a text alone as far as it has no white space. -/
theorem take_trimChars {chars : List Char} {count : Nat} (plain : ∀ c ∈ chars.take count, isSpace c = false) :
    (trimChars chars).take count = chars.take count := by
  have back : ∀ (count : Nat) (chars : List Char), (∀ c ∈ chars.take count, isSpace c = false) →
      (chars.rdropWhile isSpace).take count = chars.take count := by
    intro count
    induction count with
    | zero => exact fun _ _ => rfl
    | succ count ih =>
        intro chars plain
        cases chars with
        | nil => rfl
        | cons c rest =>
            rw [List.take_succ_cons, List.forall_mem_cons] at plain
            rw [rdropWhile_cons plain.1, List.take_succ_cons, List.take_succ_cons, ih rest plain.2]
  cases chars with
  | nil => rfl
  | cons c rest =>
      cases count with
      | zero => rfl
      | succ count =>
          have opens : isSpace c = false := plain c (by simp)
          have same : trimChars (c :: rest) = (c :: rest).rdropWhile isSpace := by
            simp [trimChars, opens, List.rdropWhile]
          rw [same]
          exact back _ _ plain

theorem toLower_of_space {c : Char} (space : isSpace c = true) : c.toLower = c := by
  apply toLower_of_range
  simp only [isSpace, List.contains_eq_mem, List.mem_cons, List.not_mem_nil, or_false, Bool.or_eq_true,
    decide_eq_true_eq, Bool.and_eq_true, ← UInt32.toNat_inj, UInt32.le_iff_toNat_le] at space
  rcases space with space | ⟨low, -⟩
  · rcases space with space | space | space | space | space | space | space | space | space | space | space |
      space | space | space
    all_goals
      rw [space]
      decide
  · intro upper
    exact absurd (low.trans upper.2) (by decide)

theorem plain_of_mem {c : Char} (member : c ∈ ['h', 't', 'p', 's', ':', '/', '.']) : isSpace c = false := by
  simp only [List.mem_cons, List.not_mem_nil, or_false] at member
  rcases member with rfl | rfl | rfl | rfl | rfl | rfl | rfl
  all_goals decide

theorem isImageUrl_trim {text : String} (url : isImageUrl text = true) : isImageUrl (trim text) = true := by
  have kept {count : Nat} {start : List Char} (starts : text.toList.take count = start)
      (plain : ∀ c ∈ start, isSpace c = false) : (trimChars text.toList).take count = start := by
    rw [take_trimChars (by rwa [starts]), starts]
  simp only [isImageUrl, Bool.or_eq_true, decide_eq_true_eq] at url
  simp only [isImageUrl, trim, String.toList_ofList, Bool.or_eq_true, decide_eq_true_eq]
  rcases url with ((secure | root) | here) | above
  · refine .inl (.inl (.inl ?_))
    rw [take_trimChars fun c member => ?_, secure]
    have lower : c.toLower ∈ "https://".toList := secure ▸ List.mem_map_of_mem member
    by_contra space
    rw [toLower_of_space (eq_true_of_ne_false space)] at lower
    exact space (plain_of_mem (by simp at lower ⊢; tauto))
  · exact .inl (.inl (.inr (kept root fun c member => plain_of_mem (by simp at member ⊢; tauto))))
  · exact .inl (.inr (kept here fun c member => plain_of_mem (by simp at member ⊢; tauto)))
  · exact .inr (kept above fun c member => plain_of_mem (by simp at member ⊢; tauto))

end Image

section Kinds

variable {conv : Conversions} {idx oi : Nat} {fields : RawFields} {kind : Kind}

/-- The values of the options, trimmed; each is the value of an object. -/
theorem validateOptions_eq_ok {raw : List RawOption} {options : List String} :
    validateOptions conv idx oi raw = .ok options ↔
      List.Forall₂ (fun item value => ∃ given, item = .object given ∧ value = trim (textOrElse conv given "") ∧
        value ≠ "" ∧ textLength value ≤ 60) raw options := by
  induction raw generalizing oi options with
  | nil =>
      rw [List.forall₂_nil_left_iff]
      exact ⟨fun same => (Except.ok.inj same).symm, fun same => same ▸ rfl⟩
  | cons item rest ih =>
      rw [List.forall₂_cons_left_iff]
      cases item with
      | invalid => exact ⟨nofun, fun ⟨_, _, ⟨_, same, _⟩, _⟩ => nomatch same⟩
      | object given =>
          constructor
          · intro accepted
            simp only [validateOptions] at accepted
            split at accepted
            · cases accepted
            · rename_i some_
              split at accepted
              · cases accepted
              · rename_i short
                obtain ⟨others, tail, made⟩ := Fallible.bind_eq_ok.mp accepted
                cases made
                exact ⟨_, others, ⟨given, rfl, rfl, some_, not_lt.mp short⟩, ih.mp tail, rfl⟩
          · rintro ⟨value, others, ⟨_, same, rfl, some_, short⟩, tail, rfl⟩
            cases same
            simp only [validateOptions, if_neg some_, if_neg (not_lt.mpr short), ih.mpr tail]
            rfl

theorem options_sound {raw : List RawOption} {options : List String}
    (valid : validateOptions conv idx oi raw = .ok options) :
    options.length = raw.length ∧ ∀ value ∈ options, trim value = value ∧ value ≠ "" ∧ textLength value ≤ 60 := by
  have same := validateOptions_eq_ok.mp valid
  refine ⟨same.length_eq.symm, ?_⟩
  clear valid
  induction same with
  | nil => nofun
  | cons head _ ih =>
      obtain ⟨given, -, rfl, written, short⟩ := head
      exact List.forall_mem_cons.mpr ⟨⟨trim_trim _, written, short⟩, ih⟩

theorem validateSelect_eq_ok : validateSelect conv idx fields = .ok kind ↔
    fields.options ≠ [] ∧ fields.options.length ≤ 20 ∧ ∃ options, validateOptions conv idx 0 fields.options = .ok options ∧
      trim (textOrElse conv fields.default (options.headD "")) ∈ options ∧
        kind = .select options (trim (textOrElse conv fields.default (options.headD ""))) := by
  constructor
  · intro accepted
    unfold validateSelect at accepted
    split at accepted
    · cases accepted
    · rename_i count
      obtain ⟨options, valid, accepted⟩ := Fallible.bind_eq_ok.mp accepted
      dsimp only at accepted
      split at accepted
      · cases accepted
      · rename_i inside
        cases accepted
        exact ⟨fun none_ => count (.inl none_), not_lt.mp fun many => count (.inr many), options, valid,
          not_not.mp inside, rfl⟩
  · rintro ⟨some_, few, options, valid, inside, rfl⟩
    have count : ¬ (fields.options = [] ∨ 20 < fields.options.length) := by
      rintro (none_ | many)
      · exact some_ none_
      · exact absurd few (not_le.mpr many)
    simp only [validateSelect, if_neg count]
    exact Fallible.bind_eq_ok.mpr ⟨options, valid, if_neg (not_not.mpr inside)⟩

theorem sound_of_validateSelect (accepted : validateSelect conv idx fields = .ok kind) :
    Sound kind ∧ typeName kind = "select" := by
  obtain ⟨some_, few, options, valid, inside, rfl⟩ := validateSelect_eq_ok.mp accepted
  obtain ⟨count, every⟩ := options_sound valid
  refine ⟨⟨?_, count ▸ few, every, inside⟩, rfl⟩
  rintro rfl
  exact some_ (List.length_eq_zero_iff.mp count.symm)

theorem sound_of_validateNumber (accepted : validateNumber conv idx fields = .ok kind) :
    Sound kind ∧ typeName kind = "number" := by
  unfold validateNumber at accepted
  dsimp only at accepted
  split at accepted
  · obtain ⟨min, -, accepted⟩ := Fallible.bind_eq_ok.mp accepted
    obtain ⟨max, -, accepted⟩ := Fallible.bind_eq_ok.mp accepted
    split at accepted
    · rename_i low high
      split at accepted
      · cases accepted
      · rename_i ordered
        cases accepted
        refine ⟨?_, rfl⟩
        rintro _ ⟨⟩ _ ⟨⟩
        exact not_lt.mp ordered
    · rename_i open_
      cases accepted
      refine ⟨?_, rfl⟩
      rintro low rfl high rfl
      exact absurd rfl (open_ low high rfl)
  · cases accepted

theorem sound_of_validateColor (accepted : validateColor conv idx fields = .ok kind) :
    Sound kind ∧ typeName kind = "color" := by
  unfold validateColor at accepted
  dsimp only at accepted
  split at accepted
  · cases accepted
  · rename_i color
    cases accepted
    exact ⟨isColor_lowerText (by simpa using color), rfl⟩

theorem sound_of_validateImage (accepted : validateImage conv idx fields = .ok kind) :
    kind = .image (cut 600 (trim (textOrElse conv fields.default ""))) ∧ Sound kind := by
  unfold validateImage at accepted
  dsimp only at accepted
  split at accepted
  · cases accepted
  · rename_i url
    cases accepted
    refine ⟨rfl, textLength_cut 600 _, ?_⟩
    simp only [ne_eq, decide_not, Bool.and_eq_true, Bool.not_eq_true', decide_eq_false_iff_not, not_and] at url
    by_cases empty : cut 600 (trim (textOrElse conv fields.default "")) = ""
    · rw [empty]
      exact .inl rfl
    · exact .inr (isImageUrl_trim (by simpa using url empty))

theorem sound_of_validateKind {type : String} (accepted : validateKind conv idx type fields = .ok kind) :
    Sound kind ∧ typeName kind = type := by
  unfold validateKind at accepted
  split at accepted
  · cases accepted
  · rename_i allowed
    split at accepted
    · rename_i same
      exact same ▸ sound_of_validateSelect accepted
    split at accepted
    · rename_i same
      cases accepted
      exact ⟨trivial, same.symm⟩
    split at accepted
    · rename_i same
      exact same ▸ sound_of_validateNumber accepted
    split at accepted
    · rename_i same
      exact same ▸ sound_of_validateColor accepted
    split at accepted
    · rename_i same
      obtain ⟨rfl, sound⟩ := sound_of_validateImage accepted
      exact ⟨sound, same.symm⟩
    split at accepted
    · rename_i same
      cases accepted
      exact ⟨textLength_cut 2000 _, same.symm⟩
    · cases accepted
      refine ⟨textLength_cut 2000 _, ?_⟩
      simp only [allowedSettingTypes, List.mem_cons, List.not_mem_nil, or_false] at allowed
      tauto

/-- A setting that was accepted is accepted again. -/
theorem validateKind_reread {key : String} (sound : Sound kind) :
    validateKind conv idx (typeName kind) (rawFields ⟨key, kind⟩) = .ok (reread kind) := by
  cases kind with
  | text default =>
      simp [validateKind, typeName, allowedSettingTypes, textDefault, rawFields, Kind.default, Value.json,
        textOrElse, textOf, reread, cut_trim_of_le sound]
  | textarea default =>
      simp [validateKind, typeName, allowedSettingTypes, textDefault, rawFields, Kind.default, Value.json,
        textOrElse, textOf, reread, cut_trim_of_le sound]
  | number default min max =>
      have bound (name : String) (value : Option ℚ) : validateBound conv idx name (value.map number) = .ok value := by
        cases value <;> rfl
      simp only [validateKind, typeName, allowedSettingTypes, validateNumber, rawFields, Kind.default, Value.json,
        numberOf, bound, reread]
      cases min with
      | none => rfl
      | some low =>
          cases max with
          | none => rfl
          | some high => exact if_neg (not_lt.mpr (sound low rfl high rfl))
  | boolean default =>
      simp [validateKind, typeName, allowedSettingTypes, rawFields, Kind.default, Value.json,
        parseBoolean, reread]
  | select options default =>
      obtain ⟨some_, few, every, inside⟩ := sound
      have valid : validateOptions conv idx 0 (options.map fun value => .object (some (.str value))) =
          .ok options := by
        rw [validateOptions_eq_ok, List.forall₂_map_left_iff, List.forall₂_same]
        intro value member
        obtain ⟨plain, written, short⟩ := every value member
        exact ⟨_, rfl, plain.symm, written, short⟩
      have plain : trim default = default := (every default inside).1
      refine validateSelect_eq_ok.mpr ⟨by simpa [rawFields] using some_, by simpa [rawFields] using few, options,
        valid, ?_, ?_⟩
      · simpa [rawFields, Kind.default, Value.json, textOrElse, textOf, plain] using inside
      · simp [rawFields, Kind.default, Value.json, textOrElse, textOf, plain, reread]
  | color default =>
      obtain ⟨color, plain, lower⟩ := sound
      simp [validateKind, typeName, allowedSettingTypes, rawFields, Kind.default, Value.json,
        textOrElse, textOf, validateColor, plain, color, lower, reread]
  | image default =>
      obtain ⟨short, url⟩ := sound
      simp only [validateKind, typeName, rawFields, Kind.default, Value.json, validateImage, textOrElse, textOf,
        cut_trim_of_le short]
      rcases url with empty | url
      · simp [allowedSettingTypes, empty, reread]
      · simp [allowedSettingTypes, url, reread]

end Kinds

end NieSla.Themes.Package
