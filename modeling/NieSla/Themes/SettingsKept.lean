import NieSla.Lib.Lookup
import NieSla.Themes.Settings

/-! When a stored configuration survives a new version of its theme: each stored value, or else the
default, fits the setting of its name, and nothing else is stored. -/
namespace NieSla.Themes

def InRange (min max : Option ℚ) (n : ℚ) : Prop := min.getD (-10 ^ 12) ≤ n ∧ n ≤ max.getD (10 ^ 12)

/-- The values that a setting can take. -/
def Valid : Kind → Value → Prop
  | .text _, .str v => textLength v ≤ 2000
  | .textarea _, .str v => textLength v ≤ 2000
  | .number _ min max, .num n => InRange min max n
  | .boolean _, .bool _ => True
  | .select options _, .str v => v ∈ options
  | .color _, .str v => isColor v = true
  | .image _, .str v => textLength v ≤ 600 ∧ (v = "" ∨ isImageUrl v = true)
  | _, _ => False

/-- Every value is one of a setting of the theme, and valid for it. -/
def Fitting (settings : List Setting) (values : List (String × Value)) : Prop :=
  ∀ entry ∈ values, ∃ setting ∈ settings, setting.key = entry.1 ∧ Valid setting.kind entry.2

/-- The page and the form get values that fit, and that are stored as they are when they are submitted. -/
def PageKept (conv : Conversions) (settings : List Setting) (stored : List (String × Value)) : Prop :=
  ∃ config values, publicThemeConfig conv settings stored = .ok config ∧
    getThemeConfig conv settings stored = .ok values ∧
    Fitting settings config ∧ Fitting settings values ∧
    updateThemeConfig conv settings (jsonOf config) = .ok config ∧
    updateThemeConfig conv settings (jsonOf values) = .ok values

/-- What is read for a setting: the stored value, or else the default. -/
def readValue (stored : List (String × Value)) (setting : Setting) : Value :=
  (stored.lookup setting.key).getD setting.kind.default

/-- A value, of whatever setting it was, that this setting takes. -/
def Fits (conv : Conversions) : Kind → Value → Prop
  | .boolean _, _ => True
  | .number default min max, raw =>
      (raw = .str "" ∧ InRange min max default) ∨
        (raw ≠ .str "" ∧ ∃ n, numberOf conv raw.json = .finite n ∧ InRange min max n)
  | .select options _, raw => trim (textOf conv raw.json) ∈ options
  | .color _, raw => isColor (trim (textOf conv raw.json)) = true
  | .image _, raw =>
      let v := cut 600 (trim (textOf conv raw.json))
      trim v = v ∧ (v = "" ∨ isImageUrl v = true)
  | .text _, raw => textLength (textOf conv raw.json) ≤ 2000
  | .textarea _, raw => textLength (textOf conv raw.json) ≤ 2000

/-- The value that a read makes of `raw` is valid and is kept when it is submitted. -/
def Settles (conv : Conversions) (setting : Setting) (raw : Value) : Prop :=
  ∃ value, coerceSettingValue conv setting (some raw.json) = .ok value ∧ Valid setting.kind value ∧
    coerceSettingValue conv setting (some value.json) = .ok value

section Texts

theorem hexDigit_lower {c : Char} (digit : isHexDigit c = true) :
    lowerChar c = [c.toLower] ∧ lowerChar c.toLower = [c.toLower] ∧ isHexDigit c.toLower = true ∧
      isSpace c.toLower = false := by
  simp only [isHexDigit, List.contains_eq_mem, List.mem_cons, List.not_mem_nil, or_false,
    decide_eq_true_eq] at digit
  rcases digit with rfl | rfl | rfl | rfl | rfl | rfl | rfl | rfl | rfl | rfl | rfl | rfl | rfl | rfl | rfl |
    rfl | rfl | rfl | rfl | rfl | rfl | rfl <;> decide

/-- A colour in lower case is the same colour, read as it is written. -/
theorem isColor_lowerText {v : String} (color : isColor v = true) :
    isColor (lowerText v) = true ∧ trim (lowerText v) = lowerText v ∧ lowerText (lowerText v) = lowerText v := by
  unfold isColor at color
  cases chars : v.toList with
  | nil => simp [chars] at color
  | cons first digits =>
      simp only [chars, Bool.and_eq_true, decide_eq_true_eq, List.all_eq_true] at color
      obtain ⟨⟨rfl, six⟩, every⟩ := color
      have lower : ∀ list : List Char, (∀ c ∈ list, lowerChar c = [c.toLower]) →
          list.flatMap lowerChar = list.map Char.toLower := by
        intro list all
        rw [← List.flatMap_singleton' (list.map Char.toLower), List.flatMap_map]
        exact List.flatMap_congr all
      have written : (lowerText v).toList = '#' :: digits.map Char.toLower := by
        rw [lowerText, String.toList_ofList, chars, List.flatMap_cons,
          lower digits fun c member => (hexDigit_lower (every c member)).1]
        rfl
      refine ⟨?_, trim_of_no_space fun c member => ?_, ?_⟩
      · unfold isColor
        rw [written]
        simp only [List.length_map, six, List.all_map, Bool.and_eq_true, decide_eq_true_eq, List.all_eq_true,
          true_and]
        exact fun c member => (hexDigit_lower (every c member)).2.2.1
      · rw [written] at member
        rcases List.mem_cons.mp member with rfl | member
        · decide
        · obtain ⟨d, among, rfl⟩ := List.mem_map.mp member
          exact (hexDigit_lower (every d among)).2.2.2
      · have again : (digits.map Char.toLower).flatMap lowerChar = digits.map Char.toLower := by
          rw [List.flatMap_map, ← List.flatMap_singleton' (digits.map Char.toLower), List.flatMap_map]
          exact List.flatMap_congr fun c member => (hexDigit_lower (every c member)).2.1
        rw [lowerText, written, List.flatMap_cons, again]
        exact String.toList_inj.mp (by rw [written, String.toList_ofList]; rfl)

end Texts

/-! One setting. -/

section Coerced

variable {conv : Conversions} {key : String} {raw : Value}

theorem textOrElse_json (fallback : String) : textOrElse conv (some raw.json) fallback = textOf conv raw.json := by
  cases raw <;> rfl

theorem ok_iff {first second : Value} : (Except.ok first : Except ApiError Value) = .ok second ↔ second = first := by
  rw [Except.ok.injEq, eq_comm]

theorem settles_boolean {default : Bool} : Settles conv ⟨key, .boolean default⟩ raw := by
  refine ⟨.bool (parseBoolean conv (some raw.json) default), rfl, trivial, rfl⟩

theorem coerceText_iff {default : String} {value : Value} :
    coerceText conv key default (some raw.json) = .ok value ↔
      textLength (textOf conv raw.json) ≤ 2000 ∧ value = .str (textOf conv raw.json) := by
  unfold coerceText
  rw [textOrElse_json]
  by_cases long : 2000 < textLength (textOf conv raw.json)
  · simp [long]
  · simp [long, Nat.le_of_not_lt long, eq_comm]

theorem settles_of_coerceText {kind : Kind} {default : String}
    (coerces : ∀ raw, coerceSettingValue conv ⟨key, kind⟩ raw = coerceText conv key default raw)
    (valid : ∀ v, Valid kind (.str v) ↔ textLength v ≤ 2000) :
    Settles conv ⟨key, kind⟩ raw ↔ textLength (textOf conv raw.json) ≤ 2000 := by
  unfold Settles
  simp only [coerces]
  constructor
  · rintro ⟨value, coerced, -, -⟩
    exact (coerceText_iff.mp coerced).1
  · intro short
    exact ⟨.str (textOf conv raw.json), coerceText_iff.mpr ⟨short, rfl⟩, (valid _).mpr short,
      coerceText_iff.mpr ⟨short, rfl⟩⟩

theorem coerce_select {options : List String} {default : String} {value : Value} :
    coerceSettingValue conv ⟨key, .select options default⟩ (some raw.json) = .ok value ↔
      trim (textOf conv raw.json) ∈ options ∧ value = .str (trim (textOf conv raw.json)) := by
  simp only [coerceSettingValue, textOrElse_json]
  by_cases among : trim (textOf conv raw.json) ∈ options <;> simp [among, eq_comm]

theorem settles_select {options : List String} {default : String} :
    Settles conv ⟨key, .select options default⟩ raw ↔ trim (textOf conv raw.json) ∈ options := by
  constructor
  · rintro ⟨value, coerced, -, -⟩
    exact (coerce_select.mp coerced).1
  · intro among
    refine ⟨.str (trim (textOf conv raw.json)), coerce_select.mpr ⟨among, rfl⟩, among, ?_⟩
    have again : trim (textOf conv (Value.str (trim (textOf conv raw.json))).json) =
        trim (textOf conv raw.json) := trim_trim _
    exact coerce_select.mpr ⟨by rwa [again], by rw [again]⟩

theorem coerce_color {default : String} {value : Value} :
    coerceSettingValue conv ⟨key, .color default⟩ (some raw.json) = .ok value ↔
      isColor (trim (textOf conv raw.json)) = true ∧ value = .str (lowerText (trim (textOf conv raw.json))) := by
  simp only [coerceSettingValue, textOrElse_json]
  cases color : isColor (trim (textOf conv raw.json)) with
  | false => simp
  | true => simp only [Bool.not_true, Bool.false_eq_true, if_false, true_and, ok_iff]

theorem settles_color {default : String} :
    Settles conv ⟨key, .color default⟩ raw ↔ isColor (trim (textOf conv raw.json)) = true := by
  constructor
  · rintro ⟨value, coerced, -, -⟩
    exact (coerce_color.mp coerced).1
  · intro color
    obtain ⟨valid, trimmed, lower⟩ := isColor_lowerText color
    have first : coerceSettingValue conv ⟨key, .color default⟩ (some raw.json) =
        .ok (.str (lowerText (trim (textOf conv raw.json)))) := coerce_color.mpr ⟨color, rfl⟩
    generalize lowerText (trim (textOf conv raw.json)) = written at *
    have again : trim (textOf conv (Value.str written).json) = written := trimmed
    refine ⟨.str written, first, valid, coerce_color.mpr ⟨?_, ?_⟩⟩
    · rwa [again]
    · rw [again, lower]

theorem coerce_image {default : String} {value : Value} :
    coerceSettingValue conv ⟨key, .image default⟩ (some raw.json) = .ok value ↔
      (cut 600 (trim (textOf conv raw.json)) = "" ∨ isImageUrl (cut 600 (trim (textOf conv raw.json))) = true) ∧
        value = .str (cut 600 (trim (textOf conv raw.json))) := by
  simp only [coerceSettingValue, textOrElse_json]
  generalize cut 600 (trim (textOf conv raw.json)) = shown
  by_cases empty : shown = ""
  · simp only [empty, if_true, true_or, true_and, ok_iff]
  · cases url : isImageUrl shown with
    | false => simp [empty]
    | true => simp only [empty, Bool.not_true, Bool.false_eq_true, if_false, or_true, true_and, ok_iff]

theorem textLength_trim_le (text : String) : textLength (trim text) ≤ textLength text := by
  have fewer (list : List Char) : (list.dropWhile isSpace).Sublist list := (List.dropWhile_suffix _).sublist
  have kept : (trimChars text.toList).Sublist text.toList := by
    have back := (fewer (text.toList.dropWhile isSpace).reverse).reverse
    rw [List.reverse_reverse] at back
    exact back.trans (fewer _)
  simpa [textLength, trim] using (kept.map codeUnits).sum_le_sum fun _ _ => Nat.zero_le _

theorem settles_image {default : String} :
    Settles conv ⟨key, .image default⟩ raw ↔ Fits conv (.image default) raw := by
  have short : textLength (cut 600 (trim (textOf conv raw.json))) ≤ 600 := textLength_cut 600 _
  have coerced (value : Value) : coerceSettingValue conv ⟨key, .image default⟩ (some raw.json) = .ok value ↔ _ :=
    coerce_image
  simp only [Settles, Fits, Valid]
  generalize cut 600 (trim (textOf conv raw.json)) = shown at *
  have again : cut 600 (trim (textOf conv (Value.str shown).json)) = trim shown :=
    cut_of_textLength ((textLength_trim_le shown).trans short)
  constructor
  · rintro ⟨value, first, -, kept⟩
    obtain ⟨url, rfl⟩ := (coerced value).mp first
    have same := (coerce_image.mp kept).2
    rw [again, Value.str.injEq] at same
    exact ⟨same.symm, url⟩
  · rintro ⟨trimmed, url⟩
    refine ⟨.str shown, (coerced _).mpr ⟨url, rfl⟩, ⟨short, url⟩, coerce_image.mpr ?_⟩
    rw [again, trimmed]
    exact ⟨url, rfl⟩

theorem checkNumber_iff {min max : Option ℚ} {number : JsNumber} {value : Value} :
    checkNumber key min max number = .ok value ↔
      ∃ n, number = .finite n ∧ InRange min max n ∧ value = .num n := by
  cases number with
  | finite n =>
      by_cases outside : n < min.getD (-10 ^ 12) ∨ max.getD (10 ^ 12) < n
      · have off : ¬ InRange min max n := fun inside =>
          outside.elim (not_lt.mpr inside.1) (not_lt.mpr inside.2)
        simp [checkNumber, outside, off]
      · have inside : InRange min max n := by
          rw [not_or, not_lt, not_lt] at outside
          exact outside
        simp only [checkNumber, outside, if_false, ok_iff, JsNumber.finite.injEq, exists_eq_left', inside,
          true_and]
  | nan => simp [checkNumber]
  | infinity => simp [checkNumber]
  | negInfinity => simp [checkNumber]

theorem coerceNumber_eq {default : ℚ} {min max : Option ℚ} (some_ : raw ≠ .str "") :
    coerceNumber conv key default min max (some raw.json) = checkNumber key min max (numberOf conv raw.json) := by
  cases raw with
  | bool value => rfl
  | num value => rfl
  | str value =>
      have nonempty : value ≠ "" := fun empty => some_ (by rw [empty])
      simp only [coerceNumber, Value.json]
      split <;> simp_all

/-- A number is kept as it is; an empty text stands for the default. -/
theorem settles_number {default : ℚ} {min max : Option ℚ} :
    Settles conv ⟨key, .number default min max⟩ raw ↔ Fits conv (.number default min max) raw := by
  have settled (n : ℚ) : coerceNumber conv key default min max (some (Value.num n).json) = .ok (.num n) ↔
      InRange min max n := by
    rw [coerceNumber_eq (by simp), checkNumber_iff]
    simp [Value.json, numberOf]
  by_cases empty : raw = .str ""
  · subst empty
    constructor
    · rintro ⟨value, coerced, valid, -⟩
      cases coerced
      exact Or.inl ⟨rfl, valid⟩
    · rintro (⟨-, inside⟩ | ⟨other, -⟩)
      · exact ⟨.num default, rfl, inside, (settled default).mpr inside⟩
      · exact absurd rfl other
  · have coerced (value : Value) :
        coerceSettingValue conv ⟨key, .number default min max⟩ (some raw.json) = .ok value ↔
          ∃ n, numberOf conv raw.json = .finite n ∧ InRange min max n ∧ value = .num n := by
      have checked : checkNumber key min max (numberOf conv raw.json) = .ok value ↔ _ := checkNumber_iff
      rw [← checked, ← coerceNumber_eq empty]
      rfl
    constructor
    · rintro ⟨value, first, -, -⟩
      obtain ⟨n, read, inside, -⟩ := (coerced value).mp first
      exact Or.inr ⟨empty, n, read, inside⟩
    · rintro (⟨same, -⟩ | ⟨-, n, read, inside⟩)
      · exact absurd same empty
      · exact ⟨.num n, (coerced _).mpr ⟨n, read, inside, rfl⟩, inside, (settled n).mpr inside⟩

theorem settles_iff (setting : Setting) : Settles conv setting raw ↔ Fits conv setting.kind raw := by
  obtain ⟨key, kind⟩ := setting
  cases kind with
  | text default => exact settles_of_coerceText (fun _ => rfl) fun _ => Iff.rfl
  | textarea default => exact settles_of_coerceText (fun _ => rfl) fun _ => Iff.rfl
  | number default min max => exact settles_number
  | boolean default => exact iff_of_true settles_boolean trivial
  | select options default => exact settles_select
  | color default => exact settles_color
  | image default => exact settles_image

end Coerced

/-! A whole configuration. -/

section Configuration

variable {conv : Conversions} {settings : List Setting}

theorem coerceAll_eq_ok {values : List (String × Json)} {out : List (String × Value)} :
    coerceAll conv values settings = .ok out ↔
      Lookup.Paired Setting.key (fun setting value =>
        coerceSettingValue conv setting (values.lookup setting.key) = .ok value) settings out := by
  unfold Lookup.Paired
  induction settings generalizing out with
  | nil =>
      simp only [coerceAll, Except.ok.injEq, List.forall₂_nil_left_iff]
      exact eq_comm
  | cons setting rest ih =>
      simp only [coerceAll, bind, Except.bind, pure, Except.pure, List.forall₂_cons_left_iff]
      cases coerced : coerceSettingValue conv setting (values.lookup setting.key) with
      | error error => simp
      | ok value =>
          cases others : coerceAll conv values rest with
          | error error =>
              simp only [reduceCtorEq, false_iff]
              rintro ⟨entry, tail, -, paired, -⟩
              rw [← ih, others] at paired
              cases paired
          | ok tail =>
              simp only [Except.ok.injEq]
              constructor
              · rintro rfl
                exact ⟨(setting.key, value), tail, ⟨rfl, rfl⟩, ih.mp others, rfl⟩
              · rintro ⟨⟨key, read⟩, tail', ⟨rfl, rfl⟩, paired, rfl⟩
                rw [← ih, others] at paired
                cases paired
                rfl

theorem validate_eq_ok (some_ : settings ≠ []) {values : List (String × Json)} {out : List (String × Value)} :
    validateThemeConfigValues conv settings values = .ok out ↔
      coerceAll conv values settings = .ok out ∧ ∀ entry ∈ values, entry.1 ∈ settings.map Setting.key := by
  rw [validateThemeConfigValues, if_neg some_]
  simp only [bind, Except.bind, pure, Except.pure]
  cases coerced : coerceAll conv values settings with
  | error error => simp
  | ok read =>
      cases unknown : values.find? fun entry => entry.1 ∉ settings.map Setting.key with
      | some entry =>
          have outside := of_decide_eq_true (List.find?_some unknown :)
          simp only [reduceCtorEq, false_iff]
          rintro ⟨-, every⟩
          exact outside (every entry (List.mem_of_find?_eq_some unknown))
      | none =>
          have every : ∀ entry ∈ values, entry.1 ∈ settings.map Setting.key := by
            simpa only [List.find?_eq_none, decide_eq_true_eq, not_not] using unknown
          simp only [Except.ok.injEq]
          exact (and_iff_left every).symm

theorem mem_defaults {setting : Setting} (member : setting ∈ settings) :
    (setting.key, setting.kind.default) ∈ themeSettingsDefaults settings :=
  List.mem_map.mpr ⟨setting, member, rfl⟩

theorem keys_defaults : (themeSettingsDefaults settings).map Prod.fst = settings.map Setting.key := by
  simp [themeSettingsDefaults, Function.comp_def]

theorem keys_jsonOf (values : List (String × Value)) : (jsonOf values).map Prod.fst = values.map Prod.fst := by
  simp [jsonOf, Function.comp_def]

theorem lookup_jsonOf (values : List (String × Value)) (key : String) :
    (jsonOf values).lookup key = (values.lookup key).map Value.json :=
  Lookup.lookup_map (fun _ => Value.json) values key

/-- What the merged values hold for a setting. -/
theorem lookup_merged (distinct : (settings.map Setting.key).Nodup) (stored : List (String × Value))
    {setting : Setting} (member : setting ∈ settings) :
    (spread (jsonOf (themeSettingsDefaults settings)) (jsonOf stored)).lookup setting.key =
      some (readValue stored setting).json := by
  have default : (jsonOf (themeSettingsDefaults settings)).lookup setting.key =
      some setting.kind.default.json := by
    rw [lookup_jsonOf, Lookup.lookup_of_mem (keys_defaults ▸ distinct) (mem_defaults member)]
    rfl
  rw [spread, List.lookup_append, Lookup.lookup_map (fun key value => ((jsonOf stored).lookup key).getD value),
    default, lookup_jsonOf, readValue]
  cases stored.lookup setting.key <;> rfl

/-- The merged values name no other keys exactly when the stored ones do not. -/
theorem known_merged (stored : List (String × Value)) :
    (∀ entry ∈ spread (jsonOf (themeSettingsDefaults settings)) (jsonOf stored),
      entry.1 ∈ settings.map Setting.key) ↔ ∀ key ∈ stored.map Prod.fst, key ∈ settings.map Setting.key := by
  have keys : (jsonOf (themeSettingsDefaults settings)).map Prod.fst = settings.map Setting.key := by
    rw [keys_jsonOf, keys_defaults]
  rw [← keys_jsonOf stored]
  constructor
  · intro every key member
    obtain ⟨entry, among, rfl⟩ := List.mem_map.mp member
    by_contra other
    refine other (every entry (List.mem_append_right _ (List.mem_filter.mpr ⟨among, ?_⟩)))
    rw [keys]
    exact decide_eq_true other
  · intro every entry member
    rcases List.mem_append.mp member with kept | added
    · obtain ⟨default, among, rfl⟩ := List.mem_map.mp kept
      rw [← keys]
      exact List.mem_map.mpr ⟨default, among, rfl⟩
    · exact every _ (List.mem_map_of_mem (List.mem_filter.mp added).1)

/-- The values that a read or a write makes of a configuration. -/
theorem merged_eq_ok (some_ : settings ≠ []) (distinct : (settings.map Setting.key).Nodup)
    {stored out : List (String × Value)} :
    validateThemeConfigValues conv settings
        (spread (jsonOf (themeSettingsDefaults settings)) (jsonOf stored)) = .ok out ↔
      Lookup.Paired Setting.key (fun setting value =>
        coerceSettingValue conv setting (some (readValue stored setting).json) = .ok value) settings out ∧
      ∀ key ∈ stored.map Prod.fst, key ∈ settings.map Setting.key := by
  rw [validate_eq_ok some_, coerceAll_eq_ok, known_merged]
  refine and_congr_left fun _ => ?_
  refine Lookup.forall₂_congr_of_mem fun setting member entry => ?_
  simp only [lookup_merged distinct stored member]

/-- A configuration that is read, fits, and is stored as it was read, settles setting by setting. -/
theorem settled_iff (some_ : settings ≠ []) (distinct : (settings.map Setting.key).Nodup)
    {stored : List (String × Value)} :
    (∃ values, getThemeConfig conv settings stored = .ok values ∧ Fitting settings values ∧
      updateThemeConfig conv settings (jsonOf values) = .ok values) ↔
      (∀ key ∈ stored.map Prod.fst, key ∈ settings.map Setting.key) ∧
        ∀ setting ∈ settings, Settles conv setting (readValue stored setting) := by
  have reads {values : List (String × Value)} (keys : values.map Prod.fst = settings.map Setting.key)
      {setting : Setting} {value : Value} (among : (setting.key, value) ∈ values) :
      readValue values setting = value := by
    rw [readValue, Lookup.lookup_of_mem (keys ▸ distinct) among]
    rfl
  constructor
  · rintro ⟨values, read, fitting, again⟩
    obtain ⟨paired, known⟩ := (merged_eq_ok some_ distinct).mp read
    obtain ⟨kept, -⟩ := (merged_eq_ok some_ distinct).mp again
    refine ⟨known, fun setting member => ?_⟩
    obtain ⟨value, among, coerced⟩ := paired.exists_mem member
    obtain ⟨value', among', coerced'⟩ := kept.exists_mem member
    obtain ⟨other, member', same, valid⟩ := fitting _ among
    rw [List.inj_on_of_nodup_map distinct member' member same] at valid
    rw [reads paired.keys among'] at coerced'
    have only := (reads paired.keys among').symm.trans (reads paired.keys among)
    subst only
    exact ⟨value', coerced, valid, coerced'⟩
  · rintro ⟨known, settles⟩
    have exists_ : ∃ values, Lookup.Paired Setting.key (fun setting value =>
        coerceSettingValue conv setting (some (readValue stored setting).json) = .ok value ∧
          Valid setting.kind value ∧ coerceSettingValue conv setting (some value.json) = .ok value)
        settings values := Lookup.exists_paired settles
    obtain ⟨values, paired⟩ := exists_
    have keys := paired.keys
    refine ⟨values, ?_, fun ⟨key, entry⟩ among => ?_, ?_⟩
    · exact (merged_eq_ok some_ distinct).mpr ⟨paired.imp fun _ _ _ _ all => all.1, known⟩
    · have named : key ∈ settings.map Setting.key := keys ▸ List.mem_map_of_mem among
      obtain ⟨setting, member, rfl⟩ := List.mem_map.mp named
      obtain ⟨value, among', -, valid, -⟩ := paired.exists_mem member
      have only : entry = value := (reads keys among).symm.trans (reads keys among')
      exact ⟨setting, member, rfl, only ▸ valid⟩
    · refine (merged_eq_ok some_ distinct).mpr ⟨paired.imp fun setting _ value among all => ?_, ?_⟩
      · rw [reads keys among]
        exact all.2.2
      · rw [keys]
        exact fun _ member => member

theorem pageKept_iff_exists {stored : List (String × Value)} :
    PageKept conv settings stored ↔
      ∃ values, getThemeConfig conv settings stored = .ok values ∧ Fitting settings values ∧
        updateThemeConfig conv settings (jsonOf values) = .ok values := by
  constructor
  · rintro ⟨config, values, -, read, -, fitting, -, again⟩
    exact ⟨values, read, fitting, again⟩
  · rintro ⟨values, read, fitting, again⟩
    have shown : publicThemeConfig conv settings stored = .ok values := by
      unfold getThemeConfig at read
      rw [publicThemeConfig, read]
    exact ⟨values, values, shown, read, fitting, fitting, again, again⟩

/-- While every default fits its own setting, the page is never without a configuration. -/
theorem publicThemeConfig_ok (distinct : (settings.map Setting.key).Nodup)
    (defaults : ∀ setting ∈ settings, Fits conv setting.kind setting.kind.default)
    (stored : List (String × Value)) : ∃ config, publicThemeConfig conv settings stored = .ok config := by
  by_cases none_ : settings = []
  · subst none_
    exact ⟨[], rfl⟩
  · have settles : ∀ setting ∈ settings, Settles conv setting (readValue [] setting) :=
      fun setting member => (settles_iff setting).mpr (defaults setting member)
    have known : ∀ key ∈ ([] : List (String × Value)).map Prod.fst, key ∈ settings.map Setting.key :=
      fun _ member => absurd member List.not_mem_nil
    obtain ⟨values, read, -⟩ := (settled_iff none_ distinct).mpr ⟨known, settles⟩
    have bare : spread (jsonOf (themeSettingsDefaults settings)) (jsonOf []) =
        jsonOf (themeSettingsDefaults settings) := by
      simp [spread, jsonOf]
    rw [getThemeConfig, bare] at read
    unfold publicThemeConfig
    split
    · exact ⟨_, rfl⟩
    · exact ⟨values, read⟩

end Configuration

/-! The settings of an accepted manifest. -/

section Accepted

variable {conv : Conversions}

theorem validateItem_key {idx : Nat} {seen : List String} {item : RawSetting} {setting : Setting}
    (accepted : validateItem conv idx seen item = .ok setting) : setting.key ∉ seen := by
  cases item with
  | invalid => cases accepted
  | object fields =>
      simp only [validateItem] at accepted
      generalize trim (textOrEmpty conv fields.key) = key at accepted
      split_ifs at accepted with format again
      cases kind : validateKind conv idx (lowered (textOrEmpty conv fields.type)) fields with
      | error error =>
          rw [kind] at accepted
          cases accepted
      | ok kind' =>
          rw [kind] at accepted
          cases accepted
          exact again

theorem validateItems_keys {idx : Nat} {seen : List String} {items : List RawSetting} {settings : List Setting}
    (accepted : validateItems conv idx seen items = .ok settings) :
    (settings.map Setting.key).Nodup ∧ ∀ key ∈ settings.map Setting.key, key ∉ seen := by
  induction items generalizing idx seen settings with
  | nil =>
      cases accepted
      exact ⟨List.nodup_nil, fun _ member => absurd member List.not_mem_nil⟩
  | cons item rest ih =>
      simp only [validateItems, bind, Except.bind, pure, Except.pure] at accepted
      cases first : validateItem conv idx seen item with
      | error error => simp [first] at accepted
      | ok setting =>
          simp only [first] at accepted
          cases others : validateItems conv (idx + 1) (setting.key :: seen) rest with
          | error error => simp [others] at accepted
          | ok tail =>
              simp only [others, Except.ok.injEq] at accepted
              subst accepted
              obtain ⟨distinct, fresh⟩ := ih others
              refine ⟨List.nodup_cons.mpr ⟨fun again => ?_, distinct⟩, fun key member => ?_⟩
              · exact fresh _ again List.mem_cons_self
              · rcases List.mem_cons.mp member with rfl | member
                · exact validateItem_key first
                · exact fun old => fresh key member (List.mem_cons_of_mem _ old)

theorem nodup_of_validateThemeSettings {raw : RawSettings} {settings : List Setting}
    (accepted : validateThemeSettings conv raw = .ok settings) : (settings.map Setting.key).Nodup := by
  cases raw with
  | missing =>
      cases accepted
      exact List.nodup_nil
  | invalid => cases accepted
  | array items =>
      simp only [validateThemeSettings] at accepted
      split_ifs at accepted
      exact (validateItems_keys accepted).1

end Accepted

/-- `Number` and `String` on whole numbers. -/
def wholeNumbers : Conversions where
  number text := if text = "" then .finite 0 else
    match text.toNat? with
    | some n => .finite n
    | none => .nan
  text
    | .finite value => toString value.num
    | _ => "NaN"

/-- A title and a switch. -/
def titleSettings : RawSettings := .array
  [.object { key := some (.str "hero_title"), type := some (.str "text"), default := some (.str "NIE-SLA") },
    .object { key := some (.str "show_banner"), type := some (.str "boolean"), default := some (.bool true) }]

/-- A number from 1 to 10. -/
def olderSize : RawSettings := .array [.object {
  key := some (.str "size"), type := some (.str "number"), default := some (.num (.finite 5)),
  min := some (.num (.finite 1)), max := some (.num (.finite 10)) }]

/-- The same number from 20 to 30, without a default. -/
def newerSize : RawSettings := .array [.object {
  key := some (.str "size"), type := some (.str "number"),
  min := some (.num (.finite 20)), max := some (.num (.finite 30)) }]

end NieSla.Themes
