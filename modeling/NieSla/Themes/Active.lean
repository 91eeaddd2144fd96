import NieSla.Lib.OrderedMap
import NieSla.Themes.Registry

/-! The active theme. It is marked in the registry or in the state of the built-in themes, and it is the
original page when neither marks one; the page and the listing agree on it. -/
namespace NieSla.Themes

def themes (store : Store) : List StoredTheme := (loadRegistry store).1

section Views

variable (store : Store)

@[simp] theorem themes_saveRegistry (registry : List StoredTheme) :
    themes (saveRegistry store registry) = registry := rfl

@[simp] theorem builtinState_saveRegistry (registry : List StoredTheme) :
    (saveRegistry store registry).builtinState = store.builtinState := rfl

@[simp] theorem themes_saveBuiltinState (enabled : BuiltinTheme → Bool) :
    themes (saveBuiltinState store enabled) = themes store := by
  unfold themes loadRegistry saveBuiltinState
  rcases store.registry with _ | registry
  · rcases store.legacyRegistry <;> rfl
  · rfl

theorem loadRegistry_fst : (loadRegistry store).1 = themes store := rfl

@[simp] theorem themes_loadRegistry : themes (loadRegistry store).2 = themes store := by
  unfold themes loadRegistry
  rcases found : store.registry with _ | registry
  · rcases legacy : store.legacyRegistry with _ | legacyThemes
    · simp [found, legacy]
    · by_cases empty : legacyThemes = []
      · simp [empty, found, legacy]
      · simp [empty, saveRegistry]
  · simp [found]

@[simp] theorem builtinState_loadRegistry : (loadRegistry store).2.builtinState = store.builtinState := by
  unfold loadRegistry
  split
  · rfl
  · rfl
  · split <;> rfl

end Views

def markedUploads (store : Store) : List StoredTheme := (themes store).filter (·.enabled)

def markedBuiltins (store : Store) : List BuiltinTheme :=
  builtinThemes.filter fun theme => store.builtinState theme.id

/-- A registry as the Worker accepts it, and no more than one mark in the whole store. -/
structure Sound (store : Store) : Prop where
  distinct : ((themes store).map StoredTheme.id).Nodup
  clean : ∀ theme ∈ themes store, trim theme.id = theme.id ∧ theme.id ≠ builtinClassicThemeId
  one : (markedUploads store).length + (markedBuiltins store).length ≤ 1

/-- What one mark, or none, means. -/
def activeTheme (store : Store) : Entry :=
  match (markedUploads store).head?, (markedBuiltins store).getLast? with
  | some theme, _ =>
      match builtinTheme theme.id with
      | some successor => builtinEntry successor true
      | none => theme.entry
  | none, some theme => builtinEntry theme true
  | none, none => builtinEntry ⟨builtinClassicThemeId, .default, version⟩ true

/-- The classic theme is served as no theme. -/
def shown (entry : Entry) : Option Entry :=
  if entry.id = builtinClassicThemeId then none else some entry

theorem activeTheme_congr {first second : Store} (uploads : markedUploads first = markedUploads second)
    (builtins : markedBuiltins first = markedBuiltins second) : activeTheme first = activeTheme second := by
  unfold activeTheme
  rw [uploads, builtins]

theorem not_isSpace_of_allowed {c : Char} (allowed : allowedChar c = true) : isSpace c = false := by
  have range := range_of_allowed allowed
  cases space : isSpace c with
  | false => rfl
  | true =>
      simp only [isSpace, List.contains_eq_mem, List.mem_cons, List.not_mem_nil, or_false, Bool.or_eq_true,
        decide_eq_true_eq, Bool.and_eq_true, UInt32.le_iff_toNat_le, ← UInt32.toNat_inj] at space
      simp only [UInt32.reduceToNat] at space
      omega

theorem trim_of_allowed {text : String} (all : ∀ c ∈ text.toList, allowedChar c = true) :
    trim text = text :=
  trim_of_no_space fun c member => not_isSpace_of_allowed (all c member)

theorem allowed_of_isThemeId {id : String} (valid : isThemeId id = true) :
    ∀ c ∈ id.toList, allowedChar c = true := by
  intro c member
  unfold isThemeId at valid
  cases opens : id.toList with
  | nil => simp [opens] at member
  | cons first rest =>
      rw [opens, List.mem_cons] at member
      simp only [opens, Bool.and_eq_true, List.all_eq_true, Bool.or_eq_true, decide_eq_true_eq] at valid
      rcases member with rfl | member
      · simp [allowedChar, valid.1.1.1]
      · rcases valid.2 c member with (lower | digit) | dash
        · simp [allowedChar, lower]
        · simp [allowedChar, digit]
        · simp [allowedChar, dash]

theorem cleanThemeId_eq_ok {value id : String} (clean : cleanThemeId value = .ok id) :
    id = lowered value ∧ isThemeId id = true ∧ id ∉ reservedThemeIds := by
  unfold cleanThemeId at clean
  generalize lowered value = given at clean ⊢
  cases valid : isThemeId given with
  | false => simp [valid] at clean
  | true =>
      by_cases reserved : given ∈ reservedThemeIds
      · simp [valid, reserved] at clean
      · simp only [valid, reserved, Bool.not_true, Bool.false_eq_true, if_false, Except.ok.injEq] at clean
        subst clean
        exact ⟨rfl, valid, reserved⟩

/-- An id that is accepted is in lower case, without space around it, and not reserved. -/
theorem cleanThemeId_ok {value id : String} (clean : cleanThemeId value = .ok id) :
    id = lowered value ∧ trim id = id ∧ id ≠ builtinClassicThemeId := by
  obtain ⟨lower, valid, reserved⟩ := cleanThemeId_eq_ok clean
  refine ⟨lower, trim_of_allowed (allowed_of_isThemeId valid), fun classic => reserved ?_⟩
  simp [classic, reservedThemeIds, builtinClassicThemeId]

theorem mem_builtinThemes {id : String} {theme : BuiltinTheme} (found : builtinTheme id = some theme) :
    theme ∈ builtinThemes ∧ theme.id = trim id :=
  ⟨List.mem_of_find?_eq_some found, of_decide_eq_true (List.find?_some found :)⟩

theorem markedBuiltins_saveBuiltinState (store : Store) (enabled : BuiltinTheme → Bool) :
    markedBuiltins (saveBuiltinState store enabled) = builtinThemes.filter enabled := by
  refine List.filter_congr fun theme member => ?_
  have found : (builtinThemes.find? fun other => decide (other.id = theme.id)) = some theme := by
    revert theme
    decide
  simp only [saveBuiltinState, found]

theorem id_ne_classic_iff {theme : BuiltinTheme} (member : theme ∈ builtinThemes) :
    theme.id = builtinClassicThemeId ↔ theme.mode = .default := by
  revert theme
  decide

section Served

variable {store : Store}

theorem any_enabled : (themes store).any (·.enabled) = !(markedUploads store).isEmpty := by
  rw [markedUploads, Bool.eq_iff_iff]
  simp

theorem find?_enabled (q : StoredTheme → Bool) :
    ((themes store).find? fun theme => theme.enabled && q theme) = (markedUploads store).find? q := by
  simp [markedUploads, List.find?_filter]

theorem builtinEntries_of_marked {theme : StoredTheme} (marked : markedUploads store = [theme]) :
    builtinEntries store = builtinThemes.map (builtinEntry · false) := by
  have uploaded : (loadRegistry store).1.any (·.enabled) = true := by
    rw [loadRegistry_fst, any_enabled, marked]
    rfl
  simp only [builtinEntries, uploaded, Bool.not_true, Bool.false_and]

theorem filter_builtinEntries (unmarked : markedUploads store = []) :
    (builtinEntries store).filter (·.enabled) = [activeTheme store] := by
  have uploaded : (loadRegistry store).1.any (·.enabled) = false := by
    rw [loadRegistry_fst, any_enabled, unmarked]
    rfl
  have active : activeTheme store = match (markedBuiltins store).getLast? with
      | some theme => builtinEntry theme true
      | none => builtinEntry ⟨builtinClassicThemeId, .default, version⟩ true := by
    unfold activeTheme
    rw [unmarked]
    rcases (markedBuiltins store).getLast? <;> rfl
  rw [active]
  unfold builtinEntries
  rw [uploaded]
  unfold markedBuiltins
  cases classic : store.builtinState builtinClassicThemeId <;>
    cases canvas : store.builtinState builtinCanvasThemeId <;>
      simp [builtinThemes, classic, canvas, builtinEntry] <;> decide

/-- The page serves the active theme. -/
theorem getPublicTheme_eq (sound : Sound store) : getPublicTheme store = shown (activeTheme store) := by
  have one := sound.one
  unfold getPublicTheme
  simp only [loadRegistry_fst, find?_enabled]
  cases marked : markedUploads store with
  | nil =>
      have first := List.head?_filter (p := fun entry : Entry => entry.enabled) (l := builtinEntries store)
      rw [filter_builtinEntries marked] at first
      have active : activeTheme store ∈ builtinEntries store :=
        List.mem_of_find?_eq_some first.symm
      obtain ⟨theme, member, same⟩ := List.mem_map.mp active
      simp only [List.find?_nil, Option.bind_none, ← first, List.head?_cons, shown]
      rw [← same]
      exact if_congr (id_ne_classic_iff member).symm rfl rfl
  | cons theme rest =>
      have alone : rest = [] := by
        rw [marked, List.length_cons] at one
        exact List.length_eq_zero_iff.mp (by omega)
      subst alone
      have member : theme ∈ themes store := List.mem_of_mem_filter (marked ▸ List.mem_singleton_self theme)
      obtain ⟨trimmed, notClassic⟩ := sound.clean theme member
      cases found : builtinTheme theme.id with
      | none => simp [activeTheme, marked, found, shown, StoredTheme.entry, notClassic]
      | some successor =>
          have same : successor.id = theme.id := (mem_builtinThemes found).2.trans trimmed
          simp [activeTheme, marked, found, shown, builtinEntry, same, notClassic]

end Served

section Retirement

variable {store : Store} {items : List StoredTheme}

theorem migrateSelection_disabled (disabled : items.filter (·.enabled) = []) :
    migrateSelection store items = store := by
  induction items with
  | nil => rfl
  | cons item rest ih =>
      have off : item.enabled = false := by
        simpa using List.filter_eq_nil_iff.mp disabled item List.mem_cons_self
      rw [List.filter_cons_of_neg (by simp [off])] at disabled
      simp only [migrateSelection, off]
      exact ih disabled

theorem migrateSelection_marked {theme : StoredTheme} {successor : BuiltinTheme}
    (marked : items.filter (·.enabled) = [theme]) (found : builtinTheme theme.id = some successor) :
    migrateSelection store items = saveBuiltinState store fun theme => theme.id = successor.id := by
  induction items with
  | nil => simp at marked
  | cons item rest ih =>
      cases on : item.enabled with
      | false =>
          rw [List.filter_cons_of_neg (by simp [on])] at marked
          simp only [migrateSelection, on]
          exact ih marked
      | true =>
          rw [List.filter_cons_of_pos on, List.cons.injEq] at marked
          obtain ⟨rfl, others⟩ := marked
          simp only [migrateSelection, on, found]
          exact migrateSelection_disabled others

/-- What retiring keeps: the active theme, in a registry without superseded records. -/
structure Retires (store : Store) (result : List StoredTheme × Store) : Prop where
  registry : result.1 = themes result.2
  uploaded : ∀ theme ∈ result.1, builtinTheme theme.id = none
  sound : Sound result.2
  active : activeTheme result.2 = activeTheme store

theorem filter_id {theme : BuiltinTheme} (member : theme ∈ builtinThemes) :
    (builtinThemes.filter fun other => other.id = theme.id) = [theme] := by
  revert theme
  decide

theorem sound_loadRegistry (sound : Sound store) : Sound (loadRegistry store).2 where
  distinct := by simpa using sound.distinct
  clean := by simpa using sound.clean
  one := by simpa [markedUploads, markedBuiltins] using sound.one

theorem activeTheme_loadRegistry : activeTheme (loadRegistry store).2 = activeTheme store := by
  simp [activeTheme, markedUploads, markedBuiltins]

theorem eq_nil_or_singleton {α : Type*} {list : List α} (short : list.length ≤ 1) :
    list = [] ∨ ∃ only, list = [only] := by
  match list, short with
  | [], _ => exact Or.inl rfl
  | [only], _ => exact Or.inr ⟨only, rfl⟩

/-- The marks after retirement: the mark of a superseded record has moved to its successor. -/
theorem marks_of_retired (sound : Sound store) {result : Store}
    (retired : result = saveRegistry
      (migrateSelection (loadRegistry store).2 ((themes store).filter fun item => (builtinTheme item.id).isSome))
      ((themes store).filter fun item => (builtinTheme item.id).isNone)) :
    (markedUploads result).length + (markedBuiltins result).length ≤ 1 ∧
      activeTheme result = activeTheme store := by
  have one := sound.one
  have uploads : markedUploads result =
      (markedUploads store).filter fun item => (builtinTheme item.id).isNone := by
    simp only [retired, markedUploads, themes_saveRegistry, List.filter_filter, Bool.and_comm]
  have selection : ((themes store).filter fun item => (builtinTheme item.id).isSome).filter (·.enabled) =
      (markedUploads store).filter fun item => (builtinTheme item.id).isSome := by
    simp only [markedUploads, List.filter_filter, Bool.and_comm]
  have kept (disabled : (markedUploads store).filter (fun item => (builtinTheme item.id).isSome) = []) :
      markedBuiltins result = markedBuiltins store := by
    rw [retired, migrateSelection_disabled (selection.trans disabled)]
    simp [markedBuiltins]
  rcases eq_nil_or_singleton (Nat.le_of_add_right_le one) with none_ | ⟨theme, marked⟩
  · have same : markedUploads result = markedUploads store := by rw [uploads, none_, List.filter_nil]
    have builtins := kept (by rw [none_, List.filter_nil])
    exact ⟨by rwa [same, builtins], activeTheme_congr same builtins⟩
  · cases found : builtinTheme theme.id with
    | none =>
        have same : markedUploads result = markedUploads store := by simp [uploads, marked, found]
        have builtins := kept (by simp [marked, found])
        exact ⟨by rwa [same, builtins], activeTheme_congr same builtins⟩
    | some successor =>
        have moved : markedUploads result = [] := by simp [uploads, marked, found]
        have builtins : markedBuiltins result = [successor] := by
          have enabled := selection.trans (by rw [marked, List.filter_cons_of_pos (by simp [found]), List.filter_nil])
          rw [retired, migrateSelection_marked enabled found]
          exact (markedBuiltins_saveBuiltinState _ _).trans (filter_id (mem_builtinThemes found).1)
        refine ⟨by rw [moved, builtins]; simp, ?_⟩
        simp [activeTheme, moved, builtins, marked, found]

theorem retires (sound : Sound store) : Retires store (retireSupersededBuiltinUploads store) := by
  unfold retireSupersededBuiltinUploads
  by_cases untouched : (loadRegistry store).1.filter (fun item => (builtinTheme item.id).isSome) = []
  · simp only [if_pos untouched]
    refine ⟨(themes_loadRegistry store).symm, fun theme member => ?_, sound_loadRegistry sound,
      activeTheme_loadRegistry⟩
    simpa using List.filter_eq_nil_iff.mp untouched theme member
  · simp only [if_neg untouched]
    obtain ⟨one, active⟩ := marks_of_retired sound rfl
    refine ⟨rfl, fun theme member => ?_, ⟨?_, fun theme member => ?_, one⟩, active⟩
    · simpa using (List.mem_filter.mp member).2
    · exact sound.distinct.sublist (List.filter_sublist.map _)
    · exact sound.clean theme (List.mem_of_mem_filter member)

/-- The listing marks the active theme and no other. -/
theorem filter_listManagedThemes (sound : Sound store) :
    (listManagedThemes store).1.filter (·.enabled) = [activeTheme store] := by
  obtain ⟨registry, uploaded, retained, active⟩ := retires sound
  simp only [listManagedThemes, List.filter_append, registry, List.filter_map]
  rw [← active]
  set result := (retireSupersededBuiltinUploads store).2
  have marks : (themes result).filter ((·.enabled) ∘ StoredTheme.entry) = markedUploads result := rfl
  rw [marks]
  have one := retained.one
  rcases eq_nil_or_singleton (Nat.le_of_add_right_le one) with none_ | ⟨theme, marked⟩
  · rw [none_, filter_builtinEntries none_]
    rfl
  · have member : theme ∈ themes result := List.mem_of_mem_filter (marked ▸ List.mem_singleton_self theme)
    rw [registry] at uploaded
    rw [builtinEntries_of_marked marked, marked]
    simp [activeTheme, marked, uploaded theme member, List.filter_map, Function.comp_def, builtinEntry]

end Retirement

end NieSla.Themes
