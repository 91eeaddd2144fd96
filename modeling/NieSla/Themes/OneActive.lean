import NieSla.Themes.Active

/-! One theme is active after any sequence of calls. Enabling a theme makes it the active one; disabling
one that is not active changes nothing, unless a built-in theme is disabled while another one is active. -/
namespace NieSla.Themes

inductive Operation where
  | upload (manifest : Manifest) (revision : String)
  | update (id : String) (requested : Option Bool)
  | delete (id : String)
  | list

def step (localeCompare : String → String → Bool) (store : Store) : Operation → Store
  | .upload manifest revision => (uploadTheme localeCompare store manifest revision).2
  | .update id requested => (updateTheme store id requested).2
  | .delete id => (deleteTheme store id).2
  | .list => (listManagedThemes store).2

/-- The listing marks the theme. -/
def IsActive (store : Store) (id : String) : Prop :=
  ∃ entry ∈ (listManagedThemes store).1, entry.enabled = true ∧ entry.id = id

/-- At most one theme is marked, the listing marks one, and the page serves that one, before the
listing as after it. -/
structure Consistent (store : Store) : Prop where
  atMostOne : (markedUploads store).length + (markedBuiltins store).length ≤ 1
  reported : ∃ entry, (listManagedThemes store).1.filter (·.enabled) = [entry] ∧
    getPublicTheme store = shown entry ∧ getPublicTheme (listManagedThemes store).2 = shown entry

/-- An update that enables a theme makes it the active one; one that disables a theme that is not
active, and one that fails, leave the active theme as it is. -/
def Right (store : Store) : Operation → Prop
  | .update id requested =>
      let next := (updateTheme store id requested).2
      (∀ entry, (updateTheme store id requested).1 = .ok entry → entry.enabled = true →
        (listManagedThemes next).1.filter (·.enabled) = [entry] ∧ getPublicTheme next = shown entry) ∧
      (∀ entry, (updateTheme store id requested).1 = .ok entry → entry.enabled = false →
        ¬ IsActive store entry.id → getPublicTheme next = getPublicTheme store) ∧
      ∀ error, (updateTheme store id requested).1 = .error error →
        getPublicTheme next = getPublicTheme store
  | _ => True

/-- A built-in theme is disabled while the state of the built-in themes marks another one that is not
the classic theme. -/
def Trips (store : Store) : Operation → Prop
  | .update id requested =>
      match builtinTheme (lowered id) with
      | some builtin => requested.getD false = false ∧
          ∃ other ∈ markedBuiltins store, other.id ≠ builtin.id ∧ other.id ≠ builtinClassicThemeId
      | none => False
  | _ => False

instance (store : Store) : (operation : Operation) → Decidable (Trips store operation)
  | .update id requested =>
      match found : builtinTheme (lowered id) with
      | some builtin => decidable_of_iff (requested.getD false = false ∧
          ∃ other ∈ markedBuiltins store, other.id ≠ builtin.id ∧ other.id ≠ builtinClassicThemeId)
          (by simp only [Trips, found])
      | none => .isFalse (by simp only [Trips, found, not_false_eq_true])
  | .upload .. => inferInstanceAs (Decidable False)
  | .delete _ => inferInstanceAs (Decidable False)
  | .list => inferInstanceAs (Decidable False)

section Calls

variable {store : Store}

theorem isActive_iff (sound : Sound store) (id : String) :
    IsActive store id ↔ (activeTheme store).id = id := by
  have marked := filter_listManagedThemes sound
  constructor
  · rintro ⟨entry, listed, enabled, rfl⟩
    have only : entry ∈ [activeTheme store] := marked ▸ List.mem_filter.mpr ⟨listed, enabled⟩
    rw [List.mem_singleton.mp only]
  · rintro rfl
    have only : activeTheme store ∈ (listManagedThemes store).1.filter (·.enabled) := by
      rw [marked]
      exact List.mem_singleton_self _
    obtain ⟨listed, enabled⟩ := List.mem_filter.mp only
    exact ⟨activeTheme store, listed, enabled, rfl⟩

/-- Soundness asks for the ids of the registry and for the marks. -/
theorem Sound.of_ids {next : Store} (sound : Sound store)
    (ids : (themes next).map StoredTheme.id = (themes store).map StoredTheme.id)
    (one : (markedUploads next).length + (markedBuiltins next).length ≤ 1) : Sound next where
  distinct := ids ▸ sound.distinct
  clean := by
    have every : ∀ id ∈ (themes store).map StoredTheme.id, trim id = id ∧ id ≠ builtinClassicThemeId :=
      List.forall_mem_map.mpr sound.clean
    rw [← ids] at every
    exact List.forall_mem_map.mp every
  one := one

theorem consistent (sound : Sound store) : Consistent store := by
  obtain ⟨-, -, retained, active⟩ := retires sound
  refine ⟨sound.one, activeTheme store, filter_listManagedThemes sound, getPublicTheme_eq sound, ?_⟩
  rw [← active]
  exact getPublicTheme_eq retained

theorem disableUploads_spec (store : Store) :
    (themes (disableUploads store)).map StoredTheme.id = (themes store).map StoredTheme.id ∧
      markedUploads (disableUploads store) = [] ∧
      markedBuiltins (disableUploads store) = markedBuiltins store := by
  unfold disableUploads
  by_cases some_ : (loadRegistry store).1.any (·.enabled) = true
  · simp only [if_pos some_, themes_saveRegistry, List.map_map]
    refine ⟨rfl, by simp [markedUploads], ?_⟩
    simp [markedBuiltins]
  · simp only [if_neg some_]
    refine ⟨by simp, ?_, by simp [markedBuiltins]⟩
    simpa [markedUploads, loadRegistry_fst] using some_

/-- The update of a built-in theme. -/
theorem updateTheme_builtin (store : Store) {id : String} {requested : Option Bool} {builtin : BuiltinTheme}
    (found : builtinTheme (lowered id) = some builtin) (enabled : Bool)
    (wanted : requested.getD false = enabled) :
    (updateTheme store id requested).1 = .ok (builtinEntry builtin enabled) ∧
      (themes (updateTheme store id requested).2).map StoredTheme.id = (themes store).map StoredTheme.id ∧
      markedUploads (updateTheme store id requested).2 = (if enabled then [] else markedUploads store) ∧
      markedBuiltins (updateTheme store id requested).2 = if enabled then [builtin] else [] := by
  have marks := filter_id (mem_builtinThemes found).1
  cases enabled with
  | false =>
      simp only [updateTheme, found, wanted, ite_self, Bool.false_eq_true, if_false, themes_saveBuiltinState,
        markedBuiltins_saveBuiltinState, true_and]
      exact ⟨by simp [markedUploads], by simp⟩
  | true =>
      simp only [updateTheme, found, wanted, if_true]
      obtain ⟨ids, uploads, builtins⟩ := disableUploads_spec
        (saveBuiltinState store fun theme => if theme.id = builtin.id then true else false)
      rw [ids, uploads, builtins, markedBuiltins_saveBuiltinState, ← marks, themes_saveBuiltinState]
      refine ⟨trivial, rfl, rfl, List.filter_congr fun theme _ => ?_⟩
      simp

/-- The update of an uploaded theme that the registry holds. -/
theorem updateTheme_uploaded {id cleanId : String} {requested : Option Bool} {current : StoredTheme}
    (uploaded : builtinTheme (lowered id) = none) (clean : cleanThemeId id = .ok cleanId)
    (found : (themes store).find? (fun item => item.id = cleanId) = some current) (enabled : Bool)
    (wanted : requested.getD current.enabled = enabled) :
    (updateTheme store id requested).1 = .ok ({ current with enabled } : StoredTheme).entry ∧
      themes (updateTheme store id requested).2 = (themes store).map (fun item =>
        { item with enabled := if item.id = cleanId then enabled else if enabled then false else item.enabled }) ∧
      markedBuiltins (updateTheme store id requested).2 = if enabled then [] else markedBuiltins store := by
  rw [← loadRegistry_fst] at found
  simp only [updateTheme, uploaded, clean, found, wanted]
  refine ⟨trivial, ?_, ?_⟩
  · split_ifs <;> simp [loadRegistry_fst]
  · split_ifs
    · rw [markedBuiltins_saveBuiltinState]
      simp
    · simp [markedBuiltins]

theorem marked_map_true (sound : Sound store) {cleanId : String} {current : StoredTheme}
    (found : (themes store).find? (fun item => item.id = cleanId) = some current) :
    ((themes store).map fun item => { item with enabled :=
      if item.id = cleanId then true else if true then false else item.enabled }).filter (·.enabled) =
        [{ current with enabled := true }] := by
  have member := List.mem_of_find?_eq_some found
  have same : current.id = cleanId := of_decide_eq_true (List.find?_some found :)
  have last := (OrderedMap.lastBy_eq_some_of_nodup sound.distinct).mpr ⟨member, same⟩
  have only := OrderedMap.filter_key_of_nodup (k := cleanId) sound.distinct
  rw [last] at only
  rw [List.filter_map]
  have enabled : ((fun item : StoredTheme => item.enabled) ∘ fun item : StoredTheme => { item with enabled :=
      if item.id = cleanId then true else if true then false else item.enabled }) =
        fun item => decide (item.id = cleanId) := by
    funext item
    simp
  rw [enabled, only]
  simp [same]

theorem marked_map_false (cleanId : String) :
    ((themes store).map fun item => { item with enabled :=
      if item.id = cleanId then false else if false then false else item.enabled }).filter (·.enabled) =
        (markedUploads store).filter fun item => item.id != cleanId := by
  rw [List.filter_map, markedUploads, List.filter_filter]
  have enabled : ((fun item : StoredTheme => item.enabled) ∘ fun item : StoredTheme => { item with enabled :=
      if item.id = cleanId then false else if false then false else item.enabled }) =
        fun item => item.id != cleanId && item.enabled := by
    funext item
    by_cases same : item.id = cleanId <;> simp [same]
  rw [enabled]
  refine (List.map_congr_left fun item member => ?_).trans (List.map_id _)
  have kept := (List.mem_filter.mp member).2
  rw [Bool.and_eq_true, bne_iff_ne] at kept
  have other := kept.1
  simp [other]

theorem activeTheme_of_upload {theme : StoredTheme} (marked : markedUploads store = [theme])
    (uploaded : builtinTheme theme.id = none) : activeTheme store = theme.entry := by
  simp [activeTheme, marked, uploaded]

theorem activeTheme_of_builtin {theme : BuiltinTheme} (unmarked : markedUploads store = [])
    (marked : markedBuiltins store = [theme]) : activeTheme store = builtinEntry theme true := by
  simp [activeTheme, unmarked, marked]

theorem shown_unmarked (unmarked : markedUploads store = []) (none_ : markedBuiltins store = []) :
    shown (activeTheme store) = none := by
  simp [activeTheme, unmarked, none_, shown, builtinEntry]

/-- The update that enables a theme. -/
structure Enables (entry : Entry) (next : Store) : Prop where
  sound : Sound next
  active : activeTheme next = entry

theorem update_builtin_true (sound : Sound store) {id : String} {requested : Option Bool}
    {builtin : BuiltinTheme} (found : builtinTheme (lowered id) = some builtin)
    (wanted : requested.getD false = true) :
    Enables (builtinEntry builtin true) (updateTheme store id requested).2 := by
  obtain ⟨-, ids, uploads, builtins⟩ := updateTheme_builtin store found true wanted
  exact ⟨sound.of_ids ids (by simp [uploads, builtins]), activeTheme_of_builtin uploads builtins⟩

theorem update_uploaded_true (sound : Sound store) {id cleanId : String} {requested : Option Bool}
    {current : StoredTheme} (uploaded : builtinTheme (lowered id) = none)
    (clean : cleanThemeId id = .ok cleanId)
    (found : (themes store).find? (fun item => item.id = cleanId) = some current)
    (wanted : requested.getD current.enabled = true) :
    Enables ({ current with enabled := true } : StoredTheme).entry (updateTheme store id requested).2 := by
  obtain ⟨-, all, builtins⟩ := updateTheme_uploaded uploaded clean found true wanted
  have marked : markedUploads (updateTheme store id requested).2 = [{ current with enabled := true }] := by
    rw [markedUploads, all]
    exact marked_map_true sound found
  have plain : builtinTheme current.id = none := by
    have same : current.id = cleanId := of_decide_eq_true (List.find?_some found :)
    rw [same, (cleanThemeId_ok clean).1, uploaded]
  exact ⟨sound.of_ids (by simp [all, Function.comp_def]) (by simp [marked, builtins]),
    activeTheme_of_upload marked plain⟩

theorem update_uploaded_false (sound : Sound store) {id cleanId : String} {requested : Option Bool}
    {current : StoredTheme} (uploaded : builtinTheme (lowered id) = none)
    (clean : cleanThemeId id = .ok cleanId)
    (found : (themes store).find? (fun item => item.id = cleanId) = some current)
    (wanted : requested.getD current.enabled = false) :
    Sound (updateTheme store id requested).2 ∧ ((activeTheme store).id ≠ current.id →
      activeTheme (updateTheme store id requested).2 = activeTheme store) := by
  obtain ⟨-, all, builtins⟩ := updateTheme_uploaded uploaded clean found false wanted
  have same : current.id = cleanId := of_decide_eq_true (List.find?_some found :)
  have marked : markedUploads (updateTheme store id requested).2 =
      (markedUploads store).filter fun item => item.id != cleanId := by
    rw [markedUploads, all]
    exact marked_map_false cleanId
  have short : (markedUploads (updateTheme store id requested).2).length ≤ (markedUploads store).length := by
    rw [marked]
    exact List.length_filter_le _ _
  have one := sound.one
  refine ⟨sound.of_ids (by simp [all, Function.comp_def]) ?_, fun other => ?_⟩
  · simp only [builtins, Bool.false_eq_true, if_false]
    omega
  · refine activeTheme_congr ?_ (by simp [builtins])
    rw [marked, List.filter_eq_self]
    intro item member
    rcases eq_nil_or_singleton (Nat.le_of_add_right_le one) with none_ | ⟨theme, only⟩
    · simp [none_] at member
    · rw [only, List.mem_singleton] at member
      subst member
      rw [bne_iff_ne]
      rintro rfl
      have kept : item ∈ themes store := List.mem_of_mem_filter (only ▸ List.mem_singleton_self item)
      have trimmed := (sound.clean item kept).1
      cases successor : builtinTheme item.id with
      | none => exact other (by simp [activeTheme, only, successor, StoredTheme.entry, same])
      | some theme =>
          have named := (mem_builtinThemes successor).2.trans trimmed
          exact other (by simp [activeTheme, only, successor, builtinEntry, named, same])

theorem deleteTheme_cases (store : Store) (id : String) :
    (deleteTheme store id).2 = store ∨ (deleteTheme store id).2 = (loadRegistry store).2 ∨
      ∃ cleanId, (deleteTheme store id).2 =
        saveRegistry (loadRegistry store).2 ((themes store).filter fun item => item.id != cleanId) := by
  unfold deleteTheme
  split_ifs
  · exact Or.inl rfl
  · cases cleanThemeId id with
    | error error => exact Or.inl rfl
    | ok cleanId =>
        cases found : (loadRegistry store).1.find? fun item => item.id = cleanId with
        | none => exact Or.inr (Or.inl (by simp only [found]))
        | some current =>
            refine Or.inr (Or.inr ⟨cleanId, ?_⟩)
            simp only [found]
            rfl

theorem sound_delete (sound : Sound store) (id : String) : Sound (deleteTheme store id).2 := by
  rcases deleteTheme_cases store id with same | same | ⟨cleanId, same⟩
  · rw [same]
    exact sound
  · rw [same]
    exact sound_loadRegistry sound
  · rw [same]
    refine ⟨?_, fun theme member => ?_, ?_⟩
    · exact sound.distinct.sublist (List.filter_sublist.map _)
    · exact sound.clean theme (List.mem_of_mem_filter member)
    · have fewer : (((themes store).filter fun item => item.id != cleanId).filter (·.enabled)).length ≤
          ((themes store).filter (·.enabled)).length := (List.filter_sublist.filter _).length_le
      have one := sound.one
      simp only [markedUploads, markedBuiltins, themes_saveRegistry, builtinState_saveRegistry,
        builtinState_loadRegistry] at one ⊢
      omega

theorem id_of_validateManifest {manifest theme : Manifest} (valid : validateManifest manifest = .ok theme) :
    trim theme.id = theme.id ∧ theme.id ≠ builtinClassicThemeId := by
  unfold validateManifest at valid
  cases clean : cleanThemeId manifest.id with
  | error error =>
      rw [clean] at valid
      cases valid
  | ok id =>
      rw [clean] at valid
      simp only [bind, Except.bind] at valid
      split_ifs at valid
      cases valid
      exact (cleanThemeId_ok clean).2

theorem sound_upload (localeCompare : String → String → Bool) (sound : Sound store) (manifest : Manifest)
    (revision : String) : Sound (uploadTheme localeCompare store manifest revision).2 := by
  unfold uploadTheme
  split
  · exact sound
  next theme valid =>
    split_ifs
    · exact sound
    · simp only [loadRegistry_fst]
      set record : StoredTheme :=
        ⟨theme.id, theme.name, revision, "themes/v1", theme.files, theme.canvas, false⟩
      set kept := (themes store).filter fun item => item.id != record.id
      set next := (kept ++ [record]).mergeSort fun first second => localeCompare first.name second.name
      have perm : next.Perm (kept ++ [record]) := List.mergeSort_perm _ _
      have uploads : (markedUploads (saveRegistry (loadRegistry store).2 next)).length ≤
          (markedUploads store).length := by
        have same : ((kept ++ [record]).filter (·.enabled)).length = (kept.filter (·.enabled)).length := by
          simp [record]
        calc (next.filter (·.enabled)).length
            = ((kept ++ [record]).filter (·.enabled)).length := (perm.filter _).length_eq
          _ = (kept.filter (·.enabled)).length := same
          _ ≤ ((themes store).filter (·.enabled)).length := (List.filter_sublist.filter _).length_le
      have builtins : markedBuiltins (saveRegistry (loadRegistry store).2 next) = markedBuiltins store := by
        simp [markedBuiltins]
      have one := sound.one
      refine ⟨?_, fun item member => ?_, by rw [builtins]; omega⟩
      · rw [themes_saveRegistry, (perm.map _).nodup_iff, List.map_append, List.map_singleton,
          List.nodup_append]
        refine ⟨sound.distinct.sublist (List.filter_sublist.map _), List.nodup_singleton _, ?_⟩
        intro id member other only
        obtain ⟨item, among, rfl⟩ := List.mem_map.mp member
        rw [List.mem_singleton.mp only]
        exact bne_iff_ne.mp (List.mem_filter.mp among).2
      · rcases List.mem_append.mp (perm.mem_iff.mp member) with among | only
        · exact sound.clean item (List.mem_of_mem_filter among)
        · rw [List.mem_singleton.mp only]
          exact id_of_validateManifest valid

/-- An update that finds no theme. -/
theorem update_failed (sound : Sound store) {id : String} {requested : Option Bool}
    (uploaded : builtinTheme (lowered id) = none)
    (missing : ∀ cleanId, cleanThemeId id = .ok cleanId →
      (themes store).find? (fun item => item.id = cleanId) = none) :
    (∃ error, (updateTheme store id requested).1 = .error error) ∧
      Sound (updateTheme store id requested).2 ∧
      activeTheme (updateTheme store id requested).2 = activeTheme store := by
  cases clean : cleanThemeId id with
  | error error =>
      simp only [updateTheme, uploaded, clean]
      exact ⟨⟨error, rfl⟩, sound, trivial⟩
  | ok cleanId =>
      have absent := missing cleanId clean
      rw [← loadRegistry_fst] at absent
      simp only [updateTheme, uploaded, clean, absent]
      exact ⟨⟨_, rfl⟩, sound_loadRegistry sound, activeTheme_loadRegistry⟩

theorem sound_update (sound : Sound store) (id : String) (requested : Option Bool) :
    Sound (updateTheme store id requested).2 := by
  cases found : builtinTheme (lowered id) with
  | some builtin =>
      cases wanted : requested.getD false with
      | true => exact (update_builtin_true sound found wanted).sound
      | false =>
          obtain ⟨-, ids, uploads, builtins⟩ := updateTheme_builtin store found false wanted
          refine sound.of_ids ids ?_
          simp only [uploads, builtins, Bool.false_eq_true, if_false, List.length_nil, Nat.add_zero]
          exact Nat.le_of_add_right_le sound.one
  | none =>
      by_cases present : ∃ cleanId current, cleanThemeId id = .ok cleanId ∧
          (themes store).find? (fun item => item.id = cleanId) = some current
      · obtain ⟨cleanId, current, clean, member⟩ := present
        cases wanted : requested.getD current.enabled with
        | true => exact (update_uploaded_true sound found clean member wanted).sound
        | false => exact (update_uploaded_false sound found clean member wanted).1
      · have missing (cleanId : String) (clean : cleanThemeId id = .ok cleanId) :
            (themes store).find? (fun item => item.id = cleanId) = none := by
          cases absent : (themes store).find? (fun item => item.id = cleanId) with
          | none => rfl
          | some current => exact absurd ⟨cleanId, current, clean, absent⟩ present
        exact (update_failed sound found missing).2.1

theorem sound_step (localeCompare : String → String → Bool) (sound : Sound store) (operation : Operation) :
    Sound (step localeCompare store operation) := by
  cases operation with
  | upload manifest revision => exact sound_upload localeCompare sound manifest revision
  | update id requested => exact sound_update sound id requested
  | delete id => exact sound_delete sound id
  | list => exact (retires sound).sound

theorem right_of_enables {id : String} {requested : Option Bool} {entry : Entry}
    (enabled : entry.enabled = true) (result : (updateTheme store id requested).1 = .ok entry)
    (enables : Enables entry (updateTheme store id requested).2) : Right store (.update id requested) := by
  refine ⟨fun other same _ => ?_, fun other same off _ => ?_, fun error same => ?_⟩
  · rw [result] at same
    cases same
    refine ⟨?_, ?_⟩
    · rw [filter_listManagedThemes enables.sound, enables.active]
    · rw [getPublicTheme_eq enables.sound, enables.active]
  · rw [result] at same
    cases same
    rw [enabled] at off
    cases off
  · rw [result] at same
    cases same

theorem right_of_disables {id : String} {requested : Option Bool} {entry : Entry}
    (disabled : entry.enabled = false) (result : (updateTheme store id requested).1 = .ok entry) :
    Right store (.update id requested) ↔
      (¬ IsActive store entry.id →
        getPublicTheme (updateTheme store id requested).2 = getPublicTheme store) := by
  constructor
  · rintro ⟨-, kept, -⟩
    exact kept entry result disabled
  · intro kept
    refine ⟨fun other same on => ?_, fun other same _ => ?_, fun error same => ?_⟩
    · rw [result] at same
      cases same
      rw [disabled] at on
      cases on
    · rw [result] at same
      cases same
      exact kept
    · rw [result] at same
      cases same

/-- Disabling a built-in theme clears the marks of all built-in themes. -/
theorem right_builtin_false (sound : Sound store) {id : String} {requested : Option Bool}
    {builtin : BuiltinTheme} (found : builtinTheme (lowered id) = some builtin)
    (wanted : requested.getD false = false) :
    Right store (.update id requested) ↔
      ¬ ∃ other ∈ markedBuiltins store, other.id ≠ builtin.id ∧ other.id ≠ builtinClassicThemeId := by
  obtain ⟨result, -, uploads, builtins⟩ := updateTheme_builtin store found false wanted
  simp only [Bool.false_eq_true, if_false] at uploads builtins
  rw [right_of_disables rfl result, getPublicTheme_eq (sound_update sound id requested),
    getPublicTheme_eq sound, isActive_iff sound]
  have one := sound.one
  rcases eq_nil_or_singleton (Nat.le_of_add_left_le one) with none_ | ⟨other, marked⟩
  · have same : activeTheme (updateTheme store id requested).2 = activeTheme store :=
      activeTheme_congr uploads (by rw [builtins, none_])
    simp [same, none_]
  · have unmarked : markedUploads store = [] := by
      rw [marked, List.length_singleton] at one
      exact List.length_eq_zero_iff.mp (by omega)
    rw [shown_unmarked (uploads.trans unmarked) builtins, activeTheme_of_builtin unmarked marked, marked]
    by_cases same : other.id = builtin.id
    · simp [same, builtinEntry]
    · by_cases classic : other.id = builtinClassicThemeId
      · simp [shown, builtinEntry, classic]
      · simp [shown, builtinEntry, classic, same]

theorem right_iff (sound : Sound store) (operation : Operation) :
    Right store operation ↔ ¬ Trips store operation := by
  cases operation with
  | upload manifest revision => simp [Right, Trips]
  | delete id => simp [Right, Trips]
  | list => simp [Right, Trips]
  | update id requested =>
      cases found : builtinTheme (lowered id) with
      | some builtin =>
          simp only [Trips, found]
          cases wanted : requested.getD false with
          | true =>
              have result := (updateTheme_builtin store found true wanted).1
              simp [right_of_enables rfl result (update_builtin_true sound found wanted)]
          | false =>
              rw [right_builtin_false sound found wanted]
              simp
      | none =>
          simp only [Trips, found, not_false_eq_true, iff_true]
          by_cases present : ∃ cleanId current, cleanThemeId id = .ok cleanId ∧
              (themes store).find? (fun item => item.id = cleanId) = some current
          · obtain ⟨cleanId, current, clean, member⟩ := present
            cases wanted : requested.getD current.enabled with
            | true =>
                have result := (updateTheme_uploaded found clean member true wanted).1
                exact right_of_enables rfl result (update_uploaded_true sound found clean member wanted)
            | false =>
                have result := (updateTheme_uploaded found clean member false wanted).1
                obtain ⟨retained, same⟩ := update_uploaded_false sound found clean member wanted
                rw [right_of_disables rfl result, getPublicTheme_eq retained, getPublicTheme_eq sound,
                  isActive_iff sound]
                intro other
                rw [same other]
          · have missing (cleanId : String) (clean : cleanThemeId id = .ok cleanId) :
                (themes store).find? (fun item => item.id = cleanId) = none := by
              cases absent : (themes store).find? (fun item => item.id = cleanId) with
              | none => rfl
              | some current => exact absurd ⟨cleanId, current, clean, absent⟩ present
            obtain ⟨⟨error, failed⟩, retained, same⟩ := update_failed sound found missing
            refine ⟨fun entry result => ?_, fun entry result => ?_, fun _ _ => ?_⟩
            · rw [failed] at result
              cases result
            · rw [failed] at result
              cases result
            · rw [getPublicTheme_eq retained, getPublicTheme_eq sound, same]

end Calls

/-- What a run promises: every state it reaches is consistent, and every update is right. -/
def OneActive (localeCompare : String → String → Bool) (store : Store) (events : List Operation) : Prop :=
  (∀ before, before <+: events → Consistent (Runs.run (step localeCompare) store before)) ∧
    Runs.Along (step localeCompare) Right store events

theorem one_active_iff (localeCompare : String → String → Bool) {store : Store} (sound : Sound store)
    (events : List Operation) :
    OneActive localeCompare store events ↔
      Runs.Along (step localeCompare) (fun store operation => ¬ Trips store operation) store events := by
  have every (before : List Operation) : Sound (Runs.run (step localeCompare) store before) :=
    @Runs.run_invariant_of_step _ _ _ Sound (fun _ operation kept => sound_step localeCompare kept operation)
      _ before sound
  have along : Runs.Along (step localeCompare) Right store events ↔
      Runs.Along (step localeCompare) (fun store operation => ¬ Trips store operation) store events := by
    induction events generalizing store with
    | nil => exact Iff.rfl
    | cons operation rest ih =>
        exact and_congr (right_iff sound operation)
          (ih (sound_step localeCompare sound operation) fun before => every (operation :: before))
  exact ⟨fun both => along.mp both.2,
    fun guarded => ⟨fun before _ => consistent (every before), along.mpr guarded⟩⟩

theorem sound_empty : Sound {} where
  distinct := List.nodup_nil
  clean := fun _ member => absurd member List.not_mem_nil
  one := Nat.zero_le _

/-- A theme is uploaded, enabled, left for the canvas theme and removed. -/
def switching : List Operation :=
  [.upload ⟨"Dark-Sky", "Dark Sky", false, ["manifest.json", "style.css"]⟩ "0a1b2c3d",
    .update "dark-sky" (some true), .list, .update "nodeget-nie-sla" (some true),
    .update "dark-sky" (some false), .delete "dark-sky"]

def byText (first second : String) : Bool := decide (first ≤ second)

theorem one_active_switching : OneActive byText {} switching := by
  have guarded : Runs.Along (step byText) (fun store operation => ¬ Trips store operation) {} switching := by
    decide +kernel
  exact (one_active_iff byText sound_empty switching).mpr guarded

/-- The classic theme is disabled while the canvas theme is active. -/
def disablingClassic : List Operation :=
  [.update "nodeget-nie-sla" (some true), .update "classic" (some false)]

/-- The page was the canvas theme, and is the classic one again. -/
theorem disabling_classic_switches :
    getPublicTheme (Runs.run (step byText) {} (disablingClassic.take 1)) =
        some ⟨"nodeget-nie-sla", .canvas, true, true, "builtin-1.1.120"⟩ ∧
      getPublicTheme (Runs.run (step byText) {} disablingClassic) = none ∧
      ¬ OneActive byText {} disablingClassic := by
  refine ⟨by decide +kernel, by decide +kernel, ?_⟩
  rintro ⟨-, -, right, -⟩
  have kept := right.2.1 (builtinEntry ⟨"classic", .default, version⟩ false) (by decide +kernel) rfl
  have inactive : ¬ IsActive (step byText {} (.update "nodeget-nie-sla" (some true))) "classic" := by
    unfold IsActive
    decide +kernel
  exact absurd (kept inactive) (by decide +kernel)

end NieSla.Themes
