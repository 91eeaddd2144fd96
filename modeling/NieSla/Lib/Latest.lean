import NieSla.Lib.OrderedMap

/-! The latest item of each key of a list of writes: what it is of writes that are added, that are written twice or
that are written in another order. -/
namespace OrderedMap

variable {α κ : Type*} [DecidableEq κ] {key : α → κ}

/-- The values of the map that is collected from the writes. -/
def latest (key : α → κ) (writes : List α) : List α := (collect key writes).values

theorem mem_latest {writes : List α} {item : α} :
    item ∈ latest key writes ↔ lastBy key (key item) writes = some item :=
  mem_values_collect

theorem nodup_latest (key : α → κ) (writes : List α) : ((latest key writes).map key).Nodup :=
  nodup_values_collect key writes

theorem lastBy_latest (key : α → κ) (k : κ) (writes : List α) :
    lastBy key k (latest key writes) = lastBy key k writes :=
  lastBy_values_collect key k writes

theorem mem_of_mem_latest {writes : List α} {item : α} (member : item ∈ latest key writes) : item ∈ writes :=
  mem_of_lastBy (mem_latest.mp member)

/-- Each key that is written has a latest item. -/
theorem exists_latest {writes : List α} {item : α} (member : item ∈ writes) :
    ∃ last ∈ latest key writes, key last = key item := by
  have some_ : (lastBy key (key item) writes).isSome := lastBy_isSome.mpr ⟨item, member, rfl⟩
  obtain ⟨last, found⟩ := Option.isSome_iff_exists.mp some_
  have same := key_of_lastBy found
  exact ⟨last, mem_latest.mpr (same ▸ found), same⟩

/-- Items of distinct keys are determined by what is found under the keys. -/
theorem perm_of_lastBy {first second : List α} (left : (first.map key).Nodup) (right : (second.map key).Nodup)
    (same : ∀ k, lastBy key k first = lastBy key k second) : first.Perm second :=
  (List.perm_ext_iff_of_nodup left.of_map right.of_map).mpr fun item => by
    have here : lastBy key (key item) first = some item ↔ _ := lastBy_eq_some_of_nodup left
    have there : lastBy key (key item) second = some item ↔ _ := lastBy_eq_some_of_nodup right
    rw [← and_iff_left (a := item ∈ first) rfl, ← here, same, there, and_iff_left rfl]

theorem latest_perm {first second : List α} (same : ∀ k, lastBy key k first = lastBy key k second) :
    (latest key first).Perm (latest key second) :=
  perm_of_lastBy (nodup_latest key first) (nodup_latest key second) fun k => by
    rw [lastBy_latest, lastBy_latest, same]

/-- What is kept of earlier writes stands for them when more is written. -/
theorem latest_append_perm {kept writes more : List α} (stands : kept.Perm (latest key writes)) :
    (latest key (kept ++ more)).Perm (latest key (writes ++ more)) := by
  apply latest_perm
  intro k
  have distinct := (stands.map key).nodup_iff.mpr (nodup_latest key writes)
  rw [lastBy_append, lastBy_append, lastBy_perm distinct stands, lastBy_latest]

theorem lastBy_map_of_key {g : α → α} (keeps : ∀ item, key (g item) = key item) (k : κ) (items : List α) :
    lastBy key k (items.map g) = (lastBy key k items).map g := by
  induction items using List.reverseRecOn with
  | nil => rfl
  | append_singleton rest item ih =>
      rw [List.map_append, List.map_singleton, lastBy_concat, lastBy_concat, keeps, ih]
      split_ifs <;> rfl

omit [DecidableEq κ] in
theorem map_key_map {g : α → α} (keeps : ∀ item, key (g item) = key item) (items : List α) :
    (items.map g).map key = items.map key := by
  rw [List.map_map]
  exact List.map_congr_left fun item _ => keeps item

/-- The form in which an item is found beside writes that are added, which are not yet in the form of the kept ones. -/
def carried (key : α → κ) (g : α → α) (more : List α) (item : α) : α :=
  if lastBy key (key item) more = none then g item else item

theorem key_carried {g : α → α} (keeps : ∀ item, key (g item) = key item) (more : List α) (item : α) :
    key (carried key g more item) = key item := by
  unfold carried
  split_ifs
  · exact keeps item
  · rfl

/-- As `latest_append_perm`, where the writes are kept in another form. -/
theorem latest_append_map_perm {g : α → α} (keeps : ∀ item, key (g item) = key item) {kept writes more : List α}
    (stands : kept.Perm ((latest key writes).map g)) :
    (latest key (kept ++ more)).Perm ((latest key (writes ++ more)).map (carried key g more)) := by
  have distinct : (((latest key (writes ++ more)).map (carried key g more)).map key).Nodup := by
    rw [map_key_map (key_carried keeps more)]
    exact nodup_latest key _
  have apart : (kept.map key).Nodup := by
    rw [(stands.map key).nodup_iff, map_key_map keeps]
    exact nodup_latest key writes
  refine perm_of_lastBy (nodup_latest key _) distinct fun k => ?_
  rw [lastBy_latest, lastBy_append, lastBy_perm apart stands, lastBy_map_of_key keeps,
    lastBy_map_of_key (key_carried keeps more), lastBy_latest, lastBy_latest, lastBy_append]
  cases added : lastBy key k more with
  | none =>
      cases found : lastBy key k writes with
      | none => rfl
      | some old => simp [carried, key_of_lastBy found, added]
  | some new => simp [carried, key_of_lastBy added, added]

end OrderedMap
