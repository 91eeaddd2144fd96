import Mathlib

/-! Finite maps that remember the order in which their keys were first set, and
the lists of keyed items they are built from: setting a key again replaces its
value in place, so a map collected from a list holds the last item of each key. -/

/-- A finite map in the order in which its keys were first set. -/
structure OrderedMap (κ β : Type*) where
  entries : List (κ × β)
  nodup_keys : (entries.map Prod.fst).Nodup

namespace OrderedMap

variable {κ β α : Type*}

/-- The last item of a list that has the given key. -/
def lastBy [DecidableEq κ] (key : α → κ) (k : κ) (items : List α) : Option α :=
  items.reverse.find? fun item => key item = k

section LastBy

variable [DecidableEq κ] {key : α → κ} {k : κ} {items : List α}

@[simp] theorem lastBy_nil : lastBy key k ([] : List α) = none := rfl

theorem lastBy_append (first second : List α) :
    lastBy key k (first ++ second) = (lastBy key k second).or (lastBy key k first) := by
  simp [lastBy, List.find?_append]

theorem lastBy_concat (item : α) :
    lastBy key k (items ++ [item]) = if key item = k then some item else lastBy key k items := by
  rw [lastBy_append]
  by_cases same : key item = k <;> simp [lastBy, same]

theorem lastBy_cons (item : α) :
    lastBy key k (item :: items) =
      (lastBy key k items).or (if key item = k then some item else none) := by
  rw [← List.singleton_append, lastBy_append]
  by_cases same : key item = k <;> simp [lastBy, same]

theorem key_of_lastBy {item : α} (found : lastBy key k items = some item) : key item = k := by
  simpa using List.find?_some found

theorem mem_of_lastBy {item : α} (found : lastBy key k items = some item) : item ∈ items :=
  List.mem_reverse.mp (List.mem_of_find?_eq_some found)

theorem lastBy_eq_none : lastBy key k items = none ↔ ∀ item ∈ items, key item ≠ k := by
  simp [lastBy]

theorem lastBy_isSome : (lastBy key k items).isSome ↔ ∃ item ∈ items, key item = k := by
  simp [lastBy]

/-- In a list with distinct keys, the last item of a key is the only one. -/
theorem lastBy_eq_some_of_nodup (distinct : (items.map key).Nodup) {item : α} :
    lastBy key k items = some item ↔ item ∈ items ∧ key item = k := by
  refine ⟨fun found => ⟨mem_of_lastBy found, key_of_lastBy found⟩, ?_⟩
  rintro ⟨member, rfl⟩
  have some_ : (lastBy key (key item) items).isSome := lastBy_isSome.mpr ⟨item, member, rfl⟩
  obtain ⟨found, hfound⟩ := Option.isSome_iff_exists.mp some_
  rw [hfound, List.inj_on_of_nodup_map distinct (mem_of_lastBy hfound) member
    (key_of_lastBy hfound)]

/-- In a list with distinct keys, the items of a key are its last item. -/
theorem filter_key_of_nodup (distinct : (items.map key).Nodup) :
    items.filter (fun item => key item = k) = (lastBy key k items).toList := by
  induction items with
  | nil => rfl
  | cons item rest ih =>
      rw [List.map_cons, List.nodup_cons] at distinct
      rw [lastBy_cons, List.filter_cons, ih distinct.2]
      by_cases same : key item = k
      · have alone : lastBy key k rest = none :=
          lastBy_eq_none.mpr fun other member again =>
            distinct.1 (List.mem_map.mpr ⟨other, member, again.trans same.symm⟩)
        simp [same, alone]
      · simp [same]

theorem lastBy_perm {other : List α} (distinct : (items.map key).Nodup)
    (perm : items.Perm other) : lastBy key k items = lastBy key k other := by
  ext item
  rw [lastBy_eq_some_of_nodup distinct,
    lastBy_eq_some_of_nodup ((perm.map key).nodup_iff.mp distinct), perm.mem_iff]

theorem lastBy_filter (keep : α → Bool) (respects : ∀ item, key item = k → keep item = true) :
    lastBy key k (items.filter keep) = lastBy key k items := by
  induction items using List.reverseRecOn with
  | nil => rfl
  | append_singleton rest item ih =>
      rw [List.filter_append, lastBy_concat]
      by_cases same : key item = k
      · simp [respects item same, same, lastBy_concat]
      · by_cases kept : keep item = true
        · simp [kept, lastBy_concat, same, ih]
        · simp [kept, same, ih]

end LastBy

/-! The map operations. -/

/-- The empty map. -/
def empty : OrderedMap κ β := ⟨[], List.nodup_nil⟩

instance : Inhabited (OrderedMap κ β) := ⟨empty⟩

def keys (map : OrderedMap κ β) : List κ := map.entries.map Prod.fst

def values (map : OrderedMap κ β) : List β := map.entries.map Prod.snd

def size (map : OrderedMap κ β) : Nat := map.entries.length

variable [DecidableEq κ]

instance [DecidableEq β] : DecidableEq (OrderedMap κ β) := fun left right =>
  decidable_of_iff (left.entries = right.entries) (by
    cases left
    cases right
    simp)

def get? (map : OrderedMap κ β) (k : κ) : Option β :=
  (lastBy Prod.fst k map.entries).map Prod.snd

/-- Replace the value of `k` where the key stands, or add the key at the end. -/
def setEntry (k : κ) (value : β) : List (κ × β) → List (κ × β)
  | [] => [(k, value)]
  | entry :: rest =>
      if entry.1 = k then (k, value) :: rest else entry :: setEntry k value rest

theorem keys_setEntry (k : κ) (value : β) (list : List (κ × β)) :
    (setEntry k value list).map Prod.fst =
      if k ∈ list.map Prod.fst then list.map Prod.fst else list.map Prod.fst ++ [k] := by
  induction list with
  | nil => simp [setEntry]
  | cons entry rest ih =>
      by_cases same : entry.1 = k
      · simp [setEntry, same]
      · have other : k ≠ entry.1 := fun eq => same eq.symm
        simp only [setEntry, same, ↓reduceIte, List.map_cons, ih, List.mem_cons, other, false_or]
        split <;> rfl

theorem nodup_keys_setEntry (k : κ) (value : β) {list : List (κ × β)}
    (distinct : (list.map Prod.fst).Nodup) : ((setEntry k value list).map Prod.fst).Nodup := by
  rw [keys_setEntry]
  split
  · exact distinct
  · rename_i absent
    exact List.nodup_append.mpr ⟨distinct, List.nodup_singleton k, by
      rintro key member _ (_ | ⟨_, ⟨⟩⟩) rfl
      exact absent member⟩

def set (map : OrderedMap κ β) (k : κ) (value : β) : OrderedMap κ β :=
  ⟨setEntry k value map.entries, nodup_keys_setEntry k value map.nodup_keys⟩

def erase (map : OrderedMap κ β) (k : κ) : OrderedMap κ β :=
  ⟨map.entries.filter fun entry => entry.1 ≠ k,
    map.nodup_keys.sublist (List.filter_sublist.map Prod.fst)⟩

/-- Keep the entries that satisfy a condition. -/
def filter (map : OrderedMap κ β) (keep : κ → β → Bool) : OrderedMap κ β :=
  ⟨map.entries.filter fun entry => keep entry.1 entry.2,
    map.nodup_keys.sublist (List.filter_sublist.map Prod.fst)⟩

@[simp] theorem get?_empty (k : κ) : (empty : OrderedMap κ β).get? k = none := rfl

theorem get?_eq_some {map : OrderedMap κ β} {k : κ} {value : β} :
    map.get? k = some value ↔ (k, value) ∈ map.entries := by
  simp only [get?, Option.map_eq_some_iff, lastBy_eq_some_of_nodup map.nodup_keys]
  constructor
  · rintro ⟨entry, ⟨member, rfl⟩, rfl⟩
    exact member
  · intro member
    exact ⟨(k, value), ⟨member, rfl⟩, rfl⟩

theorem get?_eq_none {map : OrderedMap κ β} {k : κ} : map.get? k = none ↔ k ∉ map.keys := by
  rw [get?, Option.map_eq_none_iff, lastBy_eq_none, keys, List.mem_map]
  constructor
  · rintro absent ⟨entry, member, rfl⟩
    exact absent entry member rfl
  · intro absent entry member same
    exact absent ⟨entry, member, same⟩

private theorem mem_setEntry (k : κ) (value : β) {list : List (κ × β)}
    (distinct : (list.map Prod.fst).Nodup) (entry : κ × β) :
    entry ∈ setEntry k value list ↔ entry = (k, value) ∨ (entry.1 ≠ k ∧ entry ∈ list) := by
  induction list with
  | nil => simp [setEntry]
  | cons head rest ih =>
      obtain ⟨fresh, distinctRest⟩ := List.nodup_cons.mp distinct
      by_cases same : head.1 = k
      · have absent : entry ∈ rest → entry.1 ≠ k := fun member eq =>
          fresh (same ▸ eq ▸ List.mem_map_of_mem member)
        simp only [setEntry, same, ↓reduceIte, List.mem_cons]
        constructor
        · rintro (rfl | member)
          · exact .inl rfl
          · exact .inr ⟨absent member, .inr member⟩
        · rintro (rfl | ⟨other, rfl | member⟩)
          · exact .inl rfl
          · exact absurd same other
          · exact .inr member
      · simp only [setEntry, same, ↓reduceIte, List.mem_cons, ih distinctRest]
        constructor
        · rintro (rfl | rfl | ⟨other, member⟩)
          · exact .inr ⟨same, .inl rfl⟩
          · exact .inl rfl
          · exact .inr ⟨other, .inr member⟩
        · rintro (rfl | ⟨other, rfl | member⟩)
          · exact .inr (.inl rfl)
          · exact .inl rfl
          · exact .inr (.inr ⟨other, member⟩)

@[simp] theorem get?_set_self (map : OrderedMap κ β) (k : κ) (value : β) :
    (map.set k value).get? k = some value :=
  get?_eq_some.mpr ((mem_setEntry k value map.nodup_keys _).mpr (.inl rfl))

theorem get?_set_of_ne (map : OrderedMap κ β) {k other : κ} (value : β) (ne : other ≠ k) :
    (map.set k value).get? other = map.get? other := by
  ext found
  rw [get?_eq_some, get?_eq_some]
  exact (mem_setEntry k value map.nodup_keys _).trans (by simp [ne])

theorem get?_set (map : OrderedMap κ β) (k other : κ) (value : β) :
    (map.set k value).get? other = if other = k then some value else map.get? other := by
  by_cases same : other = k
  · simp [same]
  · rw [get?_set_of_ne map value same, if_neg same]

@[simp] theorem get?_erase_self (map : OrderedMap κ β) (k : κ) : (map.erase k).get? k = none :=
  get?_eq_none.mpr (by simp [keys, erase])

theorem get?_erase_of_ne (map : OrderedMap κ β) {k other : κ} (ne : other ≠ k) :
    (map.erase k).get? other = map.get? other := by
  ext found
  rw [get?_eq_some, get?_eq_some]
  simp [erase, ne]

theorem get?_erase (map : OrderedMap κ β) (k other : κ) :
    (map.erase k).get? other = if other = k then none else map.get? other := by
  by_cases same : other = k
  · simp [same]
  · rw [get?_erase_of_ne map same, if_neg same]

theorem get?_filter (map : OrderedMap κ β) (keep : κ → β → Bool) {k : κ} {value : β} :
    (map.filter keep).get? k = some value ↔ map.get? k = some value ∧ keep k value = true := by
  rw [get?_eq_some, get?_eq_some]
  simp [filter]

theorem mem_set_entries (map : OrderedMap κ β) (k : κ) (value : β) (entry : κ × β) :
    entry ∈ (map.set k value).entries ↔
      entry = (k, value) ∨ (entry.1 ≠ k ∧ entry ∈ map.entries) :=
  mem_setEntry k value map.nodup_keys entry

private theorem setEntry_of_not_mem {k : κ} (value : β) {list : List (κ × β)}
    (absent : k ∉ list.map Prod.fst) : setEntry k value list = list ++ [(k, value)] := by
  induction list with
  | nil => rfl
  | cons entry rest ih =>
      rw [List.map_cons, List.mem_cons, not_or] at absent
      rw [setEntry, if_neg (Ne.symm absent.1), ih absent.2, List.cons_append]

theorem entries_set_of_not_mem (map : OrderedMap κ β) {k : κ} (value : β)
    (absent : k ∉ map.keys) : (map.set k value).entries = map.entries ++ [(k, value)] :=
  setEntry_of_not_mem value absent

/-- Setting a key that comes later leaves the first entries as they are. -/
theorem prefix_set (map : OrderedMap κ β) {k : κ} (value : β) {first : List (κ × β)}
    (leads : first <+: map.entries) (absent : k ∉ first.map Prod.fst) :
    first <+: (map.set k value).entries := by
  change first <+: setEntry k value map.entries
  generalize map.entries = list at leads
  induction first generalizing list with
  | nil => exact List.nil_prefix
  | cons entry rest ih =>
      rw [List.map_cons, List.mem_cons, not_or] at absent
      obtain ⟨after, rfl⟩ := leads
      rw [List.cons_append, setEntry, if_neg (Ne.symm absent.1), List.cons_prefix_cons]
      exact ⟨rfl, ih absent.2 _ (List.prefix_append _ _)⟩

/-! Totals over the entries of a map. -/

/-- The sum of a weight over the entries. -/
def total (map : OrderedMap κ β) (weight : κ → β → Nat) : Nat :=
  (map.entries.map fun entry => weight entry.1 entry.2).sum

omit [DecidableEq κ] in
@[simp] theorem total_empty (weight : κ → β → Nat) :
    (empty : OrderedMap κ β).total weight = 0 := rfl

/-- The weight that the map holds under a key. -/
def weightAt (map : OrderedMap κ β) (weight : κ → β → Nat) (k : κ) : Nat :=
  ((map.get? k).map (weight k)).getD 0

private theorem sum_setEntry (weight : κ → β → Nat) (k : κ) (value : β)
    {list : List (κ × β)} (distinct : (list.map Prod.fst).Nodup) :
    ((setEntry k value list).map fun entry => weight entry.1 entry.2).sum +
        (((lastBy Prod.fst k list).map Prod.snd).map (weight k)).getD 0 =
      (list.map fun entry => weight entry.1 entry.2).sum + weight k value := by
  induction list with
  | nil => simp [setEntry]
  | cons head rest ih =>
      obtain ⟨fresh, distinctRest⟩ := List.nodup_cons.mp distinct
      rw [lastBy_cons]
      by_cases same : head.1 = k
      · have absent : lastBy Prod.fst k rest = none := lastBy_eq_none.mpr fun entry member eq =>
          fresh (same ▸ eq ▸ List.mem_map_of_mem member)
        simp only [setEntry, same, ↓reduceIte, List.map_cons, List.sum_cons, absent,
          Option.none_or, Option.map_some, Option.getD_some]
        omega
      · simp only [setEntry, same, ↓reduceIte, List.map_cons, List.sum_cons, Option.or_none]
        have := ih distinctRest
        omega

/-- Setting a key replaces its weight in the total. -/
theorem total_set (map : OrderedMap κ β) (weight : κ → β → Nat) (k : κ) (value : β) :
    (map.set k value).total weight + map.weightAt weight k =
      map.total weight + weight k value :=
  sum_setEntry weight k value map.nodup_keys

omit [DecidableEq κ] in
/-- Entries without weight may be dropped. -/
theorem total_filter (map : OrderedMap κ β) (weight : κ → β → Nat) (keep : κ → β → Bool)
    (weightless : ∀ k value, keep k value = false → weight k value = 0) :
    (map.filter keep).total weight = map.total weight := by
  change ((map.entries.filter fun entry => keep entry.1 entry.2).map
    fun entry => weight entry.1 entry.2).sum = (map.entries.map _).sum
  induction map.entries with
  | nil => rfl
  | cons head rest ih =>
      by_cases kept : keep head.1 head.2 = true
      · simp [kept, ih]
      · have := weightless head.1 head.2 (by simpa using kept)
        simp [kept, ih, this]

omit [DecidableEq κ] in
theorem total_eq_zero (map : OrderedMap κ β) (weight : κ → β → Nat)
    (weightless : ∀ entry ∈ map.entries, weight entry.1 entry.2 = 0) :
    map.total weight = 0 := by
  refine List.sum_eq_zero_iff_forall_eq_nat.mpr fun value member => ?_
  obtain ⟨entry, inside, rfl⟩ := List.mem_map.mp member
  exact weightless entry inside

private theorem sum_entry [AddMonoid β] (k : κ) {list : List (κ × β)}
    (distinct : (list.map Prod.fst).Nodup) :
    (list.map fun entry => if entry.1 = k then entry.2 else 0).sum =
      ((lastBy Prod.fst k list).map Prod.snd).getD 0 := by
  induction list with
  | nil => rfl
  | cons head rest ih =>
      obtain ⟨fresh, distinctRest⟩ := List.nodup_cons.mp distinct
      rw [List.map_cons, List.sum_cons, ih distinctRest, lastBy_cons]
      by_cases same : head.1 = k
      · have absent : lastBy Prod.fst k rest = none := lastBy_eq_none.mpr fun entry member eq =>
          fresh (same ▸ eq ▸ List.mem_map_of_mem member)
        simp [same, absent]
      · simp [same]

/-- The entries under a key sum up to its value. -/
theorem sum_entries [AddMonoid β] (map : OrderedMap κ β) (k : κ) :
    (map.entries.map fun entry => if entry.1 = k then entry.2 else 0).sum =
      (map.get? k).getD 0 :=
  sum_entry k map.nodup_keys

/-! Lists made from the entries of a map. -/

/-- Where only the entry of `k` yields items that are kept, its items are all that is kept. -/
theorem filter_flatMap_entries (map : OrderedMap κ β) (k : κ) (items : κ × β → List α)
    (keep : α → Bool)
    (others : ∀ entry ∈ map.entries, entry.1 ≠ k → (items entry).filter keep = []) :
    (map.entries.flatMap items).filter keep =
      ((map.get? k).map fun value => (items (k, value)).filter keep).getD [] := by
  obtain ⟨entries, distinct⟩ := map
  simp only [get?] at *
  induction entries with
  | nil => rfl
  | cons head rest ih =>
      obtain ⟨fresh, distinctRest⟩ := List.nodup_cons.mp distinct
      obtain ⟨othersHead, othersRest⟩ := List.forall_mem_cons.mp others
      rw [List.flatMap_cons, List.filter_append, ih distinctRest othersRest, lastBy_cons]
      by_cases same : head.1 = k
      · have absent : lastBy Prod.fst k rest = none := lastBy_eq_none.mpr fun entry member eq =>
          fresh (same ▸ eq ▸ List.mem_map_of_mem member)
        subst same
        simp [absent]
      · rw [othersHead same]
        simp [same]

/-! Maps collected from a list of keyed items. -/

/-- Set each item of the list under its key, in the order of the list. -/
def collect (key : α → κ) (items : List α) : OrderedMap κ α :=
  items.foldl (fun map item => map.set (key item) item) empty

theorem collect_concat (key : α → κ) (items : List α) (item : α) :
    collect key (items ++ [item]) = (collect key items).set (key item) item := by
  simp [collect, List.foldl_append]

theorem get?_collect (key : α → κ) (k : κ) (items : List α) :
    (collect key items).get? k = lastBy key k items := by
  induction items using List.reverseRecOn with
  | nil => rfl
  | append_singleton rest item ih =>
      rw [collect_concat, lastBy_concat, get?_set, ih]
      by_cases same : key item = k
      · simp [same]
      · simp [same, Ne.symm same]

/-- A collected map files every item under its own key. -/
theorem key_of_mem_collect {key : α → κ} {items : List α} {entry : κ × α}
    (member : entry ∈ (collect key items).entries) : key entry.2 = entry.1 := by
  have found : (collect key items).get? entry.1 = some entry.2 := get?_eq_some.mpr member
  rw [get?_collect] at found
  exact key_of_lastBy found

theorem values_collect_map_key (key : α → κ) (items : List α) :
    (collect key items).values.map key = (collect key items).keys := by
  rw [values, keys, List.map_map]
  exact List.map_congr_left fun entry member => key_of_mem_collect member

theorem nodup_values_collect (key : α → κ) (items : List α) :
    ((collect key items).values.map key).Nodup := by
  rw [values_collect_map_key]
  exact (collect key items).nodup_keys

theorem mem_values_collect {key : α → κ} {items : List α} {item : α} :
    item ∈ (collect key items).values ↔ lastBy key (key item) items = some item := by
  rw [← get?_collect, get?_eq_some, values, List.mem_map]
  constructor
  · rintro ⟨entry, member, rfl⟩
    rwa [key_of_mem_collect member]
  · intro member
    exact ⟨_, member, rfl⟩

theorem lastBy_values_collect (key : α → κ) (k : κ) (items : List α) :
    lastBy key k (collect key items).values = lastBy key k items := by
  ext item
  rw [lastBy_eq_some_of_nodup (nodup_values_collect key items), mem_values_collect]
  constructor
  · rintro ⟨found, rfl⟩
    exact found
  · intro found
    have same := key_of_lastBy found
    subst same
    exact ⟨found, rfl⟩

/-! Items grouped by their key. -/

/-- Each key holds the items that have it, in the order of the list. -/
def group (key : α → κ) (items : List α) : OrderedMap κ (List α) :=
  items.foldl (fun map item =>
    map.set (key item) ((map.get? (key item)).getD [] ++ [item])) empty

theorem get?_group (key : α → κ) (k : κ) (items : List α) :
    (group key items).get? k =
      if items.filter (fun item => key item = k) = [] then none
      else some (items.filter fun item => key item = k) := by
  induction items using List.reverseRecOn with
  | nil => rfl
  | append_singleton rest item ih =>
      have step : group key (rest ++ [item]) = (group key rest).set (key item)
          (((group key rest).get? (key item)).getD [] ++ [item]) := by
        simp [group, List.foldl_append]
      rw [step, get?_set, List.filter_append]
      by_cases same : k = key item
      · subst same
        rw [ih]
        by_cases first : rest.filter (fun other => key other = key item) = []
        · simp [first]
        · simp [first]
      · simp [same, Ne.symm same, ih]

/-- The groups of a list. -/
theorem mem_group_entries {key : α → κ} {items : List α} {entry : κ × List α}
    (member : entry ∈ (group key items).entries) :
    entry.2 = items.filter (fun item => key item = entry.1) ∧ entry.2 ≠ [] := by
  have found := get?_eq_some.mpr member
  rw [get?_group] at found
  split at found
  · cases found
  · rename_i filled
    rw [Option.some.injEq] at found
    exact ⟨found.symm, found ▸ filled⟩

private theorem perm_setEntry (k : κ) (item : α) {list : List (κ × List α)}
    (distinct : (list.map Prod.fst).Nodup) :
    ((setEntry k (((lastBy Prod.fst k list).map Prod.snd).getD [] ++ [item]) list).flatMap
      Prod.snd).Perm (list.flatMap Prod.snd ++ [item]) := by
  induction list with
  | nil => exact List.Perm.refl _
  | cons head rest ih =>
      obtain ⟨fresh, distinctRest⟩ := List.nodup_cons.mp distinct
      rw [lastBy_cons]
      by_cases same : head.1 = k
      · have absent : lastBy Prod.fst k rest = none := lastBy_eq_none.mpr fun entry member eq =>
          fresh (same ▸ eq ▸ List.mem_map_of_mem member)
        simp only [setEntry, same, ↓reduceIte, absent, Option.none_or, Option.map_some,
          Option.getD_some, List.flatMap_cons, List.append_assoc]
        exact List.perm_append_comm.append_left _
      · simp only [setEntry, same, ↓reduceIte, Option.or_none, List.flatMap_cons,
          List.append_assoc]
        exact (ih distinctRest).append_left _

/-- The groups of a list hold its items. -/
theorem perm_group (key : α → κ) (items : List α) :
    ((group key items).entries.flatMap Prod.snd).Perm items := by
  induction items using List.reverseRecOn with
  | nil => exact List.Perm.refl _
  | append_singleton rest item ih =>
      have step : group key (rest ++ [item]) = (group key rest).set (key item)
          (((group key rest).get? (key item)).getD [] ++ [item]) := by
        simp [group, List.foldl_append]
      rw [step]
      exact (perm_setEntry (key item) item (group key rest).nodup_keys).trans
        (ih.append_right [item])

/-! Loops over the entries of a map in which each round changes one key only. -/

/-- What the loop leaves under a key is what the round of that key has made of it. -/
theorem foldl_entries_at {σ γ : Type*} (map : OrderedMap κ β) (step : σ → κ × β → σ)
    (view : σ → κ → γ) (own : κ → β → γ → γ)
    (self : ∀ state entry, view (step state entry) entry.1 = own entry.1 entry.2 (view state entry.1))
    (others : ∀ state entry k, k ≠ entry.1 → view (step state entry) k = view state k)
    (state : σ) (k : κ) :
    view (map.entries.foldl step state) k =
      ((map.get? k).map fun value => own k value (view state k)).getD (view state k) := by
  have untouched : ∀ (list : List (κ × β)) (state : σ), k ∉ list.map Prod.fst →
      view (list.foldl step state) k = view state k := by
    intro list
    induction list with
    | nil => exact fun _ _ => rfl
    | cons entry rest ih =>
        intro state absent
        rw [List.map_cons, List.mem_cons, not_or] at absent
        rw [List.foldl_cons, ih _ absent.2, others state entry k absent.1]
  cases found : map.get? k with
  | none => exact untouched map.entries state (get?_eq_none.mp found)
  | some value =>
      obtain ⟨before, after, whole⟩ := List.append_of_mem (get?_eq_some.mp found)
      have distinct := map.nodup_keys
      rw [whole, List.map_append, List.map_cons] at distinct
      obtain ⟨_, later, apart⟩ := List.nodup_append.mp distinct
      have first : k ∉ before.map Prod.fst := fun member =>
        apart k member k List.mem_cons_self rfl
      have last := (List.nodup_cons.mp later).1
      rw [whole, List.foldl_append, List.foldl_cons, untouched after _ last]
      have entered := self (before.foldl step state) (k, value)
      dsimp only at entered
      rw [entered, untouched before state first]
      rfl

end OrderedMap
