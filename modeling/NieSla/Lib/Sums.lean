import NieSla.Lib.OrderedMap

/-! Sums over the entries of a map, in any commutative monoid, and maps that are filled by the same
keys with related values. -/
namespace OrderedMap

variable {κ κ' β β' M : Type*} [DecidableEq κ] [DecidableEq κ'] [AddCommMonoid M]

section Sum

variable (map : OrderedMap κ β) (weight : κ → β → M)

omit [DecidableEq κ] in
def sum : M := (map.entries.map fun entry => weight entry.1 entry.2).sum

/-- The weight that stands under a key. -/
def summand (k : κ) : M := ((map.get? k).map (weight k)).getD 0

variable {map weight}

theorem sum_set_of_get?_eq_none {k : κ} (fresh : map.get? k = none) (value : β) :
    (map.set k value).sum weight = map.sum weight + weight k value := by
  simp [sum, entries_set_of_not_mem map value (get?_eq_none.mp fresh)]

private theorem sum_map_setEntry (k : κ) (value : β) {list : List (κ × β)}
    (distinct : (list.map Prod.fst).Nodup) :
    ((setEntry k value list).map fun entry => weight entry.1 entry.2).sum +
        (((lastBy Prod.fst k list).map Prod.snd).map (weight k)).getD 0 =
      (list.map fun entry => weight entry.1 entry.2).sum + weight k value := by
  induction list with
  | nil => simp [setEntry]
  | cons head rest ih =>
      obtain ⟨fresh, distinctRest⟩ := List.nodup_cons.mp distinct
      rw [lastBy_cons]
      by_cases same : head.1 = k
      · have absent : lastBy Prod.fst k rest = none := lastBy_eq_none.mpr fun entry member eq =>
          fresh (same ▸ eq ▸ List.mem_map_of_mem member)
        simp only [setEntry, same, ↓reduceIte, List.map_cons, List.sum_cons, absent,
          Option.none_or, Option.map_some, Option.getD_some]
        abel
      · simp only [setEntry, same, ↓reduceIte, List.map_cons, List.sum_cons, Option.or_none]
        rw [add_assoc, ih distinctRest, add_assoc]

/-- Setting a key replaces its summand. -/
theorem sum_set (map : OrderedMap κ β) (weight : κ → β → M) (k : κ) (value : β) :
    (map.set k value).sum weight + map.summand weight k = map.sum weight + weight k value :=
  sum_map_setEntry k value map.nodup_keys

omit [DecidableEq κ] in
theorem sum_congr {other : κ → β → M}
    (same : ∀ entry ∈ map.entries, weight entry.1 entry.2 = other entry.1 entry.2) :
    map.sum weight = map.sum other := by
  unfold sum
  exact congrArg List.sum (List.map_congr_left same)

omit [DecidableEq κ] in
theorem sum_add (map : OrderedMap κ β) (first second : κ → β → M) :
    map.sum (fun k value => first k value + second k value) = map.sum first + map.sum second := by
  unfold sum
  rw [← List.sum_map_add]

theorem sum_at (map : OrderedMap κ β) (weight : κ → β → M) (k : κ) :
    map.sum (fun key value => if key = k then weight key value else 0) = map.summand weight k := by
  obtain ⟨entries, distinct⟩ := map
  simp only [sum, summand, get?]
  induction entries with
  | nil => rfl
  | cons head rest ih =>
      obtain ⟨fresh, distinctRest⟩ := List.nodup_cons.mp distinct
      rw [List.map_cons, List.sum_cons, ih distinctRest, lastBy_cons]
      by_cases same : head.1 = k
      · have absent : lastBy Prod.fst k rest = none := lastBy_eq_none.mpr fun entry member eq =>
          fresh (same ▸ eq ▸ List.mem_map_of_mem member)
        simp [same, absent]
      · simp [same]

end Sum

omit [DecidableEq κ] in
/-- What is left of a list counts in full, what is dropped counts nothing. -/
theorem sum_filter_map {α : Type*} (list : List α) (keep : α → Bool) (weight : α → M) :
    ((list.filter keep).map weight).sum =
      (list.map fun item => if keep item = true then weight item else 0).sum := by
  induction list with
  | nil => rfl
  | cons head rest ih =>
      by_cases kept : keep head = true
      · simp [kept, ih]
      · simp [kept, ih]

omit [AddCommMonoid M] in
theorem values_collect_of_nodup {α : Type*} {key : α → κ} {items : List α}
    (distinct : (items.map key).Nodup) : (collect key items).values = items := by
  induction items using List.reverseRecOn with
  | nil => rfl
  | append_singleton rest item ih =>
      rw [List.map_append, List.nodup_append] at distinct
      obtain ⟨before, -, apart⟩ := distinct
      have absent : key item ∉ (collect key rest).keys := by
        rw [← values_collect_map_key, ih before]
        intro member
        exact apart _ member _ (by simp) rfl
      rw [collect_concat, values, entries_set_of_not_mem _ _ absent, List.map_append]
      exact congrArg (· ++ [item]) (ih before)

/-- Where two lists of distinct keys are collected, the second one replaces what it has a key of. -/
theorem perm_values_collect_append {α : Type*} {key : α → κ} {first second : List α}
    (distinct : (first.map key).Nodup) (distinct' : (second.map key).Nodup) :
    (collect key (first ++ second)).values.Perm
      (first.filter (fun item => key item ∉ second.map key) ++ second) := by
  have nodup : (first.filter (fun item => key item ∉ second.map key) ++ second).Nodup := by
    refine List.nodup_append.mpr ⟨(List.Nodup.of_map _ distinct).filter _,
      List.Nodup.of_map _ distinct', fun item member other member' same => ?_⟩
    have outside := of_decide_eq_true (List.mem_filter.mp member).2
    exact outside (same ▸ List.mem_map_of_mem member')
  refine (List.perm_ext_iff_of_nodup (List.Nodup.of_map _ (nodup_values_collect key _)) nodup).mpr
    fun item => ?_
  rw [mem_values_collect, lastBy_append, List.mem_append, List.mem_filter]
  cases found : lastBy key (key item) second with
  | none =>
      have outside : key item ∉ second.map key := by
        intro inside
        obtain ⟨other, member, same⟩ := List.mem_map.mp inside
        exact lastBy_eq_none.mp found other member same
      have absent : item ∉ second := fun member => outside (List.mem_map_of_mem member)
      rw [Option.none_or, lastBy_eq_some_of_nodup distinct]
      simp [outside, absent]
  | some other =>
      have inside : key item ∈ second.map key := by
        rw [← key_of_lastBy found]
        exact List.mem_map_of_mem (mem_of_lastBy found)
      have last : lastBy key (key item) second = some item ↔ item ∈ second ∧ key item = key item :=
        lastBy_eq_some_of_nodup distinct'
      rw [found] at last
      rw [Option.some_or, last]
      simp [inside]

/-! Sums by key. -/

/-- Add each item to what stands under its key. -/
def accumulate {α : Type*} (key : α → κ) (weight : α → M) (items : List α)
    (start : OrderedMap κ M) : OrderedMap κ M :=
  items.foldl (fun map item => map.set (key item) ((map.get? (key item)).getD 0 + weight item)) start

theorem getD_accumulate {α : Type*} (key : α → κ) (weight : α → M) (items : List α)
    (start : OrderedMap κ M) (k : κ) :
    ((accumulate key weight items start).get? k).getD 0 =
      (start.get? k).getD 0 + ((items.filter fun item => key item = k).map weight).sum := by
  induction items generalizing start with
  | nil => simp [accumulate]
  | cons item rest ih =>
      have step : accumulate key weight (item :: rest) start = accumulate key weight rest
          (start.set (key item) ((start.get? (key item)).getD 0 + weight item)) := rfl
      rw [step, ih, get?_set]
      by_cases same : key item = k
      · simp [same, add_assoc]
      · simp [same, Ne.symm same]

theorem isSome_accumulate {α : Type*} (key : α → κ) (weight : α → M) (items : List α)
    (start : OrderedMap κ M) (k : κ) :
    ((accumulate key weight items start).get? k).isSome ↔
      (start.get? k).isSome ∨ ∃ item ∈ items, key item = k := by
  induction items generalizing start with
  | nil => simp [accumulate]
  | cons item rest ih =>
      have step : accumulate key weight (item :: rest) start = accumulate key weight rest
          (start.set (key item) ((start.get? (key item)).getD 0 + weight item)) := rfl
      rw [step, ih, get?_set]
      by_cases same : k = key item
      · simp [same]
      · simp [same, Ne.symm same]

/-- What is accumulated under a key is determined by what stood there and by the key's own items. -/
theorem get?_accumulate_congr {α : Type*} {key : α → κ} {weight : α → M} {first second : List α}
    {start other : OrderedMap κ M} {k : κ} (same : start.get? k = other.get? k)
    (items : first.filter (fun item => key item = k) = second.filter fun item => key item = k) :
    (accumulate key weight first start).get? k = (accumulate key weight second other).get? k := by
  have present : ((accumulate key weight first start).get? k).isSome ↔
      ((accumulate key weight second other).get? k).isSome := by
    have member (list : List α) :
        (∃ item ∈ list, key item = k) ↔ list.filter (fun item => key item = k) ≠ [] := by
      simp [List.filter_eq_nil_iff]
    rw [isSome_accumulate, isSome_accumulate, same, member, member, items]
  have value : ((accumulate key weight first start).get? k).getD 0 =
      ((accumulate key weight second other).get? k).getD 0 := by
    rw [getD_accumulate, getD_accumulate, same, items]
  cases left : (accumulate key weight first start).get? k with
  | none =>
      rw [left] at present
      exact (Option.not_isSome_iff_eq_none.mp fun there => by simpa using present.mpr there).symm
  | some total =>
      rw [left] at present value
      obtain ⟨other, right⟩ := Option.isSome_iff_exists.mp (present.mp rfl)
      rw [right] at value ⊢
      exact congrArg some value

/-! Maps with related entries. -/

/-- The entries of two maps are related one by one. -/
def Related (related : κ × β → κ' × β' → Prop) (first : OrderedMap κ β)
    (second : OrderedMap κ' β') : Prop :=
  List.Forall₂ related first.entries second.entries

omit [AddCommMonoid M] [DecidableEq κ] [DecidableEq κ'] in
theorem related_empty (related : κ × β → κ' × β' → Prop) :
    Related related (empty : OrderedMap κ β) (empty : OrderedMap κ' β') := .nil

omit [AddCommMonoid M] in
theorem Related.set {related : κ × β → κ' × β' → Prop} {first : OrderedMap κ β}
    {second : OrderedMap κ' β'} (holds : Related related first second) {k : κ} {k' : κ'}
    {value : β} {value' : β'} (new : related (k, value) (k', value'))
    (keys : ∀ entry entry', related entry entry' → (entry.1 = k ↔ entry'.1 = k')) :
    Related related (first.set k value) (second.set k' value') := by
  change List.Forall₂ related (setEntry k value first.entries) (setEntry k' value' second.entries)
  have entries : List.Forall₂ related first.entries second.entries := holds
  generalize first.entries = list, second.entries = list' at entries
  induction entries with
  | nil => exact .cons new .nil
  | @cons head head' rest rest' heads tails ih =>
      by_cases same : head.1 = k
      · simp only [setEntry, if_pos same, if_pos ((keys _ _ heads).mp same)]
        exact .cons new tails
      · simp only [setEntry, if_neg same, if_neg fun eq => same ((keys _ _ heads).mpr eq)]
        exact .cons heads ih

omit [AddCommMonoid M] [DecidableEq κ] [DecidableEq κ'] in
theorem Related.exists_mem {related : κ × β → κ' × β' → Prop} {first : OrderedMap κ β}
    {second : OrderedMap κ' β'} (holds : Related related first second) {entry : κ × β}
    (member : entry ∈ first.entries) : ∃ entry' ∈ second.entries, related entry entry' := by
  have entries : List.Forall₂ related first.entries second.entries := holds
  generalize first.entries = list, second.entries = list' at entries member
  induction entries with
  | nil => cases member
  | cons heads _ ih =>
      cases member with
      | head => exact ⟨_, List.mem_cons_self, heads⟩
      | tail _ member =>
          obtain ⟨entry', member, related⟩ := ih member
          exact ⟨entry', List.mem_cons_of_mem _ member, related⟩

omit [DecidableEq κ] [DecidableEq κ'] in
theorem Related.sum_eq {related : κ × β → κ' × β' → Prop} {first : OrderedMap κ β}
    {second : OrderedMap κ' β'} (holds : Related related first second) {weight : κ → β → M}
    {weight' : κ' → β' → M}
    (same : ∀ entry entry', related entry entry' →
      weight entry.1 entry.2 = weight' entry'.1 entry'.2) :
    first.sum weight = second.sum weight' := by
  have entries : List.Forall₂ related first.entries second.entries := holds
  unfold sum
  generalize first.entries = list, second.entries = list' at entries
  induction entries with
  | nil => rfl
  | cons heads _ ih => simp only [List.map_cons, List.sum_cons, same _ _ heads, ih]

end OrderedMap
