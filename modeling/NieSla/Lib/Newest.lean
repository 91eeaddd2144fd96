import Mathlib

/-! The newest items of each group, and of them the newest of all. What is added to the items that were kept
is limited to the same as what is added to all of them: an item that was dropped had newer items before it,
which are still there. -/
namespace Newest

variable {α γ : Type*} [DecidableEq γ]

/-- `after` compares ages: it is transitive, also where ages are equal; in a group no two are equal. -/
structure Recency (group : α → γ) (after : α → α → Prop) : Prop where
  trans : ∀ {a b c}, after a b → after b c → after a c
  irrefl : ∀ a, ¬ after a a
  split : ∀ {a c} b, after a c → after a b ∨ after b c
  ties : ∀ {a b}, group a = group b → ¬ after a b → ¬ after b a → a = b

variable (group : α → γ) (after : α → α → Prop) [DecidableRel after]

def newer (items : Finset α) (x : α) : Finset α := items.filter fun y => after y x

/-- The newer items of a group. -/
def newerIn (g : γ) (items : Finset α) (x : α) : Finset α := (newer after items x).filter fun y => group y = g

/-- The newest `count`. -/
def top (count : Nat) (items : Finset α) : Finset α := items.filter fun x => (newer after items x).card < count

/-- The newest `perGroup` of each group. -/
def shortlist (perGroup : Nat) (items : Finset α) : Finset α :=
  items.filter fun x => (newerIn group after (group x) items x).card < perGroup

/-- Of them the newest `total`. -/
def kept (perGroup total : Nat) (items : Finset α) : Finset α := top after total (shortlist group after perGroup items)

variable {group after} {perGroup total count : Nat} {items more : Finset α} {x y : α} {g : γ}

theorem mem_newer : y ∈ newer after items x ↔ y ∈ items ∧ after y x := Finset.mem_filter

theorem mem_newerIn : y ∈ newerIn group after g items x ↔ y ∈ items ∧ after y x ∧ group y = g := by
  rw [newerIn, Finset.mem_filter, mem_newer, and_assoc]

theorem mem_top : x ∈ top after count items ↔ x ∈ items ∧ (newer after items x).card < count := Finset.mem_filter

theorem mem_shortlist : x ∈ shortlist group after perGroup items ↔
    x ∈ items ∧ (newerIn group after (group x) items x).card < perGroup := Finset.mem_filter

theorem mem_kept : x ∈ kept group after perGroup total items ↔
    x ∈ items ∧ (newerIn group after (group x) items x).card < perGroup ∧
      (newer after (shortlist group after perGroup items) x).card < total := by
  rw [kept, mem_top, mem_shortlist, and_assoc]

theorem newerIn_mono (subset : items ⊆ more) : newerIn group after g items x ⊆ newerIn group after g more x :=
  Finset.filter_subset_filter _ (Finset.filter_subset_filter _ subset)

theorem kept_subset : kept group after perGroup total items ⊆ items :=
  fun _ member => (mem_kept.mp member).1

section Order

variable [DecidableEq α] (recency : Recency group after)
include recency

omit [DecidableEq γ] [DecidableEq α] in
theorem newer_ssubset (member : y ∈ items) (ahead : after y x) : newer after items y ⊂ newer after items x := by
  refine (Finset.ssubset_iff_of_subset fun z inside => ?_).mpr ⟨y, mem_newer.mpr ⟨member, ahead⟩, ?_⟩
  · obtain ⟨listed, before⟩ := mem_newer.mp inside
    exact mem_newer.mpr ⟨listed, recency.trans before ahead⟩
  · exact fun inside => recency.irrefl y (mem_newer.mp inside).2

omit [DecidableEq γ] in
/-- There are `count` newest items, if there are so many. -/
theorem le_card_top (enough : count ≤ items.card) : count ≤ (top after count items).card := by
  by_contra few
  rw [not_le] at few
  have rest : (items \ top after count items).Nonempty := by
    rw [Finset.sdiff_nonempty]
    exact fun subset => absurd (Finset.card_le_card subset) (by omega)
  -- the newest item that is not among the newest has only those before it
  obtain ⟨m, outside, least⟩ := Finset.exists_min_image _ (fun z => (newer after items z).card) rest
  obtain ⟨member, dropped⟩ := Finset.mem_sdiff.mp outside
  have before : newer after items m ⊆ top after count items := by
    intro z inside
    obtain ⟨listed, ahead⟩ := mem_newer.mp inside
    by_contra absent
    have lower := least z (Finset.mem_sdiff.mpr ⟨listed, absent⟩)
    exact absurd (Finset.card_lt_card (newer_ssubset recency listed ahead)) (by omega)
  exact dropped (mem_top.mpr ⟨member, (Finset.card_le_card before).trans_lt few⟩)

omit [DecidableEq γ] in
/-- In a group there are no more. -/
theorem card_top_of_group (alike : ∀ y ∈ items, group y = g) :
    (top after count items).card = min count items.card := by
  refine le_antisymm (le_min ?_ (Finset.card_filter_le _ _)) ?_
  · rcases (top after count items).eq_empty_or_nonempty with none_ | some_
    · rw [none_]
      exact Nat.zero_le _
    -- the oldest of them has the others before it
    obtain ⟨m, member, most⟩ := Finset.exists_max_image _ (fun z => (newer after items z).card) some_
    obtain ⟨listed, few⟩ := mem_top.mp member
    have others : (top after count items).erase m ⊆ newer after items m := by
      intro z inside
      obtain ⟨other, among⟩ := Finset.mem_erase.mp inside
      have here := (mem_top.mp among).1
      refine mem_newer.mpr ⟨here, ?_⟩
      by_contra behind
      by_cases ahead : after m z
      · have higher := most z among
        exact absurd (Finset.card_lt_card (newer_ssubset recency listed ahead)) (by omega)
      · exact other (recency.ties ((alike z here).trans (alike m listed).symm) behind ahead)
    have bound := Finset.card_le_card others
    rw [Finset.card_erase_of_mem member] at bound
    omega
  · rcases le_total count items.card with enough | short
    · rw [min_eq_left enough]
      exact le_card_top recency enough
    · rw [min_eq_right short]
      refine Finset.card_le_card fun z member => mem_top.mpr ⟨member, ?_⟩
      have fewer : newer after items z ⊂ items :=
        (Finset.ssubset_iff_of_subset (Finset.filter_subset _ _)).mpr
          ⟨z, member, fun inside => recency.irrefl z (mem_newer.mp inside).2⟩
      exact (Finset.card_lt_card fewer).trans_le short

omit [DecidableEq α] in
/-- What is newer in the shortlist is the shortlist of what is newer. -/
theorem newerIn_shortlist :
    newerIn group after g (shortlist group after perGroup items) x =
      top after perGroup (newerIn group after g items x) := by
  ext y
  rw [mem_newerIn, mem_shortlist, mem_top, mem_newerIn]
  have same (ahead : after y x) (own : group y = g) :
      newer after (newerIn group after g items x) y = newerIn group after (group y) items y := by
    ext z
    rw [mem_newer, mem_newerIn, mem_newerIn, own]
    exact ⟨fun both => ⟨both.1.1, both.2, both.1.2.2⟩,
      fun all => ⟨⟨all.1, recency.trans all.2.1 ahead, all.2.2⟩, all.2.1⟩⟩
  constructor
  · rintro ⟨⟨member, few⟩, ahead, own⟩
    exact ⟨⟨member, ahead, own⟩, by rwa [same ahead own]⟩
  · rintro ⟨⟨member, ahead, own⟩, few⟩
    exact ⟨⟨member, by rwa [same ahead own] at few⟩, ahead, own⟩

theorem card_newerIn_shortlist :
    (newerIn group after g (shortlist group after perGroup items) x).card =
      min perGroup (newerIn group after g items x).card := by
  rw [newerIn_shortlist recency]
  exact card_top_of_group recency fun y member => (mem_newerIn.mp member).2.2

/-- Where each group has as many newer items, up to the limit, the shortlist has as many. -/
theorem card_newer_shortlist_le (each : ∀ g, min perGroup (newerIn group after g items x).card ≤
      (newerIn group after g more x).card) :
    (newer after (shortlist group after perGroup items) x).card ≤
      (newer after (shortlist group after perGroup more) x).card := by
  set groups := items.image group ∪ more.image group
  have fibers (list : Finset α) (inside : list ⊆ items ∪ more) :
      (newer after (shortlist group after perGroup list) x).card =
        ∑ g ∈ groups, (newerIn group after g (shortlist group after perGroup list) x).card := by
    refine Finset.card_eq_sum_card_fiberwise fun y member => ?_
    have listed := inside (mem_shortlist.mp (mem_newer.mp member).1).1
    have grouped := Finset.mem_image_of_mem group listed
    rwa [Finset.image_union] at grouped
  rw [fibers items Finset.subset_union_left, fibers more Finset.subset_union_right]
  refine Finset.sum_le_sum fun g _ => ?_
  rw [card_newerIn_shortlist recency, card_newerIn_shortlist recency]
  exact le_min (min_le_left _ _) (each g)

theorem kept_of_subset (subset : items ⊆ more) (member : x ∈ items)
    (stays : x ∈ kept group after perGroup total more) : x ∈ kept group after perGroup total items := by
  obtain ⟨-, own, all⟩ := mem_kept.mp stays
  refine mem_kept.mpr ⟨member, (Finset.card_le_card (newerIn_mono subset)).trans_lt own, lt_of_le_of_lt ?_ all⟩
  exact card_newer_shortlist_le recency fun g =>
    (min_le_right _ _).trans (Finset.card_le_card (newerIn_mono subset))

omit [DecidableEq α] recency in
theorem shortlist_kept : shortlist group after perGroup (kept group after perGroup total items) =
    kept group after perGroup total items := by
  refine Finset.filter_eq_self.mpr fun y member => ?_
  exact (Finset.card_le_card (newerIn_mono kept_subset)).trans_lt (mem_kept.mp member).2.1

/-- If an item that was dropped for the total is newer than `x`, all that was kept is. -/
theorem le_newer_kept (ahead : after y x)
    (many : total ≤ (newer after (shortlist group after perGroup items) y).card) :
    total ≤ (newer after (kept group after perGroup total items) x).card := by
  have all : newer after (kept group after perGroup total items) x = kept group after perGroup total items := by
    refine Finset.filter_eq_self.mpr fun z member => ?_
    by_contra behind
    have older : after y z := (recency.split z ahead).resolve_right behind
    have more : newer after (shortlist group after perGroup items) y ⊆
        newer after (shortlist group after perGroup items) z := fun w inside =>
      mem_newer.mpr ⟨(mem_newer.mp inside).1, recency.trans (mem_newer.mp inside).2 older⟩
    have few := (mem_kept.mp member).2.2
    exact absurd (Finset.card_le_card more) (by omega)
  rw [all]
  exact le_card_top recency (many.trans (Finset.card_filter_le _ _))

/-- If no item that is newer than `x` was dropped for the total, each group still has as many newer items, up to
its limit. -/
theorem min_le_newerIn_kept
    (shown : ∀ y ∈ items, after y x → (newer after (shortlist group after perGroup items) y).card < total) :
    min perGroup (newerIn group after g items x).card ≤
      (newerIn group after g (kept group after perGroup total items) x).card := by
  rw [← card_top_of_group recency fun y member => (mem_newerIn.mp member).2.2]
  refine Finset.card_le_card fun y member => ?_
  obtain ⟨inside, few⟩ := mem_top.mp member
  obtain ⟨listed, ahead, own⟩ := mem_newerIn.mp inside
  refine mem_newerIn.mpr ⟨mem_kept.mpr ⟨listed, ?_, shown y listed ahead⟩, ahead, own⟩
  have shorter : y ∈ newerIn group after g (shortlist group after perGroup items) x := by
    rw [newerIn_shortlist recency]
    exact member
  exact (mem_shortlist.mp (mem_newerIn.mp shorter).1).2

/-- Then the kept items and those that are added have as many newer ones in a group, up to the limit, as all. -/
theorem min_le_newerIn_union
    (shown : ∀ y ∈ items, after y x → (newer after (shortlist group after perGroup items) y).card < total) (g : γ) :
    min perGroup (newerIn group after g (items ∪ more) x).card ≤
      (newerIn group after g (kept group after perGroup total items ∪ more) x).card := by
  by_cases every : ∀ y ∈ newerIn group after g items x, y ∈ kept group after perGroup total items
  · refine (min_le_right _ _).trans (Finset.card_le_card fun y member => ?_)
    obtain ⟨listed, ahead, own⟩ := mem_newerIn.mp member
    refine mem_newerIn.mpr ⟨?_, ahead, own⟩
    rcases Finset.mem_union.mp listed with old | new
    · exact Finset.mem_union_left _ (every y (mem_newerIn.mpr ⟨old, ahead, own⟩))
    · exact Finset.mem_union_right _ new
  · push Not at every
    obtain ⟨y, member, absent⟩ := every
    obtain ⟨listed, ahead, own⟩ := mem_newerIn.mp member
    have full : perGroup ≤ (newerIn group after g items y).card := by
      by_contra few
      exact absent (mem_kept.mpr ⟨listed, by rw [own]; omega, shown y listed ahead⟩)
    have more_ : newerIn group after g items y ⊆ newerIn group after g items x := fun z inside => by
      obtain ⟨here, before, same⟩ := mem_newerIn.mp inside
      exact mem_newerIn.mpr ⟨here, recency.trans before ahead, same⟩
    calc min perGroup (newerIn group after g (items ∪ more) x).card
        ≤ perGroup := min_le_left _ _
      _ ≤ min perGroup (newerIn group after g items x).card :=
          le_min le_rfl (full.trans (Finset.card_le_card more_))
      _ ≤ (newerIn group after g (kept group after perGroup total items) x).card :=
          min_le_newerIn_kept recency shown
      _ ≤ _ := Finset.card_le_card (newerIn_mono Finset.subset_union_left)

/-- Limiting what is added to the kept items is limiting what is added to all items. -/
theorem kept_union : kept group after perGroup total (kept group after perGroup total items ∪ more) =
    kept group after perGroup total (items ∪ more) := by
  have subset : kept group after perGroup total items ∪ more ⊆ items ∪ more :=
    Finset.union_subset_union_left kept_subset
  ext x
  constructor
  · intro member
    obtain ⟨listed, own, all⟩ := mem_kept.mp member
    by_cases shown : ∀ y ∈ items, after y x → (newer after (shortlist group after perGroup items) y).card < total
    · have each (g : γ) : min perGroup (newerIn group after g (items ∪ more) x).card ≤
          (newerIn group after g (kept group after perGroup total items ∪ more) x).card :=
        min_le_newerIn_union recency shown g
      refine mem_kept.mpr ⟨subset listed, ?_, (card_newer_shortlist_le recency each).trans_lt all⟩
      have bound := each (group x)
      omega
    · push Not at shown
      obtain ⟨y, -, ahead, many⟩ := shown
      have enough := le_newer_kept recency ahead many
      rw [← shortlist_kept] at enough
      have grown : (newer after (shortlist group after perGroup (kept group after perGroup total items)) x).card ≤
          (newer after (shortlist group after perGroup (kept group after perGroup total items ∪ more)) x).card :=
        card_newer_shortlist_le recency fun g =>
          (min_le_right _ _).trans (Finset.card_le_card (newerIn_mono Finset.subset_union_left))
      omega
  · intro member
    refine kept_of_subset recency subset ?_ member
    rcases Finset.mem_union.mp (kept_subset member) with old | new
    · exact Finset.mem_union_left _ (kept_of_subset recency Finset.subset_union_left old member)
    · exact Finset.mem_union_right _ new

omit [DecidableEq α] recency in
/-- A condition that newer items meet too commutes with the limits. -/
theorem kept_filter (keep : α → Prop) [DecidablePred keep] (upward : ∀ {a b}, after a b → keep b → keep a) :
    kept group after perGroup total (items.filter keep) = (kept group after perGroup total items).filter keep := by
  have same {list : Finset α} {x : α} (holds : keep x) : newer after (list.filter keep) x = newer after list x := by
    ext y
    rw [mem_newer, mem_newer, Finset.mem_filter]
    exact ⟨fun both => ⟨both.1.1, both.2⟩, fun both => ⟨⟨both.1, upward both.2 holds⟩, both.2⟩⟩
  have short : shortlist group after perGroup (items.filter keep) =
      (shortlist group after perGroup items).filter keep := by
    ext x
    rw [mem_shortlist, Finset.mem_filter, Finset.mem_filter, mem_shortlist]
    constructor
    · rintro ⟨⟨member, holds⟩, few⟩
      rw [newerIn, same holds] at few
      exact ⟨⟨member, few⟩, holds⟩
    · rintro ⟨⟨member, few⟩, holds⟩
      refine ⟨⟨member, holds⟩, ?_⟩
      rw [newerIn, same holds]
      exact few
  ext x
  rw [kept, short, mem_top, Finset.mem_filter, Finset.mem_filter, kept, mem_top]
  constructor
  · rintro ⟨⟨member, holds⟩, few⟩
    rw [same holds] at few
    exact ⟨⟨member, few⟩, holds⟩
  · rintro ⟨⟨member, few⟩, holds⟩
    rw [← same holds] at few
    exact ⟨⟨member, holds⟩, few⟩

end Order

/-! The newest of a list are at its end, if it is sorted. -/

theorem mem_drop_iff [DecidableEq α] {list : List α} (sorted : list.Pairwise fun a b => after b a ∧ ¬ after a b)
    (irrefl : ¬ after x x) :
    x ∈ list.drop (list.length - count) ↔ x ∈ list ∧ (newer after list.toFinset x).card < count := by
  by_cases member : x ∈ list
  · obtain ⟨front, back, rfl⟩ := List.append_of_mem member
    obtain ⟨-, rest, across⟩ := List.pairwise_append.mp sorted
    obtain ⟨later, backSorted⟩ := List.pairwise_cons.mp rest
    have newest : newer after (front ++ x :: back).toFinset x = back.toFinset := by
      ext y
      rw [mem_newer, List.mem_toFinset, List.mem_toFinset, List.mem_append, List.mem_cons]
      constructor
      · rintro ⟨before | rfl | after_, ahead⟩
        · exact absurd ahead (across y before x List.mem_cons_self).2
        · exact absurd ahead irrefl
        · exact after_
      · exact fun inside => ⟨.inr (.inr inside), (later y inside).1⟩
    have distinct : back.Nodup := backSorted.imp fun {a b} ahead same => by
      subst same
      exact ahead.2 ahead.1
    rw [newest, List.toFinset_card_of_nodup distinct]
    have absent : x ∉ back := fun inside => (later x inside).2 (later x inside).1
    rw [List.length_append, List.length_cons]
    by_cases few : back.length < count
    · refine iff_of_true ?_ ⟨member, few⟩
      rw [List.drop_append_of_le_length (by omega)]
      exact List.mem_append_right _ List.mem_cons_self
    · refine iff_of_false (fun inside => absent ?_) fun both => few both.2
      obtain ⟨more, length⟩ : ∃ more, front.length + (back.length + 1) - count = front.length + (more + 1) :=
        ⟨back.length - count, by omega⟩
      rw [length, List.drop_length_add_append, List.drop_succ_cons] at inside
      exact List.mem_of_mem_drop inside
  · exact iff_of_false (fun inside => member (List.mem_of_mem_drop inside)) fun both => member both.1

end Newest
