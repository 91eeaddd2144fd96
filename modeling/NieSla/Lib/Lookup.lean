import Mathlib

/-! Lookups in lists of keyed values. -/
namespace Lookup

variable {κ α β σ : Type*} [BEq κ] [LawfulBEq κ]

theorem lookup_map (f : κ → α → β) (list : List (κ × α)) (k : κ) :
    (list.map fun entry => (entry.1, f entry.1 entry.2)).lookup k = (list.lookup k).map (f k) := by
  induction list with
  | nil => rfl
  | cons entry rest ih =>
      rw [List.map_cons, List.lookup_cons, List.lookup_cons, ih]
      by_cases same : k == entry.1
      · simp [eq_of_beq same]
      · simp [same]

theorem lookup_of_mem {list : List (κ × α)} (distinct : (list.map Prod.fst).Nodup) {k : κ} {a : α}
    (member : (k, a) ∈ list) : list.lookup k = some a := by
  induction list with
  | nil => cases member
  | cons entry rest ih =>
      rw [List.map_cons, List.nodup_cons] at distinct
      rcases List.mem_cons.mp member with same | member
      · subst same
        exact List.lookup_cons_self
      · have other : (k == entry.1) = false := by
          rw [beq_eq_false_iff_ne]
          rintro rfl
          exact distinct.1 (List.mem_map.mpr ⟨_, member, rfl⟩)
        rw [List.lookup_cons, other]
        exact ih distinct.2 member

theorem lookup_eq_none {list : List (κ × α)} {k : κ} (absent : k ∉ list.map Prod.fst) :
    list.lookup k = none := by
  cases found : list.lookup k with
  | none => rfl
  | some a =>
      obtain ⟨before, rest, whole, _⟩ := List.lookup_eq_some_iff.mp found
      exact absurd (by simp [whole]) absent

omit [BEq κ] [LawfulBEq κ]

/-- Related items with their places in the two lists. -/
theorem forall₂_mem {related : σ → α → Prop} {items : List σ} {list : List α}
    (paired : List.Forall₂ related items list) :
    List.Forall₂ (fun item a => related item a ∧ item ∈ items ∧ a ∈ list) items list := by
  induction paired with
  | nil => exact .nil
  | cons head _ ih =>
      refine .cons ⟨head, List.mem_cons_self, List.mem_cons_self⟩ (ih.imp fun item a all => ?_)
      exact ⟨all.1, List.mem_cons_of_mem _ all.2.1, List.mem_cons_of_mem _ all.2.2⟩

theorem forall₂_congr_of_mem {first second : σ → α → Prop} {items : List σ} {list : List α}
    (same : ∀ item ∈ items, ∀ a, first item a ↔ second item a) :
    List.Forall₂ first items list ↔ List.Forall₂ second items list := by
  constructor
  · exact fun paired => (forall₂_mem paired).imp fun item a all => (same item all.2.1 a).mp all.1
  · exact fun paired => (forall₂_mem paired).imp fun item a all => (same item all.2.1 a).mpr all.1

/-- The list holds, in the order of the items, a related value under the key of each item. -/
def Paired (key : σ → κ) (related : σ → α → Prop) (items : List σ) (list : List (κ × α)) : Prop :=
  List.Forall₂ (fun item entry => entry.1 = key item ∧ related item entry.2) items list

variable {key : σ → κ} {related : σ → α → Prop} {items : List σ} {list : List (κ × α)}

theorem Paired.keys (paired : Paired key related items list) : list.map Prod.fst = items.map key := by
  induction paired with
  | nil => rfl
  | cons head _ ih => rw [List.map_cons, List.map_cons, head.1, ih]

theorem Paired.imp {other : σ → α → Prop} (paired : Paired key related items list)
    (imply : ∀ item ∈ items, ∀ a, (key item, a) ∈ list → related item a → other item a) :
    Paired key other items list := by
  refine (forall₂_mem paired).imp fun item entry all => ⟨all.1.1, ?_⟩
  exact imply item all.2.1 entry.2 (all.1.1 ▸ all.2.2) all.1.2

theorem exists_paired (every : ∀ item ∈ items, ∃ a, related item a) :
    ∃ list, Paired key related items list := by
  induction items with
  | nil => exact ⟨[], .nil⟩
  | cons item rest ih =>
      obtain ⟨⟨a, now⟩, others⟩ := List.forall_mem_cons.mp every
      obtain ⟨list, paired⟩ := ih others
      exact ⟨(key item, a) :: list, .cons ⟨rfl, now⟩ paired⟩

theorem Paired.exists_mem (paired : Paired key related items list) {item : σ} (member : item ∈ items) :
    ∃ a, (key item, a) ∈ list ∧ related item a := by
  induction paired with
  | nil => cases member
  | cons head _ ih =>
      rcases List.mem_cons.mp member with rfl | member
      · exact ⟨_, head.1 ▸ List.mem_cons_self, head.2⟩
      · obtain ⟨a, among, fits⟩ := ih member
        exact ⟨a, List.mem_cons_of_mem _ among, fits⟩

end Lookup
