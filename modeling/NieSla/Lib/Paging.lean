import NieSla.Lib.OrderedMap

/-! Pages of a list in ascending key order: what comes after the last key of a beginning of the list is the rest of
it, and the pages collected in a map are that list again. -/
namespace Paging

variable {κ α β : Type*}

section After

variable [LinearOrder κ] {key : α → κ}

def Ascending (key : α → κ) (items : List α) : Prop := items.Pairwise fun first second => key first < key second

instance (items : List α) : Decidable (Ascending key items) := inferInstanceAs (Decidable (List.Pairwise _ _))

/-- The items after the key, all of them without one. -/
def after (key : α → κ) (start : Option κ) (items : List α) : List α :=
  items.filter fun item => start.all fun bound => bound < key item

theorem after_none (items : List α) : after key none items = items :=
  List.filter_eq_self.mpr fun _ _ => rfl

theorem le_getLast {front : List α} (ascending : Ascending key front) {last : α} (ends : front.getLast? = some last) :
    ∀ item ∈ front, key item ≤ key last := by
  obtain ⟨rest, rfl⟩ := List.getLast?_eq_some_iff.mp ends
  intro item member
  obtain early | late := List.mem_append.mp member
  · exact ((List.pairwise_append.mp ascending).2.2 item early last List.mem_cons_self).le
  · rw [List.mem_singleton.mp late]

theorem after_getLast {front rest : List α} (ascending : Ascending key (front ++ rest)) :
    after key (front.getLast?.map key) (front ++ rest) = rest := by
  obtain ⟨sorted, _, between⟩ := List.pairwise_append.mp ascending
  cases ends : front.getLast? with
  | none =>
      rw [List.getLast?_eq_none_iff.mp ends]
      exact after_none rest
  | some last =>
      have dropped : front.filter (fun item => decide (key last < key item)) = [] :=
        List.filter_eq_nil_iff.mpr fun item member => by simpa using le_getLast sorted ends item member
      have kept : rest.filter (fun item => decide (key last < key item)) = rest :=
        List.filter_eq_self.mpr fun item member => by
          simpa using between last (List.mem_of_getLast? ends) item member
      simp [after, dropped, kept]

theorem nodup_keys {items : List α} (ascending : Ascending key items) : (items.map key).Nodup :=
  List.pairwise_map.mpr (ascending.imp fun lt => lt.ne)

/-- A least key can only be the last of one item. -/
theorem eq_singleton_of_last_least {items : List α} (ascending : Ascending key items) {last : α}
    (ends : items.getLast? = some last) (least : ∀ item ∈ items, key last ≤ key item) : items = [last] := by
  obtain ⟨rest, rfl⟩ := List.getLast?_eq_some_iff.mp ends
  cases rest with
  | nil => rfl
  | cons first rest =>
      have lt := (List.pairwise_append.mp ascending).2.2 first List.mem_cons_self last List.mem_cons_self
      exact absurd (least first (by simp)) (not_le.mpr lt)

end After

section Collected

variable [DecidableEq κ]

/-- Adds the entries whose keys the map does not have. -/
def addMissing (map : OrderedMap κ β) (page : List (κ × β)) : OrderedMap κ β :=
  page.foldl (fun map entry => if entry.1 ∈ map.keys then map else map.set entry.1 entry.2) map

theorem entries_addMissing {map : OrderedMap κ β} {page : List (κ × β)}
    (distinct : ((map.entries ++ page).map Prod.fst).Nodup) : (addMissing map page).entries = map.entries ++ page := by
  induction page generalizing map with
  | nil => simp [addMissing]
  | cons entry page ih =>
      have fresh : entry.1 ∉ map.keys := by
        rw [List.map_append, List.map_cons] at distinct
        exact fun member => (List.nodup_append.mp distinct).2.2 _ member _ List.mem_cons_self rfl
      have written : (map.set entry.1 entry.2).entries = map.entries ++ [entry] :=
        OrderedMap.entries_set_of_not_mem map entry.2 fresh
      have step : addMissing map (entry :: page) = addMissing (map.set entry.1 entry.2) page := by
        simp only [addMissing, List.foldl_cons, if_neg fresh]
      rw [step, ih (by rwa [written, List.append_assoc]), written, List.append_assoc]
      rfl

end Collected

end Paging
