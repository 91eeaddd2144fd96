import Mathlib

/-! A list that is filtered and rewritten in place: one index reads, another writes behind it, and at
the end the list is cut where the writing stopped. -/
namespace Lib

variable {σ τ α β : Type*}

/-- What the turns keep of a list, one item after the other. -/
def keepFrom (turn : σ → α → σ × Option α) : σ → List α → σ × List α
  | state, [] => (state, [])
  | state, item :: rest =>
      let (next, kept) := turn state item
      let (last, others) := keepFrom turn next rest
      (last, kept.toList ++ others)

/-- The loop, with the number of items that are still to be read. -/
def compactLoop (turn : σ → α → σ × Option α) :
    Nat → List α → Nat → Nat → σ → σ × List α
  | 0, items, _, writeIndex, state => (state, items.take writeIndex)
  | remaining + 1, items, index, writeIndex, state =>
      match items[index]? with
      | none => (state, items.take writeIndex)
      | some item =>
          match turn state item with
          | (next, none) => compactLoop turn remaining items (index + 1) writeIndex next
          | (next, some kept) =>
              compactLoop turn remaining (items.set writeIndex kept) (index + 1) (writeIndex + 1) next

def compact (turn : σ → α → σ × Option α) (state : σ) (items : List α) : σ × List α :=
  compactLoop turn items.length items 0 0 state

section Loop

variable {turn : σ → α → σ × Option α}

theorem take_set_succ {items : List α} {index : Nat} (inside : index < items.length) (item : α) :
    (items.set index item).take (index + 1) = items.take index ++ [item] := by
  rw [List.take_succ_eq_append_getElem (by simpa using inside), List.getElem_set_self,
    List.take_set_of_le le_rfl]

/-- The writing stays behind the reading, so that nothing is overwritten before it is read. -/
theorem compactLoop_eq (remaining : Nat) (items : List α) (index writeIndex : Nat) (state : σ)
    (behind : writeIndex ≤ index) (left : index + remaining = items.length) :
    compactLoop turn remaining items index writeIndex state =
      ((keepFrom turn state (items.drop index)).1,
        items.take writeIndex ++ (keepFrom turn state (items.drop index)).2) := by
  induction remaining generalizing items index writeIndex state with
  | zero =>
      rw [List.drop_of_length_le (by omega)]
      simp [compactLoop, keepFrom]
  | succ remaining ih =>
      have inside : index < items.length := by omega
      rw [compactLoop, List.getElem?_eq_getElem inside, List.drop_eq_getElem_cons inside]
      simp only [keepFrom]
      cases result : turn state items[index] with
      | mk next kept =>
          cases kept with
          | none =>
              simp only
              rw [ih items (index + 1) writeIndex next (by omega) (by omega)]
              rfl
          | some kept =>
              simp only
              rw [ih (items.set writeIndex kept) (index + 1) (writeIndex + 1) next (by omega)
                (by rw [List.length_set]; omega), List.drop_set_of_lt (by omega),
                take_set_succ (by omega)]
              simp

/-- In place or not, the same is kept. -/
theorem compact_eq (state : σ) (items : List α) :
    compact turn state items = keepFrom turn state items := by
  rw [compact, compactLoop_eq _ _ _ _ _ le_rfl (Nat.zero_add _)]
  simp

end Loop

/-- Turns that agree on a view of the state and of the items keep the same of it. -/
theorem keepFrom_map {turn : σ → α → σ × Option α} {view : τ → β → τ × Option β} (f : σ → τ) (g : α → β)
    (same : ∀ state item, view (f state) (g item) =
      (f (turn state item).1, (turn state item).2.map g)) (state : σ) (items : List α) :
    keepFrom view (f state) (items.map g) =
      (f (keepFrom turn state items).1, (keepFrom turn state items).2.map g) := by
  induction items generalizing state with
  | nil => rfl
  | cons item rest ih =>
      simp only [List.map_cons, keepFrom, same, ih, List.map_append]
      cases (turn state item).2 <;> rfl

/-- The rule for what holds of the items that are kept and of those still ahead. -/
theorem keepFrom_invariant {turn : σ → α → σ × Option α} (inv : σ → List α → Prop)
    (keep : ∀ state done item rest, inv state (done ++ item :: rest) →
      inv (turn state item).1 (done ++ ((turn state item).2.toList ++ rest)))
    {state : σ} {items : List α} (initial : inv state items) :
    inv (keepFrom turn state items).1 (keepFrom turn state items).2 := by
  suffices along : ∀ done, inv state (done ++ items) →
      inv (keepFrom turn state items).1 (done ++ (keepFrom turn state items).2) from along [] initial
  clear initial
  induction items generalizing state with
  | nil => exact fun _ => id
  | cons item rest ih =>
      intro done now
      have next := keep state done item rest now
      rw [← List.append_assoc] at next
      have last := ih _ next
      rwa [List.append_assoc] at last

end Lib
