import Mathlib

/-! First-in first-out queues that remember why each entry has left. Entries are numbered in the
order in which they came; only the front leaves, so the entries that have left are the first ones. -/
namespace Lib

/-- A copy of some entries of a queue, with the number of its first one. -/
structure Copied (α : Type*) where
  first : Nat
  items : List α
deriving DecidableEq

inductive Cause (α : Type*) where
  | evicted
  | acknowledged (batch : Copied α)
deriving DecidableEq

structure Fifo (α : Type*) where
  entered : List α
  left : List (Cause α)
  within : left.length ≤ entered.length

namespace Fifo

variable {α : Type*}

/-- The entries that are in the queue. -/
def entries (queue : Fifo α) : List α := queue.entered.drop queue.left.length

def holding (items : List α) : Fifo α := ⟨items, [], Nat.zero_le _⟩

def push (item : α) (queue : Fifo α) : Fifo α where
  entered := queue.entered ++ [item]
  left := queue.left
  within := by
    rw [List.length_append]
    exact Nat.le_add_right_of_le queue.within

/-- The first `count` entries leave, or all when there are fewer. -/
def leave (cause : Cause α) (count : Nat) (queue : Fifo α) : Fifo α where
  entered := queue.entered
  left := queue.left ++ List.replicate (min count queue.entries.length) cause
  within := by
    have := queue.within
    simp only [entries, List.length_append, List.length_replicate, List.length_drop]
    omega

def copy (count : Nat) (queue : Fifo α) : Copied α :=
  ⟨queue.left.length, queue.entries.take count⟩

@[simp] theorem entries_holding (items : List α) : (holding items).entries = items := rfl

@[simp] theorem entries_push (item : α) (queue : Fifo α) :
    (queue.push item).entries = queue.entries ++ [item] :=
  List.drop_append_of_le_length queue.within

@[simp] theorem entries_leave (cause : Cause α) (count : Nat) (queue : Fifo α) :
    (queue.leave cause count).entries = queue.entries.drop count := by
  simp only [entries, leave, List.length_append, List.length_replicate, List.length_drop,
    List.drop_drop]
  by_cases few : count ≤ queue.entered.length - queue.left.length
  · rw [Nat.min_eq_left few]
  · rw [List.drop_eq_nil_of_le (by omega), List.drop_eq_nil_of_le (by omega)]

end Fifo

/-- The entry with this number is in the batch. -/
def Copied.Holds {α : Type*} (batch : Copied α) (number : Nat) (item : α) : Prop :=
  batch.first ≤ number ∧ batch.items[number - batch.first]? = some item

namespace Fifo

variable {α : Type*} {queue : Fifo α} {batch : Copied α}

/-- Each entry that has left was evicted, or was in the batch that was acknowledged. -/
def Accounted (queue : Fifo α) : Prop :=
  ∀ number (batch : Copied α) item, queue.left[number]? = some (.acknowledged batch) →
    queue.entered[number]? = some item → batch.Holds number item

/-- The batch holds entries of the queue under their numbers. -/
def Copies (queue : Fifo α) (batch : Copied α) : Prop :=
  ∀ index item, batch.items[index]? = some item →
    queue.entered[batch.first + index]? = some item

/-- Nothing has left the queue since the batch was copied, or the batch is empty. -/
def Unmoved (queue : Fifo α) (batch : Copied α) : Prop :=
  batch.items.length = 0 ∨ queue.left.length = batch.first

instance (queue : Fifo α) (batch : Copied α) : Decidable (queue.Unmoved batch) :=
  inferInstanceAs (Decidable (_ ∨ _))

theorem accounted_holding (items : List α) : (holding items).Accounted := by
  intro number batch item gone
  simp [holding] at gone

theorem Accounted.push (accounted : queue.Accounted) (item : α) : (queue.push item).Accounted := by
  intro number batch other gone here
  have before : number < queue.entered.length := by
    have := (List.getElem?_eq_some_iff.mp gone).1
    exact Nat.lt_of_lt_of_le this queue.within
  rw [Fifo.push, List.getElem?_append_left before] at here
  exact accounted number batch other gone here

theorem Accounted.evict (accounted : queue.Accounted) (count : Nat) :
    (queue.leave .evicted count).Accounted := by
  intro number batch item gone here
  apply accounted number batch item _ here
  simp only [leave, List.getElem?_append] at gone
  split at gone
  · exact gone
  · simp [List.getElem?_replicate] at gone

theorem copies_copy (queue : Fifo α) (count : Nat) : queue.Copies (queue.copy count) := by
  intro index item here
  have bound := (List.getElem?_eq_some_iff.mp here).1
  rw [copy, List.getElem?_take_of_lt (by simp [copy] at bound; omega), entries,
    List.getElem?_drop] at here
  exact here

theorem Copies.push (copies : queue.Copies batch) (item : α) : (queue.push item).Copies batch := by
  intro index other here
  have found := copies index other here
  rw [Fifo.push, List.getElem?_append_left (List.getElem?_eq_some_iff.mp found).1]
  exact found

theorem Copies.leave (copies : queue.Copies batch) (cause : Cause α) (count : Nat) :
    (queue.leave cause count).Copies batch :=
  copies

/-- An acknowledgement of a batch that is still at the front removes entries of that batch. -/
theorem Accounted.acknowledge (accounted : queue.Accounted) (copies : queue.Copies batch)
    (unmoved : queue.Unmoved batch) :
    (queue.leave (.acknowledged batch) batch.items.length).Accounted := by
  intro number other item gone here
  simp only [Fifo.leave, List.getElem?_append] at gone
  split at gone
  · exact accounted number other item gone here
  · rename_i later
    rw [List.getElem?_replicate] at gone
    split at gone
    case isFalse => cases gone
    rename_i inside
    cases gone
    have bound : number - queue.left.length < batch.items.length := by omega
    have front : queue.left.length = batch.first := by
      cases unmoved with
      | inl empty => omega
      | inr front => exact front
    rw [front] at bound later
    have copied := copies _ _ (List.getElem?_eq_getElem bound)
    rw [Nat.add_sub_cancel' (by omega)] at copied
    refine ⟨by omega, ?_⟩
    rw [List.getElem?_eq_getElem bound, ← copied]
    exact here

end Fifo

end Lib
