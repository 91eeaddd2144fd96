import NieSla.Lib.Paging

/-! `listStorageEntries`: the entries with a prefix, read page by page from the storage of a Durable Object. -/
namespace NieSla.Telemetry

variable {V : Type}

/-- The options of `storage.list`. -/
structure ListOptions where
  keyPrefix : String
  limit : Nat
  startAfter : Option String
  deriving DecidableEq, Repr

/-- A storage: what it holds, in the order of the keys, and its `list`, which gives the first entries with the prefix
after `startAfter`. -/
structure DurableStorage (V : Type) where
  entries : List (String × V)
  ascending : Paging.Ascending Prod.fst entries
  list : ListOptions → List (String × V)
  list_eq : ∀ options, list options = (Paging.after Prod.fst options.startAfter
    (entries.filter fun entry => options.keyPrefix.toList <+: entry.1.toList)).take options.limit

/-- The entries whose keys have the prefix. -/
def DurableStorage.withPrefix (storage : DurableStorage V) (keyPrefix : String) : List (String × V) :=
  storage.entries.filter fun entry => keyPrefix.toList <+: entry.1.toList

/-- A storage that lists as it holds. -/
def DurableStorage.holding (entries : List (String × V)) (ascending : Paging.Ascending Prod.fst entries) :
    DurableStorage V :=
  ⟨entries, ascending, fun options => (Paging.after Prod.fst options.startAfter
    (entries.filter fun entry => options.keyPrefix.toList <+: entry.1.toList)).take options.limit, fun _ => rfl⟩

/-- No key, and the empty one, count as absent where the code asks for a key. -/
def truthy (key : Option String) : Bool := key.any fun key => key ≠ ""

/-- The loop of `listStorageEntries`; `none` when the fuel runs out. -/
def listPages (storage : DurableStorage V) (keyPrefix : String) (pageLimit : Nat) :
    Nat → Option String → OrderedMap String V → Option (OrderedMap String V)
  | 0, _, _ => none
  | fuel + 1, startAfter, entries =>
      let page := storage.list ⟨keyPrefix, pageLimit, if truthy startAfter then startAfter else none⟩
      let added := Paging.addMissing entries page
      if page.length < pageLimit ∨ added.size = entries.size then some added
      else
        let lastKey := page.getLast?.map Prod.fst
        if ¬truthy lastKey ∨ lastKey = startAfter then some added
        else listPages storage keyPrefix pageLimit fuel lastKey added

/-- `listStorageEntries` comes back with these entries. -/
def ListsEntries (storage : DurableStorage V) (keyPrefix : String) (pageLimit : Nat)
    (result : OrderedMap String V) : Prop :=
  ∃ enough, ∀ fuel, enough ≤ fuel → listPages storage keyPrefix pageLimit fuel none .empty = some result

/-- The empty key ends a page of its own. -/
def EndsAtEmptyKey (storage : DurableStorage V) (keyPrefix : String) (pageLimit : Nat) : Prop :=
  pageLimit = 1 ∧ "" ∈ (storage.withPrefix keyPrefix).map Prod.fst

instance (storage : DurableStorage V) (keyPrefix : String) (pageLimit : Nat) :
    Decidable (EndsAtEmptyKey storage keyPrefix pageLimit) := inferInstanceAs (Decidable (_ ∧ _))

section Listing

variable {storage : DurableStorage V} {keyPrefix : String} {pageLimit : Nat}

theorem ascending_withPrefix : Paging.Ascending Prod.fst (storage.withPrefix keyPrefix) :=
  storage.ascending.filter _

/-- The first page of what is left after a beginning of the listing. -/
theorem list_after {front rest : List (String × V)} (split : storage.withPrefix keyPrefix = front ++ rest) :
    storage.list ⟨keyPrefix, pageLimit, front.getLast?.map Prod.fst⟩ = rest.take pageLimit := by
  have ascending : Paging.Ascending Prod.fst (front ++ rest) := split ▸ ascending_withPrefix
  rw [storage.list_eq, ← DurableStorage.withPrefix, split, Paging.after_getLast ascending]

theorem empty_key_le (key : String) : "" ≤ key :=
  String.le_iff_toList_le.mpr (not_lt.mp (List.not_lt_nil _))

theorem truthy_or_none {key : Option String} (named : key ≠ some "") : (if truthy key then key else none) = key := by
  cases key with
  | none => rfl
  | some key => simp [truthy, Option.some_inj.not.mp named]

theorem not_truthy {key : String} : ¬truthy (some key) ↔ key = "" := by simp [truthy]

/-- What the listing ends with. -/
def listed (storage : DurableStorage V) (keyPrefix : String) (pageLimit : Nat) : List (String × V) :=
  if EndsAtEmptyKey storage keyPrefix pageLimit then (storage.withPrefix keyPrefix).take 1
  else storage.withPrefix keyPrefix

/-- A full page whose last key is empty is a page of one entry, the first of the listing. -/
theorem listed_of_empty_last {front rest : List (String × V)} (split : storage.withPrefix keyPrefix = front ++ rest)
    (full : pageLimit ≤ rest.length) (positive : 1 ≤ pageLimit)
    (open_ : front = [] ∨ ¬EndsAtEmptyKey storage keyPrefix pageLimit) {last : String × V}
    (ends : (rest.take pageLimit).getLast? = some last) (empty : last.1 = "") :
    front ++ rest.take pageLimit = listed storage keyPrefix pageLimit := by
  obtain ⟨before, page⟩ := List.getLast?_eq_some_iff.mp ends
  have ascending : Paging.Ascending Prod.fst (storage.withPrefix keyPrefix) := ascending_withPrefix
  have begins : front ++ rest.take pageLimit <+: storage.withPrefix keyPrefix := by
    rw [split]
    exact List.prefix_append_right_inj front |>.mpr (List.take_prefix _ _)
  have single : front ++ rest.take pageLimit = [last] := by
    refine Paging.eq_singleton_of_last_least (ascending.sublist begins.sublist) ?_ fun item _ => ?_
    · rw [page, ← List.append_assoc, List.getLast?_concat]
    · rw [empty]
      exact empty_key_le item.1
  have one : pageLimit = 1 := by
    have lengths := congrArg List.length single
    simp only [List.length_append, List.length_take, List.length_singleton] at lengths
    omega
  have member : last ∈ storage.withPrefix keyPrefix := begins.subset (by simp [single])
  have ends_ : EndsAtEmptyKey storage keyPrefix pageLimit := ⟨one, List.mem_map.mpr ⟨last, member, empty⟩⟩
  have start : front = [] := open_.resolve_right (not_not.mpr ends_)
  rw [listed, if_pos ends_, split, start, one, List.nil_append, List.nil_append]

/-- Where the empty key ends a page, it is the key of the first entry. -/
theorem first_of_endsAtEmptyKey (ends_ : EndsAtEmptyKey storage keyPrefix pageLimit) :
    ∃ value rest, storage.withPrefix keyPrefix = ("", value) :: rest := by
  obtain ⟨entry, member, empty⟩ := List.mem_map.mp ends_.2
  cases held : storage.withPrefix keyPrefix with
  | nil => simp [held] at member
  | cons first rest =>
      have ascending : Paging.Ascending Prod.fst (first :: rest) := held ▸ ascending_withPrefix
      rw [held] at member
      obtain rfl | later := List.mem_cons.mp member
      · exact ⟨entry.2, rest, by rw [← empty]⟩
      · have lt := (List.pairwise_cons.mp ascending).1 entry later
        rw [empty] at lt
        exact absurd (empty_key_le first.1) (not_le.mpr lt)

theorem listPages_from (positive : 1 ≤ pageLimit) {fuel : Nat} (front rest : List (String × V))
    (split : storage.withPrefix keyPrefix = front ++ rest)
    (open_ : front = [] ∨ ¬EndsAtEmptyKey storage keyPrefix pageLimit)
    (named : front.getLast?.map Prod.fst ≠ some "") (entries : OrderedMap String V) (held : entries.entries = front)
    (enough : rest.length < fuel) :
    ∃ result, listPages storage keyPrefix pageLimit fuel (front.getLast?.map Prod.fst) entries = some result ∧
      result.entries = listed storage keyPrefix pageLimit := by
  induction fuel generalizing front rest entries with
  | zero => omega
  | succ fuel ih =>
      have ascending : Paging.Ascending Prod.fst (storage.withPrefix keyPrefix) := ascending_withPrefix
      have begins : front ++ rest.take pageLimit <+: storage.withPrefix keyPrefix := by
        rw [split]
        exact List.prefix_append_right_inj front |>.mpr (List.take_prefix _ _)
      have added : (Paging.addMissing entries (rest.take pageLimit)).entries = front ++ rest.take pageLimit := by
        rw [Paging.entries_addMissing, held]
        rw [held]
        exact Paging.nodup_keys (ascending.sublist begins.sublist)
      simp only [listPages, truthy_or_none named, list_after split]
      by_cases short : rest.length < pageLimit
      · have all : rest.take pageLimit = rest := List.take_of_length_le short.le
        rw [if_pos (.inl (by rwa [all]))]
        refine ⟨_, rfl, ?_⟩
        rw [added, all, ← split, listed, if_neg]
        intro ends_
        have start : front = [] := open_.resolve_right (not_not.mpr ends_)
        have nothing : rest = [] := List.eq_nil_of_length_eq_zero (by have := ends_.1; omega)
        simpa [split, start, nothing] using ends_.2
      · have full : pageLimit ≤ rest.length := not_lt.mp short
        have grown : ¬((rest.take pageLimit).length < pageLimit ∨
            (Paging.addMissing entries (rest.take pageLimit)).size = entries.size) := by
          simp only [OrderedMap.size, added, held, List.length_append, List.length_take]
          omega
        obtain ⟨last, ends⟩ : ∃ last, (rest.take pageLimit).getLast? = some last := by
          refine ⟨_, List.getLast?_eq_some_getLast (List.ne_nil_of_length_pos ?_)⟩
          rw [List.length_take]
          omega
        have ends' : (front ++ rest.take pageLimit).getLast? = some last := by
          rw [List.getLast?_append, ends, Option.some_or]
        rw [if_neg grown, ends, Option.map_some]
        by_cases empty : last.1 = ""
        · rw [if_pos (.inl (not_truthy.mpr empty))]
          exact ⟨_, rfl, added.trans (listed_of_empty_last split full positive open_ ends empty)⟩
        · have onward : ¬(¬truthy (some last.1) ∨ some last.1 = front.getLast?.map Prod.fst) := by
            rintro (absent | same)
            · exact empty (not_truthy.mp absent)
            · obtain ⟨before, front_ends, keys⟩ := Option.map_eq_some_iff.mp same.symm
              have sorted := ascending.sublist begins.sublist
              have lt := (List.pairwise_append.mp sorted).2.2 before (List.mem_of_getLast? front_ends) last
                (List.mem_of_getLast? ends)
              exact absurd keys lt.ne
          rw [if_neg onward]
          have next := ih (front ++ rest.take pageLimit) (rest.drop pageLimit)
            (by rw [List.append_assoc, List.take_append_drop, split]) ?_ ?_ _ added ?_
          · rwa [ends', Option.map_some] at next
          · refine .inr fun ends_ => empty ?_
            obtain ⟨value, others, first⟩ := first_of_endsAtEmptyKey ends_
            rw [open_.resolve_right (not_not.mpr ends_), List.nil_append, first] at split
            rw [← split, ends_.1] at ends
            cases ends
            rfl
          · rw [ends', Option.map_some]
            exact fun same => empty (Option.some_inj.mp same)
          · rw [List.length_drop]
            omega

/-- With more fuel than entries the loop comes back. -/
theorem listPages_all (storage : DurableStorage V) (keyPrefix : String) (positive : 1 ≤ pageLimit) {fuel : Nat}
    (enough : (storage.withPrefix keyPrefix).length < fuel) :
    ∃ result, listPages storage keyPrefix pageLimit fuel none .empty = some result ∧
      result.entries = listed storage keyPrefix pageLimit :=
  listPages_from positive [] (storage.withPrefix keyPrefix) rfl (.inl rfl) nofun .empty rfl enough

theorem ext_entries {first second : OrderedMap String V} (same : first.entries = second.entries) : first = second := by
  cases first
  cases second
  cases same
  rfl

/-- `listStorageEntries` comes back with every entry that has the prefix, once and in the order of the keys; but where
the empty key ends a page, with the entry of that key only. -/
theorem listStorageEntries_complete (storage : DurableStorage V) (keyPrefix : String) {pageLimit : Nat}
    (positive : 1 ≤ pageLimit) :
    ∃ result, ListsEntries storage keyPrefix pageLimit result ∧
      result.entries = listed storage keyPrefix pageLimit := by
  obtain ⟨result, _, entries⟩ := listPages_all storage keyPrefix positive (Nat.lt_succ_self _)
  refine ⟨result, ⟨(storage.withPrefix keyPrefix).length + 1, fun fuel enough => ?_⟩, entries⟩
  obtain ⟨other, found, same⟩ := listPages_all storage keyPrefix positive enough
  rw [found, ext_entries (same.trans entries.symm)]

theorem ascending_chunkKeys :
    Paging.Ascending Prod.fst [("chunk:a", 1), ("chunk:b", 2), ("chunk:c", 3), ("hour:a", 4)] := by decide +kernel

/-- Three chunks and another key. -/
def chunkKeys : DurableStorage Nat := .holding _ ascending_chunkKeys

/-- Three chunks in pages of two. -/
theorem listStorageEntries_complete_chunks :
    1 ≤ 2 ∧ ∃ result, ListsEntries chunkKeys "chunk:" 2 result ∧
      result.entries = [("chunk:a", 1), ("chunk:b", 2), ("chunk:c", 3)] :=
  have listed_ : listed chunkKeys "chunk:" 2 = [("chunk:a", 1), ("chunk:b", 2), ("chunk:c", 3)] := by decide +kernel
  ⟨by decide, listed_ ▸ listStorageEntries_complete chunkKeys "chunk:" (by decide)⟩

theorem ascending_emptyKeyFirst : Paging.Ascending Prod.fst [("", 1), ("a", 2)] := by decide +kernel

def emptyKeyFirst : DurableStorage Nat := .holding _ ascending_emptyKeyFirst

/-- Of the empty key and another, read one at a time, the other is missing. -/
theorem empty_key_stops_listing :
    ¬∃ result, ListsEntries emptyKeyFirst "" 1 result ∧ result.entries = emptyKeyFirst.withPrefix "" := by
  rintro ⟨result, ⟨enough, comes⟩, all⟩
  obtain ⟨other, found, entries⟩ := listPages_all emptyKeyFirst "" (show 1 ≤ 1 from le_rfl)
    (Nat.lt_of_lt_of_le (Nat.lt_succ_self _) (Nat.le_max_left _ enough))
  rw [comes _ (Nat.le_max_right _ _), Option.some_inj] at found
  rw [← found, all] at entries
  exact absurd entries (by decide +kernel)

end Listing

end NieSla.Telemetry
