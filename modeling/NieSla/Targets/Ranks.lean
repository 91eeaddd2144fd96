import NieSla.Targets.Order

/-! A rank that is asked for is the rank that is had, unless it is the number stored already. -/
namespace NieSla.Targets

section Unique

variable {κ : Type*} [LinearOrder κ] {ties : String ↪ κ} {rows : List Target}

theorem sorted_orderBy (rows : List Target) :
    (orderBy ties rows).Pairwise fun first second => sortKey ties first ≤ sortKey ties second :=
  have : Std.Total fun first second => sortKey ties first ≤ sortKey ties second :=
    ⟨fun _ _ => le_total _ _⟩
  have : IsTrans Target fun first second => sortKey ties first ≤ sortKey ties second :=
    ⟨fun _ _ _ => le_trans⟩
  List.pairwise_insertionSort _ rows

theorem perm_orderBy (rows : List Target) : (orderBy ties rows).Perm rows :=
  List.perm_insertionSort _ rows

theorem perm_listedIds (rows : List Target) : (listedIds ties rows).Perm (rows.map Target.id) :=
  (perm_orderBy rows).map Target.id

omit [LinearOrder κ] in
/-- The last part of the key tells all rows apart. -/
theorem sortKey_injective {first second : Target} (same : sortKey ties first = sortKey ties second) :
    first.id = second.id := by
  simp only [sortKey, EmbeddingLike.apply_eq_iff_eq, Prod.mk.injEq] at same
  exact same.2.2.2.2

/-- There is one listing of a table. -/
theorem orderBy_eq (nodup : (rows.map Target.id).Nodup) {listed : List Target} (perm : listed.Perm rows)
    (sorted : listed.Pairwise fun first second => sortKey ties first ≤ sortKey ties second) :
    orderBy ties rows = listed := by
  refine List.Perm.eq_of_pairwise ?_ (sorted_orderBy rows) sorted ((perm_orderBy rows).trans perm.symm)
  intro first second one two le ge
  exact List.inj_on_of_nodup_map nodup ((perm_orderBy rows).mem_iff.mp one) (perm.mem_iff.mp two)
    (sortKey_injective (le_antisymm le ge))

/-- The others are listed as if they were alone. -/
theorem filter_orderBy (nodup : (rows.map Target.id).Nodup) (p : Target → Bool) :
    (orderBy ties rows).filter p = orderBy ties (rows.filter p) :=
  (orderBy_eq ((List.filter_sublist.map _).nodup nodup) ((perm_orderBy rows).filter p)
    ((sorted_orderBy rows).filter p)).symm

end Unique

section Writing

variable {ids : List String} {rows : List Target}

/-- The row with the place of its id. -/
def ranked (ids : List String) (offset : ℕ) (row : Target) : Target :=
  if row.id ∈ ids then { row with sortOrder := some ((offset + ids.idxOf row.id : ℕ) : ℤ) } else row

theorem foldl_setSortOrder (nodup : ids.Nodup) (offset : ℕ) (rows : List Target) :
    (ids.zipIdx offset).foldl (fun rows (entry : String × ℕ) => setSortOrder rows entry.2 entry.1) rows =
      rows.map (ranked ids offset) := by
  induction ids generalizing offset rows with
  | nil =>
      have same : ranked [] offset = id := by
        funext row
        simp [ranked]
      simp [same]
  | cons id rest ih =>
      obtain ⟨absent, others⟩ := List.nodup_cons.mp nodup
      rw [List.zipIdx_cons, List.foldl_cons, ih others, setSortOrder, List.map_map]
      refine List.map_congr_left fun row _ => ?_
      dsimp only [Function.comp_apply]
      by_cases same : row.id = id
      · subst same
        simp [ranked, absent]
      · have ne : id ≠ row.id := Ne.symm same
        simp only [ranked, same, if_false, List.mem_cons, false_or, List.idxOf_cons_ne _ ne]
        split
        · simp only [Target.mk.injEq, true_and, Option.some.injEq]
          omega
        · rfl

/-- The batches, one after the other, are all the statements. -/
theorem foldl_writeBatch (batches : ℕ) :
    (List.range batches).foldl (writeBatch ids) rows =
      ((ids.take (50 * batches)).zipIdx 0).foldl
        (fun rows (entry : String × ℕ) => setSortOrder rows entry.2 entry.1) rows := by
  induction batches with
  | zero => simp
  | succ batches ih =>
      rw [List.range_succ, List.foldl_append, ih, Nat.mul_succ, List.take_add, List.zipIdx_append,
        List.foldl_append]
      by_cases inside : 50 * batches ≤ ids.length
      · rw [List.length_take_of_le inside]
        simp [writeBatch]
      · have empty : ids.drop (50 * batches) = [] := List.drop_eq_nil_of_le (by omega)
        simp [writeBatch, empty]

theorem writeOrders_eq (nodup : ids.Nodup) : writeOrders ids rows = rows.map (ranked ids 0) := by
  have all : ids.take (50 * ((ids.length + 49) / 50)) = ids := List.take_of_length_le (by omega)
  rw [writeOrders, foldl_writeBatch, all, foldl_setSortOrder nodup]

end Writing

/-- Stored numbers that rise with the listing, so that no two are the same. -/
def Increasing (listed : List Target) : Prop :=
  listed.Pairwise fun first second => ∃ low high, first.sortOrder = some low ∧
    second.sortOrder = some high ∧ low < high

section Ranked

variable {κ : Type*} [LinearOrder κ] {ties : String ↪ κ} {ids : List String} {rows : List Target}

theorem le_of_sortKey_le {first second : Target} (le : sortKey ties first ≤ sortKey ties second)
    {low high : ℤ} (one : first.sortOrder = some low) (two : second.sortOrder = some high) :
    low ≤ high := by
  simp only [sortKey, one, two, Prod.Lex.toLex_le_toLex, Option.isNone_some, lt_self_iff_false,
    false_or, true_and, Option.getD_some] at le
  rcases le with lt | ⟨rfl, -⟩
  · exact lt.le
  · exact le_rfl

theorem pairwise_idxOf (nodup : ids.Nodup) : ids.Pairwise fun first second =>
    ids.idxOf first < ids.idxOf second := by
  rw [List.pairwise_iff_getElem]
  intro first second one two before
  rwa [nodup.idxOf_getElem, nodup.idxOf_getElem]

/-- Every row has the place of its id. -/
theorem sortOrder_writeOrders (perm : ids.Perm (rows.map Target.id)) (nodup : ids.Nodup) {row : Target}
    (member : row ∈ writeOrders ids rows) :
    row.id ∈ ids ∧ row.sortOrder = some ((ids.idxOf row.id : ℕ) : ℤ) := by
  rw [writeOrders_eq nodup] at member
  obtain ⟨old, given, rfl⟩ := List.mem_map.mp member
  have inside : old.id ∈ ids := perm.mem_iff.mpr (List.mem_map_of_mem given)
  simp [ranked, inside]

/-- The ids are listed as they are written, and the numbers rise with them. -/
theorem listedIds_writeOrders (perm : ids.Perm (rows.map Target.id)) (nodup : ids.Nodup) :
    listedIds ties (writeOrders ids rows) = ids ∧ Increasing (orderBy ties (writeOrders ids rows)) := by
  have stored {row : Target} (member : row ∈ orderBy ties (writeOrders ids rows)) :
      row.id ∈ ids ∧ row.sortOrder = some ((ids.idxOf row.id : ℕ) : ℤ) :=
    sortOrder_writeOrders perm nodup ((perm_orderBy _).mem_iff.mp member)
  have sameIds : (listedIds ties (writeOrders ids rows)).Perm ids := by
    rw [(perm_listedIds _).congr_left, ids_writeOrders]
    exact perm.symm
  have listed : listedIds ties (writeOrders ids rows) = ids := by
    have sorted : (listedIds ties (writeOrders ids rows)).Pairwise
        fun first second => ids.idxOf first ≤ ids.idxOf second := by
      refine List.pairwise_map.mpr ((sorted_orderBy _).imp_of_mem fun one two le => ?_)
      exact Int.ofNat_le.mp (le_of_sortKey_le le (stored one).2 (stored two).2)
    refine sameIds.eq_of_pairwise ?_ sorted ((pairwise_idxOf nodup).imp Nat.le_of_lt)
    intro first second one two le ge
    exact (List.idxOf_inj (sameIds.mem_iff.mp one)).mp (Nat.le_antisymm le ge)
  refine ⟨listed, ?_⟩
  have rising := pairwise_idxOf nodup
  rw [← listed, listedIds, List.pairwise_map] at rising
  rw [← listedIds, listed] at rising
  exact rising.imp_of_mem fun one two lt =>
    ⟨_, _, (stored one).2, (stored two).2, Int.ofNat_lt.mpr lt⟩

/-- What the first two parts of the key say of a cell. -/
def cellKey (cell : String × Option ℤ) : Bool ×ₗ ℤ := toLex (cell.2.isNone, cell.2.getD 0)

theorem cellKey_injective {first second : String × Option ℤ} (same : cellKey first = cellKey second) :
    first.2 = second.2 := by
  simp only [cellKey, EmbeddingLike.apply_eq_iff_eq, Prod.mk.injEq] at same
  cases one : first.2 <;> cases two : second.2 <;> simp_all

theorem cellKey_le_of_sortKey_le {first second : Target} (le : sortKey ties first ≤ sortKey ties second) :
    cellKey (first.id, first.sortOrder) ≤ cellKey (second.id, second.sortOrder) := by
  simp only [sortKey, cellKey, Prod.Lex.toLex_le_toLex] at le ⊢
  rcases le with lt | ⟨same, lt | ⟨equal, -⟩⟩
  · exact .inl lt
  · exact .inr ⟨same, lt.le⟩
  · exact .inr ⟨same, equal.le⟩

/-- Where the numbers rise, the names have no say. -/
theorem cells_orderBy {others : List Target}
    (same : others.map (fun row => (row.id, row.sortOrder)) = rows.map fun row => (row.id, row.sortOrder))
    (increasing : Increasing (orderBy ties rows)) :
    (orderBy ties others).map (fun row => (row.id, row.sortOrder)) =
      (orderBy ties rows).map fun row => (row.id, row.sortOrder) := by
  set cell : Target → String × Option ℤ := fun row => (row.id, row.sortOrder)
  have perm : ((orderBy ties others).map cell).Perm ((orderBy ties rows).map cell) := by
    have one : ((orderBy ties others).map cell).Perm (others.map cell) := (perm_orderBy others).map cell
    rw [same] at one
    exact one.trans ((perm_orderBy rows).map cell).symm
  have distinct : (((orderBy ties rows).map cell).map Prod.snd).Nodup := by
    rw [List.map_map]
    refine List.pairwise_map.mpr (increasing.imp ?_)
    intro first second ⟨low, high, one, two, lt⟩ equal
    have values : some low = some high := one.symm.trans (equal.trans two)
    exact lt.ne (Option.some.inj values)
  have sorted (rows : List Target) : ((orderBy ties rows).map cell).Pairwise
      fun first second => cellKey first ≤ cellKey second :=
    List.pairwise_map.mpr ((sorted_orderBy rows).imp cellKey_le_of_sortKey_le)
  refine perm.eq_of_pairwise ?_ (sorted others) (sorted rows)
  intro first second one two le ge
  exact List.inj_on_of_nodup_map distinct (perm.mem_iff.mp one) two
    (cellKey_injective (le_antisymm le ge))

theorem ids_of_cells {first second : List Target}
    (same : first.map (fun row => (row.id, row.sortOrder)) = second.map fun row => (row.id, row.sortOrder)) :
    first.map Target.id = second.map Target.id := by
  have ids := congrArg (List.map Prod.fst) same
  rwa [List.map_map, List.map_map] at ids

theorem increasing_of_cells {first second : List Target}
    (same : first.map (fun row => (row.id, row.sortOrder)) = second.map fun row => (row.id, row.sortOrder))
    (increasing : Increasing second) : Increasing first := by
  have numbers := congrArg (List.map Prod.snd) same
  rw [List.map_map, List.map_map] at numbers
  have rising : (second.map Target.sortOrder).Pairwise fun one two => ∃ low high, one = some low ∧
      two = some high ∧ low < high := List.pairwise_map.mpr increasing
  exact List.pairwise_map.mp (numbers ▸ rising)

end Ranked

section Update

variable {κ : Type*} [LinearOrder κ] {ties : String ↪ κ} {table : Table} {id name groupName : String}

theorem cells_rename (rows : List Target) :
    (rename id name groupName rows).map (fun row => (row.id, row.sortOrder)) =
      rows.map fun row => (row.id, row.sortOrder) := by
  rw [rename, List.map_map]
  refine List.map_congr_left fun row _ => ?_
  dsimp only [Function.comp_apply]
  split <;> rfl

theorem filter_rename (rows : List Target) :
    (rename id name groupName rows).filter (fun row => row.id ≠ id) = rows.filter fun row => row.id ≠ id := by
  induction rows with
  | nil => rfl
  | cons row rest ih =>
      simp only [rename, List.map_cons] at ih ⊢
      by_cases same : row.id = id
      · simpa [same] using ih
      · simpa [same] using ih

/-- The others are listed as before, under whatever name the target has now. -/
theorem listedIds_rename (nodup : (table.rows.map Target.id).Nodup) :
    (listedIds ties (rename id name groupName table.rows)).filter (· ≠ id) =
      (listedIds ties table.rows).filter (· ≠ id) := by
  have alone {rows : List Target} (nodup : (rows.map Target.id).Nodup) :
      (listedIds ties rows).filter (· ≠ id) =
        (orderBy ties (rows.filter fun row => row.id ≠ id)).map Target.id := by
    rw [listedIds, List.filter_map, ← filter_orderBy nodup]
    rfl
  rw [alone nodup, alone (by rwa [ids_rename]), filter_rename]

theorem find_row {row : Target} (member : row ∈ table.rows) :
    table.rows.find? (fun other => other.id = row.id) = some row := by
  have some_ : (table.rows.find? fun other => other.id = row.id).isSome = true :=
    List.find?_isSome.mpr ⟨row, member, decide_eq_true rfl⟩
  obtain ⟨found, is⟩ := Option.isSome_iff_exists.mp some_
  have same : found.id = row.id :=
    of_decide_eq_true (List.find?_some (p := fun other : Target => decide (other.id = row.id)) is)
  rw [is, List.inj_on_of_nodup_map table.distinct (List.mem_of_find?_eq_some is) member same]

theorem filter_insertIdx {α : Type*} {p : α → Bool} {item : α} (out : p item = false) (items : List α)
    (index : ℕ) : (items.insertIdx index item).filter p = items.filter p := by
  induction items generalizing index with
  | nil => cases index <;> simp [out]
  | cons first rest ih =>
      cases index with
      | zero => simp [out]
      | succ index => simp [List.insertIdx_succ_cons, List.filter_cons, ih]

end Update

/-- The target has the rank, or the last one there is; the others keep their order, and the stored
numbers are distinct and rise with the listing. -/
structure Ranked {κ : Type*} [LinearOrder κ] (ties : String ↪ κ) (before after : Table) (id : String)
    (rank : ℕ) : Prop where
  placed : (listedIds ties after.rows)[min rank before.rows.length - 1]? = some id
  others : (listedIds ties after.rows).filter (· ≠ id) = (listedIds ties before.rows).filter (· ≠ id)
  increasing : Increasing (orderBy ties after.rows)

/-- The ids are listed as they were asked for, and then those that were not. -/
structure Reordered {κ : Type*} [LinearOrder κ] (ties : String ↪ κ) (before after : Table)
    (ids answered : List String) : Prop where
  listed : listedIds ties after.rows = ids ++ (listedIds ties before.rows).filter (· ∉ ids)
  answered : answered = listedIds ties after.rows

section Requests

variable {κ : Type*} [LinearOrder κ] {ties : String ↪ κ} {table : Table} {row : Target}
  {name groupName : String} {rank : ℕ} {ids : List String}

/-- The rewrite puts the target at its rank. -/
theorem ranked_applied (member : row ∈ table.rows) (from_ : 1 ≤ rank)
    {rows : List Target} (is : rows = rename row.id name groupName table.rows) (after : Table)
    (applied : after.rows = applyTargetSortOrder ties rows row.id rank) :
    Ranked ties table after row.id rank := by
  have sameIds : rows.map Target.id = table.rows.map Target.id := is ▸ ids_rename ..
  have nodup : (listedIds ties rows).Nodup := by
    rw [(perm_listedIds rows).nodup_iff, sameIds]
    exact table.distinct
  have inside : row.id ∈ listedIds ties rows := by
    rw [(perm_listedIds rows).mem_iff, sameIds]
    exact List.mem_map_of_mem member
  set without := (listedIds ties rows).filter (· ≠ row.id) with withoutEq
  have moved : (row.id :: without).Perm (listedIds ties rows) := by
    have erased : (listedIds ties rows).erase row.id = without := by
      rw [nodup.erase_eq_filter]
      refine List.filter_congr fun id _ => ?_
      simp [bne, beq_eq_decide]
    exact erased ▸ (List.perm_cons_erase inside).symm
  have count : without.length + 1 = table.rows.length := by
    have length := (moved.trans (perm_listedIds rows)).length_eq
    rwa [sameIds, List.length_map, List.length_cons] at length
  have index : (max 0 (min (without.length : ℤ) ((rank : ℤ) - 1))).toNat =
      min rank table.rows.length - 1 := by
    omega
  set place := min rank table.rows.length - 1
  have within_ : place ≤ without.length := by omega
  have inserted := (List.perm_insertIdx row.id without within_).trans moved
  have written : listedIds ties (writeOrders (without.insertIdx place row.id) rows) =
      without.insertIdx place row.id ∧
        Increasing (orderBy ties (writeOrders (without.insertIdx place row.id) rows)) :=
    listedIds_writeOrders (inserted.trans (perm_listedIds rows)) (inserted.nodup_iff.mpr nodup)
  have ranks : after.rows = writeOrders (without.insertIdx place row.id) rows := by
    rw [applied, applyTargetSortOrder, ← withoutEq, index]
  constructor
  · rw [ranks, written.1, List.getElem?_insertIdx_self, if_pos within_]
  · rw [ranks, written.1, filter_insertIdx (by simp), withoutEq, List.filter_filter, is]
    simp only [Bool.and_self]
    exact listedIds_rename table.distinct
  · exact ranks ▸ written.2

/-- Without the rewrite the target stands where it stood. -/
theorem ranked_unchanged (after : Table)
    (renamed : after.rows = rename row.id name groupName table.rows) :
    Ranked ties table after row.id rank ↔
      (listedIds ties table.rows)[min rank table.rows.length - 1]? = some row.id ∧
        Increasing (orderBy ties table.rows) := by
  have cells : after.rows.map (fun row => (row.id, row.sortOrder)) =
      table.rows.map fun row => (row.id, row.sortOrder) := renamed ▸ cells_rename table.rows
  constructor
  · intro ranked
    have same := cells_orderBy cells.symm ranked.increasing
    have ids : listedIds ties table.rows = listedIds ties after.rows := ids_of_cells same
    exact ⟨ids ▸ ranked.placed, increasing_of_cells same ranked.increasing⟩
  · rintro ⟨placed, increasing⟩
    have same := cells_orderBy cells increasing
    have ids : listedIds ties after.rows = listedIds ties table.rows := ids_of_cells same
    exact ⟨ids ▸ placed, by rw [ids], increasing_of_cells same increasing⟩

theorem updateTarget_ranks (member : row ∈ table.rows) (from_ : 1 ≤ rank) (to_ : rank ≤ 500) :
    (∃ after, updateTarget ties table row.id name groupName (some rank) = .ok after ∧
        Ranked ties table after row.id rank) ↔
      row.sortOrder ≠ some (rank : ℤ) ∨
        (listedIds ties table.rows)[min rank table.rows.length - 1]? = some row.id ∧
          Increasing (orderBy ties table.rows) := by
  have floor : ⌊(rank : ℚ)⌋ = (rank : ℤ) := Int.floor_natCast rank
  have bounds : ¬ ((rank : ℤ) < 1 ∨ 500 < (rank : ℤ)) := by omega
  simp only [updateTarget, find_row member, floor, if_neg bounds]
  by_cases stored : row.sortOrder = some (rank : ℤ)
  · rw [if_pos stored]
    simp only [Except.ok.injEq, exists_eq_left', stored, ne_eq, not_true_eq_false, false_or]
    exact ranked_unchanged _ rfl
  · rw [if_neg stored]
    simp only [Except.ok.injEq, exists_eq_left', stored, ne_eq, not_false_eq_true, true_or, iff_true]
    exact ranked_applied member from_ rfl _ rfl

/-- The ids that are asked for are those of the table, so that none is changed by trimming. -/
theorem requested_eq (known : ids ⊆ table.rows.map Target.id) :
    (ids.map trim).filter (· ≠ "") = ids := by
  have clean (id : String) (asked : id ∈ ids) : trim id = id ∧ id ≠ "" := by
    obtain ⟨row, member, rfl⟩ := List.mem_map.mp (known asked)
    exact table.clean row member
  have same : ids.map trim = ids := by
    rw [List.map_congr_left fun id asked => (clean id asked).1, List.map_id']
  rw [same]
  exact List.filter_eq_self.mpr fun id asked => decide_eq_true (clean id asked).2

theorem reorderTargets_lists (nodup : ids.Nodup) (known : ids ⊆ table.rows.map Target.id) :
    (∃ answered after, reorderTargets ties table ids = .ok (answered, after) ∧
        Reordered ties table after ids answered) ↔ ids ≠ [] ∧ ids.length ≤ 500 := by
  have existing (id : String) (asked : id ∈ ids) : id ∈ listedIds ties table.rows :=
    (perm_listedIds table.rows).mem_iff.mpr (known asked)
  have none_ : ids.filter (· ∉ listedIds ties table.rows) = [] :=
    List.filter_eq_nil_iff.mpr fun id asked => by simpa using existing id asked
  by_cases few : ids ≠ [] ∧ ids.length ≤ 500
  · set all := ids ++ (listedIds ties table.rows).filter (· ∉ ids) with allEq
    have listNodup : (listedIds ties table.rows).Nodup :=
      (perm_listedIds table.rows).nodup_iff.mpr table.distinct
    have allNodup : all.Nodup := by
      refine nodup.append (listNodup.filter _) fun id asked left => ?_
      have absent := (List.mem_filter.mp left).2
      simp [asked] at absent
    have perm : all.Perm (table.rows.map Target.id) := by
      refine ((List.perm_ext_iff_of_nodup allNodup listNodup).mpr fun id => ?_).trans
        (perm_listedIds table.rows)
      simp only [allEq, List.mem_append, List.mem_filter, decide_eq_true_eq]
      exact ⟨fun inside => inside.elim (existing id) And.left, fun inside =>
        (em (id ∈ ids)).imp_right fun absent => ⟨inside, absent⟩⟩
    have written : listedIds ties (writeOrders all table.rows) = all :=
      (listedIds_writeOrders perm allNodup).1
    refine iff_of_true ⟨all, table.withRows (writeOrders all table.rows) (ids_writeOrders ..), ?_,
      ⟨written, written.symm⟩⟩ few
    have normalized : normalizeTargetOrder ids (listedIds ties table.rows) = .ok all := by
      have bounds : ¬ (ids = [] ∨ 500 < ids.length) := by
        rintro (empty | long)
        · exact few.1 empty
        · omega
      simp only [normalizeTargetOrder, requested_eq known, none_, if_neg bounds, nodup,
        not_true_eq_false, if_false, ne_eq]
      rfl
    rw [reorderTargets, normalized]
    rfl
  · refine iff_of_false ?_ few
    rintro ⟨answered, after, is, -⟩
    have bounds : ids = [] ∨ 500 < ids.length := by
      by_contra none_
      push Not at none_
      exact few none_
    rw [reorderTargets, normalizeTargetOrder, requested_eq known, if_pos bounds] at is
    cases is

end Requests

/-- A rank is given unless it is the number that the target has stored and the target does not stand
there already; a list of ids is followed unless it is empty or too long. -/
theorem ranks_given_iff {κ : Type*} [LinearOrder κ] (ties : String ↪ κ) (table : Table) :
    (∀ row ∈ table.rows, ∀ rank : ℕ, 1 ≤ rank → rank ≤ 500 → ∀ name groupName,
      (∃ after, updateTarget ties table row.id name groupName (some rank) = .ok after ∧
          Ranked ties table after row.id rank) ↔
        row.sortOrder ≠ some (rank : ℤ) ∨
          (listedIds ties table.rows)[min rank table.rows.length - 1]? = some row.id ∧
            Increasing (orderBy ties table.rows)) ∧
      ∀ ids : List String, ids.Nodup → ids ⊆ table.rows.map Target.id →
        ((∃ answered after, reorderTargets ties table ids = .ok (answered, after) ∧
            Reordered ties table after ids answered) ↔ ids ≠ [] ∧ ids.length ≤ 500) :=
  ⟨fun _ member _ from_ to_ _ _ => updateTarget_ranks member from_ to_,
    fun _ nodup known => reorderTargets_lists nodup known⟩

/-- Two targets at the ranks 1 and 2. -/
def twoTargets : Table where
  rows := [⟨"a", "A", "VPS", some 0⟩, ⟨"b", "B", "VPS", some 1⟩]
  distinct := by decide
  clean := by decide +kernel

/-- The second target asks for the first rank, and stays the second. -/
theorem second_not_first :
    ¬ ∃ after, updateTarget (Function.Embedding.refl String) twoTargets "b" "B" "VPS"
        (some (1 : ℕ)) = .ok after ∧
      Ranked (Function.Embedding.refl String) twoTargets after "b" 1 := by
  have member : (⟨"b", "B", "VPS", some 1⟩ : Target) ∈ twoTargets.rows := by decide
  have listed : orderBy (Function.Embedding.refl String) twoTargets.rows = twoTargets.rows :=
    orderBy_eq twoTargets.distinct (List.Perm.refl _) (by decide +kernel)
  intro given
  rcases (updateTarget_ranks member le_rfl (by decide)).mp given with moved | ⟨placed, -⟩
  · exact moved rfl
  · rw [listedIds, listed] at placed
    exact absurd placed (by decide)

end NieSla.Targets
