import NieSla.Unlock.AgentLines
import NieSla.Unlock.Shown

/-! The values that the agent reads in a row, and when they are the row's. -/
namespace NieSla.Unlock.Agent
open Blanks

/-! Behind the label. -/

section Colons

variable {label rest : List Char} (narrow : ':' ∉ label)

include narrow

theorem afterColon_of_not_mem (wide : '：' ∉ label) (none_ : ':' ∉ rest) :
    afterColon (label ++ '：' :: rest) = rest := by
  have first : splitOnce ':' (label ++ '：' :: rest) = none := by
    apply if_neg
    simp [narrow, none_]
  have drop : (label ++ '：' :: rest).dropWhile (· ≠ '：') = '：' :: rest := by
    rw [List.dropWhile_append_of_pos, List.dropWhile_cons_of_neg (by simp)]
    intro c member
    exact decide_eq_true fun same => wide (same ▸ member)
  have second : splitOnce '：' (label ++ '：' :: rest) = some rest := by
    rw [splitOnce, if_pos (by simp), drop, List.tail_cons]
  rw [afterColon, first, second]
  rfl

theorem afterColon_of_mem (some_ : ':' ∈ rest) :
    afterColon (label ++ '：' :: rest) = (rest.dropWhile (· ≠ ':')).tail := by
  have drop : (label ++ '：' :: rest).dropWhile (· ≠ ':') = rest.dropWhile (· ≠ ':') := by
    rw [List.dropWhile_append_of_pos, List.dropWhile_cons_of_pos (by simp)]
    intro c member
    exact decide_eq_true fun same => narrow (same ▸ member)
  have first : splitOnce ':' (label ++ '：' :: rest) = some (rest.dropWhile (· ≠ ':')).tail := by
    rw [splitOnce, if_pos (by simp [some_]), drop]
  rw [afterColon, first]
  rfl

end Colons

theorem words_body {left : Nat} {texts : List (Nat × List Char)} (spaced : Spaced left texts)
    (solid : ∀ text ∈ texts, ∀ c ∈ text.2, isWhitespace c = false) (width : Nat) :
    Words.words isWhitespace (body texts width) = (texts.map Prod.snd).filter (· ≠ []) := by
  rw [body, Words.words_rdropWhile, words_render rfl spaced solid]

theorem mem_body {texts : List (Nat × List Char)} {width : Nat} {c : Char} (solid : isWhitespace c = false) :
    c ∈ body texts width ↔ ∃ text ∈ texts, c ∈ text.2 := by
  constructor
  · intro member
    rcases mem_render ((List.rdropWhile_prefix _ _).subset member) with rfl | found
    · exact absurd solid (by decide)
    · exact found
  · rintro ⟨text, member, inside⟩
    have whole : c ∈ render width texts := mem_render_of_mem member inside
    rw [← List.rdropWhile_append_rtakeWhile (p := isWhitespace) (l := render width texts), List.mem_append] at whole
    rcases whole with kept | blank
    · exact kept
    · exact absurd (List.mem_rtakeWhile_imp blank) (by simp [solid])

/-! The header. -/

theorem solid_name (provider : Provider) : ∀ c ∈ provider.name, isWhitespace c = false ∧ c ≠ ':' := by
  have all : provider.name.all (fun c => !isWhitespace c && c ≠ ':') = true := by cases provider <;> decide
  simpa using all

theorem rowValue_name (provider : Provider) : rowValue provider.name = provider.name := by
  cases provider <;> decide

theorem serviceKey_name_inj {first second : Provider} :
    serviceKey first.name = serviceKey second.name ↔ first = second := by
  cases first <;> cases second <;> decide

variable (table : Table)

theorem unlockRowValues_header :
    unlockRowValues (headerLine table) = table.columns.map fun column => column.provider.name := by
  have solid : ∀ text ∈ table.names, ∀ c ∈ text.2, isWhitespace c = false ∧ c ≠ ':' := by
    simp only [Table.names, List.forall_mem_map]
    exact fun column _ => solid_name column.provider
  have colon : ':' ∉ body table.names 8 := by
    rw [mem_body (by decide)]
    rintro ⟨text, member, inside⟩
    exact (solid text member _ inside).2 rfl
  have after : afterColon (headerLine table) = body table.names 8 :=
    @afterColon_of_not_mem "服务商".toList _ (by decide) (by decide) colon
  have names : ∀ column ∈ table.columns, column.provider.name ≠ [] := by
    intro column _
    cases column.provider <;> decide
  have words := words_body table.spaced_names fun text member c inside => (solid text member c inside).1
  rw [unlockRowValues, after, words]
  rw [Table.names, List.map_map, List.filter_eq_self.mpr (by simpa using names), List.map_map]
  exact List.map_congr_left fun column _ => rowValue_name column.provider

/-! The rows. -/

/-- A cell that the agent takes as one value. -/
def Kept (cell : List Char) : Prop := (∀ c ∈ cell, isWhitespace c = false ∧ c ≠ ':') ∧ rowValue cell = cell

theorem kept_nil : Kept [] := ⟨List.forall_mem_nil _, rfl⟩

theorem length_rowValue_le (part : List Char) : (rowValue part).length ≤ part.length := by
  unfold rowValue
  dsimp only
  split
  · exact Nat.zero_le _
  · exact (Trim.length_trimBy_le _ _).trans (Trim.length_trimBy_le _ _)

theorem length_unlockRowValues_le (line : List Char) :
    (unlockRowValues line).flatten.length ≤ ((afterColon line).filter fun c => !isWhitespace c).length := by
  have shrinks (parts : List (List Char)) : (parts.map rowValue).flatten.length ≤ parts.flatten.length := by
    induction parts with
    | nil => exact Nat.le_refl _
    | cons part parts ih =>
        have first := length_rowValue_le part
        simp only [List.map_cons, List.flatten_cons, List.length_append]
        omega
  rw [← Words.flatten_words]
  exact shrinks _

theorem map_snd_cells (row : Row) : (table.cells row).map Prod.snd = table.values row := by
  rw [Table.cells, List.map_map]
  rfl

theorem mem_values {row : Row} {text : Nat × List Char} (member : text ∈ table.cells row) :
    text.2 ∈ table.values row := by
  rw [← map_snd_cells]
  exact List.mem_map_of_mem member

theorem label_no_colon (row : Row) : ':' ∉ row.label.toList ∧ '：' ∉ row.label.toList := by
  cases row <;> decide

theorem rowLine_eq (row : Row) : rowLine table row = row.label.toList ++ '：' :: body (table.cells row) 6 := by
  have wide : "：".toList = ['：'] := rfl
  rw [rowLine, String.toList_append, wide, List.append_assoc, List.singleton_append]

theorem afterColon_row {row : Row} (none_ : ':' ∉ body (table.cells row) 6) :
    afterColon (rowLine table row) = body (table.cells row) 6 := by
  rw [rowLine_eq]
  exact afterColon_of_not_mem (label_no_colon row).1 (label_no_colon row).2 none_

/-- A narrow colon cuts off what stands in front of it. -/
theorem length_lt_of_colon {row : Row} (colon : ':' ∈ body (table.cells row) 6) :
    (unlockRowValues (rowLine table row)).flatten.length < (table.values row).flatten.length := by
  obtain ⟨after, found⟩ : ∃ after, (body (table.cells row) 6).dropWhile (· ≠ ':') = ':' :: after := by
    have some_ : (body (table.cells row) 6).dropWhile (· ≠ ':') ≠ [] := by
      rw [Ne, List.dropWhile_eq_nil_iff]
      exact fun all => of_decide_eq_true (all ':' colon) rfl
    have first := List.head_dropWhile_not (· ≠ ':') some_
    exact ⟨_, (List.cons_head_tail some_).symm.trans (by rw [of_not_not (of_decide_eq_false first)])⟩
  have cut : afterColon (rowLine table row) = after := by
    rw [rowLine_eq, afterColon_of_mem (label_no_colon row).1 colon, found, List.tail_cons]
  have within : (':' :: after).Sublist (render 6 (table.cells row)) := by
    rw [← found]
    exact (List.dropWhile_suffix _).sublist.trans (List.rdropWhile_prefix _ _).sublist
  calc (unlockRowValues (rowLine table row)).flatten.length
      ≤ (after.filter fun c => !isWhitespace c).length := cut ▸ length_unlockRowValues_le _
    _ < ((':' :: after).filter fun c => !isWhitespace c).length := Nat.lt_succ_self _
    _ ≤ ((render 6 (table.cells row)).filter fun c => !isWhitespace c).length := (within.filter _).length_le
    _ = ((table.values row).flatten.filter fun c => !isWhitespace c).length := by
        rw [filter_render rfl, map_snd_cells]
    _ ≤ (table.values row).flatten.length := List.length_filter_le _ _

theorem unlockRowValues_row {row : Row} (kept : ∀ cell ∈ table.values row, Kept cell) :
    unlockRowValues (rowLine table row) = (table.values row).filter (· ≠ []) := by
  have solid : ∀ text ∈ table.cells row, ∀ c ∈ text.2, isWhitespace c = false ∧ c ≠ ':' :=
    fun text member => (kept text.2 (mem_values table member)).1
  have colon : ':' ∉ body (table.cells row) 6 := by
    rw [mem_body (by decide)]
    rintro ⟨text, member, inside⟩
    exact (solid text member _ inside).2 rfl
  rw [unlockRowValues, afterColon_row table colon,
    words_body (table.spaced_cells row) fun text member c inside => (solid text member c inside).1, map_snd_cells]
  have same : ∀ cell ∈ (table.values row).filter (· ≠ []), rowValue cell = id cell := fun cell member =>
    (kept cell (List.mem_of_mem_filter member)).2
  rw [List.map_congr_left same, List.map_id]

/-- A value that is read is read again as it is. -/
theorem kept_of_value {word : List Char} (solid : ∀ c ∈ word, isWhitespace c = false ∧ c ≠ ':') :
    Kept (rowValue word) := by
  have trimmed {part : List Char} (inside : ∀ c ∈ part, c ∈ word) : trim part = part :=
    Words.trimBy_of_solid fun c member => (solid c (inside c member)).1
  have inside : ∀ c ∈ Trim.trimBy (· = Char.ofNat 0xfeff) word, c ∈ word := by
    intro c member
    rw [Trim.trimBy_eq] at member
    exact (List.dropWhile_suffix _).subset ((List.rdropWhile_prefix _ _).subset member)
  by_cases fragment : isFragment (Trim.trimBy (· = Char.ofNat 0xfeff) word) = true
  · have blank : rowValue word = [] := by simp [rowValue, trimmed, fragment]
    rw [blank]
    exact kept_nil
  · have value : rowValue word = Trim.trimBy (· = Char.ofNat 0xfeff) word := by simp [rowValue, trimmed, fragment]
    rw [value]
    refine ⟨fun c member => solid c (inside c member), ?_⟩
    simp [rowValue, trimmed inside, Trim.trimBy_trimBy, fragment]

/-- The agent reads a row right exactly when each cell is one value and the blanks are at the end. -/
theorem reads_row_iff (row : Row) :
    (∀ i < table.columns.length, valueAt (unlockRowValues (rowLine table row)) i = valueAt (table.values row) i) ↔
      (∀ cell ∈ table.values row, Kept cell) ∧ Trailing (table.values row) := by
  have count : table.columns.length = (table.values row).length := (List.length_map _).symm
  rw [count]
  constructor
  · intro same
    have colon : ':' ∉ body (table.cells row) 6 := fun colon =>
      (length_lt_of_colon table colon).not_ge (length_flatten_le same)
    have kept : ∀ cell ∈ table.values row, Kept cell := by
      intro cell member
      by_cases blank : cell = []
      · exact blank ▸ kept_nil
      · obtain ⟨i, lt, rfl⟩ := List.getElem_of_mem member
        rw [← valueAt_eq_getElem lt, ← same i lt] at blank ⊢
        obtain ⟨word, found, read⟩ : ∃ word ∈ Words.words isWhitespace (body (table.cells row) 6),
            rowValue word = valueAt (unlockRowValues (rowLine table row)) i := by
          rw [← afterColon_row table colon]
          exact List.mem_map.mp (valueAt_mem blank)
        rw [← read]
        apply kept_of_value
        intro c inside
        obtain ⟨whole, solid⟩ := Words.mem_of_mem_words found inside
        exact ⟨solid, fun same => colon (same ▸ whole)⟩
    rw [unlockRowValues_row table kept] at same
    exact ⟨kept, (valueAt_filter_iff _).mp same⟩
  · rintro ⟨kept, trailing⟩
    rw [unlockRowValues_row table kept]
    exact (valueAt_filter_iff _).mpr trailing

end NieSla.Unlock.Agent
