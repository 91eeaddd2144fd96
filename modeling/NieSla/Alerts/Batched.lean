import NieSla.Alerts.Delivery

/-! `buildAlertBatches`: every batch holds the entries of its messages whole. -/
namespace NieSla.Alerts

/-- A JavaScript array of messages. -/
structure MessageArray where
  items : List Message
  bound : items.length < 2 ^ 32

/-- The numbered entries of messages from an index on. -/
def entriesFrom (start : Nat) : List Message → List String
  | [] => []
  | item :: rest => entryText start item :: entriesFrom (start + 1) rest

def headerLine (total start count : Nat) : String := headerFor total start count ++ "\n"

/-- A batch that starts with the message at `start`: some messages, under its header line their entries, whole and in
their order, and more than one only as long as their text is short. -/
structure Batch.Whole (total maxChars start : Nat) (batch : Batch) : Prop where
  some_ : batch.items ≠ []
  entries : batch.text = headerLine total start batch.items.length ++ "\n".intercalate (entriesFrom start batch.items)
  short : 1 < batch.items.length →
    utf16Length batch.text ≤ maxChars + utf16Length (headerLine total start batch.items.length)

/-- Batches that follow each other from an index on. -/
inductive Following (total maxChars : Nat) : Nat → List Batch → Prop
  | nil (start : Nat) : Following total maxChars start []
  | cons {start : Nat} {batch : Batch} {rest : List Batch} (whole : batch.Whole total maxChars start)
      (later : Following total maxChars (start + batch.items.length) rest) : Following total maxChars start (batch :: rest)

/-! Lengths. -/

theorem utf16Length_append (first second : String) :
    utf16Length (first ++ second) = utf16Length first + utf16Length second := by
  simp [utf16Length]

/-- A number below 2 ^ 32 has ten digits at most. -/
theorem utf16Length_number {n : Nat} (lt : n ≤ 2 ^ 32) : utf16Length (toString n) ≤ 10 := by
  have ascii : ∀ c ∈ Nat.toDigits 10 n, codeUnits c = 1 := fun c member => by
    have digit := Nat.isDigit_of_mem_toDigits (by decide) (by decide) member
    simp only [Char.isDigit, Bool.and_eq_true, decide_eq_true_eq] at digit
    exact if_pos (UInt32.lt_of_le_of_lt digit.2 (by decide))
  rw [utf16Length, Nat.toString_eq_repr, Nat.toList_repr, List.map_congr_left ascii, List.map_const', List.sum_replicate,
    smul_eq_mul, Nat.mul_one]
  exact Nat.toDigits_length 10 n 10 (by decide) (lt_of_le_of_lt lt (by decide))

theorem utf16Length_entryText {index : Nat} (lt : index < 2 ^ 32) (item : Message) :
    utf16Length (entryText index item) ≤ 913 := by
  have digits : utf16Length (toString (index + 1)) ≤ 10 := utf16Length_number lt
  have text := textLength_cut 900 (String.ofList (collapseNewlines 0 (trim item.text).toList))
  have shape : entryText index item =
      "\n" ++ toString (index + 1) ++ ". " ++ cut 900 (String.ofList (collapseNewlines 0 (trim item.text).toList)) := rfl
  rw [shape, utf16Length_append, utf16Length_append, utf16Length_append]
  have first : utf16Length "\n" = 1 := by decide
  have dot : utf16Length ". " = 2 := by decide
  change utf16Length _ ≤ 900 at text
  omega

theorem utf16Length_headerFor {total start count : Nat} (lt : total ≤ 2 ^ 32) (within : start + count ≤ total)
    (some_ : 0 < count) : utf16Length (headerFor total start count) ≤ 48 := by
  have range : utf16Length (if 1 < total then s!"，{start + 1}-{start + count}" else "") ≤ 22 := by
    split
    · have shape : s!"，{start + 1}-{start + count}" = "，" ++ toString (start + 1) ++ "-" ++ toString (start + count) := rfl
      have first : utf16Length (toString (start + 1)) ≤ 10 := utf16Length_number (by omega)
      have last : utf16Length (toString (start + count)) ≤ 10 := utf16Length_number (by omega)
      have comma : utf16Length "，" = 1 := by decide
      have dash : utf16Length "-" = 1 := by decide
      rw [shape, utf16Length_append, utf16Length_append, utf16Length_append]
      omega
    · exact Nat.zero_le _
  have shape : headerFor total start count = "NIE-SLA 报警汇总（" ++ toString total ++ " 条" ++
      (if 1 < total then s!"，{start + 1}-{start + count}" else "") ++ "）" := rfl
  have number : utf16Length (toString total) ≤ 10 := utf16Length_number lt
  have before : utf16Length "NIE-SLA 报警汇总（" = 13 := by decide
  have unit : utf16Length " 条" = 2 := by decide
  have close : utf16Length "）" = 1 := by decide
  rw [shape, utf16Length_append, utf16Length_append, utf16Length_append, utf16Length_append]
  omega

theorem entriesFrom_concat (start : Nat) (items : List Message) (item : Message) :
    entriesFrom start (items ++ [item]) = entriesFrom start items ++ [entryText (start + items.length) item] := by
  induction items generalizing start with
  | nil => rfl
  | cons first items ih =>
      simp only [List.cons_append, entriesFrom, ih, List.length_cons]
      congr 4
      omega

theorem join_ne_empty {start : Nat} {items : List Message} (some_ : items ≠ []) :
    "\n".intercalate (entriesFrom start items) ≠ "" := by
  cases items with
  | nil => exact absurd rfl some_
  | cons item rest =>
      have begins : entryText start item = "\n" ++ (toString (start + 1) ++ ". " ++
          cut 900 (String.ofList (collapseNewlines 0 (trim item.text).toList))) := by
        simp only [← String.append_assoc]
        rfl
      rw [entriesFrom, begins, String.intercalate_cons_append]
      simp

theorem joinEntry_entriesFrom {start : Nat} {items : List Message} (some_ : items ≠ []) (item : Message) :
    joinEntry ("\n".intercalate (entriesFrom start items)) (entryText (start + items.length) item) =
      "\n".intercalate (entriesFrom start (items ++ [item])) := by
  have listed : entriesFrom start items ≠ [] := fun none_ => join_ne_empty some_ (none_ ▸ String.intercalate_nil)
  rw [joinEntry, if_neg (join_ne_empty some_), entriesFrom_concat,
    String.intercalate_append_of_ne_nil listed (List.cons_ne_nil _ _), String.intercalate_singleton]
  rfl

/-! The loop. -/

/-- What the loop holds before the message at `index`: the messages since `start` with their entries, and of more than
one not too long a text. -/
structure Running (maxChars index start : Nat) (current : List Message) (currentText : String) : Prop where
  next : start + current.length = index
  text : currentText = "\n".intercalate (entriesFrom start current)
  short : 1 < current.length → utf16Length currentText ≤ maxChars

theorem Running.one (maxChars index : Nat) (item : Message) :
    Running maxChars (index + 1) index [item] (entryText index item) :=
  ⟨rfl, String.intercalate_singleton.symm, fun two => absurd two (lt_irrefl 1)⟩

section Loop

variable {total index start : Nat} {current : List Message} {currentText : String}

theorem Running.text_le (running : Running 2400 index start current currentText) (lt : index ≤ 2 ^ 32) :
    utf16Length currentText ≤ 2400 := by
  match current, running with
  | [], running => simp [running.text, entriesFrom, utf16Length]
  | [item], running =>
      rw [running.text, entriesFrom, entriesFrom, String.intercalate_singleton]
      have next := running.next
      exact (utf16Length_entryText (by simp at next; omega) item).trans (by decide)
  | first :: second :: rest, running => exact running.short (by simp)

theorem closeBatch_whole (running : Running 2400 index start current currentText) (some_ : current ≠ [])
    (within : index ≤ total) (lt : total ≤ 2 ^ 32) :
    (closeBatch total start current currentText).Whole total 2400 start := by
  have count : 0 < current.length := List.length_pos_of_ne_nil some_
  have header : utf16Length (headerFor total start current.length) ≤ 48 :=
    utf16Length_headerFor lt (running.next.le.trans within) count
  have text := running.text_le (within.trans lt)
  have line : utf16Length (headerLine total start current.length) ≤ 49 := by
    have feed : utf16Length "\n" = 1 := by decide
    rw [headerLine, utf16Length_append]
    omega
  have whole : (closeBatch total start current currentText).text =
      headerLine total start current.length ++ currentText := by
    refine cut_of_textLength ?_
    change utf16Length (headerLine total start current.length ++ currentText) ≤ 3900
    rw [utf16Length_append]
    omega
  refine ⟨some_, ?_, fun _ => ?_⟩
  · rw [whole, running.text]
    rfl
  · rw [whole, utf16Length_append, Nat.add_comm]
    exact Nat.add_le_add_right text _

/-- From any point of the loop on, whole batches follow. -/
theorem following_batchesFrom (lt : total ≤ 2 ^ 32) {messages : List Message} (left : index + messages.length = total)
    (running : Running 2400 index start current currentText) :
    Following total 2400 start (batchesFrom total 2400 index start current currentText messages) := by
  induction messages generalizing index start current currentText with
  | nil =>
      rw [batchesFrom]
      split
      · exact .nil start
      · rename_i some_
        have held : current ≠ [] := fun none_ => some_ (by rw [none_]; rfl)
        exact .cons (closeBatch_whole running held left.le lt) (.nil _)
  | cons item rest ih =>
      rw [List.length_cons] at left
      simp only [batchesFrom]
      by_cases none_ : current = []
      · subst none_
        obtain rfl : start = index := running.next
        have text : joinEntry currentText (entryText start item) = entryText start item := if_pos running.text
        change Following total 2400 start (batchesFrom total 2400 (start + 1) start [item]
          (joinEntry currentText (entryText start item)) rest)
        rw [text]
        exact ih (by omega) (Running.one 2400 start item)
      · have open_ : current.isEmpty = false := List.isEmpty_eq_false_iff.mpr none_
        rw [open_]
        simp only [Bool.not_false, Bool.true_and, decide_eq_true_eq]
        split
        · have step := ih (by omega) (Running.one 2400 index item)
          rw [← running.next] at step ⊢
          exact .cons (closeBatch_whole running none_ (by omega) lt) step
        · rename_i room
          have text := @joinEntry_entriesFrom start current none_ item
          rw [running.next, ← running.text] at text
          refine ih (by omega) ⟨?_, text, fun _ => ?_⟩
          · have next := running.next
            rw [List.length_append, List.length_singleton]
            omega
          · omega

end Loop

/-- `buildAlertBatches`: the messages in their order, in batches that are not empty, with every entry whole. -/
theorem buildAlertBatches_whole (messages : MessageArray) :
    (buildAlertBatches messages.items).flatMap Batch.items = messages.items ∧
      Following messages.items.length 2400 0 (buildAlertBatches messages.items) := by
  refine ⟨items_buildAlertBatches messages.items, ?_⟩
  exact following_batchesFrom messages.bound.le (Nat.zero_add _) ⟨rfl, rfl, fun two => absurd two (by decide)⟩

def spacedMessage : Message := ⟨"tokyo", "offline", "down\n\n\nsince noon", .markActive 1700000000 none⟩

/-- The entry of a text with three newlines is not that text. -/
theorem spaced_text_not_kept :
    ¬∃ batch ∈ buildAlertBatches [spacedMessage],
      (cut 900 (trim spacedMessage.text)).toList <:+: batch.text.toList := by
  decide +kernel

end NieSla.Alerts
