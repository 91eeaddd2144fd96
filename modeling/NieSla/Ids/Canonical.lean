import NieSla.Ids.Normalize

/-! When an id is the same after a second cleaning, and the one that the agent reports. Places are
counted on the characters before they are cleaned: one for each character of an id, and one for
each run of others. -/
namespace NieSla.Ids

/-- The places of an id that characters take. -/
def places (inRun : Bool) : List Char → Nat
  | [] => 0
  | c :: rest =>
      if allowedChar c then 1 + places false rest
      else if inRun then places true rest
      else 1 + places true rest

/-- The last place that is kept is not a dash. -/
def EndsClean (chars : List Char) : Prop :=
  ∀ before c, before ++ [c] <+: core chars → places false before = 63 →
    places false (before ++ [c]) = 64 → filler c = false

/-- In the places that are kept no other character follows a dash. -/
def RunsApart (chars : List Char) : Prop :=
  ∀ before c, before ++ ['-', c] <+: core chars → places false (before ++ ['-', c]) ≤ 64 →
    allowedChar c = true

/-- The dashes that the agent pushes before its id begins. -/
def leadingDashes (chars : List Char) : Nat := (chars.takeWhile filler).count '-'

def Ascii (value : String) : Prop := ∀ c ∈ value.toList, c.toNat < 128

instance (value : String) : Decidable (Ascii value) :=
  inferInstanceAs (Decidable (∀ c ∈ value.toList, c.toNat < 128))

/-- What an id must be for both to clean it to one canonical text. -/
def Canonical (value : String) : Prop :=
  EndsClean (value.toList.flatMap lowerChar) ∧
  (Ascii value → leadingDashes (lowered value) < 64 →
    RunsApart (lowered value) ∧
    (leadingDashes (lowered value) = 0 ∨
      leadingDashes (lowered value) + places false (core (lowered value)) ≤ 64))

section Places

variable {chars before rest : List Char} {c d : Char} {inRun skip : Bool}

theorem length_dashRuns (inRun : Bool) (chars : List Char) :
    (dashRuns inRun chars).length = places inRun chars := by
  induction chars generalizing inRun with
  | nil => rfl
  | cons c rest ih =>
      by_cases allowed : allowedChar c
      · simp [dashRuns, places, allowed, ih, Nat.add_comm]
      · cases inRun <;> simp [dashRuns, places, allowed, ih, Nat.add_comm]

theorem places_append (inRun : Bool) (before rest : List Char) :
    places inRun (before ++ rest) = places inRun before + places (openRun inRun before) rest := by
  rw [← length_dashRuns, dashRuns_append, List.length_append, length_dashRuns, length_dashRuns]

theorem places_dash_other (other : allowedChar c = false) : places inRun ['-', c] = 2 := by
  simp [places, allowedChar_dash, other]

/-- A place is opened by one of the characters. -/
theorem place_opened {n : Nat} (at_ : (dashRuns inRun chars)[n]? = some d) :
    ∃ before c, before ++ [c] <+: chars ∧ places inRun before = n ∧
      places inRun (before ++ [c]) = n + 1 ∧ (d = '-' ↔ filler c = true) := by
  induction chars generalizing inRun n with
  | nil => cases at_
  | cons first rest ih =>
      have later {inner : Bool} {m : Nat} (found : (dashRuns inner rest)[m]? = some d)
          (one : ∀ more, places inRun (first :: more) = n - m + places inner more) (le : m ≤ n) :
          ∃ before c, before ++ [c] <+: first :: rest ∧ places inRun before = n ∧
            places inRun (before ++ [c]) = n + 1 ∧ (d = '-' ↔ filler c = true) := by
        obtain ⟨before, c, leads, count, next, dash⟩ := ih found
        refine ⟨first :: before, c, List.cons_prefix_cons.mpr ⟨rfl, leads⟩, ?_, ?_, dash⟩
        · rw [one, count]
          omega
        · rw [List.cons_append, one, next]
          omega
      unfold dashRuns at at_
      by_cases allowed : allowedChar first
      · rw [if_pos allowed] at at_
        cases n with
        | zero =>
            rw [List.getElem?_cons_zero, Option.some.injEq] at at_
            subst at_
            exact ⟨[], first, ⟨rest, rfl⟩, rfl, by simp [places, allowed], by simp [filler, allowed]⟩
        | succ n =>
            rw [List.getElem?_cons_succ] at at_
            exact later at_ (fun more => by simp [places, allowed]) (Nat.le_succ n)
      · rw [if_neg allowed] at at_
        cases inRun with
        | true => exact later at_ (fun more => by simp [places, allowed]) le_rfl
        | false =>
            cases n with
            | zero =>
                rw [if_neg Bool.false_ne_true, List.getElem?_cons_zero, Option.some.injEq] at at_
                subst at_
                refine ⟨[], first, ⟨rest, rfl⟩, rfl, by simp [places, allowed], ?_⟩
                simp [filler, allowed]
            | succ n =>
                rw [if_neg Bool.false_ne_true, List.getElem?_cons_succ] at at_
                exact later at_ (fun more => by simp [places, allowed]) (Nat.le_succ n)

/-- The place that a character opens holds a dash if it is a filler. -/
theorem getElem?_of_opens {n : Nat} (leads : before ++ [c] <+: chars) (count : places inRun before = n)
    (next : places inRun (before ++ [c]) = n + 1) (fill : filler c = true) :
    (dashRuns inRun chars)[n]? = some '-' := by
  obtain ⟨last, rfl⟩ := leads
  rw [places_append, count] at next
  have one : (dashRuns (openRun inRun before) [c]).length = 1 := by
    rw [length_dashRuns]
    omega
  obtain ⟨d, single⟩ := List.length_eq_one_iff.mp one
  have dash : d = '-' := eq_dash_of_mem_dashRuns fill (single ▸ List.mem_singleton_self d)
  rw [dashRuns_append, dashRuns_append, single, dash, ← count, ← length_dashRuns]
  simp

theorem endsClean_iff (chars : List Char) :
    EndsClean chars ↔ (dashRuns false (core chars))[63]? ≠ some '-' := by
  constructor
  · intro clean at_
    obtain ⟨before, c, leads, count, next, dash⟩ := place_opened at_
    have solid := clean before c leads count next
    rw [dash.mp rfl] at solid
    cases solid
  · intro other before c leads count next
    by_contra fill
    exact other (getElem?_of_opens leads count next (Bool.not_eq_false _ ▸ fill))

end Places

section Twice

variable {chars : List Char} {c : Char}

theorem closed_dashRuns_core (chars : List Char) :
    (dashRuns false (core chars)).rdropWhile (· = '-') = dashRuns false (core chars) := by
  rw [rdropWhile_dashRuns, core, List.rdropWhile_idempotent]

theorem open_dashRuns_core (chars : List Char) (n : Nat) :
    ((dashRuns false (core chars)).take n).dropWhile (· = '-') =
      (dashRuns false (core chars)).take n := by
  cases n with
  | zero => rfl
  | succ n =>
      cases opens : core chars with
      | nil => rfl
      | cons c rest =>
          obtain ⟨allowed, solid⟩ := allowed_of_not_filler (filler_of_core_eq_cons opens)
          simp [dashRuns, allowed, solid]

/-- The cleaned text ends with a dash only where it was cut. -/
theorem closed_take_iff (chars : List Char) :
    ((dashRuns false (core chars)).take 64).rdropWhile (· = '-') =
      (dashRuns false (core chars)).take 64 ↔ EndsClean chars := by
  rw [endsClean_iff]
  by_cases long : 64 ≤ (dashRuns false (core chars)).length
  · have cut_ : (dashRuns false (core chars)).take 64 =
        (dashRuns false (core chars)).take 63 ++ [(dashRuns false (core chars))[63]] := by simp
    rw [cut_, List.getElem?_eq_getElem (by omega)]
    by_cases dash : (dashRuns false (core chars))[63] = '-'
    · rw [List.rdropWhile_concat_pos (p := fun c => decide (c = '-')) _ _ (decide_eq_true dash)]
      have shorter := List.rdropWhile_prefix (fun c => decide (c = '-'))
        ((dashRuns false (core chars)).take 63)
      refine iff_of_false (fun same => ?_) (by simp [dash])
      have lengths := shorter.length_le
      rw [same, List.length_append, List.length_singleton] at lengths
      omega
    · rw [List.rdropWhile_concat_neg (p := fun c => decide (c = '-')) _ _ (by simpa using dash)]
      exact iff_of_true rfl (by simpa using dash)
  · rw [List.take_of_length_le (by omega), List.getElem?_eq_none (by omega), closed_dashRuns_core]
    exact iff_of_true rfl nofun

/-- A second cleaning only takes away a dash at the end. -/
theorem sanitizeAgentId_twice_iff (value : String) :
    sanitizeAgentId (sanitizeAgentId value) = sanitizeAgentId value ↔
      EndsClean (value.toList.flatMap lowerChar) := by
  have all : ∀ c ∈ (dashRuns false (core (value.toList.flatMap lowerChar))).take 64,
      allowedChar c = true := fun c member => allowed_of_mem_dashRuns (List.mem_of_mem_take member)
  rw [← closed_take_iff, sanitizeAgentId_eq value, sanitizeAgentId, String.toList_ofList,
    flatMap_lowerChar all, dashRuns_of_allowed all, trimDashes, open_dashRuns_core]
  change String.ofList ((List.rdropWhile _ _).take 64) = _ ↔ _
  rw [List.take_of_length_le, String.ofList_inj]
  exact (List.rdropWhile_prefix _ _).length_le.trans (List.length_take_le _ _)

end Twice

section Gaps

variable {chars before after rest text : List Char} {c : Char} {inRun skip : Bool}

/-- Characters of an id follow one another while there is room. -/
theorem pushChars_eq (room : Nat) (isEmpty previousDash : Bool) (chars : List Char)
    (small : ∀ c ∈ chars, c.isUpper = false) :
    pushChars room isEmpty previousDash chars = (gaps (previousDash || isEmpty) chars).take room := by
  induction chars generalizing room isEmpty previousDash with
  | nil => simp [pushChars, gaps]
  | cons c rest ih =>
      obtain ⟨first, others⟩ := List.forall_mem_cons.mp small
      have same : (c.isAlphanum || c = '.' || c = '_' || c = ':' || c = '-') = allowedChar c := by
        simp [allowedChar, Char.isAlphanum, Char.isAlpha, first]
      simp only [pushChars, same, gaps]
      cases room with
      | zero => simp
      | succ room =>
          rw [if_neg (Nat.succ_ne_zero room), Nat.add_sub_cancel]
          by_cases allowed : allowedChar c
          · simp [allowed, ih _ _ _ others]
          · cases isEmpty <;> cases previousDash <;> simp [allowed, ih _ _ _ others]

theorem length_gaps_le (order : inRun = true → skip = true) (chars : List Char) :
    (gaps skip chars).length ≤ (dashRuns inRun chars).length := by
  induction chars generalizing inRun skip with
  | nil => exact le_rfl
  | cons c rest ih =>
      by_cases allowed : allowedChar c
      · have next : (gaps (decide (c = '-')) rest).length ≤ (dashRuns false rest).length := ih nofun
        simpa [gaps, dashRuns, allowed] using next
      · have both : (gaps true rest).length ≤ (dashRuns true rest).length := ih fun _ => rfl
        cases inRun <;> cases skip <;> simp_all [gaps, dashRuns]
        omega

/-- The dashes that a text opens with. -/
def openDashes (text : List Char) : Nat := (text.takeWhile (· = '-')).length

theorem openDashes_gaps_le (order : inRun = true → skip = true) (chars : List Char) :
    openDashes (gaps skip chars) ≤ openDashes (dashRuns inRun chars) := by
  induction chars generalizing inRun skip with
  | nil => exact le_rfl
  | cons c rest ih =>
      by_cases allowed : allowedChar c
      · by_cases dash : c = '-'
        · have next : openDashes (gaps true rest) ≤ openDashes (dashRuns false rest) := ih nofun
          simpa [gaps, dashRuns, allowedChar_dash, dash, openDashes] using next
        · simp [gaps, dashRuns, allowed, dash, openDashes]
      · have both : openDashes (gaps true rest) ≤ openDashes (dashRuns true rest) :=
          ih fun _ => rfl
        cases inRun <;> cases skip <;> simp_all [gaps, dashRuns, openDashes]
        omega

/-- A prefix that ends with no dash opens with the dashes of the whole. -/
theorem openDashes_of_prefix {whole : List Char} (leads : text <+: whole) (some_ : text ≠ [])
    (closed : text.getLast? ≠ some '-') : openDashes text = openDashes whole := by
  induction text generalizing whole with
  | nil => exact absurd rfl some_
  | cons c rest ih =>
      obtain ⟨last, rfl⟩ := leads
      by_cases dash : c = '-'
      · cases rest with
        | nil => exact absurd (by rw [dash]; rfl) closed
        | cons d more =>
            have inner := ih (List.prefix_append (d :: more) last) (List.cons_ne_nil _ _)
              (by simpa using closed)
            simpa [openDashes, dash] using inner
      · simp [openDashes, dash]

/-- A dash that only the cleaned text opens with parts the two for good. -/
theorem eq_nil_of_lost_dash (closed : text.getLast? ≠ some '-')
    (cleaned : text <+: '-' :: dashRuns true chars) (pushed : text <+: gaps true chars) :
    text = [] := by
  by_contra some_
  have first := openDashes_of_prefix cleaned some_ closed
  have second := openDashes_of_prefix pushed some_ closed
  have fewer : openDashes (gaps true chars) ≤ openDashes (dashRuns true chars) :=
    openDashes_gaps_le (fun _ => rfl) chars
  simp only [openDashes, List.takeWhile_cons_of_pos, decide_true, List.length_cons] at first second fewer
  omega

theorem closed_tail (closed : (c :: text).getLast? ≠ some '-') : text.getLast? ≠ some '-' := by
  cases text with
  | nil => nofun
  | cons d more => simpa using closed

/-- Where both texts are the same up to a character that is no dash, no run after a dash is lost. -/
theorem length_le_of_common (order : inRun = true → skip = true) (closed : text.getLast? ≠ some '-')
    (cleaned : text <+: dashRuns inRun (before ++ '-' :: c :: after))
    (pushed : text <+: gaps skip (before ++ '-' :: c :: after)) (other : allowedChar c = false) :
    text.length ≤ places inRun before + 1 := by
  induction before generalizing inRun skip text with
  | nil =>
      cases text with
      | nil => exact Nat.zero_le _
      | cons d more =>
          simp only [List.nil_append, dashRuns, gaps, allowedChar_dash, if_true,
            List.cons_prefix_cons, other, Bool.false_eq_true, if_false, decide_true] at cleaned pushed
          rw [eq_nil_of_lost_dash (closed_tail closed) cleaned.2 pushed.2]
          simp [places]
  | cons first before ih =>
      rw [List.cons_append, dashRuns] at cleaned
      rw [List.cons_append, gaps] at pushed
      by_cases allowed : allowedChar first
      · rw [if_pos allowed] at cleaned pushed
        cases text with
        | nil => exact Nat.zero_le _
        | cons d more =>
            have inner : more.length ≤ places false before + 1 :=
              ih (fun opens => absurd opens Bool.false_ne_true) (closed_tail closed) (List.cons_prefix_cons.mp cleaned).2
                (List.cons_prefix_cons.mp pushed).2
            simp only [places, allowed, if_true, List.length_cons]
            omega
      · rw [if_neg allowed] at cleaned pushed
        cases inRun with
        | true =>
            rw [order rfl] at pushed
            have inner := ih (fun _ => rfl) closed cleaned pushed
            simpa [places, allowed] using inner
        | false =>
            rw [if_neg Bool.false_ne_true] at cleaned
            cases skip with
            | true =>
                rw [eq_nil_of_lost_dash closed cleaned pushed]
                exact Nat.zero_le _
            | false =>
                cases text with
                | nil => exact Nat.zero_le _
                | cons d more =>
                    have inner := ih (fun _ => rfl) (closed_tail closed)
                      (List.cons_prefix_cons.mp cleaned).2 (List.cons_prefix_cons.mp pushed).2
                    simp only [places, allowed, Bool.false_eq_true, if_false, List.length_cons]
                    omega

/-- With no run after a dash in the first places, both put the same there. -/
theorem take_gaps_eq (limit : Nat)
    (apart : ∀ before c, before ++ ['-', c] <+: chars → places inRun (before ++ ['-', c]) ≤ limit →
      allowedChar c = true)
    (states : inRun = skip ∨ limit = 0 ∨ ∀ c ∈ chars.head?, allowedChar c = true) :
    (gaps skip chars).take limit = (dashRuns inRun chars).take limit := by
  induction chars generalizing inRun skip limit with
  | nil => rfl
  | cons first rest ih =>
      cases limit with
      | zero => rfl
      | succ limit =>
          rw [gaps, dashRuns]
          by_cases allowed : allowedChar first
          · rw [if_pos allowed, if_pos allowed, List.take_succ_cons, List.take_succ_cons]
            refine congrArg (first :: ·) (ih limit (fun before c leads count => ?_) ?_)
            · refine apart (first :: before) c (List.cons_prefix_cons.mpr ⟨rfl, leads⟩) ?_
              simp only [List.cons_append, places, allowed, if_true]
              omega
            · by_cases dash : first = '-'
              · subst dash
                refine .inr (or_iff_not_imp_left.mpr fun room c next => ?_)
                cases rest with
                | nil => cases next
                | cons d more =>
                    cases next
                    by_contra other
                    refine other (apart [] c ⟨more, rfl⟩ ?_)
                    rw [List.nil_append, places_dash_other (Bool.eq_false_iff.mpr other)]
                    omega
              · exact .inl (by simp [dash])
          · have same : inRun = skip := by
              rcases states with same | none_ | head
              · exact same
              · cases none_
              · exact absurd (head first rfl) allowed
            subst same
            rw [if_neg allowed, if_neg allowed]
            cases inRun with
            | true =>
                refine ih (limit + 1) (fun before c leads count => ?_) (.inl rfl)
                refine apart (first :: before) c (List.cons_prefix_cons.mpr ⟨rfl, leads⟩) ?_
                simpa [places, allowed] using count
            | false =>
                rw [if_neg Bool.false_ne_true, if_neg Bool.false_ne_true, List.take_succ_cons,
                  List.take_succ_cons]
                refine congrArg ('-' :: ·) (ih limit (fun before c leads count => ?_) (.inl rfl))
                refine apart (first :: before) c (List.cons_prefix_cons.mpr ⟨rfl, leads⟩) ?_
                simp only [List.cons_append, places, allowed, Bool.false_eq_true, if_false]
                omega

theorem gaps_append (skip : Bool) (before rest : List Char) :
    ∃ last, gaps skip (before ++ rest) = gaps skip before ++ gaps last rest := by
  induction before generalizing skip with
  | nil => exact ⟨skip, rfl⟩
  | cons c before ih =>
      simp only [List.cons_append, gaps]
      split
      · obtain ⟨last, both⟩ := ih (decide (c = '-'))
        exact ⟨last, by rw [both, List.cons_append]⟩
      · obtain ⟨last, both⟩ := ih true
        split
        · exact ⟨last, both⟩
        · exact ⟨last, by rw [both, List.cons_append]⟩

/-- Fillers become dashes, if anything. -/
theorem eq_dash_of_mem_gaps (all : ∀ c ∈ chars, filler c = true) {d : Char} (member : d ∈ gaps skip chars) :
    d = '-' := by
  induction chars generalizing skip with
  | nil => exact absurd member List.not_mem_nil
  | cons c rest ih =>
      obtain ⟨fill, others⟩ := List.forall_mem_cons.mp all
      unfold gaps at member
      split at member
      next allowed =>
        have dash : c = '-' := by simpa [filler, allowed] using fill
        rcases List.mem_cons.mp member with rfl | later
        · exact dash
        · exact ih others later
      next =>
        split at member
        · exact ih others member
        · rcases List.mem_cons.mp member with rfl | later
          · rfl
          · exact ih others later

/-- Ahead of the core the agent pushes the dashes it finds, and nothing else. -/
theorem gaps_leading (chars : List Char) :
    gaps true chars =
      List.replicate (leadingDashes chars) '-' ++ gaps true (chars.dropWhile filler) := by
  induction chars with
  | nil => rfl
  | cons c rest ih =>
      by_cases allowed : allowedChar c
      · by_cases dash : c = '-'
        · subst dash
          simp [gaps, allowedChar_dash, leadingDashes, filler_dash, List.replicate_succ] at ih ⊢
          exact ih
        · have solid : filler c = false := by simp [filler, allowed, dash]
          simp [leadingDashes, solid]
      · have fill := filler_of_not_allowed (Bool.eq_false_iff.mpr allowed)
        have dash := ne_dash_of_not_allowed (Bool.eq_false_iff.mpr allowed)
        simpa [gaps, allowed, leadingDashes, fill, dash] using ih

end Gaps

section Agreement

variable {chars before after : List Char} {c : Char} {value : String}

/-- The dashes of the front take up room, those of the end do not. -/
theorem trimDashes_pushed (chars : List Char) :
    trimDashes ((gaps true chars).take 64) =
      ((gaps true (core chars)).take (64 - leadingDashes chars)).rdropWhile (· = '-') := by
  have whole : chars.dropWhile filler = core chars ++ (chars.dropWhile filler).rtakeWhile filler :=
    List.rdropWhile_append_rtakeWhile.symm
  obtain ⟨last, both⟩ := gaps_append true (core chars) ((chars.dropWhile filler).rtakeWhile filler)
  have dashes : ∀ d ∈ (gaps last ((chars.dropWhile filler).rtakeWhile filler)).take
      (64 - leadingDashes chars - (gaps true (core chars)).length), decide (d = '-') = true := by
    refine fun d member => decide_eq_true (eq_dash_of_mem_gaps ?_ (List.mem_of_mem_take member))
    exact fun c inside => List.mem_rtakeWhile_imp inside
  rw [gaps_leading, whole, both, List.take_append, List.length_replicate, List.take_append]
  generalize (gaps last ((chars.dropWhile filler).rtakeWhile filler)).take _ = tail at dashes ⊢
  have opens : ((gaps true (core chars)).take (64 - leadingDashes chars) ++ tail).dropWhile
      (· = '-') = [] ∧ (gaps true (core chars)).take (64 - leadingDashes chars) = [] ∨
      ((gaps true (core chars)).take (64 - leadingDashes chars) ++ tail).dropWhile (· = '-') =
        (gaps true (core chars)).take (64 - leadingDashes chars) ++ tail := by
    cases found : (gaps true (core chars)).take (64 - leadingDashes chars) with
    | nil => exact .inl ⟨List.dropWhile_eq_nil_iff.mpr dashes, rfl⟩
    | cons d more =>
        right
        cases start : core chars with
        | nil => simp [start, gaps] at found
        | cons c rest =>
            obtain ⟨allowed, solid⟩ := allowed_of_not_filler (filler_of_core_eq_cons start)
            have same : d = c := by
              rw [start, gaps, if_pos allowed] at found
              cases limit : 64 - leadingDashes chars with
              | zero => simp [limit] at found
              | succ n => simpa [limit, eq_comm] using congrArg List.head? found
            simp [same, solid]
  rw [trimDashes, List.dropWhile_append_of_pos]
  · change List.rdropWhile _ _ = _
    rcases opens with ⟨none_, empty⟩ | same
    · rw [none_, empty]
    · rw [same, rdropWhile_append_all dashes]
  · simp +contextual

theorem core_append (all : ∀ c ∈ before, filler c = true) (all' : ∀ c ∈ after, filler c = true) :
    core (before ++ (chars ++ after)) = core chars := by
  rw [core, List.dropWhile_append_of_pos all, List.dropWhile_append]
  split
  next none_ =>
    rw [core, List.isEmpty_iff.mp none_, List.dropWhile_eq_nil_iff.mpr all']
  next => rw [rdropWhile_append_all all', core]

theorem lower_whitespace (white : isWhitespace c = true) : c.toLower = c ∧ filler c = true := by
  have outside : c.val.toNat ≤ 32 ∨ 133 ≤ c.val.toNat := by
    simp only [isWhitespace, List.contains_cons, List.contains_nil, Bool.or_false, Bool.or_eq_true,
      beq_iff_eq, ← UInt32.toNat_inj, Bool.and_eq_true, decide_eq_true_eq, UInt32.le_iff_toNat_le,
      UInt32.reduceToNat] at white
    omega
  refine ⟨toLower_of_range (by omega), filler_of_not_allowed (Bool.eq_false_iff.mpr fun allowed => ?_)⟩
  have range := range_of_allowed allowed
  omega

theorem map_toLower_eq (value : String) :
    ∃ before after, (∀ c ∈ before, filler c = true) ∧ (∀ c ∈ after, filler c = true) ∧
      value.toList.map Char.toLower = before ++ (lowered value ++ after) := by
  have white (chars : List Char) (all : ∀ c ∈ chars, isWhitespace c = true) :
      ∀ c ∈ chars.map Char.toLower, filler c = true := by
    intro c member
    obtain ⟨upper, inside, rfl⟩ := List.mem_map.mp member
    obtain ⟨same, fill⟩ := lower_whitespace (all upper inside)
    rw [same]
    exact fill
  refine ⟨_, _, white (value.toList.takeWhile isWhitespace) fun c => List.mem_takeWhile_imp,
    white ((value.toList.dropWhile isWhitespace).rtakeWhile isWhitespace)
      fun c => List.mem_rtakeWhile_imp, ?_⟩
  change _ = _ ++ (((value.toList.dropWhile isWhitespace).rdropWhile isWhitespace).map _ ++ _)
  rw [← List.map_append, ← List.map_append, List.rdropWhile_append_rtakeWhile,
    List.takeWhile_append_dropWhile]

theorem flatMap_lowerChar_of_ascii (ascii : ∀ c ∈ chars, c.toNat < 128) :
    chars.flatMap lowerChar = chars.map Char.toLower := by
  induction chars with
  | nil => rfl
  | cons c rest ih =>
      obtain ⟨first, others⟩ := List.forall_mem_cons.mp ascii
      have kelvin : c ≠ Char.ofNat 0x212A := by
        rintro rfl
        exact absurd first (by decide)
      have dotted : c ≠ Char.ofNat 0x130 := by
        rintro rfl
        exact absurd first (by decide)
      rw [List.flatMap_cons, List.map_cons, ih others, lowerChar, if_neg kelvin, if_neg dotted,
        List.singleton_append]

theorem core_lowered (ascii : Ascii value) :
    core (value.toList.flatMap lowerChar) = core (lowered value) := by
  obtain ⟨before, after, front, back, whole⟩ := map_toLower_eq value
  rw [flatMap_lowerChar_of_ascii ascii, whole, core_append front back]

theorem isUpper_lowered {c : Char} (member : c ∈ lowered value) : c.isUpper = false := by
  obtain ⟨upper, -, rfl⟩ := List.mem_map.mp member
  exact Char.isUpper_toLower_eq_false upper

theorem getLast?_ne_dash {text : List Char} (closed : text.rdropWhile (· = '-') = text) :
    text.getLast? ≠ some '-' := by
  intro last
  obtain ⟨before, rfl⟩ := List.getLast?_eq_some_iff.mp last
  exact List.rdropWhile_eq_self_iff.mp closed (by simp) (by simp)

/-- The agent keeps what the Worker keeps. -/
theorem pushed_eq_iff (clean : EndsClean chars)
    (room : leadingDashes chars < 64) :
    ((gaps true (core chars)).take (64 - leadingDashes chars)).rdropWhile (· = '-') =
        (dashRuns false (core chars)).take 64 ↔
      RunsApart chars ∧
      (leadingDashes chars = 0 ∨ leadingDashes chars + places false (core chars) ≤ 64) := by
  have closed := (closed_take_iff chars).mpr clean
  have total : (dashRuns false (core chars)).length = places false (core chars) := length_dashRuns _ _
  constructor
  · intro same
    have pushed : (dashRuns false (core chars)).take 64 <+: gaps true (core chars) :=
      same ▸ (List.rdropWhile_prefix _ _).trans (List.take_prefix _ _)
    have lengths := congrArg List.length same
    have fits := (List.rdropWhile_prefix (fun c => decide (c = '-'))
      ((gaps true (core chars)).take (64 - leadingDashes chars))).length_le
    rw [List.length_take] at lengths fits
    refine ⟨fun before c leads count => ?_, by omega⟩
    by_contra other
    rw [Bool.not_eq_true] at other
    obtain ⟨after, whole⟩ := leads
    rw [List.append_assoc, List.cons_append, List.singleton_append] at whole
    rw [← whole] at pushed closed
    have short : ((dashRuns false (before ++ '-' :: c :: after)).take 64).length ≤
        places false before + 1 :=
      length_le_of_common nofun (getLast?_ne_dash closed) (List.take_prefix _ _) pushed other
    have inside : places false (before ++ ['-', c]) ≤ places false (core chars) := by
      rw [← whole, show before ++ '-' :: c :: after = before ++ ['-', c] ++ after by simp,
        places_append _ (before ++ ['-', c])]
      omega
    rw [whole, List.length_take, total] at short
    rw [places_append, places_dash_other other] at count inside
    omega
  · rintro ⟨apart, front⟩
    have first : ∀ c ∈ (core chars).head?, allowedChar c = true := by
      intro c member
      obtain ⟨rest, opens⟩ := List.head?_eq_some_iff.mp member
      exact (allowed_of_not_filler (filler_of_core_eq_cons opens)).1
    have same : (gaps true (core chars)).take 64 = (dashRuns false (core chars)).take 64 :=
      take_gaps_eq 64 apart (.inr (.inr first))
    rcases front with none_ | fits
    · rw [none_, same, closed]
    · have shorter : (gaps true (core chars)).length ≤ (dashRuns false (core chars)).length :=
        length_gaps_le (by nofun) _
      rw [List.take_of_length_le (by omega), List.take_of_length_le (by omega)] at same
      rw [List.take_of_length_le (by omega), List.take_of_length_le (by omega), same,
        closed_dashRuns_core]

theorem normalized_eq (value : String) :
    trimDashes (pushChars 64 true false (lowered value)) =
      ((gaps true (core (lowered value))).take (64 - leadingDashes (lowered value))).rdropWhile
        (· = '-') := by
  rw [pushChars_eq _ _ _ _ fun c => isUpper_lowered, Bool.false_or, trimDashes_pushed]

theorem pushed_ne_nil (some_ : core chars ≠ []) (room : leadingDashes chars < 64) :
    ((gaps true (core chars)).take (64 - leadingDashes chars)).rdropWhile (· = '-') ≠ [] := by
  intro none_
  rw [List.rdropWhile_eq_nil_iff] at none_
  obtain ⟨c, rest, opens⟩ := List.exists_cons_of_ne_nil some_
  obtain ⟨allowed, solid⟩ := allowed_of_not_filler (filler_of_core_eq_cons opens)
  obtain ⟨limit, more⟩ := Nat.exists_eq_add_of_lt room
  rw [opens, gaps, if_pos allowed, show 64 - leadingDashes chars = limit + 1 by omega,
    List.take_succ_cons] at none_
  exact solid (of_decide_eq_true (none_ c List.mem_cons_self))

/-- An id is cleaned to a text that a second cleaning leaves alone, and to the one that the agent
reports, where no dash stands at the cut, no run of other characters follows a dash of its own, and
the dashes ahead of the id leave it room. -/
theorem cleaned_canonically (value : String) :
    (sanitizeAgentId (sanitizeAgentId value) = sanitizeAgentId value ∧
      (Ascii value → ∀ id, normalizeAgentId value = .ok id → sanitizeAgentId value = id)) ↔
    Canonical value := by
  rw [sanitizeAgentId_twice_iff, Canonical]
  refine and_congr_right fun clean => forall_congr' fun ascii => ?_
  have clean' : EndsClean (lowered value) := by simpa only [EndsClean, core_lowered ascii] using clean
  rw [sanitizeAgentId_eq, core_lowered ascii, normalizeAgentId, normalized_eq]
  by_cases room : leadingDashes (lowered value) < 64
  · by_cases some_ : core (lowered value) = []
    · have rejected : ((gaps true (core (lowered value))).take
          (64 - leadingDashes (lowered value))).rdropWhile (· = '-') = [] := by
        simp [some_, gaps]
      refine iff_of_true ?_ fun _ => ⟨fun before c leads => ?_, .inr ?_⟩
      · intro id ok
        rw [rejected] at ok
        cases ok
      · rw [some_] at leads
        exact absurd (List.prefix_nil.mp leads) (by simp)
      · rw [some_, places]
        omega
    · rw [if_neg (pushed_ne_nil some_ room), ← pushed_eq_iff clean' room]
      constructor
      · intro agree _
        exact (String.ofList_inj.mp (agree _ rfl)).symm
      · intro same id ok
        rw [← Except.ok.inj ok, same room]
  · refine iff_of_true (fun id ok => ?_) fun below => absurd below room
    rw [Nat.sub_eq_zero_of_le (Nat.le_of_not_lt room), List.take_zero] at ok
    cases ok

/-- An id of one character too many, with a dash before the last. -/
def longId : List Char := List.replicate 63 'n' ++ ['-', '1']

/-- Cut at 64 characters the id keeps a dash that the second cleaning takes away; and of two dashes in
a row the agent keeps one. -/
theorem cleaned_twice_differs :
    sanitizeAgentId (sanitizeAgentId (String.ofList longId)) ≠ sanitizeAgentId (String.ofList longId) ∧
      Ascii "eu- 1" ∧ normalizeAgentId "eu- 1" = .ok "eu-1" ∧ sanitizeAgentId "eu- 1" = "eu--1" := by
  have dash : (dashRuns false (core (longId.flatMap lowerChar)))[63]? = some '-' := by decide +kernel
  refine ⟨fun same => ?_, by simp [Ascii], by decide +kernel, by decide +kernel⟩
  have clean := (sanitizeAgentId_twice_iff _).mp same
  rw [String.toList_ofList] at clean
  exact (endsClean_iff _).mp clean dash

end Agreement

end NieSla.Ids
