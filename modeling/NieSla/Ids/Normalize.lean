import NieSla.Util.Ids

/-! Agent ids twice: as the Worker cleans them and as the agent reports its own. Both turn what is no
letter of an id into dashes; they count and cut the dashes in different orders. -/
namespace NieSla.Ids

/-- White space of Rust. -/
def isWhitespace (c : Char) : Bool :=
  [0x9, 0xA, 0xB, 0xC, 0xD, 0x20, 0x85, 0xA0, 0x1680, 0x2028, 0x2029, 0x202F, 0x205F,
    0x3000].contains c.val || (0x2000 ≤ c.val && c.val ≤ 0x200A)

/-- The loop of `normalize_agent_id`: what it pushes while there is room. -/
def pushChars (room : Nat) (isEmpty previousDash : Bool) : List Char → List Char
  | [] => []
  | c :: rest =>
      if room = 0 then []
      else if c.isAlphanum || c = '.' || c = '_' || c = ':' || c = '-' then
        c :: pushChars (room - 1) false (c = '-') rest
      else if !previousDash && !isEmpty then '-' :: pushChars (room - 1) false true rest
      else pushChars room isEmpty previousDash rest

/-- `value.trim().to_ascii_lowercase().chars()` -/
def lowered (value : String) : List Char :=
  (((value.toList.dropWhile isWhitespace).reverse.dropWhile isWhitespace).reverse).map Char.toLower

def normalizeAgentId (value : String) : Except String String :=
  let normalized := trimDashes (pushChars 64 true false (lowered value))
  if normalized = [] then .error "NIE_SLA_AGENT_ID must contain an ASCII letter or number"
  else .ok (String.ofList normalized)

/-- Characters that make no id: a dash, and all that becomes one. -/
def filler (c : Char) : Bool := !allowedChar c || c = '-'

/-- From the first character that is no filler to the last. -/
def core (chars : List Char) : List Char := (chars.dropWhile filler).rdropWhile filler

/-- The loop of `normalize_agent_id` without a limit; `skip` when another dash is not wanted. -/
def gaps (skip : Bool) : List Char → List Char
  | [] => []
  | c :: rest =>
      if allowedChar c then c :: gaps (c = '-') rest
      else if skip then gaps true rest
      else '-' :: gaps true rest

section Runs

variable {chars before rest : List Char} {c : Char}

theorem allowedChar_dash : allowedChar '-' = true := by decide

theorem filler_dash : filler '-' = true := by decide

theorem filler_of_not_allowed (other : allowedChar c = false) : filler c = true := by
  simp [filler, other]

theorem ne_dash_of_not_allowed (other : allowedChar c = false) : c ≠ '-' := by
  rintro rfl
  exact absurd other (by decide)

theorem allowed_of_not_filler (solid : filler c = false) : allowedChar c = true ∧ c ≠ '-' := by
  simpa [filler] using solid

theorem filler_of_allowed (allowed : allowedChar c = true) : filler c = (c == '-') := by
  simp [filler, allowed, BEq.beq]

/-- Whether a run of other characters is open after `chars`. -/
def openRun (inRun : Bool) : List Char → Bool
  | [] => inRun
  | c :: rest => openRun (!allowedChar c) rest

theorem dashRuns_append (inRun : Bool) (before rest : List Char) :
    dashRuns inRun (before ++ rest) = dashRuns inRun before ++ dashRuns (openRun inRun before) rest := by
  induction before generalizing inRun with
  | nil => rfl
  | cons c before ih =>
      simp only [List.cons_append, dashRuns, openRun]
      by_cases allowed : allowedChar c
      · simp [allowed, ih]
      · cases inRun <;> simp [allowed, ih]

theorem eq_dash_of_mem_dashRuns {inRun : Bool} {d : Char} (fill : filler c = true)
    (member : d ∈ dashRuns inRun [c]) : d = '-' := by
  by_cases allowed : allowedChar c
  · have dash : c = '-' := by simpa [filler, allowed] using fill
    simpa [dashRuns, allowedChar_dash, dash] using member
  · cases inRun <;> simp_all [dashRuns]

theorem dropWhile_dashRuns (inRun : Bool) (chars : List Char) :
    (dashRuns inRun chars).dropWhile (· = '-') = dashRuns false (chars.dropWhile filler) := by
  induction chars generalizing inRun with
  | nil => rfl
  | cons c rest ih =>
      by_cases allowed : allowedChar c
      · by_cases dash : c = '-'
        · subst dash
          simp [dashRuns, allowedChar_dash, filler_dash, ih]
        · have solid : filler c = false := by simp [filler, allowed, dash]
          simp [dashRuns, allowed, dash, solid]
      · have fill := filler_of_not_allowed (Bool.eq_false_iff.mpr allowed)
        cases inRun <;> simp [dashRuns, allowed, fill, ih]

theorem rdropWhile_append_all {α : Type*} {p : α → Bool} {first last : List α}
    (all : ∀ item ∈ last, p item = true) : (first ++ last).rdropWhile p = first.rdropWhile p := by
  rw [List.rdropWhile, List.reverse_append, List.dropWhile_append_of_pos (by simpa using all),
    List.rdropWhile]

theorem rdropWhile_dashRuns (inRun : Bool) (chars : List Char) :
    (dashRuns inRun chars).rdropWhile (· = '-') = dashRuns inRun (chars.rdropWhile filler) := by
  induction chars using List.reverseRecOn with
  | nil => rfl
  | append_singleton chars c ih =>
      rw [dashRuns_append]
      by_cases fill : filler c
      · rw [rdropWhile_append_all, ih, List.rdropWhile_concat_pos _ _ _ fill]
        exact fun d member => decide_eq_true (eq_dash_of_mem_dashRuns fill member)
      · obtain ⟨allowed, solid⟩ := allowed_of_not_filler (Bool.eq_false_iff.mpr fill)
        rw [List.rdropWhile_concat_neg _ _ _ fill, dashRuns_append]
        simp [dashRuns, allowed, solid]

/-- Trimming after the runs are dashes is trimming the fillers before. -/
theorem trimDashes_dashRuns (chars : List Char) :
    trimDashes (dashRuns false chars) = dashRuns false (core chars) :=
  calc trimDashes (dashRuns false chars)
      = ((dashRuns false chars).dropWhile (· = '-')).rdropWhile (· = '-') := rfl
    _ = dashRuns false (core chars) := by rw [dropWhile_dashRuns, rdropWhile_dashRuns, core]

theorem sanitizeAgentId_eq (value : String) :
    sanitizeAgentId value =
      String.ofList ((dashRuns false (core (value.toList.flatMap lowerChar))).take 64) := by
  rw [sanitizeAgentId, trimDashes_dashRuns]

theorem allowed_of_mem_dashRuns {inRun : Bool} (member : c ∈ dashRuns inRun chars) :
    allowedChar c = true := by
  induction chars generalizing inRun with
  | nil => exact absurd member List.not_mem_nil
  | cons first rest ih =>
      unfold dashRuns at member
      split at member
      next allowed =>
        rcases List.mem_cons.mp member with rfl | later
        · exact allowed
        · exact ih later
      next =>
        split at member
        · exact ih member
        · rcases List.mem_cons.mp member with rfl | later
          · exact allowedChar_dash
          · exact ih later

theorem dashRuns_of_allowed {inRun : Bool} (all : ∀ c ∈ chars, allowedChar c = true) :
    dashRuns inRun chars = chars := by
  induction chars generalizing inRun with
  | nil => rfl
  | cons c rest ih =>
      obtain ⟨allowed, others⟩ := List.forall_mem_cons.mp all
      simp [dashRuns, allowed, ih others]

/-- A core that is not empty opens with a character that is no filler. -/
theorem filler_of_core_eq_cons (opens : core chars = c :: rest) : filler c = false := by
  obtain ⟨last, whole⟩ : core chars <+: chars.dropWhile filler := List.rdropWhile_prefix _ _
  rw [opens, List.cons_append] at whole
  have first := List.head?_dropWhile_not filler chars
  rw [← whole] at first
  exact first

theorem filler_of_core_eq_concat (closes : core chars = before ++ [c]) : filler c = false := by
  have some_ : core chars ≠ [] := by
    rw [closes]
    exact List.append_ne_nil_of_right_ne_nil _ (List.cons_ne_nil _ _)
  have last : ¬filler ((core chars).getLast some_) := List.rdropWhile_last_not filler _ some_
  simpa [closes] using last

end Runs

end NieSla.Ids
