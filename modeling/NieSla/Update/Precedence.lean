import NieSla.Update.Versions

/-! `compareAppVersions` on accepted versions is the precedence of SemVer 2.0, where no core number has a leading
zero. -/
namespace NieSla.Update

open Semver Doubles

/-- The core numbers of a version text. -/
def coreParts (value : String) : List (List Char) := ((stripped value).takeWhile (· ≠ '-')).splitOn '.'

/-- No core number has a leading zero. -/
def CoreCanonical (value : String) : Prop := ∀ part ∈ coreParts value, Canonical part

instance (value : String) : Decidable (CoreCanonical value) := inferInstanceAs (Decidable (∀ part ∈ _, _))

/-- Both texts are SemVer 2.0 versions, and they compare as these versions, with 0 for one version only. -/
def ComparesAsSemver (left right : String) : Prop :=
  ∃ first second : Version, stripped left = first.text ∧ stripped right = second.text ∧
    compareAppVersions left right = some (first.precedence second) ∧
    (compareAppVersions left right = some 0 → first = second)

/-! The version that a text denotes. -/

def identifierOf (part : List Char) : Identifier :=
  if kept : (∀ c ∈ part, identifierChar c = true) ∧ ∃ c ∈ part, c.isDigit = false then .alphanumeric ⟨part, kept⟩
  else .numeric (value part)

def VersionMatch.version (found : VersionMatch) : Version :=
  ⟨value found.major, value found.minor, value found.patch, found.prerelease.map identifierOf⟩

/-- A part of the pre-release that the parser lets through. -/
structure Accepted (part : List Char) : Prop where
  some_ : part ≠ []
  chars : ∀ c ∈ part, identifierChar c = true
  number : isNumeric part = true → text (ofDigits part) = part

theorem isNumeric_iff {part : List Char} (some_ : part ≠ []) : isNumeric part = true ↔ ∀ c ∈ part, c.isDigit = true := by
  simp [isNumeric, some_]

section Identifiers

variable {part other : List Char}

theorem identifierOf_numeric (numeric : isNumeric part = true) : identifierOf part = .numeric (value part) := by
  have digits : ∀ c ∈ part, c.isDigit = true := by simpa using (Bool.and_eq_true_iff.mp numeric).2
  refine dif_neg ?_
  rintro ⟨_, c, member, other⟩
  rw [digits c member] at other
  contradiction

theorem Accepted.alphanumeric (accepted : Accepted part) (numeric : isNumeric part = false) :
    ∃ kept, identifierOf part = .alphanumeric ⟨part, kept⟩ := by
  have kept : (∀ c ∈ part, identifierChar c = true) ∧ ∃ c ∈ part, c.isDigit = false := by
    refine ⟨accepted.chars, ?_⟩
    by_contra none_
    push Not at none_
    have digits : ∀ c ∈ part, c.isDigit = true := fun c member => Bool.eq_true_of_not_eq_false (none_ c member)
    rw [(isNumeric_iff accepted.some_).mpr digits] at numeric
    contradiction
  exact ⟨kept, dif_pos kept⟩

theorem Accepted.text_identifierOf (accepted : Accepted part) : (identifierOf part).text = part := by
  cases numeric : isNumeric part with
  | false =>
      obtain ⟨kept, same⟩ := accepted.alphanumeric numeric
      rw [same]
      rfl
  | true =>
      rw [identifierOf_numeric numeric]
      exact toDigits_value accepted.some_ ((isNumeric_iff accepted.some_).mp numeric)
        (canonical_of_text (accepted.number numeric))

/-- Different parts denote different identifiers. -/
theorem identifierOf_inj (left : Accepted part) (right : Accepted other) :
    identifierOf part = identifierOf other ↔ part = other := by
  constructor
  · intro same
    rw [← left.text_identifierOf, same, right.text_identifierOf]
  · rintro rfl
    rfl

/-- Different parts compare as their identifiers. -/
theorem sign_identifierOf (left : Accepted part) (right : Accepted other) (ne : part ≠ other) :
    sign (identifierOf part) (identifierOf other) =
      if isNumeric part && isNumeric other then if ofDigits other < ofDigits part then 1 else -1
      else if isNumeric part != isNumeric other then if isNumeric part then -1 else 1
      else if other < part then 1 else -1 := by
  have apart : identifierOf part ≠ identifierOf other := fun same => ne ((identifierOf_inj left right).mp same)
  rw [sign_of_ne apart]
  cases first : isNumeric part with
  | true =>
      cases second : isNumeric other with
      | true =>
          rw [identifierOf_numeric first, identifierOf_numeric second]
          simp only [Identifier.numeric_lt, Bool.and_self, if_true,
            ofDigits_lt_iff (right.number second) (left.number first) ne.symm]
      | false =>
          obtain ⟨kept, same⟩ := right.alphanumeric second
          rw [identifierOf_numeric first, same]
          rw [if_neg (Identifier.numeric_lt_alphanumeric _ _).not_gt]
          rfl
  | false =>
      obtain ⟨kept, same⟩ := left.alphanumeric first
      cases second : isNumeric other with
      | true =>
          rw [identifierOf_numeric second, same]
          rw [if_pos (Identifier.numeric_lt_alphanumeric _ _)]
          rfl
      | false =>
          obtain ⟨kept', same'⟩ := right.alphanumeric second
          rw [same, same']
          simp only [Identifier.alphanumeric_lt]
          rfl

theorem compareIdentifiers_eq {lefts rights : List (List Char)} (left : ∀ part ∈ lefts, Accepted part)
    (right : ∀ part ∈ rights, Accepted part) :
    compareIdentifiers lefts rights = sign (lefts.map identifierOf) (rights.map identifierOf) := by
  induction lefts generalizing rights with
  | nil =>
      cases rights with
      | nil => exact (sign_self _).symm
      | cons part rights => exact (sign_nil_cons _ _).symm
  | cons part lefts ih =>
      cases rights with
      | nil => exact (sign_cons_nil _ _).symm
      | cons other rights =>
          rw [List.map_cons, List.map_cons, sign_cons]
          have first := left part List.mem_cons_self
          have second := right other List.mem_cons_self
          by_cases same : part = other
          · rw [compareIdentifiers, if_pos same, if_pos (congrArg identifierOf same)]
            exact ih (fun part member => left part (List.mem_cons_of_mem _ member))
              fun part member => right part (List.mem_cons_of_mem _ member)
          · rw [compareIdentifiers, if_neg same, if_neg fun eq => same ((identifierOf_inj first second).mp eq),
              sign_identifierOf first second same]

end Identifiers

/-! The parts of a text. -/

theorem splitCore {major minor patch tail : List Char} (digits : ∀ part ∈ [major, minor, patch], ∀ c ∈ part, c.isDigit = true)
    (ends : tail = [] ∨ ∃ rest, tail = '-' :: rest) :
    ((major ++ '.' :: (minor ++ '.' :: (patch ++ tail))).takeWhile (· ≠ '-')).splitOn '.' = [major, minor, patch] := by
  have joined : major ++ '.' :: (minor ++ '.' :: (patch ++ tail)) = ['.'].intercalate [major, minor, patch] ++ tail := by
    simp [List.intercalate_cons_cons, List.intercalate_singleton]
  have front : ∀ c ∈ ['.'].intercalate [major, minor, patch], decide (c ≠ '-') = true := by
    rintro c member
    rw [decide_eq_true_eq]
    rintro rfl
    have inside : ∃ part ∈ [major, minor, patch], '-' ∈ part := by
      simpa [List.intercalate_cons_cons, List.intercalate_singleton] using member
    obtain ⟨part, listed, dash⟩ := inside
    exact absurd (digits part listed _ dash) (by decide)
  have back : tail.takeWhile (· ≠ '-') = [] := by
    obtain rfl | ⟨rest, rfl⟩ := ends
    · rfl
    · rfl
  rw [joined, List.takeWhile_append_of_pos front, back, List.append_nil, List.splitOn_intercalate]
  · intro part member dot
    exact absurd (digits part member _ dot) (by decide)
  · exact List.cons_ne_nil _ _

theorem canonical_toDigits (n : ℕ) : Canonical (Nat.toDigits 10 n) := by
  obtain rfl | positive := Nat.eq_zero_or_pos n
  · exact .inl rfl
  · exact .inr (head_toDigits positive)

/-- A text of a version has canonical core numbers. -/
theorem coreCanonical_of_text {text_ : String} {version : Version} (same : stripped text_ = version.text) :
    CoreCanonical text_ := by
  have parts : coreParts text_ = [Nat.toDigits 10 version.major, Nat.toDigits 10 version.minor,
      Nat.toDigits 10 version.patch] := by
    rw [coreParts, same, Version.text, splitCore]
    · intro part member c inside
      simp only [List.mem_cons, List.not_mem_nil, or_false] at member
      obtain rfl | rfl | rfl := member <;> exact Nat.isDigit_of_mem_toDigits (by decide) (by decide) inside
    · split
      · exact .inl rfl
      · exact .inr ⟨_, rfl⟩
  intro part member
  rw [parts] at member
  simp only [List.mem_cons, List.not_mem_nil, or_false] at member
  obtain rfl | rfl | rfl := member <;> exact canonical_toDigits _

section Reads

variable {text_ : String} {found : VersionMatch} {parsed : ParsedVersion}

theorem VersionMatch.Sound.digits (sound : found.Sound) :
    ∀ part ∈ [found.major, found.minor, found.patch], part ≠ [] ∧ ∀ c ∈ part, c.isDigit = true := by
  simp only [List.mem_cons, List.not_mem_nil, or_false]
  rintro part (rfl | rfl | rfl)
  · exact sound.major
  · exact sound.minor
  · exact sound.patch

theorem ParsedVersion.Reads.coreParts_eq (reads : parsed.Reads text_ found) :
    coreParts text_ = [found.major, found.minor, found.patch] := by
  rw [coreParts, reads.chars, VersionMatch.chars, splitCore]
  · exact fun part member => (reads.sound.digits part member).2
  · split
    · exact .inl rfl
    · exact .inr ⟨_, rfl⟩

theorem ParsedVersion.Reads.accepted (reads : parsed.Reads text_ found) : ∀ part ∈ found.prerelease, Accepted part :=
  fun part member => ⟨(reads.sound.parts part member).1, (reads.sound.parts part member).2, reads.numbers part member⟩

/-- The text is the text of the version that it denotes. -/
theorem ParsedVersion.Reads.text_version (reads : parsed.Reads text_ found) (canonical : CoreCanonical text_) :
    stripped text_ = found.version.text := by
  have core (part : List Char) (member : part ∈ [found.major, found.minor, found.patch]) :
      Nat.toDigits 10 (value part) = part :=
    toDigits_value (reads.sound.digits part member).1 (reads.sound.digits part member).2
      (canonical part (by rwa [reads.coreParts_eq]))
  have identifiers : (found.prerelease.map identifierOf).map Identifier.text = found.prerelease := by
    have each := fun part member => (reads.accepted part member).text_identifierOf
    generalize found.prerelease = parts at each
    induction parts with
    | nil => rfl
    | cons part parts ih =>
        rw [List.map_cons, List.map_cons, each part List.mem_cons_self,
          ih fun other member => each other (List.mem_cons_of_mem _ member)]
  have end_ : (if found.version.prerelease = [] then []
      else '-' :: ['.'].intercalate (found.version.prerelease.map Identifier.text)) =
      if found.prerelease = [] then [] else '-' :: ['.'].intercalate found.prerelease := by
    have same : found.version.prerelease = [] ↔ found.prerelease = [] := List.map_eq_nil_iff
    by_cases release : found.prerelease = []
    · rw [if_pos release, if_pos (same.mpr release)]
    · rw [if_neg release, if_neg (same.not.mpr release)]
      exact congrArg _ (congrArg _ identifiers)
  have major : Nat.toDigits 10 found.version.major = found.major := core found.major (by simp)
  have minor : Nat.toDigits 10 found.version.minor = found.minor := core found.minor (by simp)
  have patch : Nat.toDigits 10 found.version.patch = found.patch := core found.patch (by simp)
  rw [reads.chars, Version.text, end_, major, minor, patch, VersionMatch.chars]

/-- A core number is read as the number that its digits spell. -/
theorem ParsedVersion.Reads.core_eq (reads : parsed.Reads text_ found) :
    parsed.core = [(found.version.major : WithTop ℕ), (found.version.minor : WithTop ℕ),
      (found.version.patch : WithTop ℕ)] := by
  have exact_ (part : List Char) (member : part ∈ [found.major, found.minor, found.patch]) :
      ofDigits part = (value part : WithTop ℕ) := by
    have safe := isSafeInteger_iff.mp (reads.safe part member)
    rw [ofDigits] at safe ⊢
    exact ofNat_of_lt (lt_of_ofNat_lt safe)
  rw [reads.core]
  simp only [List.map_cons, List.map_nil, exact_ found.major (by simp), exact_ found.minor (by simp),
    exact_ found.patch (by simp)]
  rfl

end Reads

/-! The comparison. -/

theorem compareCore_eq (a b c a' b' c' : ℕ) (later : ℤ) :
    (compareCore [(a : WithTop ℕ), (b : WithTop ℕ), (c : WithTop ℕ)]
        [(a' : WithTop ℕ), (b' : WithTop ℕ), (c' : WithTop ℕ)]).getD later =
      if a ≠ a' then if a' < a then 1 else -1
      else if b ≠ b' then if b' < b then 1 else -1
      else if c ≠ c' then if c' < c then 1 else -1 else later := by
  simp only [compareCore, ne_eq, Nat.cast_inj, Nat.cast_lt]
  split_ifs <;> rfl

/-- A pre-release comes before its release, and two compare by their identifiers. -/
theorem comparePrerelease_eq {lefts rights : List (List Char)} (left : ∀ part ∈ lefts, Accepted part)
    (right : ∀ part ∈ rights, Accepted part) :
    comparePrerelease lefts rights =
      sign (if lefts.map identifierOf = [] then (⊤ : WithTop (List Identifier)) else lefts.map identifierOf)
        (if rights.map identifierOf = [] then (⊤ : WithTop (List Identifier)) else rights.map identifierOf) := by
  cases lefts with
  | nil =>
      cases rights with
      | nil => rfl
      | cons other rights => simp [comparePrerelease, sign]
  | cons part lefts =>
      cases rights with
      | nil => simp [comparePrerelease, sign]
      | cons other rights =>
          rw [comparePrerelease, if_neg (by simp), compareIdentifiers_eq left right, if_neg (by simp), if_neg (by simp)]
          exact sign_congr WithTop.coe_lt_coe.symm WithTop.coe_inj.symm

theorem precedence_eq (first second : Version) :
    first.precedence second =
      if first.major ≠ second.major then if second.major < first.major then 1 else -1
      else if first.minor ≠ second.minor then if second.minor < first.minor then 1 else -1
      else if first.patch ≠ second.patch then if second.patch < first.patch then 1 else -1
      else sign (if first.prerelease = [] then (⊤ : WithTop (List Identifier)) else first.prerelease)
        (if second.prerelease = [] then (⊤ : WithTop (List Identifier)) else second.prerelease) := by
  rw [← sign_pair, ← sign_pair, ← sign_pair]
  exact sign_congr Iff.rfl Version.rank_injective.eq_iff.symm

/-- The comparison is that of the denoted versions. -/
theorem compareAppVersions_eq {left right : String} {a b : ParsedVersion} {first second : VersionMatch}
    (left_ : parseSemver left = some a) (right_ : parseSemver right = some b) (readsLeft : a.Reads left first)
    (readsRight : b.Reads right second) :
    compareAppVersions left right = some (first.version.precedence second.version) := by
  have compared : compareAppVersions left right =
      some ((compareCore a.core b.core).getD (comparePrerelease a.prerelease b.prerelease)) := by
    simp only [compareAppVersions, left_, right_, Option.bind_eq_bind, Option.bind_some]
  rw [compared, precedence_eq, readsLeft.core_eq, readsRight.core_eq, compareCore_eq, readsLeft.prerelease,
    readsRight.prerelease, comparePrerelease_eq readsLeft.accepted readsRight.accepted]
  rfl

/-- Of two accepted texts: they are SemVer versions and compare by their precedence, a linear order, just where no core
number has a leading zero. -/
theorem compareAppVersions_semver_iff {left right : String} (left_ : (parseSemver left).isSome)
    (right_ : (parseSemver right).isSome) :
    ComparesAsSemver left right ↔ CoreCanonical left ∧ CoreCanonical right := by
  constructor
  · rintro ⟨first, second, same, same', _⟩
    exact ⟨coreCanonical_of_text same, coreCanonical_of_text same'⟩
  · rintro ⟨canonical, canonical'⟩
    obtain ⟨a, parsed⟩ := Option.isSome_iff_exists.mp left_
    obtain ⟨b, parsed'⟩ := Option.isSome_iff_exists.mp right_
    obtain ⟨first, reads⟩ := parseSemver_eq_some parsed
    obtain ⟨second, reads'⟩ := parseSemver_eq_some parsed'
    have compared := compareAppVersions_eq parsed parsed' reads reads'
    refine ⟨first.version, second.version, reads.text_version canonical, reads'.text_version canonical', compared, ?_⟩
    intro zero
    rw [compared, Option.some_inj] at zero
    exact sign_eq_zero.mp zero

/-- A pre-release and its release. -/
theorem compareAppVersions_semver_beta :
    (parseSemver "v1.10.0-beta.2").isSome ∧ (parseSemver "1.10.0").isSome ∧
      ComparesAsSemver "v1.10.0-beta.2" "1.10.0" := by
  have left : (parseSemver "v1.10.0-beta.2").isSome := by decide +kernel
  have right : (parseSemver "1.10.0").isSome := by decide +kernel
  exact ⟨left, right, (compareAppVersions_semver_iff left right).mpr ⟨by decide +kernel, by decide +kernel⟩⟩

/-- A leading zero in the core is accepted: no SemVer version, and a tie of two texts. -/
theorem leading_zero_accepted :
    (parseSemver "01.2.3").isSome ∧ (parseSemver "1.2.3").isSome ∧ compareAppVersions "01.2.3" "1.2.3" = some 0 ∧
      ¬ComparesAsSemver "01.2.3" "1.2.3" := by
  refine ⟨by decide +kernel, by decide +kernel, by decide +kernel, ?_⟩
  rintro ⟨first, second, same, _⟩
  exact absurd (coreCanonical_of_text same) (by decide +kernel)

end NieSla.Update
