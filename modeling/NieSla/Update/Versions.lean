import NieSla.Lib.Doubles
import NieSla.Lib.Semver
import NieSla.Util.Text

/-! Versions as `parseSemver` reads them, and their comparison. -/
namespace NieSla.Update

/-- `String(value || '').trim().replace(/^v/i, '')` -/
def stripped (value : String) : List Char :=
  match (trim value).toList with
  | [] => []
  | c :: rest => if c = 'v' ∨ c = 'V' then rest else c :: rest

/-- The groups of the pattern, the last one split at its dots. -/
structure VersionMatch where
  major : List Char
  minor : List Char
  patch : List Char
  prerelease : List (List Char)

/-- `\d+` -/
def takeDigits (chars : List Char) : Option (List Char × List Char) :=
  if chars.takeWhile Char.isDigit = [] then none
  else some (chars.takeWhile Char.isDigit, chars.dropWhile Char.isDigit)

def takeChar (c : Char) : List Char → Option (List Char)
  | [] => none
  | first :: rest => if first = c then some rest else none

/-- `[0-9A-Za-z-]+` -/
def identifierPart (part : List Char) : Bool := part ≠ [] && part.all Semver.identifierChar

/-- `match(/^(\d+)\.(\d+)\.(\d+)(?:-([0-9A-Za-z-]+(?:\.[0-9A-Za-z-]+)*))?$/)` -/
def matchVersion (chars : List Char) : Option VersionMatch := do
  let (major, rest) ← takeDigits chars
  let (minor, rest) ← (takeChar '.' rest).bind takeDigits
  let (patch, rest) ← (takeChar '.' rest).bind takeDigits
  if rest = [] then some ⟨major, minor, patch, []⟩
  else
    let parts := (← takeChar '-' rest).splitOn '.'
    if parts.all identifierPart then some ⟨major, minor, patch, parts⟩ else none

/-- What `parseSemver` returns. -/
structure ParsedVersion where
  core : List (WithTop ℕ)
  prerelease : List (List Char)

/-- `Number.isSafeInteger` of a number without a fraction and a sign. -/
def isSafeInteger (number : WithTop ℕ) : Bool := number < ((2 ^ 53 : ℕ) : WithTop ℕ)

theorem isSafeInteger_iff {number : WithTop ℕ} :
    isSafeInteger number = true ↔ number < ((2 ^ 53 : ℕ) : WithTop ℕ) := decide_eq_true_iff

/-- `/^\d+$/.test(part)` -/
def isNumeric (part : List Char) : Bool := part ≠ [] && part.all Char.isDigit

/-- `parseSemver`; `none` where it throws. -/
def parseSemver (value : String) : Option ParsedVersion := do
  let found ← matchVersion (stripped value)
  let core := [found.major, found.minor, found.patch].map Doubles.ofDigits
  if core.any fun part => !isSafeInteger part then none
  else if found.prerelease.any fun part => isNumeric part && Doubles.text (Doubles.ofDigits part) ≠ part then none
  else some ⟨core, found.prerelease⟩

/-- The loop of `comparePrerelease`. -/
def compareIdentifiers : List (List Char) → List (List Char) → ℤ
  | [], [] => 0
  | [], _ :: _ => -1
  | _ :: _, [] => 1
  | left :: lefts, right :: rights =>
      if left = right then compareIdentifiers lefts rights
      else if isNumeric left && isNumeric right then
        if Doubles.ofDigits right < Doubles.ofDigits left then 1 else -1
      else if isNumeric left != isNumeric right then if isNumeric left then -1 else 1
      else if right < left then 1 else -1

def comparePrerelease (left right : List (List Char)) : ℤ :=
  if left = [] ∨ right = [] then
    if left.length = right.length then 0 else if left ≠ [] then -1 else 1
  else compareIdentifiers left right

/-- The loop of `compareAppVersions`, where it returns. -/
def compareCore : List (WithTop ℕ) → List (WithTop ℕ) → Option ℤ
  | left :: lefts, right :: rights =>
      if left ≠ right then some (if right < left then 1 else -1) else compareCore lefts rights
  | _, _ => none

/-- `compareAppVersions`; `none` where it throws. -/
def compareAppVersions (left right : String) : Option ℤ := do
  let a ← parseSemver left
  let b ← parseSemver right
  some ((compareCore a.core b.core).getD (comparePrerelease a.prerelease b.prerelease))

/-! What the pattern matches. -/

/-- The digits, and the parts of the pre-release. -/
structure VersionMatch.Sound (found : VersionMatch) : Prop where
  major : found.major ≠ [] ∧ ∀ c ∈ found.major, c.isDigit = true
  minor : found.minor ≠ [] ∧ ∀ c ∈ found.minor, c.isDigit = true
  patch : found.patch ≠ [] ∧ ∀ c ∈ found.patch, c.isDigit = true
  parts : ∀ part ∈ found.prerelease, part ≠ [] ∧ ∀ c ∈ part, Semver.identifierChar c = true

/-- The text that was matched. -/
def VersionMatch.chars (found : VersionMatch) : List Char :=
  found.major ++ '.' :: (found.minor ++ '.' :: (found.patch ++
    if found.prerelease = [] then [] else '-' :: ['.'].intercalate found.prerelease))

theorem takeDigits_eq_some {chars digits rest : List Char} (found : takeDigits chars = some (digits, rest)) :
    chars = digits ++ rest ∧ digits ≠ [] ∧ ∀ c ∈ digits, c.isDigit = true := by
  unfold takeDigits at found
  split at found
  · contradiction
  · rename_i some_
    cases found
    exact ⟨List.takeWhile_append_dropWhile.symm, some_, fun c member => List.mem_takeWhile_imp member⟩

theorem takeChar_eq_some {c : Char} {chars rest : List Char} : takeChar c chars = some rest ↔ chars = c :: rest := by
  cases chars with
  | nil => simp [takeChar]
  | cons first others =>
      by_cases same : first = c
      · simp [takeChar, same]
      · simp [takeChar, same]

theorem matchVersion_eq_some {chars : List Char} {found : VersionMatch} (matched : matchVersion chars = some found) :
    found.chars = chars ∧ found.Sound := by
  simp only [matchVersion, Option.bind_eq_bind, Option.bind_eq_some_iff, Prod.exists] at matched
  obtain ⟨major, afterMajor, first, minor, afterMinor, ⟨dotted, dot, second⟩, patch, afterPatch,
    ⟨dotted', dot', third⟩, last⟩ := matched
  obtain ⟨rfl, majors⟩ := takeDigits_eq_some first
  obtain ⟨rfl, minors⟩ := takeDigits_eq_some second
  obtain ⟨rfl, patches⟩ := takeDigits_eq_some third
  rw [takeChar_eq_some] at dot dot'
  subst dot dot'
  split at last
  · rename_i nothing
    cases last
    subst nothing
    exact ⟨rfl, majors, minors, patches, fun _ member => absurd member List.not_mem_nil⟩
  · simp only [Option.bind_eq_some_iff] at last
    obtain ⟨tail, dash, parts⟩ := last
    rw [takeChar_eq_some] at dash
    subst dash
    split at parts
    · rename_i identifiers
      cases parts
      refine ⟨?_, majors, minors, patches, fun part member => ?_⟩
      · have some_ : tail.splitOn '.' ≠ [] := List.splitOn_ne_nil _ _
        rw [VersionMatch.chars, if_neg some_, List.intercalate_splitOn]
      · have kept := List.all_eq_true.mp identifiers part member
        simpa [identifierPart] using kept
    · contradiction

/-- What `parseSemver` accepts. -/
structure ParsedVersion.Reads (value : String) (found : VersionMatch) (parsed : ParsedVersion) : Prop where
  chars : stripped value = found.chars
  sound : found.Sound
  core : parsed.core = [found.major, found.minor, found.patch].map Doubles.ofDigits
  prerelease : parsed.prerelease = found.prerelease
  safe : ∀ part ∈ [found.major, found.minor, found.patch], isSafeInteger (Doubles.ofDigits part) = true
  numbers : ∀ part ∈ found.prerelease, isNumeric part = true → Doubles.text (Doubles.ofDigits part) = part

theorem parseSemver_eq_some {value : String} {parsed : ParsedVersion} (accepted : parseSemver value = some parsed) :
    ∃ found, parsed.Reads value found := by
  simp only [parseSemver, Option.bind_eq_bind, Option.bind_eq_some_iff] at accepted
  obtain ⟨found, matched, rest⟩ := accepted
  obtain ⟨chars, sound⟩ := matchVersion_eq_some matched
  split at rest
  · contradiction
  · rename_i safe
    split at rest
    · contradiction
    · rename_i numbers
      cases rest
      refine ⟨found, chars.symm, sound, rfl, rfl, ?_, ?_⟩
      · simpa using safe
      · simpa using numbers

end NieSla.Update
