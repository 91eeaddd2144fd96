import NieSla.Metrics.History

/-! Pings as they are handed to the functions that group them by target. -/
namespace NieSla.Metrics

open Telemetry

/-- A ping that is not normalized; the `ts` that is missing or no number is 0. -/
structure RawPing where
  targetId : String
  ts : ℚ
  latencyMs : Option ℚ
  ok : Option Int
deriving DecidableEq

def RawPing.normal (ping : RawPing) : Ping :=
  normalizePingPoint ping.targetId ⌊ping.ts⌋ ping.latencyMs ping.ok

/-- The pings that are grouped: of a target and of a time. -/
def knownPings (pings : List RawPing) : List Ping :=
  (pings.map RawPing.normal).filter fun ping => ping.targetId ≠ "" ∧ ping.ts ≠ 0

def pingsByTarget (pings : List Ping) : OrderedMap String (List Ping) := OrderedMap.group Ping.targetId pings

def pingsOf (targetId : String) (pings : List Ping) : List Ping :=
  pings.filter fun ping => ping.targetId = targetId

/-- `list.sort((a, b) => a.ts - b.ts)` -/
def pingsByTs (pings : List Ping) : List Ping := pings.insertionSort fun first second => first.ts ≤ second.ts

theorem mem_knownPings {pings : List RawPing} {ping : Ping} :
    ping ∈ knownPings pings ↔
      (∃ raw ∈ pings, raw.normal = ping) ∧ ping.targetId ≠ "" ∧ ping.ts ≠ 0 := by
  simp [knownPings]

theorem ok_of_normal (raw : RawPing) : raw.normal.ok = 0 ∨ raw.normal.ok = 1 := by
  unfold RawPing.normal normalizePingPoint
  dsimp only
  split
  · exact .inr rfl
  · exact .inl rfl

theorem sorted_pingsByTs (pings : List Ping) :
    (pingsByTs pings).Pairwise fun first second => first.ts ≤ second.ts :=
  haveI : Std.Total fun first second : Ping => first.ts ≤ second.ts := ⟨fun _ _ => le_total _ _⟩
  haveI : IsTrans Ping fun first second : Ping => first.ts ≤ second.ts := ⟨fun _ _ _ => le_trans⟩
  List.pairwise_insertionSort _ pings

/-- The sort by time and target keeps the pings of a target in their order. -/
theorem pingsOf_insertionSort {collate : String → String → Bool} {targetId : String}
    (same : collate targetId targetId = true) {pings : List Ping}
    (sorted : (pingsOf targetId pings).Pairwise fun first second => first.ts ≤ second.ts) :
    pingsOf targetId (pings.insertionSort (tsThenTarget collate Ping.targetId Ping.ts)) =
      pingsOf targetId pings := by
  have ordered : (pingsOf targetId pings).Pairwise (tsThenTarget collate Ping.targetId Ping.ts) := by
    refine sorted.imp_of_mem fun {first second} one two before => ?_
    have own : first.targetId = targetId := by simpa [pingsOf] using (List.mem_filter.mp one).2
    have other : second.targetId = targetId := by simpa [pingsOf] using (List.mem_filter.mp two).2
    rcases before.lt_or_eq with earlier | equal
    · exact .inl earlier
    · exact .inr ⟨equal, by rw [own, other, same]⟩
  have kept := List.sublist_insertionSort (r := tsThenTarget collate Ping.targetId Ping.ts) ordered
    List.filter_sublist
  have again := kept.filter fun ping => ping.targetId = targetId
  have whole : (pingsOf targetId pings).filter (fun ping => ping.targetId = targetId) =
      pingsOf targetId pings := by
    simp only [pingsOf, List.filter_filter, Bool.and_self]
  rw [whole] at again
  refine (again.eq_of_length ?_).symm
  exact ((List.perm_insertionSort _ pings).filter _).length_eq.symm

/-! Target ids that normalization only trims. -/

def PlainTargetId (targetId : String) : Prop :=
  textLength targetId ≤ 64 ∧ ∀ c ∈ targetId.toList, isControl c = false

theorem spaceControls_of_plain {chars : List Char} (plain : ∀ c ∈ chars, isControl c = false) :
    spaceControls false chars = chars := by
  induction chars with
  | nil => rfl
  | cons c rest ih =>
      have visible : ¬ isControl c = true := by simp [plain c List.mem_cons_self]
      rw [spaceControls, if_neg visible, ih fun other member => plain other (List.mem_cons_of_mem _ member)]

theorem trimChars_sublist (chars : List Char) : (trimChars chars).Sublist chars := by
  unfold trimChars
  have inner := (List.dropWhile_suffix isSpace (l := (chars.dropWhile isSpace).reverse)).sublist.reverse
  rw [List.reverse_reverse] at inner
  exact inner.trans (List.dropWhile_suffix isSpace).sublist

theorem textLength_trim_le (text : String) : textLength (trim text) ≤ textLength text := by
  rw [textLength, textLength, trim, String.toList_ofList]
  exact ((trimChars_sublist text.toList).map codeUnits).sum_le_sum fun _ _ => Nat.zero_le _

theorem cleanTargetId_of_plain {targetId : String} (plain : PlainTargetId targetId) :
    cleanTargetId targetId = trim targetId := by
  rw [cleanTargetId, spaceControls_of_plain plain.2, String.ofList_toList,
    cut_of_textLength ((textLength_trim_le targetId).trans plain.1)]

theorem isControl_of_mem_spaceControls {inRun : Bool} {chars : List Char} {c : Char}
    (member : c ∈ spaceControls inRun chars) : isControl c = false := by
  induction chars generalizing inRun with
  | nil => cases member
  | cons head rest ih =>
      unfold spaceControls at member
      split_ifs at member with control running
      · exact ih member
      · rcases List.mem_cons.mp member with rfl | later
        · decide
        · exact ih later
      · rcases List.mem_cons.mp member with rfl | later
        · exact Bool.eq_false_iff.mpr control
        · exact ih later

theorem plain_cleanTargetId (targetId : String) : PlainTargetId (cleanTargetId targetId) := by
  refine ⟨textLength_cut 64 _, fun c member => ?_⟩
  rw [cleanTargetId, cut, String.toList_ofList, trim, String.toList_ofList, String.toList_ofList] at member
  exact isControl_of_mem_spaceControls
    ((trimChars_sublist _).subset (( cutChars_prefix 64 _).sublist.subset member))

/-- A target id that was normalized twice is left as it is. -/
theorem cleanTargetId_twice (targetId : String) :
    cleanTargetId (cleanTargetId (cleanTargetId targetId)) = cleanTargetId (cleanTargetId targetId) := by
  have plain := plain_cleanTargetId targetId
  rw [cleanTargetId_of_plain (plain_cleanTargetId (cleanTargetId targetId)), cleanTargetId_of_plain plain, trim_trim]

end NieSla.Metrics
