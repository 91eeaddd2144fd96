import NieSla.Lib.Newest
import NieSla.Metrics.Pings

/-! The pings of the latest state of an agent: those of each report are merged into the state, and of each
target only the newest are kept, and of them the newest of all. -/
namespace NieSla.Metrics

open Newest OrderedMap Telemetry

def maxPerTarget : Nat := 60

def maxTotal : Nat := 600

/-- `list.slice(-count)` -/
def lastOf {α : Type} (count : Nat) (list : List α) : List α := list.drop (list.length - count)

/-- `retentionSeconds(env, 'PING_HISTORY_RETENTION_HOURS', 6, 1, 168)` -/
def pingRetention (hours : Option JsNumber) : Int := clamp (configured hours 6) 1 168 * 3600

/-- The points that are merged: of a target, and not before the cutoff. -/
def livePings (cutoff : Int) (pings : List Ping) : List Ping :=
  pings.filter fun ping => ping.targetId ≠ "" ∧ cutoff ≤ ping.ts

/-- The last point of each key, limited per target and in all. -/
def limitPings (collate : String → String → Bool) (points : List Ping) : List Ping :=
  lastOf maxTotal (((pingsByTarget (collect pingKey points).values).entries.flatMap fun entry =>
    lastOf maxPerTarget (pingsByTs entry.2)).insertionSort (tsThenTarget collate Ping.targetId Ping.ts))

def mergeStatePings (collate : String → String → Bool) (retentionHours : Option JsNumber) (now : Int)
    (previous : List Ping) (incoming : List RawPing) : List Ping :=
  limitPings collate (livePings (now - pingRetention retentionHours)
    (previous.map normalPing ++ incoming.map RawPing.normal))

/-! The order of the points. -/

/-- Locales differ, but each orders all texts; some distinct texts are equal in it. -/
structure Collates (collate : String → String → Bool) : Prop where
  total : ∀ first second, collate first second = true ∨ collate second first = true
  trans : ∀ first second third, collate first second = true → collate second third = true →
    collate first third = true

/-- Whether a key is sorted after another. -/
def newerKey (collate : String → String → Bool) (first second : String × Int) : Prop :=
  second.2 < first.2 ∨ second.2 = first.2 ∧ collate first.1 second.1 = false

instance (collate : String → String → Bool) : DecidableRel (newerKey collate) :=
  fun _ _ => inferInstanceAs (Decidable (_ ∨ _ ∧ _))

section Order

variable {collate : String → String → Bool} (collates : Collates collate)
include collates

theorem Collates.recency : Recency Prod.fst (newerKey collate) where
  trans {a b c} first second := by
    rcases first with one | ⟨one, apart⟩ <;> rcases second with two | ⟨two, split⟩
    · exact .inl (lt_trans two one)
    · exact .inl (two ▸ one)
    · exact .inl (one ▸ two)
    · refine .inr ⟨two.trans one, Bool.eq_false_iff.mpr fun below => ?_⟩
      have ordered := (collates.total b.1 c.1).resolve_left (by simp [split])
      exact absurd (collates.trans _ _ _ below ordered) (by simp [apart])
  irrefl a newer := by
    rcases newer with before | ⟨-, apart⟩
    · exact lt_irrefl _ before
    · have same := (collates.total a.1 a.1).elim id id
      rw [same] at apart
      cases apart
  split {a c} b newer := by
    by_contra neither
    simp only [newerKey, not_or, not_and, not_lt, Bool.not_eq_false] at neither
    obtain ⟨⟨notBefore, below⟩, notAfter, above⟩ := neither
    rcases newer with before | ⟨same, apart⟩
    · omega
    · have chained := collates.trans _ _ _ (below (by omega)) (above (by omega))
      rw [chained] at apart
      cases apart
  ties {a b} own first second := by
    simp only [newerKey, not_or, not_lt] at first second
    exact Prod.ext own (le_antisymm first.1 second.1)

theorem Collates.pairwise_insertionSort (pings : List Ping) :
    (pings.insertionSort (tsThenTarget collate Ping.targetId Ping.ts)).Pairwise
      (tsThenTarget collate Ping.targetId Ping.ts) := by
  have : Std.Total (tsThenTarget collate Ping.targetId Ping.ts) := ⟨fun first second => by
    rcases lt_trichotomy first.ts second.ts with before | same | after
    · exact .inl (.inl before)
    · rcases collates.total first.targetId second.targetId with below | above
      · exact .inl (.inr ⟨same, below⟩)
      · exact .inr (.inr ⟨same.symm, above⟩)
    · exact .inr (.inl after)⟩
  have : IsTrans Ping (tsThenTarget collate Ping.targetId Ping.ts) := ⟨fun a b c first second => by
    rcases first with one | ⟨one, below⟩ <;> rcases second with two | ⟨two, above⟩
    · exact .inl (lt_trans one two)
    · exact .inl (two ▸ one)
    · exact .inl (one ▸ two)
    · exact .inr ⟨one.trans two, collates.trans _ _ _ below above⟩⟩
  exact List.pairwise_insertionSort _ pings

end Order

/-! What the limits keep. -/

/-- Texts of the list that are equal in the order of the locale are equal. -/
def Apart (collate : String → String → Bool) (pings : List Ping) : Prop :=
  ∀ first ∈ pings, ∀ second ∈ pings, collate first.targetId second.targetId = true →
    collate second.targetId first.targetId = true → first.targetId = second.targetId

section Limits

variable {collate : String → String → Bool}

/-- Where keys are distinct, a sorted list is strictly sorted. -/
theorem strictly_sorted {pings : List Ping} (apart : Apart collate pings) (distinct : (pings.map pingKey).Nodup)
    (sorted : pings.Pairwise (tsThenTarget collate Ping.targetId Ping.ts)) :
    pings.Pairwise fun first second => newerKey collate (pingKey second) (pingKey first) ∧
      ¬ newerKey collate (pingKey first) (pingKey second) := by
  refine (sorted.and (List.pairwise_map.mp distinct)).imp_of_mem fun {first second} one two both => ?_
  obtain ⟨before | ⟨same, below⟩, other⟩ := both
  · refine ⟨.inl before, ?_⟩
    rintro (after | ⟨same, -⟩)
    · exact absurd before (not_lt.mpr (le_of_lt after))
    · exact absurd before (by simp only [pingKey] at same; omega)
  · refine ⟨.inr ⟨same, Bool.eq_false_iff.mpr fun above => other ?_⟩, ?_⟩
    · exact Prod.ext (apart first one second two below above) same
    · rintro (after | ⟨-, split⟩)
      · exact absurd same (ne_of_gt after)
      · rw [show collate (pingKey first).1 (pingKey second).1 = true from below] at split
        cases split

theorem mem_lastOf_iff (collates : Collates collate) {pings : List Ping} {count : Nat}
    (distinct : (pings.map pingKey).Nodup)
    (strict : pings.Pairwise fun first second => newerKey collate (pingKey second) (pingKey first) ∧
      ¬ newerKey collate (pingKey first) (pingKey second)) {ping : Ping} :
    ping ∈ lastOf count pings ↔ ping ∈ pings ∧
      (newer (newerKey collate) (pings.map pingKey).toFinset (pingKey ping)).card < count := by
  have keys : pingKey ping ∈ (pings.map pingKey).drop ((pings.map pingKey).length - count) ↔
      pingKey ping ∈ pings.map pingKey ∧
        (newer (newerKey collate) (pings.map pingKey).toFinset (pingKey ping)).card < count :=
    mem_drop_iff (List.pairwise_map.mpr strict) (collates.recency.irrefl _)
  rw [List.length_map, ← List.map_drop] at keys
  constructor
  · intro member
    exact ⟨List.mem_of_mem_drop member, (keys.mp (List.mem_map_of_mem member)).2⟩
  · rintro ⟨member, few⟩
    obtain ⟨other, inside, same⟩ := List.mem_map.mp (keys.mpr ⟨List.mem_map_of_mem member, few⟩)
    rwa [← List.inj_on_of_nodup_map distinct (List.mem_of_mem_drop inside) member same]

theorem mem_pingsByTarget {pings : List Ping} {entry : String × List Ping} :
    entry ∈ (pingsByTarget pings).entries ↔ entry.2 = pingsOf entry.1 pings ∧ entry.2 ≠ [] := by
  refine ⟨mem_group_entries, fun own => get?_eq_some.mp ?_⟩
  have some_ : pings.filter (fun ping => ping.targetId = entry.1) ≠ [] := fun none_ =>
    own.2 (own.1.trans none_)
  rw [pingsByTarget, get?_group, if_neg some_, own.1]
  rfl

/-- Of a target the newest are kept. -/
theorem mem_lastOf_pingsOf (collates : Collates collate) {pings : List Ping}
    (distinct : (pings.map pingKey).Nodup) {targetId : String} {ping : Ping} :
    ping ∈ lastOf maxPerTarget (pingsByTs (pingsOf targetId pings)) ↔
      ping ∈ pings ∧ ping.targetId = targetId ∧
        (newerIn Prod.fst (newerKey collate) targetId (pings.map pingKey).toFinset (pingKey ping)).card <
          maxPerTarget := by
  have member {other : Ping} : other ∈ pingsByTs (pingsOf targetId pings) ↔
      other ∈ pings ∧ other.targetId = targetId := by
    simp [pingsByTs, pingsOf]
  have alone : ((pingsByTs (pingsOf targetId pings)).map pingKey).Nodup := by
    have perm := (List.perm_insertionSort (fun first second : Ping => first.ts ≤ second.ts)
      (pingsOf targetId pings)).map pingKey
    exact perm.nodup_iff.mpr (distinct.sublist (List.filter_sublist.map pingKey))
  have apart : Apart collate (pingsByTs (pingsOf targetId pings)) := fun first one second two _ _ =>
    (member.mp one).2.trans (member.mp two).2.symm
  have sorted : (pingsByTs (pingsOf targetId pings)).Pairwise (tsThenTarget collate Ping.targetId Ping.ts) := by
    refine (sorted_pingsByTs _).imp_of_mem fun {first second} one two before => ?_
    rcases before.lt_or_eq with earlier | equal
    · exact .inl earlier
    · refine .inr ⟨equal, ?_⟩
      rw [(member.mp one).2, (member.mp two).2]
      exact (collates.total targetId targetId).elim id id
  have same : newer (newerKey collate) ((pingsByTs (pingsOf targetId pings)).map pingKey).toFinset (pingKey ping) =
      newerIn Prod.fst (newerKey collate) targetId (pings.map pingKey).toFinset (pingKey ping) := by
    ext key
    rw [mem_newer, mem_newerIn, List.mem_toFinset, List.mem_toFinset, List.mem_map, List.mem_map]
    constructor
    · rintro ⟨⟨other, inside, rfl⟩, ahead⟩
      exact ⟨⟨other, (member.mp inside).1, rfl⟩, ahead, (member.mp inside).2⟩
    · rintro ⟨⟨other, inside, rfl⟩, ahead, own⟩
      exact ⟨⟨other, member.mpr ⟨inside, own⟩, rfl⟩, ahead⟩
  rw [mem_lastOf_iff collates alone (strictly_sorted apart alone sorted), member, same, and_assoc]

/-- The pings of all targets before the limit in all. -/
def shortlisted (points : List Ping) : List Ping :=
  (pingsByTarget points).entries.flatMap fun entry => lastOf maxPerTarget (pingsByTs entry.2)

theorem mem_shortlisted (collates : Collates collate) {pings : List Ping} (distinct : (pings.map pingKey).Nodup)
    {ping : Ping} : ping ∈ shortlisted pings ↔
      ping ∈ pings ∧ pingKey ping ∈
        shortlist Prod.fst (newerKey collate) maxPerTarget (pings.map pingKey).toFinset := by
  rw [shortlisted, List.mem_flatMap, mem_shortlist, List.mem_toFinset]
  constructor
  · rintro ⟨entry, listed, inside⟩
    rw [(mem_pingsByTarget.mp listed).1] at inside
    obtain ⟨member, own, few⟩ := (mem_lastOf_pingsOf collates distinct).mp inside
    rw [← own] at few
    exact ⟨member, List.mem_map_of_mem member, few⟩
  · rintro ⟨member, -, few⟩
    have here : ping ∈ pingsOf ping.targetId pings := by simp [pingsOf, member]
    refine ⟨(ping.targetId, pingsOf ping.targetId pings),
      mem_pingsByTarget.mpr ⟨rfl, List.ne_nil_of_mem here⟩, ?_⟩
    exact (mem_lastOf_pingsOf collates distinct).mpr ⟨member, rfl, few⟩

theorem nodup_shortlisted {pings : List Ping} (distinct : (pings.map pingKey).Nodup) :
    ((shortlisted pings).map pingKey).Nodup := by
  have inside {entry : String × List Ping} (listed : entry ∈ (pingsByTarget pings).entries) {ping : Ping}
      (member : ping ∈ lastOf maxPerTarget (pingsByTs entry.2)) : ping.targetId = entry.1 := by
    have grouped := (List.mem_insertionSort _).mp (List.mem_of_mem_drop member)
    rw [(mem_pingsByTarget.mp listed).1] at grouped
    simpa using (List.mem_filter.mp grouped).2
  rw [shortlisted, List.map_flatMap, List.nodup_flatMap]
  constructor
  · intro entry listed
    have perm := (List.perm_insertionSort (fun first second : Ping => first.ts ≤ second.ts) entry.2).map pingKey
    have own : (entry.2.map pingKey).Nodup := by
      rw [(mem_pingsByTarget.mp listed).1]
      exact distinct.sublist (List.filter_sublist.map pingKey)
    exact (perm.nodup_iff.mpr own).sublist ((List.drop_sublist _ _).map pingKey)
  · have keys := List.pairwise_map.mp (pingsByTarget pings).nodup_keys
    refine keys.imp_of_mem fun {first second} one two other key => ?_
    intro here there
    obtain ⟨ping, member, rfl⟩ := List.mem_map.mp here
    obtain ⟨twin, inner, same⟩ := List.mem_map.mp there
    have targets : twin.targetId = ping.targetId := congrArg Prod.fst same
    exact other ((inside one member).symm.trans (targets.symm.trans (inside two inner)))

variable {points : List Ping}

theorem limitPings_nil : limitPings collate [] = [] := List.drop_nil

theorem exists_last {ping : Ping} (member : ping ∈ points) :
    ∃ last, lastBy pingKey (pingKey last) points = some last ∧ pingKey last = pingKey ping := by
  have some_ : (lastBy pingKey (pingKey ping) points).isSome := lastBy_isSome.mpr ⟨ping, member, rfl⟩
  obtain ⟨last, found⟩ := Option.isSome_iff_exists.mp some_
  have own := key_of_lastBy found
  exact ⟨last, own ▸ found, own⟩

theorem toFinset_keys_values : ((collect pingKey points).values.map pingKey).toFinset =
    (points.map pingKey).toFinset := by
  ext key
  rw [List.mem_toFinset, List.mem_toFinset, List.mem_map, List.mem_map]
  constructor
  · rintro ⟨ping, member, rfl⟩
    exact ⟨ping, mem_of_lastBy (mem_values_collect.mp member), rfl⟩
  · rintro ⟨ping, member, rfl⟩
    obtain ⟨last, found, own⟩ := exists_last member
    exact ⟨last, mem_values_collect.mpr found, own⟩

/-- The points as they are sorted before the limit in all. -/
theorem sorted_shortlisted (collates : Collates collate) (apart : Apart collate points) :
    ((((shortlisted (collect pingKey points).values).insertionSort
      (tsThenTarget collate Ping.targetId Ping.ts)).map pingKey).Nodup) ∧
    ((shortlisted (collect pingKey points).values).insertionSort
      (tsThenTarget collate Ping.targetId Ping.ts)).Pairwise
        fun first second => newerKey collate (pingKey second) (pingKey first) ∧
          ¬ newerKey collate (pingKey first) (pingKey second) := by
  have distinct := nodup_values_collect pingKey points
  set sorted := (shortlisted (collect pingKey points).values).insertionSort
    (tsThenTarget collate Ping.targetId Ping.ts) with sorts
  have perm : sorted.Perm (shortlisted (collect pingKey points).values) := List.perm_insertionSort _ _
  have alone : (sorted.map pingKey).Nodup := (perm.map pingKey).nodup_iff.mpr (nodup_shortlisted distinct)
  have inside {ping : Ping} (member : ping ∈ sorted) : ping ∈ points := by
    have listed := ((mem_shortlisted collates distinct).mp (perm.mem_iff.mp member)).1
    exact mem_of_lastBy (mem_values_collect.mp listed)
  refine ⟨alone, strictly_sorted (fun first one second two => ?_) alone (collates.pairwise_insertionSort _)⟩
  exact apart first (inside one) second (inside two)

theorem sorted_limitPings (collates : Collates collate) (apart : Apart collate points) :
    ((limitPings collate points).map pingKey).Nodup ∧ (limitPings collate points).Pairwise
      fun first second => newerKey collate (pingKey second) (pingKey first) ∧
        ¬ newerKey collate (pingKey first) (pingKey second) := by
  obtain ⟨alone, strict⟩ := sorted_shortlisted collates apart
  exact ⟨alone.sublist ((List.drop_sublist _ _).map pingKey), strict.sublist (List.drop_sublist _ _)⟩

/-- What is kept is the last point of each key that is within the limits. -/
theorem mem_limitPings (collates : Collates collate) (apart : Apart collate points) {ping : Ping} :
    ping ∈ limitPings collate points ↔ lastBy pingKey (pingKey ping) points = some ping ∧
      pingKey ping ∈ kept Prod.fst (newerKey collate) maxPerTarget maxTotal (points.map pingKey).toFinset := by
  have distinct := nodup_values_collect pingKey points
  obtain ⟨alone, strict⟩ := sorted_shortlisted collates apart
  have member {other : Ping} : other ∈ (shortlisted (collect pingKey points).values).insertionSort
      (tsThenTarget collate Ping.targetId Ping.ts) ↔
      lastBy pingKey (pingKey other) points = some other ∧
        pingKey other ∈ shortlist Prod.fst (newerKey collate) maxPerTarget (points.map pingKey).toFinset := by
    rw [List.mem_insertionSort, mem_shortlisted collates distinct, mem_values_collect, toFinset_keys_values]
  have keys : (((shortlisted (collect pingKey points).values).insertionSort
      (tsThenTarget collate Ping.targetId Ping.ts)).map pingKey).toFinset =
      shortlist Prod.fst (newerKey collate) maxPerTarget (points.map pingKey).toFinset := by
    ext key
    rw [List.mem_toFinset, List.mem_map]
    constructor
    · rintro ⟨other, inside, rfl⟩
      exact (member.mp inside).2
    · intro short
      obtain ⟨other, listed, rfl⟩ := List.mem_map.mp (List.mem_toFinset.mp (mem_shortlist.mp short).1)
      obtain ⟨last, found, own⟩ := exists_last listed
      exact ⟨last, member.mpr ⟨found, own ▸ short⟩, own⟩
  have limited : ping ∈ lastOf maxTotal _ ↔ _ := mem_lastOf_iff collates alone strict
  rw [keys, member] at limited
  rw [kept, mem_top, ← and_assoc, ← limited]
  rfl

end Limits

/-! Merging. -/

section Merge

variable {collate : String → String → Bool}

def keysOf (pings : List Ping) : Finset (String × Int) := (pings.map pingKey).toFinset

def namedPings (pings : List Ping) : List Ping := pings.filter fun ping => ping.targetId ≠ ""

theorem mem_keysOf {pings : List Ping} {key : String × Int} :
    key ∈ keysOf pings ↔ ∃ ping ∈ pings, pingKey ping = key := by
  rw [keysOf, List.mem_toFinset, List.mem_map]

theorem keysOf_livePings (cutoff : Int) (pings : List Ping) :
    keysOf (livePings cutoff pings) = (keysOf (namedPings pings)).filter fun key => cutoff ≤ key.2 := by
  ext key
  rw [Finset.mem_filter, mem_keysOf, mem_keysOf]
  constructor
  · rintro ⟨ping, member, rfl⟩
    obtain ⟨listed, live⟩ := List.mem_filter.mp member
    obtain ⟨named, recent⟩ := of_decide_eq_true live
    exact ⟨⟨ping, List.mem_filter.mpr ⟨listed, decide_eq_true named⟩, rfl⟩, recent⟩
  · rintro ⟨⟨ping, member, rfl⟩, recent⟩
    obtain ⟨listed, named⟩ := List.mem_filter.mp member
    exact ⟨ping, List.mem_filter.mpr ⟨listed, decide_eq_true ⟨of_decide_eq_true named, recent⟩⟩, rfl⟩

theorem namedPings_append (first second : List Ping) :
    namedPings (first ++ second) = namedPings first ++ namedPings second := List.filter_append ..

theorem keysOf_append (first second : List Ping) : keysOf (first ++ second) = keysOf first ∪ keysOf second := by
  rw [keysOf, List.map_append, List.toFinset_append]
  rfl

/-- The last point of a live key is the last of all its points. -/
theorem lastBy_livePings {cutoff : Int} {pings : List Ping} {key : String × Int} (named : key.1 ≠ "")
    (recent : cutoff ≤ key.2) : lastBy pingKey key (livePings cutoff pings) = lastBy pingKey key pings := by
  refine lastBy_filter _ fun ping own => ?_
  subst own
  exact decide_eq_true ⟨named, recent⟩

theorem Apart.sublist {first second : List Ping} (apart : Apart collate second) (inside : first ⊆ second) :
    Apart collate first := fun one here two there => apart one (inside here) two (inside there)

theorem livePings_subset (cutoff : Int) (pings : List Ping) : livePings cutoff pings ⊆ pings :=
  List.filter_sublist.subset

theorem limitPings_subset (collates : Collates collate) {points : List Ping} (apart : Apart collate points) :
    limitPings collate points ⊆ points := fun _ member =>
  mem_of_lastBy ((mem_limitPings collates apart).mp member).1

theorem keysOf_limitPings (collates : Collates collate) {points : List Ping} (apart : Apart collate points) :
    keysOf (limitPings collate points) =
      kept Prod.fst (newerKey collate) maxPerTarget maxTotal (keysOf points) := by
  ext key
  rw [mem_keysOf]
  constructor
  · rintro ⟨ping, member, rfl⟩
    exact ((mem_limitPings collates apart).mp member).2
  · intro short
    obtain ⟨ping, listed, rfl⟩ := mem_keysOf.mp (kept_subset short)
    obtain ⟨last, found, own⟩ := exists_last listed
    exact ⟨last, (mem_limitPings collates apart).mpr ⟨found, own ▸ short⟩, own⟩

/-- The keys that are kept, whether all points are merged or those that were kept. -/
theorem kept_merged (collates : Collates collate) {all more : List Ping} {cutoff next : Int}
    (later : cutoff ≤ next) (apart : Apart collate (all ++ more)) :
    kept Prod.fst (newerKey collate) maxPerTarget maxTotal
        (keysOf (livePings next (limitPings collate (livePings cutoff all) ++ more))) =
      kept Prod.fst (newerKey collate) maxPerTarget maxTotal (keysOf (livePings next (all ++ more))) := by
  have inner : Apart collate (livePings cutoff all) := apart.sublist fun _ member =>
    List.mem_append_left _ (livePings_subset _ _ member)
  have upward {first second : String × Int} (newer : newerKey collate first second) (recent : next ≤ second.2) :
      next ≤ first.2 := by
    rcases newer with after | ⟨same, -⟩ <;> omega
  have named : namedPings (limitPings collate (livePings cutoff all)) =
      limitPings collate (livePings cutoff all) := List.filter_eq_self.mpr fun ping member => by
    have live := (List.mem_filter.mp (limitPings_subset collates inner member)).2
    exact decide_eq_true (of_decide_eq_true live).1
  have limit (keys : Finset (String × Int)) :
      kept Prod.fst (newerKey collate) maxPerTarget maxTotal (keys.filter fun key => next ≤ key.2) =
        (kept Prod.fst (newerKey collate) maxPerTarget maxTotal keys).filter fun key => next ≤ key.2 :=
    kept_filter (fun key : String × Int => next ≤ key.2) upward
  have recent : (((keysOf (namedPings all)).filter fun key => cutoff ≤ key.2) ∪
      keysOf (namedPings more)).filter (fun key => next ≤ key.2) =
      (keysOf (namedPings all) ∪ keysOf (namedPings more)).filter fun key => next ≤ key.2 := by
    ext key
    simp only [Finset.mem_filter, Finset.mem_union]
    constructor
    · rintro ⟨⟨old, -⟩ | new, after⟩
      · exact ⟨.inl old, after⟩
      · exact ⟨.inr new, after⟩
    · rintro ⟨old | new, after⟩
      · exact ⟨.inl ⟨old, later.trans after⟩, after⟩
      · exact ⟨.inr new, after⟩
  rw [keysOf_livePings, namedPings_append, named, keysOf_append, keysOf_limitPings collates inner,
    keysOf_livePings, limit, kept_union collates.recency, ← limit, recent, keysOf_livePings, namedPings_append,
    keysOf_append]

/-- Merging into what was kept is merging everything. -/
theorem limitPings_merge (collates : Collates collate) {all more : List Ping} {cutoff next : Int}
    (later : cutoff ≤ next) (apart : Apart collate (all ++ more)) :
    limitPings collate (livePings next (limitPings collate (livePings cutoff all) ++ more)) =
      limitPings collate (livePings next (all ++ more)) := by
  have inner : Apart collate (livePings cutoff all) := apart.sublist fun _ member =>
    List.mem_append_left _ (livePings_subset _ _ member)
  have before : Apart collate (livePings next (limitPings collate (livePings cutoff all) ++ more)) := by
    refine apart.sublist fun ping member => ?_
    rcases List.mem_append.mp (livePings_subset _ _ member) with old | new
    · exact List.mem_append_left _ (livePings_subset _ _ (limitPings_subset collates inner old))
    · exact List.mem_append_right _ new
  have whole : Apart collate (livePings next (all ++ more)) := apart.sublist (livePings_subset _ _)
  have keys := kept_merged collates later apart
  have same (ping : Ping) : ping ∈ limitPings collate
      (livePings next (limitPings collate (livePings cutoff all) ++ more)) ↔
      ping ∈ limitPings collate (livePings next (all ++ more)) := by
    rw [mem_limitPings collates before, mem_limitPings collates whole]
    change _ ∧ pingKey ping ∈ kept _ _ _ _ (keysOf _) ↔ _ ∧ pingKey ping ∈ kept _ _ _ _ (keysOf _)
    rw [keys]
    refine and_congr_left fun short => ?_
    have live := kept_subset short
    rw [keysOf_livePings, Finset.mem_filter] at live
    obtain ⟨listed, recent⟩ := live
    have named : (pingKey ping).1 ≠ "" := by
      obtain ⟨other, member, own⟩ := mem_keysOf.mp listed
      rw [← own]
      exact of_decide_eq_true (List.mem_filter.mp member).2
    rw [lastBy_livePings named recent, lastBy_livePings named recent, lastBy_append, lastBy_append]
    cases fresh : lastBy pingKey (pingKey ping) more with
    | some _ => rw [Option.some_or, Option.some_or]
    | none =>
        rw [Option.none_or, Option.none_or]
        have old := @lastBy_livePings cutoff all _ named (later.trans recent)
        constructor
        · intro found
          have member := mem_of_lastBy found
          rw [← old]
          exact ((mem_limitPings collates inner).mp member).1
        · intro found
          rw [← keys] at short
          have among := kept_subset short
          rw [keysOf_livePings, Finset.mem_filter, namedPings_append, keysOf_append, Finset.mem_union] at among
          have absent : pingKey ping ∉ keysOf (namedPings more) := fun inside => by
            obtain ⟨other, member, own⟩ := mem_keysOf.mp inside
            exact lastBy_eq_none.mp fresh other (List.mem_of_mem_filter member) own
          obtain ⟨twin, member, own⟩ := mem_keysOf.mp (among.1.resolve_right absent)
          have here := List.mem_of_mem_filter member
          have held := ((mem_limitPings collates inner).mp here).1
          rw [own, old, found, Option.some.injEq] at held
          rw [← held] at here
          exact (lastBy_eq_some_of_nodup (sorted_limitPings collates inner).1).mpr ⟨here, rfl⟩
  obtain ⟨alone, strict⟩ := sorted_limitPings collates before
  obtain ⟨aloneToo, strictToo⟩ := sorted_limitPings collates whole
  have perm := (List.perm_ext_iff_of_nodup alone.of_map aloneToo.of_map).mpr same
  exact perm.eq_of_pairwise (fun _ _ _ _ ahead behind => absurd ahead.1 behind.2) strict strictToo

/-! Reports. -/

/-- The pings of a report and the clock when it is merged. -/
structure PingReport where
  now : Int
  pings : List RawPing

def normalPings (reports : List PingReport) : List Ping :=
  (reports.flatMap PingReport.pings).map RawPing.normal

def mergeReports (collate : String → String → Bool) (retentionHours : Option JsNumber) (state : List Ping)
    (reports : List PingReport) : List Ping :=
  reports.foldl (fun state report => mergeStatePings collate retentionHours report.now state report.pings) state

/-- A target id that normalization does not change a second time. -/
def RawPing.Settled (ping : RawPing) : Prop :=
  cleanTargetId (cleanTargetId ping.targetId) = cleanTargetId ping.targetId

theorem mathRound_intCast (n : Int) : mathRound n = n := by
  rw [mathRound, Int.floor_eq_iff]
  constructor <;> linarith

theorem normalPing_normal {raw : RawPing} (settled : raw.Settled) : normalPing raw.normal = raw.normal := by
  have rounded : (raw.normal.latencyMs.map mathRound).filter (fun latency => 0 ≤ latency ∧ latency ≤ 1000) =
      (raw.latencyMs.map mathRound).filter fun latency => 0 ≤ latency ∧ latency ≤ 1000 := by
    simp only [RawPing.normal, normalizePingPoint]
    cases found : (raw.latencyMs.map mathRound).filter fun latency => 0 ≤ latency ∧ latency ≤ 1000 with
    | none => rfl
    | some latency =>
        have bounds := (Option.filter_eq_some_iff.mp found).2
        simpa [mathRound_intCast] using bounds
  rw [normalPing, normalizePingPoint, rounded]
  simp only [RawPing.normal, normalizePingPoint, Ping.mk.injEq, true_and, Option.getD_some]
  refine ⟨settled, ?_⟩
  split_ifs <;> simp_all

theorem mergeStatePings_settled {retentionHours : Option JsNumber} {now : Int} {state : List Ping}
    {incoming : List RawPing} (settled : ∀ ping ∈ state, normalPing ping = ping) :
    mergeStatePings collate retentionHours now state incoming =
      limitPings collate (livePings (now - pingRetention retentionHours) (state ++ incoming.map RawPing.normal)) := by
  rw [mergeStatePings, List.map_congr_left settled, List.map_id']

theorem mergeReports_eq (collates : Collates collate) (retentionHours : Option JsNumber) {all : List Ping}
    {clock : Int} {reports : List PingReport} {last : PingReport}
    (clocks : (reports ++ [last]).Pairwise fun first second => first.now ≤ second.now)
    (after : ∀ report ∈ reports ++ [last], clock ≤ report.now)
    (known : ∀ ping ∈ all, normalPing ping = ping)
    (settled : ∀ report ∈ reports ++ [last], ∀ raw ∈ report.pings, raw.Settled)
    (apart : Apart collate (all ++ normalPings (reports ++ [last]))) :
    mergeReports collate retentionHours
        (limitPings collate (livePings (clock - pingRetention retentionHours) all)) (reports ++ [last]) =
      limitPings collate (livePings (last.now - pingRetention retentionHours)
        (all ++ normalPings (reports ++ [last]))) := by
  induction reports generalizing all clock with
  | nil =>
      have one : normalPings [last] = last.pings.map RawPing.normal := by simp [normalPings]
      rw [List.nil_append, one] at apart ⊢
      have inner : Apart collate (livePings (clock - pingRetention retentionHours) all) :=
        apart.sublist fun _ member => List.mem_append_left _ (livePings_subset _ _ member)
      have kept_ : ∀ ping ∈ limitPings collate (livePings (clock - pingRetention retentionHours) all),
          normalPing ping = ping := fun ping member =>
        known ping (livePings_subset _ _ (limitPings_subset collates inner member))
      have later := after last (by simp)
      rw [mergeReports, List.foldl_cons, List.foldl_nil, mergeStatePings_settled kept_,
        limitPings_merge collates (by omega) apart]
  | cons report rest ih =>
      have more : normalPings (report :: rest ++ [last]) =
          report.pings.map RawPing.normal ++ normalPings (rest ++ [last]) := by simp [normalPings]
      rw [more, ← List.append_assoc] at apart
      obtain ⟨ordered, clocksRest⟩ := List.pairwise_cons.mp clocks
      have inner : Apart collate (all ++ report.pings.map RawPing.normal) :=
        apart.sublist fun _ member => List.mem_append_left _ member
      have innermost : Apart collate (livePings (clock - pingRetention retentionHours) all) :=
        inner.sublist fun _ member => List.mem_append_left _ (livePings_subset _ _ member)
      have kept_ : ∀ ping ∈ limitPings collate (livePings (clock - pingRetention retentionHours) all),
          normalPing ping = ping := fun ping member =>
        known ping (livePings_subset _ _ (limitPings_subset collates innermost member))
      have later := after report (by simp)
      have knownMore : ∀ ping ∈ all ++ report.pings.map RawPing.normal, normalPing ping = ping := by
        intro ping member
        rcases List.mem_append.mp member with old | new
        · exact known ping old
        · obtain ⟨raw, inside, rfl⟩ := List.mem_map.mp new
          exact normalPing_normal (settled report (by simp) raw inside)
      rw [List.cons_append, mergeReports, List.foldl_cons, mergeStatePings_settled kept_,
        limitPings_merge collates (by omega) inner, ← mergeReports, ← List.cons_append, more, ← List.append_assoc]
      exact ih clocksRest ordered knownMore
        (fun other member => settled other (List.mem_cons_of_mem _ member)) apart

end Merge

end NieSla.Metrics
