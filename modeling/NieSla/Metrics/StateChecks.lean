import NieSla.Metrics.StatePings

/-! The proxy checks of the latest state of an agent: the newest check of each target, of the targets that were
checked last. -/
namespace NieSla.Metrics

open OrderedMap Telemetry

def maxAgentProxyChecksPerReport : Nat := 100

def proxyCheckStages : List String := ["config", "connect", "handshake", "canary", "runtime", "failed"]

def proxyCheckErrors : List String :=
  ["timeout", "auth_failed", "unsupported", "handshake_failed", "canary_failed", "invalid_config", "runtime_failed"]

/-- `/^[a-z][a-z0-9-]{0,31}$/` -/
def isProtocol : List Char → Bool
  | [] => false
  | first :: rest => first.isLower && decide (rest.length ≤ 31) &&
      rest.all fun c => c.isLower || c.isDigit || c = '-'

def checkDuration (value : Option ℚ) : Option ℚ :=
  (value.filter fun number => 0 ≤ number ∧ number ≤ 120000).map fun number => (mathRound number : ℚ)

/-- `normalizeAgentProxyChecks` of one check that has all its fields. -/
def normalizeAgentProxyCheck (fallbackTs : Int) (check : ProxyCheck) : Option ProxyCheck :=
  let targetId := cut 128 (trim check.targetId)
  let rawProtocol := (trim check.protocol).toList.flatMap lowerChar
  let ts := if check.ts = 0 then fallbackTs else check.ts
  if targetId = "" ∨ isProtocol rawProtocol = false ∨ ts ≤ 0 then none
  else
    let ok : Int := if check.ok = 1 then 1 else 0
    let outcome := if ok = 1 then "canary" else "failed"
    let stage := cut 32 (trim (if check.stage = "" then outcome else check.stage))
    let error := cut 64 (trim (check.error.getD ""))
    some
      { targetId
        name := cut 96 (trim (if check.name = "" then targetId else check.name))
        protocol := String.ofList rawProtocol
        ts
        latencyMs := checkDuration check.latencyMs
        handshakeMs := checkDuration check.handshakeMs
        firstByteMs := checkDuration check.firstByteMs
        totalMs := checkDuration check.totalMs
        ok
        stage := if proxyCheckStages.contains stage then stage else outcome
        error := if proxyCheckErrors.contains error then some error else none }

def normalizeAgentProxyChecks (fallbackTs : Int) (checks : List ProxyCheck) : List ProxyCheck :=
  (checks.take maxAgentProxyChecksPerReport).filterMap (normalizeAgentProxyCheck fallbackTs)

/-! Merging. -/

/-- `if (!current || check.ts >= current.ts) byTarget.set(check.target_id, check)` -/
def keepNewer (byTarget : OrderedMap String ProxyCheck) (check : ProxyCheck) : OrderedMap String ProxyCheck :=
  match byTarget.get? check.targetId with
  | none => byTarget.set check.targetId check
  | some current => if current.ts ≤ check.ts then byTarget.set check.targetId check else byTarget

/-- `b.ts - a.ts || a.target_id.localeCompare(b.target_id)` -/
def newestFirst (collate : String → String → Bool) (first second : ProxyCheck) : Prop :=
  second.ts < first.ts ∨ second.ts = first.ts ∧ collate first.targetId second.targetId = true

instance (collate : String → String → Bool) : DecidableRel (newestFirst collate) :=
  fun _ _ => inferInstanceAs (Decidable (_ ∨ _ ∧ _))

/-- The checks of the targets that were checked last. -/
def latestTargets (collate : String → String → Bool) (checks : List ProxyCheck) : List ProxyCheck :=
  (checks.insertionSort (newestFirst collate)).take maxAgentProxyChecksPerReport

def mergeStateProxyChecks (collate : String → String → Bool) (now : Int) (previous incoming : List ProxyCheck) :
    List ProxyCheck :=
  let byTarget := (normalizeAgentProxyChecks now previous ++ incoming).foldl keepNewer .empty
  (latestTargets collate byTarget.values).insertionSort (tsThenTarget collate ProxyCheck.targetId ProxyCheck.ts)

/-! The newest check of a target. -/

/-- Of two checks the newer, of two of the same time the second. -/
def newerOf (best : Option ProxyCheck) (check : ProxyCheck) : Option ProxyCheck :=
  match best with
  | none => some check
  | some current => if current.ts ≤ check.ts then some check else some current

/-- The newest check of a target, of several the last. -/
def newestCheck (targetId : String) (checks : List ProxyCheck) : Option ProxyCheck :=
  (checks.filter fun check => check.targetId = targetId).foldl newerOf none

section Newest

variable {targetId : String} {checks more : List ProxyCheck} {check : ProxyCheck}

/-- The newer of the newest checks of two lists. -/
def newerOfBoth (best : Option ProxyCheck) : Option ProxyCheck → Option ProxyCheck
  | none => best
  | some check => newerOf best check

theorem foldl_newerOf (best : Option ProxyCheck) (checks : List ProxyCheck) :
    checks.foldl newerOf best = newerOfBoth best (checks.foldl newerOf none) := by
  induction checks using List.reverseRecOn with
  | nil => rfl
  | append_singleton rest check ih =>
      rw [List.foldl_concat, List.foldl_concat, ih]
      cases rest.foldl newerOf none with
      | none => rfl
      | some newest =>
          cases best with
          | none =>
              by_cases later : newest.ts ≤ check.ts <;> simp [newerOfBoth, newerOf, later]
          | some current =>
              by_cases first : current.ts ≤ newest.ts <;> by_cases second : newest.ts ≤ check.ts <;>
                by_cases both : current.ts ≤ check.ts <;>
                simp [newerOfBoth, newerOf, first, second, both] <;> omega

theorem newestCheck_append : newestCheck targetId (checks ++ more) =
    newerOfBoth (newestCheck targetId checks) (newestCheck targetId more) := by
  rw [newestCheck, List.filter_append, List.foldl_append, foldl_newerOf]
  rfl

theorem newestCheck_concat : newestCheck targetId (checks ++ [check]) =
    if check.targetId = targetId then newerOf (newestCheck targetId checks) check
    else newestCheck targetId checks := by
  rw [newestCheck, List.filter_append, List.foldl_append]
  by_cases own : check.targetId = targetId <;> simp [own, newestCheck]

theorem newestCheck_eq_none : newestCheck targetId checks = none ↔ ∀ check ∈ checks, check.targetId ≠ targetId := by
  induction checks using List.reverseRecOn with
  | nil => simp [newestCheck]
  | append_singleton rest check ih =>
      rw [newestCheck_concat, List.forall_mem_append, ← ih, List.forall_mem_singleton]
      split_ifs with own
      · refine iff_of_false ?_ fun both => both.2 own
        unfold newerOf
        split
        · exact Option.some_ne_none _
        · split <;> exact Option.some_ne_none _
      · exact ⟨fun none_ => ⟨none_, own⟩, And.left⟩

theorem newestCheck_spec (found : newestCheck targetId checks = some check) :
    check ∈ checks ∧ check.targetId = targetId ∧
      ∀ other ∈ checks, other.targetId = targetId → other.ts ≤ check.ts := by
  induction checks using List.reverseRecOn generalizing check with
  | nil => cases found
  | append_singleton rest last ih =>
      rw [newestCheck_concat] at found
      by_cases own : last.targetId = targetId
      · rw [if_pos own] at found
        cases before : newestCheck targetId rest with
        | none =>
            rw [before] at found
            cases found
            refine ⟨by simp, own, fun other member same => ?_⟩
            rcases List.mem_append.mp member with old | new
            · exact absurd same (newestCheck_eq_none.mp before other old)
            · rw [List.mem_singleton.mp new]
        | some current =>
            obtain ⟨listed, named, newest⟩ := ih before
            rw [before] at found
            unfold newerOf at found
            dsimp only at found
            split_ifs at found with newer <;> cases found
            · refine ⟨by simp, own, fun other member same => ?_⟩
              rcases List.mem_append.mp member with old | new
              · exact (newest other old same).trans newer
              · rw [List.mem_singleton.mp new]
            · refine ⟨List.mem_append_left _ listed, named, fun other member same => ?_⟩
              rcases List.mem_append.mp member with old | new
              · exact newest other old same
              · rw [List.mem_singleton.mp new]
                omega
      · rw [if_neg own] at found
        obtain ⟨listed, named, newest⟩ := ih found
        refine ⟨List.mem_append_left _ listed, named, fun other member same => ?_⟩
        rcases List.mem_append.mp member with old | new
        · exact newest other old same
        · exact absurd (List.mem_singleton.mp new ▸ same) own

/-- The map holds the newest check of each target. -/
theorem get?_foldl_keepNewer (checks : List ProxyCheck) :
    (checks.foldl keepNewer .empty).get? targetId = newestCheck targetId checks := by
  induction checks using List.reverseRecOn with
  | nil => rfl
  | append_singleton rest check ih =>
      rw [List.foldl_concat, newestCheck_concat]
      set byTarget := rest.foldl keepNewer .empty
      unfold keepNewer
      by_cases own : check.targetId = targetId
      · subst own
        rw [if_pos rfl, ← ih]
        cases found : byTarget.get? check.targetId with
        | none => exact get?_set_self _ _ _
        | some current =>
            dsimp only [newerOf]
            split_ifs
            · exact get?_set_self _ _ _
            · exact found
      · rw [if_neg own, ← ih]
        cases byTarget.get? check.targetId with
        | none => exact get?_set_of_ne _ _ (Ne.symm own)
        | some current =>
            dsimp only
            split_ifs
            · exact get?_set_of_ne _ _ (Ne.symm own)
            · rfl

/-! The values of the map. -/

theorem mem_values_keepNewer : check ∈ (checks.foldl keepNewer .empty).values ↔
    newestCheck check.targetId checks = some check := by
  rw [← get?_foldl_keepNewer, get?_eq_some, values, List.mem_map]
  constructor
  · rintro ⟨entry, member, rfl⟩
    have found := get?_eq_some.mpr (show (entry.1, entry.2) ∈ _ from member)
    rw [get?_foldl_keepNewer] at found
    rwa [(newestCheck_spec found).2.1]
  · exact fun member => ⟨_, member, rfl⟩

theorem nodup_values_keepNewer (checks : List ProxyCheck) :
    ((checks.foldl keepNewer .empty).values.map ProxyCheck.targetId).Nodup := by
  have keys : (checks.foldl keepNewer .empty).values.map ProxyCheck.targetId =
      (checks.foldl keepNewer .empty).keys := by
    rw [values, OrderedMap.keys, List.map_map]
    refine List.map_congr_left fun entry member => ?_
    have found := get?_eq_some.mpr (show (entry.1, entry.2) ∈ _ from member)
    rw [get?_foldl_keepNewer] at found
    exact (newestCheck_spec found).2.1
  rw [keys]
  exact (checks.foldl keepNewer .empty).nodup_keys

end Newest

/-! The first of a list that is sorted from the newest. -/

section First

variable {collate : String → String → Bool}

theorem pairwise_newestFirst (collates : Collates collate) (checks : List ProxyCheck) :
    (checks.insertionSort (newestFirst collate)).Pairwise fun first second => second.ts ≤ first.ts := by
  have : Std.Total (newestFirst collate) := ⟨fun first second => by
    rcases lt_trichotomy first.ts second.ts with before | same | after
    · exact .inr (.inl before)
    · rcases collates.total first.targetId second.targetId with below | above
      · exact .inl (.inr ⟨same.symm, below⟩)
      · exact .inr (.inr ⟨same, above⟩)
    · exact .inl (.inl after)⟩
  have : IsTrans ProxyCheck (newestFirst collate) := ⟨fun a b c first second => by
    rcases first with one | ⟨one, below⟩ <;> rcases second with two | ⟨two, above⟩
    · exact .inl (lt_trans two one)
    · exact .inl (two ▸ one)
    · exact .inl (one ▸ two)
    · exact .inr ⟨two.trans one, collates.trans _ _ _ below above⟩⟩
  refine (List.pairwise_insertionSort (newestFirst collate) checks).imp fun {first second} before => ?_
  rcases before with newer | ⟨same, -⟩
  · exact newer.le
  · exact same.le

/-- Where as many targets were checked at a time or later, all the first were. -/
theorem first_of_crowd {list : List ProxyCheck} (sorted : list.Pairwise fun first second => second.ts ≤ first.ts)
    (distinct : (list.map ProxyCheck.targetId).Nodup) (bound : Int) {targets : List String}
    (crowd : targets.Nodup)
    (checked : ∀ targetId ∈ targets, ∃ check ∈ list, check.targetId = targetId ∧ bound ≤ check.ts) :
    (list.take targets.length).length = targets.length ∧ ∀ check ∈ list.take targets.length, bound ≤ check.ts := by
  constructor
  · have inside : targets ⊆ list.map ProxyCheck.targetId := fun targetId member => by
      obtain ⟨check, listed, own, -⟩ := checked targetId member
      exact own ▸ List.mem_map_of_mem listed
    have enough := (crowd.subperm inside).length_le
    rw [List.length_map] at enough
    rw [List.length_take, min_eq_left enough]
  · intro old among
    by_contra early
    rw [not_le] at early
    have across := sorted
    rw [← List.take_append_drop targets.length list, List.pairwise_append] at across
    -- the checks of the crowd come before the old one
    have inside : old.targetId :: targets ⊆ (list.take targets.length).map ProxyCheck.targetId := by
      refine List.cons_subset.mpr ⟨List.mem_map_of_mem among, fun targetId member => ?_⟩
      obtain ⟨check, listed, own, recent⟩ := checked targetId member
      rw [← List.take_append_drop targets.length list] at listed
      rcases List.mem_append.mp listed with first | later
      · exact own ▸ List.mem_map_of_mem first
      · have below := across.2.2 old among check later
        omega
    have apart : old.targetId ∉ targets := fun member => by
      obtain ⟨check, listed, own, recent⟩ := checked _ member
      rw [List.inj_on_of_nodup_map distinct listed (List.mem_of_mem_take among) own] at recent
      omega
    have room := ((List.nodup_cons.mpr ⟨apart, crowd⟩).subperm inside).length_le
    rw [List.length_cons, List.length_map, List.length_take] at room
    omega

end First

/-! What the state holds after the checks of its reports. -/

structure LatestChecks (checks latest : List ProxyCheck) : Prop where
  few : latest.length ≤ maxAgentProxyChecksPerReport
  distinct : (latest.map ProxyCheck.targetId).Nodup
  newest : ∀ check ∈ latest, newestCheck check.targetId checks = some check
  dropped : ∀ check, newestCheck check.targetId checks = some check → check ∉ latest →
    latest.length = maxAgentProxyChecksPerReport ∧ ∀ other ∈ latest, check.ts ≤ other.ts

/-- A check that normalization leaves as it is; it has a time. -/
def SettledCheck (check : ProxyCheck) : Prop := normalizeAgentProxyCheck 0 check = some check

theorem SettledCheck.normalize {check : ProxyCheck} (settled : SettledCheck check) (now : Int) :
    normalizeAgentProxyCheck now check = some check := by
  have timed : check.ts ≠ 0 := fun none_ => by
    rw [SettledCheck, normalizeAgentProxyCheck] at settled
    simp [none_] at settled
  rw [← settled, normalizeAgentProxyCheck, normalizeAgentProxyCheck, if_neg timed, if_neg timed]

section Merge

variable {collate : String → String → Bool}

theorem normalizeAgentProxyChecks_settled {latest : List ProxyCheck}
    (few : latest.length ≤ maxAgentProxyChecksPerReport) (settled : ∀ check ∈ latest, SettledCheck check)
    (now : Int) : normalizeAgentProxyChecks now latest = latest := by
  rw [normalizeAgentProxyChecks, List.take_of_length_le few,
    List.filterMap_congr fun check member => (settled check member).normalize now, List.filterMap_some]

section Held

variable {checks latest incoming : List ProxyCheck} (held : LatestChecks checks latest)
include held

theorem LatestChecks.own {check : ProxyCheck} (member : check ∈ latest) :
    newestCheck check.targetId latest = some check := by
  have only : lastBy ProxyCheck.targetId check.targetId latest = some check :=
    (lastBy_eq_some_of_nodup held.distinct).mpr ⟨member, rfl⟩
  rw [newestCheck, filter_key_of_nodup held.distinct, only]
  rfl

/-- The kept checks tell the newest check of a target, unless that target was dropped. -/
theorem LatestChecks.agree (targetId : String) :
    newestCheck targetId latest = newestCheck targetId checks ∨
      newestCheck targetId latest = none ∧
        ∃ check, newestCheck targetId checks = some check ∧ check ∉ latest := by
  cases found : newestCheck targetId latest with
  | some check =>
      obtain ⟨member, own, -⟩ := newestCheck_spec found
      left
      rw [← held.newest check member, own]
  | none =>
      cases all : newestCheck targetId checks with
      | none => exact .inl rfl
      | some check =>
          refine .inr ⟨rfl, check, rfl, fun member => ?_⟩
          exact newestCheck_eq_none.mp found check member (newestCheck_spec all).2.1

/-- After a target was dropped all targets that are kept were checked at its newest check or later. -/
theorem LatestChecks.crowd (collates : Collates collate) (incoming : List ProxyCheck) {check : ProxyCheck}
    (newest : newestCheck check.targetId checks = some check) (absent : check ∉ latest) :
    (latestTargets collate ((latest ++ incoming).foldl keepNewer .empty).values).length =
        maxAgentProxyChecksPerReport ∧
      ∀ other ∈ latestTargets collate ((latest ++ incoming).foldl keepNewer .empty).values,
        check.ts ≤ other.ts := by
  obtain ⟨full, later⟩ := held.dropped check newest absent
  have room : (latest.map ProxyCheck.targetId).length = maxAgentProxyChecksPerReport := by
    rw [List.length_map, full]
  have distinct : ((((latest ++ incoming).foldl keepNewer .empty).values.insertionSort
      (newestFirst collate)).map ProxyCheck.targetId).Nodup :=
    ((List.perm_insertionSort _ _).map ProxyCheck.targetId).nodup_iff.mpr (nodup_values_keepNewer _)
  have first := first_of_crowd (pairwise_newestFirst collates _) distinct check.ts held.distinct
    fun targetId member => by
      obtain ⟨kept_, listed, rfl⟩ := List.mem_map.mp member
      cases found : newestCheck kept_.targetId (latest ++ incoming) with
      | none => exact absurd rfl (newestCheck_eq_none.mp found kept_ (List.mem_append_left _ listed))
      | some value =>
          obtain ⟨-, own, above⟩ := newestCheck_spec found
          refine ⟨value, (List.mem_insertionSort _).mpr (mem_values_keepNewer.mpr (own ▸ found)), own, ?_⟩
          exact (later kept_ listed).trans (above kept_ (List.mem_append_left _ listed) rfl)
  rw [room] at first
  exact first

theorem LatestChecks.merge (collates : Collates collate) (settled : ∀ check ∈ latest, SettledCheck check)
    (now : Int) :
    LatestChecks (checks ++ incoming) (mergeStateProxyChecks collate now latest incoming) := by
  have merged : mergeStateProxyChecks collate now latest incoming =
      (latestTargets collate ((latest ++ incoming).foldl keepNewer .empty).values).insertionSort
        (tsThenTarget collate ProxyCheck.targetId ProxyCheck.ts) := by
    rw [mergeStateProxyChecks, normalizeAgentProxyChecks_settled held.few settled]
  set first := latestTargets collate ((latest ++ incoming).foldl keepNewer .empty).values with firsts
  have sorted := pairwise_newestFirst collates ((latest ++ incoming).foldl keepNewer .empty).values
  have values_ {check : ProxyCheck} : check ∈ ((latest ++ incoming).foldl keepNewer .empty).values.insertionSort
      (newestFirst collate) ↔ newestCheck check.targetId (latest ++ incoming) = some check := by
    rw [List.mem_insertionSort, mem_values_keepNewer]
  have member {check : ProxyCheck} : check ∈ mergeStateProxyChecks collate now latest incoming ↔ check ∈ first := by
    rw [merged, List.mem_insertionSort]
  have length : (mergeStateProxyChecks collate now latest incoming).length = first.length := by
    rw [merged, List.length_insertionSort]
  refine ⟨?_, ?_, ?_, ?_⟩
  · rw [length]
    exact List.length_take_le _ _
  · rw [merged, ((List.perm_insertionSort _ _).map ProxyCheck.targetId).nodup_iff]
    refine List.Nodup.sublist ((List.take_sublist _ _).map ProxyCheck.targetId) ?_
    exact ((List.perm_insertionSort _ _).map ProxyCheck.targetId).nodup_iff.mpr (nodup_values_keepNewer _)
  · intro check listed
    have among := member.mp listed
    have value := values_.mp (List.mem_of_mem_take among)
    rw [newestCheck_append] at value ⊢
    rcases held.agree check.targetId with same | ⟨none_, old, newest, absent⟩
    · rwa [← same]
    · rw [none_] at value
      cases fresh : newestCheck check.targetId incoming with
      | none =>
          rw [fresh] at value
          cases value
      | some new =>
          rw [fresh] at value
          cases value
          have own := (newestCheck_spec newest).2.1
          have late := (held.crowd collates incoming (own ▸ newest) absent).2 check among
          rw [newest, newerOfBoth, newerOf, if_pos late]
  · intro check newest absent
    rw [member] at absent
    rw [length]
    by_cases value : newestCheck check.targetId (latest ++ incoming) = some check
    · -- the check was cut off
      have listed := values_.mpr value
      rw [← List.take_append_drop maxAgentProxyChecksPerReport (List.insertionSort _ _)] at listed sorted
      have later := (List.mem_append.mp listed).resolve_left absent
      refine ⟨?_, fun other inside => (List.pairwise_append.mp sorted).2.2 other (member.mp inside) check later⟩
      have long := List.length_pos_of_mem later
      rw [List.length_drop] at long
      rw [firsts, latestTargets, List.length_take]
      omega
    · -- its target had been dropped before
      rw [newestCheck_append] at newest value
      rcases held.agree check.targetId with same | ⟨none_, old, found, gone⟩
      · rw [same] at value
        exact absurd newest value
      · have own := (newestCheck_spec found).2.1
        have crowd := held.crowd collates incoming (own ▸ found) gone
        have here : check = old := by
          rw [found] at newest
          rw [none_] at value
          cases fresh : newestCheck check.targetId incoming with
          | none =>
              rw [fresh] at newest
              exact (Option.some.inj newest).symm
          | some new =>
              rw [fresh] at newest value
              simp only [newerOfBoth, newerOf] at newest value
              split_ifs at newest
              · exact absurd newest value
              · exact (Option.some.inj newest).symm
        rw [here]
        exact ⟨crowd.1, fun other inside => crowd.2 other (member.mp inside)⟩

end Held

/-! Reports. -/

/-- The proxy checks of a report and the clock when it is merged. -/
structure CheckReport where
  now : Int
  checks : List ProxyCheck

def mergeCheckReports (collate : String → String → Bool) (reports : List CheckReport) : List ProxyCheck :=
  reports.foldl (fun state report => mergeStateProxyChecks collate report.now state report.checks) []

theorem latestChecks_mergeCheckReports (collates : Collates collate) {reports : List CheckReport}
    (settled : ∀ report ∈ reports, ∀ check ∈ report.checks, SettledCheck check) :
    LatestChecks (reports.flatMap CheckReport.checks) (mergeCheckReports collate reports) := by
  induction reports using List.reverseRecOn with
  | nil =>
      refine ⟨Nat.zero_le _, List.nodup_nil, ?_, ?_⟩
      · intro check member
        cases member
      · intro check newest _
        cases newest
  | append_singleton rest report ih =>
      have held := ih fun other member => settled other (List.mem_append_left _ member)
      have known : ∀ check ∈ mergeCheckReports collate rest, SettledCheck check := fun check member => by
        have listed := (newestCheck_spec (held.newest check member)).1
        obtain ⟨other, inside, here⟩ := List.mem_flatMap.mp listed
        exact settled other (List.mem_append_left _ inside) check here
      rw [List.flatMap_append, List.flatMap_singleton, mergeCheckReports, List.foldl_concat]
      exact held.merge collates known report.now

/-- A check that stays is not replaced by an older one. -/
theorem LatestChecks.not_older {checks latest incoming next : List ProxyCheck} (held : LatestChecks checks latest)
    (after : LatestChecks (checks ++ incoming) next) {check other : ProxyCheck} (member : check ∈ latest)
    (later : other ∈ next) (same : other.targetId = check.targetId) : check.ts ≤ other.ts := by
  have listed := (newestCheck_spec (held.newest check member)).1
  exact (newestCheck_spec (after.newest other later)).2.2 check (List.mem_append_left _ listed) same.symm

end Merge

/-- Merging report by report is merging everything. -/
theorem state_merges_incrementally {collate : String → String → Bool} (collates : Collates collate)
    (retentionHours : Option JsNumber) :
    (∀ (reports : List PingReport) (last : PingReport),
      (reports ++ [last]).Pairwise (fun first second => first.now ≤ second.now) →
      (∀ report ∈ reports ++ [last], ∀ raw ∈ report.pings, raw.Settled) →
      Apart collate (normalPings (reports ++ [last])) →
      let live := livePings (last.now - pingRetention retentionHours) (normalPings (reports ++ [last]))
      mergeReports collate retentionHours [] (reports ++ [last]) =
          mergeStatePings collate retentionHours last.now [] ((reports ++ [last]).flatMap PingReport.pings) ∧
        ∀ ping, ping ∈ mergeReports collate retentionHours [] (reports ++ [last]) ↔
          lastBy pingKey (pingKey ping) live = some ping ∧
            pingKey ping ∈ Newest.kept Prod.fst (newerKey collate) maxPerTarget maxTotal (keysOf live)) ∧
    ∀ reports : List CheckReport,
      (∀ report ∈ reports, ∀ check ∈ report.checks, SettledCheck check) →
      LatestChecks (reports.flatMap CheckReport.checks) (mergeCheckReports collate reports) ∧
        ∀ before report, before ++ [report] <+: reports → ∀ check ∈ mergeCheckReports collate before,
          ∀ other ∈ mergeCheckReports collate (before ++ [report]),
            other.targetId = check.targetId → check.ts ≤ other.ts := by
  constructor
  · intro reports last clocks settled apart
    have first : ∃ clock, ∀ report ∈ reports ++ [last], clock ≤ report.now := by
      cases reports with
      | nil => exact ⟨last.now, by simp⟩
      | cons report rest =>
          refine ⟨report.now, fun other member => ?_⟩
          rcases List.mem_cons.mp member with rfl | later
          · exact le_rfl
          · exact (List.pairwise_cons.mp clocks).1 other later
    obtain ⟨clock, after⟩ := first
    have folded := @mergeReports_eq _ collates retentionHours [] clock reports last clocks after (by simp) settled apart
    have none_ : livePings (clock - pingRetention retentionHours) [] = [] := rfl
    rw [none_, limitPings_nil, List.nil_append] at folded
    refine ⟨folded, fun ping => ?_⟩
    rw [folded]
    exact mem_limitPings collates (apart.sublist (livePings_subset _ _))
  · intro reports settled
    refine ⟨latestChecks_mergeCheckReports collates settled, ?_⟩
    rintro before report ⟨rest, rfl⟩ check member other later same
    have held := latestChecks_mergeCheckReports collates fun each (listed : each ∈ before) =>
      settled each (List.mem_append_left _ (List.mem_append_left _ listed))
    have next := latestChecks_mergeCheckReports collates fun each (listed : each ∈ before ++ [report]) =>
      settled each (List.mem_append_left _ listed)
    rw [List.flatMap_append] at next
    exact held.not_older next member later same

/-! Reports of two pings of a target, of canonically equivalent target ids, of an id that is cut before a space,
and of a check without a name. -/

def ping (targetId : String) (ts : Int) : RawPing := ⟨targetId, ts, some 20, some 1⟩

def twoReports : List PingReport := [⟨100000, [ping "a" 99990]⟩, ⟨100060, [ping "a" 100050, ping "b" 99990]⟩]

def proxyCheck (targetId : String) (ts : Int) : ProxyCheck :=
  { targetId, name := "proxy", protocol := "socks5", ts, latencyMs := some 20, handshakeMs := none
    firstByteMs := none, totalMs := none, ok := 1, stage := "canary", error := none }

def checkReports : List CheckReport := [⟨100000, [proxyCheck "a" 99990]⟩, ⟨100060, [proxyCheck "a" 99980]⟩]

theorem collates_texts : Collates fun first second => decide (first ≤ second) where
  total first second := by simpa using le_total first second
  trans first second third below above := by
    simp only [decide_eq_true_eq] at below above ⊢
    exact below.trans above

theorem state_merges_incrementally_twoReports :
    mergeReports (fun first second => first ≤ second) none [] twoReports =
        mergeStatePings (fun first second => first ≤ second) none 100060 [] (twoReports.flatMap PingReport.pings) ∧
      LatestChecks (checkReports.flatMap CheckReport.checks)
        (mergeCheckReports (fun first second => first ≤ second) checkReports) := by
  have both := state_merges_incrementally collates_texts none
  refine ⟨(both.1 [⟨100000, [ping "a" 99990]⟩] ⟨100060, [ping "a" 100050, ping "b" 99990]⟩ ?_ ?_ ?_).1,
    (both.2 checkReports ?_).1⟩
  · simp
  · unfold RawPing.Settled
    decide +kernel
  · intro first _ second _ below above
    simp only [decide_eq_true_eq] at below above
    exact le_antisymm below above
  · unfold SettledCheck
    decide +kernel

/-- The order of a locale in which an accent may be composed or combined. -/
def canonical (text : String) : String := if text = "e\u0301" then "\u00e9" else text

def localeOrder (first second : String) : Bool := canonical first ≤ canonical second

def equivalentIds : List PingReport :=
  [⟨100000, [ping "\u00e9" 99990, ping "e\u0301" 99989]⟩, ⟨100060, [ping "e\u0301" 99990]⟩]

def cutBeforeSpace : String := String.ofList (List.replicate 63 'a' ++ [' ', 'b'])

theorem state_merges_apart :
    mergeReports localeOrder none [] equivalentIds ≠
        mergeStatePings localeOrder none 100060 [] (equivalentIds.flatMap PingReport.pings) ∧
      mergeReports localeOrder none [] [⟨100000, [ping cutBeforeSpace 99990]⟩, ⟨100060, []⟩] ≠
        mergeStatePings localeOrder none 100060 [] [ping cutBeforeSpace 99990] ∧
      mergeCheckReports localeOrder [⟨100000, [{ proxyCheck "a" 99990 with name := "" }]⟩, ⟨100060, []⟩] =
        [{ proxyCheck "a" 99990 with name := "a" }] := by
  decide +kernel

end NieSla.Metrics
