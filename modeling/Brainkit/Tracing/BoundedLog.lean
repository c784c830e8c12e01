import Brainkit.Tracing.MemoryStore

set_option autoImplicit false

-- What ListTraces shows of each trace, and when it does not depend on the order of the slots or of the map.
namespace Brainkit.Tracing

open GoText Ring

def root (span : Span) : Bool := span.parentID = []

def group (query : TraceQuery) (spans : List Span) (traceID : GoString) : List Span :=
  spans.filter fun span => !query.skips span && span.traceID = traceID

def startOf (spans : List Span) : Int := (spans.head?.map Span.startTime).getD 0

-- The last span without a parent names the trace and gives its duration.
def rootOf (spans : List Span) : GoString × Int :=
  ((spans.filter root).getLast?.map fun span => (span.name, span.duration)).getD ([], 0)

def statusOf (spans : List Span) : GoString :=
  if spans.any fun span => span.status = lit "error" then lit "error" else lit "ok"

def summary (traceID : GoString) (spans : List Span) : TraceSummary where
  traceID := traceID
  rootSpan := (rootOf spans).1
  spanCount := spans.length
  duration := (rootOf spans).2
  status := statusOf spans
  startTime := startOf spans

theorem rootOf_snoc (spans : List Span) (span : Span) :
    rootOf (spans ++ [span]) = if span.parentID = [] then (span.name, span.duration) else rootOf spans := by
  unfold rootOf
  rw [List.filter_append]
  split
  case isTrue none => simp [root, none]
  case isFalse some => simp [root, some]

theorem statusOf_snoc (spans : List Span) (span : Span) :
    statusOf (spans ++ [span]) = if span.status = lit "error" then lit "error" else statusOf spans := by
  unfold statusOf
  by_cases failed : span.status = lit "error"
  · simp [failed]
  · simp [failed]

theorem startOf_snoc {spans : List Span} (some : spans ≠ []) (span : Span) :
    startOf (spans ++ [span]) = startOf spans := by
  cases spans with
  | nil => exact absurd rfl some
  | cons first rest => rfl

theorem add_eq (ts : TraceSummary) (span : Span) : ts.add span = {
    traceID := ts.traceID
    rootSpan := if span.parentID = [] then span.name else ts.rootSpan
    spanCount := ts.spanCount + 1
    duration := if span.parentID = [] then span.duration else ts.duration
    status := if span.status = lit "error" then lit "error" else ts.status
    startTime := ts.startTime } := by
  unfold TraceSummary.add
  by_cases rooted : span.parentID = [] <;> by_cases failed : span.status = lit "error" <;> simp [rooted, failed]

theorem add_traceID (ts : TraceSummary) (span : Span) : (ts.add span).traceID = ts.traceID := by
  rw [add_eq]

theorem summary_snoc {traceID : GoString} {spans : List Span} (some : spans ≠ []) (span : Span) :
    summary traceID (spans ++ [span]) = (summary traceID spans).add span := by
  rw [add_eq, summary, rootOf_snoc, statusOf_snoc, startOf_snoc some]
  by_cases rooted : span.parentID = [] <;> simp [rooted, summary]

theorem summary_single (span : Span) : summary span.traceID [span] = (TraceSummary.first span).add span := by
  rw [add_eq, summary, ← List.nil_append [span], rootOf_snoc, statusOf_snoc]
  by_cases rooted : span.parentID = [] <;> simp [rooted, TraceSummary.first, startOf, rootOf, statusOf]

theorem group_snoc_other {query : TraceQuery} {spans : List Span} {span : Span} {traceID : GoString}
    (other : query.skips span = true ∨ span.traceID ≠ traceID) :
    group query (spans ++ [span]) traceID = group query spans traceID := by
  have dropped : (!query.skips span && decide (span.traceID = traceID)) = false := by
    obtain skipped | other := other
    · rw [skipped]
      rfl
    · rw [decide_eq_false other, Bool.and_false]
  rw [group, List.filter_append, List.filter_cons, dropped]
  exact List.append_nil _

theorem group_snoc_own {query : TraceQuery} {spans : List Span} {span : Span} (seen : query.skips span = false) :
    group query (spans ++ [span]) span.traceID = group query spans span.traceID ++ [span] := by
  rw [group, List.filter_append]
  simp [seen, group]

structure Grouped (query : TraceQuery) (spans : List Span) (traces : List TraceSummary) : Prop where
  unique : (traces.map TraceSummary.traceID).Nodup
  member : ∀ ts, ts ∈ traces ↔ group query spans ts.traceID ≠ [] ∧ ts = summary ts.traceID (group query spans ts.traceID)

theorem Grouped.note {query : TraceQuery} {spans : List Span} {traces : List TraceSummary}
    (grouped : Grouped query spans traces) (span : Span) : Grouped query (spans ++ [span]) (query.note traces span) := by
  unfold TraceQuery.note
  split
  case isTrue skipped =>
      refine ⟨grouped.unique, fun ts => ?_⟩
      rw [group_snoc_other (.inl skipped)]
      exact grouped.member ts
  case isFalse seen =>
      have seen : query.skips span = false := by simpa using seen
      split
      case isTrue known =>
          obtain ⟨old, listed, same⟩ := List.any_eq_true.mp known
          have same : old.traceID = span.traceID := of_decide_eq_true same
          have before := (grouped.member old).mp listed
          rw [same] at before
          have keys : (traces.map fun ts => if ts.traceID = span.traceID then ts.add span else ts).map
              TraceSummary.traceID = traces.map TraceSummary.traceID := by
            rw [List.map_map]
            apply List.map_congr_left
            intro ts _
            simp only [Function.comp]
            split
            · exact add_traceID ts span
            · rfl
          refine ⟨keys ▸ grouped.unique, fun ts => ?_⟩
          rw [List.mem_map]
          constructor
          · rintro ⟨ts, here, rfl⟩
            split
            case isTrue own =>
                have known := (grouped.member ts).mp here
                rw [own] at known
                rw [add_traceID, own, group_snoc_own seen, summary_snoc known.1, ← known.2]
                exact ⟨by simp, rfl⟩
            case isFalse other =>
                rw [group_snoc_other (.inr fun own => other own.symm)]
                exact (grouped.member ts).mp here
          · rintro ⟨some, whole⟩
            by_cases own : ts.traceID = span.traceID
            · refine ⟨old, listed, ?_⟩
              rw [if_pos same]
              rw [own, group_snoc_own seen, summary_snoc before.1, ← before.2] at whole
              exact whole.symm
            · rw [group_snoc_other (.inr fun same => own same.symm)] at some whole
              exact ⟨ts, (grouped.member ts).mpr ⟨some, whole⟩, if_neg own⟩
      case isFalse fresh =>
          have absent : ∀ ts ∈ traces, ts.traceID ≠ span.traceID := fun ts here same =>
            fresh (List.any_eq_true.mpr ⟨ts, here, decide_eq_true same⟩)
          have none : group query spans span.traceID = [] := by
            by_contra some
            exact absent _ ((grouped.member (summary span.traceID (group query spans span.traceID))).mpr ⟨some, rfl⟩) rfl
          have name : ((TraceSummary.first span).add span).traceID = span.traceID := add_traceID _ span
          refine ⟨?_, fun ts => ?_⟩
          · rw [List.map_append, List.map_singleton, name]
            refine List.Nodup.append grouped.unique (List.nodup_singleton _) ?_
            intro id here there
            obtain ⟨ts, listed, rfl⟩ := List.mem_map.mp here
            exact absent ts listed (List.mem_singleton.mp there)
          · rw [List.mem_append, List.mem_singleton]
            by_cases own : ts.traceID = span.traceID
            · rw [own, group_snoc_own seen, none, List.nil_append, summary_single]
              constructor
              · rintro (here | rfl)
                · exact absurd own (absent ts here)
                · exact ⟨by simp, rfl⟩
              · exact fun here => .inr here.2
            · rw [group_snoc_other (.inr fun same => own same.symm), ← grouped.member ts]
              constructor
              · rintro (here | rfl)
                · exact here
                · exact absurd name own
              · exact .inl

theorem traces_grouped (query : TraceQuery) (spans : List Span) : Grouped query spans (query.traces spans) := by
  induction spans using List.reverseRecOn with
  | nil =>
      refine ⟨List.nodup_nil, fun ts => ?_⟩
      constructor
      · intro here
        cases here
      · rintro ⟨some, -⟩
        exact absurd rfl some
  | append_singleton spans span ih =>
      rw [TraceQuery.traces, List.foldl_append]
      exact ih.note span

def Shown (query : TraceQuery) (spans : List Span) (traceID : GoString) : Prop :=
  group query spans traceID ≠ [] ∧ (query.minDuration ≤ 0 ∨ query.minDuration ≤ (rootOf (group query spans traceID)).2)

def MayShow (query : TraceQuery) (spans : List Span) (traceID : GoString) : Prop :=
  group query spans traceID ≠ [] ∧
    (query.minDuration ≤ 0 ∨ ∃ span ∈ group query spans traceID, root span = true ∧ query.minDuration ≤ span.duration)

def Uniform (spans : List Span) : Prop :=
  ∀ x ∈ spans, ∀ y ∈ spans, x.startTime = y.startTime ∧
    (root x = true → root y = true → x.name = y.name ∧ x.duration = y.duration)

def Outcome (query : TraceQuery) (spans : List Span) (result : List TraceSummary) : Prop :=
  ∃ order : List TraceSummary, order.Perm (query.traces spans) ∧ result = query.limited (order.filter query.passes)

def Agree (query : TraceQuery) (spans others : List Span) : Prop :=
  ∀ result result', Outcome query spans result → Outcome query others result' → result = result'

theorem passes_summary (query : TraceQuery) (traceID : GoString) (spans : List Span) :
    query.passes (summary traceID spans) = true ↔ query.minDuration ≤ 0 ∨ query.minDuration ≤ (rootOf spans).2 := by
  change (!(decide (0 < query.minDuration) && decide ((rootOf spans).2 < query.minDuration))) = true ↔ _
  rw [Bool.not_eq_true', Bool.and_eq_false_iff, decide_eq_false_iff_not, decide_eq_false_iff_not, Int.not_lt, Int.not_lt]

theorem shown_iff {query : TraceQuery} {spans : List Span} (ts : TraceSummary) :
    ts ∈ query.traces spans ∧ query.passes ts = true ↔
      Shown query spans ts.traceID ∧ ts = summary ts.traceID (group query spans ts.traceID) := by
  rw [(traces_grouped query spans).member]
  constructor
  · rintro ⟨⟨some, whole⟩, passed⟩
    rw [whole] at passed
    exact ⟨⟨some, (passes_summary ..).mp passed⟩, whole⟩
  · rintro ⟨⟨some, long⟩, whole⟩
    refine ⟨⟨some, whole⟩, ?_⟩
    rw [whole]
    exact (passes_summary ..).mpr long

theorem shown_listed {query : TraceQuery} {spans : List Span} {traceID : GoString} (shown : Shown query spans traceID) :
    summary traceID (group query spans traceID) ∈ query.traces spans ∧
      query.passes (summary traceID (group query spans traceID)) = true :=
  (shown_iff _).mpr ⟨shown, rfl⟩

theorem limited_cons {query : TraceQuery} (limited : 0 < query.limit) (ts : TraceSummary) (rest : List TraceSummary) :
    ∃ more, query.limited (ts :: rest) = ts :: more := by
  unfold TraceQuery.limited
  split
  case isFalse => exact ⟨rest, rfl⟩
  case isTrue =>
      obtain ⟨n, same⟩ : ∃ n, query.limit.toNat = n + 1 := ⟨query.limit.toNat - 1, by omega⟩
      rw [same]
      exact ⟨rest.take n, rfl⟩

theorem mem_limited {query : TraceQuery} {ts : TraceSummary} {result : List TraceSummary}
    (member : ts ∈ query.limited result) : ts ∈ result := by
  unfold TraceQuery.limited at member
  split at member
  case isTrue => exact List.mem_of_mem_take member
  case isFalse => exact member

theorem outcome_exists (query : TraceQuery) (spans : List Span) : ∃ result, Outcome query spans result :=
  ⟨_, query.traces spans, List.Perm.refl _, rfl⟩

theorem outcome_member {query : TraceQuery} {spans : List Span} {result : List TraceSummary}
    (outcome : Outcome query spans result) {ts : TraceSummary} (member : ts ∈ result) :
    Shown query spans ts.traceID ∧ ts = summary ts.traceID (group query spans ts.traceID) := by
  obtain ⟨order, perm, rfl⟩ := outcome
  obtain ⟨listed, passed⟩ := List.mem_filter.mp (mem_limited member)
  exact (shown_iff ts).mp ⟨perm.mem_iff.mp listed, passed⟩

theorem outcome_first {query : TraceQuery} (limited : 0 < query.limit) {spans : List Span} {traceID : GoString}
    (shown : Shown query spans traceID) :
    ∃ more, Outcome query spans (summary traceID (group query spans traceID) :: more) := by
  obtain ⟨listed, passed⟩ := shown_listed shown
  obtain ⟨before, after, split⟩ := List.append_of_mem listed
  have perm : (summary traceID (group query spans traceID) :: (before ++ after)).Perm (query.traces spans) := by
    rw [split]
    exact List.perm_middle.symm
  obtain ⟨more, first⟩ := limited_cons limited (summary traceID (group query spans traceID))
    ((before ++ after).filter query.passes)
  refine ⟨more, _, perm, ?_⟩
  rw [List.filter_cons_of_pos passed, first]

theorem outcome_one {query : TraceQuery} (limited : 0 < query.limit) {spans : List Span} {traceID : GoString}
    (shown : Shown query spans traceID) (only : ∀ other, Shown query spans other → other = traceID)
    {result : List TraceSummary} (outcome : Outcome query spans result) :
    result = [summary traceID (group query spans traceID)] := by
  obtain ⟨order, perm, rfl⟩ := outcome
  have unique : (order.filter query.passes).Nodup :=
    ((perm.nodup_iff.mpr (traces_grouped query spans).unique.of_map)).filter _
  have all : ∀ ts ∈ order.filter query.passes, ts = summary traceID (group query spans traceID) := by
    intro ts member
    obtain ⟨listed, passed⟩ := List.mem_filter.mp member
    obtain ⟨shown', whole⟩ := (shown_iff ts).mp ⟨perm.mem_iff.mp listed, passed⟩
    rw [whole, only _ shown']
  have here : summary traceID (group query spans traceID) ∈ order.filter query.passes := by
    obtain ⟨listed, passed⟩ := shown_listed shown
    exact List.mem_filter.mpr ⟨perm.mem_iff.mpr listed, passed⟩
  have single : order.filter query.passes = [summary traceID (group query spans traceID)] := by
    rw [List.eq_replicate_of_mem all] at unique here ⊢
    have few := List.nodup_replicate.mp unique
    have some := List.length_pos_of_mem here
    rw [List.length_replicate] at some
    rw [show (order.filter query.passes).length = 1 by omega]
    rfl
  rw [single, TraceQuery.limited, if_neg]
  rw [List.length_singleton]
  omega

theorem outcome_none {query : TraceQuery} {spans : List Span} (none : ∀ traceID, ¬ Shown query spans traceID)
    {result : List TraceSummary} (outcome : Outcome query spans result) : result = [] := by
  cases result with
  | nil => rfl
  | cons ts more => exact absurd (outcome_member outcome (.head _)).1 (none _)

theorem Agree.unique {query : TraceQuery} (limited : 0 < query.limit) {spans others : List Span}
    (agree : Agree query spans others) {t t' : GoString} (shown : Shown query spans t) (shown' : Shown query spans t') :
    t = t' := by
  obtain ⟨more, first⟩ := outcome_first limited shown
  obtain ⟨more', first'⟩ := outcome_first limited shown'
  obtain ⟨result, outcome⟩ := outcome_exists query others
  have same := (agree _ _ first outcome).trans (agree _ _ first' outcome).symm
  exact congrArg TraceSummary.traceID (List.cons.inj same).1

theorem Agree.carried {query : TraceQuery} (limited : 0 < query.limit) {spans others : List Span}
    (agree : Agree query spans others) {t : GoString} (shown : Shown query spans t) :
    Shown query others t ∧ summary t (group query spans t) = summary t (group query others t) := by
  obtain ⟨more, first⟩ := outcome_first limited shown
  obtain ⟨result, outcome⟩ := outcome_exists query others
  have same := agree _ _ first outcome
  subst same
  exact outcome_member outcome (.head _)

theorem Agree.symm {query : TraceQuery} {spans others : List Span} (agree : Agree query spans others) :
    Agree query others spans := fun _ _ one other => (agree _ _ other one).symm

theorem Agree.trans {query : TraceQuery} {spans middle others : List Span} (agree : Agree query spans middle)
    (agree' : Agree query middle others) : Agree query spans others := by
  intro result result' one other
  obtain ⟨between, outcome⟩ := outcome_exists query middle
  exact (agree _ _ one outcome).trans (agree' _ _ outcome other)

theorem agree_single {query : TraceQuery} (limited : 0 < query.limit) {spans : List Span}
    (single : ∀ t t', Shown query spans t → Shown query spans t' → t = t') : Agree query spans spans := by
  intro result result' one other
  by_cases some : ∃ t, Shown query spans t
  · obtain ⟨t, shown⟩ := some
    have only := fun t' shown' => single t' t shown' shown
    rw [outcome_one limited shown only one, outcome_one limited shown only other]
  · have none := not_exists.mp some
    rw [outcome_none none one, outcome_none none other]

theorem group_perm {query : TraceQuery} {spans others : List Span} (perm : spans.Perm others) (t : GoString) :
    (group query spans t).Perm (group query others t) := perm.filter _

theorem group_append (query : TraceQuery) (spans others : List Span) (t : GoString) :
    group query (spans ++ others) t = group query spans t ++ group query others t := List.filter_append ..

theorem group_mem {query : TraceQuery} {spans : List Span} {span : Span} {t : GoString}
    (member : span ∈ group query spans t) : span ∈ spans ∧ group query [span] t = [span] := by
  obtain ⟨listed, own⟩ := List.mem_filter.mp member
  refine ⟨listed, ?_⟩
  unfold group
  rw [List.filter_cons]
  exact if_pos own

theorem head_mem {spans : List Span} (some : spans ≠ []) : ∃ span ∈ spans, startOf spans = span.startTime := by
  cases spans with
  | nil => exact absurd rfl some
  | cons first rest => exact ⟨first, .head _, rfl⟩

theorem rootOf_cases (spans : List Span) :
    (∃ span ∈ spans, root span = true ∧ rootOf spans = (span.name, span.duration)) ∨
      (∀ span ∈ spans, root span = false) ∧ rootOf spans = ([], 0) := by
  unfold rootOf
  cases last : (spans.filter root).getLast? with
  | none =>
      refine .inr ⟨fun span member => ?_, rfl⟩
      by_contra rooted
      have here := List.mem_filter.mpr ⟨member, eq_true_of_ne_false rooted⟩
      rw [List.getLast?_eq_none_iff.mp last] at here
      cases here
  | some span =>
      obtain ⟨member, rooted⟩ := List.mem_filter.mp (List.mem_of_getLast? last)
      exact .inl ⟨span, member, rooted, rfl⟩

theorem uniform_summary {spans others : List Span} (uniform : Uniform spans) (perm : others.Perm spans)
    (some : spans ≠ []) (t : GoString) : summary t others = summary t spans := by
  have some' : others ≠ [] := fun none => some (List.nil_perm.mp (none ▸ perm))
  obtain ⟨x, here, start⟩ := head_mem some
  obtain ⟨y, here', start'⟩ := head_mem some'
  have times : startOf others = startOf spans := by
    rw [start, start']
    exact (uniform y (perm.mem_iff.mp here') x here).1
  have roots : rootOf others = rootOf spans := by
    obtain ⟨x, here, rooted, is⟩ | ⟨bare, is⟩ := rootOf_cases spans <;>
      obtain ⟨y, here', rooted', is'⟩ | ⟨bare', is'⟩ := rootOf_cases others
    · obtain ⟨names, durations⟩ := (uniform y (perm.mem_iff.mp here') x here).2 rooted' rooted
      rw [is, is', names, durations]
    · rw [bare' x (perm.mem_iff.mpr here)] at rooted
      cases rooted
    · rw [bare y (perm.mem_iff.mp here')] at rooted'
      cases rooted'
    · rw [is, is']
  have states : statusOf others = statusOf spans := by
    unfold statusOf
    rw [perm.any_eq]
  unfold summary
  rw [times, roots, states, perm.length_eq]

-- Where the slots of a ring may hold the retained records of a history.
def Layout (capacity : Nat) (history l : List Span) : Prop :=
  ∃ other, retained capacity other = retained capacity history ∧ slots capacity other = l

theorem layout_short {capacity : Nat} {history l : List Span} (short : history.length < capacity)
    (layout : Layout capacity history l) : l = history := by
  obtain ⟨other, same, rfl⟩ := layout
  rw [retained_short short.le] at same
  have fits : other.length < capacity := by
    by_contra long
    have size := retained_length (Nat.le_of_not_lt long)
    rw [same] at size
    omega
  rw [retained_short fits.le] at same
  rw [slots, if_pos fits, same]

theorem layout_perm {capacity : Nat} (some : 0 < capacity) {history l : List Span} (layout : Layout capacity history l) :
    l.Perm (retained capacity history) := by
  obtain ⟨other, same, rfl⟩ := layout
  rw [← same]
  exact slots_perm some other

theorem layout_rotated {capacity : Nat} (some : 0 < capacity) {history first last : List Span}
    (filled : capacity ≤ history.length) (whole : retained capacity history = first ++ last) :
    Layout capacity history (last ++ first) := by
  have sizes := retained_length filled
  rw [whole, List.length_append] at sizes
  cases first with
  | nil =>
      have same := @slots_rotated Span capacity last [] (by rintro rfl; simp at sizes; omega) (by simpa using sizes)
        Span.zero
      refine ⟨_, same.1.trans ?_, same.2.trans ?_⟩
      · rw [whole, List.append_nil, List.nil_append]
      · rw [List.append_nil, List.nil_append]
  | cons span first =>
      have same := slots_rotated (List.cons_ne_nil span first) sizes Span.zero
      exact ⟨_, same.1.trans whole.symm, same.2⟩

def Single (capacity : Nat) (history : List Span) (query : TraceQuery) : Prop :=
  if history.length < capacity then
    ∀ t t', Shown query history t → Shown query history t' → t = t'
  else
    ∀ t t', MayShow query (retained capacity history) t → MayShow query (retained capacity history) t' →
      t = t' ∧ Uniform (group query (retained capacity history) t)

theorem single_short {capacity : Nat} {history : List Span} {query : TraceQuery} (limited : 0 < query.limit)
    (short : history.length < capacity) :
    (∀ l, Layout capacity history l → Agree query (slots capacity history) l) ↔ Single capacity history query := by
  have own : slots capacity history = history := by rw [slots, if_pos short]
  rw [Single, if_pos short, own]
  constructor
  · intro agree t t' shown shown'
    exact (agree history ⟨history, rfl, own⟩).unique limited shown shown'
  · intro single l layout
    rw [layout_short short layout]
    exact agree_single limited single

theorem mayShow_layout {capacity : Nat} (some : 0 < capacity) {history : List Span} {query : TraceQuery}
    (filled : capacity ≤ history.length) {t : GoString} (may : MayShow query (retained capacity history) t) :
    ∃ l, Layout capacity history l ∧ Shown query l t := by
  obtain ⟨many, low | ⟨span, member, rooted, long⟩⟩ := may
  · have perm := layout_perm some (layout_rotated some filled (List.nil_append _).symm)
    exact ⟨_, layout_rotated some filled (List.nil_append _).symm,
      fun none => many (List.nil_perm.mp (none ▸ group_perm perm t)), .inl low⟩
  · obtain ⟨listed, own⟩ := group_mem member
    obtain ⟨before, after, whole⟩ := List.append_of_mem listed
    have split : retained capacity history = (before ++ [span]) ++ after := by rw [whole]; simp
    have ends : group query (after ++ (before ++ [span])) t = group query (after ++ before) t ++ [span] := by
      rw [← List.append_assoc, group_append, own]
    refine ⟨_, layout_rotated some filled split, ?_, .inr ?_⟩
    · rw [ends]
      simp
    · rw [ends, rootOf_snoc, if_pos (of_decide_eq_true rooted)]
      exact long

theorem shown_mayShow {query : TraceQuery} {spans others : List Span} (perm : spans.Perm others) {t : GoString}
    (shown : Shown query spans t) : MayShow query others t := by
  obtain ⟨many, long⟩ := shown
  refine ⟨fun none => many (List.perm_nil.mp (none ▸ group_perm perm t)), ?_⟩
  by_cases low : query.minDuration ≤ 0
  · exact .inl low
  · obtain ⟨span, member, rooted, is⟩ | ⟨-, is⟩ := rootOf_cases (group query spans t)
    · rw [is] at long
      exact .inr ⟨span, (group_perm perm t).mem_iff.mp member, rooted, long.resolve_left low⟩
    · rw [is] at long
      exact absurd (long.resolve_left low) low

theorem single_full {capacity : Nat} (some : 0 < capacity) {history : List Span} {query : TraceQuery}
    (limited : 0 < query.limit) (filled : capacity ≤ history.length) :
    (∀ l, Layout capacity history l → Agree query (slots capacity history) l) ↔ Single capacity history query := by
  rw [Single, if_neg (Nat.not_lt.mpr filled)]
  constructor
  · intro agree t t' may may'
    have both : ∀ {l l'}, Layout capacity history l → Layout capacity history l' → Agree query l l' :=
      fun here there => (agree _ here).symm.trans (agree _ there)
    obtain ⟨l, layout, shown⟩ := mayShow_layout some filled may
    obtain ⟨l', layout', shown'⟩ := mayShow_layout some filled may'
    refine ⟨(both layout layout).unique limited shown ((both layout' layout).carried limited shown').1, ?_⟩
    -- A rotation shows any span first, or any root last.
    have starts : ∀ x ∈ group query (retained capacity history) t,
        (summary t (group query l t)).startTime = x.startTime := by
      intro x member
      obtain ⟨listed, own⟩ := group_mem member
      obtain ⟨before, after, whole⟩ := List.append_of_mem listed
      have turned := layout_rotated some filled whole
      rw [((both layout turned).carried limited shown).2]
      change startOf (group query (x :: after ++ before) t) = x.startTime
      rw [← List.singleton_append, List.append_assoc, group_append, own]
      rfl
    have roots : ∀ x ∈ group query (retained capacity history) t, root x = true →
        (summary t (group query l t)).rootSpan = x.name ∧ (summary t (group query l t)).duration = x.duration := by
      intro x member rooted
      obtain ⟨listed, own⟩ := group_mem member
      obtain ⟨before, after, whole⟩ := List.append_of_mem listed
      have split : retained capacity history = (before ++ [x]) ++ after := by rw [whole]; simp
      have last : rootOf (group query (after ++ (before ++ [x])) t) = (x.name, x.duration) := by
        rw [← List.append_assoc, group_append, own, rootOf_snoc, if_pos (of_decide_eq_true rooted)]
      rw [((both layout (layout_rotated some filled split)).carried limited shown).2]
      exact ⟨congrArg Prod.fst last, congrArg Prod.snd last⟩
    intro x here y there
    refine ⟨(starts x here).symm.trans (starts y there), fun rooted rooted' => ?_⟩
    obtain ⟨name, duration⟩ := roots x here rooted
    obtain ⟨name', duration'⟩ := roots y there rooted'
    exact ⟨name.symm.trans name', duration.symm.trans duration'⟩
  · intro single l layout result result' one other
    have own : Layout capacity history (slots capacity history) := ⟨history, rfl, rfl⟩
    have across : ∀ {l l'}, Layout capacity history l → Layout capacity history l' → ∀ t, Shown query l t →
        Shown query l' t ∧ summary t (group query l' t) = summary t (group query l t) := by
      intro l l' layout layout' t shown
      have perm := layout_perm some layout
      have perm' := layout_perm some layout'
      have may := shown_mayShow perm shown
      have uniform := (single t t may may).2
      have same := (uniform_summary uniform (group_perm perm' t) may.1 t).trans
        (uniform_summary uniform (group_perm perm t) may.1 t).symm
      refine ⟨⟨fun none => may.1 (List.nil_perm.mp (none ▸ group_perm perm' t)), ?_⟩, same⟩
      rw [← passes_summary query t, same, passes_summary]
      exact shown.2
    by_cases some' : ∃ t, Shown query (slots capacity history) t
    · obtain ⟨t, shown⟩ := some'
      obtain ⟨shown', same⟩ := across own layout t shown
      have only : ∀ {l}, Layout capacity history l → ∀ t', Shown query l t' → t' = t := fun layout' t' seen =>
        (single t' t (shown_mayShow (layout_perm some layout') seen) (shown_mayShow (layout_perm some own) shown)).1
      rw [outcome_one limited shown (only own) one, outcome_one limited shown' (only layout) other, same]
    · have none : ∀ t, ¬ Shown query l t := fun t shown => some' ⟨t, (across layout own t shown).1⟩
      rw [outcome_none (not_exists.mp some') one, outcome_none none other]

def InOrder (capacity : Nat) (history : List Span) (traceID : GoString) : Prop :=
  capacity ≤ history.length →
    ((lap capacity history).filter fun span => span.traceID = traceID) ++
        (older capacity history).filter (fun span => span.traceID = traceID) =
      ((older capacity history).filter fun span => span.traceID = traceID) ++
        (lap capacity history).filter fun span => span.traceID = traceID

theorem getTrace_iff {capacity : Nat} (some : 0 < capacity) (history : List Span) (traceID : GoString) :
    (slots capacity history).filter (fun span => span.traceID = traceID) =
      (retained capacity history).filter (fun span => span.traceID = traceID) ↔ InOrder capacity history traceID := by
  by_cases filled : capacity ≤ history.length
  · rw [slots, if_neg (Nat.not_lt.mpr filled), ← older_append_lap some filled, List.filter_append, List.filter_append]
    exact ⟨fun same _ => same, fun same => same filled⟩
  · rw [slots, if_pos (Nat.lt_of_not_le filled), retained_short (Nat.le_of_not_le filled)]
    exact ⟨fun _ wrong => absurd wrong filled, fun _ => rfl⟩

theorem boundedLog_iff (maxSpans : Int) (history : List Span) (traceID : GoString) (query : TraceQuery) :
    BoundedLog maxSpans history traceID query ↔
      InOrder (MemoryTraceStore.capacityOf maxSpans) history traceID ∧
        (0 < query.limit → Single (MemoryTraceStore.capacityOf maxSpans) history query) := by
  have some := capacityOf_pos maxSpans
  have listing : 0 < query.limit → ((∀ other result result', retained (MemoryTraceStore.capacityOf maxSpans) other =
      retained (MemoryTraceStore.capacityOf maxSpans) history → (recorded maxSpans history).ListTraces query result →
      (recorded maxSpans other).ListTraces query result' → result = result') ↔
        Single (MemoryTraceStore.capacityOf maxSpans) history query) := by
    intro limited
    have single : (∀ l, Layout (MemoryTraceStore.capacityOf maxSpans) history l →
        Agree query (slots (MemoryTraceStore.capacityOf maxSpans) history) l) ↔
          Single (MemoryTraceStore.capacityOf maxSpans) history query := by
      by_cases short : history.length < MemoryTraceStore.capacityOf maxSpans
      · exact single_short limited short
      · exact single_full some limited (Nat.le_of_not_lt short)
    rw [← single]
    unfold MemoryTraceStore.ListTraces
    constructor
    · rintro alike l ⟨other, same, rfl⟩ result result' one two
      apply alike other result result' same
      · rw [recorded_shown]
        exact one
      · rw [recorded_shown]
        exact two
    · intro agree other result result' same one two
      rw [recorded_shown] at one two
      exact agree _ ⟨other, same, rfl⟩ result result' one two
  constructor
  · intro log
    refine ⟨?_, fun limited => (listing limited).mp (log.lists limited)⟩
    rw [← getTrace_iff some, ← recorded_shown]
    exact log.inOrder
  · rintro ⟨ordered, single⟩
    refine ⟨?_, ?_, fun limited => (listing limited).mpr (single limited)⟩
    · rw [recorded_shown]
      exact slots_perm some history
    · rw [MemoryTraceStore.getTrace, recorded_shown]
      exact (getTrace_iff some history traceID).mpr ordered

-- Three spans of one trace in a ring of two: the slots hold the newest first, and so does what GetTrace returns.
def spanOf (spanID : GoString) : Span := ⟨[116], spanID, [], spanID, [], 1, 1, lit "ok"⟩

theorem boundedLog_overwritten :
    ¬ BoundedLog 2 [spanOf [97], spanOf [98], spanOf [99]] [116] ⟨0, 0, [], 0, [], 0⟩ := by
  intro log
  have shown := log.inOrder
  revert shown
  decide

end Brainkit.Tracing
