import Brainkit.Library.GoText
import Brainkit.Library.Ring

set_option autoImplicit false

-- MemoryTraceStore: the ring of spans and what GetTrace and ListTraces read of it.
namespace Brainkit.Tracing

open GoText Ring

-- Times are nanoseconds since the zero time, which IsZero asks for.
structure Span where
  traceID : GoString
  spanID : GoString
  parentID : GoString
  name : GoString
  source : GoString
  startTime : Int
  duration : Int
  status : GoString
deriving DecidableEq

def Span.zero : Span := ⟨[], [], [], [], [], 0, 0, []⟩

structure TraceQuery where
  since : Int
  upto : Int
  source : GoString
  minDuration : Int
  status : GoString
  limit : Int

structure TraceSummary where
  traceID : GoString
  rootSpan : GoString
  spanCount : Nat
  duration : Int
  status : GoString
  startTime : Int
deriving DecidableEq

structure MemoryTraceStore where
  spans : List Span
  maxLen : Nat
  pos : Nat
  full : Bool

namespace MemoryTraceStore

def capacityOf (maxSpans : Int) : Nat := if maxSpans ≤ 0 then 10000 else maxSpans.toNat

def newMemoryTraceStore (maxSpans : Int) : MemoryTraceStore where
  spans := List.replicate (capacityOf maxSpans) Span.zero
  maxLen := capacityOf maxSpans
  pos := 0
  full := false

def recordSpan (s : MemoryTraceStore) (span : Span) : MemoryTraceStore :=
  let written := { s with spans := s.spans.set s.pos span, pos := s.pos + 1 }
  if written.maxLen ≤ written.pos then { written with pos := 0, full := true } else written

def allSpans (s : MemoryTraceStore) : List Span := if s.full then s.spans else s.spans.take s.pos

def getTrace (s : MemoryTraceStore) (traceID : GoString) : List Span := s.allSpans.filter fun span => span.traceID = traceID

end MemoryTraceStore

def TraceQuery.skips (query : TraceQuery) (span : Span) : Bool :=
  (query.since ≠ 0 && span.startTime < query.since) || (query.upto ≠ 0 && query.upto < span.startTime) ||
    (query.source ≠ [] && span.source ≠ query.source) || (query.status ≠ [] && span.status ≠ query.status)

def TraceSummary.first (span : Span) : TraceSummary := ⟨span.traceID, [], 0, 0, lit "ok", span.startTime⟩

def TraceSummary.add (ts : TraceSummary) (span : Span) : TraceSummary :=
  let counted := { ts with spanCount := ts.spanCount + 1 }
  let rooted := if span.parentID = [] then { counted with rootSpan := span.name, duration := span.duration } else counted
  if span.status = lit "error" then { rooted with status := lit "error" } else rooted

-- The map from trace ids to summaries, in one of its orders.
def TraceQuery.note (query : TraceQuery) (traces : List TraceSummary) (span : Span) : List TraceSummary :=
  if query.skips span then traces
  else if traces.any fun ts => ts.traceID = span.traceID then
    traces.map fun ts => if ts.traceID = span.traceID then ts.add span else ts
  else traces ++ [(TraceSummary.first span).add span]

def TraceQuery.traces (query : TraceQuery) (spans : List Span) : List TraceSummary := spans.foldl query.note []

def TraceQuery.passes (query : TraceQuery) (ts : TraceSummary) : Bool :=
  !(0 < query.minDuration && ts.duration < query.minDuration)

def TraceQuery.limited (query : TraceQuery) (result : List TraceSummary) : List TraceSummary :=
  if 0 < query.limit ∧ query.limit < result.length then result.take query.limit.toNat else result

def MemoryTraceStore.ListTraces (s : MemoryTraceStore) (query : TraceQuery) (result : List TraceSummary) : Prop :=
  ∃ order : List TraceSummary, order.Perm (query.traces s.allSpans) ∧ result = query.limited (order.filter query.passes)

def recorded (maxSpans : Int) (history : List Span) : MemoryTraceStore :=
  history.foldl MemoryTraceStore.recordSpan (MemoryTraceStore.newMemoryTraceStore maxSpans)

structure BoundedLog (maxSpans : Int) (history : List Span) (traceID : GoString) (query : TraceQuery) : Prop where
  retains : (recorded maxSpans history).allSpans.Perm (retained (MemoryTraceStore.capacityOf maxSpans) history)
  inOrder : (recorded maxSpans history).getTrace traceID =
    (retained (MemoryTraceStore.capacityOf maxSpans) history).filter fun span => span.traceID = traceID
  lists : 0 < query.limit → ∀ other result result', retained (MemoryTraceStore.capacityOf maxSpans) other =
    retained (MemoryTraceStore.capacityOf maxSpans) history → (recorded maxSpans history).ListTraces query result →
    (recorded maxSpans other).ListTraces query result' → result = result'

theorem capacityOf_pos (maxSpans : Int) : 0 < MemoryTraceStore.capacityOf maxSpans := by
  unfold MemoryTraceStore.capacityOf
  split <;> omega

-- The state of the ring after a history: the slots written so far hold it, the rest are blank.
structure Holds (capacity : Nat) (history : List Span) (s : MemoryTraceStore) : Prop where
  size : s.maxLen = capacity
  width : s.spans.length = capacity
  place : s.pos = history.length % capacity
  wrapped : s.full = true ↔ capacity ≤ history.length
  shown : s.allSpans = slots capacity history

theorem Holds.record {capacity : Nat} (some : 0 < capacity) {history : List Span} {s : MemoryTraceStore}
    (holds : Holds capacity history s) (span : Span) : Holds capacity (history ++ [span]) (s.recordSpan span) := by
  obtain ⟨size, width, place, wrapped, shown⟩ := holds
  have below := Nat.mod_lt history.length some
  have next : (history ++ [span]).length % capacity =
      if history.length % capacity + 1 = capacity then 0 else history.length % capacity + 1 := by
    rw [List.length_append, List.length_singleton, ← Nat.mod_add_mod]
    split
    case isTrue last => rw [last, Nat.mod_self]
    case isFalse inside => exact Nat.mod_eq_of_lt (by omega)
  by_cases filled : capacity ≤ history.length
  · have full : s.full = true := wrapped.mpr filled
    have written : (s.spans.set s.pos span) = slots capacity (history ++ [span]) := by
      rw [slots_snoc_filled some span filled, ← shown, MemoryTraceStore.allSpans, if_pos full, place]
    unfold MemoryTraceStore.recordSpan
    dsimp only
    by_cases last : history.length % capacity + 1 = capacity
    · rw [if_pos (by omega)]
      refine ⟨size, by simpa using width, by rw [next, if_pos last], ?_, ?_⟩
      · simp only [List.length_append, List.length_singleton, true_iff]
        omega
      · rw [← written]
        rfl
    · rw [if_neg (by omega)]
      refine ⟨size, by simpa using width, by rw [next, if_neg last, place], ?_, ?_⟩
      · simp only [full, List.length_append, List.length_singleton, true_iff]
        omega
      · rw [← written, MemoryTraceStore.allSpans]
        exact if_pos full
  · have lacking : s.full = false := by simpa using fun full => filled (wrapped.mp full)
    have here : history.length % capacity = history.length := Nat.mod_eq_of_lt (by omega)
    have plain : s.spans.take s.pos = history := by
      rw [MemoryTraceStore.allSpans, lacking] at shown
      rw [slots, if_pos (Nat.lt_of_not_le filled)] at shown
      exact shown
    have grown : (s.spans.set s.pos span).take (s.pos + 1) = history ++ [span] := by
      rw [List.take_add_one, List.take_set_of_le (le_refl _), plain, List.getElem?_set_self (by omega)]
      rfl
    unfold MemoryTraceStore.recordSpan
    dsimp only
    by_cases last : history.length % capacity + 1 = capacity
    · rw [if_pos (by omega)]
      have exact : (history ++ [span]).length = capacity := by
        rw [List.length_append, List.length_singleton]
        omega
      refine ⟨size, by simpa using width, by rw [next, if_pos last], by simp [exact], ?_⟩
      rw [slots_filled exact, ← grown, List.take_of_length_le]
      · rfl
      · rw [List.length_set]
        omega
    · rw [if_neg (by omega)]
      refine ⟨size, by simpa using width, by rw [next, if_neg last, place], ?_, ?_⟩
      · simp only [lacking, List.length_append, List.length_singleton]
        constructor
        · intro wrong
          cases wrong
        · omega
      · rw [slots_snoc_short span (by omega), ← grown, MemoryTraceStore.allSpans, lacking]
        rfl

theorem recorded_holds (maxSpans : Int) (history : List Span) :
    Holds (MemoryTraceStore.capacityOf maxSpans) history (recorded maxSpans history) := by
  have some := capacityOf_pos maxSpans
  induction history using List.reverseRecOn with
  | nil =>
      refine ⟨rfl, List.length_replicate, (Nat.zero_mod _).symm, ?_, ?_⟩
      · constructor
        · intro wrong
          cases wrong
        · intro none
          simp only [List.length_nil] at none
          omega
      · rw [slots, List.length_nil, if_pos some]
        rfl
  | append_singleton history span ih =>
      rw [recorded, List.foldl_append]
      exact ih.record some span

theorem recorded_shown (maxSpans : Int) (history : List Span) :
    (recorded maxSpans history).allSpans = slots (MemoryTraceStore.capacityOf maxSpans) history :=
  (recorded_holds maxSpans history).shown

end Brainkit.Tracing
