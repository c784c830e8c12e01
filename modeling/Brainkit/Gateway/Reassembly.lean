import Brainkit.Gateway.StreamSession

set_option autoImplicit false

namespace Brainkit.Gateway

open GoText

def formatStreamID (token : GoString) (seq : Nat) : GoString := token ++ lit ":" ++ decimal seq

def sseEvent (id eventName data : GoString) : GoString :=
  lit "id: " ++ id ++ lit "\nevent: " ++ eventName ++ lit "\ndata: " ++ data ++ lit "\n\n"

namespace StreamEvent

def eventName (evt : StreamEvent) : GoString := if evt.type = lit "event" ∧ evt.event ≠ [] then evt.event else evt.type

-- The data of the main loop, which falls back to the raw payload.
def liveData (evt : StreamEvent) : GoString := if evt.data = [] ∧ evt.payload ≠ [] then evt.payload else evt.data

def isData (evt : StreamEvent) : Bool := !evt.isHeartbeat && !evt.closes

end StreamEvent

-- The record of a data event behind the stream token. What ends a stream is written by other blocks.
def Line.record (token : GoString) (line : Line) : Option GoString :=
  match line.source with
  | .data evt => some (sseEvent (formatStreamID token line.id) evt.eventName evt.liveData)
  | .reassembled evt => some (sseEvent (formatStreamID token line.id) evt.eventName evt.data)
  | .terminal _ | .synthetic _ => none

namespace Session

def records (token : GoString) (s : Session) : List (Option GoString) :=
  s.buffer.map fun buffered => buffered.line.record token

end Session

theorem data_of_sse_event {id eventName data data' : GoString}
    (same : sseEvent id eventName data = sseEvent id eventName data') : data = data' := by
  unfold sseEvent at same
  exact List.append_cancel_left (List.append_cancel_right same)

theorem live_data_iff (evt : StreamEvent) : evt.data = evt.liveData ↔ evt.data ≠ [] ∨ evt.payload = [] := by
  by_cases absent : evt.data = []
  · by_cases noPayload : evt.payload = []
    · simp [StreamEvent.liveData, noPayload]
    · simp [StreamEvent.liveData, absent, noPayload, Ne.symm noPayload]
  · simp [StreamEvent.liveData, absent]

theorem record_iff (token : GoString) (id : Nat) (evt : StreamEvent) :
    Line.record token ⟨id, .reassembled evt⟩ = Line.record token ⟨id, .data evt⟩ ↔
      evt.data ≠ [] ∨ evt.payload = [] := by
  rw [← live_data_iff]
  constructor
  · intro same
    exact data_of_sse_event (Option.some.inj same)
  · intro same
    exact congrArg (fun text => some (sseEvent (formatStreamID token id) evt.eventName text)) same

namespace Session

theorem records_written (token : GoString) (r : Nat) (source : Source) (s : Session) :
    (s.writeDataEvent r source).records token = s.records token ++ [Line.record token ⟨s.nextID, source⟩] := by
  simp [records, writeDataEvent, writeSSEEvent]

theorem records_goto (token : GoString) (r : Nat) (pc : RequestPc) (s : Session) :
    (s.goto r pc).records token = s.records token := rfl

theorem process_received (token : GoString) (maxEvents r : Nat) {evt : StreamEvent} {s : Session}
    (arrived : s.request r = .received evt) (data : evt.isData = true) :
    ∃ live, s.process maxEvents r = some live ∧
      live.records token = s.records token ++ [Line.record token ⟨s.nextID, .data evt⟩] := by
  obtain ⟨beat, more⟩ : evt.isHeartbeat = false ∧ evt.closes = false := by simpa [StreamEvent.isData] using data
  simp only [process, arrived, beat, more, Bool.false_eq_true, if_false]
  exact ⟨_, rfl, records_written token r (.data evt) s⟩

theorem process_gathered (token : GoString) (maxEvents r : Nat) {final evt : StreamEvent} {s : Session}
    (arrived : s.request r = .gathered final evt) (data : evt.isData = true) :
    ∃ gathered, s.process maxEvents r = some gathered ∧
      gathered.records token = s.records token ++ [Line.record token ⟨s.nextID, .reassembled evt⟩] := by
  obtain ⟨beat, more⟩ : evt.isHeartbeat = false ∧ evt.closes = false := by simpa [StreamEvent.isData] using data
  simp only [process, arrived, beat, more, Bool.or_self, Bool.false_eq_true, if_false]
  exact ⟨_, rfl, records_written token r (.reassembled evt) s⟩

-- The loop that waits for the events of a terminal has no fallback to the payload.
theorem reassembled_record_same_iff (token : GoString) (maxEvents r : Nat) (final evt : StreamEvent) (s : Session)
    (data : evt.isData = true) :
    ∃ live gathered, (s.goto r (.received evt)).process maxEvents r = some live ∧
      (s.goto r (.gathered final evt)).process maxEvents r = some gathered ∧
      (gathered.records token = live.records token ↔ evt.data ≠ [] ∨ evt.payload = []) := by
  obtain ⟨live, liveStep, liveRecords⟩ := process_received token maxEvents r (s := s.goto r (.received evt))
    (Function.update_self r _ s.request) data
  obtain ⟨gathered, gatheredStep, gatheredRecords⟩ := process_gathered token maxEvents r
    (s := s.goto r (.gathered final evt)) (Function.update_self r _ s.request) data
  refine ⟨live, gathered, liveStep, gatheredStep, ?_⟩
  rw [liveRecords, gatheredRecords, records_goto, records_goto, ← record_iff token s.nextID evt]
  constructor
  · intro same
    exact List.singleton_inj.mp (List.append_cancel_left same)
  · intro same
    exact congrArg (fun record => s.records token ++ [record]) same

def rawChunk : StreamEvent := ⟨[], 0, [], [], lit "\x7b\"delta\":\"x\"\x7d", false, false⟩

def endOfTwo : StreamEvent := ⟨lit "end", 2, [], [], [], true, false⟩

theorem raw_chunk_record : ∃ live gathered, (newStreamSession.goto 0 (.received rawChunk)).process 8 0 = some live ∧
    (newStreamSession.goto 0 (.gathered endOfTwo rawChunk)).process 8 0 = some gathered ∧
    (gathered.records (lit "t") = live.records (lit "t") ↔ rawChunk.data ≠ [] ∨ rawChunk.payload = []) :=
  reassembled_record_same_iff (lit "t") 8 0 endOfTwo rawChunk newStreamSession (by decide +kernel)

theorem reassembled_raw_chunk_is_empty :
    ¬ ∀ (token : GoString) (maxEvents r : Nat) (final evt : StreamEvent) (s live gathered : Session), evt.isData = true →
      (s.goto r (.received evt)).process maxEvents r = some live →
      (s.goto r (.gathered final evt)).process maxEvents r = some gathered →
      gathered.records token = live.records token := by
  intro same
  have raw := same (lit "t") 8 0 endOfTwo rawChunk newStreamSession _ _ (by decide +kernel) rfl rfl
  exact absurd (congrArg List.length (data_of_sse_event (Option.some.inj (List.singleton_inj.mp raw)))) (by decide +kernel)

end Session

end Brainkit.Gateway
