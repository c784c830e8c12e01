import Brainkit.Jsbridge.TextEncoder
import Brainkit.Library.Transition

set_option autoImplicit false

-- The body of a streaming response: the goroutine of fetch reads it and schedules jobs, and the jobs push what was read
-- to the ReadableStream of the response, in the order they were scheduled.
namespace Brainkit.Jsbridge.FetchStream

open Ecma GoText GoQuote Utf8 TextEncoder Transition

inductive ReadErr where
  | eof
  | failed
deriving DecidableEq

structure Read where
  bytes : GoString
  err : Option ReadErr
  closing : Bool
deriving DecidableEq

inductive Job where
  | enqueue (chunk : GoString)
  | close
deriving DecidableEq

def readLoop : List Read → List Job
  | [] => []
  | read :: rest =>
      if read.closing then []
      else (if read.bytes.length > 0 then [.enqueue read.bytes] else []) ++
        -- The error is not looked at: the end of the body and a failure are both a close.
        if read.err.isSome then [.close] else readLoop rest

-- What the transport delivered before the loop ended, and how the body ended.
def received : List Read → List GoString
  | [] => []
  | read :: rest => if read.closing then [] else read.bytes :: if read.err.isSome then [] else received rest

def ended : List Read → Option ReadErr
  | [] => none
  | read :: rest => if read.closing then none else match read.err with
      | some err => some err
      | none => ended rest

-- JavaScript source is text. Bytes that are none do not occur in what %q writes.
def sourceText (source : GoString) : Option (List Char) :=
  (runes source).mapM fun rune => match rune with
    | .char c => some c
    | .bad _ => none

-- The value of `new TextEncoder().encode(%q))`, from the literal on.
def encodeLiteral (isPrint : Nat → Bool) (chunk : GoString) : Option Bytes := do
  let text ← sourceText (quote isPrint chunk ++ lit "))")
  let (items, _) ← readString .double text
  some (encode (itemsUnits items))

-- The fields of streams.js, with what its reader has been given.
structure ReadableStream where
  queue : List Bytes
  closeRequested : Bool
  errored : Bool
  pendingRead : Bool
  values : List Bytes
  done : Bool
deriving DecidableEq

namespace ReadableStream

def enqueue (stream : ReadableStream) (chunk : Bytes) : ReadableStream :=
  if stream.pendingRead then { stream with pendingRead := false, values := stream.values ++ [chunk] }
  else { stream with queue := stream.queue ++ [chunk] }

def close (stream : ReadableStream) : ReadableStream :=
  if stream.pendingRead then { stream with closeRequested := true, pendingRead := false, done := true }
  else { stream with closeRequested := true }

def read (stream : ReadableStream) : ReadableStream :=
  match stream.queue with
  | chunk :: rest => { stream with queue := rest, values := stream.values ++ [chunk] }
  | [] =>
      if stream.closeRequested then { stream with done := true }
      -- The read throws.
      else if stream.errored then stream
      else { stream with pendingRead := true }

def enqueued (stream : ReadableStream) : List Bytes := stream.values ++ stream.queue

end ReadableStream

structure State where
  jobs : List Job
  stream : ReadableStream
deriving DecidableEq

inductive Action where
  | job
  | read
deriving DecidableEq

variable (isPrint : Nat → Bool)

def runJob (job : Job) (stream : ReadableStream) : ReadableStream :=
  match job with
  | .enqueue chunk => match encodeLiteral isPrint chunk with
      | some bytes => stream.enqueue bytes
      | none => stream
  | .close => stream.close

def step (s : State) : Action → Option State
  | .job => match s.jobs with
      | job :: rest => some { jobs := rest, stream := runJob isPrint job s.stream }
      | [] => none
  | .read => some { s with stream := s.stream.read }

def start (reads : List Read) : State := ⟨readLoop reads, ⟨[], false, false, false, [], false⟩⟩

-- Once the jobs have run, the stream has exactly the bytes that were read, is closed only at the end of the body, and has
-- failed where the body did.
def Faithful (reads : List Read) : Prop :=
  ∀ path s, run (step isPrint) (start reads) path = some s → s.jobs = [] →
    s.stream.enqueued.flatten = (received reads).flatten ∧
      (s.stream.closeRequested = true → ended reads = some .eof) ∧
        (ended reads = some .failed → s.stream.errored = true)

def chunks (jobs : List Job) : List GoString := jobs.filterMap fun job => match job with
  | .enqueue chunk => some chunk
  | .close => none

theorem sourceText_encode (text : List Char) : sourceText (Ecma.encode text) = some text := by
  rw [sourceText, runes_encode]
  induction text with
  | nil => rfl
  | cons c rest ih => rw [List.map_cons, List.mapM_cons, ih]; rfl

theorem encodeLiteral_quoted (chunk : GoString) : encodeLiteral isPrint chunk = some (quotedBytes isPrint chunk) := by
  have source : quote isPrint chunk ++ lit "))" =
      Ecma.encode ('"' :: itemsText (quoteItems isPrint chunk) ++ '"' :: "))".toList) := by
    rw [quote_items, lit_encode, ← encode_append, List.append_assoc]
    rfl
  rw [encodeLiteral, source, sourceText_encode]
  change (readString .double _).bind _ = _
  rw [quote_read]
  rfl

theorem enqueue_enqueued {stream : ReadableStream} (waiting : stream.pendingRead = true → stream.queue = []) (chunk : Bytes) :
    (stream.enqueue chunk).enqueued = stream.enqueued ++ [chunk] := by
  rw [ReadableStream.enqueue]
  split
  · next pending => simp [ReadableStream.enqueued, waiting pending]
  · simp [ReadableStream.enqueued]

theorem close_enqueued (stream : ReadableStream) : stream.close.enqueued = stream.enqueued := by
  rw [ReadableStream.close]
  split <;> rfl

theorem read_enqueued (stream : ReadableStream) : stream.read.enqueued = stream.enqueued := by
  rw [ReadableStream.read]
  split
  · next chunk rest queue => simp [ReadableStream.enqueued, queue]
  · split <;> [rfl; split <;> rfl]

structure Valid (reads : List Read) (s : State) : Prop where
  conserved : s.stream.enqueued ++ (chunks s.jobs).map (quotedBytes isPrint) = (chunks (readLoop reads)).map (quotedBytes isPrint)
  waiting : s.stream.pendingRead = true → s.stream.queue = []
  sound : s.stream.errored = false
  close_iff : s.stream.closeRequested = true ∨ .close ∈ s.jobs ↔ .close ∈ readLoop reads

variable {isPrint} {reads : List Read} {s next : State}

theorem start_valid (reads : List Read) : Valid isPrint reads (start reads) :=
  ⟨rfl, nofun, rfl, or_iff_right nofun⟩

theorem enqueue_valid {chunk : GoString} {rest : List Job} (valid : Valid isPrint reads s) (here : s.jobs = .enqueue chunk :: rest) :
    Valid isPrint reads ⟨rest, s.stream.enqueue (quotedBytes isPrint chunk)⟩ := by
  obtain ⟨conserved, waiting, sound, close_iff⟩ := valid
  refine ⟨?_, ?_, ?_, ?_⟩
  · rw [enqueue_enqueued waiting, ← conserved, here, List.append_assoc]
    rfl
  · intro pending
    unfold ReadableStream.enqueue at pending ⊢
    split at pending
    · cases pending
    · next idle => exact absurd pending idle
  · unfold ReadableStream.enqueue
    split <;> exact sound
  · rw [← close_iff, here, List.mem_cons, or_iff_right (nofun : Job.close ≠ .enqueue chunk)]
    unfold ReadableStream.enqueue
    split <;> rfl

theorem close_valid {rest : List Job} (valid : Valid isPrint reads s) (here : s.jobs = .close :: rest) :
    Valid isPrint reads ⟨rest, s.stream.close⟩ := by
  obtain ⟨conserved, waiting, sound, close_iff⟩ := valid
  have closed : s.stream.close.closeRequested = true := by
    unfold ReadableStream.close
    split <;> rfl
  refine ⟨?_, ?_, ?_, ?_⟩
  · rw [close_enqueued, ← conserved, here]
    rfl
  · intro pending
    unfold ReadableStream.close at pending ⊢
    split at pending
    · cases pending
    · next idle => exact absurd pending idle
  · unfold ReadableStream.close
    split <;> exact sound
  · rw [← close_iff, here]
    exact iff_of_true (.inl closed) (.inr List.mem_cons_self)

theorem read_valid (valid : Valid isPrint reads s) : Valid isPrint reads { s with stream := s.stream.read } := by
  obtain ⟨conserved, waiting, sound, close_iff⟩ := valid
  refine ⟨?_, ?_, ?_, ?_⟩
  · rw [read_enqueued]
    exact conserved
  · unfold ReadableStream.read
    split
    · next chunk rest queue =>
        intro pending
        cases queue.symm.trans (waiting pending)
    · next queue => split <;> [exact fun _ => queue; split <;> exact fun _ => queue]
  · unfold ReadableStream.read
    split <;> [exact sound; split <;> [exact sound; split <;> exact sound]]
  · rw [← close_iff]
    unfold ReadableStream.read
    split <;> [rfl; split <;> [rfl; split <;> rfl]]

theorem step_valid {action : Action} (valid : Valid isPrint reads s) (taken : step isPrint s action = some next) :
    Valid isPrint reads next := by
  cases action with
  | read =>
      cases taken
      exact read_valid valid
  | job =>
      dsimp only [step] at taken
      split at taken
      · next job rest here =>
          cases taken
          cases job with
          | enqueue chunk =>
              rw [runJob, encodeLiteral_quoted]
              exact enqueue_valid valid here
          | close => exact close_valid valid here
      · cases taken

theorem run_valid {path : List Action} (reached : run (step isPrint) (start reads) path = some s) : Valid isPrint reads s :=
  run_invariant (fun _ _ _ => step_valid) (start_valid reads) reached

theorem jobs_run (isPrint : Nat → Bool) (s : State) :
    ∃ path stream, run (step isPrint) s path = some ⟨[], stream⟩ := by
  obtain ⟨jobs, stream⟩ := s
  induction jobs generalizing stream with
  | nil => exact ⟨[], stream, rfl⟩
  | cons job rest ih =>
      obtain ⟨path, final, reached⟩ := ih (runJob isPrint job stream)
      exact ⟨.job :: path, final, reached⟩

theorem chunks_append (first second : List Job) : chunks (first ++ second) = chunks first ++ chunks second :=
  List.filterMap_append

theorem chunks_flatMap {f : GoString → Bytes} (empty : f [] = []) (reads : List Read) :
    (chunks (readLoop reads)).flatMap f = (received reads).flatMap f := by
  induction reads with
  | nil => rfl
  | cons read rest ih =>
      have first : (chunks (if read.bytes.length > 0 then [.enqueue read.bytes] else [])).flatMap f = f read.bytes := by
        split
        · exact List.append_nil _
        · next none =>
            rw [List.length_eq_zero_iff.mp (Nat.eq_zero_of_not_pos none), empty]
            rfl
      unfold readLoop received
      split
      · rfl
      · rw [chunks_append, List.flatMap_append, first, List.flatMap_cons]
        split
        · rfl
        · rw [ih]

theorem close_mem_iff (reads : List Read) : .close ∈ readLoop reads ↔ (ended reads).isSome := by
  induction reads with
  | nil => exact iff_of_false nofun nofun
  | cons read rest ih =>
      have other : .close ∉ (if read.bytes.length > 0 then [Job.enqueue read.bytes] else []) := by
        split <;> simp
      unfold readLoop ended
      split
      · exact iff_of_false nofun nofun
      · rw [List.mem_append, or_iff_right other]
        cases read.err with
        | some err => exact iff_of_true List.mem_cons_self rfl
        | none => exact ih

theorem final_stream {path : List Action} (reached : run (step isPrint) (start reads) path = some s) (quiet : s.jobs = []) :
    s.stream.enqueued.flatten = (received reads).flatMap (quotedBytes isPrint) ∧
      (s.stream.closeRequested = true ↔ (ended reads).isSome) ∧ s.stream.errored = false := by
  obtain ⟨conserved, -, sound, close_iff⟩ := run_valid reached
  rw [quiet] at conserved close_iff
  have all : s.stream.enqueued = (chunks (readLoop reads)).map (quotedBytes isPrint) := (List.append_nil _).symm.trans conserved
  refine ⟨?_, ?_, sound⟩
  · rw [all, ← List.flatMap_def, chunks_flatMap rfl]
  · rw [← close_mem_iff, ← close_iff]
    exact (or_iff_left List.not_mem_nil).symm

theorem faithful_bytes_iff (isPrint : Nat → Bool) (reads : List Read) :
    Faithful isPrint reads ↔
      (received reads).flatMap (quotedBytes isPrint) = (received reads).flatten ∧ ended reads ≠ some .failed := by
  constructor
  · intro faithful
    obtain ⟨path, stream, reached⟩ := jobs_run isPrint (start reads)
    obtain ⟨bytes, -, sound⟩ := final_stream reached rfl
    obtain ⟨same, -, failed⟩ := faithful path ⟨[], stream⟩ reached rfl
    refine ⟨bytes.symm.trans same, fun cut => ?_⟩
    cases sound.symm.trans (failed cut)
  · rintro ⟨same, uncut⟩ path s reached quiet
    obtain ⟨bytes, close_iff, -⟩ := final_stream reached quiet
    refine ⟨bytes.trans same, fun closed => ?_, fun cut => absurd cut uncut⟩
    obtain ⟨err, found⟩ := Option.isSome_iff_exists.mp (close_iff.mp closed)
    cases err with
    | eof => exact found
    | failed => exact absurd found uncut

theorem faithful_iff (isPrint : Nat → Bool) (reads : List Read) :
    Faithful isPrint reads ↔
      (∀ text ∈ received reads, ∀ rune ∈ runes text, PlainRune isPrint rune) ∧ ended reads ≠ some .failed := by
  rw [← quotedBytes_same_iff]
  exact faithful_bytes_iff isPrint reads

def splitReads : List Read := [⟨[0xC3], none, false⟩, ⟨[0xA9], none, false⟩, ⟨[], some .eof, false⟩]

def cutReads : List Read := [⟨lit "data", none, false⟩, ⟨[], some .failed, false⟩]

theorem reads_unfaithful : ¬ Faithful asciiPrint splitReads ∧ ¬ Faithful asciiPrint cutReads := by
  refine ⟨fun faithful => ?_, fun faithful => ?_⟩
  · exact absurd ((faithful_bytes_iff asciiPrint splitReads).mp faithful).1 (by decide)
  · exact ((faithful_bytes_iff asciiPrint cutReads).mp faithful).2 rfl

end Brainkit.Jsbridge.FetchStream
