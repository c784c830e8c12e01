import Brainkit.Jsbridge.NewString
import Brainkit.Library.GoText
import Brainkit.Library.Transition

set_option autoImplicit false

-- One process of __go_spawn: its pipe, the goroutine that reads it into two channels, the one that waits for it, and the
-- calls of the script, with the strings that they resolve to.
namespace Brainkit.Jsbridge.Spawned

open Ecma GoText Transition

def capacity : Nat := 256

inductive Answer where
  | text (value : List Nat)
  | null
  -- There is no process with the id any more.
  | threw
deriving DecidableEq

-- A channel with the calls that read from it, one after the other: asked when the last of them has not been answered.
structure Channel where
  queue : List GoString
  asked : Bool
  given : List Answer
deriving DecidableEq

def Channel.new : Channel := ⟨[], false, []⟩

-- A send that does not wait: what does not fit is dropped.
def Channel.send (item : GoString) (c : Channel) : Channel :=
  if c.queue.length < capacity then { c with queue := c.queue ++ [item] } else c

def Channel.ask (present : Bool) (c : Channel) : Option Channel :=
  if c.asked then none
  else some (if present then { c with asked := true } else { c with given := c.given ++ [.threw] })

def Channel.take (closed : Bool) (c : Channel) : Option Channel :=
  if c.asked then
    match c.queue with
    | item :: rest => some ⟨rest, false, c.given ++ [.text (newString item)]⟩
    | [] => if closed then some ⟨[], false, c.given ++ [.null]⟩ else none
  else none

inductive Reader where
  | reading
  | sending (chunk : GoString)
  | splitting (lines : List GoString)
  | ended
deriving DecidableEq

abbrev WaitErr := Option Int

inductive Wait where
  | pending
  | settled (exitCode : Int)
  | threw
deriving DecidableEq

structure Process where
  -- What has been read of the output, and what is in the pipe, which is open for as long as some process may write to it.
  consumed : GoString
  pipe : GoString
  stdoutOpen : Bool
  exited : Option Int
  reader : Reader
  lines : Channel
  chunks : Channel
  -- The one-slot channel, and whether the waiting goroutine has filled it.
  waitErr : Option WaitErr
  posted : Bool
  -- procs has the process.
  entry : Bool
  waits : List Wait
deriving DecidableEq

def Process.new : Process :=
  { consumed := [], pipe := [], stdoutOpen := true, exited := none, reader := .reading, lines := .new, chunks := .new,
    waitErr := none, posted := false, entry := true, waits := [] }

-- strings.Split at the newlines, without the empty piece at the end.
def linesOf (text : GoString) : List GoString :=
  let lines := text.splitOn 10
  if lines.getLast? = some [] then lines.dropLast else lines

def waitError (code : Int) : WaitErr := if code = 0 then none else some code

def exitCode (err : WaitErr) : Int := err.getD 0

inductive Action where
  | write (data : GoString)
  | closeStdout
  | exit (code : Int)
  | read (n : Nat)
  | endOfFile
  | sendChunk
  | sendLine
  | post
  | spawnRead
  | spawnReadChunk
  | takeLine
  | takeChunk
  | spawnWait
  | awake (wait : Nat)
  | spawnKill
deriving DecidableEq

def step (p : Process) : Action → Option Process
  | .write data => if p.stdoutOpen then some { p with pipe := p.pipe ++ data } else none
  | .closeStdout => some { p with stdoutOpen := false }
  | .exit code => if p.exited = none then some { p with exited := some code } else none
  | .read n =>
      if p.reader = .reading ∧ 0 < n ∧ n ≤ 65536 ∧ n ≤ p.pipe.length then
        some { p with consumed := p.consumed ++ p.pipe.take n, pipe := p.pipe.drop n, reader := .sending (p.pipe.take n) }
      else none
  | .endOfFile => if p.reader = .reading ∧ p.pipe = [] ∧ p.stdoutOpen = false then some { p with reader := .ended } else none
  | .sendChunk =>
      match p.reader with
      | .sending chunk => some { p with chunks := p.chunks.send chunk, reader := .splitting (linesOf chunk) }
      | _ => none
  | .sendLine =>
      match p.reader with
      | .splitting (line :: rest) => some { p with lines := p.lines.send line, reader := .splitting rest }
      | .splitting [] => some { p with reader := .reading }
      | _ => none
  | .post => do
      let code ← p.exited
      if p.reader = .ended ∧ p.posted = false then some { p with waitErr := some (waitError code), posted := true } else none
  | .spawnRead => (p.lines.ask p.entry).map fun lines => { p with lines := lines }
  | .spawnReadChunk => (p.chunks.ask p.entry).map fun chunks => { p with chunks := chunks }
  | .takeLine => (p.lines.take (p.reader = .ended)).map fun lines => { p with lines := lines }
  | .takeChunk => (p.chunks.take (p.reader = .ended)).map fun chunks => { p with chunks := chunks }
  | .spawnWait => some { p with waits := p.waits ++ [if p.entry then .pending else .threw] }
  | .awake wait => do
      let err ← p.waitErr
      if p.waits[wait]? = some .pending then
        some { p with waitErr := none, waits := p.waits.set wait (.settled (exitCode err)), entry := false }
      else none
  -- The read end is closed too, and what is in the pipe is lost.
  | .spawnKill => some (if p.entry then { p with pipe := [], stdoutOpen := false, entry := false } else p)

-- The steps of the two goroutines and of the waiting calls.
def Own : Action → Prop
  | .read _ | .endOfFile | .sendChunk | .sendLine | .post | .awake _ => True
  | _ => False

def Given (c : Channel) (texts : List (List Char)) (null : Nat) : Prop :=
  c.given = texts.map (fun text => .text (units text)) ++ List.replicate null .null

def Over (p : Process) : Prop := p.pipe = [] ∧ p.stdoutOpen = false

def LinesGiven (p : Process) : Prop :=
  ∃ texts null, Given p.lines texts null ∧ texts.map encode <+: linesOf p.consumed ∧
    (0 < null → Over p ∧ texts.map encode = linesOf p.consumed)

def ChunksGiven (p : Process) : Prop :=
  ∃ texts null, Given p.chunks texts null ∧ encode texts.flatten <+: p.consumed ∧
    (0 < null → Over p ∧ encode texts.flatten = p.consumed)

structure WaitsSettled (p : Process) : Prop where
  settled : ∀ (wait : Nat) code, p.waits[wait]? = some (.settled code) → p.exited = some code
  present : ∀ wait ∈ p.waits, wait ≠ .threw
  pending : ∀ (wait : Nat) code, p.waits[wait]? = some .pending → p.exited = some code →
    Inevitable step Own (fun later => later.waits[wait]? = some (.settled code)) p

def left : Reader → List GoString
  | .sending chunk => linesOf chunk
  | .splitting lines => lines
  | .reading | .ended => []

def unsent : Reader → GoString
  | .sending chunk => chunk
  | .splitting _ | .reading | .ended => []

-- A read starts at the beginning of a line, and every line of it is text and finds room; the calls come while the process
-- is known, and it is not killed before its output has ended.
def LinesKept (p : Process) : Action → Prop
  | .read _ => p.consumed = [] ∨ p.consumed.getLast? = some 10
  | .sendLine => p.lines.queue.length < capacity ∧ ∀ line ∈ (left p.reader).head?, textOf line ≠ none
  | .spawnRead => p.entry = true
  | .spawnKill => p.reader = .ended
  | _ => True

def ChunksKept (p : Process) : Action → Prop
  | .sendChunk => p.chunks.queue.length < capacity ∧ textOf (unsent p.reader) ≠ none
  | .spawnReadChunk => p.entry = true
  | .spawnKill => p.reader = .ended
  | _ => True

-- The output is closed when the process exits, so that no other process has it.
def WaitedOnce (p : Process) : Action → Prop
  | .spawnWait => p.waits = [] ∧ p.entry = true
  | .exit _ => p.stdoutOpen = false
  | _ => True

theorem linesOf_append {before : GoString} (whole : before = [] ∨ before.getLast? = some 10) (after : GoString) :
    linesOf (before ++ after) = linesOf before ++ linesOf after := by
  obtain rfl | ended := whole
  · rfl
  · obtain ⟨front, rfl⟩ := List.getLast?_eq_some_iff.mp ended
    have first : linesOf (front ++ [10]) = front.splitOn 10 := by
      have split : (front ++ [10]).splitOn 10 = front.splitOn 10 ++ [[]] := List.splitOn_append_cons_self front []
      rw [linesOf, split, List.getLast?_append, List.getLast?_singleton, Option.some_or, if_pos rfl, List.dropLast_concat]
    have some : after.splitOn 10 ≠ [] := List.splitOn_ne_nil 10 after
    rw [first, List.append_assoc, List.singleton_append, linesOf, linesOf, List.splitOn_append_cons_self,
      List.getLast?_append_of_ne_nil _ some]
    split
    · exact List.dropLast_append_of_ne_nil some
    · rfl

theorem length_linesOf_le (text : GoString) : (linesOf text).length ≤ text.length + 1 := by
  have pieces : (text.splitOn 10).length ≤ text.length + 1 := by
    induction text with
    | nil => exact Nat.le_refl 1
    | cons byte rest ih =>
        rw [List.splitOn_cons_eq_if_modifyHead]
        split
        · exact Nat.succ_le_succ ih
        · rw [List.length_modifyHead]
          exact Nat.le_succ_of_le ih
  unfold linesOf
  dsimp only
  split
  · exact Nat.le_trans (by rw [List.length_dropLast]; exact Nat.sub_le _ _) pieces
  · exact pieces

section Channels

variable {c next : Channel} {sent : List GoString} {closed : Prop}

def Holds (c : Channel) (sent : List GoString) (closed : Prop) : Prop :=
  ∃ texts null, Given c texts null ∧ texts.map encode ++ c.queue = sent ∧ (∀ item ∈ c.queue, textOf item ≠ none) ∧
    (0 < null → closed ∧ c.queue = [])

theorem new_holds : Holds .new [] closed := ⟨[], 0, rfl, rfl, nofun, fun none => absurd none (Nat.lt_irrefl 0)⟩

theorem holds_open {other : Prop} (opened : ¬ closed) (holds : Holds c sent closed) : Holds c sent other := by
  obtain ⟨texts, null, given, same, plain, past⟩ := holds
  exact ⟨texts, null, given, same, plain, fun some => absurd (past some).1 opened⟩

theorem send_holds {item : GoString} (holds : Holds c sent False) (room : c.queue.length < capacity)
    (text : textOf item ≠ none) : Holds (c.send item) (sent ++ [item]) closed := by
  obtain ⟨texts, null, given, rfl, plain, past⟩ := holds
  rw [Channel.send, if_pos room]
  refine ⟨texts, null, given, (List.append_assoc _ _ _).symm, fun other member => ?_, fun some => (past some).1.elim⟩
  obtain queued | last := List.mem_append.mp member
  · exact plain other queued
  · exact List.mem_singleton.mp last ▸ text

theorem ask_holds (holds : Holds c sent closed) (asked : c.ask true = some next) : Holds next sent closed := by
  unfold Channel.ask at asked
  split at asked
  · exact nomatch asked
  · cases asked
    exact holds

theorem take_holds {past : Bool} (holds : Holds c sent (past = true)) (taken : c.take past = some next) :
    Holds next sent (past = true) := by
  obtain ⟨texts, null, given, rfl, plain, ended⟩ := holds
  unfold Channel.take at taken
  split at taken
  · split at taken
    · next item rest queued =>
        cases taken
        rw [queued] at ended plain ⊢
        have none : null = 0 := Nat.eq_zero_of_not_pos fun some => nomatch (ended some).2
        subst none
        obtain ⟨text, read⟩ := Option.ne_none_iff_exists'.mp (plain item (.head _))
        obtain ⟨rfl, noNul⟩ := textOf_encode read
        refine ⟨texts ++ [text], 0, ?_, ?_, fun other member => plain other (.tail _ member),
          fun some => absurd some (Nat.lt_irrefl 0)⟩
        · rw [Given, given, newString_encode noNul]
          simp
        · rw [List.map_append, List.append_assoc]
          rfl
    · next queued =>
        split at taken
        · next closed =>
            cases taken
            refine ⟨texts, null + 1, ?_, by rw [queued], nofun, fun _ => ⟨closed, rfl⟩⟩
            rw [Given, given, List.replicate_succ', List.append_assoc]
        · exact nomatch taken
  · exact nomatch taken

theorem taken_holds [Decidable closed] (holds : Holds c sent closed) (taken : c.take closed = some next) :
    Holds next sent closed := by
  have before : Holds c sent (decide closed = true) := by simpa only [decide_eq_true_eq] using holds
  simpa only [decide_eq_true_eq] using take_holds before taken

end Channels

inductive Moves (p : Process) : Action → Process → Prop where
  | write (data : GoString) (opened : p.stdoutOpen = true) : Moves p (.write data) { p with pipe := p.pipe ++ data }
  | closeStdout : Moves p .closeStdout { p with stdoutOpen := false }
  | exit (code : Int) (running : p.exited = none) : Moves p (.exit code) { p with exited := some code }
  | read (n : Nat) (start : p.reader = .reading) (positive : 0 < n) (there : n ≤ p.pipe.length) :
      Moves p (.read n)
        { p with consumed := p.consumed ++ p.pipe.take n, pipe := p.pipe.drop n, reader := .sending (p.pipe.take n) }
  | endOfFile (start : p.reader = .reading) (closed : Over p) : Moves p .endOfFile { p with reader := .ended }
  | sendChunk (chunk : GoString) (start : p.reader = .sending chunk) :
      Moves p .sendChunk { p with chunks := p.chunks.send chunk, reader := .splitting (linesOf chunk) }
  | sendLine (line : GoString) (rest : List GoString) (start : p.reader = .splitting (line :: rest)) :
      Moves p .sendLine { p with lines := p.lines.send line, reader := .splitting rest }
  | lastLine (start : p.reader = .splitting []) : Moves p .sendLine { p with reader := .reading }
  | post (code : Int) (exited : p.exited = some code) (ended : p.reader = .ended) (first : p.posted = false) :
      Moves p .post { p with waitErr := some (waitError code), posted := true }
  | spawnRead (lines : Channel) (asked : p.lines.ask p.entry = some lines) : Moves p .spawnRead { p with lines := lines }
  | spawnReadChunk (chunks : Channel) (asked : p.chunks.ask p.entry = some chunks) :
      Moves p .spawnReadChunk { p with chunks := chunks }
  | takeLine (lines : Channel) (taken : p.lines.take (p.reader = .ended) = some lines) :
      Moves p .takeLine { p with lines := lines }
  | takeChunk (chunks : Channel) (taken : p.chunks.take (p.reader = .ended) = some chunks) :
      Moves p .takeChunk { p with chunks := chunks }
  | spawnWait : Moves p .spawnWait { p with waits := p.waits ++ [if p.entry then .pending else .threw] }
  | awake (wait : Nat) (err : WaitErr) (full : p.waitErr = some err) (pending : p.waits[wait]? = some .pending) :
      Moves p (.awake wait) { p with waitErr := none, waits := p.waits.set wait (.settled (exitCode err)), entry := false }
  | spawnKill (present : p.entry = true) : Moves p .spawnKill { p with pipe := [], stdoutOpen := false, entry := false }
  | killed (gone : p.entry = false) : Moves p .spawnKill p

structure LinesValid (p : Process) : Prop where
  drained : p.reader = .ended → Over p
  sent : ∃ sent, Holds p.lines sent (p.reader = .ended) ∧ sent ++ left p.reader = linesOf p.consumed

structure ChunksValid (p : Process) : Prop where
  drained : p.reader = .ended → Over p
  sent : ∃ sent, Holds p.chunks sent (p.reader = .ended) ∧ sent.flatten ++ unsent p.reader = p.consumed

section Steps

variable {p next : Process} {action : Action}

theorem step_moves (taken : step p action = some next) : Moves p action next := by
  cases action <;> simp only [step] at taken
  case write data =>
    obtain ⟨opened, same⟩ := Option.ite_none_right_eq_some.mp taken
    cases same
    exact .write data opened
  case closeStdout =>
    cases taken
    exact .closeStdout
  case exit code =>
    obtain ⟨running, same⟩ := Option.ite_none_right_eq_some.mp taken
    cases same
    exact .exit code running
  case read n =>
    obtain ⟨⟨start, positive, -, there⟩, same⟩ := Option.ite_none_right_eq_some.mp taken
    cases same
    exact .read n start positive there
  case endOfFile =>
    obtain ⟨⟨start, closed⟩, same⟩ := Option.ite_none_right_eq_some.mp taken
    cases same
    exact .endOfFile start closed
  case sendChunk =>
    split at taken
    · next chunk start =>
        cases taken
        exact .sendChunk chunk start
    · exact nomatch taken
  case sendLine =>
    split at taken
    · next line rest start =>
        cases taken
        exact .sendLine line rest start
    · next start =>
        cases taken
        exact .lastLine start
    · exact nomatch taken
  case post =>
    obtain ⟨code, exited, later⟩ := Option.bind_eq_some_iff.mp taken
    obtain ⟨⟨ended, first⟩, same⟩ := Option.ite_none_right_eq_some.mp later
    cases same
    exact .post code exited ended first
  case spawnRead =>
    obtain ⟨channel, asked, rfl⟩ := Option.map_eq_some_iff.mp taken
    exact .spawnRead channel asked
  case spawnReadChunk =>
    obtain ⟨channel, asked, rfl⟩ := Option.map_eq_some_iff.mp taken
    exact .spawnReadChunk channel asked
  case takeLine =>
    obtain ⟨channel, received, rfl⟩ := Option.map_eq_some_iff.mp taken
    exact .takeLine channel received
  case takeChunk =>
    obtain ⟨channel, received, rfl⟩ := Option.map_eq_some_iff.mp taken
    exact .takeChunk channel received
  case spawnWait =>
    cases taken
    exact .spawnWait
  case awake wait =>
    obtain ⟨err, full, later⟩ := Option.bind_eq_some_iff.mp taken
    obtain ⟨pending, same⟩ := Option.ite_none_right_eq_some.mp later
    cases same
    exact .awake wait err full pending
  case spawnKill =>
    cases taken
    cases known : p.entry with
    | true => exact .spawnKill known
    | false => exact .killed known

theorem drained_step (drained : p.reader = .ended → Over p) (taken : step p action = some next) :
    next.reader = .ended → Over next := by
  intro ended
  cases step_moves taken with
  | write data opened =>
      have past := (drained ended).2
      rw [opened] at past
      exact nomatch past
  | closeStdout => exact ⟨(drained ended).1, rfl⟩
  | spawnKill present => exact ⟨rfl, rfl⟩
  | endOfFile start closed => exact closed
  | read n | sendChunk chunk | sendLine line rest | lastLine => exact nomatch ended
  | exit | post | spawnRead | spawnReadChunk | takeLine | takeChunk | spawnWait | awake | killed => exact drained ended

theorem lines_step (valid : LinesValid p) (kept : LinesKept p action) (taken : step p action = some next) : LinesValid next := by
  refine ⟨drained_step valid.drained taken, ?_⟩
  obtain ⟨sent, holds, whole⟩ := valid.sent
  cases step_moves taken with
  | read n start =>
      rw [start] at holds whole
      rw [left, List.append_nil] at whole
      exact ⟨sent, holds_open nofun holds, by rw [left, linesOf_append kept, whole]⟩
  | endOfFile start | sendChunk chunk start | lastLine start =>
      rw [start] at holds whole
      exact ⟨sent, holds_open nofun holds, whole⟩
  | sendLine line rest start =>
      rw [start] at holds whole
      obtain ⟨room, text⟩ := kept
      rw [start] at text
      refine ⟨sent ++ [line], send_holds (holds_open nofun holds) room (text line rfl), ?_⟩
      rw [List.append_assoc]
      exact whole
  | spawnRead channel asked =>
      rw [show p.entry = true from kept] at asked
      exact ⟨sent, ask_holds holds asked, whole⟩
  | takeLine channel received => exact ⟨sent, taken_holds holds received, whole⟩
  | write | closeStdout | exit | post | spawnReadChunk | takeChunk | spawnWait | awake | spawnKill | killed =>
      exact ⟨sent, holds, whole⟩

theorem chunks_step (valid : ChunksValid p) (kept : ChunksKept p action) (taken : step p action = some next) :
    ChunksValid next := by
  refine ⟨drained_step valid.drained taken, ?_⟩
  obtain ⟨sent, holds, whole⟩ := valid.sent
  cases step_moves taken with
  | read n start =>
      rw [start] at holds whole
      rw [unsent, List.append_nil] at whole
      exact ⟨sent, holds_open nofun holds, by rw [unsent, whole]⟩
  | endOfFile start | sendLine line rest start | lastLine start =>
      rw [start] at holds whole
      exact ⟨sent, holds_open nofun holds, whole⟩
  | sendChunk chunk start =>
      rw [start] at holds whole
      obtain ⟨room, text⟩ := kept
      rw [start] at text
      refine ⟨sent ++ [chunk], send_holds (holds_open nofun holds) room text, ?_⟩
      rw [List.flatten_concat, unsent, List.append_nil]
      exact whole
  | spawnReadChunk channel asked =>
      rw [show p.entry = true from kept] at asked
      exact ⟨sent, ask_holds holds asked, whole⟩
  | takeChunk channel received => exact ⟨sent, taken_holds holds received, whole⟩
  | write | closeStdout | exit | post | spawnRead | takeLine | spawnWait | awake | spawnKill | killed =>
      exact ⟨sent, holds, whole⟩

structure WaitsValid (p : Process) : Prop where
  closed : ∀ code, p.exited = some code → p.stdoutOpen = false
  slot : ∀ err, p.waitErr = some err → ∃ code, p.exited = some code ∧ err = waitError code
  calls : ((p.waits = [] ∨ p.waits = [.pending]) ∧ (p.posted = true → p.waitErr ≠ none)) ∨
    ∃ code, p.waits = [.settled code] ∧ p.exited = some code

theorem exitCode_waitError (code : Int) : exitCode (waitError code) = code := by
  unfold exitCode waitError
  split
  · next zero => exact zero.symm
  · rfl

theorem pending_first {waits : List Wait} (few : waits = [] ∨ waits = [.pending]) {wait : Nat}
    (found : waits[wait]? = some .pending) : waits = [.pending] ∧ wait = 0 := by
  obtain rfl | rfl := few
  · exact nomatch found
  · rw [List.getElem?_singleton] at found
    exact ⟨rfl, (Option.ite_none_right_eq_some.mp found).1⟩

theorem awake_calls (valid : WaitsValid p) {wait : Nat} (pending : p.waits[wait]? = some .pending) :
    p.waits = [.pending] ∧ wait = 0 ∧ (p.posted = true → p.waitErr ≠ none) := by
  obtain ⟨few, full⟩ | ⟨code, one, -⟩ := valid.calls
  · obtain ⟨one, first⟩ := pending_first few pending
    exact ⟨one, first, full⟩
  · rw [one, List.getElem?_singleton] at pending
    exact nomatch (Option.ite_none_right_eq_some.mp pending).2

theorem waits_step (valid : WaitsValid p) (kept : WaitedOnce p action) (taken : step p action = some next) : WaitsValid next := by
  obtain ⟨closed, slot, calls⟩ := valid
  cases step_moves taken with
  | exit code running =>
      refine ⟨fun _ _ => kept, fun err full => ?_, calls.imp_right ?_⟩
      · obtain ⟨other, exited, -⟩ := slot err full
        exact nomatch running.symm.trans exited
      · rintro ⟨other, -, exited⟩
        exact nomatch running.symm.trans exited
  | closeStdout | spawnKill => exact ⟨fun _ _ => rfl, slot, calls⟩
  | post code exited =>
      refine ⟨closed, fun err full => ⟨code, exited, (Option.some.inj full).symm⟩, ?_⟩
      exact calls.imp_left fun few => ⟨few.1, fun _ => nofun⟩
  | spawnWait =>
      obtain ⟨first, entry⟩ := kept
      refine ⟨closed, slot, ?_⟩
      obtain ⟨-, full⟩ | ⟨code, one, -⟩ := calls
      · exact .inl ⟨.inr (by simp [first, entry]), full⟩
      · exact nomatch first.symm.trans one
  | awake wait err full pending =>
      obtain ⟨code, exited, rfl⟩ := slot err full
      obtain ⟨one, rfl, -⟩ := awake_calls ⟨closed, slot, calls⟩ pending
      exact ⟨closed, nofun, .inr ⟨code, by rw [one, exitCode_waitError]; rfl, exited⟩⟩
  | write | read | endOfFile | sendChunk | sendLine | lastLine | spawnRead | spawnReadChunk | takeLine | takeChunk | killed =>
      exact ⟨closed, slot, calls⟩

-- How much the two goroutines still have to do.
def toDo : Reader → Nat
  | .reading => 1
  | .sending chunk => (linesOf chunk).length + 3
  | .splitting lines => lines.length + 2
  | .ended => 0

def work (p : Process) : Nat := 5 * p.pipe.length + toDo p.reader + if p.posted then 0 else 1

structure Settling (code : Int) (p : Process) : Prop where
  valid : WaitsValid p
  exited : p.exited = some code
  one : p.waits = [.pending]

theorem settling_enabled {code : Int} (settling : Settling code p) : ∃ action next, Own action ∧ step p action = some next := by
  obtain ⟨valid, exited, one⟩ := settling
  cases reader : p.reader with
  | reading =>
      cases pipe : p.pipe with
      | nil => exact ⟨.endOfFile, _, trivial, if_pos ⟨reader, pipe, valid.closed code exited⟩⟩
      | cons byte rest => exact ⟨.read 1, _, trivial, if_pos ⟨reader, Nat.one_pos, by decide, by rw [pipe]; simp⟩⟩
  | sending chunk => exact ⟨.sendChunk, _, trivial, by simp only [step, reader]; rfl⟩
  | splitting lines => cases lines <;> exact ⟨.sendLine, _, trivial, by simp only [step, reader]; rfl⟩
  | ended =>
      cases posted : p.posted with
      | false => exact ⟨.post, _, trivial, by simp only [step, exited, reader, posted, Option.bind_eq_bind]; rfl⟩
      | true =>
          have found : p.waits[0]? = some .pending := by rw [one]; rfl
          obtain ⟨err, full⟩ := Option.ne_none_iff_exists'.mp ((awake_calls valid found).2.2 posted)
          exact ⟨.awake 0, _, trivial, by simp only [step, full, found, Option.bind_eq_bind]; rfl⟩

theorem settling_leads {code : Int} (settling : Settling code p) (own : Own action) (taken : step p action = some next) :
    next.waits[0]? = some (.settled code) ∨ Settling code next ∧ work next < work p := by
  obtain ⟨valid, exited, one⟩ := settling
  have kept : WaitedOnce p action := by
    cases action <;> first | exact trivial | exact own.elim
  have after := waits_step valid kept taken
  cases step_moves taken with
  | read n start positive there =>
      refine .inr ⟨⟨after, exited, one⟩, ?_⟩
      have few := length_linesOf_le (p.pipe.take n)
      rw [List.length_take, Nat.min_eq_left there] at few
      simp only [work, start, toDo, List.length_drop]
      omega
  | endOfFile start => exact .inr ⟨⟨after, exited, one⟩, by simp only [work, start, toDo]; omega⟩
  | sendChunk chunk start => exact .inr ⟨⟨after, exited, one⟩, by simp only [work, start, toDo]; omega⟩
  | sendLine line rest start =>
      exact .inr ⟨⟨after, exited, one⟩, by simp only [work, start, toDo, List.length_cons]; omega⟩
  | lastLine start => exact .inr ⟨⟨after, exited, one⟩, by simp only [work, start, toDo, List.length_nil]; omega⟩
  | post other there ended first =>
      refine .inr ⟨⟨after, exited, one⟩, ?_⟩
      simp only [work, first, if_true, Bool.false_eq_true, if_false]
      omega
  | awake wait err full pending =>
      obtain ⟨other, there, rfl⟩ := valid.slot err full
      obtain ⟨-, rfl, -⟩ := awake_calls valid pending
      cases exited.symm.trans there
      exact .inl (by rw [one, exitCode_waitError]; rfl)
  | write | closeStdout | exit | spawnRead | spawnReadChunk | takeLine | takeChunk | spawnWait | spawnKill | killed =>
      exact own.elim

theorem lines_given (valid : LinesValid p) : LinesGiven p := by
  obtain ⟨sent, ⟨texts, null, given, rfl, -, past⟩, whole⟩ := valid.sent
  refine ⟨texts, null, given, ⟨p.lines.queue ++ left p.reader, by rw [← whole, List.append_assoc]⟩, fun some => ?_⟩
  obtain ⟨ended, empty⟩ := past some
  rw [empty, ended, left, List.append_nil, List.append_nil] at whole
  exact ⟨valid.drained ended, whole⟩

theorem flatten_encode (texts : List (List Char)) : (texts.map encode).flatten = encode texts.flatten := by
  induction texts with
  | nil => rfl
  | cons text rest ih => rw [List.map_cons, List.flatten_cons, ih, List.flatten_cons, encode, encode, encode, List.flatMap_append]

theorem chunks_given (valid : ChunksValid p) : ChunksGiven p := by
  obtain ⟨sent, ⟨texts, null, given, rfl, -, past⟩, whole⟩ := valid.sent
  rw [List.flatten_append, flatten_encode] at whole
  refine ⟨texts, null, given, ⟨p.chunks.queue.flatten ++ unsent p.reader, ?_⟩, fun some => ?_⟩
  · rw [← whole, List.append_assoc]
  · obtain ⟨ended, empty⟩ := past some
    rw [empty, ended, unsent, List.flatten_nil, List.append_nil, List.append_nil] at whole
    exact ⟨valid.drained ended, whole⟩

theorem waits_settled (valid : WaitsValid p) : WaitsSettled p := by
  refine ⟨fun wait code found => ?_, fun wait member threw => ?_, fun wait code pending exited => ?_⟩
  · obtain ⟨none | one, -⟩ | ⟨other, one, exited⟩ := valid.calls
    · exact nomatch none ▸ found
    · rw [one, List.getElem?_singleton] at found
      exact nomatch (Option.ite_none_right_eq_some.mp found).2
    · rw [one, List.getElem?_singleton] at found
      cases (Option.ite_none_right_eq_some.mp found).2
      exact exited
  · obtain ⟨none | one, -⟩ | ⟨other, one, -⟩ := valid.calls
    · exact nomatch none ▸ member
    · rw [one, List.mem_singleton] at member
      exact nomatch member.symm.trans threw
    · rw [one, List.mem_singleton] at member
      exact nomatch member.symm.trans threw
  · obtain ⟨one, rfl, -⟩ := awake_calls valid pending
    exact inevitable_of_measure work (fun _ => settling_enabled) (fun _ _ _ => settling_leads) ⟨valid, exited, one⟩

end Steps

theorem spawned_faithful {path : List Action} {final : Process} (reached : run step .new path = some final) :
    (Along step LinesKept .new path → LinesGiven final) ∧ (Along step ChunksKept .new path → ChunksGiven final) ∧
      (Along step WaitedOnce .new path → WaitsSettled final) := by
  have lines : LinesValid .new := ⟨nofun, [], new_holds, rfl⟩
  have chunks : ChunksValid .new := ⟨nofun, [], new_holds, rfl⟩
  have waits : WaitsValid .new := ⟨nofun, nofun, .inl ⟨.inl rfl, nofun⟩⟩
  exact ⟨fun kept => lines_given (along_invariant (fun _ _ _ => lines_step) lines kept reached),
    fun kept => chunks_given (along_invariant (fun _ _ _ => chunks_step) chunks kept reached),
    fun kept => waits_settled (along_invariant (fun _ _ _ => waits_step) waits kept reached)⟩

instance : ∀ (p : Process) (action : Action), Decidable (LinesKept p action)
  | p, .read _ => inferInstanceAs (Decidable (p.consumed = [] ∨ p.consumed.getLast? = some 10))
  | p, .sendLine =>
      inferInstanceAs (Decidable (p.lines.queue.length < capacity ∧ ∀ line ∈ (left p.reader).head?, textOf line ≠ none))
  | p, .spawnRead => inferInstanceAs (Decidable (p.entry = true))
  | p, .spawnKill => inferInstanceAs (Decidable (p.reader = .ended))
  | _, .write _ | _, .closeStdout | _, .exit _ | _, .endOfFile | _, .sendChunk | _, .post | _, .spawnReadChunk | _, .takeLine
  | _, .takeChunk | _, .spawnWait | _, .awake _ => isTrue trivial

instance : ∀ (p : Process) (action : Action), Decidable (ChunksKept p action)
  | p, .sendChunk => inferInstanceAs (Decidable (p.chunks.queue.length < capacity ∧ textOf (unsent p.reader) ≠ none))
  | p, .spawnReadChunk => inferInstanceAs (Decidable (p.entry = true))
  | p, .spawnKill => inferInstanceAs (Decidable (p.reader = .ended))
  | _, .write _ | _, .closeStdout | _, .exit _ | _, .read _ | _, .endOfFile | _, .sendLine | _, .post | _, .spawnRead
  | _, .takeLine | _, .takeChunk | _, .spawnWait | _, .awake _ => isTrue trivial

instance : ∀ (p : Process) (action : Action), Decidable (WaitedOnce p action)
  | p, .spawnWait => inferInstanceAs (Decidable (p.waits = [] ∧ p.entry = true))
  | p, .exit _ => inferInstanceAs (Decidable (p.stdoutOpen = false))
  | _, .write _ | _, .closeStdout | _, .read _ | _, .endOfFile | _, .sendChunk | _, .sendLine | _, .post | _, .spawnRead
  | _, .spawnReadChunk | _, .takeLine | _, .takeChunk | _, .awake _ | _, .spawnKill => isTrue trivial

def listing : List Action :=
  [.write [97, 10], .read 2, .sendChunk, .sendLine, .sendLine, .spawnRead, .takeLine, .spawnReadChunk, .takeChunk,
    .spawnWait, .closeStdout, .exit 3, .endOfFile, .spawnRead, .takeLine, .post, .awake 0]

theorem listing_faithful :
    ∃ final, run step .new listing = some final ∧ LinesGiven final ∧ ChunksGiven final ∧ WaitsSettled final := by
  have lines : Along step LinesKept .new listing := by decide
  have chunks : Along step ChunksKept .new listing := by decide
  have waits : Along step WaitedOnce .new listing := by decide
  obtain ⟨final, reached⟩ := Option.isSome_iff_exists.mp (show (run step .new listing).isSome = true by decide)
  have faithful := spawned_faithful reached
  exact ⟨final, reached, faithful.1 lines, faithful.2.1 chunks, faithful.2.2 waits⟩

def cutLine : List Action :=
  [.write [97], .read 1, .sendChunk, .sendLine, .sendLine, .write [98, 10], .read 2, .sendChunk, .spawnRead, .takeLine]

theorem line_cut : ∃ final, run step .new cutLine = some final ∧ ¬ LinesGiven final := by
  refine ⟨_, rfl, fun given => ?_⟩
  obtain ⟨texts, null, same, start, -⟩ := given
  have line : linesOf [97, 98, 10] = [[97, 98]] := by decide
  cases texts with
  | nil =>
      cases null with
      | zero => exact nomatch same
      | succ null => exact nomatch same
  | cons text rest =>
      change _ <+: linesOf [97, 98, 10] at start
      rw [line, List.map_cons, List.cons_prefix_cons] at start
      have whole := newStringFrom_encode text
      have first : units text = [97] := (Answer.text.inj (List.cons.inj same).1).symm
      rw [start.1, first] at whole
      exact absurd whole (by decide)

end Brainkit.Jsbridge.Spawned
