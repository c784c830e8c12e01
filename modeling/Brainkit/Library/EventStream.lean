import Brainkit.Library.Utf8

set_option autoImplicit false

-- The reader of a text/event-stream, a byte at a time. An event whose data is missing is not dispatched.
namespace EventStream

open Utf8 (Bytes)

structure Message where
  lastEventId : Bytes
  type : Bytes
  data : Bytes
deriving DecidableEq

def message (lastEventId type data : Bytes) : Message :=
  ⟨lastEventId, if type = [] then [109, 101, 115, 115, 97, 103, 101] else type, data⟩

-- line is what has come of the current line; cr says that the last byte was a CR, whose line an LF does not end again.
structure Reader where
  line : Bytes
  cr : Bool
  lastEventId : Bytes
  eventType : Bytes
  data : Bytes
  messages : List Message

namespace Reader

def start : Reader := ⟨[], false, [], [], [], []⟩

def dispatch (r : Reader) : Reader :=
  if r.data = [] then { r with eventType := [] }
  else { r with
    eventType := []
    data := []
    messages := r.messages ++ [message r.lastEventId r.eventType r.data.dropLast] }

def field (name value : Bytes) (r : Reader) : Reader :=
  if name = [101, 118, 101, 110, 116] then { r with eventType := value }
  else if name = [100, 97, 116, 97] then { r with data := r.data ++ value ++ [10] }
  else if name = [105, 100] then if 0 ∈ value then r else { r with lastEventId := value }
  else r

-- The name goes to the first colon, so that a comment has the empty name; one space after the colon is dropped.
def endLine (r : Reader) : Reader :=
  if r.line = [] then r.dispatch
  else
    let value := (r.line.dropWhile (· ≠ 58)).drop 1
    field (r.line.takeWhile (· ≠ 58)) (if value.head? = some 32 then value.tail else value) { r with line := [] }

def byte (r : Reader) (b : UInt8) : Reader :=
  if b = 10 then if r.cr then { r with cr := false } else r.endLine
  else if b = 13 then { r.endLine with cr := true }
  else { r with line := r.line ++ [b], cr := false }

def feed (r : Reader) (text : Bytes) : Reader := text.foldl byte r

structure Ready (r : Reader) : Prop where
  line : r.line = []
  cr : r.cr = false
  eventType : r.eventType = []
  data : r.data = []

end Reader

def read (text : Bytes) : List Message := (Reader.start.feed text).messages

def fieldLine (name value : Bytes) : Bytes := name ++ [58, 32] ++ value ++ [10]

-- One event, as a server writes it.
def event (lastEventId type data : Bytes) : Bytes :=
  fieldLine [105, 100] lastEventId ++ fieldLine [101, 118, 101, 110, 116] type ++ fieldLine [100, 97, 116, 97] data ++ [10]

def comment (text : Bytes) : Bytes := [58] ++ text ++ [10, 10]

-- A text within one line.
def Plain (text : Bytes) : Prop := ∀ b ∈ text, b ≠ 10 ∧ b ≠ 13

instance (text : Bytes) : Decidable (Plain text) := List.decidableBAll _ text

theorem plain_append {first second : Bytes} (a : Plain first) (b : Plain second) : Plain (first ++ second) :=
  fun byte member => (List.mem_append.mp member).elim (a byte) (b byte)

namespace Reader

theorem feed_append (r : Reader) (first second : Bytes) : r.feed (first ++ second) = (r.feed first).feed second :=
  List.foldl_append

theorem feed_plain {text : Bytes} (plain : Plain text) {r : Reader} (lf : r.cr = false) :
    r.feed text = { r with line := r.line ++ text } := by
  induction text generalizing r with
  | nil => rw [List.append_nil]; rfl
  | cons b rest ih =>
      have here : r.byte b = { r with line := r.line ++ [b] } := by
        rw [byte, if_neg (plain b List.mem_cons_self).1, if_neg (plain b List.mem_cons_self).2, lf]
      have later := ih (r := { r with line := r.line ++ [b] }) (fun b member => plain b (List.mem_cons_of_mem _ member)) lf
      rw [feed, List.foldl_cons, here, ← feed, later]
      simp only [List.append_assoc, List.singleton_append]

theorem feed_line {text : Bytes} (plain : Plain text) {r : Reader} (lf : r.cr = false) :
    r.feed (text ++ [10]) = endLine { r with line := r.line ++ text } := by
  rw [feed_append, feed_plain plain lf, feed, List.foldl_cons, List.foldl_nil, byte, if_pos rfl, lf, if_neg Bool.false_ne_true]

theorem feed_field (name : Bytes) {value : Bytes} (colonless : 58 ∉ name) (some : name ≠ []) (plainName : Plain name)
    (plain : Plain value) {r : Reader} (lf : r.cr = false) (fresh : r.line = []) :
    r.feed (fieldLine name value) = r.field name value := by
  have others : ∀ b ∈ name, decide (b ≠ 58) = true := fun b member => decide_eq_true fun same => colonless (same ▸ member)
  have taken : (name ++ [58, 32] ++ value).takeWhile (· ≠ 58) = name := by
    rw [List.append_assoc, List.takeWhile_append_of_pos others]
    simp
  have left : (name ++ [58, 32] ++ value).dropWhile (· ≠ 58) = [58, 32] ++ value := by
    rw [List.append_assoc, List.dropWhile_append_of_pos others]
    simp
  have whole : name ++ [58, 32] ++ value ≠ [] := by simp [some]
  have line : Plain (name ++ [58, 32] ++ value) := plain_append (plain_append plainName (by decide)) plain
  rw [fieldLine, feed_line line lf, endLine]
  simp only [fresh, List.nil_append]
  rw [if_neg whole, taken, left]
  cases r
  cases fresh
  rfl

theorem feed_event {lastEventId type data : Bytes} (idPlain : Plain lastEventId) (noNul : 0 ∉ lastEventId)
    (typePlain : Plain type) (dataPlain : Plain data) {r : Reader} (ready : r.Ready) :
    r.feed (event lastEventId type data) =
      { r with lastEventId := lastEventId, messages := r.messages ++ [message lastEventId type data] } := by
  obtain ⟨line, cr, eventType, noData⟩ := ready
  have id := feed_field [105, 100] (by decide) (by decide) (by decide) idPlain cr line
  rw [field, if_neg (by decide), if_neg (by decide), if_pos rfl, if_neg noNul] at id
  have named := feed_field [101, 118, 101, 110, 116] (r := { r with lastEventId := lastEventId }) (by decide) (by decide)
    (by decide) typePlain cr line
  rw [field, if_pos rfl] at named
  have filled := feed_field [100, 97, 116, 97] (r := { r with lastEventId := lastEventId, eventType := type })
    (by decide) (by decide) (by decide) dataPlain cr line
  rw [field, if_neg (by decide), if_pos rfl] at filled
  rw [event, feed_append, feed_append, feed_append, id, named, filled]
  cases r
  cases line
  cases cr
  cases eventType
  cases noData
  simp [feed, byte, endLine, dispatch]

theorem feed_comment {text : Bytes} (plain : Plain text) {r : Reader} (ready : r.Ready) : r.feed (comment text) = r := by
  obtain ⟨line, cr, eventType, noData⟩ := ready
  have colon : Plain ([58] ++ text) := plain_append (by decide) plain
  rw [comment, show ([10, 10] : Bytes) = [10] ++ [10] from rfl, ← List.append_assoc, feed_append, feed_line colon cr]
  cases r
  cases line
  cases cr
  cases eventType
  cases noData
  simp [feed, byte, endLine, dispatch, field]

theorem ready_next {r : Reader} (ready : r.Ready) (lastEventId : Bytes) (messages : List Message) :
    Ready { r with lastEventId := lastEventId, messages := messages } := ⟨ready.line, ready.cr, ready.eventType, ready.data⟩

end Reader

-- A stream of frames, each of which is read as the events that it stands for.
theorem read_frames {ε : Type} {text : ε → Bytes} (messages : ε → List Message) {frames : List ε}
    (each : ∀ frame ∈ frames, ∀ r : Reader, r.Ready → ∃ lastEventId,
      r.feed (text frame) = { r with lastEventId := lastEventId, messages := r.messages ++ messages frame }) :
    read (frames.flatMap text) = frames.flatMap messages := by
  have all (r : Reader) (ready : r.Ready) : (r.feed (frames.flatMap text)).messages = r.messages ++ frames.flatMap messages := by
    induction frames generalizing r with
    | nil => exact (List.append_nil _).symm
    | cons frame rest ih =>
        obtain ⟨lastEventId, fed⟩ := each frame List.mem_cons_self r ready
        rw [List.flatMap_cons, Reader.feed_append, fed, List.flatMap_cons]
        rw [ih (fun other member => each other (List.mem_cons_of_mem _ member)) _ (Reader.ready_next ready _ _)]
        exact List.append_assoc _ _ _
  exact all Reader.start ⟨rfl, rfl, rfl, rfl⟩

example : read (event [97] [] [120] ++ comment [107] ++ event [98] [101] [121, 122]) =
    [message [97] [] [120], message [98] [101] [121, 122]] := by decide

end EventStream
