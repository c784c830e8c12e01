import Brainkit.Jsbridge.Buffer

set_option autoImplicit false

-- The bytes of a socket in net.go, from what is written to the connection and from what it reads to the data events.
namespace Brainkit.Jsbridge.Net

open Utf8

-- What write is given; a value that is neither becomes a string first.
inductive Data where
  | text (units : List Nat)
  | buffer (bytes : Bytes)
deriving DecidableEq

def bytesOf : Data → Bytes
  | .text units => units.map fun unit => UInt8.ofNat (unit &&& 0xff)
  | .buffer bytes => bytes

-- The table and the loop of the buffer, written out a second time.
def encodeData (data : Data) : List Nat := Buffer.b64encode (bytesOf data)

structure Sent where
  data : Data
  registered : Bool
  given : Option Bytes
deriving DecidableEq

structure GoSocket where
  connected : Bool
  registered : Bool
  pendingWrites : List Data
  sent : List Sent

def fresh : GoSocket := ⟨false, false, [], []⟩

-- __go_net_write: what the connection is given, none when the bridge answers false before it is.
def netWrite (registered : Bool) (b64data : List Nat) : Option Bytes :=
  match Base64.decode b64data with
  | none => none
  | some data => if registered then some data else none

def doWrite (s : GoSocket) (data : Data) : GoSocket :=
  { s with sent := s.sent ++ [⟨data, s.registered, netWrite s.registered (encodeData data)⟩] }

def write (data : Data) (s : GoSocket) : GoSocket :=
  if s.connected then doWrite s data else { s with pendingWrites := s.pendingWrites ++ [data] }

def onConnect (s : GoSocket) : GoSocket :=
  { s.pendingWrites.foldl doWrite { s with connected := true } with pendingWrites := [] }

inductive Move where
  | write (data : Data)
  -- polyfill.conns gains or loses the entry.
  | registers
  | unregisters
  | onConnect
  -- The end of the socket on the JS side, whichever way it comes.
  | disconnects

def step (s : GoSocket) : Move → GoSocket
  | .write data => write data s
  | .registers => { s with registered := true }
  | .unregisters => { s with registered := false }
  | .onConnect => onConnect s
  | .disconnects => { s with connected := false }

def run (moves : List Move) : GoSocket := moves.foldl step fresh

def Move.data : Move → Option Data
  | .write data => some data
  | _ => none

def written (moves : List Move) : List Data := moves.filterMap Move.data

-- UTF-8 of a string: a pair of surrogates is one code point, one by itself is U+FFFD.
def scalar (code : Nat) : Char := if code.isValidChar then Char.ofNat code else '\uFFFD'

def chars : List Nat → List Char
  | [] => []
  | [c] => [scalar c]
  | c :: c2 :: rest =>
      if (0xD800 ≤ c ∧ c < 0xDC00) ∧ (0xDC00 ≤ c2 ∧ c2 < 0xE000) then
        scalar ((c - 0xD800) * 1024 + (c2 - 0xDC00) + 0x10000) :: chars rest
      else scalar c :: chars (c2 :: rest)

def utf8 (units : List Nat) : Bytes := (chars units).flatMap String.utf8EncodeChar

def intended : Data → Bytes
  | .text units => utf8 units
  | .buffer bytes => bytes

def Ascii : Data → Prop
  | .text units => ∀ unit ∈ units, unit < 128
  | .buffer _ => True

-- Every write is carried out once, in order, or waits; a connection that is there is given the bytes that were meant.
structure Carries (moves : List Move) : Prop where
  ordered : (run moves).sent.map Sent.data ++ (run moves).pendingWrites = written moves
  exact : ∀ sent ∈ (run moves).sent, sent.given = if sent.registered then some (intended sent.data) else none

inductive ReadErr where
  | none
  | timeout
  | failed
deriving DecidableEq

structure Read where
  bytes : Bytes
  err : ReadErr
  ended : Bool
deriving DecidableEq

def wireLen (chunk : Bytes) : Nat :=
  (chunk.getD 0 0).toNat ||| ((chunk.getD 1 0).toNat <<< 8) ||| ((chunk.getD 2 0).toNat <<< 16) |||
    ((chunk.getD 3 0).toNat <<< 24)

def msgLen (chunk : Bytes) : Nat :=
  if 4 ≤ chunk.length ∧ 4 ≤ wireLen chunk ∧ wireLen chunk ≤ chunk.length then wireLen chunk else chunk.length

-- Every message takes at least a byte, so the bytes are fuel enough.
def messages : Nat → Bytes → List Bytes
  | 0, _ => []
  | _, [] => []
  | fuel + 1, chunk => chunk.take (msgLen chunk) :: messages fuel (chunk.drop (msgLen chunk))

-- The plain loop splits at the lengths on the wire, the one over an upgraded connection does not.
def forwarded (split : Bool) (bytes : Bytes) : List Bytes :=
  if split then messages bytes.length bytes else if bytes = [] then [] else [bytes]

def scheduled (split : Bool) : List Read → List (List Nat)
  | [] => []
  | read :: reads =>
      if read.ended then []
      else if read.err = .timeout then scheduled split reads
      else (forwarded split read.bytes).map Base64.encode ++ if read.err = .failed then [] else scheduled split reads

-- Each message is a call of _onData, with the same lookups as the buffer's.
def onData (b64 : List Nat) : Bytes := Buffer.b64decode b64

def dataEvents (split : Bool) (reads : List Read) : List Bytes := (scheduled split reads).map onData

def taken : List Read → List Read
  | [] => []
  | read :: reads => if read.ended then [] else read :: if read.err = .failed then [] else taken reads

def received (reads : List Read) : Bytes := (taken reads).flatMap Read.bytes

structure Faithful (moves : List Move) (split : Bool) (reads : List Read) : Prop where
  carries : Carries moves
  delivers : (dataEvents split reads).flatten = received reads

end Brainkit.Jsbridge.Net
