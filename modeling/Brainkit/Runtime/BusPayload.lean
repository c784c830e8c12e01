import Brainkit.Jsbridge.NewString
import Brainkit.Library.GoCompact

set_option autoImplicit false

-- The payloads of bus.js: what each call writes for a value, and what the handler or the caller at the other end is
-- given. A JavaScript value is none where it is undefined.
namespace Brainkit.Runtime.BusPayload

open Ecma EcmaJson GoQuote GoText Jsbridge Utf8

def unitsOf (name : String) : List Nat := name.toList.map Char.toNat

def isZero (numeral : Numeral) : Bool :=
  (numeral.text.takeWhile fun c => c ≠ 'e' && c ≠ 'E').all fun c => c ∉ "123456789".toList

def falsy : Json → Bool
  | .null => true
  | .bool flag => !flag
  | .number numeral => isZero numeral
  | .string units => units.isEmpty
  | .array _ | .object _ => false

-- data === undefined ? null : data
def orNull (data : Option Json) : Json := data.getD .null

-- data || null
def truthyOrNull (data : Option Json) : Json :=
  match data with
  | none => .null
  | some value => if falsy value then .null else value

-- An object literal: JSON.stringify leaves out what is undefined.
def literal (fields : List (String × Option Json)) : Json :=
  .object (fields.filterMap fun field => field.2.map fun value => (unitsOf field.1, value))

-- The argument JSON.stringify(data) as the bridge takes it, where undefined is a text too.
def argument (data : Option Json) : Bytes := encode ((data.map text).getD "undefined".toList)

def publish (data : Option Json) : Bytes := argument (some (orNull data))

def emit (data : Option Json) : Bytes := argument (some (truthyOrNull data))

def sendTo (data : Option Json) : Bytes := publish data

def call (data : Option Json) : Bytes := argument (some (orNull data))

def callStream (data : Option Json) : Bytes := argument (some (orNull data))

def schedule (data : Option Json) : Bytes := argument (some (truthyOrNull data))

def reply (data : Option Json) : Bytes :=
  argument (some (literal [("ok", some (.bool true)), ("data", some (orNull data))]))

def send (data : Option Json) : Bytes := argument data

def streamText (seq : Numeral) (chunk : Option Json) : Bytes :=
  argument (some (literal [("type", some (.string (unitsOf "text"))), ("seq", some (.number seq)), ("data", chunk)]))

def streamObject (seq : Numeral) (part : Option Json) : Bytes :=
  argument (some (literal [("type", some (.string (unitsOf "object"))), ("seq", some (.number seq)), ("data", part)]))

def streamEvent (seq : Numeral) (name data : Option Json) : Bytes :=
  argument (some (literal [("type", some (.string (unitsOf "event"))), ("seq", some (.number seq)), ("event", name),
    ("data", some (truthyOrNull data))]))

def streamEnd (seq : Numeral) (finalData : Option Json) : Bytes :=
  argument (some (literal [("type", some (.string (unitsOf "end"))), ("seq", some (.number seq)),
    ("total", some (.number seq)), ("data", some (truthyOrNull finalData))]))

-- A message but for its payload. A metadata value that is not there is empty.
structure Route where
  topic : GoString
  callerID : GoString
  replyTo : GoString
  correlationID : GoString
  traceID : GoString
  done : GoString
  envelope : GoString

def boolText (flag : Bool) : Bytes := if flag then encode "true".toList else encode "false".toList

-- The map with the JSON of its values, in the order of its keys, and which of them are set.
def busBridgeMsgObject (msg : Route) (payload : Bytes) : List (String × Bool × Bytes) :=
  [("callerId", msg.callerID ≠ [], GoJson.stringText msg.callerID),
    ("correlationId", msg.correlationID ≠ [], GoJson.stringText msg.correlationID),
    ("done", msg.done ≠ [], boolText (msg.done = lit "true")),
    ("envelope", msg.envelope ≠ [], boolText (msg.envelope = lit "true")),
    ("payload", true,
      if payload ≠ [] && GoJson.valid payload then GoJson.compact payload else GoJson.stringText payload),
    ("replyTo", msg.replyTo ≠ [], GoJson.stringText msg.replyTo),
    ("topic", true, GoJson.stringText msg.topic),
    ("traceId", msg.traceID ≠ [], GoJson.stringText msg.traceID)]

-- json.Marshal of a map whose keys are letters.
def marshal (fields : List (String × Bool × Bytes)) : Bytes :=
  123 :: joined 44 125 ((fields.filter (·.2.1)).map fun field => GoJson.memberBytes (encode field.1.toList, field.2.2))

def property (value : Json) (name : String) : Option Json :=
  match value with
  | .object members => members.lookup (unitsOf name)
  | _ => none

-- The payload that a handler of a subscription or of a stream is given: the message is quoted into the text of a
-- script, as a literal that JSON.parse takes. The outer none is a text that it refuses.
def delivered (isPrint : Nat → Bool) (msg : Route) (payload : Bytes) : Option (Option Json) :=
  (parse (itemsUnits (GoQuote.quoteItems isPrint (marshal (busBridgeMsgObject msg payload))))).map (property · "payload")

def parseCallRaw (raw : List Nat) : Option Json :=
  if raw = [] || raw = unitsOf "null" then some .null else parse raw

-- The data of an envelope that says ok, as reply writes them.
def decodeEnvelope (payload : Bytes) : Option Bytes := do
  let members ← if GoJson.valid payload then GoJson.object payload else none
  let ok ← members.lookup (encode "ok".toList)
  if ok = encode "true".toList then some ((members.lookup (encode "data".toList)).getD []) else none

def callResult (payload : Bytes) (envelope : Bool) : Option Json := do
  let raw ← if envelope then decodeEnvelope payload else some payload
  parseCallRaw (newString (if raw = [] then encode "null".toList else raw))

-- The events of a stream have the number that is next.
inductive Api where
  | publish
  | emit
  | sendTo
  | call
  | callStream
  | schedule
  | reply
  | send
  | streamText (seq : Numeral)
  | streamObject (seq : Numeral)
  | streamEvent (seq : Numeral) (name : Option Json)
  | streamEnd (seq : Numeral)

-- What the other end has of the value: a handler as its payload; a caller as the result of its call, as the payload
-- of a chunk, or as the data of an event of the stream.
def received (isPrint : Nat → Bool) (msg : Route) (data : Option Json) : Api → Option (Option Json)
  | .publish => delivered isPrint msg (publish data)
  | .emit => delivered isPrint msg (emit data)
  | .sendTo => delivered isPrint msg (sendTo data)
  | .call => delivered isPrint msg (call data)
  | .callStream => delivered isPrint msg (callStream data)
  | .schedule => delivered isPrint msg (schedule data)
  | .reply => (callResult (reply data) true).map some
  | .send => delivered isPrint msg (send data)
  | .streamText seq => (delivered isPrint msg (streamText seq data)).map fun payload => payload.bind (property · "data")
  | .streamObject seq => (delivered isPrint msg (streamObject seq data)).map fun payload => payload.bind (property · "data")
  | .streamEvent seq name =>
      (delivered isPrint msg (streamEvent seq name data)).map fun payload => payload.bind (property · "data")
  | .streamEnd seq => (callResult (streamEnd seq data) false).map (property · "data")

section

variable (isPrint : Nat → Bool)

-- A character of the quoted text, as the script has it, and a character of the JSON of a payload.
def quoted (c : Char) : List Nat := itemsUnits (charItems isPrint c)

def passed (c : Char) : List Nat := (GoJson.html c).flatMap (quoted isPrint)

-- Of the characters of a string only the ones beyond the basic plane that do not print become something else.
def hidden (c : Char) : Bool := 65536 ≤ c.toNat && !isPrint c.toNat

def altered : Code → List Nat
  | .char c => if hidden isPrint c then quoted isPrint c else utf16 c.toNat
  | .lone unit => [unit]

theorem hidden_low {c : Char} (plane : c.toNat < 65536) : hidden isPrint c = false := by
  rw [hidden, decide_eq_false (Nat.not_le.mpr plane)]
  rfl

theorem plain_iff {c : Char} (visible : 32 ≤ c.toNat) : GoQuote.Plain isPrint c ↔ hidden isPrint c = false := by
  have bell : c.toNat ≠ 7 := by omega
  simp [GoQuote.Plain, hidden, bell]

theorem quoted_mark {c : Char} (visible : 32 ≤ c.toNat) (plane : c.toNat < 65536) : quoted isPrint c = [c.toNat] := by
  rw [quoted, units_plain ((plain_iff isPrint visible).mpr (hidden_low isPrint plane)), utf16, if_pos plane]

theorem quoted_nonempty (c : Char) : quoted isPrint c ≠ [] := by
  rw [quoted]
  by_cases plain : GoQuote.Plain isPrint c
  · rw [units_plain plain, utf16]
    split <;> simp
  · obtain ⟨first, rest, -, -, written, -⟩ := units_other plain
    rw [written]
    simp

theorem quoted_marks {text : List Char} (known : ∀ c ∈ text, c ∈ syntaxChars) :
    text.flatMap (quoted isPrint) = text.map Char.toNat := by
  have plain : ∀ c ∈ syntaxChars, 32 ≤ c.toNat ∧ c.toNat < 65536 := forall_checked (by decide)
  induction text with
  | nil => rfl
  | cons c rest ih =>
      obtain ⟨visible, plane⟩ := plain c (known c (.head _))
      rw [List.flatMap_cons, List.map_cons, quoted_mark isPrint visible plane, ih fun other member => known other (.tail c member)]
      rfl

theorem passed_text (text : List Char) : (text.flatMap GoJson.html).flatMap (quoted isPrint) = text.flatMap (passed isPrint) :=
  List.flatMap_assoc

theorem hidden_units {c : Char} (unseen : hidden isPrint c = true) :
    ∀ unit ∈ quoted isPrint c, 32 ≤ unit ∧ unit ≠ 34 ∧ unit ≠ 92 := by
  have range := scalar c
  simp only [hidden, Bool.and_eq_true, decide_eq_true_eq, Bool.not_eq_true'] at unseen
  have none : shortEscape c.toNat = none := by
    cases found : shortEscape c.toNat with
    | none => rfl
    | some letter =>
        have pair := shortEscape_cases found
        simp only [List.mem_cons, Prod.mk.injEq, List.not_mem_nil, or_false] at pair
        omega
  have plain : ∀ digit < 16, ∀ unit ∈ Item.units (.raw (hexChar digit)), 32 ≤ unit ∧ unit ≠ 34 ∧ unit ≠ 92 := by decide
  rw [quoted, charItems_long none unseen.2 unseen.1]
  intro unit member
  obtain ⟨item, listed, here⟩ := List.mem_flatMap.mp member
  rcases List.mem_cons.mp listed with rfl | digit
  · have letter : Escape.singleUnits 'U' = [85] := by decide
    rw [Item.units, Escape.units, letter, List.mem_singleton] at here
    subst here
    decide
  · obtain ⟨value, small, rfl⟩ := List.mem_map.mp digit
    refine plain value ?_ unit here
    simp only [List.mem_cons, List.not_mem_nil, or_false] at small
    omega

theorem delivers_passed : Delivers (passed isPrint) (altered isPrint) where
  shown c := by
    have some_ : GoJson.html c ≠ [] := by
      unfold GoJson.html unicodeText
      split <;> simp
    obtain ⟨d, rest, written⟩ := List.exists_cons_of_ne_nil some_
    rw [passed, written, List.flatMap_cons]
    exact fun empty => quoted_nonempty isPrint d (List.append_eq_nil_iff.mp empty).1
  marks c known := by
    have one := quoted_marks isPrint (List.forall_mem_singleton.mpr known)
    rw [← GoJson.html_marks (List.forall_mem_singleton.mpr known), passed_text, List.flatMap_singleton] at one
    exact one.trans (by rw [GoJson.html_marks (List.forall_mem_singleton.mpr known)]; rfl)
  raw c raw := by
    unfold passed GoJson.html
    split
    · next sign =>
        have planes : ∀ c ∈ ['<', '>', '&', '\u2028', '\u2029'], c.toNat < 65536 := forall_checked (by decide)
        have plane := planes c sign
        rw [quoted_marks isPrint (hexChars_marks c.toNat), altered, hidden_low isPrint plane, if_neg (by decide), utf16,
          if_pos plane]
        exact reads_code plane
    · rw [List.flatMap_singleton, altered]
      cases unseen : hidden isPrint c with
      | true =>
          rw [if_pos rfl]
          exact reads_units (hidden_units isPrint unseen)
      | false =>
          rw [if_neg (by decide), quoted, units_plain ((plain_iff isPrint raw.2).mpr unseen)]
          exact reads_utf16 raw
  escaped c escaped := by
    have small := escaped_small escaped
    rw [altered, hidden_low isPrint (by omega), if_neg (by decide), utf16, if_pos (by omega)]
  lone _ := rfl

def Seen : Code → Prop
  | .char c => hidden isPrint c = false
  | .lone _ => True

def Visible (units : List Nat) : Prop := ∀ code ∈ codePoints units, Seen isPrint code

theorem altered_seen {code : Code} (seen : Seen isPrint code) : altered isPrint code = code.units := by
  cases code with
  | lone unit => rfl
  | char c => rw [altered, show hidden isPrint c = false from seen, if_neg (by decide), Code.units]

theorem altered_unseen {code : Code} (unseen : ¬ Seen isPrint code) :
    ∃ first rest first' rest', altered isPrint code = first :: rest ∧ code.units = first' :: rest' ∧ first ≠ first' := by
  cases code with
  | lone unit => exact absurd trivial unseen
  | char c =>
      have beyond : hidden isPrint c = true := Bool.not_eq_false _ ▸ unseen
      have visible : 32 ≤ c.toNat := by
        have large := (Bool.and_eq_true _ _ ▸ beyond).1
        have := of_decide_eq_true large
        omega
      rw [altered, if_pos beyond, quoted, Code.units]
      exact units_other fun plain => unseen ((plain_iff isPrint visible).mp plain)

theorem altered_same_iff (units : List Nat) (fit : ∀ unit ∈ units, unit < 65536) :
    (codePoints units).flatMap (altered isPrint) = units ↔ Visible isPrint units := by
  rw [Visible]
  conv =>
    lhs
    rhs
    rw [← codePoints_units units fit]
  generalize codePoints units = codes
  induction codes with
  | nil => exact iff_of_true rfl fun _ none => nomatch none
  | cons code rest ih =>
      rw [List.flatMap_cons, List.flatMap_cons, List.forall_mem_cons]
      by_cases seen : Seen isPrint code
      · rw [altered_seen isPrint seen, List.append_cancel_left_eq, ih]
        exact (and_iff_right seen).symm
      · obtain ⟨first, more, first', more', written, meant, apart⟩ := altered_unseen isPrint seen
        rw [written, meant]
        exact iff_of_false (fun same => apart (List.cons.inj same).1) fun all => seen all.1

theorem rewrite_altered_iff (v : Json) (wf : Wf v) : rewrite (altered isPrint) v = v ↔ Kept (Visible isPrint) v :=
  (rewrite_same_iff _ v wf).trans (kept_congr (altered_same_iff isPrint) v wf)

def Shown (raw : Bytes) (v : Json) : Prop :=
  ∃ chars : List Char, raw = encode (chars.flatMap GoJson.html) ∧ Parses (chars.flatMap (passed isPrint)) v

theorem shown_text (v : Json) : Shown isPrint (GoJson.compact (encode (text v))) (rewrite (altered isPrint) v) :=
  ⟨text v, GoJson.compact_text v, text_parses (delivers_passed isPrint) v⟩

theorem shown_bool (flag : Bool) : Shown isPrint (boolText flag) (.bool flag) := by
  have known : ∀ c ∈ text (.bool flag), c ∈ syntaxChars := by cases flag <;> exact forall_checked (by decide)
  refine ⟨text (.bool flag), ?_, text_parses (delivers_passed isPrint) (.bool flag)⟩
  rw [GoJson.html_marks known]
  cases flag <;> rfl

def runeChars : Rune → List Char
  | .char c => Code.text (.char c)
  | .bad _ => unicodeText 0xFFFD

theorem runeText_ascii : ∀ n < 128, GoJson.runeText (.char (Char.ofNat n)) =
    encode ((Code.text (.char (Char.ofNat n))).flatMap GoJson.html) := by
  decide

theorem runeText_chars (rune : Rune) : GoJson.runeText rune = encode ((runeChars rune).flatMap GoJson.html) := by
  cases rune with
  | bad byte =>
      have written : ([92, 117, 102, 102, 102, 100] : Bytes) = encode (unicodeText 0xFFFD) := by decide
      rw [runeChars, GoJson.html_marks (hexChars_marks _)]
      exact written
  | char c =>
      by_cases ascii : c.toNat < 128
      · have same := runeText_ascii c.toNat ascii
        rwa [Char.ofNat_toNat] at same
      · have raw : Raw c := by
          by_contra escaped
          exact ascii (escaped_small escaped)
        have written : Code.text (.char c) = [c] := by
          unfold Code.text
          dsimp only
          rw [raw.1]
          exact if_neg (Nat.not_lt.mpr raw.2)
        rw [runeChars, written, List.flatMap_singleton, GoJson.runeText, if_neg ascii, GoJson.html]
        by_cases separator : c.toNat = 0x2028 ∨ c.toNat = 0x2029
        · have found : c = '\u2028' ∨ c = '\u2029' := separator.imp Char.toNat_inj.mp Char.toNat_inj.mp
          rcases found with rfl | rfl <;> decide
        · have other : c ∉ ['<', '>', '&', '\u2028', '\u2029'] := by
            intro member
            simp only [List.mem_cons, List.not_mem_nil, or_false] at member
            rcases member with rfl | rfl | rfl | rfl | rfl
            · exact ascii (by decide)
            · exact ascii (by decide)
            · exact ascii (by decide)
            · exact separator (.inl rfl)
            · exact separator (.inr rfl)
          rw [if_neg (by simpa using separator), if_neg other, encode_cons]
          exact (List.append_nil _).symm

theorem reads_rune (rune : Rune) : ∃ units, Reads ((runeChars rune).flatMap (passed isPrint)) units := by
  cases rune with
  | char c =>
      have fits : (Code.char c).Fits := trivial
      exact ⟨_, reads_text (delivers_passed isPrint) fits⟩
  | bad byte => exact ⟨_, reads_unicode (delivers_passed isPrint) (by decide)⟩

theorem shown_string (content : GoString) : ∃ units, Shown isPrint (GoJson.stringText content) (.string units) := by
  have whole : ∃ (chars : List Char) (units : List Nat), GoJson.contentText content = encode (chars.flatMap GoJson.html) ∧
      Reads (chars.flatMap (passed isPrint)) units := by
    unfold GoJson.contentText
    induction runes content with
    | nil => exact ⟨[], [], rfl, reads_nil⟩
    | cons rune rest ih =>
        obtain ⟨chars, units, written, reads⟩ := ih
        obtain ⟨first, readsFirst⟩ := reads_rune isPrint rune
        refine ⟨runeChars rune ++ chars, first ++ units, ?_, ?_⟩
        · rw [List.flatMap_cons, runeText_chars, written, List.flatMap_append, encode_append]
        · rw [List.flatMap_append]
          exact reads_append readsFirst reads
  obtain ⟨chars, units, written, reads⟩ := whole
  have quote : GoJson.html '"' = ['"'] := by decide
  refine ⟨units, '"' :: (chars ++ ['"']), ?_, ?_⟩
  · rw [GoJson.stringText, written, List.flatMap_cons, List.flatMap_append, List.flatMap_singleton, quote,
      List.singleton_append, GoJson.encode_mark (by decide), encode_append]
    rfl
  · rw [marks (delivers_passed isPrint) (by decide), List.flatMap_append, marks (delivers_passed isPrint) (by decide)]
    exact parses_string reads

def names : List String := ["callerId", "correlationId", "done", "envelope", "payload", "replyTo", "topic", "traceId"]

theorem names_plain : ∀ name ∈ names, ∀ c ∈ name.toList,
    GoJson.html c = [c] ∧ (32 ≤ c.toNat ∧ c.toNat ≠ 34 ∧ c.toNat ≠ 92) ∧ c.toNat < 65536 := by
  have all : ∀ c ∈ names.flatMap String.toList,
      GoJson.html c = [c] ∧ (32 ≤ c.toNat ∧ c.toNat ≠ 34 ∧ c.toNat ≠ 92) ∧ c.toNat < 65536 := forall_checked (by decide)
  exact fun name listed c member => all c (List.mem_flatMap.mpr ⟨name, listed, member⟩)

theorem names_once : (names.map unitsOf).Nodup := by decide

structure Entry where
  name : String
  present : Bool
  raw : Bytes
  value : Json

theorem name_html {name : String} (known : name ∈ names) : name.toList.flatMap GoJson.html = name.toList := by
  have plain := names_plain name known
  exact (List.flatMap_congr fun c member => (plain c member).1).trans (List.flatMap_singleton' _)

theorem name_passed {name : String} (known : name ∈ names) :
    name.toList.flatMap (passed isPrint) = unitsOf name ∧ Reads (unitsOf name) (unitsOf name) := by
  have plain := names_plain name known
  constructor
  · rw [← passed_text, name_html known, unitsOf, ← List.flatMap_singleton' (name.toList.map Char.toNat), List.flatMap_map]
    exact List.flatMap_congr fun c member => quoted_mark isPrint (plain c member).2.1.1 (plain c member).2.2
  · refine reads_units fun unit member => ?_
    obtain ⟨c, written, rfl⟩ := List.mem_map.mp member
    exact (plain c written).2.1

theorem quoted_text (chars : List Char) : itemsUnits (quoteItems isPrint (encode chars)) = chars.flatMap (quoted isPrint) := by
  rw [quoteItems_encode]
  exact List.flatMap_assoc

def entryChars (e : Entry) (chars : List Char) : List Char := '"' :: (e.name.toList ++ '"' :: ':' :: chars)

theorem entry_bytes {e : Entry} {chars : List Char} (known : e.name ∈ names) (raw : e.raw = encode (chars.flatMap GoJson.html)) :
    encode ((entryChars e chars).flatMap GoJson.html) = GoJson.memberBytes (encode e.name.toList, e.raw) := by
  have quote : GoJson.html '"' = ['"'] := by decide
  have colon : GoJson.html ':' = [':'] := by decide
  rw [entryChars, List.flatMap_cons, List.flatMap_append, List.flatMap_cons, List.flatMap_cons, quote, colon, name_html known,
    List.singleton_append, List.singleton_append, List.singleton_append, GoJson.encode_mark (by decide), encode_append,
    GoJson.encode_mark (by decide), GoJson.encode_mark (by decide), ← raw]
  rfl

theorem entry_units {e : Entry} (chars : List Char) (known : e.name ∈ names) :
    (entryChars e chars).flatMap (passed isPrint) = memberUnits (unitsOf e.name, chars.flatMap (passed isPrint)) := by
  rw [entryChars, marks (delivers_passed isPrint) (by decide), List.flatMap_append, (name_passed isPrint known).1,
    marks (delivers_passed isPrint) (by decide), marks (delivers_passed isPrint) (by decide)]
  rfl

theorem marshal_read (entries : List Entry) (known : ∀ e ∈ entries, e.name ∈ names)
    (shown : ∀ e ∈ entries, Shown isPrint e.raw e.value) :
    parse (itemsUnits (quoteItems isPrint (marshal (entries.map fun e => (e.name, e.present, e.raw))))) =
      some (.object (assign [] ((entries.filter (·.present)).map fun e => (unitsOf e.name, e.value)))) := by
  have each (e : Entry) : ∃ chars : List Char, e ∈ entries →
      e.raw = encode (chars.flatMap GoJson.html) ∧ Parses (chars.flatMap (passed isPrint)) e.value := by
    by_cases member : e ∈ entries
    · obtain ⟨chars, spec⟩ := shown e member
      exact ⟨chars, fun _ => spec⟩
    · exact ⟨[], fun listed => absurd listed member⟩
  obtain ⟨chars, spec⟩ := Classical.axiomOfChoice each
  have listed : ∀ e ∈ entries.filter (·.present), e ∈ entries := fun e member => (List.mem_filter.mp member).1
  have fields : (entries.map fun e => (e.name, e.present, e.raw)).filter (·.2.1) =
      (entries.filter (·.present)).map fun e => (e.name, e.present, e.raw) := List.filter_map
  let whole : List Char := '{' :: joined ',' '}' ((entries.filter (·.present)).map fun e => entryChars e (chars e))
  have comma : GoJson.html ',' = [','] := by decide
  have close : GoJson.html '}' = ['}'] := by decide
  have brace : GoJson.html '{' = ['{'] := by decide
  have bytes : marshal (entries.map fun e => (e.name, e.present, e.raw)) = encode (whole.flatMap GoJson.html) := by
    rw [marshal, fields, List.flatMap_cons, brace, List.singleton_append, GoJson.encode_mark (by decide),
      joined_flatMap comma close, encode, joined_flatMap (encode_ascii (by decide)) (encode_ascii (by decide)), List.map_map,
      List.map_map, List.map_map]
    refine congrArg (123 :: joined 44 125 ·) (List.map_congr_left fun e member => ?_)
    exact (entry_bytes (known e (listed e member)) (spec e (listed e member)).1).symm
  have units : itemsUnits (quoteItems isPrint (encode (whole.flatMap GoJson.html))) = 123 :: joined 44 125
      (((entries.filter (·.present)).map fun e => (unitsOf e.name, (chars e).flatMap (passed isPrint))).map memberUnits) := by
    have delivers := delivers_passed isPrint
    rw [quoted_text, passed_text, marks delivers (by decide),
      joined_flatMap (delivers.marks ',' (by decide)) (delivers.marks '}' (by decide)), List.map_map, List.map_map]
    exact congrArg (123 :: joined 44 125 ·)
      (List.map_congr_left fun e member => entry_units isPrint (chars e) (known e (listed e member)))
  rw [bytes, units]
  refine parse_parses (parses_object ?_)
  rw [List.forall₂_map_left_iff, List.forall₂_map_right_iff, List.forall₂_same]
  intro e member
  exact ⟨(name_passed isPrint (known e (listed e member))).2, (spec e (listed e member)).2⟩

theorem lookup_member {key : List Nat} {value : Json} {members : List (List Nat × Json)} (once : (members.map Prod.fst).Nodup)
    (member : (key, value) ∈ members) : members.lookup key = some value := by
  induction members with
  | nil => cases member
  | cons first rest ih =>
      obtain ⟨name, stored⟩ := first
      rw [List.map_cons, List.nodup_cons] at once
      rcases List.mem_cons.mp member with same | later
      · cases same
        exact List.lookup_cons_self
      · have other : (key == name) = false := by
          refine beq_eq_false_iff_ne.mpr fun same => once.1 ?_
          exact List.mem_map.mpr ⟨(key, value), later, same⟩
        rw [List.lookup_cons, other]
        exact ih once.2 later

theorem delivered_shown (msg : Route) (payload : Bytes) (v : Json)
    (shown : Shown isPrint (if payload ≠ [] && GoJson.valid payload then GoJson.compact payload else GoJson.stringText payload) v) :
    delivered isPrint msg payload = some (some v) := by
  obtain ⟨caller, callerShown⟩ := shown_string isPrint msg.callerID
  obtain ⟨correlation, correlationShown⟩ := shown_string isPrint msg.correlationID
  obtain ⟨replyTo, replyToShown⟩ := shown_string isPrint msg.replyTo
  obtain ⟨topic, topicShown⟩ := shown_string isPrint msg.topic
  obtain ⟨trace, traceShown⟩ := shown_string isPrint msg.traceID
  let entries : List Entry := [
    ⟨"callerId", msg.callerID ≠ [], GoJson.stringText msg.callerID, .string caller⟩,
    ⟨"correlationId", msg.correlationID ≠ [], GoJson.stringText msg.correlationID, .string correlation⟩,
    ⟨"done", msg.done ≠ [], boolText (msg.done = lit "true"), .bool (msg.done = lit "true")⟩,
    ⟨"envelope", msg.envelope ≠ [], boolText (msg.envelope = lit "true"), .bool (msg.envelope = lit "true")⟩,
    ⟨"payload", true,
      if payload ≠ [] && GoJson.valid payload then GoJson.compact payload else GoJson.stringText payload, v⟩,
    ⟨"replyTo", msg.replyTo ≠ [], GoJson.stringText msg.replyTo, .string replyTo⟩,
    ⟨"topic", true, GoJson.stringText msg.topic, .string topic⟩,
    ⟨"traceId", msg.traceID ≠ [], GoJson.stringText msg.traceID, .string trace⟩]
  have same : busBridgeMsgObject msg payload = entries.map fun e => (e.name, e.present, e.raw) := rfl
  have all : entries.map (·.name) = names := rfl
  have known : ∀ e ∈ entries, e.name ∈ names := fun e member => all ▸ List.mem_map_of_mem member
  have each : ∀ e ∈ entries, Shown isPrint e.raw e.value := by
    simp only [entries, List.forall_mem_cons]
    exact ⟨callerShown, correlationShown, shown_bool isPrint _, shown_bool isPrint _, shown, replyToShown, topicShown,
      traceShown, fun _ none => nomatch none⟩
  have once : (((entries.filter (·.present)).map fun e => (unitsOf e.name, e.value)).map Prod.fst).Nodup := by
    have keys : (names.map unitsOf) = entries.map fun e => unitsOf e.name := by rw [← all, List.map_map]; rfl
    rw [List.map_map]
    exact ((List.filter_sublist (l := entries)).map fun e => unitsOf e.name).nodup (keys ▸ names_once)
  have here : (unitsOf "payload", v) ∈ (entries.filter (·.present)).map fun e => (unitsOf e.name, e.value) := by
    let field : Entry := ⟨"payload", true,
      if payload ≠ [] && GoJson.valid payload then GoJson.compact payload else GoJson.stringText payload, v⟩
    have listed : field ∈ entries := .tail _ (.tail _ (.tail _ (.tail _ (.head _))))
    exact List.mem_map.mpr ⟨field, List.mem_filter.mpr ⟨listed, rfl⟩, rfl⟩
  rw [delivered, same, marshal_read isPrint entries known each, assign_fresh once]
  exact congrArg some (lookup_member once here)

theorem delivered_text (msg : Route) (v : Json) :
    delivered isPrint msg (argument (some v)) = some (some (rewrite (altered isPrint) v)) := by
  refine delivered_shown isPrint msg _ _ ?_
  obtain ⟨byte, rest, begins, -⟩ := (GoJson.valued_text v).begins
  have some_ : argument (some v) ≠ [] := by
    change encode (text v) ≠ []
    rw [begins]
    simp
  have valid : GoJson.valid (argument (some v)) = true := GoJson.valid_text v
  rw [if_pos (by simp [some_, valid])]
  exact shown_text isPrint v

theorem delivered_undefined (msg : Route) : ∃ units, delivered isPrint msg (argument none) = some (some (.string units)) := by
  obtain ⟨units, shown⟩ := shown_string isPrint (argument none)
  have invalid : GoJson.valid (argument none) = false := by decide
  refine ⟨units, delivered_shown isPrint msg _ _ ?_⟩
  rw [if_neg (by simp [invalid])]
  exact shown

theorem parseCallRaw_text (v : Json) (wf : Wf v) : parseCallRaw (newString (encode (text v))) = some v := by
  have read := parse_stringify v wf
  have noNul : '\x00' ∉ text v := fun member => absurd (text_shown v _ member) (by decide)
  rw [newString_encode noNul, units]
  by_cases short : (text v).flatMap (fun c => utf16 c.toNat) = [] ∨ (text v).flatMap (fun c => utf16 c.toNat) = unitsOf "null"
  · rw [parseCallRaw, if_pos (by simpa using short)]
    rcases short with empty | null
    · rw [empty] at read
      have refused : parse [] = none := rfl
      exact absurd (refused.symm.trans read) nofun
    · rw [null] at read
      have here : parse (unitsOf "null") = some .null := rfl
      exact here.symm.trans read
  · rw [parseCallRaw, if_neg (by simpa using short)]
    exact read

theorem text_some (v : Json) : encode (text v) ≠ [] := by
  obtain ⟨byte, rest, begins, -⟩ := (GoJson.valued_text v).begins
  rw [begins]
  exact List.cons_ne_nil _ _

theorem callResult_text (v : Json) (wf : Wf v) : callResult (encode (text v)) false = some v := by
  rw [callResult, if_neg (by decide), Option.bind_eq_bind, Option.bind_some]
  dsimp only
  rw [if_neg (text_some v)]
  exact parseCallRaw_text v wf

theorem callResult_reply (data : Option Json) (wf : Wf (orNull data)) : callResult (reply data) true = some (orNull data) := by
  have members := GoJson.object_text [(unitsOf "ok", .bool true), (unitsOf "data", orNull data)]
  have decoded : decodeEnvelope (reply data) = some (encode (text (orNull data))) := by
    have valid : GoJson.valid (reply data) = true := GoJson.valid_text _
    rw [decodeEnvelope, if_pos valid]
    exact congrArg (Option.bind · _) members
  rw [callResult, if_pos rfl, decoded, Option.bind_eq_bind, Option.bind_some]
  dsimp only
  rw [if_neg (text_some _)]
  exact parseCallRaw_text _ wf

theorem lookup_fields (g : Json → Json) {fields : List (String × Option Json)} {name : String} {value : Option Json}
    (once : (fields.map fun field => unitsOf field.1).Nodup) (member : (name, value) ∈ fields) :
    (fields.filterMap fun field => field.2.map fun v => (unitsOf field.1, g v)).lookup (unitsOf name) = value.map g := by
  induction fields with
  | nil => cases member
  | cons first rest ih =>
      obtain ⟨key, stored⟩ := first
      rw [List.map_cons, List.nodup_cons] at once
      rcases List.mem_cons.mp member with same | later
      · cases same
        cases value with
        | some v => exact List.lookup_cons_self
        | none =>
            refine List.lookup_eq_none_iff.mpr fun pair listed => ?_
            rw [List.filterMap_cons_none rfl] at listed
            obtain ⟨field, found, made⟩ := List.mem_filterMap.mp listed
            obtain ⟨v, -, rfl⟩ := Option.map_eq_some_iff.mp made
            exact bne_iff_ne.mpr fun same => once.1 (List.mem_map.mpr ⟨field, found, same.symm⟩)
      · have other : (unitsOf name == unitsOf key) = false :=
          beq_eq_false_iff_ne.mpr fun same => once.1 (List.mem_map.mpr ⟨(name, value), later, same⟩)
        cases stored with
        | none => exact ih once.2 later
        | some v =>
            have written : ((key, some v) :: rest).filterMap (fun field => field.2.map fun v => (unitsOf field.1, g v)) =
                (unitsOf key, g v) :: rest.filterMap fun field => field.2.map fun v => (unitsOf field.1, g v) := rfl
            rw [written, List.lookup_cons, other]
            exact ih once.2 later

theorem literal_keys (g : Json → Json) (fields : List (String × Option Json)) :
    ((fields.filterMap fun field => field.2.map fun v => (unitsOf field.1, g v)).map Prod.fst).Sublist
      (fields.map fun field => unitsOf field.1) := by
  induction fields with
  | nil => exact .slnil
  | cons first rest ih =>
      obtain ⟨key, stored⟩ := first
      cases stored with
      | none => exact ih.cons _
      | some v => exact ih.cons_cons _

def isBasic : Code → Bool
  | .char c => c.toNat < 65536
  | .lone _ => true

def fieldNames : List String := ["type", "seq", "total", "event", "data"]

theorem fieldNames_visible {name : String} (known : name ∈ fieldNames) : Visible isPrint (unitsOf name) := by
  have basic : ∀ name ∈ fieldNames, ∀ code ∈ codePoints (unitsOf name), isBasic code = true := by decide
  intro code member
  have plane := basic name known code member
  cases code with
  | lone unit => trivial
  | char c => exact hidden_low isPrint (of_decide_eq_true plane)

theorem fieldNames_fit {name : String} (known : name ∈ fieldNames) : ∀ unit ∈ unitsOf name, unit < 65536 := by
  have fits : ∀ name ∈ fieldNames, ∀ unit ∈ unitsOf name, unit < 65536 := by decide
  exact fits name known

theorem fieldNames_kept {name : String} (known : name ∈ fieldNames) :
    (codePoints (unitsOf name)).flatMap (altered isPrint) = unitsOf name :=
  (altered_same_iff isPrint _ (fieldNames_fit known)).mpr (fieldNames_visible isPrint known)

theorem property_rewrite {fields : List (String × Option Json)} {name : String} {value : Option Json}
    (known : (fields.map Prod.fst).Sublist fieldNames) (member : (name, value) ∈ fields) :
    property (rewrite (altered isPrint) (literal fields)) name = value.map (rewrite (altered isPrint)) := by
  have once : (fields.map fun field => unitsOf field.1).Nodup := by
    have apart : (fieldNames.map unitsOf).Nodup := by decide
    have short := (known.map unitsOf).nodup apart
    rwa [List.map_map] at short
  have kept : rewriteMembers (altered isPrint) (fields.filterMap fun field => field.2.map fun v => (unitsOf field.1, v)) =
      fields.filterMap fun field => field.2.map fun v => (unitsOf field.1, rewrite (altered isPrint) v) := by
    have listed : ∀ field ∈ fields, field.1 ∈ fieldNames := fun field found => known.subset (List.mem_map_of_mem found)
    clear once member known
    induction fields with
    | nil => rfl
    | cons first rest ih =>
        obtain ⟨key, stored⟩ := first
        obtain ⟨here, others⟩ := List.forall_mem_cons.mp listed
        cases stored with
        | none => exact ih others
        | some v =>
            exact congrArg₂ (fun key ms => (key, rewrite (altered isPrint) v) :: ms) (fieldNames_kept isPrint here) (ih others)
  rw [literal, rewrite, kept, assign_fresh ((literal_keys _ fields).nodup once)]
  exact lookup_fields _ once member

end

structure JsonValue where
  value : Json
  wf : Wf value

def Api.bare : Api → Bool
  | .send | .streamText _ | .streamObject _ => true
  | _ => false

def Api.defaults : Api → Bool
  | .emit | .schedule | .streamEvent _ _ | .streamEnd _ => true
  | _ => false

def Api.quotes : Api → Bool
  | .reply | .streamEnd _ => false
  | _ => true

def Faithful (isPrint : Nat → Bool) (api : Api) : Option Json → Prop
  | none => api.bare = false
  | some v => (api.defaults = true → falsy v = true → v = .null) ∧ (api.quotes = true → Kept (Visible isPrint) v)

section

variable (isPrint : Nat → Bool)

def stands (defaults : Bool) (data : Option Json) : Json := if defaults then truthyOrNull data else orNull data

theorem stands_wf (defaults : Bool) (data : Option JsonValue) : Wf (stands defaults (data.map (·.value))) := by
  have whole : Wf (orNull (data.map (·.value))) := by
    cases data with
    | none => exact trivial
    | some v => exact v.wf
  cases defaults with
  | false => exact whole
  | true =>
      cases data with
      | none => exact trivial
      | some v =>
          change Wf (if falsy v.value then .null else v.value)
          split
          · exact trivial
          · exact v.wf

theorem stands_iff (defaults : Bool) (v : Json) :
    stands defaults (some v) = v ↔ (defaults = true → falsy v = true → v = .null) := by
  cases defaults with
  | false => exact iff_of_true rfl nofun
  | true =>
      change (if falsy v then Json.null else v) = v ↔ _
      by_cases empty : falsy v = true
      · rw [if_pos empty]
        exact ⟨fun same _ _ => same.symm, fun whole => (whole rfl empty).symm⟩
      · rw [if_neg empty]
        exact iff_of_true rfl fun _ found => absurd found empty

theorem stands_cases (defaults : Bool) (v : Json) : stands defaults (some v) = v ∨ stands defaults (some v) = .null := by
  cases defaults with
  | false => exact .inl rfl
  | true =>
      change (if falsy v then Json.null else v) = v ∨ (if falsy v then Json.null else v) = .null
      split
      · exact .inr rfl
      · exact .inl rfl

theorem rewrite_stands_iff (defaults : Bool) (v : JsonValue) :
    rewrite (altered isPrint) (stands defaults (some v.value)) = v.value ↔
      (defaults = true → falsy v.value = true → v.value = .null) ∧ Kept (Visible isPrint) v.value := by
  rw [← stands_iff, ← rewrite_altered_iff isPrint v.value v.wf]
  by_cases same : stands defaults (some v.value) = v.value
  · rw [same]
    exact (and_iff_right rfl).symm
  · have null : stands defaults (some v.value) = .null := (stands_cases defaults v.value).resolve_left same
    rw [null]
    exact iff_of_false (fun whole => same (null.trans whole)) fun both => same (null.trans both.1)

theorem streamed (msg : Route) {fields : List (String × Option Json)} {value : Option Json}
    (known : (fields.map Prod.fst).Sublist fieldNames) (member : ("data", value) ∈ fields) :
    (delivered isPrint msg (argument (some (literal fields)))).map (fun payload => payload.bind (property · "data")) =
      some (value.map (rewrite (altered isPrint))) := by
  rw [delivered_text, Option.map_some, Option.bind_some, property_rewrite isPrint known member]

theorem streamText_read (msg : Route) (seq : Numeral) (chunk : Option Json) :
    received isPrint msg chunk (.streamText seq) = some (chunk.map (rewrite (altered isPrint))) := by
  have known : ["type", "seq", "data"].Sublist fieldNames := by decide
  exact streamed isPrint msg known (.tail _ (.tail _ (.head _)))

theorem streamObject_read (msg : Route) (seq : Numeral) (part : Option Json) :
    received isPrint msg part (.streamObject seq) = some (part.map (rewrite (altered isPrint))) := by
  have known : ["type", "seq", "data"].Sublist fieldNames := by decide
  exact streamed isPrint msg known (.tail _ (.tail _ (.head _)))

theorem streamEvent_read (msg : Route) (seq : Numeral) (name data : Option Json) :
    received isPrint msg data (.streamEvent seq name) = some (some (rewrite (altered isPrint) (truthyOrNull data))) := by
  let fields : List (String × Option Json) := [("type", some (.string (unitsOf "event"))), ("seq", some (.number seq)),
    ("event", name), ("data", some (truthyOrNull data))]
  have known : ["type", "seq", "event", "data"].Sublist fieldNames := by decide
  have member : ("data", some (truthyOrNull data)) ∈ fields := .tail _ (.tail _ (.tail _ (.head _)))
  exact streamed isPrint msg (show (fields.map Prod.fst).Sublist fieldNames from known) member

theorem streamEnd_read (msg : Route) (seq : Numeral) (data : Option Json) (wf : Wf (truthyOrNull data)) :
    received isPrint msg data (.streamEnd seq) = some (some (truthyOrNull data)) := by
  let fields : List (String × Option Json) := [("type", some (.string (unitsOf "end"))), ("seq", some (.number seq)),
    ("total", some (.number seq)), ("data", some (truthyOrNull data))]
  have once : (fields.map fun field => unitsOf field.1).Nodup := by
    have apart : (["type", "seq", "total", "data"].map unitsOf).Nodup := by decide
    exact apart
  have fits : ∀ name ∈ ["type", "seq", "total", "data", "end"], ∀ unit ∈ unitsOf name, unit < 65536 := by decide
  have whole : Wf (literal fields) :=
    ⟨(literal_keys id fields).nodup once, fits "type" (by decide), fits "end" (by decide), fits "seq" (by decide), trivial,
      fits "total" (by decide), trivial, fits "data" (by decide), wf, trivial⟩
  have looked : property (literal fields) "data" = some (truthyOrNull data) := by
    have member : ("data", some (truthyOrNull data)) ∈ fields := .tail _ (.tail _ (.tail _ (.head _)))
    exact lookup_fields id once member
  exact (congrArg (Option.map (property · "data")) (callResult_text _ whole)).trans (congrArg some looked)

theorem quoted_some {api : Api} (quotes : api.quotes = true) {msg : Route} (v : JsonValue)
    (read : received isPrint msg (some v.value) api =
      some (some (rewrite (altered isPrint) (stands api.defaults (some v.value))))) :
    received isPrint msg (some v.value) api = some (some v.value) ↔ Faithful isPrint api (some v.value) := by
  rw [read, Option.some_inj, Option.some_inj, rewrite_stands_iff, Faithful]
  simp only [quotes, forall_const]

theorem plain_some {api : Api} (quotes : api.quotes = false) {msg : Route} (v : JsonValue)
    (read : received isPrint msg (some v.value) api = some (some (stands api.defaults (some v.value)))) :
    received isPrint msg (some v.value) api = some (some v.value) ↔ Faithful isPrint api (some v.value) := by
  rw [read, Option.some_inj, Option.some_inj, stands_iff, Faithful]
  simp only [quotes, Bool.false_eq_true, false_implies, and_true]

theorem received_some (msg : Route) (v : JsonValue) (api : Api) :
    received isPrint msg (some v.value) api = some (some v.value) ↔ Faithful isPrint api (some v.value) := by
  have delivered (value : Json) := delivered_text isPrint msg value
  cases api with
  | publish => exact quoted_some isPrint rfl v (delivered _)
  | emit => exact quoted_some isPrint rfl v (delivered _)
  | sendTo => exact quoted_some isPrint rfl v (delivered _)
  | call => exact quoted_some isPrint rfl v (delivered _)
  | callStream => exact quoted_some isPrint rfl v (delivered _)
  | schedule => exact quoted_some isPrint rfl v (delivered _)
  | reply =>
      have read := callResult_reply (some v.value) v.wf
      exact plain_some isPrint rfl v (congrArg (Option.map some) read)
  | send => exact quoted_some isPrint rfl v (delivered _)
  | streamText seq => exact quoted_some isPrint rfl v (streamText_read isPrint msg seq _)
  | streamObject seq => exact quoted_some isPrint rfl v (streamObject_read isPrint msg seq _)
  | streamEvent seq name => exact quoted_some isPrint rfl v (streamEvent_read isPrint msg seq name _)
  | streamEnd seq =>
      have wf := stands_wf true (some v)
      exact plain_some isPrint rfl v (streamEnd_read isPrint msg seq _ wf)

theorem received_undefined (msg : Route) (api : Api) :
    received isPrint msg none api = some (some .null) ↔ Faithful isPrint api none := by
  have null : delivered isPrint msg (argument (some .null)) = some (some .null) := delivered_text isPrint msg .null
  cases api with
  | publish => exact iff_of_true null rfl
  | emit => exact iff_of_true null rfl
  | sendTo => exact iff_of_true null rfl
  | call => exact iff_of_true null rfl
  | callStream => exact iff_of_true null rfl
  | schedule => exact iff_of_true null rfl
  | reply => exact iff_of_true (congrArg (Option.map some) (callResult_reply none trivial)) rfl
  | send =>
      obtain ⟨units, read⟩ := delivered_undefined isPrint msg
      refine iff_of_false (fun same => ?_) nofun
      have other := read.symm.trans same
      rw [Option.some_inj, Option.some_inj] at other
      exact Json.noConfusion other
  | streamText seq => exact iff_of_false (fun same => nomatch (streamText_read isPrint msg seq none).symm.trans same) nofun
  | streamObject seq => exact iff_of_false (fun same => nomatch (streamObject_read isPrint msg seq none).symm.trans same) nofun
  | streamEvent seq name => exact iff_of_true (streamEvent_read isPrint msg seq name none) rfl
  | streamEnd seq => exact iff_of_true (streamEnd_read isPrint msg seq none trivial) rfl

theorem payload_received_iff (msg : Route) (data : Option JsonValue) (api : Api) :
    received isPrint msg (data.map (·.value)) api = some (some (orNull (data.map (·.value)))) ↔
      Faithful isPrint api (data.map (·.value)) := by
  cases data with
  | none => exact received_undefined isPrint msg api
  | some v => exact received_some isPrint msg v api

end

-- bus.emit(topic, false): the handler has null.
theorem emit_false_lost : ¬ ∀ (isPrint : Nat → Bool) (msg : Route) (data : Option JsonValue) (api : Api),
    received isPrint msg (data.map (·.value)) api = some (some (orNull (data.map (·.value)))) := by
  intro all
  have read := delivered_text (fun _ => true) ⟨lit "t", [], [], [], [], [], []⟩ .null
  have meant := all (fun _ => true) ⟨lit "t", [], [], [], [], [], []⟩ (some ⟨.bool false, trivial⟩) .emit
  have same := read.symm.trans meant
  rw [Option.some_inj, Option.some_inj] at same
  exact Json.noConfusion same

end Brainkit.Runtime.BusPayload
